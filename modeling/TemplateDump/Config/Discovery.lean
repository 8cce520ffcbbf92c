import TemplateDump.Config.FileTree

/-!
# Discovery of the configuration

The configuration that governs a path is the nearest one at or above it: in the directory that the
path names, or that holds the file that it names, or else in the next directory above that has
one. What is above is read off the text of the path, while the file tree tells what exists; so a
path with `..` in it can lead past directories that are not above it.
-/

namespace TemplateDump

/-- The name of a configuration file. -/
def configFileName : PathText.Name := "stencil-dump.json".toList

namespace FileTree

/-- The path that a search begins with: the absolute form of the start, or of the path without its
last name if the start is a file. A file name alone leaves the empty path, which has no absolute
form. The empty start stands for the working directory. -/
def searchPath (tree : FileTree) (start : List Char) : Except LookupError (List Char) := do
  let given := if start.isEmpty then tree.workingPath else start
  let kind ← tree.lookup given
  let base := if kind = some .file then PathText.parent given else given
  if base.isEmpty || PathText.isAbsolute base then
    return base
  else
    return PathText.join tree.workingPath base

/-- The first configuration in the directories that a path and its parents name. Whatever has the
name of a configuration file counts. -/
def searchUpwards (tree : FileTree) (path : List Char) :
    Except LookupError (Option (List Char)) :=
  if path.isEmpty then .ok none
  else
    let candidate := PathText.join path configFileName
    match tree.lookup candidate with
    | .error error => .error error
    | .ok (some _) => .ok (some candidate)
    | .ok none =>
      if _same : PathText.parent path = path then .ok none
      else tree.searchUpwards (PathText.parent path)
termination_by path.length
decreasing_by exact PathText.parent_length_lt _same

/-- The path of the configuration that governs a path. -/
def discover (tree : FileTree) (start : String) : Except LookupError (Option String) := do
  let path ← tree.searchPath start.toList
  let found ← tree.searchUpwards path
  return found.map String.ofList

end FileTree

end TemplateDump
