import TemplateDump.Config.FileTree

/-!
# Creating files and directories

Directories are created along a path: each name that it goes through becomes a directory where
there is nothing yet, also a name that a later `..` leaves again. One path may lack no more than a
thousand directories. A file is created together with the directories of the parent of its path.

`isDirectory_mkdir` says which directories there are after one is added.
-/

namespace TemplateDump

open PathText (Name)

/-- Why a directory cannot be created. -/
inductive CreationError where
  | nameTooLong
  | pathTooLong
  | tooManyMissing
  | notDirectory
deriving DecidableEq

namespace FileTree

/-! ## Directories -/

/-- Adds a directory. Those that lead to it need no mention of their own any more. -/
def mkdir (tree : FileTree) (place : List Name) : FileTree :=
  { tree with directories := place :: tree.directories.filter fun other => !other.isPrefixOf place }

/-- After a directory is added there are those that were there, the new one, and the ones that lead
to it. -/
theorem isDirectory_mkdir (tree : FileTree) (place other : List Name) :
    (tree.mkdir place).isDirectory other =
      (tree.isDirectory other || other.isPrefixOf place) := by
  have hkept : ((tree.directories.filter fun d => !d.isPrefixOf place).any (other.isPrefixOf ·)
      || other.isPrefixOf place) =
        (tree.directories.any (other.isPrefixOf ·) || other.isPrefixOf place) := by
    cases hnew : other.isPrefixOf place with
    | true => simp
    | false =>
      simp only [Bool.or_false, List.any_filter]
      congr 1
      funext d
      cases hold : other.isPrefixOf d with
      | false => simp
      | true =>
        have : d.isPrefixOf place = false := by
          rw [Bool.eq_false_iff]
          intro hd
          rw [List.isPrefixOf_iff_prefix] at hold hd
          exact (Bool.eq_false_iff.1 hnew) (List.isPrefixOf_iff_prefix.2 (hold.trans hd))
        simp [this]
  simp only [isDirectory, mkdir, List.any_cons] at hkept ⊢
  rw [Bool.or_comm (other.isPrefixOf place), hkept]
  cases other.isPrefixOf place <;> simp

/-- Creates the directories that names go through from a place. -/
def makeAlong (tree : FileTree) : List Name → List Name → Except CreationError FileTree
  | _, [] => .ok tree
  | place, name :: rest =>
    if name = [] ∨ name = currentName then tree.makeAlong place rest
    else if name = parentName then tree.makeAlong place.dropLast rest
    else if maxNameBytes < textBytes name then .error .nameTooLong
    else
      match tree.entry? (place ++ [name]) with
      | some .directory => tree.makeAlong (place ++ [name]) rest
      | some .file => .error .notDirectory
      | none => (tree.mkdir (place ++ [name])).makeAlong (place ++ [name]) rest

/-- Whether a name is looked up in a directory, rather than to stay there or to leave it. -/
def isOrdinary (name : Name) : Bool :=
  !name.isEmpty && name != currentName && name != parentName

/-- The names from the first one on that leads from a place to where nothing is yet. -/
def missingNames (tree : FileTree) : List Name → List Name → List Name
  | _, [] => []
  | place, name :: rest =>
    if name = [] ∨ name = currentName then tree.missingNames place rest
    else if name = parentName then tree.missingNames place.dropLast rest
    else if (tree.entry? (place ++ [name])).isNone then name :: rest
    else tree.missingNames (place ++ [name]) rest

/-- The number of directories that one path may lack. -/
def maxMissing : Nat := 1000

/-- Creates the directories that a path goes through. -/
def makeDirectories (tree : FileTree) (path : List Char) : Except CreationError FileTree :=
  let (place, names) := tree.itinerary path
  if !tree.admits path then .error .pathTooLong
  else if maxMissing < (tree.missingNames place names).countP isOrdinary then
    .error .tooManyMissing
  else tree.makeAlong place names

/-! ## Files -/

/-- The place that names lead to from a place through directories, if the last of them is a name
that a new file there could have. -/
def newFilePlace? (tree : FileTree) : List Name → List Name → Option (List Name)
  | _, [] => none
  | place, name :: rest =>
    if !tree.isDirectory place then none
    else if name = [] ∨ name = currentName then tree.newFilePlace? place rest
    else if name = parentName then tree.newFilePlace? place.dropLast rest
    else if maxNameBytes < textBytes name then none
    else if rest.isEmpty then some (place ++ [name])
    else tree.newFilePlace? (place ++ [name]) rest

/-- Creates a file at a path, after the directories of the parent of the path. Where no file can be
created, only the directories are. -/
def writeFile (tree : FileTree) (path : List Char) : Except CreationError FileTree := do
  let made ← tree.makeDirectories (PathText.parent path)
  let (place, names) := made.itinerary path
  match made.newFilePlace? place names with
  | some new =>
    if made.admits path && (made.entry? new).isNone then
      return { made with files := made.files ++ [new] }
    else return made
  | none => return made

end FileTree

end TemplateDump
