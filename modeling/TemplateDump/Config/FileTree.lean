import TemplateDump.Config.PathText

/-!
# File trees

A file tree holds files and directories below one root, and one of its directories is the working
directory. A look-up follows a path name by name from the root or from the working directory. It
finds nothing as soon as a name is looked up in what is no directory. It is an error only to look
up a name in a directory that is longer than a name may be, and, in a tree that limits the length
of paths, to look up a path that is longer.

`lookup_of_admits` says what a look-up is when the limit on paths is kept.
-/

namespace TemplateDump

open PathText (Name)

/-! ## Entries -/

/-- Files, directories and the working directory, each given by its names from the root on. The
parents of all of them are directories too. The path limit is the number of bytes that a path text
may take, if there is such a limit. -/
structure FileTree where
  files : List (List Name)
  directories : List (List Name)
  workingDirectory : List Name
  pathLimit : Option Nat := none

/-- What a path can lead to. -/
inductive EntryKind where
  | file
  | directory
deriving DecidableEq

/-- Why a look-up fails without an answer. -/
inductive LookupError where
  | nameTooLong
  | pathTooLong
deriving DecidableEq

namespace FileTree

/-- Whether there is a directory at a place. -/
def isDirectory (tree : FileTree) (place : List Name) : Bool :=
  place.isEmpty || (tree.workingDirectory :: tree.directories).any (place.isPrefixOf ·) ||
    tree.files.any fun file => place.isPrefixOf file && place != file

/-- What is at a place. -/
def entry? (tree : FileTree) (place : List Name) : Option EntryKind :=
  if tree.isDirectory place then some .directory
  else if tree.files.contains place then some .file
  else none

/-! ## Look-ups -/

/-- The number of bytes that a text takes in UTF-8. -/
def textBytes (text : List Char) : Nat :=
  text.foldr (fun c bytes => c.utf8Size + bytes) 0

/-- The number of bytes that a name may take. -/
def maxNameBytes : Nat := 255

/-- The number of bytes that a path may take where paths are limited. -/
def maxPathBytes : Nat := 4095

/-- The name that stays where it is. -/
def currentName : Name := ['.']

/-- The name that leads to the directory above. -/
def parentName : Name := ['.', '.']

/-- Follows names from a place and tells what the last one leads to. Empty names stay where they
are, and the root is above itself. -/
def follow (tree : FileTree) : List Name → List Name → Except LookupError (Option EntryKind)
  | place, [] => .ok (tree.entry? place)
  | place, name :: rest =>
    if !tree.isDirectory place then .ok none
    else if name = [] ∨ name = currentName then tree.follow place rest
    else if name = parentName then tree.follow place.dropLast rest
    else if maxNameBytes < textBytes name then .error .nameTooLong
    else tree.follow (place ++ [name]) rest

/-- The part of a path text that the files know: it ends before the first U+0000. -/
def knownText (path : List Char) : List Char :=
  path.takeWhile (· != '\x00')

/-- The place where a path starts, and the names that lead on from there. -/
def itinerary (tree : FileTree) (path : List Char) : List Name × List Name :=
  match knownText path with
  | '/' :: rest => ([], PathText.names rest)
  | text => (tree.workingDirectory, PathText.names text)

/-- Whether a path is no longer than paths may be. -/
def admits (tree : FileTree) (path : List Char) : Bool :=
  tree.pathLimit.all (textBytes (knownText path) ≤ ·)

/-- What a path leads to. Nothing is found for the empty text. -/
def lookup (tree : FileTree) (path : List Char) : Except LookupError (Option EntryKind) :=
  if (knownText path).isEmpty then .ok none
  else if !tree.admits path then .error .pathTooLong
  else tree.follow (tree.itinerary path).1 (tree.itinerary path).2

/-- Without a limit every path is admitted. -/
theorem admits_of_unlimited {tree : FileTree} (h : tree.pathLimit = none) (path : List Char) :
    tree.admits path = true := by
  simp [admits, h]

/-- The look-up of a path that is not too long follows its names. -/
theorem lookup_of_admits {tree : FileTree} {path : List Char} (h : tree.admits path = true) :
    tree.lookup path =
      if (knownText path).isEmpty then .ok none
      else tree.follow (tree.itinerary path).1 (tree.itinerary path).2 := by
  simp [lookup, h]

/-- The working directory as an absolute path. -/
def workingPath (tree : FileTree) : List Char :=
  match tree.workingDirectory with
  | [] => ['/']
  | names => names.flatMap ('/' :: ·)

end FileTree

end TemplateDump
