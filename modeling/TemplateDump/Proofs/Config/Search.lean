import TemplateDump.Config.Discovery
import TemplateDump.Proofs.Config.Lookup

/-!
# The search for a configuration

A discovery looks the start up, makes the path to search from (`searchPath_of_relative`) and goes up
from there one parent at a time (`searchUpwards_eq`).
-/

namespace TemplateDump

open PathText

theorem isName_configFileName : FileTree.IsName configFileName := by decide

namespace FileTree

variable {tree : FileTree} {path : List Char} {start : String}

/-- The place has an entry with the name of a configuration file. -/
def HasConfig (tree : FileTree) (place : List Name) : Prop :=
  tree.entry? (place ++ [configFileName]) ≠ none

instance (tree : FileTree) (place : List Name) : Decidable (tree.HasConfig place) :=
  inferInstanceAs (Decidable (_ ≠ _))

/-- One parent of a search. -/
theorem searchUpwards_eq (hne : path ≠ []) :
    tree.searchUpwards path =
      match tree.lookup (join path configFileName) with
      | .error error => .error error
      | .ok (some _) => .ok (some (join path configFileName))
      | .ok none =>
        if parent path = path then .ok none else tree.searchUpwards (parent path) := by
  rw [searchUpwards, if_neg (by simpa using hne)]
  rfl

theorem searchUpwards_of_found (hne : path ≠ []) {kind : EntryKind}
    (h : tree.lookup (join path configFileName) = .ok (some kind)) :
    tree.searchUpwards path = .ok (some (join path configFileName)) := by
  rw [searchUpwards_eq hne, h]

theorem searchUpwards_of_none (hne : path ≠ [])
    (h : tree.lookup (join path configFileName) = .ok none) :
    tree.searchUpwards path =
      if parent path = path then .ok none else tree.searchUpwards (parent path) := by
  rw [searchUpwards_eq hne, h]

theorem searchUpwards_nil (tree : FileTree) : tree.searchUpwards [] = .ok none := by
  rw [searchUpwards]
  rfl

/-! ## The path of a search -/

/-- The path that a start stands for: without its last name if that is the name of a file. -/
def basePath (start : List Char) (kind : Option EntryKind) : List Char :=
  if kind = some .file then parent start else start

theorem isAbsolute_basePath (path : List Char) (kind : Option EntryKind) :
    isAbsolute (basePath path kind) = isAbsolute path := by
  rw [basePath]
  split
  · cases h : isAbsolute path with
    | true => exact isAbsolute_parent h
    | false => exact isAbsolute_parent_of_relative h
  · rfl

theorem basePath_subset (path : List Char) (kind : Option EntryKind) :
    basePath path kind ⊆ path := by
  rw [basePath]
  split
  · exact (parent_isPrefix path).subset
  · exact List.Subset.refl path

theorem searchPath_of_error {error : LookupError} (hne : path ≠ [])
    (h : tree.lookup path = .error error) : tree.searchPath path = .error error := by
  rw [searchPath, if_neg (by simpa using hne), h]
  rfl

theorem searchPath_of_lookup {kind : Option EntryKind} (hne : path ≠ [])
    (h : tree.lookup path = .ok kind) :
    tree.searchPath path =
      .ok (if (basePath path kind).isEmpty || isAbsolute (basePath path kind) then
          basePath path kind
        else join tree.workingPath (basePath path kind)) := by
  rw [searchPath, if_neg (by simpa using hne), h]
  show (if (basePath path kind).isEmpty || isAbsolute (basePath path kind) then pure _
    else pure _ : Except LookupError (List Char)) = _
  split <;> rfl

/-- A relative start is searched from below the working directory. -/
theorem searchPath_of_relative {kind : Option EntryKind} (hne : path ≠ [])
    (h : tree.lookup path = .ok kind) (hbase : basePath path kind ≠ [])
    (hrelative : isAbsolute (basePath path kind) = false) :
    tree.searchPath path = .ok (join tree.workingPath (basePath path kind)) := by
  rw [searchPath_of_lookup hne h, if_neg (by simp [hbase, hrelative])]

/-- The path that is looked up first.  The empty start stands for the working directory. -/
def givenPath (tree : FileTree) (start : List Char) : List Char :=
  if start.isEmpty then tree.workingPath else start

theorem workingPath_ne_nil (tree : FileTree) : tree.workingPath ≠ [] :=
  pathTo_ne_nil tree.workingDirectory

theorem givenPath_ne_nil (tree : FileTree) (start : List Char) : tree.givenPath start ≠ [] := by
  rw [givenPath]
  split
  · exact tree.workingPath_ne_nil
  · next hne => simpa using hne

/-- What is given is searched from, whether it was given as the empty start or not. -/
theorem searchPath_givenPath (tree : FileTree) (start : List Char) :
    tree.searchPath (tree.givenPath start) = tree.searchPath start := by
  have hgiven : (tree.givenPath start).isEmpty = false :=
    List.isEmpty_eq_false_iff.2 (tree.givenPath_ne_nil start)
  rw [searchPath, searchPath, hgiven]
  rfl

/-! ## The result of a discovery -/

/-- What a discovery gives is what the search gives that starts from its path. -/
theorem discover_of_searchPath (h : tree.searchPath start.toList = .ok path) :
    tree.discover start = (tree.searchUpwards path).map (Option.map String.ofList) := by
  rw [discover, h]
  show (tree.searchUpwards path >>= fun found => pure (found.map String.ofList)) = _
  cases tree.searchUpwards path <;> rfl

theorem discover_of_error {error : LookupError} (h : tree.searchPath start.toList = .error error) :
    tree.discover start = .error error := by
  rw [discover, h]
  rfl

theorem searchUpwards_of_discover {found : String} (hpath : tree.searchPath start.toList = .ok path)
    (h : tree.discover start = .ok (some found)) :
    tree.searchUpwards path = .ok (some found.toList) := by
  rw [discover_of_searchPath hpath] at h
  cases hsearch : tree.searchUpwards path with
  | error error =>
    rw [hsearch] at h
    exact absurd h nofun
  | ok result =>
    rw [hsearch] at h
    obtain ⟨text, rfl, rfl⟩ := Option.map_eq_some_iff.1 (Except.ok.inj h)
    rw [String.toList_ofList]

end FileTree

end TemplateDump
