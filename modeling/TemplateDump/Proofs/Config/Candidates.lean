import TemplateDump.Proofs.Config.Search

/-!
# What a discovery looks up

After the start itself a discovery looks up one path after the other: the name of a configuration
joined to the path of the search, to the parent of that, and so on.  These candidates are known
before any of them is looked up (`candidates`), there are no more of them than the path of the
search has characters (`length_lineage_le`), and the discovery goes over them up to the first that
exists (`discover_eq_firstFound`).

It does not ask what the first is.  So a directory with the name of a configuration is found like a
file, and hides a file further up: `discover_finds_file_iff` and `discover_of_directory_below_file`.
-/

namespace TemplateDump

/-! ## A path and its parents -/

namespace PathText

/-- Induction along the parents of a path, up to one that is its own parent. -/
theorem parent_induction {motive : List Char → Prop} (nil : motive [])
    (root : ∀ path, path ≠ [] → parent path = path → motive path)
    (below : ∀ path, path ≠ [] → parent path ≠ path → motive (parent path) → motive path)
    (path : List Char) : motive path := by
  induction hn : path.length using Nat.strongRecOn generalizing path with
  | ind n ih =>
    by_cases hne : path = []
    · exact hne ▸ nil
    · by_cases hparent : parent path = path
      · exact root path hne hparent
      · exact below path hne hparent (ih _ (hn ▸ parent_length_lt hparent) _ rfl)

/-- A path and its parents, one after the other, but for the empty path. -/
def lineage (path : List Char) : List (List Char) :=
  if path = [] then []
  else path :: if _same : parent path = path then [] else lineage (parent path)
termination_by path.length
decreasing_by exact parent_length_lt _same

@[simp] theorem lineage_nil : lineage [] = [] := by
  rw [lineage, if_pos rfl]

theorem lineage_of_parent_eq {path : List Char} (hne : path ≠ []) (h : parent path = path) :
    lineage path = [path] := by
  rw [lineage, if_neg hne, dif_pos h]

theorem lineage_of_parent_ne {path : List Char} (hne : path ≠ []) (h : parent path ≠ path) :
    lineage path = path :: lineage (parent path) := by
  rw [lineage, if_neg hne, dif_neg h]

/-- Taking parents comes to an end after no more steps than the path has characters. -/
theorem length_lineage_le (path : List Char) : (lineage path).length ≤ path.length := by
  induction path using parent_induction with
  | nil => rw [lineage_nil]; rfl
  | root path hne hparent =>
    rw [lineage_of_parent_eq hne hparent]
    exact List.length_pos_iff.2 hne
  | below path hne hparent ih =>
    rw [lineage_of_parent_ne hne hparent, List.length_cons]
    exact Nat.succ_le_of_lt (Nat.lt_of_le_of_lt ih (parent_length_lt hparent))

/-- What each parent keeps holds of all. -/
theorem forall_mem_lineage {holds : List Char → Prop}
    (hparent : ∀ path, holds path → holds (parent path)) {path : List Char} (hpath : holds path) :
    ∀ above ∈ lineage path, holds above := by
  induction path using parent_induction with
  | nil => rw [lineage_nil]; exact List.forall_mem_nil _
  | root path hne hsame =>
    rw [lineage_of_parent_eq hne hsame]
    exact List.forall_mem_singleton.2 hpath
  | below path hne hother ih =>
    rw [lineage_of_parent_ne hne hother]
    exact List.forall_mem_cons.2 ⟨hpath, ih (hparent path hpath)⟩

end PathText

namespace FileTree

open PathText

variable {tree : FileTree} {path : List Char} {kind : EntryKind}

/-! ## The first that exists -/

/-- Looks paths up one after the other, and gives the first that leads to something. -/
def firstFound (tree : FileTree) : List (List Char) → Except LookupError (Option (List Char))
  | [] => .ok none
  | path :: rest =>
    match tree.lookup path with
    | .error error => .error error
    | .ok (some _) => .ok (some path)
    | .ok none => tree.firstFound rest

/-- A path is the first of some paths that leads to something, and it leads to this. -/
def IsFirst (tree : FileTree) (paths : List (List Char)) (path : List Char) (kind : EntryKind) :
    Prop :=
  ∃ before behind, paths = before ++ path :: behind ∧
    (∀ other ∈ before, tree.lookup other = .ok none) ∧ tree.lookup path = .ok (some kind)

theorem not_isFirst_nil : ¬ tree.IsFirst [] path kind := by
  rintro ⟨before, behind, h, -⟩
  exact absurd h (by simp)

theorem isFirst_cons_iff {other : List Char} {rest : List (List Char)} :
    tree.IsFirst (other :: rest) path kind ↔
      path = other ∧ tree.lookup other = .ok (some kind) ∨
        tree.lookup other = .ok none ∧ tree.IsFirst rest path kind := by
  constructor
  · rintro ⟨before, behind, hpaths, hbefore, hpath⟩
    cases before with
    | nil =>
      obtain ⟨rfl, rfl⟩ := List.cons.inj hpaths
      exact .inl ⟨rfl, hpath⟩
    | cons first before =>
      obtain ⟨rfl, rfl⟩ := List.cons.inj hpaths
      obtain ⟨hfirst, hbefore⟩ := List.forall_mem_cons.1 hbefore
      exact .inr ⟨hfirst, before, behind, rfl, hbefore, hpath⟩
  · rintro (⟨rfl, hpath⟩ | ⟨hother, before, behind, rfl, hbefore, hpath⟩)
    · exact ⟨[], rest, rfl, List.forall_mem_nil _, hpath⟩
    · exact ⟨other :: before, behind, rfl, List.forall_mem_cons.2 ⟨hother, hbefore⟩, hpath⟩

/-- What is given is the first path that leads to something. -/
theorem firstFound_eq_some_iff {paths : List (List Char)} :
    tree.firstFound paths = .ok (some path) ↔ ∃ kind, tree.IsFirst paths path kind := by
  induction paths with
  | nil => exact iff_of_false nofun fun ⟨_, h⟩ => not_isFirst_nil h
  | cons other rest ih =>
    simp only [isFirst_cons_iff, firstFound]
    cases hother : tree.lookup other with
    | error error => simp
    | ok found =>
      cases found with
      | none => simpa using ih
      | some kind => simpa using eq_comm

/-- If no look-up is an error, the search for the first is none. -/
theorem exists_firstFound_eq_ok {paths : List (List Char)}
    (h : ∀ other ∈ paths, ∃ found, tree.lookup other = .ok found) :
    ∃ found, tree.firstFound paths = .ok found := by
  induction paths with
  | nil => exact ⟨none, rfl⟩
  | cons other rest ih =>
    obtain ⟨⟨found, hfound⟩, hrest⟩ := List.forall_mem_cons.1 h
    rw [firstFound, hfound]
    cases found with
    | none => exact ih hrest
    | some kind => exact ⟨some other, rfl⟩

/-! ## The candidates -/

/-- A search upwards goes over the configurations that the path and its parents could have. -/
theorem searchUpwards_eq_firstFound (path : List Char) :
    tree.searchUpwards path = tree.firstFound ((lineage path).map (join · configFileName)) := by
  induction path using parent_induction with
  | nil => rw [searchUpwards_nil, lineage_nil]; rfl
  | root path hne hparent =>
    rw [searchUpwards_eq hne, if_pos hparent, lineage_of_parent_eq hne hparent]
    rfl
  | below path hne hparent ih =>
    rw [searchUpwards_eq hne, if_neg hparent, ih, lineage_of_parent_ne hne hparent]
    rfl

/-- The paths that a discovery looks up behind the start, as far as it gets. -/
def candidates (tree : FileTree) (start : List Char) : List (List Char) :=
  match tree.searchPath start with
  | .ok path => (lineage path).map (join · configFileName)
  | .error _ => []

theorem candidates_of_searchPath {start : List Char} (h : tree.searchPath start = .ok path) :
    tree.candidates start = (lineage path).map (join · configFileName) := by
  rw [candidates, h]

theorem candidates_of_error {start : List Char} {error : LookupError}
    (h : tree.searchPath start = .error error) : tree.candidates start = [] := by
  rw [candidates, h]

theorem candidates_givenPath (tree : FileTree) (start : List Char) :
    tree.candidates (tree.givenPath start) = tree.candidates start := by
  rw [candidates, searchPath_givenPath, candidates]

variable {start : String}

theorem discover_eq_firstFound (h : tree.searchPath start.toList = .ok path) :
    tree.discover start =
      (tree.firstFound (tree.candidates start.toList)).map (Option.map String.ofList) := by
  rw [discover_of_searchPath h, searchUpwards_eq_firstFound, candidates_of_searchPath h]

/-- A discovery finds the first of its candidates that leads to something. -/
theorem discover_eq_some_iff {found : String} :
    tree.discover start = .ok (some found) ↔
      ∃ kind, tree.IsFirst (tree.candidates start.toList) found.toList kind := by
  rw [← firstFound_eq_some_iff]
  cases hpath : tree.searchPath start.toList with
  | error error =>
    rw [discover_of_error hpath, candidates_of_error hpath]
    exact iff_of_false nofun nofun
  | ok path =>
    constructor
    · intro h
      have hsearch := searchUpwards_of_discover hpath h
      rwa [searchUpwards_eq_firstFound, ← candidates_of_searchPath hpath] at hsearch
    · intro h
      rw [discover_eq_firstFound hpath, h]
      exact congrArg (fun text => Except.ok (some text)) String.ofList_toList

/-! ## Files and directories -/

/-- **What has the name is found.**  For every file tree and every start, a discovery finds the
first of its candidates that leads to something, be it a file or a directory.  So all that it can
find from a start is a file if and only if no directory is the first of the candidates that there
are. -/
theorem discover_finds_file_iff (tree : FileTree) (start : String) :
    (∀ found : String, tree.discover start = .ok (some found) ↔
      ∃ kind, tree.IsFirst (tree.candidates start.toList) found.toList kind) ∧
    ((∀ found : String, tree.discover start = .ok (some found) →
        tree.lookup found.toList = .ok (some .file)) ↔
      ∀ path, ¬ tree.IsFirst (tree.candidates start.toList) path .directory) := by
  refine ⟨fun found => discover_eq_some_iff, ?_⟩
  constructor
  · intro hfile path hfirst
    have hfound : tree.discover start = .ok (some (String.ofList path)) :=
      discover_eq_some_iff.2 ⟨.directory, by rwa [String.toList_ofList]⟩
    obtain ⟨_, _, _, _, hdirectory⟩ := hfirst
    have hlookup := hfile _ hfound
    rw [String.toList_ofList, hdirectory] at hlookup
    exact absurd hlookup (by decide)
  · intro hnone found hfound
    obtain ⟨kind, hfirst⟩ := discover_eq_some_iff.1 hfound
    cases kind with
    | directory => exact absurd hfirst (hnone _)
    | file =>
      obtain ⟨_, _, _, _, hlookup⟩ := hfirst
      exact hlookup

/-- A directory with the name of a configuration hides the file above it. -/
theorem discover_of_directory_below_file :
    let tree : FileTree := {
      files := [["r".toList, "stencil-dump.json".toList]]
      directories := [["r".toList, "a".toList, "stencil-dump.json".toList]]
      workingDirectory := ["r".toList] }
    tree.discover "a" = .ok (some "/r/a/stencil-dump.json") ∧
      tree.lookup "/r/a/stencil-dump.json".toList = .ok (some .directory) ∧
      tree.lookup "/r/stencil-dump.json".toList = .ok (some .file) := by
  intro tree
  have hpath : tree.searchPath "a".toList = .ok "/r/a".toList := rfl
  refine ⟨?_, rfl, rfl⟩
  rw [discover_of_searchPath hpath, searchUpwards_of_found (by decide) rfl]
  rfl

end FileTree

end TemplateDump
