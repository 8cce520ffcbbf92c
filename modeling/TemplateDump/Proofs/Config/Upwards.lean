import TemplateDump.Proofs.Config.Search

/-!
# How far up a search goes

A search takes one name after the other from the end of a path.  Where the name is ordinary this
leads to the directory above, but where it is `..` the directory in front of it is below the one
behind it.  So a configuration can be found that is not above the start (`discover_below_start`).

`discover_along_start` says where a configuration is found: at the end of the longest beginning of
the path that leads to a directory with one.  That directory is at or above the start if `..` is not
among the names behind it.
-/

namespace TemplateDump.FileTree

open PathText

variable {tree : FileTree}

/-! ## The texts of a search -/

/-- An absolute path without U+0000, which the files know whole. -/
structure IsRooted (path : List Char) : Prop where
  isAbsolute : isAbsolute path = true
  null_not_mem : '\x00' ∉ path

namespace IsRooted

variable {path : List Char} {name : Name}

theorem ne_nil (h : IsRooted path) : path ≠ [] := by
  rintro rfl
  exact absurd h.isAbsolute (by decide)

theorem parent (h : IsRooted path) : IsRooted (parent path) where
  isAbsolute := isAbsolute_parent h.isAbsolute
  null_not_mem hmem := h.null_not_mem ((parent_isPrefix path).subset hmem)

theorem join (h : IsRooted path) {more : List Char} (hmore : '\x00' ∉ more) :
    IsRooted (join path more) where
  isAbsolute := isAbsolute_join h.isAbsolute more
  null_not_mem hmem := by
    rw [PathText.join] at hmem
    split at hmem
    · exact (List.mem_append.1 hmem).elim h.null_not_mem hmore
    · rcases List.mem_append.1 hmem with hmem | hmem
      · exact h.null_not_mem hmem
      · exact (List.mem_cons.1 hmem).elim (by decide) hmore

/-- Behind steps through directories a name leads to what there is. -/
theorem lookup_join (h : IsRooted path) (hwalks : tree.Walks [] (steps path)) (hname : IsName name)
    (hadmits : tree.admits (PathText.join path name) = true) :
    tree.lookup (PathText.join path name) =
      .ok (tree.entry? (arrive [] (steps path) ++ [name])) := by
  have hjoin : IsRooted (PathText.join path name) := h.join hname.null_not_mem
  obtain ⟨init, hnames, hsteps⟩ := exists_names_join path hname.toIsStep
  rw [hsteps, walks_filter] at hwalks
  rw [lookup_of_isAbsolute hjoin.isAbsolute hjoin.null_not_mem hadmits, hnames,
    follow_append_of_walks hwalks, hsteps, arrive_filter]
  exact follow_of_isName (List.forall_mem_singleton.2 hname)

end IsRooted

/-- A search from a path stops at a text: there is a configuration, and there is none at the texts
with more of the steps of the path. -/
structure StopsAt (tree : FileTree) (path last : List Char) : Prop where
  rooted : IsRooted last
  le : steps last <+: steps path
  found : ∃ kind, tree.lookup (join last configFileName) = .ok (some kind)
  passed : ∀ names, steps last <+: names → names <+: steps path → names ≠ steps last →
    ∃ text, IsRooted text ∧ steps text = names ∧
      tree.lookup (join text configFileName) = .ok none

/-- A search that goes on from a path has passed it too. -/
theorem StopsAt.of_parent {path last : List Char} (hpath : IsRooted path)
    (hnone : tree.lookup (join path configFileName) = .ok none)
    (h : tree.StopsAt (parent path) last) : tree.StopsAt path last where
  rooted := h.rooted
  le := prefix_steps_iff.2 (.inr h.le)
  found := h.found
  passed names hle hle' hne := by
    rcases prefix_steps_iff.1 hle' with rfl | hle'
    · exact ⟨path, hpath, rfl, hnone⟩
    · exact h.passed names hle hle' hne

/-- A search that finds a configuration stops there. -/
theorem exists_stopsAt {path found : List Char} (hpath : IsRooted path)
    (h : tree.searchUpwards path = .ok (some found)) :
    ∃ last, tree.StopsAt path last ∧ found = join last configFileName := by
  cases hlookup : tree.lookup (join path configFileName) with
  | error error => simp [searchUpwards_eq hpath.ne_nil, hlookup] at h
  | ok result =>
    cases result with
    | some kind =>
      rw [searchUpwards_of_found hpath.ne_nil hlookup] at h
      cases h
      refine ⟨path, ⟨hpath, List.prefix_rfl, ⟨kind, hlookup⟩, ?_⟩, rfl⟩
      exact fun names hle hle' hne => absurd (hle'.eq_of_length_le hle.length_le) hne
    | none =>
      rw [searchUpwards_of_none hpath.ne_nil hlookup] at h
      by_cases hparent : parent path = path
      · simp [hparent] at h
      · have hlt := parent_length_lt hparent
        rw [if_neg hparent] at h
        obtain ⟨last, hlast, hfound⟩ := exists_stopsAt hpath.parent h
        exact ⟨last, hlast.of_parent hpath hlookup, hfound⟩
termination_by path.length

/-- Where the steps of the path lead through directories, the search stops at the last directory
that has a configuration. -/
theorem StopsAt.nearest {path last : List Char} (h : tree.StopsAt path last)
    (hwalks : tree.Walks [] (steps path)) {names : List Name} (hle : steps last <+: names)
    (hle' : names <+: steps path) (hne : names ≠ steps last) :
    ¬ tree.HasConfig (arrive [] names) := by
  obtain ⟨text, htext, rfl, hnone⟩ := h.passed names hle hle' hne
  obtain ⟨behind, hbehind⟩ := hle'
  rw [← hbehind, walks_append] at hwalks
  have hjoin : IsRooted (join text configFileName) :=
    htext.join isName_configFileName.null_not_mem
  have hknown : knownText (join text configFileName) ≠ [] := by
    rw [knownText_eq_self hjoin.null_not_mem]
    exact hjoin.ne_nil
  have hadmits := admits_of_lookup hknown hnone
  rw [htext.lookup_join hwalks.1 isName_configFileName hadmits] at hnone
  exact not_not.2 (Except.ok.inj hnone)

/-! ## The start -/

section

variable {start : String} {kind : EntryKind}

/-- The place of the directory that the start leads to, or that holds the file. -/
def startPlace (tree : FileTree) (start : List Char) (kind : EntryKind) : List Name :=
  if kind = .file then (tree.placeOf start).dropLast else tree.placeOf start

/-- A start that can be resolved leads through directories to its base. -/
theorem walks_basePath (hrelative : isAbsolute start.toList = false) (hnull : '\x00' ∉ start.toList)
    (hlookup : tree.lookup start.toList = .ok (some kind)) :
    tree.Walks tree.workingDirectory (steps (basePath start.toList (some kind))) ∧
      tree.startPlace start.toList kind =
        arrive tree.workingDirectory (steps (basePath start.toList (some kind))) := by
  have hne := ne_nil_of_lookup hlookup
  have hadmits : tree.admits start.toList = true :=
    admits_of_lookup (by rwa [knownText_eq_self hnull]) hlookup
  have hstart : tree.placeOf start.toList = arrive tree.workingDirectory (names start.toList) := by
    rw [placeOf_of_relative hrelative hnull, steps, arrive_filter]
  rw [lookup_of_relative hne hrelative hnull hadmits] at hlookup
  cases kind with
  | directory =>
    refine ⟨?_, ?_⟩
    · rw [basePath, if_neg (by simp), steps, walks_filter]
      exact walks_of_follow_directory hlookup
    · rw [startPlace, if_neg (by simp), basePath, if_neg (by simp), hstart, steps, arrive_filter]
  | file =>
    obtain ⟨init, last, hnames, hparent⟩ := exists_names_eq start.toList
    rw [hnames] at hlookup
    have hwalks : tree.Walks tree.workingDirectory init := walks_of_follow hlookup
    have hfile := entry?_of_follow hlookup
    rw [arrive_append] at hfile
    refine ⟨?_, ?_⟩
    · rwa [basePath, if_pos rfl, hparent, walks_filter]
    · rw [startPlace, if_pos rfl, basePath, if_pos rfl, hparent, arrive_filter, hstart, hnames,
        arrive_append]
      exact (congrArg _ (enter_eq_of_file hwalks.isDirectory_arrive hfile)).trans
        (List.dropLast_concat)

/-- A discovery that finds something has searched a path with the names of the working directory
and those of the base. -/
theorem exists_search (hplace : ∀ name ∈ tree.workingDirectory, IsName name)
    (hrelative : isAbsolute start.toList = false) (hnull : '\x00' ∉ start.toList)
    (hlookup : tree.lookup start.toList = .ok (some kind)) {found : String}
    (h : tree.discover start = .ok (some found)) :
    ∃ path, IsRooted path ∧ tree.searchUpwards path = .ok (some found.toList) ∧
      steps path = tree.workingDirectory ++ steps (basePath start.toList (some kind)) := by
  have hpath := searchPath_of_lookup (ne_nil_of_lookup hlookup) hlookup
  have hbase := (isAbsolute_basePath start.toList (some kind)).trans hrelative
  by_cases hnil : basePath start.toList (some kind) = []
  · have hempty : tree.searchPath start.toList = .ok [] := by
      rw [hpath, hnil]
      rfl
    have hsearch := searchUpwards_of_discover hempty h
    rw [searchUpwards_nil] at hsearch
    exact absurd hsearch nofun
  · rw [if_neg (by simp [hnil, hbase])] at hpath
    have hworking : IsRooted tree.workingPath :=
      ⟨isAbsolute_pathTo tree.workingDirectory, null_not_mem_pathTo hplace⟩
    refine ⟨_, hworking.join fun hmem => hnull (basePath_subset _ _ hmem),
      searchUpwards_of_discover hpath h, ?_⟩
    rw [steps_join]
    exact congrArg (· ++ _) (steps_pathTo fun name hname => (hplace name hname).toIsStep)

/-- **Where a configuration is found.**  Let a relative start lead to a directory, or to a file in
one.  The search goes over the names of the working directory and those of the start, of which it
takes away one after the other from the end.  A configuration is found in the directory to which the
names that are left lead, and there was none as long as there were more of them.  If `..` is not
among the names that have been taken away, the directory is the one that the start leads to, or that
holds the file, or one above. -/
theorem discover_along_start (hplace : ∀ name ∈ tree.workingDirectory, IsName name)
    (hrelative : isAbsolute start.toList = false) (hnull : '\x00' ∉ start.toList)
    (hlookup : tree.lookup start.toList = .ok (some kind)) {found : String}
    (h : tree.discover start = .ok (some found)) :
    ∃ passed behind,
      tree.workingDirectory ++ steps (basePath start.toList (some kind)) = passed ++ behind ∧
      tree.placeOf found.toList = arrive [] passed ++ [configFileName] ∧
      tree.HasConfig (arrive [] passed) ∧
      (∀ more, more ≠ [] → more <+: behind → ¬ tree.HasConfig (arrive [] (passed ++ more))) ∧
      (parentName ∉ behind → arrive [] passed <+: tree.startPlace start.toList kind) := by
  obtain ⟨hwalks, hstart⟩ := walks_basePath hrelative hnull hlookup
  obtain ⟨path, hpath, hsearch, hsteps⟩ := exists_search hplace hrelative hnull hlookup h
  have hworking : arrive [] tree.workingDirectory = tree.workingDirectory := arrive_of_isName hplace
  have hwalks' : tree.Walks [] (steps path) := by
    rw [hsteps, walks_append, hworking]
    exact ⟨walks_of_isName hplace isDirectory_workingDirectory, hwalks⟩
  obtain ⟨last, hlast, hfound⟩ := exists_stopsAt hpath hsearch
  obtain ⟨behind, hbehind⟩ := hlast.le
  have hplaceOf : tree.placeOf found.toList = arrive [] (steps last) ++ [configFileName] := by
    have hrooted := hlast.rooted.join isName_configFileName.null_not_mem
    rw [hfound, placeOf_of_isAbsolute hrooted.isAbsolute hrooted.null_not_mem, steps_join,
      arrive_append, isName_configFileName.steps_eq]
    exact isName_configFileName.enter_eq
  refine ⟨steps last, behind, ?_, hplaceOf, ?_, fun more hmore hle => ?_, fun hnot => ?_⟩
  · rw [hbehind, hsteps]
  · obtain ⟨kind', hkind'⟩ := hlast.found
    rw [HasConfig, ← hplaceOf, hfound, entry?_of_lookup hkind']
    exact Option.some_ne_none kind'
  · refine hlast.nearest hwalks' (List.prefix_append _ more) ?_ (by simpa using hmore)
    rw [← hbehind]
    exact (List.prefix_append_right_inj _).2 hle
  · have harrive : tree.startPlace start.toList kind = arrive (arrive [] (steps last)) behind := by
      rw [hstart, ← arrive_append, hbehind, hsteps, arrive_append, hworking]
    rw [harrive]
    exact prefix_arrive hnot

end

/-- Without `..` the configuration that is found is above the directory of the file. -/
theorem discover_above_file :
    let tree : FileTree := {
      files := [["r".toList, "stencil-dump.json".toList], ["r".toList, "a".toList, "x".toList]]
      directories := []
      workingDirectory := ["r".toList] }
    tree.discover "a/x" = .ok (some "/r/stencil-dump.json") ∧
      (tree.placeOf "/r/stencil-dump.json".toList).dropLast <+:
        tree.startPlace "a/x".toList .file := by
  intro tree
  have hfound : tree.discover "a/x" = .ok (some "/r/stencil-dump.json") := by
    have hpath : tree.searchPath "a/x".toList = .ok "/r/a".toList := rfl
    rw [discover_of_searchPath hpath, searchUpwards_of_none (by decide) rfl,
      if_neg (by decide), searchUpwards_of_found (by decide) rfl]
    rfl
  have hlookup : tree.lookup "a/x".toList = .ok (some .file) := rfl
  have hplace : ∀ name ∈ tree.workingDirectory, IsName name := by decide
  have hrelative : isAbsolute "a/x".toList = false := by decide
  have hnull : '\x00' ∉ "a/x".toList := by decide
  obtain ⟨passed, behind, hnames, hplaceOf, -, -, habove⟩ :=
    discover_along_start hplace hrelative hnull hlookup hfound
  have hnot : parentName ∉
      tree.workingDirectory ++ steps (basePath "a/x".toList (some .file)) := by decide
  rw [hnames] at hnot
  rw [hplaceOf, List.dropLast_concat]
  exact ⟨hfound, habove fun hmem => hnot (List.mem_append_right _ hmem)⟩

/-- With `..` a configuration is found in a directory that is below the start. -/
theorem discover_below_start :
    let tree : FileTree := {
      files := [["r".toList, "a".toList, "stencil-dump.json".toList]]
      directories := []
      workingDirectory := ["r".toList] }
    tree.lookup "a/..".toList = .ok (some .directory) ∧
      tree.discover "a/.." = .ok (some "/r/a/stencil-dump.json") ∧
      tree.entry? (tree.placeOf "/r/a/stencil-dump.json".toList) = some .file ∧
      ¬ (tree.placeOf "/r/a/stencil-dump.json".toList).dropLast <+: tree.placeOf "a/..".toList := by
  intro tree
  have hpath : tree.searchPath "a/..".toList = .ok "/r/a/..".toList := rfl
  refine ⟨rfl, ?_, by decide, by decide⟩
  rw [discover_of_searchPath hpath, searchUpwards_of_none (by decide) rfl, if_neg (by decide),
    searchUpwards_of_found (by decide) rfl]
  rfl

end TemplateDump.FileTree
