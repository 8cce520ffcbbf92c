import TemplateDump.Proofs.Config.Candidates
import TemplateDump.Proofs.Config.Upwards

/-!
# Names that are too long

Where paths may be as long as they like, a look-up is an error if and only if its names lead through
directories to one that is too long (`lookup_eq_error_iff`).  A path that stops short of that name,
at the end or at what is no directory, is no error.

All that a discovery looks up behind the start has the names of a beginning of the start, with the
name of a configuration behind them.  So if the look-up of the start is no error, none of these is,
whatever the names are: `discover_eq_error_iff`.
-/

namespace TemplateDump.FileTree

open PathText

variable {tree : FileTree} {place names front behind : List Name} {name : Name}

/-! ## Along names -/

/-- Names lead through directories to one that is too long. -/
def ReachesLongName (tree : FileTree) (place names : List Name) : Prop :=
  ∃ front name behind, names = front ++ name :: behind ∧ tree.Walks place front ∧
    maxNameBytes < textBytes name

theorem not_reachesLongName_nil : ¬ tree.ReachesLongName place [] := by
  rintro ⟨front, name, behind, h, -⟩
  exact absurd h (by simp)

theorem reachesLongName_cons_iff : tree.ReachesLongName place (name :: names) ↔
    tree.isDirectory place = true ∧
      (maxNameBytes < textBytes name ∨ tree.ReachesLongName (enter place name) names) := by
  constructor
  · rintro ⟨front, long, behind, hnames, hwalks, hlong⟩
    refine ⟨hwalks.isDirectory, ?_⟩
    cases front with
    | nil =>
      obtain ⟨rfl, -⟩ := List.cons.inj hnames
      exact .inl hlong
    | cons first front =>
      obtain ⟨rfl, rfl⟩ := List.cons.inj hnames
      exact .inr ⟨front, long, behind, rfl, hwalks.2.2, hlong⟩
  · rintro ⟨hplace, hreaches⟩
    by_cases hlong : maxNameBytes < textBytes name
    · exact ⟨[], name, names, rfl, hplace, hlong⟩
    · obtain ⟨front, long, behind, rfl, hwalks, hlong'⟩ := hreaches.resolve_left hlong
      exact ⟨name :: front, long, behind, rfl, ⟨hplace, Nat.not_lt.1 hlong, hwalks⟩, hlong'⟩

/-- Names are followed without an answer exactly if they reach one that is too long. -/
theorem follow_eq_error_iff {error : LookupError} : tree.follow place names = .error error ↔
    error = .nameTooLong ∧ tree.ReachesLongName place names := by
  induction names generalizing place with
  | nil => exact iff_of_false nofun fun h => not_reachesLongName_nil h.2
  | cons name rest ih =>
    rw [follow_cons, reachesLongName_cons_iff]
    cases hplace : tree.isDirectory place with
    | false => simp
    | true =>
      by_cases hlong : maxNameBytes < textBytes name
      · simpa [hlong] using eq_comm
      · simpa [hlong] using ih

theorem ReachesLongName.mono (h : tree.ReachesLongName place front) (hle : front <+: names) :
    tree.ReachesLongName place names := by
  obtain ⟨more, rfl⟩ := hle
  obtain ⟨first, long, rest, rfl, hwalks, hlong⟩ := h
  exact ⟨first, long, rest ++ more, by simp, hwalks, hlong⟩

/-- A last name that is not too long is not the one that is reached. -/
theorem ReachesLongName.of_concat (h : tree.ReachesLongName place (names ++ [name]))
    (hname : textBytes name ≤ maxNameBytes) : tree.ReachesLongName place names := by
  obtain ⟨front, long, behind, hnames, hwalks, hlong⟩ := h
  rcases List.eq_nil_or_concat behind with rfl | ⟨behind, last, rfl⟩
  · obtain ⟨-, hlast⟩ := List.append_inj' hnames rfl
    obtain ⟨rfl, -⟩ := List.cons.inj hlast
    exact absurd hlong (Nat.not_lt.2 hname)
  · rw [List.concat_eq_append, ← List.cons_append, ← List.append_assoc] at hnames
    exact ⟨front, long, behind, (List.append_inj' hnames rfl).1, hwalks, hlong⟩

/-- Empty names can be left out. -/
theorem reachesLongName_filter :
    tree.ReachesLongName place (names.filter fun name => !name.isEmpty) ↔
      tree.ReachesLongName place names := by
  induction names generalizing place with
  | nil => rfl
  | cons name rest ih =>
    cases name with
    | nil =>
      have hdirectory : tree.ReachesLongName place rest → tree.isDirectory place = true :=
        fun ⟨_, _, _, _, hwalks, _⟩ => hwalks.isDirectory
      have hshort : ¬ maxNameBytes < textBytes [] := by decide
      rw [reachesLongName_cons_iff, or_iff_right hshort]
      exact ih.trans ⟨fun h => ⟨hdirectory h, h⟩, And.right⟩
    | cons c more =>
      rw [List.filter_cons_of_pos (by simp), reachesLongName_cons_iff, reachesLongName_cons_iff, ih]

/-- Steps through directories can be taken first. -/
theorem reachesLongName_append_of_walks (h : tree.Walks place front) :
    tree.ReachesLongName place (front ++ behind) ↔
      tree.ReachesLongName (arrive place front) behind := by
  have hfollow : ∀ place names, tree.ReachesLongName place names ↔
      tree.follow place names = .error .nameTooLong := by
    simp [follow_eq_error_iff]
  rw [hfollow, hfollow, follow_append_of_walks h]

/-! ## Along paths -/

section

variable {path start : List Char} {error : LookupError}

/-- A look-up is an error exactly if the names of the path lead through directories to one that is
too long. -/
theorem lookup_eq_error_iff (hlimit : tree.pathLimit = none) (hnull : '\x00' ∉ path) :
    tree.lookup path = .error error ↔
      error = .nameTooLong ∧ tree.ReachesLongName (tree.itinerary path).1 (steps path) := by
  have hadmits : tree.admits path = true := admits_of_unlimited hlimit path
  by_cases hne : path = []
  · subst hne
    exact iff_of_false nofun fun h => not_reachesLongName_nil h.2
  · rw [steps, reachesLongName_filter]
    cases habsolute : isAbsolute path with
    | false =>
      rw [lookup_of_relative hne habsolute hnull hadmits, follow_eq_error_iff,
        itinerary_of_relative habsolute hnull]
    | true =>
      rw [lookup_of_isAbsolute habsolute hnull hadmits, follow_eq_error_iff]
      obtain ⟨rest, rfl⟩ := exists_cons_of_isAbsolute habsolute
      rw [itinerary_of_isAbsolute hnull]

theorem steps_basePath_le (path : List Char) (kind : Option EntryKind) :
    steps (basePath path kind) <+: steps path := by
  rw [basePath]
  split
  · exact steps_parent_le path
  · exact List.prefix_rfl

theorem itinerary_fst_of_isAbsolute (h : isAbsolute path = true) (hnull : '\x00' ∉ path) :
    (tree.itinerary path).1 = [] := by
  obtain ⟨rest, rfl⟩ := exists_cons_of_isAbsolute h
  rw [itinerary_of_isAbsolute hnull]

section

variable (hplace : ∀ name ∈ tree.workingDirectory, IsName name)

include hplace

/-- The names of the working directory lead to it. -/
theorem reachesLongName_workingDirectory :
    tree.ReachesLongName [] (tree.workingDirectory ++ names) ↔
      tree.ReachesLongName tree.workingDirectory names := by
  have hwalks : tree.Walks [] tree.workingDirectory :=
    walks_of_isName hplace isDirectory_workingDirectory
  have harrive : arrive [] tree.workingDirectory = tree.workingDirectory := arrive_of_isName hplace
  rw [reachesLongName_append_of_walks hwalks, harrive]

/-- A search starts nowhere, or it starts from an absolute path that reaches a name that is too long
only if what was given does. -/
theorem searchPath_cases (hnull : '\x00' ∉ path) (hne : path ≠ []) {base : List Char}
    (h : tree.searchPath path = .ok base) :
    base = [] ∨ IsRooted base ∧ (tree.ReachesLongName [] (steps base) →
      tree.ReachesLongName (tree.itinerary path).1 (steps path)) := by
  cases hlookup : tree.lookup path with
  | error error =>
    rw [searchPath_of_error hne hlookup] at h
    exact absurd h nofun
  | ok kind =>
    rw [searchPath_of_lookup hne hlookup] at h
    have hbase := Except.ok.inj h
    have hle := steps_basePath_le path kind
    have hnull' : '\x00' ∉ basePath path kind := fun hmem => hnull (basePath_subset path kind hmem)
    by_cases hnil : basePath path kind = []
    · left
      rw [← hbase, hnil]
      rfl
    · right
      cases habsolute : isAbsolute path with
      | true =>
        have hrooted := (isAbsolute_basePath path kind).trans habsolute
        rw [hrooted, Bool.or_true, if_pos rfl] at hbase
        rw [← hbase, itinerary_fst_of_isAbsolute habsolute hnull]
        exact ⟨⟨hrooted, hnull'⟩, fun hreaches => hreaches.mono hle⟩
      | false =>
        have hrelative := (isAbsolute_basePath path kind).trans habsolute
        have hworking : IsRooted tree.workingPath :=
          ⟨isAbsolute_pathTo tree.workingDirectory, null_not_mem_pathTo hplace⟩
        have hsteps : steps tree.workingPath = tree.workingDirectory :=
          steps_pathTo fun name hname => (hplace name hname).toIsStep
        rw [if_neg (by simp [hnil, hrelative])] at hbase
        rw [← hbase, itinerary_of_relative habsolute hnull, steps_join, hsteps,
          reachesLongName_workingDirectory hplace]
        exact ⟨hworking.join hnull', fun hreaches => hreaches.mono hle⟩

/-- Behind a start that is looked up without an error no look-up is an error. -/
theorem exists_lookup_candidate (hlimit : tree.pathLimit = none) (hnull : '\x00' ∉ start)
    (hne : start ≠ []) :
    ∀ candidate ∈ tree.candidates start, ∃ found, tree.lookup candidate = .ok found := by
  cases hpath : tree.searchPath start with
  | error error =>
    rw [candidates_of_error hpath]
    exact List.forall_mem_nil _
  | ok path =>
    rw [candidates_of_searchPath hpath, List.forall_mem_map]
    rcases searchPath_cases hplace hnull hne hpath with rfl | ⟨hrooted, hreaches⟩
    · rw [lineage_nil]
      exact List.forall_mem_nil _
    · -- The parents of the path have the names of its beginnings.
      have hlineage : ∀ above ∈ lineage path, IsRooted above ∧ steps above <+: steps path :=
        forall_mem_lineage (fun above ⟨habove, hle⟩ =>
          ⟨habove.parent, (steps_parent_le above).trans hle⟩) ⟨hrooted, List.prefix_rfl⟩
      intro above habove
      obtain ⟨hrooted', hle⟩ := hlineage above habove
      have hjoin := hrooted'.join isName_configFileName.null_not_mem
      cases hlookup : tree.lookup (join above configFileName) with
      | ok found => exact ⟨found, rfl⟩
      | error error =>
        obtain ⟨rfl, hlong⟩ := (lookup_eq_error_iff hlimit hjoin.null_not_mem).1 hlookup
        rw [itinerary_fst_of_isAbsolute hjoin.isAbsolute hjoin.null_not_mem, steps_join,
          isName_configFileName.steps_eq] at hlong
        have hgiven := hreaches ((hlong.of_concat isName_configFileName.bytes_le).mono hle)
        have hstart := (lookup_eq_error_iff hlimit hnull).2 ⟨rfl, hgiven⟩
        rw [searchPath_of_error hne hstart] at hpath
        exact absurd hpath nofun

theorem null_not_mem_givenPath (hnull : '\x00' ∉ start) : '\x00' ∉ tree.givenPath start := by
  rw [givenPath]
  split
  · exact null_not_mem_pathTo hplace
  · exact hnull

end

end

/-! ## Discoveries -/

/-- **A discovery fails only on its start.**  Let the working directory have ordinary names, as each
directory has, and let paths be as long as they like.  From a start without U+0000 the discovery is
an error if and only if the first look-up is the same error, which it is exactly if the names of the
start lead through directories to one that is too long.  Otherwise it looks up finitely many
candidates, no more than the path of the search has characters, one after the other up to the first
that exists, and none of these look-ups is an error, whatever names are in the start. -/
theorem discover_eq_error_iff {start : String}
    (hplace : ∀ name ∈ tree.workingDirectory, IsName name) (hlimit : tree.pathLimit = none)
    (hnull : '\x00' ∉ start.toList) :
    let given := tree.givenPath start.toList
    (∀ error, tree.discover start = .error error ↔ tree.lookup given = .error error) ∧
    (∀ error, tree.lookup given = .error error ↔
      error = .nameTooLong ∧ tree.ReachesLongName (tree.itinerary given).1 (steps given)) ∧
    (∀ candidate ∈ tree.candidates start.toList, ∃ found, tree.lookup candidate = .ok found) ∧
    ∀ path, tree.searchPath start.toList = .ok path →
      tree.discover start =
        (tree.firstFound (tree.candidates start.toList)).map (Option.map String.ofList) ∧
      (tree.candidates start.toList).length ≤ path.length := by
  intro given
  have hgiven : given ≠ [] := tree.givenPath_ne_nil start.toList
  have hnull' : '\x00' ∉ given := null_not_mem_givenPath hplace hnull
  have hsearch : tree.searchPath given = tree.searchPath start.toList :=
    tree.searchPath_givenPath start.toList
  have hchecks := exists_lookup_candidate hplace hlimit hnull' hgiven
  rw [candidates_givenPath] at hchecks
  refine ⟨fun error => ?_, fun error => lookup_eq_error_iff hlimit hnull', hchecks,
    fun path hpath => ⟨discover_eq_firstFound hpath, ?_⟩⟩
  · cases hlookup : tree.lookup given with
    | error failure =>
      rw [discover_of_error (hsearch ▸ searchPath_of_error hgiven hlookup), Except.error.injEq,
        Except.error.injEq]
    | ok kind =>
      obtain ⟨found, hfound⟩ := exists_firstFound_eq_ok hchecks
      rw [discover_eq_firstFound (hsearch ▸ searchPath_of_lookup hgiven hlookup), hfound]
      exact iff_of_false nofun nofun
  · rw [candidates_of_searchPath hpath, List.length_map]
    exact length_lineage_le path

/-- A name that is too long is an error in a directory, and none behind what does not exist. -/
theorem discover_of_long_names :
    let tree : FileTree := {
      files := [["r".toList, "stencil-dump.json".toList]]
      directories := []
      workingDirectory := ["r".toList] }
    let long := List.replicate 256 'x'
    tree.discover (String.ofList long) = .error .nameTooLong ∧
      ∀ error, tree.discover (String.ofList ("a/../".toList ++ long)) ≠ .error error := by
  intro tree long
  have hplace : ∀ name ∈ tree.workingDirectory, IsName name := by decide
  have hshort : '\x00' ∉ (String.ofList long).toList := by
    rw [String.toList_ofList]
    decide +kernel
  have hhidden : '\x00' ∉ (String.ofList ("a/../".toList ++ long)).toList := by
    rw [String.toList_ofList]
    decide +kernel
  constructor
  · refine ((discover_eq_error_iff hplace rfl hshort).1 .nameTooLong).2 ?_
    rw [String.toList_ofList]
    decide +kernel
  · intro error herror
    have hlookup := ((discover_eq_error_iff hplace rfl hhidden).1 error).1 herror
    rw [String.toList_ofList] at hlookup
    have hfound : tree.lookup (tree.givenPath ("a/../".toList ++ long)) = .ok none := by
      decide +kernel
    rw [hfound] at hlookup
    exact absurd hlookup nofun

end TemplateDump.FileTree
