import TemplateDump.Proofs.Config.Search

/-!
# The nearest configuration

From the path of a place a search goes through the places above it, one name less each time, and
stops at the first that has a configuration: `searchUpwards_pathTo`.  Where there is none above the
working directory, a relative start of ordinary names is searched from the place that it names below
the working directory, or that holds the file that it names (`discover_finds_nearest`).
-/

namespace TemplateDump.FileTree

open PathText

/-- The last place on the way to a place that has a configuration. -/
structure IsNearest (tree : FileTree) (place near : List Name) : Prop where
  le : near <+: place
  hasConfig : tree.HasConfig near
  le_near : ∀ other, other <+: place → tree.HasConfig other → other <+: near

variable {tree : FileTree} {place near : List Name} {name : Name}

/-! ## Going up -/

theorem isNearest_of_hasConfig (h : tree.HasConfig place) :
    tree.IsNearest place near ↔ near = place := by
  constructor
  · intro hnear
    exact hnear.le.eq_of_length_le (hnear.le_near place List.prefix_rfl h).length_le
  · rintro rfl
    exact ⟨List.prefix_rfl, h, fun other hother _ => hother⟩

theorem isNearest_concat (h : ¬ tree.HasConfig (place ++ [name])) :
    tree.IsNearest (place ++ [name]) near ↔ tree.IsNearest place near := by
  have hle : ∀ other, tree.HasConfig other → (other <+: place ++ [name] ↔ other <+: place) := by
    intro other hother
    rw [List.prefix_concat_iff]
    refine or_iff_right ?_
    rintro rfl
    exact h hother
  exact ⟨fun hnear => ⟨(hle near hnear.hasConfig).1 hnear.le, hnear.hasConfig,
      fun other hother hhas => hnear.le_near other ((hle other hhas).2 hother) hhas⟩,
    fun hnear => ⟨(hle near hnear.hasConfig).2 hnear.le, hnear.hasConfig,
      fun other hother hhas => hnear.le_near other ((hle other hhas).1 hother) hhas⟩⟩

/-- Where no place above another one has a configuration, the nearest is not above that. -/
theorem IsNearest.le_of_not_hasConfig {above below : List Name}
    (h : tree.IsNearest (above ++ below) near)
    (habove : ∀ other, other <+: above → other ≠ above → ¬ tree.HasConfig other) :
    above <+: near := by
  rcases List.prefix_or_prefix_of_prefix h.le (List.prefix_append above below) with hle | hle
  · by_contra hnot
    refine habove near hle ?_ h.hasConfig
    rintro rfl
    exact hnot List.prefix_rfl
  · exact hle

/-- The path of the configuration at a place. -/
def configPath (place : List Name) : List Char :=
  pathTo (place ++ [configFileName])

theorem join_configFileName (hplace : ∀ name ∈ place, IsName name) :
    join (pathTo place) configFileName = configPath place := by
  rw [configPath, ← join_pathTo (fun name hname => (hplace name hname).toIsStep)
    (List.cons_ne_nil _ _), List.intercalate_singleton]

theorem null_not_mem_configPath (hplace : ∀ name ∈ place, IsName name) :
    '\x00' ∉ configPath place :=
  null_not_mem_pathTo (List.forall_mem_append.2
    ⟨hplace, List.forall_mem_singleton.2 isName_configFileName⟩)

theorem lookup_configPath (hplace : ∀ name ∈ place, IsName name)
    (hadmits : tree.admits (configPath place) = true) :
    tree.lookup (configPath place) = .ok (tree.entry? (place ++ [configFileName])) :=
  lookup_pathTo (List.forall_mem_append.2
    ⟨hplace, List.forall_mem_singleton.2 isName_configFileName⟩) hadmits

theorem searchUpwards_of_hasConfig (hplace : ∀ name ∈ place, IsName name)
    (hadmits : tree.admits (configPath place) = true) (h : tree.HasConfig place) :
    tree.searchUpwards (pathTo place) = .ok (some (configPath place)) := by
  obtain ⟨kind, hkind⟩ := Option.ne_none_iff_exists'.1 h
  have hlookup : tree.lookup (join (pathTo place) configFileName) = .ok (some kind) := by
    rw [join_configFileName hplace, lookup_configPath hplace hadmits, hkind]
  rw [searchUpwards_of_found (pathTo_ne_nil place) hlookup, join_configFileName hplace]

theorem searchUpwards_of_not_hasConfig (hplace : ∀ name ∈ place, IsName name)
    (hadmits : tree.admits (configPath place) = true) (h : ¬ tree.HasConfig place) :
    tree.searchUpwards (pathTo place) =
      if parent (pathTo place) = pathTo place then .ok none
      else tree.searchUpwards (parent (pathTo place)) := by
  refine searchUpwards_of_none (pathTo_ne_nil place) ?_
  rw [join_configFileName hplace, lookup_configPath hplace hadmits, not_not.1 h]

theorem searchUpwards_of_not_admits (hplace : ∀ name ∈ place, IsName name)
    (hadmits : tree.admits (configPath place) = false) :
    tree.searchUpwards (pathTo place) = .error .pathTooLong := by
  have hknown : knownText (configPath place) ≠ [] := by
    rw [knownText_eq_self (null_not_mem_configPath hplace)]
    exact pathTo_ne_nil _
  rw [searchUpwards_eq (pathTo_ne_nil place), join_configFileName hplace,
    lookup_of_not_admits hknown hadmits]

/-- A search from the path of a place finds the configuration of the nearest place that has one, and
nothing if there is no such place. -/
theorem searchUpwards_pathTo (hplace : ∀ name ∈ place, IsName name)
    (hadmits : tree.admits (configPath place) = true) :
    (∃ near, tree.IsNearest place near ∧
      tree.searchUpwards (pathTo place) = .ok (some (configPath near))) ∨
    (∀ near, near <+: place → ¬ tree.HasConfig near) ∧
      tree.searchUpwards (pathTo place) = .ok none := by
  induction place using List.reverseRecOn with
  | nil =>
    by_cases h : tree.HasConfig []
    · exact .inl ⟨[], (isNearest_of_hasConfig h).2 rfl, searchUpwards_of_hasConfig hplace hadmits h⟩
    · refine .inr ⟨fun near hnear => List.prefix_nil.1 hnear ▸ h, ?_⟩
      rw [searchUpwards_of_not_hasConfig hplace hadmits h]
      rfl
  | append_singleton above name ih =>
    by_cases h : tree.HasConfig (above ++ [name])
    · exact .inl ⟨_, (isNearest_of_hasConfig h).2 rfl, searchUpwards_of_hasConfig hplace hadmits h⟩
    · obtain ⟨habove, hname⟩ := List.forall_mem_append.1 hplace
      have hstep := (hname name List.mem_cons_self).toIsStep
      have hparent : parent (pathTo (above ++ [name])) = pathTo above :=
        parent_pathTo_concat (fun n hn => (habove n hn).toIsStep) hstep
      have hne : pathTo above ≠ pathTo (above ++ [name]) := by
        intro heq
        have hsteps := congrArg steps heq
        rw [steps_pathTo fun n hn => (habove n hn).toIsStep,
          steps_pathTo fun n hn => (hplace n hn).toIsStep] at hsteps
        simp at hsteps
      rw [searchUpwards_of_not_hasConfig hplace hadmits h, hparent, if_neg hne]
      rcases ih habove (admits_pathTo_concat hplace isName_configFileName (List.prefix_append _ _)
        hadmits) with ⟨near, hnear, hfound⟩ | ⟨hnone, hfound⟩
      · exact .inl ⟨near, (isNearest_concat h).2 hnear, hfound⟩
      · refine .inr ⟨fun near hnear => ?_, hfound⟩
        rcases List.prefix_concat_iff.1 hnear with rfl | hnear
        · exact h
        · exact hnone near hnear

/-! ## Starts of ordinary names -/

/-- The names of the place from which a search starts, below the working directory: a file is left
for the directory that holds it. -/
def baseNames (tree : FileTree) (names : List Name) : List Name :=
  if tree.entry? (tree.workingDirectory ++ names) = some .file then names.dropLast else names

theorem baseNames_le (tree : FileTree) (names : List Name) : tree.baseNames names <+: names := by
  rw [baseNames]
  split
  · exact List.dropLast_prefix names
  · exact List.prefix_rfl

section

variable {names : List Name} {start : String}
  (hplace : ∀ name ∈ tree.workingDirectory, IsName name) (hne : names ≠ [])
  (hnames : ∀ name ∈ names, IsName name)
  (htwo : tree.entry? (tree.workingDirectory ++ names) = some .file → 2 ≤ names.length)
  (hstart : start.toList = ['/'].intercalate names)

include hplace hne hnames htwo hstart

omit hplace in
/-- The start stands for the names of its base. -/
theorem basePath_eq : basePath start.toList (tree.entry? (tree.workingDirectory ++ names)) =
    ['/'].intercalate (tree.baseNames names) ∧ tree.baseNames names ≠ [] := by
  rw [basePath, baseNames]
  split
  · next hfile =>
    obtain ⟨front, last, rfl⟩ := (List.eq_nil_or_concat names).resolve_left hne
    rw [List.concat_eq_append] at *
    have hfront : front ≠ [] := by
      rintro rfl
      exact absurd (htwo hfile) (by simp)
    obtain ⟨hfirst, hlast⟩ := List.forall_mem_append.1 hnames
    rw [hstart, List.dropLast_concat, parent_intercalate_concat hfront
      (fun name hname => (hfirst name hname).toIsStep) (hlast last List.mem_cons_self).toIsStep]
    exact ⟨rfl, hfront⟩
  · exact ⟨hstart, hne⟩

omit hplace htwo in
/-- The look-up of a start of ordinary names finds what there is. -/
theorem lookup_of_names (hadmits : tree.admits start.toList = true) :
    tree.lookup start.toList = .ok (tree.entry? (tree.workingDirectory ++ names)) := by
  have hsteps : ∀ name ∈ names, IsStep name := fun name hname => (hnames name hname).toIsStep
  have hnonempty : start.toList ≠ [] := hstart ▸ intercalate_ne_nil hne hsteps
  have hrelative : isAbsolute start.toList = false := hstart ▸ isAbsolute_intercalate hsteps
  have hnull : '\x00' ∉ start.toList := hstart ▸ null_not_mem_intercalate hnames
  rw [lookup_of_relative hnonempty hrelative hnull hadmits, hstart, names_intercalate hne
    fun name hname => (hsteps name hname).slash_not_mem]
  exact follow_of_isName hnames

/-- A start of ordinary names is searched from its base. -/
theorem searchPath_of_names (hadmits : tree.admits start.toList = true) :
    tree.searchPath start.toList =
      .ok (pathTo (tree.workingDirectory ++ tree.baseNames names)) := by
  have hsteps : ∀ name ∈ names, IsStep name := fun name hname => (hnames name hname).toIsStep
  have hnonempty : start.toList ≠ [] := hstart ▸ intercalate_ne_nil hne hsteps
  have hlookup := lookup_of_names hne hnames hstart hadmits
  obtain ⟨hbase, hbase'⟩ := basePath_eq hne hnames htwo hstart
  have hbaseSteps : ∀ name ∈ tree.baseNames names, IsStep name := fun name hname =>
    hsteps name ((tree.baseNames_le names).subset hname)
  have hworking : tree.workingPath = pathTo tree.workingDirectory := rfl
  rw [searchPath_of_relative hnonempty hlookup (hbase ▸ intercalate_ne_nil hbase' hbaseSteps)
    (hbase ▸ isAbsolute_intercalate hbaseSteps), hbase, hworking,
    join_pathTo (fun name hname => (hplace name hname).toIsStep) hbase']

omit hplace htwo in
/-- A start that is too long for the file tree is not looked up. -/
theorem discover_of_long_start (hadmits : tree.admits start.toList = false) :
    tree.discover start = .error .pathTooLong := by
  have hnonempty : start.toList ≠ [] :=
    hstart ▸ intercalate_ne_nil hne fun name hname => (hnames name hname).toIsStep
  have hknown : knownText start.toList ≠ [] := by
    rwa [knownText_eq_self (hstart ▸ null_not_mem_intercalate hnames)]
  exact discover_of_error (searchPath_of_error hnonempty (lookup_of_not_admits hknown hadmits))

/-- **The nearest configuration is found.**  Let the working directory have no configuration above
it, and let the start be ordinary names with slashes between them, two at least if they name a file.
The discovery gives the configuration at the longest beginning of the base that has one, below the
working directory, and nothing if and only if there is no such beginning.  In a file tree that
limits the length of paths this takes that neither the start nor the path of the configuration at
the base is too long; if one is, the discovery is an error. -/
theorem discover_finds_nearest
    (habove : ∀ above, above <+: tree.workingDirectory → above ≠ tree.workingDirectory →
      ¬ tree.HasConfig above) :
    let base := tree.baseNames names
    let config := fun near => configPath (tree.workingDirectory ++ near)
    let admitted := tree.admits start.toList && tree.admits (config base)
    (admitted = true →
      (∀ near, near <+: base → tree.HasConfig (tree.workingDirectory ++ near) →
        (∀ other, other <+: base → tree.HasConfig (tree.workingDirectory ++ other) →
          other.length ≤ near.length) →
        tree.discover start = .ok (some (String.ofList (config near)))) ∧
      (tree.discover start = .ok none ↔
        ∀ near, near <+: base → ¬ tree.HasConfig (tree.workingDirectory ++ near))) ∧
    (admitted = false → tree.discover start = .error .pathTooLong) := by
  intro base config admitted
  have hpath : ∀ name ∈ tree.workingDirectory ++ base, IsName name :=
    List.forall_mem_append.2 ⟨hplace, fun name hname =>
      hnames name ((tree.baseNames_le names).subset hname)⟩
  constructor
  · intro hadmitted
    obtain ⟨hadmits, hconfig⟩ := Bool.and_eq_true_iff.1 hadmitted
    rw [discover_of_searchPath (searchPath_of_names hplace hne hnames htwo hstart hadmits)]
    rcases searchUpwards_pathTo hpath hconfig with ⟨found, hfound, hsearch⟩ | ⟨hnone, hsearch⟩
    · obtain ⟨last, rfl⟩ := hfound.le_of_not_hasConfig habove
      have hlast : last <+: base := (List.prefix_append_right_inj _).1 hfound.le
      rw [hsearch]
      refine ⟨fun near hnear hhas hlongest => ?_, iff_of_false ?_ fun hnot =>
        hnot last hlast hfound.hasConfig⟩
      · have hle : near <+: last := (List.prefix_append_right_inj _).1
          (hfound.le_near _ ((List.prefix_append_right_inj _).2 hnear) hhas)
        rw [hle.eq_of_length_le (hlongest last hlast hfound.hasConfig)]
        rfl
      · exact nofun
    · rw [hsearch]
      have hnot : ∀ near, near <+: base → ¬ tree.HasConfig (tree.workingDirectory ++ near) :=
        fun near hnear => hnone _ ((List.prefix_append_right_inj _).2 hnear)
      exact ⟨fun near hnear hhas => absurd hhas (hnot near hnear), iff_of_true rfl hnot⟩
  · intro hadmitted
    cases hadmits : tree.admits start.toList with
    | false => exact discover_of_long_start hne hnames hstart hadmits
    | true =>
      have hconfig : tree.admits (configPath (tree.workingDirectory ++ base)) = false := by
        simpa [admitted, config, hadmits] using hadmitted
      rw [discover_of_searchPath (searchPath_of_names hplace hne hnames htwo hstart hadmits),
        searchUpwards_of_not_admits hpath hconfig]
      rfl

end

/-- Of the configurations in the working directory and below it, the one nearer to the file. -/
theorem discover_of_nested_configs :
    let tree : FileTree := {
      files := [["r".toList, "stencil-dump.json".toList],
        ["r".toList, "a".toList, "stencil-dump.json".toList],
        ["r".toList, "a".toList, "b".toList, "x".toList]]
      directories := []
      workingDirectory := ["r".toList] }
    tree.discover "a/b/x" = .ok (some "/r/a/stencil-dump.json") := by
  intro tree
  have habove : ∀ above ∈ tree.workingDirectory.inits, above ≠ tree.workingDirectory →
      ¬ tree.HasConfig above := by decide
  have hlongest : ∀ other ∈ (tree.baseNames ["a".toList, "b".toList, "x".toList]).inits,
      tree.HasConfig (tree.workingDirectory ++ other) → other.length ≤ 1 := by decide
  have hstart : "a/b/x".toList = ['/'].intercalate ["a".toList, "b".toList, "x".toList] := by
    decide
  have hnearest := discover_finds_nearest (by decide) (List.cons_ne_nil _ _) (by decide)
    (by decide) hstart fun above hle => habove above ((List.mem_inits _ _).2 hle)
  exact (hnearest.1 (by decide)).1 ["a".toList] (by decide) (by decide) fun other hother =>
    hlongest other ((List.mem_inits _ _).2 hother)

end TemplateDump.FileTree
