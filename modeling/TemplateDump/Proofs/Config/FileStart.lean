import TemplateDump.Proofs.Config.Nearest

/-!
# Starting from a file

A discovery that starts from a file goes on from what is left of the start without the name of the
file.  Behind other names that is the path of the directory which holds the file.  But nothing is
left of a name alone, and what is empty is not searched (`discover_of_name_alone`), while an empty
start stands for the working directory (`discover_empty_eq_none_iff`).

So a file and its directory lead to the same configuration, unless the file is in the working
directory and a configuration is at or above it (`discover_file_eq_discover_directory_iff`).
-/

namespace TemplateDump.FileTree

open PathText

/-- A start made of names.  No names make the empty start. -/
def startText (names : List Name) : String :=
  String.ofList (['/'].intercalate names)

@[simp] theorem toList_startText (names : List Name) :
    (startText names).toList = ['/'].intercalate names :=
  String.toList_ofList

variable {tree : FileTree} {names : List Name} {file : Name}

/-! ## Behind other names -/

section

variable (hnames : ∀ name ∈ names ++ [file], IsName name)
  (hlookup : tree.lookup (startText (names ++ [file])).toList = .ok (some .file))

include hnames

theorem startText_concat_ne_nil : (startText (names ++ [file])).toList ≠ [] := by
  rw [toList_startText]
  exact intercalate_ne_nil (by simp) fun name hname => (hnames name hname).toIsStep

theorem null_not_mem_startText : '\x00' ∉ (startText (names ++ [file])).toList := by
  rw [toList_startText]
  exact null_not_mem_intercalate hnames

include hlookup

/-- The path to a file that is found is not too long. -/
theorem admits_of_file : tree.admits (startText (names ++ [file])).toList = true := by
  refine admits_of_lookup ?_ hlookup
  rw [knownText_eq_self (null_not_mem_startText hnames)]
  exact startText_concat_ne_nil hnames

/-- What is in front of the name of a file leads to the directory that holds the file. -/
theorem lookup_directory_of_file (hne : names ≠ []) :
    tree.lookup (startText names).toList = .ok (some .directory) := by
  obtain ⟨hfront, -⟩ := List.forall_mem_append.1 hnames
  have hadmits := admits_of_file hnames hlookup
  have hadmits' : tree.admits (startText names).toList = true := by
    refine admits_of_sublist ?_ (null_not_mem_startText hnames) hadmits
    rw [toList_startText, toList_startText, intercalate_concat hne]
    exact List.sublist_append_left _ _
  rw [lookup_of_names (by simp) hnames (toList_startText _) hadmits, ← List.append_assoc] at hlookup
  have hdirectory : tree.isDirectory (tree.workingDirectory ++ names) = true := by
    refine isDirectory_of_entry? (List.cons_ne_nil file []) ?_
    rw [Except.ok.inj hlookup]
    exact Option.some_ne_none _
  rw [lookup_of_names hne hfront (toList_startText _) hadmits', entry?_of_isDirectory hdirectory]

/-- A start that leads to a file behind other names is searched like the names in front of it. -/
theorem searchPath_of_file (hne : names ≠ []) :
    tree.searchPath (startText (names ++ [file])).toList =
      tree.searchPath (startText names).toList := by
  obtain ⟨hfront, hfile⟩ := List.forall_mem_append.1 hnames
  have hsteps : ∀ name ∈ names, IsStep name := fun name hname => (hfront name hname).toIsStep
  have hnonempty : (startText names).toList ≠ [] := by
    rw [toList_startText]
    exact intercalate_ne_nil hne hsteps
  have hbase : basePath (startText (names ++ [file])).toList (some .file) =
      (startText names).toList := by
    rw [basePath, if_pos rfl, toList_startText, toList_startText]
    exact parent_intercalate_concat hne hsteps (hfile file List.mem_cons_self).toIsStep
  have hbase' : basePath (startText names).toList (some .directory) = (startText names).toList :=
    if_neg (by simp)
  rw [searchPath_of_lookup (startText_concat_ne_nil hnames) hlookup, hbase,
    searchPath_of_lookup hnonempty (lookup_directory_of_file hnames hlookup hne), hbase']

end

/-! ## A name alone -/

/-- From the name of a file alone nothing is found. -/
theorem discover_of_name_alone (hfile : IsName file)
    (hlookup : tree.lookup (startText [file]).toList = .ok (some .file)) :
    tree.discover (startText [file]) = .ok none := by
  have hname : (startText [file]).toList = file := by
    rw [toList_startText, List.intercalate_singleton]
  rw [hname] at hlookup
  have hbase : basePath file (some .file) = [] := by
    rw [basePath, if_pos rfl, hfile.parent_eq]
  have hsearch : tree.searchPath (startText [file]).toList = .ok [] := by
    rw [hname, searchPath_of_lookup hfile.ne_nil hlookup, hbase]
    rfl
  rw [discover_of_searchPath hsearch, searchUpwards_nil]
  rfl

section

variable (hplace : ∀ name ∈ tree.workingDirectory, IsName name)

include hplace

/-- The empty start is searched from the working directory, if the path of that is not too long. -/
theorem searchPath_empty :
    tree.searchPath [] =
      if tree.admits (pathTo tree.workingDirectory) = true then .ok (pathTo tree.workingDirectory)
      else .error .pathTooLong := by
  have hne : pathTo tree.workingDirectory ≠ [] := pathTo_ne_nil _
  have hgiven : tree.givenPath [] = pathTo tree.workingDirectory := rfl
  rw [← searchPath_givenPath, hgiven]
  split
  · next hadmits =>
    have hlookup : tree.lookup (pathTo tree.workingDirectory) = .ok (some .directory) := by
      rw [lookup_pathTo hplace hadmits, entry?_of_isDirectory isDirectory_workingDirectory]
    have hbase : basePath (pathTo tree.workingDirectory) (some .directory) =
        pathTo tree.workingDirectory := if_neg (by simp)
    rw [searchPath_of_lookup hne hlookup, hbase, isAbsolute_pathTo, Bool.or_true]
    rfl
  · next hadmits =>
    have hknown : knownText (pathTo tree.workingDirectory) ≠ [] := by
      rwa [knownText_eq_self (null_not_mem_pathTo hplace)]
    exact searchPath_of_error hne (lookup_of_not_admits hknown (Bool.eq_false_iff.2 hadmits))

/-- The path of the working directory is admitted if the path of a configuration in it is. -/
theorem admits_of_admits_configPath
    (hadmits : tree.admits (configPath tree.workingDirectory) = true) :
    tree.admits (pathTo tree.workingDirectory) = true := by
  refine admits_of_sublist ?_ (null_not_mem_configPath hplace) hadmits
  rw [← join_configFileName hplace, join]
  split <;> exact List.sublist_append_left _ _

/-- From the empty start nothing is found if and only if there is no configuration at or above the
working directory, and the path of one there would not be too long. -/
theorem discover_empty_eq_none_iff :
    tree.discover (startText []) = .ok none ↔
      tree.admits (configPath tree.workingDirectory) = true ∧
        ∀ near, near <+: tree.workingDirectory → ¬ tree.HasConfig near := by
  have hstart : tree.searchPath (startText []).toList = tree.searchPath [] := by
    rw [toList_startText]
    rfl
  rw [searchPath_empty hplace] at hstart
  by_cases hconfig : tree.admits (configPath tree.workingDirectory) = true
  · rw [if_pos (admits_of_admits_configPath hplace hconfig)] at hstart
    rw [discover_of_searchPath hstart]
    rcases searchUpwards_pathTo hplace hconfig with ⟨near, hnear, hfound⟩ | ⟨hnone, hfound⟩
    · rw [hfound]
      exact iff_of_false nofun fun h => h.2 near hnear.le hnear.hasConfig
    · rw [hfound]
      exact iff_of_true rfl ⟨hconfig, hnone⟩
  · refine iff_of_false ?_ fun h => hconfig h.1
    by_cases hadmits : tree.admits (pathTo tree.workingDirectory) = true
    · rw [if_pos hadmits] at hstart
      rw [discover_of_searchPath hstart,
        searchUpwards_of_not_admits hplace (Bool.eq_false_iff.2 hconfig)]
      exact nofun
    · rw [if_neg hadmits] at hstart
      rw [discover_of_error hstart]
      exact nofun

end

/-! ## A file and its directory -/

/-- **Starting from a file.**  Let the working directory have ordinary names, and let names of
directories with a name of a file behind them lead to a file.  The discovery from there is the same
as from the directory that holds the file, unless the file is in the working directory itself: then
nothing is found, and the two are the same if and only if there is no configuration at or above the
working directory, and the path of one there would not be too long. -/
theorem discover_file_eq_discover_directory_iff
    (hplace : ∀ name ∈ tree.workingDirectory, IsName name)
    (hnames : ∀ name ∈ names ++ [file], IsName name)
    (hlookup : tree.lookup (startText (names ++ [file])).toList = .ok (some .file)) :
    tree.discover (startText (names ++ [file])) = tree.discover (startText names) ↔
      (names = [] →
        tree.admits (configPath tree.workingDirectory) = true ∧
          ∀ near, near <+: tree.workingDirectory → ¬ tree.HasConfig near) := by
  by_cases hne : names = []
  · subst hne
    have hfile := hnames file (List.mem_append_right _ List.mem_cons_self)
    rw [List.nil_append] at hlookup ⊢
    rw [discover_of_name_alone hfile hlookup, ← discover_empty_eq_none_iff hplace]
    exact ⟨fun h _ => h.symm, fun h => (h rfl).symm⟩
  · refine iff_of_true ?_ fun h => absurd h hne
    rw [discover, discover, searchPath_of_file hnames hlookup hne]

/-- A file below the working directory leads to what its directory leads to, one in it does not. -/
theorem discover_of_files_beside_config :
    let tree : FileTree := {
      files := [["r".toList, "stencil-dump.json".toList], ["r".toList, "x".toList],
        ["r".toList, "a".toList, "y".toList]]
      directories := []
      workingDirectory := ["r".toList] }
    tree.discover "a/y" = tree.discover "a" ∧ tree.discover "x" ≠ tree.discover "" := by
  intro tree
  have hplace : ∀ name ∈ tree.workingDirectory, IsName name := by decide
  have hbelow : tree.lookup (startText (["a".toList] ++ ["y".toList])).toList =
      .ok (some .file) := rfl
  have hbeside : tree.lookup (startText ([] ++ ["x".toList])).toList = .ok (some .file) := rfl
  refine ⟨(discover_file_eq_discover_directory_iff hplace (by decide) hbelow).2 nofun, fun h => ?_⟩
  have hnone := (discover_file_eq_discover_directory_iff hplace (by decide) hbeside).1 h rfl
  exact hnone.2 ["r".toList] (by decide) (by decide)

/-- From a file in the working directory nothing is found, though the working directory has a
configuration, which is found from the empty start. -/
theorem discover_of_file_in_workingDirectory :
    let tree : FileTree := {
      files := [["r".toList, "stencil-dump.json".toList], ["r".toList, "x".toList]]
      directories := []
      workingDirectory := ["r".toList] }
    tree.lookup "x".toList = .ok (some .file) ∧
      tree.discover "x" = .ok none ∧
      tree.discover "" = .ok (some "/r/stencil-dump.json") := by
  intro tree
  have hname : tree.searchPath "x".toList = .ok [] := rfl
  have hempty : tree.searchPath "".toList = .ok "/r".toList := rfl
  refine ⟨rfl, ?_, ?_⟩
  · rw [discover_of_searchPath hname, searchUpwards_nil]
    rfl
  · rw [discover_of_searchPath hempty, searchUpwards_of_found (by decide) rfl]
    rfl

end TemplateDump.FileTree
