import TemplateDump.Config.FileTree
import TemplateDump.Proofs.Config.PathText
import Mathlib.Data.List.Flatten

/-!
# Where a look-up arrives

Steps lead from a place to another one (`arrive`), whatever there is in the file tree.  A look-up
that finds something has found what there is at the place where the steps of the path arrive
(`entry?_of_follow`), and steps that go through directories can be taken first
(`follow_append_of_walks`).

Ordinary names are those that can be the name of an entry.  Along them a look-up is never an error
and finds what is there (`follow_of_isName`).
-/

namespace TemplateDump.FileTree

open PathText

variable {tree : FileTree} {place : List Name} {name : Name}

/-! ## Entries -/

theorem isDirectory_iff : tree.isDirectory place = true ↔
    place = [] ∨ (∃ other ∈ tree.workingDirectory :: tree.directories, place <+: other) ∨
      ∃ file ∈ tree.files, place <+: file ∧ place ≠ file := by
  simp only [isDirectory, Bool.or_eq_true, List.isEmpty_iff, List.any_eq_true, Bool.and_eq_true,
    List.isPrefixOf_iff_prefix, bne_iff_ne, or_assoc]

/-- What is above a directory is a directory. -/
theorem isDirectory_of_le {other : List Name} (hle : place <+: other)
    (h : tree.isDirectory other = true) : tree.isDirectory place = true := by
  rw [isDirectory_iff] at h ⊢
  rcases h with rfl | ⟨d, hd, hother⟩ | ⟨file, hfile, hother, hne⟩
  · exact .inl (List.prefix_nil.1 hle)
  · exact .inr (.inl ⟨d, hd, hle.trans hother⟩)
  · refine .inr (.inr ⟨file, hfile, hle.trans hother, ?_⟩)
    rintro rfl
    exact hne (hother.eq_of_length_le hle.length_le)

theorem isDirectory_workingDirectory : tree.isDirectory tree.workingDirectory = true :=
  isDirectory_iff.2 (.inr (.inl ⟨_, List.mem_cons_self, List.prefix_rfl⟩))

theorem entry?_of_isDirectory (h : tree.isDirectory place = true) :
    tree.entry? place = some .directory :=
  if_pos h

theorem isDirectory_of_entry?_eq (h : tree.entry? place = some .directory) :
    tree.isDirectory place = true := by
  by_contra hnot
  unfold entry? at h
  rw [if_neg hnot] at h
  split at h <;> exact absurd h (by simp)

/-- What has an entry below it is a directory. -/
theorem isDirectory_of_entry? {behind : List Name} (hne : behind ≠ [])
    (h : tree.entry? (place ++ behind) ≠ none) : tree.isDirectory place = true := by
  unfold entry? at h
  split at h
  · next hdirectory => exact isDirectory_of_le (List.prefix_append _ _) hdirectory
  · split at h
    · next hfile =>
      refine isDirectory_iff.2 (.inr (.inr ⟨_, List.contains_iff_mem.1 hfile,
        List.prefix_append _ _, ?_⟩))
      simpa using hne
    · exact absurd rfl h

/-! ## Arriving -/

/-- The place where one name leads. -/
def enter (place : List Name) (name : Name) : List Name :=
  if name = [] ∨ name = currentName then place
  else if name = parentName then place.dropLast
  else place ++ [name]

/-- The place where names lead one after the other. -/
def arrive (place : List Name) (names : List Name) : List Name :=
  names.foldl enter place

theorem arrive_append (place front behind : List Name) :
    arrive place (front ++ behind) = arrive (arrive place front) behind :=
  List.foldl_append

/-- Empty names lead nowhere else. -/
theorem arrive_filter (place names : List Name) :
    arrive place (names.filter fun name => !name.isEmpty) = arrive place names := by
  induction names generalizing place with
  | nil => rfl
  | cons name rest ih =>
    rw [List.filter_cons]
    cases name with
    | nil => exact ih place
    | cons c more => exact ih (enter place (c :: more))

/-- Below a directory only a name of its own leads to a file. -/
theorem enter_eq_of_file (hplace : tree.isDirectory place = true)
    (h : tree.entry? (enter place name) = some .file) : enter place name = place ++ [name] := by
  rw [enter] at h ⊢
  split
  · next hstay =>
    rw [if_pos hstay, entry?_of_isDirectory hplace] at h
    exact absurd h (by simp)
  · next hstay =>
    split
    · next hparent =>
      rw [if_neg hstay, if_pos hparent,
        entry?_of_isDirectory (isDirectory_of_le (List.dropLast_prefix place) hplace)] at h
      exact absurd h (by simp)
    · rfl

/-! ## Following names -/

/-- One name of a look-up. -/
theorem follow_cons (tree : FileTree) (place : List Name) (name : Name) (rest : List Name) :
    tree.follow place (name :: rest) =
      if !tree.isDirectory place then .ok none
      else if maxNameBytes < textBytes name then .error .nameTooLong
      else tree.follow (enter place name) rest := by
  rw [follow, enter]
  split
  · rfl
  · split
    · next h =>
      rw [if_neg]
      rcases h with rfl | rfl <;> decide
    · split
      · next h =>
        rw [if_neg]
        rw [h]
        decide
      · rfl

/-- Names lead through directories only, and to one. -/
def Walks (tree : FileTree) : List Name → List Name → Prop
  | place, [] => tree.isDirectory place = true
  | place, name :: rest =>
    tree.isDirectory place = true ∧ textBytes name ≤ maxNameBytes ∧
      tree.Walks (enter place name) rest

variable {names front behind : List Name}

theorem Walks.isDirectory (h : tree.Walks place names) : tree.isDirectory place = true := by
  cases names with
  | nil => exact h
  | cons name rest => exact h.1

theorem walks_append : tree.Walks place (front ++ behind) ↔
    tree.Walks place front ∧ tree.Walks (arrive place front) behind := by
  induction front generalizing place with
  | nil => exact ⟨fun h => ⟨h.isDirectory, h⟩, And.right⟩
  | cons name rest ih =>
    simp only [List.cons_append, Walks, ih, and_assoc]
    rfl

theorem Walks.isDirectory_arrive (h : tree.Walks place names) :
    tree.isDirectory (arrive place names) = true := by
  rw [← List.append_nil names, walks_append] at h
  exact h.2

/-- Empty names can be left out. -/
theorem walks_filter :
    tree.Walks place (names.filter fun name => !name.isEmpty) ↔ tree.Walks place names := by
  induction names generalizing place with
  | nil => rfl
  | cons name rest ih =>
    cases name with
    | nil =>
      have hempty : textBytes [] ≤ maxNameBytes := by decide
      exact ih.trans ⟨fun h => ⟨h.isDirectory, hempty, h⟩, fun h => h.2.2⟩
    | cons c more => exact and_congr_right fun _ => and_congr_right fun _ => ih

theorem follow_append_of_walks (h : tree.Walks place front) (behind : List Name) :
    tree.follow place (front ++ behind) = tree.follow (arrive place front) behind := by
  induction front generalizing place with
  | nil => rfl
  | cons name rest ih =>
    obtain ⟨hplace, hbytes, hrest⟩ := h
    rw [List.cons_append, follow_cons, if_neg (by simp [hplace]), if_neg (Nat.not_lt.2 hbytes),
      ih hrest]
    rfl

/-- What is found is what there is where the names arrive. -/
theorem entry?_of_follow {kind : EntryKind} (h : tree.follow place names = .ok (some kind)) :
    tree.entry? (arrive place names) = some kind := by
  induction names generalizing place with
  | nil => exact Except.ok.inj h
  | cons name rest ih =>
    rw [follow_cons] at h
    split at h
    · exact absurd h (by simp)
    · split at h
      · exact absurd h (by simp)
      · exact ih h

/-- A directory that is found is found through directories. -/
theorem walks_of_follow_directory (h : tree.follow place names = .ok (some .directory)) :
    tree.Walks place names := by
  induction names generalizing place with
  | nil => exact isDirectory_of_entry?_eq (Except.ok.inj h)
  | cons name rest ih =>
    rw [follow_cons] at h
    split at h
    · exact absurd h (by simp)
    · next hplace =>
      split at h
      · exact absurd h (by simp)
      · next hbytes => exact ⟨by simpa using hplace, Nat.not_lt.1 hbytes, ih h⟩

/-- What is found is below directories. -/
theorem walks_of_follow {kind : EntryKind}
    (h : tree.follow place (front ++ name :: behind) = .ok (some kind)) :
    tree.Walks place front := by
  induction front generalizing place with
  | nil =>
    rw [List.nil_append, follow_cons] at h
    split at h
    · exact absurd h (by simp)
    · next hplace => simpa [Walks] using hplace
  | cons first rest ih =>
    rw [List.cons_append, follow_cons] at h
    split at h
    · exact absurd h (by simp)
    · next hplace =>
      split at h
      · exact absurd h (by simp)
      · next hbytes => exact ⟨by simpa using hplace, Nat.not_lt.1 hbytes, ih h⟩

/-! ## Looking up a path -/

variable {path : List Char}

theorem knownText_eq_self (h : '\x00' ∉ path) : knownText path = path :=
  List.takeWhile_eq_self_iff.2 fun _ hc => bne_iff_ne.2 fun e => h (e ▸ hc)

/-- The empty path leads to nothing. -/
theorem ne_nil_of_lookup {kind : EntryKind} (h : tree.lookup path = .ok (some kind)) :
    path ≠ [] := by
  rintro rfl
  exact absurd (Except.ok.inj h) (by simp)

theorem lookup_of_not_admits (hne : knownText path ≠ []) (h : tree.admits path = false) :
    tree.lookup path = .error .pathTooLong := by
  rw [lookup, if_neg (by simpa using hne), h]
  rfl

theorem admits_of_lookup (hne : knownText path ≠ []) {found : Option EntryKind}
    (h : tree.lookup path = .ok found) : tree.admits path = true := by
  by_contra hnot
  rw [lookup_of_not_admits hne (Bool.eq_false_iff.2 hnot)] at h
  exact absurd h (by simp)

/-- The place to which a path leads. -/
def placeOf (tree : FileTree) (path : List Char) : List Name :=
  arrive (tree.itinerary path).1 (tree.itinerary path).2

theorem entry?_of_lookup {kind : EntryKind} (h : tree.lookup path = .ok (some kind)) :
    tree.entry? (tree.placeOf path) = some kind := by
  rw [lookup] at h
  split at h
  · exact absurd h (by simp)
  · split at h
    · exact absurd h (by simp)
    · exact entry?_of_follow h

theorem exists_cons_of_isAbsolute (h : isAbsolute path = true) : ∃ rest, path = '/' :: rest := by
  cases path with
  | nil => exact absurd h (by decide)
  | cons c rest =>
    obtain rfl : c = '/' := by simpa [isAbsolute] using h
    exact ⟨rest, rfl⟩

/-- An absolute path leads from the root. -/
theorem itinerary_of_isAbsolute {rest : List Char} (hnull : '\x00' ∉ '/' :: rest) :
    tree.itinerary ('/' :: rest) = ([], PathText.names rest) := by
  rw [itinerary, knownText_eq_self hnull]
  rfl

/-- A relative path leads from the working directory. -/
theorem itinerary_of_relative (h : isAbsolute path = false) (hnull : '\x00' ∉ path) :
    tree.itinerary path = (tree.workingDirectory, PathText.names path) := by
  rw [itinerary, knownText_eq_self hnull]
  split
  · exact absurd h (by simp [isAbsolute])
  · rfl

theorem placeOf_of_isAbsolute (h : isAbsolute path = true) (hnull : '\x00' ∉ path) :
    tree.placeOf path = arrive [] (steps path) := by
  obtain ⟨rest, rfl⟩ := exists_cons_of_isAbsolute h
  rw [placeOf, itinerary_of_isAbsolute hnull, steps_cons_slash, steps, arrive_filter]

theorem placeOf_of_relative (h : isAbsolute path = false) (hnull : '\x00' ∉ path) :
    tree.placeOf path = arrive tree.workingDirectory (steps path) := by
  rw [placeOf, itinerary_of_relative h hnull, steps, arrive_filter]

theorem lookup_of_isAbsolute (h : isAbsolute path = true) (hnull : '\x00' ∉ path)
    (hadmits : tree.admits path = true) :
    tree.lookup path = tree.follow [] (PathText.names path) := by
  obtain ⟨rest, rfl⟩ := exists_cons_of_isAbsolute h
  have hroot : tree.isDirectory [] = true := rfl
  have hnames : PathText.names ('/' :: rest) = [] :: PathText.names rest := rfl
  rw [lookup_of_admits hadmits, itinerary_of_isAbsolute hnull, knownText_eq_self hnull, hnames,
    follow_cons, hroot]
  rfl

theorem lookup_of_relative (hne : path ≠ []) (h : isAbsolute path = false) (hnull : '\x00' ∉ path)
    (hadmits : tree.admits path = true) :
    tree.lookup path = tree.follow tree.workingDirectory (PathText.names path) := by
  rw [lookup_of_admits hadmits, itinerary_of_relative h hnull, knownText_eq_self hnull,
    if_neg (by simpa using hne)]

/-! ## Ordinary names -/

/-- A name that an entry of a directory can have. -/
structure IsName (name : Name) : Prop extends IsStep name where
  ne_current : name ≠ currentName
  ne_parent : name ≠ parentName
  null_not_mem : '\x00' ∉ name
  bytes_le : textBytes name ≤ maxNameBytes

instance (name : Name) : Decidable (IsName name) :=
  decidable_of_iff (name ≠ [] ∧ '/' ∉ name ∧ name ≠ currentName ∧ name ≠ parentName ∧
    '\x00' ∉ name ∧ textBytes name ≤ maxNameBytes)
    ⟨fun ⟨h₁, h₂, h₃, h₄, h₅, h₆⟩ => ⟨⟨h₁, h₂⟩, h₃, h₄, h₅, h₆⟩,
      fun ⟨⟨h₁, h₂⟩, h₃, h₄, h₅, h₆⟩ => ⟨h₁, h₂, h₃, h₄, h₅, h₆⟩⟩

theorem IsName.enter_eq (h : IsName name) : enter place name = place ++ [name] := by
  rw [enter, if_neg (not_or.2 ⟨h.ne_nil, h.ne_current⟩), if_neg h.ne_parent]

/-- Ordinary names lead to the places below. -/
theorem arrive_of_isName (h : ∀ name ∈ names, IsName name) :
    arrive place names = place ++ names := by
  induction names generalizing place with
  | nil => exact (List.append_nil place).symm
  | cons name rest ih =>
    obtain ⟨hname, hrest⟩ := List.forall_mem_cons.1 h
    rw [arrive, List.foldl_cons, hname.enter_eq]
    exact (ih hrest).trans (List.append_cons place name rest).symm

/-- Along ordinary names a look-up finds what there is. -/
theorem follow_of_isName (h : ∀ name ∈ names, IsName name) :
    tree.follow place names = .ok (tree.entry? (place ++ names)) := by
  induction names generalizing place with
  | nil => rw [follow, List.append_nil]
  | cons name rest ih =>
    obtain ⟨hname, hrest⟩ := List.forall_mem_cons.1 h
    rw [follow_cons]
    split
    · next hplace =>
      refine congrArg Except.ok (Eq.symm ?_)
      by_contra hentry
      have hdirectory := isDirectory_of_entry? (List.cons_ne_nil name rest) hentry
      simp [hdirectory] at hplace
    · rw [if_neg (Nat.not_lt.2 hname.bytes_le), hname.enter_eq, ih hrest, ← List.append_cons]

/-- Ordinary names lead through directories to one. -/
theorem walks_of_isName (h : ∀ name ∈ names, IsName name)
    (hdirectory : tree.isDirectory (place ++ names) = true) : tree.Walks place names := by
  induction names generalizing place with
  | nil => exact List.append_nil place ▸ hdirectory
  | cons name rest ih =>
    obtain ⟨hname, hrest⟩ := List.forall_mem_cons.1 h
    refine ⟨isDirectory_of_le (List.prefix_append _ _) hdirectory, hname.bytes_le, ?_⟩
    rw [hname.enter_eq]
    exact ih hrest (List.append_cons place name rest ▸ hdirectory)

/-- Names without `..` lead to the place or to one below. -/
theorem prefix_arrive (h : parentName ∉ names) : place <+: arrive place names := by
  induction names generalizing place with
  | nil => exact List.prefix_rfl
  | cons name rest ih =>
    rw [List.mem_cons, not_or] at h
    refine List.IsPrefix.trans ?_ (ih h.2)
    rw [enter]
    split
    · exact List.prefix_rfl
    · rw [if_neg (Ne.symm h.1)]
      exact List.prefix_append _ _

theorem null_not_mem_pathTo (h : ∀ name ∈ place, IsName name) : '\x00' ∉ pathTo place := by
  by_cases hne : place = []
  · subst hne
    decide
  · rw [pathTo_of_ne_nil hne]
    intro hmem
    obtain ⟨name, hname, hmem⟩ := List.mem_flatMap.1 hmem
    rcases List.mem_cons.1 hmem with hslash | hmem
    · exact absurd hslash (by decide)
    · exact (h name hname).null_not_mem hmem

theorem null_not_mem_intercalate (h : ∀ name ∈ place, IsName name) :
    '\x00' ∉ ['/'].intercalate place := by
  intro hmem
  refine null_not_mem_pathTo h ?_
  rw [pathTo_eq]
  exact List.mem_cons_of_mem _ hmem

theorem isAbsolute_pathTo (place : List Name) : isAbsolute (pathTo place) = true := by
  rw [pathTo_eq]
  rfl

/-- The look-up of a place with ordinary names finds what there is. -/
theorem lookup_pathTo (h : ∀ name ∈ place, IsName name)
    (hadmits : tree.admits (pathTo place) = true) :
    tree.lookup (pathTo place) = .ok (tree.entry? place) := by
  have hnames : PathText.names (pathTo place) = [] :: PathText.names (['/'].intercalate place) := by
    rw [pathTo_eq]
    rfl
  have hroot : tree.isDirectory [] = true := rfl
  rw [lookup_of_isAbsolute (isAbsolute_pathTo place) (null_not_mem_pathTo h) hadmits, hnames,
    follow_cons, hroot]
  cases place with
  | nil => rfl
  | cons first rest =>
    rw [names_intercalate (List.cons_ne_nil _ _) fun name hname => (h name hname).slash_not_mem]
    exact follow_of_isName h

theorem textBytes_le_of_sublist {a b : List Char} (h : a.Sublist b) :
    textBytes a ≤ textBytes b := by
  induction h with
  | slnil => exact le_rfl
  | cons c _ ih => exact ih.trans (Nat.le_add_left _ _)
  | cons_cons c _ ih => exact Nat.add_le_add_left ih _

/-- A path is admitted if it is what is left of one that is. -/
theorem admits_of_sublist {longer : List Char} (hle : path.Sublist longer)
    (hnull : '\x00' ∉ longer) (h : tree.admits longer = true) : tree.admits path = true := by
  rw [admits, Option.all_eq_true] at h ⊢
  intro limit hlimit
  have hbytes := h limit hlimit
  rw [knownText_eq_self hnull] at hbytes
  rw [knownText_eq_self fun hmem => hnull (hle.subset hmem)]
  exact decide_eq_true ((textBytes_le_of_sublist hle).trans (of_decide_eq_true hbytes))

/-- The path of a place above is admitted if the path of the place is. -/
theorem admits_pathTo_concat {above : List Name} (hplace : ∀ name ∈ place, IsName name)
    (hname : IsName name) (hle : above <+: place)
    (h : tree.admits (pathTo (place ++ [name])) = true) :
    tree.admits (pathTo (above ++ [name])) = true := by
  have hnames : ∀ n ∈ place ++ [name], IsName n :=
    List.forall_mem_append.2 ⟨hplace, List.forall_mem_singleton.2 hname⟩
  have hsublist : (above ++ [name]).Sublist (place ++ [name]) := hle.sublist.append_right _
  have hpath : (pathTo (above ++ [name])).Sublist (pathTo (place ++ [name])) := by
    rw [pathTo_of_ne_nil (by simp), pathTo_of_ne_nil (by simp)]
    exact hsublist.flatMap _
  exact admits_of_sublist hpath (null_not_mem_pathTo hnames) h

end TemplateDump.FileTree
