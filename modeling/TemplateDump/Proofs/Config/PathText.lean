import TemplateDump.Config.PathText
import TemplateDump.Proofs.Text.Pieces
import Mathlib.Data.List.Infix
import Mathlib.Data.List.TakeWhile

/-!
# Names, parents and joins

Slashes that follow one another or stand at the end of a path have no name between them, so what
counts are the steps of a path: its names but for the empty ones.  A path has the steps of its
parent and at most one more (`prefix_steps_iff`), and a join has the steps of both of its parts
(`steps_join`).

The path of a place has a slash in front of each name of the place.  Its parent is the path of the
place above (`parent_pathTo_concat`), and a name is joined to it as to the place (`join_pathTo`).
-/

namespace TemplateDump.PathText

/-- A text that can stand between two slashes as a name. -/
structure IsStep (name : Name) : Prop where
  ne_nil : name ≠ []
  slash_not_mem : '/' ∉ name

variable {path : List Char} {name : Name} {place : List Name}

/-! ## Names -/

theorem names_ne_nil (path : List Char) : names path ≠ [] := by
  cases path with
  | nil => exact List.cons_ne_nil _ _
  | cons c rest =>
    rw [names]
    split
    · exact List.cons_ne_nil _ _
    · split <;> exact List.cons_ne_nil _ _

theorem names_append_slash (front behind : List Char) :
    names (front ++ '/' :: behind) = names front ++ names behind := by
  induction front with
  | nil => rfl
  | cons c front ih =>
    rw [List.cons_append, names, names]
    by_cases hc : c = '/'
    · rw [if_pos hc, if_pos hc, ih, List.cons_append]
    · rw [if_neg hc, if_neg hc, ih]
      cases hfront : names front with
      | nil => exact absurd hfront (names_ne_nil front)
      | cons first others => rfl

theorem names_of_not_mem (h : '/' ∉ name) : names name = [name] := by
  induction name with
  | nil => rfl
  | cons c rest ih =>
    rw [List.mem_cons, not_or] at h
    rw [names, if_neg (Ne.symm h.1), ih h.2]

/-- Names that hold no slash are cut apart at the slashes between them. -/
theorem names_intercalate (hne : place ≠ []) (hslash : ∀ name ∈ place, '/' ∉ name) :
    names (['/'].intercalate place) = place := by
  induction place with
  | nil => exact absurd rfl hne
  | cons name rest ih =>
    obtain ⟨hname, hrest⟩ := List.forall_mem_cons.1 hslash
    cases rest with
    | nil =>
      rw [List.intercalate_singleton]
      exact names_of_not_mem hname
    | cons next others =>
      rw [List.intercalate_cons_cons, List.append_assoc, List.singleton_append,
        names_append_slash, names_of_not_mem hname, ih (List.cons_ne_nil _ _) hrest,
        List.singleton_append]

/-! ## Steps -/

/-- The names of a path but for the empty ones. -/
def steps (path : List Char) : List Name :=
  (names path).filter fun name => !name.isEmpty

@[simp] theorem steps_nil : steps [] = [] := rfl

theorem steps_append_slash (front behind : List Char) :
    steps (front ++ '/' :: behind) = steps front ++ steps behind := by
  rw [steps, names_append_slash, List.filter_append, steps, steps]

@[simp] theorem steps_cons_slash (path : List Char) : steps ('/' :: path) = steps path :=
  steps_append_slash [] path

theorem IsStep.steps_eq (h : IsStep name) : steps name = [name] := by
  rw [steps, names_of_not_mem h.slash_not_mem, List.filter_cons_of_pos (by simp [h.ne_nil])]
  rfl

theorem steps_intercalate (h : ∀ name ∈ place, IsStep name) :
    steps (['/'].intercalate place) = place := by
  cases place with
  | nil => rfl
  | cons first rest =>
    rw [steps, names_intercalate (List.cons_ne_nil _ _) fun name hname =>
      (h name hname).slash_not_mem]
    refine List.filter_eq_self.2 fun name hname => ?_
    simpa using (h name hname).ne_nil

/-- Slashes at the end make no step. -/
theorem steps_reverse_dropWhile (reversed : List Char) :
    steps (reversed.dropWhile (· == '/')).reverse = steps reversed.reverse := by
  induction reversed with
  | nil => rfl
  | cons c rest ih =>
    by_cases hc : c = '/'
    · subst hc
      rw [List.dropWhile_cons_of_pos (by rfl), ih, List.reverse_cons, steps_append_slash,
        steps_nil, List.append_nil]
    · rw [List.dropWhile_cons_of_neg (by simpa using hc)]

/-- A text that is empty or ends in a slash has its steps in front of those behind it. -/
theorem steps_append {front : List Char} (h : front = [] ∨ front.getLast? = some '/')
    (behind : List Char) : steps (front ++ behind) = steps front ++ steps behind := by
  rcases h with rfl | h
  · rfl
  · obtain ⟨more, rfl⟩ := List.getLast?_eq_some_iff.1 h
    rw [List.append_assoc, List.singleton_append, steps_append_slash, steps_append_slash,
      steps_nil, List.append_nil]

/-! ## Joins and parents -/

theorem steps_join (path more : List Char) : steps (join path more) = steps path ++ steps more := by
  rw [join]
  split
  · next h => exact steps_append h more
  · exact steps_append_slash path more

/-- What is in front of the last name is empty or ends in a slash, and has the steps of the
parent. -/
theorem exists_last_name (path : List Char) :
    ∃ front last, path = front ++ last ∧ (front = [] ∨ front.getLast? = some '/') ∧ '/' ∉ last ∧
      steps (parent path) = steps front := by
  by_cases hall : path.all (· == '/') = true
  · refine ⟨path, [], (List.append_nil path).symm, ?_, List.not_mem_nil, ?_⟩
    · cases hlast : path.getLast? with
      | none => exact .inl (List.getLast?_eq_none_iff.1 hlast)
      | some c =>
        have hc := List.all_eq_true.1 hall c (List.mem_of_getLast? hlast)
        exact .inr (congrArg some (beq_iff_eq.1 hc))
    · rw [parent, if_pos hall]
  · refine ⟨(path.reverse.dropWhile (· != '/')).reverse,
      (path.reverse.takeWhile (· != '/')).reverse, ?_, ?_, ?_, ?_⟩
    · rw [← List.reverse_append, List.takeWhile_append_dropWhile, List.reverse_reverse]
    · cases hrest : path.reverse.dropWhile (· != '/') with
      | nil => exact .inl rfl
      | cons c rest =>
        have hc := List.head_dropWhile_not (p := (· != '/')) (l := path.reverse) (by simp [hrest])
        refine .inr ?_
        rw [List.getLast?_reverse]
        simpa [hrest] using hc
    · rw [List.mem_reverse]
      intro hmem
      exact absurd (List.mem_takeWhile_imp hmem) (by decide)
    · rw [parent, if_neg hall, ← steps_reverse_dropWhile]
      split
      · next hnil =>
        rw [hnil]
        split <;> rfl
      · rfl

/-- A path has the names of its parent, with empty ones behind them, and one more name. -/
theorem exists_names_eq (path : List Char) :
    ∃ init last, names path = init ++ [last] ∧
      steps (parent path) = init.filter fun name => !name.isEmpty := by
  obtain ⟨front, last, rfl, hfront, hlast, hparent⟩ := exists_last_name path
  rcases hfront with rfl | hslash
  · exact ⟨[], last, names_of_not_mem hlast, hparent⟩
  · obtain ⟨more, rfl⟩ := List.getLast?_eq_some_iff.1 hslash
    refine ⟨names more, last, ?_, ?_⟩
    · rw [List.append_assoc, List.singleton_append, names_append_slash, names_of_not_mem hlast]
    · rw [hparent, steps_append_slash, steps_nil, List.append_nil, steps]

/-- The steps of the parent are those of the path, but for the last one at most. -/
theorem prefix_steps_iff {path : List Char} {passed : List Name} :
    passed <+: steps path ↔ passed = steps path ∨ passed <+: steps (parent path) := by
  obtain ⟨init, last, hnames, hparent⟩ := exists_names_eq path
  rw [hparent, steps, hnames, List.filter_append, List.filter_cons]
  split
  · exact List.prefix_concat_iff
  · rw [List.filter_nil, List.append_nil]
    exact ⟨.inr, fun h => h.elim (fun e => e ▸ List.prefix_rfl) id⟩

theorem steps_parent_le (path : List Char) : steps (parent path) <+: steps path :=
  prefix_steps_iff.2 (.inr List.prefix_rfl)

/-- The names of a path and a name that is joined to it. -/
theorem exists_names_join (path : List Char) (hname : IsStep name) :
    ∃ init, names (join path name) = init ++ [name] ∧
      steps path = init.filter fun name => !name.isEmpty := by
  rw [join]
  split
  · next h =>
    rcases h with rfl | hslash
    · exact ⟨[], names_of_not_mem hname.slash_not_mem, rfl⟩
    · obtain ⟨more, rfl⟩ := List.getLast?_eq_some_iff.1 hslash
      refine ⟨names more, ?_, ?_⟩
      · rw [List.append_assoc, List.singleton_append, names_append_slash,
          names_of_not_mem hname.slash_not_mem]
      · rw [steps_append_slash, steps_nil, List.append_nil, steps]
  · exact ⟨names path, by rw [names_append_slash, names_of_not_mem hname.slash_not_mem], rfl⟩

theorem isAbsolute_parent (h : isAbsolute path = true) : isAbsolute (parent path) = true := by
  have hne : parent path ≠ [] := by
    rw [parent]
    split
    · rintro rfl
      exact absurd h (by decide)
    · split
      · exact List.cons_ne_nil _ _
      · simp_all
  obtain ⟨c, rest, hcons⟩ := List.exists_cons_of_ne_nil hne
  obtain ⟨more, hmore⟩ := parent_isPrefix path
  rw [hcons] at hmore ⊢
  rw [← hmore] at h
  exact h

theorem isAbsolute_parent_of_relative (h : isAbsolute path = false) :
    isAbsolute (parent path) = false := by
  obtain ⟨more, hmore⟩ := parent_isPrefix path
  cases hparent : parent path with
  | nil => rfl
  | cons c rest =>
    rw [hparent] at hmore
    rw [← hmore] at h
    exact h

theorem isAbsolute_join (h : isAbsolute path = true) (name : List Char) :
    isAbsolute (join path name) = true := by
  cases path with
  | nil => exact absurd h (by decide)
  | cons c rest =>
    rw [join]
    split <;> exact h

theorem IsStep.all_slash_eq_false (h : IsStep name) : name.all (· == '/') = false := by
  obtain ⟨c, hc⟩ := List.exists_mem_of_ne_nil name h.ne_nil
  refine List.all_eq_false.2 ⟨c, hc, fun hslash => h.slash_not_mem ?_⟩
  exact beq_iff_eq.1 hslash ▸ hc

/-- Nothing is left of a name alone. -/
theorem IsStep.parent_eq (h : IsStep name) : parent name = [] := by
  have hdrop : name.reverse.dropWhile (· != '/') = [] := List.dropWhile_eq_nil_iff.2 fun c hc =>
    bne_iff_ne.2 fun e => h.slash_not_mem (e ▸ List.mem_reverse.1 hc)
  have hrelative : ¬ isAbsolute name = true := by
    intro habsolute
    have hfirst : name.head? = some '/' := of_decide_eq_true habsolute
    exact h.slash_not_mem (List.mem_of_head? hfirst)
  rw [parent, if_neg (by simp [h.all_slash_eq_false]), hdrop, List.dropWhile_nil]
  exact if_neg hrelative

/-- What has a last name behind a slash is left without the name and the slash. -/
theorem parent_append_slash {front : List Char} (hfront : front.getLast? ≠ some '/')
    (hname : IsStep name) :
    parent (front ++ '/' :: name) = if front = [] then ['/'] else front := by
  have hall : ¬ (front ++ '/' :: name).all (· == '/') = true := by
    rw [List.all_append, List.all_cons, hname.all_slash_eq_false]
    simp
  have hkeep : ∀ c ∈ name.reverse, (c != '/') = true := fun c hc =>
    bne_iff_ne.2 fun e => hname.slash_not_mem (e ▸ List.mem_reverse.1 hc)
  have hdrop : (front ++ '/' :: name).reverse.dropWhile (· != '/') = '/' :: front.reverse := by
    rw [List.reverse_append, List.reverse_cons, List.append_assoc,
      List.dropWhile_append_of_pos hkeep]
    rfl
  have hstay : front.reverse.dropWhile (· == '/') = front.reverse := by
    rw [List.getLast?_eq_head?_reverse] at hfront
    cases hrev : front.reverse with
    | nil => rfl
    | cons c rest =>
      rw [hrev] at hfront
      exact List.dropWhile_cons_of_neg (by simpa using hfront)
  rw [parent, if_neg hall, hdrop, List.dropWhile_cons_of_pos (by rfl), hstay]
  cases front with
  | nil => rfl
  | cons c rest =>
    rw [if_neg (List.cons_ne_nil c rest)]
    split
    · next hnil => exact absurd hnil (by simp)
    · rw [List.reverse_reverse]

/-! ## The path of a place -/

/-- The absolute path of a place, given by its names from the root on. -/
def pathTo : List Name → List Char
  | [] => ['/']
  | names => names.flatMap ('/' :: ·)

theorem pathTo_of_ne_nil (h : place ≠ []) : pathTo place = place.flatMap ('/' :: ·) := by
  cases place with
  | nil => exact absurd rfl h
  | cons name rest => rfl

theorem pathTo_append_of_ne_nil {front : List Name} (hfront : front ≠ []) (hplace : place ≠ []) :
    pathTo (front ++ place) = pathTo front ++ pathTo place := by
  rw [pathTo_of_ne_nil hfront, pathTo_of_ne_nil hplace,
    pathTo_of_ne_nil (List.append_ne_nil_of_left_ne_nil hfront place), List.flatMap_append]

theorem pathTo_singleton (name : Name) : pathTo [name] = '/' :: name :=
  List.flatMap_singleton ..

theorem pathTo_eq (place : List Name) : pathTo place = '/' :: ['/'].intercalate place := by
  cases place with
  | nil => rfl
  | cons name rest => exact Text.flatMap_cons_eq_cons_intercalate '/' (List.cons_ne_nil name rest)

theorem pathTo_ne_nil (place : List Name) : pathTo place ≠ [] := by
  rw [pathTo_eq]
  exact List.cons_ne_nil _ _

theorem steps_pathTo (h : ∀ name ∈ place, IsStep name) : steps (pathTo place) = place := by
  rw [pathTo_eq, steps_cons_slash, steps_intercalate h]

theorem getLast?_pathTo (hne : place ≠ []) (h : ∀ name ∈ place, IsStep name) :
    (pathTo place).getLast? ≠ some '/' := by
  obtain ⟨front, last, rfl⟩ := List.eq_nil_or_concat place |>.resolve_left hne
  rw [List.concat_eq_append] at h ⊢
  have hlast := h last (List.mem_append_right _ List.mem_cons_self)
  have hpath : pathTo (front ++ [last]) = front.flatMap ('/' :: ·) ++ ['/'] ++ last := by
    rw [pathTo_of_ne_nil (by simp), List.flatMap_append, List.flatMap_singleton]
    simp
  rw [hpath, List.getLast?_append_of_ne_nil _ hlast.ne_nil]
  exact fun hslash => hlast.slash_not_mem (List.mem_of_getLast? hslash)

theorem getLast?_intercalate (hne : place ≠ []) (h : ∀ name ∈ place, IsStep name) :
    (['/'].intercalate place).getLast? ≠ some '/' := by
  intro hlast
  obtain ⟨more, hmore⟩ := List.getLast?_eq_some_iff.1 hlast
  refine getLast?_pathTo hne h ?_
  rw [pathTo_eq, hmore, ← List.cons_append, List.getLast?_concat]

/-- Names are joined to the path of a place as they are to the place. -/
theorem join_pathTo (h : ∀ name ∈ place, IsStep name) {more : List Name} (hmore : more ≠ []) :
    join (pathTo place) (['/'].intercalate more) = pathTo (place ++ more) := by
  by_cases hne : place = []
  · subst hne
    rw [join, if_pos (.inr rfl), List.nil_append, pathTo_eq more]
    rfl
  · rw [join, if_neg (not_or.2 ⟨pathTo_ne_nil place, getLast?_pathTo hne h⟩), ← pathTo_eq,
      pathTo_append_of_ne_nil hne hmore]

theorem parent_pathTo_concat (h : ∀ name ∈ place, IsStep name) (hname : IsStep name) :
    parent (pathTo (place ++ [name])) = pathTo place := by
  by_cases hne : place = []
  · subst hne
    have hroot : parent ([] ++ '/' :: name) = ['/'] :=
      (parent_append_slash (by simp) hname).trans (if_pos rfl)
    rw [List.nil_append, pathTo_singleton]
    exact hroot
  · rw [pathTo_append_of_ne_nil hne (List.cons_ne_nil _ _), pathTo_singleton,
      parent_append_slash (getLast?_pathTo hne h) hname, if_neg (pathTo_ne_nil place)]

theorem intercalate_ne_nil (hne : place ≠ []) (h : ∀ name ∈ place, IsStep name) :
    ['/'].intercalate place ≠ [] := by
  intro hnil
  have hsteps := steps_intercalate h
  rw [hnil] at hsteps
  exact hne hsteps.symm

theorem isAbsolute_intercalate (h : ∀ name ∈ place, IsStep name) :
    isAbsolute (['/'].intercalate place) = false := by
  cases place with
  | nil => rfl
  | cons first rest =>
    obtain ⟨hne, hslash⟩ := h first List.mem_cons_self
    obtain ⟨c, more, rfl⟩ := List.exists_cons_of_ne_nil hne
    have hc : c ≠ '/' := fun e => hslash (e ▸ List.mem_cons_self)
    cases rest with
    | nil => simpa [isAbsolute] using hc
    | cons next others => simpa [isAbsolute, List.intercalate_cons_cons] using hc

theorem intercalate_concat (hne : place ≠ []) (name : Name) :
    ['/'].intercalate (place ++ [name]) = ['/'].intercalate place ++ '/' :: name := by
  have hpath := pathTo_append_of_ne_nil hne (List.cons_ne_nil name [])
  rw [pathTo_eq, pathTo_eq, pathTo_singleton] at hpath
  exact (List.cons.inj hpath).2

/-- The parent of names with slashes between them, if there are two at least. -/
theorem parent_intercalate_concat (hne : place ≠ []) (h : ∀ name ∈ place, IsStep name)
    (hname : IsStep name) :
    parent (['/'].intercalate (place ++ [name])) = ['/'].intercalate place := by
  rw [intercalate_concat hne, parent_append_slash (getLast?_intercalate hne h) hname,
    if_neg (intercalate_ne_nil hne h)]

end TemplateDump.PathText
