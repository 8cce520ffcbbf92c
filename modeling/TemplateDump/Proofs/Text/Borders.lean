import TemplateDump.Proofs.Text.Pieces
import Mathlib.Data.List.Chain

/-!
# Pieces that can be told from their text

Pieces without separators are put together with the separator in front of each.  An end in a blank
and a hyphen is open, as it makes a separator with the blank behind it, and so is a start with a
hyphen and a blank.  At an open end or start the text does not say which separator is the border.

`legible_iff` says when the pieces can be told from the text all the same, if one knows how many
they are: every border is clear of open ends and starts, or each open end meets an open start and
no piece between two others is a hyphen alone.

* `length_lt_or_eq_of_clear` — clear borders are as many as there can be in the text;
* `length_lt_or_eq_of_even` — borders at which open ends meet open starts are as few as there can
  be;
* `ambiguous_of_endsOpen`, `ambiguous_of_startsOpen`, `ambiguous_of_hyphen` — the ways in which
  other pieces give the same text.
-/

namespace TemplateDump.Text

/-! ## Open ends and starts -/

/-- No separator stands in the piece. -/
def SeparatorFree (piece : List Char) : Prop :=
  ¬ separator.toList <:+: piece

/-- The end of the piece makes a separator with the blank of the one behind it. -/
def EndsOpen (piece : List Char) : Prop :=
  [' ', '-'] <:+ piece

/-- The start of the piece makes a separator with the blank of the one in front of it. -/
def StartsOpen (piece : List Char) : Prop :=
  ['-', ' '] <+: piece

instance (piece : List Char) : Decidable (SeparatorFree piece) :=
  inferInstanceAs (Decidable (¬ separator.toList <:+: piece))

instance (piece : List Char) : Decidable (EndsOpen piece) :=
  inferInstanceAs (Decidable ([' ', '-'] <:+ piece))

instance (piece : List Char) : Decidable (StartsOpen piece) :=
  inferInstanceAs (Decidable (['-', ' '] <+: piece))

theorem SeparatorFree.mono {a b : List Char} (h : SeparatorFree b) (hab : a <:+: b) :
    SeparatorFree a :=
  fun ha => h (ha.trans hab)

theorem separatorFree_cons_cons {piece : List Char} :
    SeparatorFree ('-' :: ' ' :: piece) ↔ SeparatorFree piece ∧ ¬ StartsOpen piece := by
  simp [SeparatorFree, StartsOpen, toList_separator, List.infix_cons_iff, List.cons_prefix_cons,
    and_comm]

/-- The separator reads the same from both sides. -/
theorem separatorFree_reverse {piece : List Char} :
    SeparatorFree piece.reverse ↔ SeparatorFree piece :=
  not_congr (show separator.toList.reverse <:+: piece.reverse ↔ _ from List.reverse_infix)

theorem startsOpen_reverse {piece : List Char} : StartsOpen piece.reverse ↔ EndsOpen piece :=
  show [' ', '-'].reverse <+: piece.reverse ↔ _ from List.reverse_prefix

theorem separatorFree_append {piece : List Char} :
    SeparatorFree (piece ++ [' ', '-']) ↔ SeparatorFree piece ∧ ¬ EndsOpen piece := by
  rw [← separatorFree_reverse, List.reverse_append, ← startsOpen_reverse,
    ← @separatorFree_reverse piece]
  exact separatorFree_cons_cons

/-- A hyphen and a blank at the start are those of the first piece, or this is the hyphen alone and
a separator follows. -/
theorem append_joinPieces_eq_hyphen {piece behind : List Char} {rest : List (List Char)}
    (h : piece ++ joinPieces rest = '-' :: ' ' :: behind) :
    (∃ more, piece = '-' :: ' ' :: more ∧ more ++ joinPieces rest = behind) ∨
      piece = ['-'] ∧ ∃ next rest', rest = next :: rest' ∧
        '-' :: ' ' :: (next ++ joinPieces rest') = behind := by
  match piece with
  | [] => cases rest <;> simp [joinPieces_cons, toList_separator] at h
  | [c] =>
    cases rest with
    | nil => simp at h
    | cons next rest' =>
      simp only [joinPieces_cons, toList_separator, List.cons_append, List.nil_append,
        List.cons.injEq, true_and] at h
      obtain ⟨rfl, rfl⟩ := h
      exact .inr ⟨rfl, next, rest', rfl, rfl⟩
  | c :: c' :: more =>
    simp only [List.cons_append, List.cons.injEq] at h
    obtain ⟨rfl, rfl, rfl⟩ := h
    exact .inl ⟨more, rfl, rfl⟩

/-! ## Borders -/

/-- Neither the end nor the start at the border is open. -/
def ClearBorder (a b : List Char) : Prop :=
  ¬ EndsOpen a ∧ ¬ StartsOpen b

/-- At the border an open end meets an open start, or neither is open. -/
def EvenBorder (a b : List Char) : Prop :=
  EndsOpen a ↔ StartsOpen b

instance (a b : List Char) : Decidable (ClearBorder a b) :=
  inferInstanceAs (Decidable (_ ∧ _))

instance (a b : List Char) : Decidable (EvenBorder a b) :=
  inferInstanceAs (Decidable (_ ↔ _))

/-- The pieces can be told from the text in which they are put together, by one who knows how many
they are. -/
def Legible (pieces : List (List Char)) : Prop :=
  pieces.IsChain ClearBorder ∨ pieces.IsChain EvenBorder ∧ ['-'] ∉ pieces.tail.dropLast

instance (pieces : List (List Char)) : Decidable (Legible pieces) :=
  inferInstanceAs (Decidable (_ ∨ _))

/-! ## Clear borders

Two lists of pieces are read side by side.  As long as the pieces are the same the two are level.
Where the pieces differ, one of the lists is ahead of the other by a hyphen and a blank. -/

/-- Pieces with clear borders. -/
structure IsClear (f : List Char) (fs : List (List Char)) : Prop where
  free : ∀ piece ∈ f :: fs, SeparatorFree piece
  clear : (f :: fs).IsChain ClearBorder

theorem IsClear.tail {f next : List Char} {fs : List (List Char)} (h : IsClear f (next :: fs)) :
    IsClear next fs where
  free := (List.forall_mem_cons.1 h.free).2
  clear := (List.isChain_cons_cons.1 h.clear).2

mutual
/-- Level: other pieces that give the same text are fewer. -/
theorem length_lt_or_eq_of_clear {f g : List Char} {fs gs : List (List Char)}
    (hf : IsClear f fs) (hg : ∀ piece ∈ g :: gs, SeparatorFree piece)
    (h : f ++ joinPieces fs = g ++ joinPieces gs) : gs.length < fs.length ∨ f = g ∧ fs = gs := by
  obtain ⟨hg₁, hgs⟩ := List.forall_mem_cons.1 hg
  rcases append_joinPieces_cases (hf.free f List.mem_cons_self) hg₁ h with
    ⟨rfl, hjoin⟩ | ⟨-, f', fs', g', gs', rfl, rfl, hbehind⟩ | ⟨hopen, g', gs', f', fs', rfl, rfl, -⟩
  · rcases joinPieces_eq_cases hjoin with ⟨rfl, rfl⟩ | ⟨f', fs', g', gs', rfl, rfl, hrest⟩
    · exact .inr ⟨rfl, rfl⟩
    · rcases length_lt_or_eq_of_clear hf.tail hgs hrest with hlt | ⟨rfl, rfl⟩
      · exact .inl (Nat.succ_lt_succ hlt)
      · exact .inr ⟨rfl, rfl⟩
  · rcases append_joinPieces_eq_hyphen hbehind with ⟨more, rfl, -⟩ | ⟨rfl, f'', fs', rfl, hrest⟩
    · exact absurd ⟨more, rfl⟩ (List.isChain_cons_cons.1 hf.clear).1.2
    · have hborder := (List.isChain_cons_cons.1 hf.tail.clear).1
      have hle := length_le_of_clear hf.tail.tail hgs hborder.2 hrest.symm
      simp only [List.length_cons]
      omega
  · exact absurd ⟨g, hopen.symm⟩ (List.isChain_cons_cons.1 hf.clear).1.1
termination_by (fs.length, 0)

/-- The pieces with clear borders are ahead. -/
theorem length_le_of_clear {f g : List Char} {fs gs : List (List Char)}
    (hf : IsClear f fs) (hg : ∀ piece ∈ g :: gs, SeparatorFree piece)
    (hstart : ¬ StartsOpen f) (h : g ++ joinPieces gs = '-' :: ' ' :: (f ++ joinPieces fs)) :
    gs.length ≤ fs.length := by
  obtain ⟨hg₁, hgs⟩ := List.forall_mem_cons.1 hg
  rcases append_joinPieces_eq_hyphen h with ⟨more, rfl, hrest⟩ | ⟨rfl, g', gs', rfl, hbehind⟩
  · have hmore := (separatorFree_cons_cons.1 hg₁).1
    rcases length_lt_or_eq_of_clear hf (List.forall_mem_cons.2 ⟨hmore, hgs⟩) hrest.symm with
      hlt | ⟨-, rfl⟩
    · exact hlt.le
    · exact le_rfl
  · rcases append_joinPieces_eq_hyphen hbehind.symm with
      ⟨more, rfl, -⟩ | ⟨rfl, f', fs', rfl, hrest⟩
    · exact absurd ⟨more, rfl⟩ hstart
    · have hborder := (List.isChain_cons_cons.1 hf.clear).1
      exact Nat.succ_le_succ (length_le_of_clear hf.tail hgs hborder.2 hrest.symm)
termination_by (fs.length, 1)
end

/-! ## Even borders -/

/-- Pieces of which open ends meet open starts, and no piece between two others is a hyphen. -/
structure IsEven (f : List Char) (fs : List (List Char)) : Prop where
  free : ∀ piece ∈ f :: fs, SeparatorFree piece
  even : (f :: fs).IsChain EvenBorder
  no_hyphen : ['-'] ∉ fs.dropLast

section

variable {f next : List Char} {fs : List (List Char)}

theorem IsEven.tail (h : IsEven f (next :: fs)) : IsEven next fs where
  free := (List.forall_mem_cons.1 h.free).2
  even := (List.isChain_cons_cons.1 h.even).2
  no_hyphen hmem := h.no_hyphen (by cases fs <;> simp_all)

theorem IsEven.startsOpen (h : IsEven f (next :: fs)) (hf : EndsOpen f) : StartsOpen next :=
  (List.isChain_cons_cons.1 h.even).1.1 hf

end

mutual
/-- Level: other pieces that give the same text are more. -/
theorem length_lt_or_eq_of_even {f g : List Char} {fs gs : List (List Char)}
    (hf : IsEven f fs) (hg : ∀ piece ∈ g :: gs, SeparatorFree piece)
    (h : f ++ joinPieces fs = g ++ joinPieces gs) : fs.length < gs.length ∨ f = g ∧ fs = gs := by
  obtain ⟨hg₁, hgs⟩ := List.forall_mem_cons.1 hg
  rcases append_joinPieces_cases (hf.free f List.mem_cons_self) hg₁ h with
    ⟨rfl, hjoin⟩ | ⟨rfl, f', fs', g', gs', rfl, rfl, hbehind⟩ |
    ⟨rfl, g', gs', f', fs', rfl, rfl, hbehind⟩
  · rcases joinPieces_eq_cases hjoin with ⟨rfl, rfl⟩ | ⟨f', fs', g', gs', rfl, rfl, hrest⟩
    · exact .inr ⟨rfl, rfl⟩
    · rcases length_lt_or_eq_of_even hf.tail hgs hrest with hlt | ⟨rfl, rfl⟩
      · exact .inl (Nat.succ_lt_succ hlt)
      · exact .inr ⟨rfl, rfl⟩
  · have hend := (separatorFree_append.1 hg₁).2
    rcases append_joinPieces_eq_hyphen hbehind with ⟨more, rfl, -⟩ | ⟨rfl, f'', fs', rfl, -⟩
    · exact absurd ((List.isChain_cons_cons.1 hf.even).1.2 ⟨more, rfl⟩) hend
    · exact absurd List.mem_cons_self hf.no_hyphen
  · have hlt := length_lt_of_even hf.tail hgs (hf.startsOpen ⟨g, rfl⟩) hbehind
    exact .inl (Nat.succ_lt_succ hlt)
termination_by (fs.length, 0)

/-- The pieces with even borders are ahead. -/
theorem length_lt_of_even {f g : List Char} {fs gs : List (List Char)}
    (hf : IsEven f fs) (hg : ∀ piece ∈ g :: gs, SeparatorFree piece)
    (hstart : StartsOpen f) (h : g ++ joinPieces gs = '-' :: ' ' :: (f ++ joinPieces fs)) :
    fs.length < gs.length := by
  obtain ⟨more, rfl⟩ := hstart
  obtain ⟨hg₁, hgs⟩ := List.forall_mem_cons.1 hg
  have hmore : ¬ StartsOpen more := (separatorFree_cons_cons.1 (hf.free _ List.mem_cons_self)).2
  rcases append_joinPieces_eq_hyphen h with ⟨d, rfl, hrest⟩ | ⟨rfl, g', gs', rfl, hbehind⟩
  · -- Both pieces are two hyphens with a blank between them, and nothing has changed behind them.
    rcases append_joinPieces_eq_hyphen hrest with ⟨d', rfl, -⟩ | ⟨rfl, g', gs', rfl, hbehind⟩
    · exact absurd ⟨d', rfl⟩ (separatorFree_cons_cons.1 hg₁).2
    · rcases append_joinPieces_eq_hyphen hbehind.symm with
        ⟨c, rfl, -⟩ | ⟨rfl, f', fs', rfl, hlast⟩
      · exact absurd ⟨c, rfl⟩ hmore
      · have hlt := length_lt_of_even hf.tail hgs (hf.startsOpen ⟨['-'], rfl⟩) hlast.symm
        exact Nat.succ_lt_succ hlt
  · have hrest : more ++ joinPieces fs = g' ++ joinPieces gs' := by simpa using hbehind.symm
    exact Nat.lt_succ_of_le (length_le_of_even hf hgs hrest)
termination_by (fs.length, 2)

/-- Level again, one piece later and behind an open start. -/
theorem length_le_of_even {more g : List Char} {fs gs : List (List Char)}
    (hf : IsEven ('-' :: ' ' :: more) fs) (hg : ∀ piece ∈ g :: gs, SeparatorFree piece)
    (h : more ++ joinPieces fs = g ++ joinPieces gs) : fs.length ≤ gs.length := by
  obtain ⟨hg₁, hgs⟩ := List.forall_mem_cons.1 hg
  have hmore := (separatorFree_cons_cons.1 (hf.free _ List.mem_cons_self)).1
  rcases append_joinPieces_cases hmore hg₁ h with
    ⟨rfl, hjoin⟩ | ⟨rfl, f', fs', g', gs', rfl, rfl, hbehind⟩ |
    ⟨rfl, g', gs', f', fs', rfl, rfl, hbehind⟩
  · rcases joinPieces_eq_cases hjoin with ⟨rfl, rfl⟩ | ⟨f', fs', g', gs', rfl, rfl, hrest⟩
    · exact le_rfl
    · rcases length_lt_or_eq_of_even hf.tail hgs hrest with hlt | ⟨-, rfl⟩
      · exact (Nat.succ_lt_succ hlt).le
      · exact le_rfl
  · rcases append_joinPieces_eq_hyphen hbehind with ⟨c, rfl, hrest⟩ | ⟨rfl, f'', fs', rfl, -⟩
    · exact Nat.succ_le_succ (length_le_of_even hf.tail hgs hrest)
    · exact absurd List.mem_cons_self hf.no_hyphen
  · have hopen : EndsOpen ('-' :: ' ' :: (g ++ [' ', '-'])) := ⟨'-' :: ' ' :: g, rfl⟩
    exact (Nat.succ_lt_succ (length_lt_of_even hf.tail hgs (hf.startsOpen hopen) hbehind)).le
termination_by (fs.length, 1)
end

/-! ## Other pieces with the same text -/

/-- Other pieces, equally many, give the same text. -/
def Ambiguous (pieces : List (List Char)) : Prop :=
  ∃ others, (∀ piece ∈ others, SeparatorFree piece) ∧ others.length = pieces.length ∧
    joinPieces others = joinPieces pieces ∧ others ≠ pieces

section

variable {a b : List Char} {front back : List (List Char)}

/-- It is enough to know other pieces from some place on. -/
theorem ambiguous_of_append (other : List Char) (rest : List (List Char))
    (hfront : ∀ piece ∈ front, SeparatorFree piece)
    (hother : ∀ piece ∈ other :: rest, SeparatorFree piece) (hlength : rest.length = back.length)
    (hjoin : other ++ joinPieces rest = a ++ joinPieces back) (hne : other ≠ a) :
    Ambiguous (front ++ a :: back) := by
  refine ⟨front ++ other :: rest, List.forall_mem_append.2 ⟨hfront, hother⟩, ?_, ?_, ?_⟩
  · simp [hlength]
  · rw [joinPieces_append, joinPieces_append, joinPieces_cons, joinPieces_cons, hjoin]
  · simp [hne]

/-- An open end can be given to the next piece. -/
theorem ambiguous_of_endsOpen (hfree : ∀ piece ∈ front ++ a :: b :: back, SeparatorFree piece)
    (ha : EndsOpen a) (hb : ¬ StartsOpen b) : Ambiguous (front ++ a :: b :: back) := by
  obtain ⟨c, rfl⟩ := ha
  simp only [List.forall_mem_append, List.forall_mem_cons] at hfree
  obtain ⟨hfront, hfa, hfb, hback⟩ := hfree
  refine ambiguous_of_append _ _ hfront
    (List.forall_mem_cons.2 ⟨(separatorFree_append.1 hfa).1,
      List.forall_mem_cons.2 ⟨separatorFree_cons_cons.2 ⟨hfb, hb⟩, hback⟩⟩) rfl ?_ (by simp)
  simp [joinPieces_cons, toList_separator]

/-- An open start can be given to the piece in front. -/
theorem ambiguous_of_startsOpen (hfree : ∀ piece ∈ front ++ a :: b :: back, SeparatorFree piece)
    (ha : ¬ EndsOpen a) (hb : StartsOpen b) : Ambiguous (front ++ a :: b :: back) := by
  obtain ⟨c, rfl⟩ := hb
  simp only [List.forall_mem_append, List.forall_mem_cons] at hfree
  obtain ⟨hfront, hfa, hfb, hback⟩ := hfree
  refine ambiguous_of_append _ _ hfront
    (List.forall_mem_cons.2 ⟨separatorFree_append.2 ⟨hfa, ha⟩,
      List.forall_mem_cons.2 ⟨(separatorFree_cons_cons.1 hfb).1, hback⟩⟩) rfl ?_ (by simp)
  simp [joinPieces_cons, toList_separator]

variable {x y c d : List Char} {left middle right : List (List Char)}

/-- Where an open end meets an open start, a hyphen can come out between them, and one further on
that is a piece of its own can go into its neighbours. -/
theorem ambiguous_of_hyphen_behind
    (hfree : ∀ piece ∈ front ++ (c ++ [' ', '-']) :: ('-' :: ' ' :: d) :: back, SeparatorFree piece)
    (hx : ¬ EndsOpen x) (hy : ¬ StartsOpen y)
    (h : ('-' :: ' ' :: d) :: back = middle ++ x :: ['-'] :: y :: right) :
    Ambiguous (front ++ (c ++ [' ', '-']) :: ('-' :: ' ' :: d) :: back) := by
  have hhyphen : SeparatorFree ['-'] := by decide
  cases middle with
  | nil =>
    -- The open start is the start of the piece in front of the hyphen.
    simp only [List.nil_append, List.cons.injEq] at h
    obtain ⟨rfl, rfl⟩ := h
    simp only [List.forall_mem_append, List.forall_mem_cons] at hfree
    obtain ⟨hfront, hfa, hfb, -, hfy, hright⟩ := hfree
    have hd := (separatorFree_cons_cons.1 (separatorFree_append.2 ⟨hfb, hx⟩)).1
    refine ambiguous_of_append c (['-'] :: (d ++ [' ', '-']) :: ('-' :: ' ' :: y) :: right)
      hfront ?_ rfl ?_ (by simp)
    · simp only [List.forall_mem_cons]
      exact ⟨(separatorFree_append.1 hfa).1, hhyphen, hd, separatorFree_cons_cons.2 ⟨hfy, hy⟩,
        hright⟩
    · simp [joinPieces_cons, toList_separator]
  | cons m middle =>
    simp only [List.cons_append, List.cons.injEq] at h
    obtain ⟨rfl, rfl⟩ := h
    simp only [List.forall_mem_append, List.forall_mem_cons] at hfree
    obtain ⟨hfront, hfa, hfb, hmiddle, hfx, -, hfy, hright⟩ := hfree
    refine ambiguous_of_append c
      (['-'] :: d :: middle ++ (x ++ [' ', '-']) :: ('-' :: ' ' :: y) :: right) hfront ?_
      (by simp; omega) ?_ (by simp)
    · simp only [List.cons_append, List.forall_mem_append, List.forall_mem_cons]
      exact ⟨(separatorFree_append.1 hfa).1, hhyphen, (separatorFree_cons_cons.1 hfb).1, hmiddle,
        separatorFree_append.2 ⟨hfx, hx⟩, separatorFree_cons_cons.2 ⟨hfy, hy⟩, hright⟩
    · simp [joinPieces_cons, toList_separator]

/-- A hyphen that is a piece of its own can go into its neighbours, and one can come out further on
where an open end meets an open start. -/
theorem ambiguous_of_hyphen_before
    (hfree : ∀ piece ∈ left ++ x :: ['-'] :: y :: right, SeparatorFree piece)
    (hx : ¬ EndsOpen x) (hy : ¬ StartsOpen y)
    (h : y :: right = middle ++ (c ++ [' ', '-']) :: ('-' :: ' ' :: d) :: back) :
    Ambiguous (left ++ x :: ['-'] :: y :: right) := by
  have hhyphen : SeparatorFree ['-'] := by decide
  cases middle with
  | nil =>
    -- The open end is the end of the piece behind the hyphen.
    simp only [List.nil_append, List.cons.injEq] at h
    obtain ⟨rfl, rfl⟩ := h
    simp only [List.forall_mem_append, List.forall_mem_cons] at hfree
    obtain ⟨hleft, hfx, -, hfy, hfb, hback⟩ := hfree
    have hc := (separatorFree_cons_cons.2 ⟨hfy, hy⟩).mono (a := '-' :: ' ' :: c)
      (List.prefix_append _ [' ', '-']).isInfix
    refine ambiguous_of_append (x ++ [' ', '-']) (('-' :: ' ' :: c) :: ['-'] :: d :: back)
      hleft ?_ rfl ?_ (by simp)
    · simp only [List.forall_mem_cons]
      exact ⟨separatorFree_append.2 ⟨hfx, hx⟩, hc, hhyphen, (separatorFree_cons_cons.1 hfb).1,
        hback⟩
    · simp [joinPieces_cons, toList_separator]
  | cons m middle =>
    simp only [List.cons_append, List.cons.injEq] at h
    obtain ⟨rfl, rfl⟩ := h
    simp only [List.forall_mem_append, List.forall_mem_cons] at hfree
    obtain ⟨hleft, hfx, -, hfy, hmiddle, hfa, hfb, hback⟩ := hfree
    refine ambiguous_of_append (x ++ [' ', '-'])
      (('-' :: ' ' :: y) :: middle ++ c :: ['-'] :: d :: back) hleft ?_ (by simp; omega) ?_
      (by simp)
    · simp only [List.cons_append, List.forall_mem_append, List.forall_mem_cons]
      exact ⟨separatorFree_append.2 ⟨hfx, hx⟩, separatorFree_cons_cons.2 ⟨hfy, hy⟩, hmiddle,
        (separatorFree_append.1 hfa).1, hhyphen, (separatorFree_cons_cons.1 hfb).1, hback⟩
    · simp [joinPieces_cons, toList_separator]

/-- A hyphen that is a piece of its own and an open border cannot both be told. -/
theorem ambiguous_of_hyphen (hfree : ∀ piece ∈ front ++ a :: b :: back, SeparatorFree piece)
    (ha : EndsOpen a) (hb : StartsOpen b) (hx : ¬ EndsOpen x) (hy : ¬ StartsOpen y)
    (h : front ++ a :: b :: back = left ++ x :: ['-'] :: y :: right) :
    Ambiguous (front ++ a :: b :: back) := by
  obtain ⟨c, rfl⟩ := ha
  obtain ⟨d, rfl⟩ := hb
  rcases List.append_eq_append_iff.1 h with ⟨more, rfl, hmore⟩ | ⟨more, rfl, hmore⟩
  · rcases more with _ | ⟨m, middle⟩
    · simp at hmore
    · exact ambiguous_of_hyphen_behind hfree hx hy (List.cons.inj hmore).2
  · rcases more with _ | ⟨m, _ | ⟨m', middle⟩⟩
    · simp at hmore
    · simp only [List.cons_append, List.nil_append, List.cons.injEq] at hmore
      obtain ⟨-, hc, -⟩ := hmore
      simpa using congrArg List.length hc
    · rw [h] at hfree ⊢
      exact ambiguous_of_hyphen_before hfree hx hy
        (List.cons.inj (List.cons.inj hmore).2).2

end

/-! ## Pieces that can be told -/

section

variable {pieces : List (List Char)}

theorem isChain_even_of_not_ambiguous (hfree : ∀ piece ∈ pieces, SeparatorFree piece)
    (h : ¬ Ambiguous pieces) : pieces.IsChain EvenBorder := by
  refine List.isChain_iff_forall_rel_of_append_cons_cons.2 fun a b front back hsplit => ?_
  subst hsplit
  by_contra hodd
  by_cases ha : EndsOpen a
  · exact h (ambiguous_of_endsOpen hfree ha fun hb => hodd (iff_of_true ha hb))
  · have hb : StartsOpen b := by_contra fun hb => hodd (iff_of_false ha hb)
    exact h (ambiguous_of_startsOpen hfree ha hb)

/-- An inner piece stands between two others. -/
theorem exists_between_of_mem {piece : List Char} (h : piece ∈ pieces.tail.dropLast) :
    ∃ left x y right, pieces = left ++ x :: piece :: y :: right := by
  obtain ⟨left, right, hinner⟩ := List.append_of_mem h
  rcases pieces with _ | ⟨first, rest⟩
  · exact absurd h (by simp)
  rcases List.eq_nil_or_concat rest with rfl | ⟨inner, last, rfl⟩
  · exact absurd h (by simp)
  rw [List.tail_cons, List.concat_eq_append, List.dropLast_concat] at hinner
  obtain ⟨left', x, hleft⟩ : ∃ left' x, first :: left = left' ++ [x] := by
    simpa using List.eq_nil_or_concat (first :: left)
  obtain ⟨y, right', hright⟩ : ∃ y right', right ++ [last] = y :: right' := by
    cases right <;> simp
  refine ⟨left', x, y, right', ?_⟩
  calc first :: inner.concat last
      = (first :: left) ++ piece :: (right ++ [last]) := by simp [hinner]
    _ = left' ++ x :: piece :: y :: right' := by simp [hleft, hright]

/-- The pieces are read off the text if and only if they are legible. -/
theorem legible_iff (hfree : ∀ piece ∈ pieces, SeparatorFree piece) :
    Legible pieces ↔ ¬ Ambiguous pieces := by
  constructor
  · rintro hlegible ⟨others, hothers, hlength, hjoin, hne⟩
    rcases joinPieces_eq_cases hjoin with ⟨rfl, rfl⟩ | ⟨g, gs, f, fs, rfl, rfl, hrest⟩
    · exact hne rfl
    · have hlength' : gs.length = fs.length := Nat.succ_injective hlength
      rcases hlegible with hclear | ⟨heven, hhyphen⟩
      · rcases length_lt_or_eq_of_clear ⟨hfree, hclear⟩ hothers hrest.symm with
          hlt | ⟨rfl, rfl⟩
        · exact absurd hlength' hlt.ne
        · exact hne rfl
      · rcases length_lt_or_eq_of_even ⟨hfree, heven, hhyphen⟩ hothers hrest.symm with
          hlt | ⟨rfl, rfl⟩
        · exact absurd hlength' hlt.ne'
        · exact hne rfl
  · intro hnot
    have heven := isChain_even_of_not_ambiguous hfree hnot
    by_cases hmem : ['-'] ∈ pieces.tail.dropLast
    · -- The hyphen's own neighbours are not open towards it, and an open border anywhere else
      -- would take its place.
      obtain ⟨left, x, y, right, hsplit⟩ := exists_between_of_mem hmem
      refine .inl ?_
      refine List.isChain_iff_forall_rel_of_append_cons_cons.2 fun a b front back hpieces => ?_
      have hborders := List.isChain_iff_forall_rel_of_append_cons_cons.1 heven
      have hx : ¬ EndsOpen x := fun h => absurd ((hborders hsplit).1 h) (by decide)
      have hy : ¬ StartsOpen y := fun h =>
        absurd ((hborders (hsplit.trans (List.append_cons left x _))).2 h) (by decide)
      have hborder := hborders hpieces
      subst hpieces
      by_cases ha : EndsOpen a
      · exact absurd (ambiguous_of_hyphen hfree ha (hborder.1 ha) hx hy hsplit) hnot
      · exact ⟨ha, fun hb => ha (hborder.2 hb)⟩
    · exact .inr ⟨heven, hmem⟩

end

end TemplateDump.Text
