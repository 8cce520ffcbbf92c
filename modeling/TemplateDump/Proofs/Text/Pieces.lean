import TemplateDump.Text.Escape

/-!
# Texts that can be taken apart

When a text was put together from parts, the parts can be found again if the border between two of
them shows.

* `append_inj_of_border` — a part whose members pass a test, in front of a member that fails it;
* `append_cons_inj_of_first`, `append_cons_inj_of_last` — two parts with something between them that
  the first does not hold, or the second;
* `ended_inj` — parts with an end that none of them holds, such as lines (`lines_inj`);
* `append_joinPieces_cases` — where two texts of pieces with the separator in front of each are the
  same, their first pieces are, or one of the two takes in the start of a separator of the other;
* `joinPieces_inj` — the pieces are found again if none holds the separator or ends in a blank and a
  hyphen, which would be a separator with the blank of the next one.
-/

namespace TemplateDump.Text

/-! ## A border between two parts -/

section Border

variable {α : Type} {p : α → Bool} {l l' r r' : List α}

theorem takeWhile_append_of_border (hl : ∀ a ∈ l, p a = true) (hr : ∀ a ∈ r.head?, p a = false) :
    (l ++ r).takeWhile p = l := by
  rw [List.takeWhile_append_of_pos hl]
  cases r with
  | nil => rw [List.takeWhile_nil, List.append_nil]
  | cons a rest =>
    rw [List.takeWhile_cons_of_neg (by rw [hr a rfl]; exact Bool.false_ne_true), List.append_nil]

/-- Two parts are found again if the test that the first passes is failed where the second
starts. -/
theorem append_inj_of_border (hl : ∀ a ∈ l, p a = true) (hl' : ∀ a ∈ l', p a = true)
    (hr : ∀ a ∈ r.head?, p a = false) (hr' : ∀ a ∈ r'.head?, p a = false)
    (h : l ++ r = l' ++ r') : l = l' ∧ r = r' := by
  have hfirst : l = l' := by
    rw [← takeWhile_append_of_border hl hr, h, takeWhile_append_of_border hl' hr']
  subst hfirst
  exact ⟨rfl, List.append_cancel_left h⟩

variable [DecidableEq α] {c : α}

/-- Two parts are found again at the first place of what stands between them. -/
theorem append_cons_inj_of_first (hl : c ∉ l) (hl' : c ∉ l') (h : l ++ c :: r = l' ++ c :: r') :
    l = l' ∧ r = r' := by
  have hkeep : ∀ {m : List α}, c ∉ m → ∀ a ∈ m, (a != c) = true :=
    fun hm a ha => bne_iff_ne.2 fun e => hm (e ▸ ha)
  have hend : ∀ m : List α, ∀ a ∈ (c :: m).head?, (a != c) = false := by
    rintro m a ⟨⟩
    exact bne_self_eq_false c
  obtain ⟨hfirst, hsecond⟩ := append_inj_of_border (hkeep hl) (hkeep hl') (hend r) (hend r') h
  exact ⟨hfirst, (List.cons.inj hsecond).2⟩

/-- Two parts are found again at the last place of what stands between them. -/
theorem append_cons_inj_of_last (hr : c ∉ r) (hr' : c ∉ r') (h : l ++ c :: r = l' ++ c :: r') :
    l = l' ∧ r = r' := by
  have hreverse : r.reverse ++ c :: l.reverse = r'.reverse ++ c :: l'.reverse := by
    simpa using congrArg List.reverse h
  obtain ⟨hsecond, hfirst⟩ := append_cons_inj_of_first (mt List.mem_reverse.1 hr)
    (mt List.mem_reverse.1 hr') hreverse
  exact ⟨List.reverse_inj.1 hfirst, List.reverse_inj.1 hsecond⟩

end Border

/-! ## Parts with an end -/

section Ends

variable {stop : Char} {first second : List (List Char)}

/-- Parts that do not hold their end, each with its end, are found again. -/
theorem ended_inj (hfirst : ∀ part ∈ first, stop ∉ part) (hsecond : ∀ part ∈ second, stop ∉ part)
    (h : first.flatMap (· ++ [stop]) = second.flatMap (· ++ [stop])) : first = second := by
  induction first generalizing second with
  | nil =>
    cases second with
    | nil => rfl
    | cons part rest => simp at h
  | cons part rest ih =>
    cases second with
    | nil => simp at h
    | cons part' rest' =>
      simp only [List.flatMap_cons, List.append_assoc, List.singleton_append] at h
      obtain ⟨hpart, hrest⟩ := List.forall_mem_cons.1 hfirst
      obtain ⟨hpart', hrest'⟩ := List.forall_mem_cons.1 hsecond
      obtain ⟨rfl, hbehind⟩ := append_cons_inj_of_first hpart hpart' h
      rw [ih hrest hrest' hbehind]

/-- Lines without line feeds, each with its end, are found again. -/
theorem lines_inj (hfirst : ∀ line ∈ first, '\n' ∉ line) (hsecond : ∀ line ∈ second, '\n' ∉ line)
    (h : first.flatMap (· ++ ['\n']) = second.flatMap (· ++ ['\n'])) : first = second :=
  ended_inj hfirst hsecond h

end Ends

/-- Parts with a character in front of each are the parts with the character between any two, behind
the first of these characters. -/
theorem flatMap_cons_eq_cons_intercalate (c : Char) {parts : List (List Char)} (h : parts ≠ []) :
    parts.flatMap (c :: ·) = c :: [c].intercalate parts := by
  obtain ⟨part, rest, rfl⟩ := List.exists_cons_of_ne_nil h
  clear h
  induction rest generalizing part with
  | nil => simp
  | cons next more ih =>
    rw [List.flatMap_cons, ih next, List.intercalate_cons_cons]
    simp

/-! ## Pieces between separators -/

/-- A text that can stand between separators: no separator starts in it, not even with the help of
the one behind it. -/
structure IsPiece (piece : List Char) : Prop where
  not_infix : ¬ separator.toList <:+: piece
  not_suffix : ¬ [' ', '-'] <:+ piece

/-- Pieces with the separator in front of each. -/
def joinPieces (pieces : List (List Char)) : List Char :=
  pieces.flatMap (separator.toList ++ ·)

@[simp] theorem joinPieces_nil : joinPieces [] = [] := rfl

theorem joinPieces_cons (piece : List Char) (rest : List (List Char)) :
    joinPieces (piece :: rest) = separator.toList ++ (piece ++ joinPieces rest) := by
  rw [joinPieces, List.flatMap_cons, List.append_assoc, joinPieces]

@[simp] theorem joinPieces_append (first second : List (List Char)) :
    joinPieces (first ++ second) = joinPieces first ++ joinPieces second :=
  List.flatMap_append

/-- Pieces start with the blank of the first separator. -/
theorem eq_blank_of_mem_head?_joinPieces {pieces : List (List Char)} {c : Char}
    (h : c ∈ (joinPieces pieces).head?) : c = ' ' := by
  cases pieces with
  | nil => exact absurd h (by simp)
  | cons piece rest =>
    rw [joinPieces_cons, toList_separator] at h
    cases h
    rfl

/-- What is not of the separator is of one of the pieces. -/
theorem mem_joinPieces {pieces : List (List Char)} {c : Char} (hc : c ∉ separator.toList) :
    c ∈ joinPieces pieces ↔ ∃ piece ∈ pieces, c ∈ piece := by
  simp [joinPieces, hc]

/-! ### The first piece -/

/-- No pieces, or a separator with pieces behind it. -/
theorem joinPieces_eq_cases {first second : List (List Char)}
    (h : joinPieces first = joinPieces second) :
    first = [] ∧ second = [] ∨ ∃ a rest b rest', first = a :: rest ∧ second = b :: rest' ∧
      a ++ joinPieces rest = b ++ joinPieces rest' := by
  cases first with
  | nil =>
    cases second with
    | nil => exact .inl ⟨rfl, rfl⟩
    | cons b rest' => simp [joinPieces_cons, toList_separator] at h
  | cons a rest =>
    cases second with
    | nil => simp [joinPieces_cons, toList_separator] at h
    | cons b rest' =>
      rw [joinPieces_cons, joinPieces_cons] at h
      exact .inr ⟨a, rest, b, rest', rfl, rfl, List.append_cancel_left h⟩

/-- The second piece is the first one with the blank and the hyphen of the separator behind that;
the blank that is left of the separator is the first of the one behind the second piece. -/
structure TakesHyphen (a : List Char) (first : List (List Char)) (b : List Char)
    (second : List (List Char)) : Prop where
  eq_append : b = a ++ [' ', '-']
  behind : ∃ c rest d rest', first = c :: rest ∧ second = d :: rest' ∧
    c ++ joinPieces rest = '-' :: ' ' :: (d ++ joinPieces rest')

theorem takesHyphen_of_append {a more : List Char} {first second : List (List Char)}
    (hpiece : ¬ separator.toList <:+: a ++ more) (hmore : more ≠ [])
    (h : joinPieces first = more ++ joinPieces second) :
    TakesHyphen a first (a ++ more) second := by
  cases first with
  | nil => exact absurd h (by simp [hmore])
  | cons c rest =>
    rw [joinPieces_cons, toList_separator] at h
    match more with
    | [] => exact absurd rfl hmore
    | [x] => cases second <;> simp [joinPieces_cons, toList_separator] at h
    | [x, y] =>
      cases second with
      | nil => simp at h
      | cons d rest' =>
        simp only [joinPieces_cons, toList_separator, List.cons_append, List.nil_append,
          List.cons.injEq, true_and] at h
        obtain ⟨rfl, rfl, h⟩ := h
        exact ⟨rfl, c, rest, d, rest', rfl, rfl, h⟩
    | x :: y :: z :: rest' =>
      simp only [List.cons_append, List.nil_append, List.cons.injEq] at h
      obtain ⟨rfl, rfl, rfl, -⟩ := h
      exact absurd ⟨a, rest', by simp [toList_separator]⟩ hpiece

/-- Pieces at the start of the same text are the same, or one of them goes on past the other. -/
theorem append_joinPieces_cases {a b : List Char} {first second : List (List Char)}
    (ha : ¬ separator.toList <:+: a) (hb : ¬ separator.toList <:+: b)
    (h : a ++ joinPieces first = b ++ joinPieces second) :
    (a = b ∧ joinPieces first = joinPieces second) ∨ TakesHyphen a first b second ∨
      TakesHyphen b second a first := by
  rcases List.append_eq_append_iff.1 h with ⟨more, rfl, hmore⟩ | ⟨more, rfl, hmore⟩
  · by_cases hnil : more = []
    · subst hnil
      exact .inl ⟨(List.append_nil a).symm, hmore⟩
    · exact .inr (.inl (takesHyphen_of_append hb hnil hmore))
  · by_cases hnil : more = []
    · subst hnil
      exact .inl ⟨List.append_nil b, hmore.symm⟩
    · exact .inr (.inr (takesHyphen_of_append ha hnil hmore))

theorem IsPiece.not_takesHyphen {a b : List Char} {first second : List (List Char)}
    (hb : IsPiece b) : ¬ TakesHyphen a first b second :=
  fun h => hb.not_suffix ⟨a, h.eq_append.symm⟩

/-- Pieces are found again from the text in which they are put together. -/
theorem joinPieces_inj {first second : List (List Char)} (hfirst : ∀ piece ∈ first, IsPiece piece)
    (hsecond : ∀ piece ∈ second, IsPiece piece) (h : joinPieces first = joinPieces second) :
    first = second := by
  induction first generalizing second with
  | nil =>
    rcases joinPieces_eq_cases h with ⟨-, rfl⟩ | ⟨a, rest, b, rest', hcons, -, -⟩
    · rfl
    · exact absurd hcons (by simp)
  | cons a rest ih =>
    rcases joinPieces_eq_cases h with ⟨hnil, -⟩ | ⟨_, _, b, rest', hcons, rfl, hpieces⟩
    · exact absurd hnil (by simp)
    · cases hcons
      obtain ⟨ha, hrest⟩ := List.forall_mem_cons.1 hfirst
      obtain ⟨hb, hrest'⟩ := List.forall_mem_cons.1 hsecond
      rcases append_joinPieces_cases ha.not_infix hb.not_infix hpieces with
        ⟨rfl, hjoin⟩ | htakes | htakes
      · rw [ih hrest hrest' hjoin]
      · exact absurd htakes hb.not_takesHyphen
      · exact absurd htakes ha.not_takesHyphen

end TemplateDump.Text
