import TemplateDump.Proofs.Text.Pieces
import TemplateDump.Proofs.Text.Replace
import TemplateDump.Text.Placeholder

/-!
# Reasoning about placeholders

A pass over the placeholders of a text meets one or keeps a character, and goes on behind it:
`mapPlaceholders_braced` and `mapPlaceholders_cons_of_not` are the two cases, and
`placeholder_induction` is the induction along them.  Where each placeholder becomes a question mark
none is left, and none comes about (`not_hasPlaceholder_mapPlaceholders`); a text without placeholders
is left as it is (`mapPlaceholders_eq_self_iff`).

A text may be put together from pieces some of which are still placeholders.  Up to the first of
these it starts like the finished text, so that a pass does nothing there unless the finished text
has a placeholder itself (`StartsAlike.replaceAll_append`, `StartsAlike.mapPlaceholders_append`).
-/

namespace TemplateDump.Text

/-! ## Placeholders in a text -/

/-- Digits, and at least one. -/
def IsNumber (digits : List Char) : Prop :=
  digits ≠ [] ∧ ∀ c ∈ digits, c.isDigit = true

/-- A text in braces. -/
def braced (digits : List Char) : List Char :=
  '{' :: (digits ++ ['}'])

/-- A placeholder stands somewhere in the text. -/
def HasPlaceholder (text : List Char) : Prop :=
  ∃ digits, IsNumber digits ∧ braced digits <:+: text

theorem isNumber_natDigits (n : Nat) : IsNumber (natDigits n) :=
  ⟨natDigits_ne_nil n, fun _ => isDigit_of_mem_natDigits⟩

theorem placeholder_eq_braced (i : Nat) : placeholder i = braced (natDigits i) := rfl

variable {digits digits' text : List Char}

theorem braced_append (digits rest : List Char) :
    braced digits ++ rest = '{' :: (digits ++ '}' :: rest) := by
  rw [braced, List.cons_append, List.append_assoc, List.singleton_append]

theorem IsNumber.brace_not_mem (h : IsNumber digits) : '{' ∉ digits ++ ['}'] := by
  intro hmem
  rcases List.mem_append.1 hmem with hmem | hmem
  · exact absurd (h.2 _ hmem) (by decide)
  · exact absurd (List.mem_singleton.1 hmem) (by decide)

/-- The digits of a placeholder end where the closing brace is. -/
theorem IsNumber.eq_of_prefix_braced (h : IsNumber digits) (h' : IsNumber digits')
    {rest : List Char} (hstarts : braced digits <+: braced digits' ++ rest) :
    digits = digits' := by
  obtain ⟨behind, hbehind⟩ := hstarts
  rw [braced_append, braced_append] at hbehind
  refine (append_inj_of_border h.2 h'.2 ?_ ?_ (List.cons.inj hbehind).2).1
  · rintro c ⟨⟩
    decide
  · rintro c ⟨⟩
    decide

/-- A placeholder with another number is no occurrence. -/
theorem replaceAll_placeholder_of_ne {i j : Nat} (h : i ≠ j) (new rest : List Char) :
    replaceAll (placeholder i) new (placeholder j ++ rest) =
      placeholder j ++ replaceAll (placeholder i) new rest := by
  have hnot : ¬placeholder i <+: placeholder j ++ rest := fun hstarts =>
    h (natDigits_inj.1 ((isNumber_natDigits i).eq_of_prefix_braced (isNumber_natDigits j) hstarts))
  have hinside : '{' ∉ natDigits j ++ ['}'] := (isNumber_natDigits j).brace_not_mem
  rw [placeholder_eq_braced j, braced, List.cons_append] at hnot ⊢
  rw [replaceAll_cons_of_not hnot, List.cons_append]
  exact congrArg _ (replaceAll_append_of_not_mem hinside _ _ _)

theorem isNumber_and_prefix_of_placeholderDigits? (h : placeholderDigits? text = some digits) :
    IsNumber digits ∧ braced digits <+: text := by
  unfold placeholderDigits? at h
  split at h
  · next rest =>
    obtain ⟨⟨hne, hclosing⟩, hsome⟩ := Option.ite_none_right_eq_some.1 h
    have hdigits : rest.takeWhile Char.isDigit = digits := Option.some.inj hsome
    rw [hdigits] at hne hclosing
    refine ⟨⟨hne, fun c hc => List.all_eq_true.1 List.all_takeWhile c (hdigits ▸ hc)⟩, ?_⟩
    -- The closing brace is the first character that is no digit.
    have hsplit : digits ++ rest.dropWhile Char.isDigit = rest :=
      hdigits ▸ List.takeWhile_append_dropWhile
    rw [← hsplit, List.getElem?_append_right (Nat.le_refl _), Nat.sub_self,
      ← List.head?_eq_getElem?] at hclosing
    obtain ⟨behind, hbehind⟩ := List.head?_eq_some_iff.1 hclosing
    refine ⟨behind, ?_⟩
    rw [braced_append, ← hbehind, hsplit]
  · exact absurd h nofun

theorem placeholderDigits?_braced (h : IsNumber digits) (rest : List Char) :
    placeholderDigits? (braced digits ++ rest) = some digits := by
  have hdigits : (digits ++ '}' :: rest).takeWhile Char.isDigit = digits :=
    takeWhile_append_of_border h.2 (by rintro c ⟨⟩; decide)
  rw [braced_append, placeholderDigits?]
  simp only [hdigits]
  exact if_pos ⟨h.1, by simp⟩

/-! ## The cases of a pass -/

theorem mapPlaceholders_braced (f : List Char → List Char) (h : IsNumber digits)
    (rest : List Char) :
    mapPlaceholders f (braced digits ++ rest) = f digits ++ mapPlaceholders f rest := by
  have hdigits := placeholderDigits?_braced h rest
  rw [braced_append] at hdigits ⊢
  rw [mapPlaceholders, mapPlaceholdersFrom, hdigits]
  simp only [mapPlaceholdersFrom_eq_drop]
  rw [List.drop_append, List.drop_of_length_le (Nat.le_succ _), Nat.add_sub_cancel_left]
  rfl

theorem mapPlaceholders_cons_of_not (f : List Char → List Char) {c : Char} {rest : List Char}
    (h : ∀ digits, IsNumber digits → ¬braced digits <+: c :: rest) :
    mapPlaceholders f (c :: rest) = c :: mapPlaceholders f rest := by
  have hnone : placeholderDigits? (c :: rest) = none := by
    cases hdigits : placeholderDigits? (c :: rest) with
    | none => rfl
    | some digits =>
      obtain ⟨hnumber, hstarts⟩ := isNumber_and_prefix_of_placeholderDigits? hdigits
      exact absurd hstarts (h digits hnumber)
  rw [mapPlaceholders, mapPlaceholdersFrom, hnone]
  rfl

/-- Induction along a pass: at each place there is a placeholder, or a character that is kept. -/
theorem placeholder_induction {motive : List Char → Prop} (nil : motive [])
    (hole : ∀ digits rest, IsNumber digits → motive rest → motive (braced digits ++ rest))
    (other : ∀ c rest, (∀ digits, IsNumber digits → ¬braced digits <+: c :: rest) →
      motive rest → motive (c :: rest)) (text : List Char) : motive text := by
  induction hn : text.length using Nat.strongRecOn generalizing text with
  | ind n ih =>
    cases text with
    | nil => exact nil
    | cons c rest =>
      by_cases h : ∃ digits, IsNumber digits ∧ braced digits <+: c :: rest
      · obtain ⟨digits, hnumber, behind, hbehind⟩ := h
        have hlength : behind.length < n := by
          rw [← hn, ← hbehind, List.length_append, braced, List.length_cons]
          omega
        rw [← hbehind]
        exact hole digits behind hnumber (ih behind.length hlength behind rfl)
      · refine other c rest (fun digits hnumber hstarts => h ⟨digits, hnumber, hstarts⟩) ?_
        exact ih rest.length (by rw [← hn]; simp) rest rfl

/-! ## Question marks -/

theorem startsAlike_mapPlaceholders (text : List Char) :
    StartsAlike '?' (mapPlaceholders (fun _ => ['?']) text) text := by
  induction text using placeholder_induction with
  | nil => exact startsAlike_nil _ _
  | hole digits rest hnumber ih =>
    rw [mapPlaceholders_braced _ hnumber]
    exact startsAlike_stop _ _ _
  | other c rest hnot ih =>
    rw [mapPlaceholders_cons_of_not _ hnot]
    exact ih.cons c

/-- No placeholder is left, and none has come about. -/
theorem not_hasPlaceholder_mapPlaceholders (text : List Char) :
    ¬HasPlaceholder (mapPlaceholders (fun _ => ['?']) text) := by
  rintro ⟨digits, hnumber, hinfix⟩
  have hmark : '?' ∉ braced digits := by
    simp only [braced, List.mem_cons, List.mem_append, List.not_mem_nil, or_false]
    rintro (h | h | h)
    · exact absurd h (by decide)
    · exact absurd (hnumber.2 _ h) (by decide)
    · exact absurd h (by decide)
  induction text using placeholder_induction with
  | nil => exact absurd (List.infix_nil.1 hinfix) (List.cons_ne_nil _ _)
  | hole digits' rest hnumber' ih =>
    rw [mapPlaceholders_braced _ hnumber'] at hinfix
    rcases List.infix_cons_iff.1 hinfix with hstarts | hinfix
    · exact absurd (List.cons_prefix_cons.1 hstarts).1 (by decide)
    · exact ih hinfix
  | other c rest hnot ih =>
    have hkept := mapPlaceholders_cons_of_not (fun _ => ['?']) hnot
    rw [hkept] at hinfix
    rcases List.infix_cons_iff.1 hinfix with hstarts | hinfix
    · exact hnot digits hnumber (startsAlike_mapPlaceholders _ _ hmark (hkept ▸ hstarts))
    · exact ih hinfix

/-! ## Pieces in front of a placeholder -/

variable {first second : List Char}

theorem HasPlaceholder.append_left (h : HasPlaceholder text) (front : List Char) :
    HasPlaceholder (front ++ text) := by
  obtain ⟨digits, hnumber, hinfix⟩ := h
  exact ⟨digits, hnumber, hinfix.trans (List.suffix_append front text).isInfix⟩

/-- A placeholder at the front would be one in the other text as well. -/
theorem StartsAlike.not_prefix_cons {c : Char} (h : StartsAlike '{' first second)
    (hnone : ¬HasPlaceholder (c :: second)) (hnumber : IsNumber digits) :
    ¬braced digits <+: c :: first := by
  intro hstarts
  obtain ⟨hc, hrest⟩ := List.cons_prefix_cons.1 hstarts
  have hrest' := h _ hnumber.brace_not_mem hrest
  exact hnone ⟨digits, hnumber, (List.cons_prefix_cons.2 ⟨hc, hrest'⟩).isInfix⟩

/-- In front of a text that starts alike nothing is replaced, if nothing there is a placeholder. -/
theorem StartsAlike.replaceAll_append (h : StartsAlike '{' first second) {front : List Char}
    (hnone : ¬HasPlaceholder (front ++ second)) (hnumber : IsNumber digits) (new : List Char) :
    replaceAll (braced digits) new (front ++ first) =
      front ++ replaceAll (braced digits) new first := by
  refine replaceAll_append_of_not_prefix (fun tail hne htail => ?_) new
  obtain ⟨start, rfl⟩ := htail
  obtain ⟨c, tail, rfl⟩ := List.exists_cons_of_ne_nil hne
  have hbehind : ¬HasPlaceholder (c :: (tail ++ second)) := by
    intro hsome
    rw [List.append_assoc] at hnone
    exact hnone (hsome.append_left start)
  exact (h.append tail).not_prefix_cons hbehind hnumber

theorem StartsAlike.mapPlaceholders_append (h : StartsAlike '{' first second) {front : List Char}
    (hnone : ¬HasPlaceholder (front ++ second)) (f : List Char → List Char) :
    mapPlaceholders f (front ++ first) = front ++ mapPlaceholders f first := by
  induction front with
  | nil => rfl
  | cons c front ih =>
    have hnot : ∀ digits, IsNumber digits → ¬braced digits <+: c :: (front ++ first) :=
      fun digits hnumber => (h.append front).not_prefix_cons hnone hnumber
    rw [List.cons_append, mapPlaceholders_cons_of_not f hnot,
      ih fun hsome => hnone (hsome.append_left [c]), List.cons_append]

/-- A text in which there is no placeholder is left as it is, and no other text is. -/
theorem mapPlaceholders_eq_self_iff :
    mapPlaceholders (fun _ => ['?']) text = text ↔ ¬HasPlaceholder text := by
  constructor
  · intro h
    rw [← h]
    exact not_hasPlaceholder_mapPlaceholders text
  · intro hnone
    have hkept : mapPlaceholders (fun _ => ['?']) (text ++ []) =
        text ++ mapPlaceholders (fun _ => ['?']) [] :=
      (startsAlike_nil '{' []).mapPlaceholders_append (by rwa [List.append_nil]) _
    rwa [mapPlaceholders_nil, List.append_nil] at hkept

end TemplateDump.Text
