/-!
# Replacing a pattern in a text

A scan from the left replaces every occurrence of a pattern that it meets and goes on behind it. So
occurrences never overlap, and the text put in their place is not read again.

`replaceAll_append_self` says what happens at an occurrence, `replaceAll_cons_of_not` what happens
anywhere else; with `replaceAll_nil` the three determine the result for every non-empty pattern.
-/

namespace TemplateDump.Text

/-! ## The scan -/

/-- Replaces `pattern` by `new` in a text whose first `skip` characters belong to an occurrence
that has been replaced already and are dropped. -/
def replaceFrom (pattern new : List Char) : Nat → List Char → List Char
  | _, [] => []
  | skip + 1, _ :: rest => replaceFrom pattern new skip rest
  | 0, c :: rest =>
    if pattern.isPrefixOf (c :: rest) then
      new ++ replaceFrom pattern new (pattern.length - 1) rest
    else
      c :: replaceFrom pattern new 0 rest

/-- Replaces the leftmost occurrences of `pattern` that do not overlap by `new`. -/
def replaceAll (pattern new text : List Char) : List Char :=
  replaceFrom pattern new 0 text

/-! ## The three cases -/

@[simp] theorem replaceAll_nil (pattern new : List Char) : replaceAll pattern new [] = [] := rfl

/-- Skipping is dropping. -/
theorem replaceFrom_eq_replaceAll_drop (pattern new : List Char) (skip : Nat) (text : List Char) :
    replaceFrom pattern new skip text = replaceAll pattern new (text.drop skip) := by
  induction text generalizing skip with
  | nil => cases skip <;> rfl
  | cons c rest ih =>
    cases skip with
    | zero => rfl
    | succ k => exact ih k

/-- An occurrence at the front is replaced, and the scan goes on behind it. -/
theorem replaceAll_append_self {pattern : List Char} (h : pattern ≠ []) (new rest : List Char) :
    replaceAll pattern new (pattern ++ rest) = new ++ replaceAll pattern new rest := by
  obtain ⟨c, tail, rfl⟩ := List.exists_cons_of_ne_nil h
  have hp : (c :: tail).isPrefixOf (c :: (tail ++ rest)) = true :=
    List.isPrefixOf_iff_prefix.2 ⟨rest, rfl⟩
  rw [List.cons_append, replaceAll, replaceFrom, if_pos hp, replaceFrom_eq_replaceAll_drop]
  simp

/-- A character at which no occurrence starts is kept. -/
theorem replaceAll_cons_of_not {pattern : List Char} {c : Char} {rest : List Char}
    (h : ¬ pattern <+: c :: rest) (new : List Char) :
    replaceAll pattern new (c :: rest) = c :: replaceAll pattern new rest := by
  have hp : ¬ pattern.isPrefixOf (c :: rest) = true := fun hc => h (List.isPrefixOf_iff_prefix.1 hc)
  rw [replaceAll, replaceFrom, if_neg hp, replaceAll]

end TemplateDump.Text
