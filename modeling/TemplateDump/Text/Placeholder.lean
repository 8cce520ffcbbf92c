import TemplateDump.Text.Decimal

/-!
# Placeholders

A placeholder is an opening brace, one or more decimal digits and a closing brace. It marks the
place of a numbered argument in a text.

`placeholder` writes one, `placeholderDigits?` recognises one at the start of a text, and
`mapPlaceholders` puts something else in the place of each.
-/

namespace TemplateDump.Text

/-- The placeholder of argument number `i`. -/
def placeholder (i : Nat) : List Char :=
  '{' :: natDigits i ++ ['}']

/-- The digits of the placeholder at the start of a text, if there is one. Only the ten ASCII
digits count. -/
def placeholderDigits? : List Char → Option (List Char)
  | '{' :: rest =>
    let digits := rest.takeWhile Char.isDigit
    if digits ≠ [] ∧ rest[digits.length]? = some '}' then some digits else none
  | _ => none

/-- Replaces each placeholder by what `f` makes of its digits, in a text whose first `skip`
characters belong to a placeholder that has been replaced already and are dropped. -/
def mapPlaceholdersFrom (f : List Char → List Char) : Nat → List Char → List Char
  | _, [] => []
  | skip + 1, _ :: rest => mapPlaceholdersFrom f skip rest
  | 0, c :: rest =>
    match placeholderDigits? (c :: rest) with
    | some digits => f digits ++ mapPlaceholdersFrom f (digits.length + 1) rest
    | none => c :: mapPlaceholdersFrom f 0 rest

/-- Replaces each placeholder of a text, from left to right, by what `f` makes of its digits. -/
def mapPlaceholders (f : List Char → List Char) (text : List Char) : List Char :=
  mapPlaceholdersFrom f 0 text

@[simp] theorem mapPlaceholders_nil (f : List Char → List Char) : mapPlaceholders f [] = [] := rfl

/-- Skipping is dropping. -/
theorem mapPlaceholdersFrom_eq_drop (f : List Char → List Char) (skip : Nat) (text : List Char) :
    mapPlaceholdersFrom f skip text = mapPlaceholders f (text.drop skip) := by
  induction text generalizing skip with
  | nil => cases skip <;> rfl
  | cons c rest ih =>
    cases skip with
    | zero => rfl
    | succ k => exact ih k

end TemplateDump.Text
