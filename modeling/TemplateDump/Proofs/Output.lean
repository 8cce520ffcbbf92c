import TemplateDump.Output

/-!
# Where outputs stop

Several outputs behind one another stop where the first of them does: `error_concat` says with
which error.  Outputs in groups are the same as without groups (`concat_flatMap`).  If a line feed
stands behind each, and those that stop have no text, `chars_concat_lines` gives the text: the lines
in front of the first that stops.
-/

namespace TemplateDump.Output

/-- Two outputs behind one another do not stop if neither does. -/
theorem append_eq_ofChars {first second : Output} (h : first.error = none)
    (h' : second.error = none) : first ++ second = ofChars (first.chars ++ second.chars) := by
  rw [append_of_success h, h']
  rfl

theorem error_append_eq_none_iff {first second : Output} :
    (first ++ second).error = none ↔ first.error = none ∧ second.error = none := by
  cases h : first.error with
  | none => simp [append_of_success h]
  | some e => simp [append_of_error h, h]

/-- The error of several outputs is the first one. -/
theorem error_concat (outputs : List Output) :
    (concat outputs).error = outputs.findSome? Output.error := by
  induction outputs with
  | nil => rfl
  | cons output rest ih =>
    rw [concat_cons, List.findSome?_cons]
    cases h : output.error with
    | none => rw [append_of_success h, ih]
    | some e => rw [append_of_error h, h]

theorem concat_flatMap {α : Type} (f : α → List Output) (l : List α) :
    concat (l.flatMap f) = concat (l.map fun a => concat (f a)) := by
  induction l with
  | nil => rfl
  | cons a rest ih => rw [List.flatMap_cons, concat_append, ih, List.map_cons, concat_cons]

/-- A text behind an output does not change whether it stops. -/
theorem error_append_ofChars (output : Output) (chars : List Char) :
    (output ++ ofChars chars).error = output.error := by
  cases h : output.error with
  | none => rw [append_of_success h]; rfl
  | some e => rw [append_of_error h, h]

section Lines

variable {α : Type} {f : α → Output}

theorem error_concat_lines (l : List α) :
    (concat (l.map fun a => f a ++ ofChars ['\n'])).error = l.findSome? fun a => (f a).error := by
  rw [error_concat, List.findSome?_map]
  exact congrArg (fun g => l.findSome? g) (funext fun a => error_append_ofChars (f a) _)

theorem chars_concat_lines (hf : ∀ a, (f a).error ≠ none → (f a).chars = []) (l : List α) :
    (concat (l.map fun a => f a ++ ofChars ['\n'])).chars =
      (l.takeWhile fun a => (f a).succeeded).flatMap fun a => (f a).chars ++ ['\n'] := by
  induction l with
  | nil => rfl
  | cons a rest ih =>
    rw [List.map_cons, concat_cons, List.takeWhile_cons, succeeded]
    cases h : (f a).error with
    | none =>
      have hline := append_of_success h (ofChars ['\n'])
      rw [Option.isNone_none, if_pos rfl, List.flatMap_cons, ← ih, hline, append_of_success rfl]
      rfl
    | some e =>
      have hstopped : (f a).error ≠ none := by
        rw [h]
        exact Option.some_ne_none e
      rw [Option.isNone_some, if_neg Bool.false_ne_true, append_of_error h, append_of_error h,
        hf a hstopped, List.flatMap_nil]

end Lines

end TemplateDump.Output
