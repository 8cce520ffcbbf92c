import TemplateDump.Line

/-!
# Outputs

Writing yields text and, where it had to stop, the cause. Outputs follow one another until the
first that stopped, so that they form a monoid (`empty_append`, `append_empty`, `append_assoc`)
in which an output that stopped hides all that comes after it (`append_of_error`).
-/

namespace TemplateDump

/-- What writing yields: the text, and the cause if it had to stop. -/
structure Output where
  chars : List Char
  error : Option DumpError
deriving DecidableEq

namespace Output

/-- Nothing written. -/
def empty : Output := ⟨[], none⟩

/-- A text written without trouble. -/
def ofChars (chars : List Char) : Output := ⟨chars, none⟩

/-- A stop before anything is written. -/
def stop (error : DumpError) : Output := ⟨[], some error⟩

/-- Whether writing went on to the end. -/
def succeeded (output : Output) : Bool := output.error.isNone

/-- The text. -/
def text (output : Output) : String := String.ofList output.chars

/-- The second output after the first, unless the first stopped. Where the second has no text the
first is taken over as it is, so that a long text is not copied once for each level above it. -/
def append (first second : Output) : Output :=
  match first.error with
  | none =>
    if second.chars.isEmpty then ⟨first.chars, second.error⟩
    else ⟨first.chars ++ second.chars, second.error⟩
  | some _ => first

instance : Append Output := ⟨append⟩

/-- The second output after the first; it is not even made if the first stopped. -/
def andThen (first : Output) (second : Unit → Output) : Output :=
  match first.error with
  | none => first ++ second ()
  | some _ => first

/-- One output after the other, up to the first that stopped. -/
def concat (outputs : List Output) : Output :=
  outputs.foldr (· ++ ·) empty

/-- The outputs for the members of a list, one after the other, made up to the first that
stopped. -/
def concatMap {α : Type} (f : α → Output) : List α → Output
  | [] => empty
  | a :: rest => (f a).andThen fun _ => concatMap f rest

/-! ## Laws -/

theorem append_of_success {first : Output} (h : first.error = none) (second : Output) :
    first ++ second = ⟨first.chars ++ second.chars, second.error⟩ := by
  show append first second = _
  rw [append, h]
  by_cases hs : second.chars = []
  · simp [hs]
  · simp [hs]

theorem append_of_error {first : Output} {e : DumpError} (h : first.error = some e)
    (second : Output) : first ++ second = first := by
  show append first second = _
  rw [append, h]

@[simp] theorem empty_append (output : Output) : empty ++ output = output := by
  have h : empty.error = none := rfl
  rw [append_of_success h]
  rfl

@[simp] theorem append_empty (output : Output) : output ++ empty = output := by
  cases h : output.error with
  | none =>
    rw [append_of_success h]
    cases output
    simp_all [empty]
  | some e => rw [append_of_error h]

theorem append_assoc (first second third : Output) :
    first ++ second ++ third = first ++ (second ++ third) := by
  cases h : first.error with
  | some e => rw [append_of_error h, append_of_error h, append_of_error h]
  | none =>
    cases h' : second.error with
    | none =>
      have hlater : (⟨first.chars ++ second.chars, second.error⟩ : Output).error = none := h'
      rw [append_of_success h, append_of_success h, append_of_success h',
        append_of_success hlater]
      simp
    | some e =>
      rw [append_of_success h, append_of_error h', append_of_success h]
      have hlater : (⟨first.chars ++ second.chars, second.error⟩ : Output).error = some e := h'
      exact append_of_error hlater third

theorem andThen_eq_append (first : Output) (second : Unit → Output) :
    first.andThen second = first ++ second () := by
  cases h : first.error with
  | none => rw [andThen, h]
  | some e => rw [andThen, h, append_of_error h]

/-- Making the outputs one by one makes no difference to the result. -/
theorem concatMap_eq_concat_map {α : Type} (f : α → Output) (l : List α) :
    concatMap f l = concat (l.map f) := by
  induction l with
  | nil => rfl
  | cons a rest ih => rw [concatMap, andThen_eq_append, ih]; rfl

@[simp] theorem concat_nil : concat [] = empty := rfl

@[simp] theorem concat_cons (output : Output) (rest : List Output) :
    concat (output :: rest) = output ++ concat rest := rfl

theorem concat_append (first second : List Output) :
    concat (first ++ second) = concat first ++ concat second := by
  induction first with
  | nil => rw [List.nil_append, concat_nil, empty_append]
  | cons output rest ih => rw [List.cons_append, concat_cons, concat_cons, ih, append_assoc]

/-- Texts that are written without trouble follow one another. -/
theorem concat_map_ofChars {α : Type} (f : α → List Char) (l : List α) :
    concat (l.map fun a => ofChars (f a)) = ofChars (l.flatMap f) := by
  induction l with
  | nil => rfl
  | cons a rest ih =>
    rw [List.map_cons, concat_cons, ih, append_of_success rfl]
    rfl

end Output

/-! ## The output for a node -/

/-- Writes the line of a node, without its end; an unknown node stops the writing. -/
def Setup.writeNode (setup : Setup) (depth : Nat) (node : Node) : Output :=
  match setup.line? depth node with
  | .ok line => .ofChars line.chars
  | .error error => .stop error

/-- A node is written either whole or not at all. -/
theorem Setup.chars_writeNode_of_stopped {setup : Setup} {depth : Nat} {node : Node}
    (h : (setup.writeNode depth node).error ≠ none) : (setup.writeNode depth node).chars = [] := by
  cases hline : setup.line? depth node with
  | ok line =>
    rw [writeNode, hline] at h
    exact absurd rfl h
  | error error =>
    rw [writeNode, hline]
    rfl

/-- Whether a node can be written does not depend on its depth. -/
theorem Setup.error_writeNode_depth (setup : Setup) (depth : Nat) (node : Node) :
    (setup.writeNode depth node).error = (setup.writeNode 0 node).error := by
  cases h : setup.registry.fields? node <;> simp only [writeNode, line?, h] <;> rfl

/-- The depth shows in the indentation only. -/
theorem Setup.chars_writeNode_depth {setup : Setup} {node : Node}
    (h : (setup.writeNode 0 node).error = none) (depth : Nat) :
    (setup.writeNode depth node).chars =
      List.replicate (4 * depth) ' ' ++ (setup.writeNode 0 node).chars := by
  cases hfields : setup.registry.fields? node with
  | error error =>
    simp only [writeNode, line?, hfields] at h
    exact absurd h (Option.some_ne_none error)
  | ok fields =>
    simp only [writeNode, line?, hfields]
    show Line.chars _ = _ ++ Line.chars _
    simp [Line.chars, Line.bodyChars, indentChars]

/-- Writes the line of a node and ends it. -/
def Setup.writeLine (setup : Setup) (depth : Nat) (node : Node) : Output :=
  setup.writeNode depth node ++ .ofChars ['\n']

end TemplateDump
