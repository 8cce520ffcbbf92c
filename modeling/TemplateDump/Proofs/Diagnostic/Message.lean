import TemplateDump.Diagnostic.Basic
import TemplateDump.Proofs.Text.Placeholder

/-!
# What a message says

The passes fill the places of a format one number after the other.  What they should give is the
format with every place filled at once, `Format.fill`.  `messageChars_eq_fill_iff` says when they
do: exactly if the filled format reads as if it had no placeholder in it.  Otherwise an argument
was taken for a placeholder, or for a part of one.

* `replaceAll_stage` — one pass takes one stage to the next;
* `hidePlaceholders_stage` — the last pass;
* `messageChars_eq_fill_of_no_brace` — the ordinary case;
* `not_hasPlaceholder_message` — what no argument can bring into a message.
-/

namespace TemplateDump

/-! ## Stages -/

/-- What stands in the place of a piece after the passes for so many arguments. -/
def FormatPiece.stage (arguments : List String) (passes : Nat) : FormatPiece → List Char
  | .text content => content.toList
  | .argument index =>
    if index < passes then FormatPiece.fill arguments (.argument index) else Text.placeholder index

/-- A format after the passes for so many arguments. -/
def Format.stage (format : Format) (arguments : List String) (passes : Nat) : List Char :=
  format.flatMap (FormatPiece.stage arguments passes)

/-- A piece is filled already, or its place is still to be filled. -/
theorem FormatPiece.stage_cases (arguments : List String) (passes : Nat) (piece : FormatPiece) :
    (∃ index, piece = .argument index ∧ passes ≤ index) ∨
      piece.stage arguments passes = piece.fill arguments ∧
      piece.stage arguments (passes + 1) = piece.fill arguments := by
  cases piece with
  | text content => exact .inr ⟨rfl, rfl⟩
  | argument index =>
    by_cases h : index < passes
    · exact .inr ⟨if_pos h, if_pos (Nat.lt_succ_of_lt h)⟩
    · exact .inl ⟨index, rfl, Nat.le_of_not_lt h⟩

theorem FormatPiece.stage_argument (arguments : List String) {passes index : Nat}
    (h : passes ≤ index) :
    (FormatPiece.argument index).stage arguments passes = Text.placeholder index :=
  if_neg (Nat.not_lt_of_le h)

namespace Format

open Text

variable {format : Format} {arguments : List String}

theorem stage_zero (format : Format) (arguments : List String) :
    format.stage arguments 0 = format.chars := by
  have hpiece : FormatPiece.stage arguments 0 = FormatPiece.chars := by
    funext piece
    cases piece <;> rfl
  rw [stage, hpiece, chars]

/-- Up to the first place that is still to be filled a stage is the filled format. -/
theorem stage_startsAlike (format : Format) (arguments : List String) (passes : Nat) :
    StartsAlike '{' (format.stage arguments passes) (format.fill arguments) := by
  induction format with
  | nil => exact startsAlike_nil _ _
  | cons piece rest ih =>
    rw [stage, fill, List.flatMap_cons, List.flatMap_cons]
    rcases piece.stage_cases arguments passes with ⟨index, rfl, hindex⟩ | ⟨hstage, -⟩
    · rw [FormatPiece.stage_argument _ hindex]
      exact startsAlike_stop _ _ _
    · rw [hstage]
      exact ih.append _

/-- The pass for an argument fills the places with its number and does nothing else. -/
theorem replaceAll_stage (hnone : ¬HasPlaceholder (format.fill arguments)) {passes : Nat}
    {argument : String} (hargument : arguments[passes]? = some argument) :
    replaceAll (placeholder passes) argument.toList (format.stage arguments passes) =
      format.stage arguments (passes + 1) := by
  induction format with
  | nil => rfl
  | cons piece rest ih =>
    have hrest := ih fun h => hnone (h.append_left _)
    rw [stage, stage, List.flatMap_cons, List.flatMap_cons, ← stage, ← stage, ← hrest]
    rcases piece.stage_cases arguments passes with ⟨index, rfl, hindex⟩ | ⟨hstage, hnext⟩
    · rw [FormatPiece.stage_argument _ hindex]
      by_cases hsame : index = passes
      · subst hsame
        have hfill : (FormatPiece.argument index).stage arguments (index + 1) =
            argument.toList := by
          rw [FormatPiece.stage, if_pos (Nat.lt_succ_self _), FormatPiece.fill, hargument,
            Option.getD_some]
        have hpattern : placeholder index ≠ [] := List.cons_ne_nil _ _
        rw [hfill, replaceAll_append_self hpattern]
      · rw [FormatPiece.stage_argument _ (by omega)]
        exact replaceAll_placeholder_of_ne (Ne.symm hsame) _ _
    · rw [hstage, hnext]
      exact (stage_startsAlike rest arguments passes).replaceAll_append hnone
        (isNumber_natDigits passes) _

/-- The last pass writes a question mark in each place for which there is no argument. -/
theorem hidePlaceholders_stage (hnone : ¬HasPlaceholder (format.fill arguments)) :
    hidePlaceholders (format.stage arguments arguments.length) = format.fill arguments := by
  induction format with
  | nil => rfl
  | cons piece rest ih =>
    have hrest := ih fun h => hnone (h.append_left _)
    rw [stage, fill, List.flatMap_cons, List.flatMap_cons, ← stage, ← fill, ← hrest]
    rcases piece.stage_cases arguments arguments.length with ⟨index, rfl, hindex⟩ | ⟨hstage, -⟩
    · have hfill : (FormatPiece.argument index).fill arguments = ['?'] := by
        rw [FormatPiece.fill, List.getElem?_eq_none hindex, Option.getD_none]
        rfl
      rw [FormatPiece.stage_argument _ hindex, hfill, hidePlaceholders, placeholder_eq_braced,
        mapPlaceholders_braced _ (isNumber_natDigits index)]
      rfl
    · rw [hstage]
      exact (stage_startsAlike rest arguments _).mapPlaceholders_append hnone _

/-- The passes for all arguments. -/
theorem substitutePasses_stage (hnone : ¬HasPlaceholder (format.fill arguments)) :
    ∀ done rest : List String, done ++ rest = arguments →
      substitutePasses done.length rest (format.stage arguments done.length) =
        format.stage arguments arguments.length := by
  intro done rest
  induction rest generalizing done with
  | nil =>
    rintro rfl
    rw [List.append_nil]
    rfl
  | cons argument rest ih =>
    intro hsplit
    have hargument : arguments[done.length]? = some argument := by
      rw [← hsplit, List.getElem?_append_right (Nat.le_refl _), Nat.sub_self,
        List.getElem?_cons_zero]
    have hnext := ih (done ++ [argument]) (by rw [List.append_assoc, List.singleton_append, hsplit])
    rw [List.length_append, List.length_singleton] at hnext
    rw [substitutePasses, replaceAll_stage hnone hargument, hnext]

/-- All passes together give the filled format, if no placeholder is to be read in it. -/
theorem hidePlaceholders_substitutePasses (hnone : ¬HasPlaceholder (format.fill arguments)) :
    hidePlaceholders (substitutePasses 0 arguments format.chars) = format.fill arguments := by
  have hpasses := substitutePasses_stage hnone [] arguments (List.nil_append _)
  rw [List.length_nil, stage_zero] at hpasses
  rw [hpasses, hidePlaceholders_stage hnone]

end Format

/-! ## Messages -/

/-- The format of a number is in the catalogue, or it is the one for other numbers. -/
theorem DiagnosticId.format_mem (id : DiagnosticId) :
    id.format ∈ unknownFormat :: catalogue.map Prod.snd := by
  rw [format]
  cases h : catalogue.lookup id.number with
  | none => exact List.mem_cons_self
  | some format =>
    obtain ⟨before, behind, hrows, -⟩ := List.lookup_eq_some_iff.1 h
    have hrow : (id.number, format) ∈ catalogue := by
      rw [hrows]
      exact List.mem_append_right _ List.mem_cons_self
    exact List.mem_cons_of_mem _ (List.mem_map.2 ⟨_, hrow, rfl⟩)

/-- No format has an opening brace of its own. -/
theorem DiagnosticId.brace_not_mem_fill_nil (id : DiagnosticId) : '{' ∉ id.format.fill [] := by
  have hformats : ∀ format ∈ unknownFormat :: catalogue.map Prod.snd, '{' ∉ format.fill [] := by
    decide +kernel
  exact hformats _ id.format_mem

/-- A brace that stands in the place of a piece comes from an argument or from the format. -/
theorem FormatPiece.brace_mem_fill {arguments : List String} (piece : FormatPiece)
    (h : '{' ∈ piece.fill arguments) :
    (∃ argument ∈ arguments, '{' ∈ argument.toList) ∨ '{' ∈ piece.fill [] := by
  cases piece with
  | text content => exact .inr h
  | argument index =>
    cases hargument : arguments[index]? with
    | none =>
      rw [fill, hargument] at h
      exact .inr h
    | some argument =>
      rw [fill, hargument] at h
      exact .inl ⟨argument, List.mem_of_getElem? hargument, h⟩

namespace Diagnostic

/-- **When arguments are taken as they are.**  For every number, known or not, and all arguments,
the message is the format of the number with each place filled at once — with the argument as it
is, or with a question mark if there is none — exactly if no placeholder is to be read in the
filled format.  Only a brace, some digits and a brace that an argument holds or completes are ever
taken for a placeholder. -/
theorem messageChars_eq_fill_iff (d : Diagnostic) :
    d.messageChars = d.id.format.fill d.arguments ↔
      ¬Text.HasPlaceholder (d.id.format.fill d.arguments) := by
  constructor
  · -- A message never has a placeholder, whatever the arguments are.
    intro hfill
    rw [← hfill]
    exact Text.not_hasPlaceholder_mapPlaceholders _
  · exact Format.hidePlaceholders_substitutePasses

/-- Arguments without opening braces are taken as they are. -/
theorem messageChars_eq_fill_of_no_brace (d : Diagnostic)
    (h : ∀ argument ∈ d.arguments, '{' ∉ argument.toList) :
    d.messageChars = d.id.format.fill d.arguments := by
  refine Format.hidePlaceholders_substitutePasses ?_
  rintro ⟨digits, -, hinfix⟩
  have hbrace : '{' ∈ d.id.format.fill d.arguments := hinfix.subset List.mem_cons_self
  obtain ⟨piece, hpiece, hbrace⟩ := List.mem_flatMap.1 hbrace
  rcases piece.brace_mem_fill hbrace with ⟨argument, hargument, hbrace⟩ | hbrace
  · exact h argument hargument hbrace
  · exact d.id.brace_not_mem_fill_nil (List.mem_flatMap.2 ⟨piece, hpiece, hbrace⟩)

/-- The first argument is taken for the place of the second. -/
theorem message_of_placeholder_argument :
    let d : Diagnostic := ⟨⟨2001⟩, .error, {}, ["\x7b1\x7d", "x"]⟩
    d.id.format.fill d.arguments = "the '\x7b1\x7d' directive expects x".toList ∧
      d.message = "the 'x' directive expects x" ∧
      d.messageChars ≠ d.id.format.fill d.arguments := by
  decide

/-- **No placeholder is left in a message.**  For every number and all arguments there is no opening
brace with digits and a closing brace behind it in the message, whatever the arguments hold and
whatever they make together.  The last pass, which sees to that, changes what the passes before it
have made only if there is a placeholder in it. -/
theorem not_hasPlaceholder_message (d : Diagnostic) :
    ¬Text.HasPlaceholder d.message.toList ∧
      (d.messageChars = substitutePasses 0 d.arguments d.id.format.chars ↔
        ¬Text.HasPlaceholder (substitutePasses 0 d.arguments d.id.format.chars)) := by
  constructor
  · rw [toList_message]
    exact Text.not_hasPlaceholder_mapPlaceholders _
  · exact Text.mapPlaceholders_eq_self_iff

/-- The second argument ends a placeholder that the first one starts. -/
example : message ⟨⟨2001⟩, .error, {}, ["\x7b\x7b1\x7d", "7\x7d"]⟩ =
    "the '?' directive expects 7\x7d" := by
  decide

end Diagnostic

end TemplateDump
