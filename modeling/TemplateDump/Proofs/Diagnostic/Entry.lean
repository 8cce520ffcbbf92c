import TemplateDump.Line
import TemplateDump.Proofs.Span
import Mathlib.Data.List.Forall2

/-!
# Reading the entries of diagnostics

The name of a file stands in an entry as it is, so an entry is read from both ends: the fingerprint
behind it has a fixed length, the code and the severity are words, and what is left is the span.
`Diagnostic.entryChars_eq_iff` says that an entry tells all that it shows.

Where no file name holds a closing brace, the closing braces of a line are the ends of its entries,
and the line tells how many diagnostics there are and what it shows of each
(`diagnosticsChars_eq_iff`).
-/

namespace TemplateDump

/-! ## The words of an entry -/

namespace Text

/-- Zeros in front of a number do not change it. -/
theorem ofDigitChars_paddedDigits (width n : Nat) :
    Nat.ofDigitChars 10 (paddedDigits width n) 0 = n := by
  rw [paddedDigits, List.leftpad, Nat.ofDigitChars_append, Nat.ofDigitChars_replicate_zero,
    Nat.mul_zero, ofDigitChars_natDigits]

theorem paddedDigits_inj {width m n : Nat} (h : paddedDigits width m = paddedDigits width n) :
    m = n := by
  rw [← ofDigitChars_paddedDigits width m, h, ofDigitChars_paddedDigits]

theorem isDigit_of_mem_paddedDigits {width n : Nat} {c : Char} (h : c ∈ paddedDigits width n) :
    c.isDigit = true := by
  rw [paddedDigits, List.leftpad, List.mem_append] at h
  rcases h with hzero | hdigit
  · rw [List.eq_of_mem_replicate hzero]
    decide
  · exact isDigit_of_mem_natDigits hdigit

end Text

theorem Severity.label_inj {first second : Severity} (h : first.label = second.label) :
    first = second := by
  cases first <;> cases second <;> first | rfl | exact absurd h (by decide)

theorem Severity.not_mem_label {c : Char} (hc : c.isAlphanum = false) (severity : Severity) :
    c ∉ severity.label.toList := by
  have hlabel : severity.label.toList.all Char.isAlphanum = true := by
    cases severity <;> decide
  intro h
  exact absurd (List.all_eq_true.1 hlabel c h) (Bool.eq_false_iff.1 hc)

theorem DiagnosticId.codeChars_inj {first second : DiagnosticId}
    (h : first.codeChars = second.codeChars) : first = second := by
  have hnumber : first.number.toNat = second.number.toNat :=
    Text.paddedDigits_inj (List.cons.inj h).2
  cases first
  cases second
  exact congrArg _ (UInt16.toNat_inj.1 hnumber)

theorem DiagnosticId.not_mem_codeChars {c : Char} (hc : c.isAlphanum = false) (id : DiagnosticId) :
    c ∉ id.codeChars := by
  have hletter : id.severity.letter.isAlphanum = true := by
    cases id.severity <;> decide
  intro h
  rcases List.mem_cons.1 h with rfl | hdigit
  · exact absurd hletter (Bool.eq_false_iff.1 hc)
  · rw [Char.isAlphanum, Text.isDigit_of_mem_paddedDigits hdigit, Bool.or_true] at hc
    exact absurd hc (by decide)

theorem Diagnostic.not_mem_digest {c : Char} (hc : c.isAlphanum = false) (d : Diagnostic) :
    c ∉ d.digest.toList := by
  have hdigits : Digest.hexDigits.all Char.isAlphanum = true := by decide
  intro h
  rw [Diagnostic.digest, fingerprint, String.toList_ofList] at h
  have hdigit := List.all_eq_true.1 hdigits c (Digest.mem_hexDigits_of_mem_fingerprintChars h)
  exact absurd hdigit (Bool.eq_false_iff.1 hc)

theorem Diagnostic.length_digest (d : Diagnostic) : d.digest.toList.length = 32 := by
  rw [Diagnostic.digest, fingerprint, String.toList_ofList, Digest.fingerprintChars_length]

/-! ## One entry -/

namespace Diagnostic

variable {d e : Diagnostic}

/-- The diagnostics agree on all that an entry shows. -/
structure SameEntry (d e : Diagnostic) : Prop where
  offset : d.span.offset = e.span.offset
  line : d.span.line = e.span.line
  column : d.span.column = e.span.column
  length : d.span.length = e.span.length
  fileName : fileName d.span.file = fileName e.span.file
  severity : d.severity = e.severity
  id : d.id = e.id
  digest : d.digest = e.digest

/-- An entry without its closing brace. -/
def entryBody (d : Diagnostic) : List Char :=
  '{' :: d.span.chars ++ [':', ' '] ++ d.severity.label.toList ++ ' ' :: d.id.codeChars ++
    [':', ' '] ++ d.digest.toList

theorem entryChars_eq (d : Diagnostic) : d.entryChars = d.entryBody ++ ['}'] := rfl

theorem entryBody_eq (d : Diagnostic) :
    d.entryBody = '{' :: d.span.chars ++ [':'] ++ ' ' :: d.severity.label.toList ++
      ' ' :: d.id.codeChars ++ [':', ' '] ++ d.digest.toList := by
  simp [entryBody]

/-- An entry tells what it shows, whatever the file is called. -/
theorem entryChars_eq_iff : d.entryChars = e.entryChars ↔ d.SameEntry e := by
  constructor
  · intro h
    rw [entryChars_eq, entryChars_eq] at h
    have hbody : d.entryBody = e.entryBody := List.append_cancel_right h
    rw [entryBody_eq, entryBody_eq] at hbody
    -- From the end: the fingerprint by its length, the code and the severity up to a blank.
    obtain ⟨hfront, hdigest⟩ := List.append_inj' hbody (by rw [length_digest, length_digest])
    have hcodes : ∀ id : DiagnosticId, ' ' ∉ id.codeChars :=
      DiagnosticId.not_mem_codeChars (by decide)
    have hlabels : ∀ severity : Severity, ' ' ∉ severity.label.toList :=
      Severity.not_mem_label (by decide)
    obtain ⟨hfront, hcode⟩ := Text.append_cons_inj_of_last (hcodes d.id) (hcodes e.id)
      (List.append_cancel_right hfront)
    obtain ⟨hfront, hlabel⟩ := Text.append_cons_inj_of_last (hlabels d.severity)
      (hlabels e.severity) hfront
    have hspan : d.span.chars = e.span.chars := (List.cons.inj (List.append_cancel_right hfront)).2
    obtain ⟨hfile, hoffset, hline, hcolumn, hlength⟩ :=
      SourceSpan.shown_eq_shown_iff.1 (SourceSpan.chars_eq_chars_iff.1 hspan)
    exact ⟨hoffset, hline, hcolumn, hlength, hfile, Severity.label_inj (String.toList_inj.1 hlabel),
      DiagnosticId.codeChars_inj hcode, String.toList_inj.1 hdigest⟩
  · intro h
    have hspan : d.span.chars = e.span.chars := SourceSpan.chars_eq_chars_iff.2
      (SourceSpan.shown_eq_shown_iff.2 ⟨h.fileName, h.offset, h.line, h.column, h.length⟩)
    rw [entryChars, entryChars, hspan, h.severity, h.id, h.digest]

/-! ## The entries of a line -/

/-- If the name of the file does not hold a closing brace, the entry holds none but the last. -/
theorem brace_not_mem_entryBody (h : '}' ∉ (fileName d.span.file).toList) : '}' ∉ d.entryBody := by
  rw [toList_fileName] at h
  have hspan : '}' ∉ d.span.chars := SourceSpan.not_mem_chars (by decide) (by decide) h
  have hlabel : '}' ∉ d.severity.label.toList := Severity.not_mem_label (by decide) d.severity
  have hcode : '}' ∉ d.id.codeChars := DiagnosticId.not_mem_codeChars (by decide) d.id
  have hdigest : '}' ∉ d.digest.toList := not_mem_digest (by decide) d
  simp [entryBody, hspan, hlabel, hcode, hdigest]

end Diagnostic

/-- The entries on a line: nothing, or a bar and the entries with single blanks between them. -/
theorem diagnosticsChars_eq (diagnostics : List Diagnostic) :
    diagnosticsChars diagnostics =
      if diagnostics = [] then []
      else " | ".toList ++ [' '].intercalate (diagnostics.map Diagnostic.entryChars) := by
  cases diagnostics with
  | nil => rfl
  | cons d rest =>
    rw [if_neg (List.cons_ne_nil d rest)]
    rfl

/-- Behind the blank and the bar, the entries stand with a blank in front of each. -/
theorem drop_diagnosticsChars (diagnostics : List Diagnostic) :
    (diagnosticsChars diagnostics).drop 2 =
      (diagnostics.map (' ' :: ·.entryBody)).flatMap (· ++ ['}']) := by
  cases diagnostics with
  | nil => rfl
  | cons d rest =>
    have hentries : ((d :: rest).map (' ' :: ·.entryBody)).flatMap (· ++ ['}']) =
        ((d :: rest).map Diagnostic.entryChars).flatMap (' ' :: ·) := by
      rw [List.flatMap_map, List.flatMap_map]
      rfl
    rw [hentries, List.map_cons,
      Text.flatMap_cons_eq_cons_intercalate ' ' (List.cons_ne_nil _ _)]
    rfl

/-- Entries are found again by their closing braces, if no other closing braces stand in them. -/
theorem map_entryChars_inj {first second : List Diagnostic}
    (hfirst : ∀ d ∈ first, '}' ∉ d.entryBody) (hsecond : ∀ d ∈ second, '}' ∉ d.entryBody)
    (h : diagnosticsChars first = diagnosticsChars second) :
    first.map Diagnostic.entryChars = second.map Diagnostic.entryChars := by
  have hparts : ∀ {diagnostics : List Diagnostic}, (∀ d ∈ diagnostics, '}' ∉ d.entryBody) →
      ∀ part ∈ diagnostics.map (' ' :: ·.entryBody), '}' ∉ part := by
    intro diagnostics hbraces part hpart
    obtain ⟨d, hd, rfl⟩ := List.mem_map.1 hpart
    simpa using hbraces d hd
  have hentries : first.map (' ' :: ·.entryBody) = second.map (' ' :: ·.entryBody) := by
    refine Text.ended_inj (hparts hfirst) (hparts hsecond) ?_
    rw [← drop_diagnosticsChars, h, drop_diagnosticsChars]
  have hends := congrArg (List.map fun part => part.tail ++ ['}']) hentries
  rwa [List.map_map, List.map_map] at hends

/-- **A line tells its diagnostics.**  If no name of a file holds a closing brace, two lists of
diagnostics are written alike if and only if they have the same length and agree, place by place, on
the numbers of the span, the name of its file, the severity, the number of the diagnostic and the
fingerprint of its message. -/
theorem diagnosticsChars_eq_iff {first second : List Diagnostic}
    (hfirst : ∀ d ∈ first, '}' ∉ (fileName d.span.file).toList)
    (hsecond : ∀ d ∈ second, '}' ∉ (fileName d.span.file).toList) :
    diagnosticsChars first = diagnosticsChars second ↔
      List.Forall₂ Diagnostic.SameEntry first second := by
  have hentries : first.map Diagnostic.entryChars = second.map Diagnostic.entryChars ↔
      List.Forall₂ Diagnostic.SameEntry first second := by
    rw [← List.forall₂_eq_eq_eq, List.forall₂_map_left_iff, List.forall₂_map_right_iff]
    simp only [Diagnostic.entryChars_eq_iff]
  rw [← hentries]
  constructor
  · exact map_entryChars_inj (fun d hd => Diagnostic.brace_not_mem_entryBody (hfirst d hd))
      fun d hd => Diagnostic.brace_not_mem_entryBody (hsecond d hd)
  · intro h
    have hnil : first = [] ↔ second = [] := by
      rw [← List.map_eq_nil_iff, h, List.map_eq_nil_iff]
    rw [diagnosticsChars_eq, diagnosticsChars_eq, h]
    simp only [hnil]

/-- Where the directory of a file is another one, or an argument that the message does not show, the
entries are the same; in another order they are not. -/
theorem diagnosticsChars_of_other_directory :
    let unclosed : Diagnostic := ⟨⟨1002⟩, .error, { file := "a/x): Error", line := -1 }, []⟩
    let moved : Diagnostic := ⟨⟨1002⟩, .error, { file := "b/c/x): Error", line := -1 }, ["y"]⟩
    let empty : Diagnostic := ⟨⟨4002⟩, .error, {}, ["class"]⟩
    diagnosticsChars [unclosed, empty] = diagnosticsChars [moved, empty] ∧
      diagnosticsChars [unclosed, empty] ≠ diagnosticsChars [empty, moved] := by
  intro unclosed moved empty
  have hfirst : ∀ d ∈ [unclosed, empty], '}' ∉ (fileName d.span.file).toList := by decide
  have hmoved : unclosed.SameEntry moved :=
    ⟨rfl, rfl, rfl, rfl, by decide, rfl, rfl, congrArg fingerprint (by decide)⟩
  have hempty : empty.SameEntry empty := ⟨rfl, rfl, rfl, rfl, rfl, rfl, rfl, rfl⟩
  refine ⟨(diagnosticsChars_eq_iff hfirst (by decide)).2 (.cons hmoved (.cons hempty .nil)), ?_⟩
  intro h
  cases (diagnosticsChars_eq_iff hfirst (by decide)).1 h with
  | cons hentry _ => exact absurd hentry.id (by decide)

end TemplateDump
