import TemplateDump.Proofs.Text.Pieces
import TemplateDump.Span

/-!
# Reading source spans

The written form of a span is read back: each of its numbers up to the first character that is no
digit, the marks between them, and then the name of the file, which is all that is left up to the
last parenthesis.  So the name may hold anything, the marks, parentheses and line feeds among it.

* `readInt?_intDigits_append` — a number is read back in front of what is no digit;
* `read?_chars` — the reader gives what is shown of a span;
* `chars_eq_chars_iff` — so a span is known from its written form, up to the directory of its file.
-/

namespace TemplateDump

/-! ## Numbers -/

namespace Text

/-- The characters of numbers. -/
def isNumberChar (c : Char) : Bool :=
  c.isDigit || c == '-'

theorem isNumberChar_of_mem_intDigits {i : Int} {c : Char} (h : c ∈ intDigits i) :
    isNumberChar c = true := by
  have hdigit : ∀ {n : Nat}, c ∈ natDigits n → isNumberChar c = true := by
    intro n hn
    rw [isNumberChar, isDigit_of_mem_natDigits hn, Bool.true_or]
  cases i with
  | ofNat n => exact hdigit h
  | negSucc n =>
    rcases List.mem_cons.1 h with rfl | h
    · rfl
    · exact hdigit h

theorem not_mem_intDigits {c : Char} (hc : isNumberChar c = false) (i : Int) : c ∉ intDigits i := by
  intro h
  rw [isNumberChar_of_mem_intDigits h] at hc
  exact absurd hc (by decide)

theorem lineFeed_not_mem_intDigits (i : Int) : '\n' ∉ intDigits i :=
  not_mem_intDigits (by decide) i

/-! ### Reading -/

/-- Reads the digits of a natural number at the start of a text, one at least, and tells what is
behind them. -/
def readNat? (text : List Char) : Option (Nat × List Char) :=
  let digits := text.takeWhile Char.isDigit
  if digits.isEmpty then none
  else some (Nat.ofDigitChars 10 digits 0, text.dropWhile Char.isDigit)

/-- Reads a number at the start of a text, with a hyphen in front of it if it is negative. -/
def readInt? : List Char → Option (Int × List Char)
  | '-' :: text => (readNat? text).map fun (n, behind) => (-n, behind)
  | text => (readNat? text).map fun (n, behind) => (n, behind)

variable {c : Char}

theorem readNat?_natDigits_append (n : Nat) (hc : c.isDigit = false) (behind : List Char) :
    readNat? (natDigits n ++ c :: behind) = some (n, c :: behind) := by
  have hdigits : ∀ d ∈ natDigits n, d.isDigit = true := fun _ => isDigit_of_mem_natDigits
  have hstop : ∀ d ∈ (c :: behind).head?, d.isDigit = false := by
    rintro d ⟨⟩
    exact hc
  have htake : (natDigits n ++ c :: behind).takeWhile Char.isDigit = natDigits n :=
    takeWhile_append_of_border hdigits hstop
  have hdrop : (natDigits n ++ c :: behind).dropWhile Char.isDigit = c :: behind := by
    rw [List.dropWhile_append_of_pos hdigits, List.dropWhile_cons_of_neg (by simp [hc])]
  have hne : (natDigits n).isEmpty = false := by
    simpa using natDigits_ne_nil n
  rw [readNat?, htake, hdrop, ofDigitChars_natDigits]
  simp only [hne]
  rfl

/-- The digits of a natural number do not start with a hyphen. -/
theorem natDigits_append_ne_hyphen_cons (n : Nat) (behind rest : List Char) :
    natDigits n ++ behind ≠ '-' :: rest := by
  intro h
  obtain ⟨d, more, hdigits⟩ := List.exists_cons_of_ne_nil (natDigits_ne_nil n)
  rw [hdigits, List.cons_append] at h
  have hdigit : d.isDigit = true := isDigit_of_mem_natDigits (hdigits ▸ List.mem_cons_self)
  rw [(List.cons.inj h).1] at hdigit
  exact absurd hdigit (by decide)

/-- A number is read back in front of what is no digit. -/
theorem readInt?_intDigits_append (i : Int) (hc : c.isDigit = false) (behind : List Char) :
    readInt? (intDigits i ++ c :: behind) = some (i, c :: behind) := by
  cases i with
  | ofNat n =>
    rw [intDigits, readInt?, readNat?_natDigits_append n hc behind]
    · rfl
    · exact natDigits_append_ne_hyphen_cons n _
  | negSucc n =>
    rw [intDigits, List.cons_append, readInt?, readNat?_natDigits_append (n + 1) hc behind]
    rfl

end Text

/-! ## Spans -/

theorem slash_not_mem_fileNameChars (path : List Char) : '/' ∉ fileNameChars path := by
  intro h
  have hslash := List.all_eq_true.1 List.all_takeWhile '/' (List.mem_reverse.1 h)
  exact absurd hslash (by decide)

/-- A file name is its own file name. -/
@[simp] theorem fileNameChars_fileNameChars (path : List Char) :
    fileNameChars (fileNameChars path) = fileNameChars path :=
  fileNameChars_of_not_mem (slash_not_mem_fileNameChars path)

namespace SourceSpan

/-- What is shown of a span: the directory of the file is left out. -/
def shown (s : SourceSpan) : SourceSpan :=
  { s with file := fileName s.file }

theorem shown_eq_shown_iff {s t : SourceSpan} : s.shown = t.shown ↔
    fileName s.file = fileName t.file ∧ s.offset = t.offset ∧ s.line = t.line ∧
      s.column = t.column ∧ s.length = t.length := by
  simp only [shown, mk.injEq]

theorem chars_eq (s : SourceSpan) :
    s.chars = '(' :: (Text.intDigits s.offset ++ ':' :: (Text.intDigits s.line ++
      ',' :: (Text.intDigits s.column ++ ' ' :: '[' :: (Text.intDigits s.length ++
        ']' :: ' ' :: (fileNameChars s.file.toList ++ [')']))))) := by
  simp [chars]

@[simp] theorem chars_shown (s : SourceSpan) : s.shown.chars = s.chars := by
  simp [chars_eq, shown]

/-- The written form ends in a parenthesis. -/
theorem getLast?_chars (s : SourceSpan) : s.chars.getLast? = some ')' := by
  rw [chars]
  exact List.getLast?_concat

/-- But for the marks between its parts, the characters of the written form are those of the numbers
and of the file name. -/
theorem not_mem_chars {s : SourceSpan} {c : Char} (hmark : c ∉ "(:, [])".toList)
    (hnumber : Text.isNumberChar c = false) (hfile : c ∉ fileNameChars s.file.toList) :
    c ∉ s.chars := by
  have hdigits := Text.not_mem_intDigits hnumber
  rw [chars_eq]
  simp_all

/-- Reads the written form of a span.  The file is what the name of the file says. -/
def read? (text : List Char) : Option SourceSpan := do
  let '(' :: text := text | none
  let (offset, ':' :: text) ← Text.readInt? text | none
  let (line, ',' :: text) ← Text.readInt? text | none
  let (column, ' ' :: '[' :: text) ← Text.readInt? text | none
  let (length, ']' :: ' ' :: text) ← Text.readInt? text | none
  if text.getLast? = some ')' then
    some ⟨String.ofList text.dropLast, offset, line, column, length⟩
  else
    none

/-- The reader gives what is shown of a span. -/
theorem read?_chars (s : SourceSpan) : read? s.chars = some s.shown := by
  have hcolon : (':' : Char).isDigit = false := by decide
  have hcomma : (',' : Char).isDigit = false := by decide
  have hblank : (' ' : Char).isDigit = false := by decide
  have hbracket : (']' : Char).isDigit = false := by decide
  rw [chars_eq, read?]
  simp only [Text.readInt?_intDigits_append _ hcolon, Text.readInt?_intDigits_append _ hcomma,
    Text.readInt?_intDigits_append _ hblank, Text.readInt?_intDigits_append _ hbracket,
    Option.bind_eq_bind, Option.bind_some, List.getLast?_concat, List.dropLast_concat, if_true]
  rfl

/-- A span is known from its written form up to the directory of its file. -/
theorem chars_eq_chars_iff {s t : SourceSpan} : s.chars = t.chars ↔ s.shown = t.shown := by
  constructor
  · intro h
    have hread := read?_chars s
    rw [h, read?_chars t] at hread
    exact (Option.some.inj hread).symm
  · intro h
    rw [← chars_shown s, h, chars_shown]

/-- **The written form of a span is read back.**  Whatever numbers a span has and whatever its file
is called, the reader finds the four numbers and the name of the file in the written form.  So two
spans are written alike if and only if they agree on these, and what stands in front of the last
slash of the file does not matter. -/
theorem written_span_is_read_back (s : SourceSpan) :
    read? s.text.toList = some ⟨fileName s.file, s.offset, s.line, s.column, s.length⟩ ∧
      ∀ t : SourceSpan, s.text = t.text ↔
        s.offset = t.offset ∧ s.line = t.line ∧ s.column = t.column ∧ s.length = t.length ∧
          fileName s.file = fileName t.file := by
  constructor
  · rw [toList_text, read?_chars, shown]
  · intro t
    have htext : s.text = t.text ↔ s.chars = t.chars := by
      rw [← String.toList_inj, toList_text, toList_text]
    rw [htext, chars_eq_chars_iff, shown_eq_shown_iff]
    constructor
    · rintro ⟨hfile, hoffset, hline, hcolumn, hlength⟩
      exact ⟨hoffset, hline, hcolumn, hlength, hfile⟩
    · rintro ⟨hoffset, hline, hcolumn, hlength, hfile⟩
      exact ⟨hfile, hoffset, hline, hcolumn, hlength⟩

/-- The end of a name that looks like the end of the form is the name's. -/
example : read? (text ⟨"a/x) [1] - \n)", -1, 0, 7, 3⟩).toList =
    some ⟨"x) [1] - \n)", -1, 0, 7, 3⟩ := by
  decide

/-- Whether there is a span is known as well. -/
theorem map_shown_inj {first second : Option SourceSpan}
    (h : ((first.map shown).map chars).toList = ((second.map shown).map chars).toList) :
    first.map shown = second.map shown := by
  cases first with
  | none =>
    cases second with
    | none => rfl
    | some t => exact absurd h (by simp)
  | some s =>
    cases second with
    | none => exact absurd h (by simp)
    | some t =>
      have hchars : s.shown.chars = t.shown.chars := (List.cons.inj h).1
      rw [chars_shown, chars_shown] at hchars
      exact congrArg some (chars_eq_chars_iff.1 hchars)

end SourceSpan

end TemplateDump
