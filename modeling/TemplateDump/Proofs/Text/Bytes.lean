import TemplateDump.Proofs.Text.InPlace

/-!
# Replacing in the bytes of a text

In the bytes of a text a pattern stands exactly where it stands among the characters: the first byte
of a character tells that one starts there, so no occurrence starts inside a character
(`exists_utf8_of_occurs`).  Cutting the bytes of a text at the bytes of a pattern therefore gives the
bytes of the pieces (`SplitsInto.utf8`), and replacing in the bytes gives the bytes of the text with
the pattern replaced (`inPlace_utf8`).
-/

namespace TemplateDump.Text

/-- The bytes of a text in UTF-8. -/
def utf8 (text : List Char) : List UInt8 :=
  text.flatMap String.utf8EncodeChar

variable {pattern text piece rest : List Char} {pieces : List (List Char)}

@[simp] theorem utf8_nil : utf8 [] = [] := rfl

@[simp] theorem utf8_append (first second : List Char) :
    utf8 (first ++ second) = utf8 first ++ utf8 second :=
  List.flatMap_append

theorem utf8_cons (c : Char) (text : List Char) :
    utf8 (c :: text) = String.utf8EncodeChar c ++ utf8 text :=
  List.flatMap_cons

theorem utf8_ne_nil (h : text ≠ []) : utf8 text ≠ [] := by
  obtain ⟨c, rest, rfl⟩ := List.exists_cons_of_ne_nil h
  rw [utf8_cons]
  exact List.append_ne_nil_of_left_ne_nil String.utf8EncodeChar_ne_nil _

theorem utf8_intercalate (new : List Char) (pieces : List (List Char)) :
    utf8 (new.intercalate pieces) = (utf8 new).intercalate (pieces.map utf8) := by
  induction pieces with
  | nil => rfl
  | cons piece rest ih =>
    cases rest with
    | nil => simp
    | cons next more =>
      rw [List.intercalate_cons_cons, utf8_append, utf8_append, ih]
      simp

/-! ## Where characters start -/

/-- A text whose bytes come first is the beginning. -/
theorem prefix_of_utf8_prefix (h : utf8 pattern <+: utf8 text) : pattern <+: text := by
  obtain ⟨behind, hbehind⟩ := h
  refine List.isPrefix_of_utf8Encode_append_eq_utf8Encode behind.toByteArray ?_
  rw [List.utf8Encode, List.utf8Encode, ← List.toByteArray_append]
  exact congrArg _ hbehind

/-- Among the bytes of a character only the first one tells that a character starts. -/
theorem eq_nil_of_utf8EncodeChar_eq {c : Char} {front more : List UInt8} {b : UInt8}
    (h : String.utf8EncodeChar c = front ++ b :: more) (hb : b.IsUTF8FirstByte) : front = [] := by
  have hlength : front.length < (String.utf8EncodeChar c).length := by
    rw [h, List.length_append, List.length_cons]
    omega
  have hget : (String.utf8EncodeChar c)[front.length] = b := by
    simp only [h, List.getElem_append_right (Nat.le_refl _), Nat.sub_self, List.getElem_cons_zero]
  rw [← hget] at hb
  exact List.length_eq_zero_iff.1 (UInt8.isUTF8FirstByte_getElem_utf8EncodeChar.1 hb)

/-- The bytes of a text start with one that tells that a character starts. -/
theorem exists_utf8_eq_cons (h : text ≠ []) :
    ∃ b more, utf8 text = b :: more ∧ b.IsUTF8FirstByte := by
  obtain ⟨c, rest, rfl⟩ := List.exists_cons_of_ne_nil h
  obtain ⟨b, more, hc⟩ := List.exists_cons_of_ne_nil (String.utf8EncodeChar_ne_nil (c := c))
  refine ⟨b, more ++ utf8 rest, by rw [utf8_cons, hc, List.cons_append], ?_⟩
  have hfirst := UInt8.isUTF8FirstByte_getElem_zero_utf8EncodeChar (c := c)
  simpa only [hc, List.getElem_cons_zero] using hfirst

/-- Where the bytes of a pattern stand in the bytes of a text, the pattern stands in the text. -/
theorem exists_utf8_of_occurs (hpattern : pattern ≠ []) {front : List UInt8}
    (h : front ++ utf8 pattern <+: utf8 text) :
    ∃ start, utf8 start = front ∧ start ++ pattern <+: text := by
  induction text generalizing front with
  | nil =>
    have hnil := List.eq_nil_of_prefix_nil h
    exact absurd (List.append_eq_nil_iff.1 hnil).2 (utf8_ne_nil hpattern)
  | cons c rest ih =>
    obtain ⟨behind, hbehind⟩ := h
    have hsplit := hbehind
    rw [utf8_cons, List.append_assoc, List.append_eq_append_iff] at hsplit
    rcases hsplit with ⟨inside, hchar, hinside⟩ | ⟨front', rfl, hrest⟩
    · cases inside with
      | nil =>
        refine ⟨[c], ?_, ?_⟩
        · simp [utf8_cons, hchar]
        · have hstarts := prefix_of_utf8_prefix ⟨behind, hinside⟩
          exact List.cons_prefix_cons.2 ⟨rfl, hstarts⟩
      | cons b more =>
        -- The pattern starts within the bytes of this character, so with the first of them.
        obtain ⟨b', more', hpattern', hfirst⟩ := exists_utf8_eq_cons hpattern
        rw [hpattern', List.cons_append, List.cons_append] at hinside
        obtain rfl := (List.cons.inj hinside).1
        obtain rfl := eq_nil_of_utf8EncodeChar_eq hchar hfirst
        exact ⟨[], rfl, prefix_of_utf8_prefix ⟨behind, hbehind⟩⟩
    · obtain ⟨start, rfl, hstart⟩ := ih ⟨behind, by rw [hrest, List.append_assoc]⟩
      exact ⟨c :: start, utf8_cons c start, List.cons_prefix_cons.2 ⟨rfl, hstart⟩⟩

/-! ## Cutting -/

theorem IsFirstCut.utf8 (hpattern : pattern ≠ []) (h : IsFirstCut pattern text piece rest) :
    IsFirstCut (utf8 pattern) (utf8 text) (utf8 piece) (utf8 rest) where
  eq_append := by rw [h.eq_append, utf8_append, utf8_append]
  first front hfront := by
    obtain ⟨start, rfl, hstart⟩ := exists_utf8_of_occurs hpattern hfront
    have hpiece : piece <+: text := (List.prefix_append _ _).trans h.occurs
    obtain ⟨more, rfl⟩ := List.prefix_of_prefix_length_le hpiece
      ((List.prefix_append _ _).trans hstart) (h.first start hstart)
    rw [utf8_append, List.length_append]
    exact Nat.le_add_right _ _

/-- The bytes of a text are cut at the bytes of the pattern where the text is cut at the pattern. -/
theorem SplitsInto.utf8 (hpattern : pattern ≠ []) (h : SplitsInto pattern text pieces) :
    SplitsInto (utf8 pattern) (utf8 text) (pieces.map utf8) := by
  induction h with
  | whole hnone =>
    refine .whole fun hin => ?_
    obtain ⟨front, hfront⟩ := hin
    obtain ⟨start, -, hstart⟩ := exists_utf8_of_occurs hpattern hfront
    exact hnone ⟨start, hstart⟩
  | cut hcut hrest ih => exact .cut (hcut.utf8 hpattern) ih

/-! ## Replacing -/

/-- Replacing in place gives the bytes of the text with the pattern replaced. -/
theorem inPlace_utf8 (hpattern : pattern ≠ []) (new text : List Char) :
    inPlace (utf8 pattern) (utf8 new) (utf8 text) =
      Part.some (utf8 (replaceAll pattern new text)) := by
  obtain ⟨pieces, hpieces⟩ := exists_splitsInto hpattern text
  rw [(hpieces.utf8 hpattern).inPlace_eq, hpieces.replaceAll_eq hpattern, utf8_intercalate]

end TemplateDump.Text
