import TemplateDump.Diagnostic.Basic
import TemplateDump.Proofs.Text.Bytes

/-!
# Messages made in place

The arguments of a message are put into the bytes of its format one after the other, each by
replacing its placeholder in place.  `rewritten_in_place` says what replacing in place does to a
text, whatever is replaced by what, and so what the passes of a message come to.
-/

namespace TemplateDump

open StateTransition Text

/-- The passes for all arguments, the first of which has number `index`, each of them in place. -/
noncomputable def passesInPlace : Nat → List (List UInt8) → List UInt8 → Part (List UInt8)
  | _, [], text => Part.some text
  | index, argument :: rest, text =>
    (inPlace (utf8 (placeholder index)) argument text).bind (passesInPlace (index + 1) rest)

/-- The passes come to an end, with the bytes of the text that has the arguments in it. -/
theorem passesInPlace_utf8 (index : Nat) (arguments : List String) (text : List Char) :
    passesInPlace index (arguments.map fun argument => utf8 argument.toList) (utf8 text) =
      Part.some (utf8 (substitutePasses index arguments text)) := by
  induction arguments generalizing index text with
  | nil => rfl
  | cons argument rest ih =>
    have hpattern : placeholder index ≠ [] := List.cons_ne_nil _ _
    rw [List.map_cons, passesInPlace, inPlace_utf8 hpattern, Part.bind_some, ih, substitutePasses]

/-- **Replacing in place.**  For texts of any members, characters or bytes, the rounds come to an end
if and only if the pattern is not empty.  The text is then cut in exactly one way at the leftmost
occurrences of the pattern that do not overlap, and the rounds leave its pieces with the replacement
between them, whatever the replacement is.  On the way the cursor comes to the places between two
pieces and to no others: in front of it each piece has the replacement behind it, and behind it is
the untouched end of the text, so what was put in is never searched.

For the characters of a text this is what `replaceAll` gives, for its bytes the bytes of that, and
for the passes of a message the bytes of what `substitutePasses` gives. -/
theorem rewritten_in_place :
    (∀ {α : Type} [DecidableEq α] (pattern text : List α),
      (∀ new, (inPlace pattern new text).Dom ↔ pattern ≠ []) ∧
      (pattern ≠ [] → ∃ pieces, SplitsInto pattern text pieces ∧
        (∀ other, SplitsInto pattern text other → other = pieces) ∧
        ∀ new, inPlace pattern new text = Part.some (new.intercalate pieces) ∧
          ∀ cursor, (Reaches (Cursor.round? pattern new) ⟨text, 0⟩ cursor ↔
              ∃ front behind, front ++ behind = pieces ∧ behind ≠ [] ∧
                cursor = Cursor.between pattern new front behind) ∧
            (Reaches (Cursor.round? pattern new) ⟨text, 0⟩ cursor →
              cursor.text.drop cursor.position <:+ text))) ∧
    (∀ {pattern : List Char}, pattern ≠ [] → ∀ new text,
      inPlace pattern new text = Part.some (replaceAll pattern new text) ∧
      inPlace (utf8 pattern) (utf8 new) (utf8 text) =
        Part.some (utf8 (replaceAll pattern new text))) ∧
    ∀ (index : Nat) (arguments : List String) (text : List Char),
      passesInPlace index (arguments.map fun argument => utf8 argument.toList) (utf8 text) =
        Part.some (utf8 (substitutePasses index arguments text)) := by
  refine ⟨fun pattern text => ⟨fun new => ⟨?_, fun hpattern => ?_⟩, fun hpattern => ?_⟩,
    fun hpattern new text => ?_, passesInPlace_utf8⟩
  · rintro hends rfl
    rw [inPlace_nil] at hends
    exact hends
  · obtain ⟨pieces, hpieces⟩ := exists_splitsInto hpattern text
    rw [hpieces.inPlace_eq]
    exact trivial
  · obtain ⟨pieces, hpieces⟩ := exists_splitsInto hpattern text
    refine ⟨pieces, hpieces, fun other hother => hother.unique hpieces, fun new =>
      ⟨hpieces.inPlace_eq new, fun cursor => ⟨Cursor.reaches_iff hpieces, fun hreaches => ?_⟩⟩⟩
    obtain ⟨front, behind, rest, -, hrest, hsuffix, rfl⟩ :=
      Cursor.between_of_reaches hpieces hreaches
    rw [Cursor.between_eq hrest, List.drop_left]
    exact hsuffix
  · exact ⟨inPlace_eq_replaceAll hpattern new text, inPlace_utf8 hpattern new text⟩

/-- Occurrences that overlap, behind a character of two bytes, and a replacement that holds the
pattern. -/
theorem rewritten_in_place_of_overlap :
    "aa".toList ≠ [] ∧
      (∃ pieces, SplitsInto "aa".toList "éaaaaab".toList pieces ∧
        "|".toList.intercalate pieces = "é||ab".toList) ∧
      inPlace (utf8 "aa".toList) (utf8 "aaa".toList) (utf8 "éaaaaab".toList) =
        Part.some (utf8 "éaaaaaaab".toList) := by
  have hpattern : "aa".toList ≠ [] := by decide
  obtain ⟨halong, hscan, -⟩ := rewritten_in_place
  obtain ⟨-, hpieces⟩ := halong "aa".toList "éaaaaab".toList
  obtain ⟨pieces, hsplits, -, hresult⟩ := hpieces hpattern
  refine ⟨hpattern, ⟨pieces, hsplits, ?_⟩, ?_⟩
  · have hbars := (hresult "|".toList).1.symm.trans (hscan hpattern "|".toList _).1
    rw [Part.some_inj.1 hbars]
    decide
  · rw [(hscan hpattern "aaa".toList _).2]
    have hreplaced : replaceAll "aa".toList "aaa".toList "éaaaaab".toList = "éaaaaaaab".toList := by
      decide
    rw [hreplaced]

end TemplateDump
