import TemplateDump.Proofs.Text.Replace

/-!
# Texts cut at a pattern

A text is cut at the first occurrence of a pattern, what is behind that at the first occurrence in
it, and so on until there is none: `SplitsInto` says which pieces this gives.  For a pattern that is
not empty there are such pieces (`exists_splitsInto`), and no others (`SplitsInto.unique`).  With the
pattern between them they are the text again (`SplitsInto.intercalate_eq`), and with something else
between them they are the text with the pattern replaced (`SplitsInto.replaceAll_eq`).
-/

namespace TemplateDump.Text

variable {α : Type} {pattern text piece rest : List α} {pieces : List (List α)}

/-! ## Occurrences -/

/-- The first occurrence of the pattern in the text stands between the piece and the rest. -/
structure IsFirstCut (pattern text piece rest : List α) : Prop where
  eq_append : text = piece ++ (pattern ++ rest)
  first : ∀ front, front ++ pattern <+: text → piece.length ≤ front.length

theorem IsFirstCut.occurs (h : IsFirstCut pattern text piece rest) : piece ++ pattern <+: text :=
  ⟨rest, by rw [h.eq_append, List.append_assoc]⟩

theorem IsFirstCut.unique {piece' rest' : List α} (h : IsFirstCut pattern text piece rest)
    (h' : IsFirstCut pattern text piece' rest') : piece = piece' ∧ rest = rest' := by
  have hlength : piece.length = piece'.length :=
    Nat.le_antisymm (h.first piece' h'.occurs) (h'.first piece h.occurs)
  obtain ⟨hpiece, hbehind⟩ := List.append_inj (h.eq_append.symm.trans h'.eq_append) hlength
  exact ⟨hpiece, List.append_cancel_left hbehind⟩

/-! ## Pieces -/

/-- The pieces between the leftmost occurrences of the pattern that do not overlap. -/
inductive SplitsInto (pattern : List α) : List α → List (List α) → Prop
  | whole {text : List α} (hnone : ¬ pattern <:+: text) : SplitsInto pattern text [text]
  | cut {text piece rest : List α} {pieces : List (List α)}
      (hcut : IsFirstCut pattern text piece rest) (hrest : SplitsInto pattern rest pieces) :
      SplitsInto pattern text (piece :: pieces)

theorem SplitsInto.ne_nil (h : SplitsInto pattern text pieces) : pieces ≠ [] := by
  cases h with
  | whole hnone => exact List.cons_ne_nil _ _
  | cut hcut hrest => exact List.cons_ne_nil _ _

/-- The pieces with the pattern between them are the text. -/
theorem SplitsInto.intercalate_eq (h : SplitsInto pattern text pieces) :
    pattern.intercalate pieces = text := by
  induction h with
  | whole hnone => exact List.intercalate_singleton
  | cut hcut hrest ih =>
    rw [List.intercalate_cons_of_ne_nil hrest.ne_nil, ih, hcut.eq_append, List.append_assoc]

theorem SplitsInto.unique {pieces' : List (List α)} (h : SplitsInto pattern text pieces)
    (h' : SplitsInto pattern text pieces') : pieces = pieces' := by
  induction h generalizing pieces' with
  | whole hnone =>
    cases h' with
    | whole => rfl
    | cut hcut' => exact absurd ⟨_, hcut'.occurs⟩ hnone
  | cut hcut hrest ih =>
    cases h' with
    | whole hnone' => exact absurd ⟨_, hcut.occurs⟩ hnone'
    | cut hcut' hrest' =>
      obtain ⟨rfl, rfl⟩ := hcut.unique hcut'
      rw [ih hrest']

/-- A member in front at which no occurrence starts belongs to the first piece. -/
theorem SplitsInto.cons {c : α} (hnot : ¬ pattern <+: c :: text)
    (h : SplitsInto pattern text (piece :: pieces)) :
    SplitsInto pattern (c :: text) ((c :: piece) :: pieces) := by
  cases h with
  | whole hnone =>
    refine .whole fun hin => ?_
    rcases List.infix_cons_iff.1 hin with hstarts | hin
    · exact hnot hstarts
    · exact hnone hin
  | cut hcut hrest =>
    refine .cut ⟨by rw [hcut.eq_append, List.cons_append], fun front hfront => ?_⟩ hrest
    cases front with
    | nil => exact absurd hfront hnot
    | cons d front =>
      exact Nat.succ_le_succ (hcut.first front (List.cons_prefix_cons.1 hfront).2)

theorem exists_splitsInto (hpattern : pattern ≠ []) (text : List α) :
    ∃ pieces, SplitsInto pattern text pieces := by
  induction text using scan_induction hpattern with
  | nil => exact ⟨[[]], .whole fun hin => hpattern (List.infix_nil.1 hin)⟩
  | occurrence rest ih =>
    obtain ⟨pieces, hpieces⟩ := ih
    exact ⟨[] :: pieces, .cut ⟨rfl, fun _ _ => Nat.zero_le _⟩ hpieces⟩
  | other c rest hnot ih =>
    obtain ⟨pieces, hpieces⟩ := ih
    obtain ⟨piece, more, rfl⟩ := List.exists_cons_of_ne_nil hpieces.ne_nil
    exact ⟨_, hpieces.cons hnot⟩

/-! ## Replacing -/

/-- At the first occurrence the replacement is put in, and nothing is replaced in front of it. -/
theorem IsFirstCut.replaceAll_eq {pattern text piece rest : List Char} (hpattern : pattern ≠ [])
    (h : IsFirstCut pattern text piece rest) (new : List Char) :
    replaceAll pattern new text = piece ++ (new ++ replaceAll pattern new rest) := by
  have hkept : replaceAll pattern new (piece ++ (pattern ++ rest)) =
      piece ++ replaceAll pattern new (pattern ++ rest) := by
    refine replaceAll_append_of_not_prefix (fun tail hne htail hstarts => ?_) new
    obtain ⟨start, rfl⟩ := htail
    -- The occurrence at the tail comes before the first one.
    have hoccurs : start ++ pattern <+: text := by
      rw [h.eq_append, List.append_assoc]
      exact (List.prefix_append_right_inj start).2 hstarts
    have hlength := h.first start hoccurs
    have hpos := List.length_pos_iff.2 hne
    rw [List.length_append] at hlength
    omega
  rw [h.eq_append, hkept, replaceAll_append_self hpattern]

/-- A text with a pattern replaced is its pieces with the replacement between them. -/
theorem SplitsInto.replaceAll_eq {pattern text : List Char} {pieces : List (List Char)}
    (hpattern : pattern ≠ []) (h : SplitsInto pattern text pieces) (new : List Char) :
    replaceAll pattern new text = new.intercalate pieces := by
  induction h with
  | whole hnone => rw [replaceAll_eq_self hnone, List.intercalate_singleton]
  | cut hcut hrest ih =>
    rw [hcut.replaceAll_eq hpattern, ih, List.intercalate_cons_of_ne_nil hrest.ne_nil,
      List.append_assoc]

end TemplateDump.Text
