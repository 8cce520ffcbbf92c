import TemplateDump.Proofs.Text.Cuts
import Mathlib.Computability.StateTransition

/-!
# Replacing in place

A pattern can be replaced in the text itself: look for an occurrence from a position on, put the
replacement in its place, move the position behind that, and so on until no occurrence is found.
Each round makes the text shorter or longer, and what it puts in may hold the pattern.

What is in front of the position is finished and what is behind it has not been touched yet, so the
rounds go along the pieces of the text (`Cursor.round?_between_cut`, `Cursor.reaches_iff`).  They
come to an end, and leave the pieces with the replacement between them (`SplitsInto.inPlace_eq`),
just like one scan from the left (`inPlace_eq_replaceAll`).  Only an empty pattern is found over and
over again (`inPlace_nil`).

The members of a text may be characters or bytes.
-/

namespace TemplateDump.Text

open StateTransition

/-! ## Rounds -/

section Rounds

variable {α : Type} [DecidableEq α]

/-- The first position from `start` on at which the pattern stands in the text. -/
def findFrom? (pattern text : List α) (start : Nat) : Option Nat :=
  (List.range' start (text.length + 1 - start)).find? fun i => pattern.isPrefixOf (text.drop i)

/-- The text with `new` in the place of its members from a position on, `count` of them. -/
def overwrite (text : List α) (position count : Nat) (new : List α) : List α :=
  text.take position ++ (new ++ text.drop (position + count))

/-- A text that is being rewritten, and the position from which on the pattern is looked for. -/
structure Cursor (α : Type) where
  text : List α
  position : Nat
deriving DecidableEq

/-- Replaces the first occurrence from the position on, if there is one, and moves the position
behind what is put in. -/
def Cursor.round? (pattern new : List α) (cursor : Cursor α) : Option (Cursor α) :=
  (findFrom? pattern cursor.text cursor.position).map fun found =>
    ⟨overwrite cursor.text found pattern.length new, found + new.length⟩

/-- What the rounds leave of a text if they come to an end. -/
noncomputable def inPlace (pattern new text : List α) : Part (List α) :=
  (eval (Cursor.round? pattern new) ⟨text, 0⟩).map Cursor.text

end Rounds

/-! ## Searching -/

section Searching

variable {α : Type} [DecidableEq α] {pattern text piece rest done : List α}

theorem findFrom?_eq_some_iff {start found : Nat} :
    findFrom? pattern text start = some found ↔
      (start ≤ found ∧ found ≤ text.length) ∧ pattern <+: text.drop found ∧
        ∀ i, start ≤ i → i < found → ¬ pattern <+: text.drop i := by
  simp only [findFrom?, List.find?_range'_eq_some, List.isPrefixOf_iff_prefix, List.mem_range'_1,
    Bool.not_eq_true', ← Bool.not_eq_true]
  constructor
  · rintro ⟨hstarts, ⟨hle, hlt⟩, hfirst⟩
    exact ⟨⟨hle, by omega⟩, hstarts, hfirst⟩
  · rintro ⟨⟨hle, hlength⟩, hstarts, hfirst⟩
    exact ⟨hstarts, ⟨hle, by omega⟩, hfirst⟩

/-- Without an occurrence behind the position none is found, whatever is in front of it. -/
theorem findFrom?_eq_none (hnone : ¬ pattern <:+: text) :
    findFrom? pattern (done ++ text) done.length = none := by
  rw [Option.eq_none_iff_forall_ne_some]
  intro found hfound
  obtain ⟨⟨hle, -⟩, hstarts, -⟩ := findFrom?_eq_some_iff.1 hfound
  obtain ⟨i, rfl⟩ := Nat.exists_eq_add_of_le hle
  rw [List.drop_length_add_append] at hstarts
  exact hnone (hstarts.isInfix.trans (List.drop_suffix i text).isInfix)

/-- The first occurrence behind the position is found, whatever is in front of it. -/
theorem IsFirstCut.findFrom?_eq (h : IsFirstCut pattern text piece rest) :
    findFrom? pattern (done ++ text) done.length = some (done.length + piece.length) := by
  have hlength := h.occurs.length_le
  rw [List.length_append] at hlength
  refine findFrom?_eq_some_iff.2 ⟨⟨Nat.le_add_right _ _, ?_⟩, ?_, ?_⟩
  · rw [List.length_append]
    omega
  · rw [List.drop_length_add_append, h.eq_append, List.drop_left]
    exact List.prefix_append _ _
  · intro i hle hlt hstarts
    obtain ⟨j, rfl⟩ := Nat.exists_eq_add_of_le hle
    rw [List.drop_length_add_append] at hstarts
    -- An occurrence in front of the first one.
    have hoccurs : text.take j ++ pattern <+: text := by
      have hfront := (List.prefix_append_right_inj (text.take j)).2 hstarts
      rwa [List.take_append_drop] at hfront
    have hfirst := h.first _ hoccurs
    rw [List.length_take] at hfirst
    omega

end Searching

theorem overwrite_append {α : Type} (front old new rest : List α) :
    overwrite (front ++ (old ++ rest)) front.length old.length new = front ++ (new ++ rest) := by
  rw [overwrite, List.take_left, List.drop_length_add_append, List.drop_left]

/-! ## The rounds along the pieces -/

namespace Cursor

section Between

variable {α : Type} {pattern text : List α} {behind : List (List α)}

/-- The cursor between two pieces: those in front have the replacement behind each already, those
behind still have the pattern between them. -/
def between (pattern new : List α) (front behind : List (List α)) : Cursor α :=
  ⟨front.flatMap (· ++ new) ++ pattern.intercalate behind, (front.flatMap (· ++ new)).length⟩

theorem between_eq (h : SplitsInto pattern text behind) (new : List α) (front : List (List α)) :
    between pattern new front behind =
      ⟨front.flatMap (· ++ new) ++ text, (front.flatMap (· ++ new)).length⟩ := by
  rw [between, h.intercalate_eq]

end Between

variable {α : Type} [DecidableEq α] {pattern text piece rest : List α}
  {pieces behind : List (List α)}

/-- Behind the last occurrence there is no round. -/
theorem round?_between_whole (hnone : ¬ pattern <:+: text) (new : List α)
    (front : List (List α)) : round? pattern new (between pattern new front [text]) = none := by
  rw [between_eq (.whole hnone), round?, findFrom?_eq_none hnone, Option.map_none]

/-- A round takes the cursor over one piece. -/
theorem round?_between_cut (hcut : IsFirstCut pattern text piece rest)
    (hrest : SplitsInto pattern rest behind) (new : List α) (front : List (List α)) :
    round? pattern new (between pattern new front (piece :: behind)) =
      some (between pattern new (front ++ [piece]) behind) := by
  have hdone : (front ++ [piece]).flatMap (· ++ new) =
      front.flatMap (· ++ new) ++ piece ++ new := by
    simp
  rw [between_eq (.cut hcut hrest), between_eq hrest, round?, hcut.findFrom?_eq, Option.map_some,
    hdone]
  generalize front.flatMap (· ++ new) = done
  rw [hcut.eq_append, ← List.append_assoc, ← List.length_append, overwrite_append]
  simp only [List.append_assoc, List.length_append, Nat.add_assoc]

/-- The position is behind the replacement, which holds the pattern. -/
example : round? "aa".toList "aaa".toList ⟨"baaaa".toList, 0⟩ = some ⟨"baaaaa".toList, 4⟩ := by
  decide

/-- After any number of rounds the cursor is between two pieces, and what is behind it is the end of
the original text. -/
theorem between_of_reaches {new : List α} {cursor : Cursor α} (h : SplitsInto pattern text pieces)
    (hreaches : Reaches (round? pattern new) ⟨text, 0⟩ cursor) :
    ∃ front behind rest, front ++ behind = pieces ∧ SplitsInto pattern rest behind ∧
      rest <:+ text ∧ cursor = between pattern new front behind := by
  induction hreaches with
  | refl => exact ⟨[], pieces, text, rfl, h, List.suffix_rfl, (between_eq h new []).symm⟩
  | tail hreaches hround ih =>
    obtain ⟨front, behind, rest, rfl, hrest, hsuffix, rfl⟩ := ih
    cases hrest with
    | whole hnone =>
      rw [round?_between_whole hnone] at hround
      exact absurd hround (Option.not_mem_none _)
    | @cut _ piece more behind hcut hmore =>
      rw [round?_between_cut hcut hmore] at hround
      have hbehind : more <:+ rest := by
        rw [hcut.eq_append, ← List.append_assoc]
        exact List.suffix_append _ _
      exact ⟨front ++ [piece], behind, more, by simp, hmore, hbehind.trans hsuffix,
        (Option.mem_some_iff.1 hround).symm⟩

/-- The rounds take the cursor over any number of pieces, but not over the last one. -/
theorem reaches_between {front : List (List α)} (h : SplitsInto pattern text (front ++ behind))
    (hbehind : behind ≠ []) (new : List α) (start : List (List α)) :
    Reaches (round? pattern new) (between pattern new start (front ++ behind))
      (between pattern new (start ++ front) behind) := by
  induction front generalizing text start with
  | nil =>
    rw [List.append_nil]
    exact .refl
  | cons piece front ih =>
    rw [List.cons_append] at h
    generalize hpieces : front ++ behind = pieces at h
    cases h with
    | whole hnone => exact absurd (List.append_eq_nil_iff.1 hpieces).2 hbehind
    | cut hcut hrest =>
      subst hpieces
      have hround := round?_between_cut hcut hrest new start
      have hreaches := ih hrest (start ++ [piece])
      rw [List.append_assoc, List.singleton_append] at hreaches
      exact .head hround hreaches

/-- The cursor comes to the places between two pieces, and to no others. -/
theorem reaches_iff {new : List α} {cursor : Cursor α} (h : SplitsInto pattern text pieces) :
    Reaches (round? pattern new) ⟨text, 0⟩ cursor ↔
      ∃ front behind, front ++ behind = pieces ∧ behind ≠ [] ∧
        cursor = between pattern new front behind := by
  constructor
  · intro hreaches
    obtain ⟨front, behind, rest, hpieces, hrest, -, hcursor⟩ := between_of_reaches h hreaches
    exact ⟨front, behind, hpieces, hrest.ne_nil, hcursor⟩
  · rintro ⟨front, behind, rfl, hbehind, rfl⟩
    have hreaches := reaches_between h hbehind new []
    rwa [between_eq h] at hreaches

/-- From any place between two pieces the rounds come to an end. -/
theorem eval_between (h : SplitsInto pattern text behind) (new : List α)
    (front : List (List α)) :
    (eval (round? pattern new) (between pattern new front behind)).map Cursor.text =
      Part.some (front.flatMap (· ++ new) ++ new.intercalate behind) := by
  induction h generalizing front with
  | whole hnone =>
    have hend := mem_eval.2 ⟨.refl, round?_between_whole hnone new front⟩
    rw [Part.eq_some_iff.2 hend, Part.map_some, between, List.intercalate_singleton,
      List.intercalate_singleton]
  | cut hcut hrest ih =>
    have hround := round?_between_cut hcut hrest new front
    rw [reaches_eval (.single hround), ih, List.intercalate_cons_of_ne_nil hrest.ne_nil]
    simp

end Cursor

variable {α : Type} [DecidableEq α]

/-- The rounds leave the pieces with the replacement between them. -/
theorem SplitsInto.inPlace_eq {pattern text : List α} {pieces : List (List α)}
    (h : SplitsInto pattern text pieces) (new : List α) :
    inPlace pattern new text = Part.some (new.intercalate pieces) := by
  have hrounds := Cursor.eval_between h new []
  rwa [Cursor.between_eq h] at hrounds

/-- Replacing in place gives what one scan from the left gives. -/
theorem inPlace_eq_replaceAll {pattern : List Char} (hpattern : pattern ≠ [])
    (new text : List Char) :
    inPlace pattern new text = Part.some (replaceAll pattern new text) := by
  obtain ⟨pieces, hpieces⟩ := exists_splitsInto hpattern text
  rw [hpieces.inPlace_eq, hpieces.replaceAll_eq hpattern]

/-- An empty pattern is found over and over again. -/
theorem inPlace_nil (new text : List α) : inPlace [] new text = Part.none := by
  rw [inPlace, Part.eq_none_iff]
  intro result hresult
  obtain ⟨last, hlast, -⟩ := (Part.mem_map_iff _).1 hresult
  obtain ⟨hreaches, hnone⟩ := mem_eval.1 hlast
  -- The position never gets past the end of the text, so there is always one more round.
  have hinside : last.position ≤ last.text.length := by
    clear hnone hlast
    induction hreaches with
    | refl => exact Nat.zero_le _
    | tail hreaches hround ih =>
      obtain ⟨found, hfound, rfl⟩ := Option.map_eq_some_iff.1 hround
      obtain ⟨⟨-, hle⟩, -⟩ := findFrom?_eq_some_iff.1 hfound
      simp only [overwrite, List.length_append, List.length_take, Nat.min_eq_left hle]
      omega
  have hfound : findFrom? [] last.text last.position = some last.position :=
    findFrom?_eq_some_iff.2 ⟨⟨Nat.le_refl _, hinside⟩, List.nil_prefix, fun i hle hlt => by omega⟩
  rw [Cursor.round?, hfound] at hnone
  exact absurd hnone (Option.some_ne_none _)

end TemplateDump.Text
