import TemplateDump.Text.Replace

/-!
# Reasoning about replacements

A replacement meets an occurrence of the pattern, or keeps a character, and goes on behind it:
`scan_induction` is the induction along these steps.  What is in front of the first occurrence is
kept (`replaceAll_append_of_not_prefix`).  For a pattern of one character `replaceAll_singleton`
replaces each character on its own.

Where everything that is put into a text starts with the same character, the result starts like the
text up to the first such character in it (`StartsAlike`).
-/

namespace TemplateDump.Text

/-- Induction along a scan: at each place there is an occurrence of the pattern, behind which the
scan goes on, or a character that is kept. -/
theorem scan_induction {α : Type} {pattern : List α} (hpattern : pattern ≠ [])
    {motive : List α → Prop} (nil : motive [])
    (occurrence : ∀ rest, motive rest → motive (pattern ++ rest))
    (other : ∀ c rest, ¬ pattern <+: c :: rest → motive rest → motive (c :: rest))
    (text : List α) : motive text := by
  induction hn : text.length using Nat.strongRecOn generalizing text with
  | ind n ih =>
    cases text with
    | nil => exact nil
    | cons c rest =>
      by_cases h : pattern <+: c :: rest
      · obtain ⟨behind, hbehind⟩ := h
        have hlength : behind.length < n := by
          have hpos := List.length_pos_iff.2 hpattern
          rw [← hn, ← hbehind, List.length_append]
          omega
        rw [← hbehind]
        exact occurrence behind (ih behind.length hlength behind rfl)
      · exact other c rest h (ih rest.length (by rw [← hn]; simp) rest rfl)

/-- In front of a text nothing is replaced if no occurrence starts there. -/
theorem replaceAll_append_of_not_prefix {pattern front rest : List Char}
    (h : ∀ tail, tail ≠ [] → tail <:+ front → ¬ pattern <+: tail ++ rest) (new : List Char) :
    replaceAll pattern new (front ++ rest) = front ++ replaceAll pattern new rest := by
  induction front with
  | nil => rfl
  | cons c front ih =>
    have hnot : ¬ pattern <+: c :: (front ++ rest) :=
      h (c :: front) (List.cons_ne_nil _ _) List.suffix_rfl
    have hkept := ih fun tail hne htail => h tail hne (htail.trans (List.suffix_cons c front))
    rw [List.cons_append, replaceAll_cons_of_not hnot, hkept, List.cons_append]

/-- A text in which the pattern does not occur is left as it is. -/
theorem replaceAll_eq_self {pattern text : List Char} (h : ¬ pattern <:+: text)
    (new : List Char) : replaceAll pattern new text = text := by
  have hkept : replaceAll pattern new (text ++ []) = text ++ replaceAll pattern new [] := by
    refine replaceAll_append_of_not_prefix (fun tail _ htail hstarts => ?_) new
    rw [List.append_nil] at hstarts
    exact h (hstarts.isInfix.trans htail.isInfix)
  rwa [replaceAll_nil, List.append_nil] at hkept

/-- Where the first character of the pattern does not stand, nothing is replaced. -/
theorem replaceAll_append_of_not_mem {a : Char} {front : List Char} (h : a ∉ front)
    (more new rest : List Char) :
    replaceAll (a :: more) new (front ++ rest) = front ++ replaceAll (a :: more) new rest := by
  refine replaceAll_append_of_not_prefix (fun tail hne htail hstarts => ?_) new
  obtain ⟨c, tail, rfl⟩ := List.exists_cons_of_ne_nil hne
  obtain ⟨rfl, -⟩ := List.cons_prefix_cons.1 hstarts
  exact h (htail.subset List.mem_cons_self)

/-- The occurrences of a single character are replaced one by one. -/
theorem replaceAll_singleton (a : Char) (new text : List Char) :
    replaceAll [a] new text = text.flatMap fun c => if c = a then new else [c] := by
  induction text with
  | nil => rfl
  | cons c rest ih =>
    rw [List.flatMap_cons, ← ih]
    by_cases h : c = a
    · subst h
      rw [if_pos rfl]
      exact replaceAll_append_self (List.cons_ne_nil c []) new rest
    · have hnot : ¬ [a] <+: c :: rest := fun hc => h (List.cons_prefix_cons.1 hc).1.symm
      rw [if_neg h, replaceAll_cons_of_not hnot, List.singleton_append]

/-! ## Texts that start alike -/

/-- Whatever the first text starts with, up to the first `stop` in it, the second starts with
too. -/
def StartsAlike (stop : Char) (first second : List Char) : Prop :=
  ∀ start, stop ∉ start → start <+: first → start <+: second

variable {stop : Char} {first second : List Char}

theorem startsAlike_nil (stop : Char) (second : List Char) : StartsAlike stop [] second :=
  fun _ _ h => h.trans List.nil_prefix

theorem startsAlike_stop (stop : Char) (first second : List Char) :
    StartsAlike stop (stop :: first) second := by
  intro start hstart h
  rcases List.prefix_cons_iff.1 h with rfl | ⟨more, rfl, -⟩
  · exact List.nil_prefix
  · exact absurd List.mem_cons_self hstart

theorem StartsAlike.cons (h : StartsAlike stop first second) (c : Char) :
    StartsAlike stop (c :: first) (c :: second) := by
  intro start hstart hc
  rcases List.prefix_cons_iff.1 hc with rfl | ⟨more, rfl, hmore⟩
  · exact List.nil_prefix
  · have hmem : stop ∉ more := fun hm => hstart (List.mem_cons_of_mem _ hm)
    exact List.cons_prefix_cons.2 ⟨rfl, h more hmem hmore⟩

theorem StartsAlike.append (h : StartsAlike stop first second) (front : List Char) :
    StartsAlike stop (front ++ first) (front ++ second) := by
  induction front with
  | nil => exact h
  | cons c front ih => exact ih.cons c

end TemplateDump.Text
