import TemplateDump.Proofs.Text.Pieces
import TemplateDump.Proofs.Text.Replace

/-!
# Fields that stay in their place

Line feeds and separators are replaced in two passes, but what comes of them is the same as in one
pass from the left, which meets a separator, a line feed or any other character: `markBreaks_nil`,
`markBreaks_separator`, `markBreaks_lineFeed` and `markBreaks_cons_of_not` are the four cases, and
`markBreaks_induction` is the induction along them.

* `lineFeed_not_mem_escapeChars` — an escaped field holds no line feed;
* `isPiece_escapeChars` — it is a piece, unless it ends in a blank and a hyphen;
* `unescapeChars_markBreaks_iff` — a text is read back, unless an `n` or a hyphen follows one of its
  backslashes;
* `escapeChars_eq_self` — a text that could be an escaped field is written as it is.
-/

namespace TemplateDump.Text

/-! ## The cases of the pass -/

theorem not_separator_prefix_cons {c : Char} {l : List Char} (hc : c ≠ ' ') :
    ¬ separator.toList <+: c :: l := by
  intro h
  rw [toList_separator] at h
  exact hc (List.cons_prefix_cons.1 h).1.symm

/-- The first pass replaces line feeds only, by something that starts with a backslash. -/
theorem startsAlike_replaceAll (text : List Char) :
    StartsAlike '\\' (replaceAll ['\n'] escapedLineFeed text) text := by
  rw [replaceAll_singleton]
  induction text with
  | nil => exact startsAlike_nil _ _
  | cons c rest ih =>
    rw [List.flatMap_cons]
    by_cases hc : c = '\n'
    · rw [if_pos hc]
      exact startsAlike_stop _ _ _
    · rw [if_neg hc]
      exact ih.cons c

@[simp] theorem markBreaks_nil : markBreaks [] = [] := rfl

theorem markBreaks_separator (rest : List Char) :
    markBreaks (separator.toList ++ rest) = '\\' :: '-' :: markBreaks rest := by
  have hfirst : replaceAll ['\n'] escapedLineFeed (separator.toList ++ rest) =
      separator.toList ++ replaceAll ['\n'] escapedLineFeed rest := by
    rw [replaceAll_singleton, replaceAll_singleton, List.flatMap_append]
    rfl
  rw [markBreaks, hfirst, replaceAll_append_self (by rw [toList_separator]; simp)]
  rfl

theorem markBreaks_lineFeed (rest : List Char) :
    markBreaks ('\n' :: rest) = '\\' :: 'n' :: markBreaks rest := by
  have hfirst : replaceAll ['\n'] escapedLineFeed ('\n' :: rest) =
      '\\' :: 'n' :: replaceAll ['\n'] escapedLineFeed rest :=
    replaceAll_append_self (List.cons_ne_nil '\n' []) escapedLineFeed rest
  rw [markBreaks, hfirst, replaceAll_cons_of_not (not_separator_prefix_cons (by decide)),
    replaceAll_cons_of_not (not_separator_prefix_cons (by decide)), markBreaks]

theorem markBreaks_cons_of_not {c : Char} {rest : List Char} (hc : c ≠ '\n')
    (h : ¬ separator.toList <+: c :: rest) : markBreaks (c :: rest) = c :: markBreaks rest := by
  have hfirst : replaceAll ['\n'] escapedLineFeed (c :: rest) =
      c :: replaceAll ['\n'] escapedLineFeed rest :=
    replaceAll_cons_of_not (fun hp => hc (List.cons_prefix_cons.1 hp).1.symm) escapedLineFeed
  have hnot : ¬ separator.toList <+: c :: replaceAll ['\n'] escapedLineFeed rest := fun hp =>
    h (startsAlike_replaceAll _ _ (by decide) (hfirst ▸ hp))
  rw [markBreaks, hfirst, replaceAll_cons_of_not hnot, markBreaks]

/-- Induction along the pass: at each place there is a separator, a line feed, or a character that
is kept. -/
theorem markBreaks_induction {motive : List Char → Prop} (nil : motive [])
    (separate : ∀ rest, motive rest → motive (separator.toList ++ rest))
    (lineFeed : ∀ rest, motive rest → motive ('\n' :: rest))
    (other : ∀ c rest, c ≠ '\n' → ¬ separator.toList <+: c :: rest → motive rest →
      motive (c :: rest)) (text : List Char) : motive text := by
  refine scan_induction (by rw [toList_separator]; simp) nil separate ?_ text
  intro c rest hnot hrest
  by_cases hc : c = '\n'
  · exact hc ▸ lineFeed rest hrest
  · exact other c rest hc hnot hrest

/-! ## What the result holds -/

theorem lineFeed_not_mem_markBreaks (text : List Char) : '\n' ∉ markBreaks text := by
  induction text using markBreaks_induction with
  | nil => exact List.not_mem_nil
  | separate rest ih =>
    rw [markBreaks_separator]
    simp [ih]
  | lineFeed rest ih =>
    rw [markBreaks_lineFeed]
    simp [ih]
  | other c rest hc hnot ih =>
    rw [markBreaks_cons_of_not hc hnot]
    simp [ih, Ne.symm hc]

theorem return_not_mem_markBreaks {text : List Char} (h : '\r' ∉ text) :
    '\r' ∉ markBreaks text := by
  induction text using markBreaks_induction with
  | nil => exact h
  | separate rest ih =>
    have hrest : '\r' ∉ rest := fun hmem => h (List.mem_append_right _ hmem)
    rw [markBreaks_separator]
    simp [ih hrest]
  | lineFeed rest ih =>
    have hrest : '\r' ∉ rest := fun hmem => h (List.mem_cons_of_mem _ hmem)
    rw [markBreaks_lineFeed]
    simp [ih hrest]
  | other c rest hc hnot ih =>
    rw [List.mem_cons, not_or] at h
    rw [markBreaks_cons_of_not hc hnot]
    simp [h.1, ih h.2]

/-- Where there is nothing to mark, nothing changes. -/
theorem markBreaks_eq_self {text : List Char} (hfeed : '\n' ∉ text)
    (h : ¬ separator.toList <:+: text) : markBreaks text = text := by
  have hfirst : ¬ ['\n'] <:+: text := fun hin => hfeed (hin.subset List.mem_cons_self)
  rw [markBreaks, replaceAll_eq_self hfirst, replaceAll_eq_self h]

/-- Breaks are marked by something that starts with a backslash. -/
theorem startsAlike_markBreaks (text : List Char) :
    StartsAlike '\\' (markBreaks text) text := by
  induction text using markBreaks_induction with
  | nil => exact startsAlike_nil _ _
  | separate rest ih =>
    rw [markBreaks_separator]
    exact startsAlike_stop _ _ _
  | lineFeed rest ih =>
    rw [markBreaks_lineFeed]
    exact startsAlike_stop _ _ _
  | other c rest hc hnot ih =>
    rw [markBreaks_cons_of_not hc hnot]
    exact ih.cons c

theorem separator_not_infix_markBreaks (text : List Char) :
    ¬ separator.toList <:+: markBreaks text := by
  induction text using markBreaks_induction with
  | nil => decide
  | separate rest ih =>
    rw [markBreaks_separator, List.infix_cons_iff, List.infix_cons_iff]
    rintro (h | h | h)
    · exact not_separator_prefix_cons (by decide) h
    · exact not_separator_prefix_cons (by decide) h
    · exact ih h
  | lineFeed rest ih =>
    rw [markBreaks_lineFeed, List.infix_cons_iff, List.infix_cons_iff]
    rintro (h | h | h)
    · exact not_separator_prefix_cons (by decide) h
    · exact not_separator_prefix_cons (by decide) h
    · exact ih h
  | other c rest hc hnot ih =>
    -- A separator that the last step completes was there before.
    rintro h
    rw [markBreaks_cons_of_not hc hnot, List.infix_cons_iff, ← markBreaks_cons_of_not hc hnot] at h
    rcases h with h | h
    · exact hnot (startsAlike_markBreaks _ _ (by decide) h)
    · exact ih h

theorem eq_nil_of_markBreaks_eq_nil {text : List Char} (h : markBreaks text = []) : text = [] := by
  induction text using markBreaks_induction with
  | nil => rfl
  | separate rest _ => exact absurd h (by rw [markBreaks_separator]; simp)
  | lineFeed rest _ => exact absurd h (by rw [markBreaks_lineFeed]; simp)
  | other c rest hc hnot _ => exact absurd h (by rw [markBreaks_cons_of_not hc hnot]; simp)

/-- Only a single hyphen gives a single hyphen. -/
theorem eq_hyphen_of_markBreaks_eq {text : List Char} (h : markBreaks text = ['-']) :
    text = ['-'] := by
  obtain ⟨behind, rfl⟩ : ['-'] <+: text :=
    startsAlike_markBreaks text ['-'] (by decide) ⟨[], h.symm⟩
  rw [List.singleton_append,
    markBreaks_cons_of_not (by decide) (not_separator_prefix_cons (by decide))] at h
  rw [eq_nil_of_markBreaks_eq_nil (List.cons.inj h).2, List.append_nil]

/-- A blank and a hyphen at the end of the result were there before. -/
theorem suffix_of_suffix_markBreaks {text : List Char} (h : [' ', '-'] <:+ markBreaks text) :
    [' ', '-'] <:+ text := by
  induction text using markBreaks_induction with
  | nil => exact h
  | separate rest ih =>
    rw [markBreaks_separator, List.suffix_cons_iff, List.suffix_cons_iff] at h
    rcases h with h | h | h
    · exact absurd h (by simp)
    · exact absurd h (by simp)
    · exact (ih h).trans (List.suffix_append _ _)
  | lineFeed rest ih =>
    rw [markBreaks_lineFeed, List.suffix_cons_iff, List.suffix_cons_iff] at h
    rcases h with h | h | h
    · exact absurd h (by simp)
    · exact absurd h (by simp)
    · exact (ih h).trans (List.suffix_cons _ _)
  | other c rest hc hnot ih =>
    rw [markBreaks_cons_of_not hc hnot, List.suffix_cons_iff] at h
    rcases h with h | h
    · obtain ⟨rfl, hrest⟩ := List.cons.inj h
      obtain rfl := eq_hyphen_of_markBreaks_eq hrest.symm
      exact List.suffix_rfl
    · exact (ih h).trans (List.suffix_cons _ _)

/-! ## Reading the result back -/

theorem unescapeChars_cons {c : Char} (hc : c ≠ '\\') (rest : List Char) :
    unescapeChars (c :: rest) = c :: unescapeChars rest := by
  rw [unescapeChars]
  · rintro _ h -
    exact hc h
  · rintro _ h -
    exact hc h

/-- A backslash stands for itself, unless an `n` or a hyphen follows. -/
theorem unescapeChars_backslash {rest : List Char} (hfeed : ¬ ['n'] <+: rest)
    (hhyphen : ¬ ['-'] <+: rest) : unescapeChars ('\\' :: rest) = '\\' :: unescapeChars rest := by
  rw [unescapeChars]
  · rintro more - rfl
    exact hfeed (List.prefix_append ['n'] more)
  · rintro more - rfl
    exact hhyphen (List.prefix_append ['-'] more)

/-- A text is read back if and only if no backslash in it is followed by an `n` or a hyphen. -/
theorem unescapeChars_markBreaks_iff {text : List Char} :
    unescapeChars (markBreaks text) = text ↔
      ¬ escapedLineFeed <:+: text ∧ ¬ escapedSeparator <:+: text := by
  induction text using markBreaks_induction with
  | nil => decide
  | separate rest ih =>
    rw [markBreaks_separator, unescapeChars, List.append_cancel_left_eq, ih]
    simp [toList_separator, escapedLineFeed, escapedSeparator, List.infix_cons_iff,
      List.cons_prefix_cons]
  | lineFeed rest ih =>
    rw [markBreaks_lineFeed, unescapeChars, List.cons_inj_right, ih]
    simp [escapedLineFeed, escapedSeparator, List.infix_cons_iff, List.cons_prefix_cons]
  | other c rest hc hnot ih =>
    rw [markBreaks_cons_of_not hc hnot]
    by_cases hbackslash : c = '\\'
    · subst hbackslash
      by_cases hfeed : ['n'] <+: rest
      · obtain ⟨more, rfl⟩ := hfeed
        rw [List.singleton_append,
          markBreaks_cons_of_not (by decide) (not_separator_prefix_cons (by decide)), unescapeChars]
        exact iff_of_false (by simp) fun h => h.1 ⟨[], more, rfl⟩
      · by_cases hhyphen : ['-'] <+: rest
        · obtain ⟨more, rfl⟩ := hhyphen
          rw [List.singleton_append,
            markBreaks_cons_of_not (by decide) (not_separator_prefix_cons (by decide)),
            unescapeChars]
          exact iff_of_false (by simp [toList_separator]) fun h => h.2 ⟨[], more, rfl⟩
        · -- What follows the backslash is kept, so it is no escape in the result either.
          have hfeed' := mt (startsAlike_markBreaks rest ['n'] (by decide)) hfeed
          have hhyphen' := mt (startsAlike_markBreaks rest ['-'] (by decide)) hhyphen
          rw [unescapeChars_backslash hfeed' hhyphen', List.cons_inj_right, ih]
          simp [escapedLineFeed, escapedSeparator, List.infix_cons_iff, List.cons_prefix_cons,
            hfeed, hhyphen]
    · rw [unescapeChars_cons hbackslash, List.cons_inj_right, ih]
      simp [escapedLineFeed, escapedSeparator, List.infix_cons_iff, List.cons_prefix_cons,
        Ne.symm hbackslash]

/-- Text without backslashes is read back. -/
theorem unescapeChars_markBreaks {text : List Char} (h : '\\' ∉ text) :
    unescapeChars (markBreaks text) = text :=
  unescapeChars_markBreaks_iff.2
    ⟨fun hin => h (hin.subset List.mem_cons_self), fun hin => h (hin.subset List.mem_cons_self)⟩

/-! ## Fields -/

theorem lineFeed_not_mem_escapeChars (text : List Char) : '\n' ∉ escapeChars text :=
  lineFeed_not_mem_markBreaks _

theorem escapeChars_eq_markBreaks {text : List Char} (h : '\r' ∉ text) :
    escapeChars text = markBreaks text := by
  have hself : text.filter (· != '\r') = text :=
    List.filter_eq_self.2 fun c hc => bne_iff_ne.2 fun e => h (e ▸ hc)
  rw [escapeChars, hself]

theorem separator_not_infix_escapeChars (text : List Char) :
    ¬ separator.toList <:+: escapeChars text :=
  separator_not_infix_markBreaks _

theorem return_not_mem_escapeChars (text : List Char) : '\r' ∉ escapeChars text :=
  return_not_mem_markBreaks fun h => bne_iff_ne.1 (List.mem_filter.1 h).2 rfl

/-- A text without line ends and separators is written as it is. -/
theorem escapeChars_eq_self {text : List Char} (hreturn : '\r' ∉ text) (hfeed : '\n' ∉ text)
    (h : ¬ separator.toList <:+: text) : escapeChars text = text := by
  rw [escapeChars_eq_markBreaks hreturn, markBreaks_eq_self hfeed h]

/-- An escaped field can stand between separators, unless it ends like the start of one. -/
theorem isPiece_escapeChars {text : List Char} (hreturn : '\r' ∉ text)
    (hsuffix : ¬ [' ', '-'] <:+ text) : IsPiece (escapeChars text) where
  not_infix := separator_not_infix_markBreaks _
  not_suffix h := hsuffix (suffix_of_suffix_markBreaks (escapeChars_eq_markBreaks hreturn ▸ h))

end TemplateDump.Text
