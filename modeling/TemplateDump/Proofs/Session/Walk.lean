import TemplateDump.Session.Writer

/-!
# The walk of a writer

A walk moves the writer up and down and may be stopped anywhere on its way.  `Action.Steady`
collects what an action has to keep so that a writer can be used again: the walk has it
(`walk_steady`) because each way of putting actions together keeps it.  `walk_eq_dumpLevels` says
that the text of a walk is the dump whose depth is handed down instead of being moved.  For
serializers, `serialize_eq_new` and `serialize_new_eq_dump` are what follows.
-/

namespace TemplateDump

namespace Writer

namespace Action

/-- An action that shows nothing of a writer's past but its options and its depth.  It keeps the
options, notes the error that stopped it, and comes back to the depth it started from unless it was
stopped. -/
structure Steady (act : Action) : Prop where
  options_eq : ∀ w, (act w).2.options = w.options
  error_eq : ∀ w, (act w).2.error = (act w).1.error.or w.error
  depth_eq : ∀ w, (act w).1.error = none → (act w).2.depth = w.depth
  output_eq : ∀ {w w'}, w.options = w'.options → w.depth = w'.depth → (act w).1 = (act w').1

variable {first second act : Action}

/-! ## Two actions after one another -/

theorem andThen_of_error {w : Writer} {e : DumpError} (h : (first w).1.error = some e) :
    andThen first second w = first w := by
  simp only [andThen, h]

theorem andThen_of_success {w : Writer} (h : (first w).1.error = none) :
    andThen first second w =
      ((first w).1 ++ (second (first w).2).1, (second (first w).2).2) := by
  simp only [andThen, h]

/-- A steady action hands on a writer that is as good as the one it was given, so the second output
is the one that the second action gives by itself. -/
theorem Steady.andThen_fst (hfirst : Steady first) (hsecond : Steady second) (w : Writer) :
    (Action.andThen first second w).1 = (first w).1 ++ (second w).1 := by
  cases h : (first w).1.error with
  | none =>
    rw [andThen_of_success h]
    exact congrArg ((first w).1 ++ ·)
      (hsecond.output_eq (hfirst.options_eq w) (hfirst.depth_eq w h))
  | some e => rw [andThen_of_error h, Output.append_of_error h]

theorem Steady.andThen (hfirst : Steady first) (hsecond : Steady second) :
    Steady (andThen first second) where
  options_eq w := by
    cases h : (first w).1.error with
    | none => rw [andThen_of_success h, hsecond.options_eq, hfirst.options_eq]
    | some e => rw [andThen_of_error h, hfirst.options_eq]
  error_eq w := by
    cases h : (first w).1.error with
    | none =>
      rw [andThen_of_success h, Output.append_of_success h, hsecond.error_eq, hfirst.error_eq, h,
        Option.none_or]
    | some e => rw [andThen_of_error h, hfirst.error_eq]
  depth_eq w hw := by
    cases h : (first w).1.error with
    | none =>
      rw [andThen_of_success h, Output.append_of_success h] at hw
      rw [andThen_of_success h, hsecond.depth_eq _ hw, hfirst.depth_eq w h]
    | some e =>
      rw [andThen_of_error h, h] at hw
      exact absurd hw (by simp)
  output_eq hoptions hdepth := by
    rw [hfirst.andThen_fst hsecond, hfirst.andThen_fst hsecond, hfirst.output_eq hoptions hdepth,
      hsecond.output_eq hoptions hdepth]

/-! ## The other actions -/

theorem skip_steady : Steady skip where
  options_eq _ := rfl
  error_eq _ := rfl
  depth_eq _ _ := rfl
  output_eq _ _ := rfl

theorem text_steady (chars : List Char) : Steady (text chars) where
  options_eq _ := rfl
  error_eq _ := rfl
  depth_eq _ _ := rfl
  output_eq _ _ := rfl

theorem write_steady (registry : Registry) (tree : Tree) : Steady (·.write registry tree) where
  options_eq _ := rfl
  error_eq _ := rfl
  depth_eq _ _ := rfl
  output_eq hoptions hdepth := by simp only [Writer.write, hoptions, hdepth]

theorem forEach_steady {α : Type} {act : α → Action} (hact : ∀ a, Steady (act a)) :
    ∀ list : List α, Steady (forEach act list)
  | [] => skip_steady
  | a :: rest => (hact a).andThen (forEach_steady hact rest)

theorem below_of_error {w : Writer} {e : DumpError}
    (h : (act { w with depth := w.depth + 1 }).1.error = some e) :
    below act w = act { w with depth := w.depth + 1 } := by
  simp only [below, h]

theorem below_of_success {w : Writer} (h : (act { w with depth := w.depth + 1 }).1.error = none) :
    below act w =
      ((act { w with depth := w.depth + 1 }).1,
        { (act { w with depth := w.depth + 1 }).2 with depth := w.depth }) := by
  simp only [below, h]

theorem below_fst (act : Action) (w : Writer) :
    (below act w).1 = (act { w with depth := w.depth + 1 }).1 := by
  cases h : (act { w with depth := w.depth + 1 }).1.error with
  | none => rw [below_of_success h]
  | some e => rw [below_of_error h]

/-- Only an action that is stopped below leaves the writer there. -/
theorem below_steady (hact : Steady act) : Steady (below act) where
  options_eq w := by
    cases h : (act { w with depth := w.depth + 1 }).1.error with
    | none => rw [below_of_success h]; exact hact.options_eq _
    | some e => rw [below_of_error h]; exact hact.options_eq _
  error_eq w := by
    cases h : (act { w with depth := w.depth + 1 }).1.error with
    | none => rw [below_of_success h]; exact hact.error_eq _
    | some e => rw [below_of_error h]; exact hact.error_eq _
  depth_eq w hw := by
    rw [below_fst] at hw
    rw [below_of_success hw]
  output_eq {w w'} hoptions hdepth := by
    rw [below_fst, below_fst]
    exact hact.output_eq hoptions (congrArg (· + 1) hdepth)

end Action

open TemplateDump.Writer.Action

/-! ## The walk -/

theorem walk_succ_of_none (registry : Registry) (store : Store) (levels : Nat)
    {root : Option NodeId} (h : root.bind store.get? = none) :
    walk registry store (levels + 1) root = skip := by
  funext w
  rw [walk, h]

theorem walk_succ_of_some (registry : Registry) (store : Store) (levels : Nat)
    {root : Option NodeId} {entry : Entry} (h : root.bind store.get? = some entry) :
    walk registry store (levels + 1) root =
      andThen (·.write registry (store.unfold (levels + 1) root))
        (andThen (text ['\n']) (below (forEach (walk registry store levels) entry.children))) := by
  funext w
  rw [walk, h]

/-- A writer can be used again after any walk. -/
theorem walk_steady (registry : Registry) (store : Store) (levels : Nat) :
    ∀ root : Option NodeId, Steady (walk registry store levels root) := by
  induction levels with
  | zero => exact fun _ => skip_steady
  | succ levels ih =>
    intro root
    cases h : root.bind store.get? with
    | none =>
      rw [walk_succ_of_none registry store levels h]
      exact skip_steady
    | some entry =>
      rw [walk_succ_of_some registry store levels h]
      exact (write_steady registry _).andThen
        ((text_steady _).andThen (below_steady (forEach_steady ih entry.children)))

/-- Members of a list that are written at the same depth follow one another. -/
theorem forEach_fst {α : Type} {act : α → Action} (hact : ∀ a, Steady (act a)) (w : Writer)
    (list : List α) :
    (forEach act list w).1 = Output.concat (list.map fun a => (act a w).1) := by
  induction list with
  | nil => rfl
  | cons a rest ih =>
    rw [forEach, (hact a).andThen_fst (forEach_steady hact rest), ih, List.map_cons,
      Output.concat_cons]

/-- A walk writes the dump, as long as the depth does not outgrow its word. -/
theorem walk_eq_dumpLevels (registry : Registry) (store : Store) (levels : Nat) (w : Writer)
    (root : Option NodeId) (h : w.depth.toNat + levels ≤ UInt32.size) :
    (walk registry store levels root w).1 =
      store.dumpLevels ⟨registry, w.options⟩ levels w.depth.toNat root := by
  induction levels generalizing w root with
  | zero => rfl
  | succ levels ih =>
    cases hentry : root.bind store.get? with
    | none =>
      rw [walk_succ_of_none registry store levels hentry, Store.dumpLevels, hentry]
      rfl
    | some entry =>
      obtain ⟨id, rfl, hget⟩ := Option.bind_eq_some_iff.1 hentry
      have hwalk := walk_steady registry store levels
      have hbelow := below_steady (forEach_steady hwalk entry.children)
      -- The deepest level is empty on both sides, so there the depth may wrap.
      have hchild : ∀ child, (walk registry store levels child { w with depth := w.depth + 1 }).1 =
          store.dumpLevels ⟨registry, w.options⟩ levels (w.depth.toNat + 1) child := by
        intro child
        cases levels with
        | zero => rfl
        | succ below =>
          have hdepth : (w.depth + 1).toNat = w.depth.toNat + 1 := by
            rw [UInt32.toNat_add]
            exact Nat.mod_eq_of_lt (by simp only [UInt32.size] at h; simp; omega)
          rw [← hdepth]
          exact ih { w with depth := w.depth + 1 } child (by simp only [hdepth]; omega)
      have hline : (w.write registry (store.unfold (levels + 1) (some id))).1 =
          Setup.writeNode ⟨registry, w.options⟩ w.depth.toNat
            ⟨store.view entry.node, entry.children.map (store.unfold levels)⟩ := by
        rw [write, Store.unfold_succ_of_some hentry, Tree.writeRoot]
      rw [walk_succ_of_some registry store levels hentry,
        (write_steady registry _).andThen_fst ((text_steady _).andThen hbelow),
        (text_steady _).andThen_fst hbelow, below_fst, forEach_fst hwalk,
        store.dumpLevels_succ _ _ _ hget, hline, Setup.writeLine, Output.append_assoc]
      simp only [hchild]
      rfl

end Writer

/-! ## Serializers -/

namespace Serializer

/-- A serializer writes what a new one with its options would write. -/
theorem serialize_eq_new (serializer : Serializer) (registry : Registry) (store : Store)
    (root : Option NodeId) :
    (serializer.serialize registry store root).1 =
      ((new serializer.options).serialize registry store root).1 :=
  (Writer.walk_steady registry store store.size root).output_eq rfl rfl

/-- A new serializer writes the dump. -/
theorem serialize_new_eq_dump (options : Options) (registry : Registry) {store : Store}
    (h : store.size ≤ UInt32.size) (root : Option NodeId) :
    ((new options).serialize registry store root).1 = store.dump ⟨registry, options⟩ root := by
  refine Writer.walk_eq_dumpLevels registry store store.size _ root ?_
  show 0 + store.size ≤ UInt32.size
  omega

end Serializer

end TemplateDump
