import TemplateDump.Proofs.Tree.Lines
import Mathlib.Data.List.Infix

/-!
# Where a dump stops

Two setups can be compared by what they do with the nodes of a tree.  If they give the same fields,
the dumps are the same (`dump_congr`).  A dump stops at the first node that has no line, and its
position, counted in the order of the walk, says what is written (`dump_of_stop?_eq_some`); a setup
that knows more nodes does not stop earlier (`stop?_le_stop?`).
-/

namespace TemplateDump

/-! ## Setups that agree on a node -/

namespace Setup

variable {setup other : Setup} {node : Node}

/-- A node is written in the same way if its fields and the options are the same. -/
theorem writeNode_congr (hoptions : setup.options = other.options)
    (hfields : setup.registry.fields? node = other.registry.fields? node) (depth : Nat) :
    setup.writeNode depth node = other.writeNode depth node := by
  rw [writeNode, writeNode, line?, line?, hoptions, hfields]

theorem writeLine_congr (hoptions : setup.options = other.options)
    (hfields : setup.registry.fields? node = other.registry.fields? node) (depth : Nat) :
    setup.writeLine depth node = other.writeLine depth node := by
  rw [writeLine, writeLine, writeNode_congr hoptions hfields]

/-- The whole lines of nodes with the same fields are the same. -/
theorem wholeLines_congr {listed : List (Nat × Node)} (hoptions : setup.options = other.options)
    (hfields : ∀ p ∈ listed, setup.registry.fields? p.2 = other.registry.fields? p.2) :
    listed.flatMap setup.wholeLine = listed.flatMap other.wholeLine := by
  refine List.flatMap_congr fun p hp => ?_
  rw [wholeLine, wholeLine, writeNode_congr hoptions (hfields p hp)]

/-- Exactly the known nodes have a line. -/
theorem succeeded_writeLine_iff {depth : Nat} :
    (setup.writeLine depth node).succeeded = true ↔ setup.registry.Knows node := by
  constructor
  · intro h e he
    rw [writeLine_of_isUnknown he] at h
    exact absurd h (by simp [Output.succeeded, Output.stop])
  · intro h
    rw [writeLine_of_knows h]
    rfl

end Setup

namespace Tree

variable {setup other : Setup} {tree : Tree}

theorem dump_congr (hoptions : setup.options = other.options)
    (hfields : ∀ p ∈ tree.listing 0,
      setup.registry.fields? p.2 = other.registry.fields? p.2) :
    tree.dump setup 0 = tree.dump other 0 := by
  rw [dump_eq_concat_listing, dump_eq_concat_listing]
  refine congrArg Output.concat (List.map_congr_left fun p hp => ?_)
  exact Setup.writeLine_congr hoptions (hfields p hp) p.1

/-! ## The position of the stop -/

/-- The position, in the order of the walk, of the first node that has no line. -/
def stop? (setup : Setup) (tree : Tree) : Option Nat :=
  (tree.listing 0).findIdx? fun p => !(setup.writeLine p.1 p.2).succeeded

theorem stop?_eq_none_iff :
    tree.stop? setup = none ↔ ∀ p ∈ tree.listing 0, setup.registry.Knows p.2 := by
  rw [stop?, List.findIdx?_eq_none_iff]
  simp only [Bool.not_eq_false', Setup.succeeded_writeLine_iff]

theorem stop?_eq_some_iff {j : Nat} :
    tree.stop? setup = some j ↔ ∃ h : j < (tree.listing 0).length,
      ¬ setup.registry.Knows (tree.listing 0)[j].2 ∧
        ∀ p ∈ (tree.listing 0).take j, setup.registry.Knows p.2 := by
  rw [stop?, List.findIdx?_eq_some_iff_getElem]
  simp only [Bool.not_eq_true', ← Bool.not_eq_true, Setup.succeeded_writeLine_iff,
    Classical.not_not]
  refine exists_congr fun h => and_congr_right fun _ => ?_
  constructor
  · intro hbefore p hp
    obtain ⟨i, hi, rfl⟩ := List.mem_take_iff_getElem.1 hp
    exact hbefore i (by omega)
  · intro hbefore i hi
    exact hbefore _ (List.mem_take_iff_getElem.2 ⟨i, by omega, rfl⟩)

/-- A dump that does not stop has the lines of all nodes. -/
theorem dump_of_stop?_eq_none (h : tree.stop? setup = none) :
    tree.dump setup 0 = ⟨(tree.listing 0).flatMap setup.wholeLine, none⟩ := by
  rw [dump_eq_concat_listing, Setup.concat_writeLine_of_knows (stop?_eq_none_iff.1 h)]
  rfl

/-- A dump that stops has the lines of the nodes in front of the stop. -/
theorem dump_of_stop?_eq_some {j : Nat} (h : tree.stop? setup = some j) :
    (tree.dump setup 0).succeeded = false ∧
      (tree.dump setup 0).chars = ((tree.listing 0).take j).flatMap setup.wholeLine := by
  obtain ⟨hj, hstop, hbefore⟩ := stop?_eq_some_iff.1 h
  obtain ⟨e, he⟩ := Classical.not_forall_not.1 hstop
  have hlisting : tree.listing 0 =
      (tree.listing 0).take j ++ (tree.listing 0)[j] :: (tree.listing 0).drop (j + 1) := by
    rw [List.getElem_cons_drop, List.take_append_drop]
  have hdump := dump_eq_concat_listing setup 0 tree
  rw [hlisting, Setup.concat_writeLine_of_isUnknown hbefore he] at hdump
  rw [hdump]
  exact ⟨rfl, rfl⟩

/-- A dump starts with the lines of the nodes in front of the stop, wherever it ends. -/
theorem lines_prefix_dump {j : Nat} (h : ∀ k, tree.stop? setup = some k → j ≤ k) :
    ((tree.listing 0).take j).flatMap setup.wholeLine <+: (tree.dump setup 0).chars := by
  cases hstop : tree.stop? setup with
  | none =>
    rw [dump_of_stop?_eq_none hstop]
    exact (List.take_prefix j _).flatMap _
  | some k =>
    rw [(dump_of_stop?_eq_some hstop).2]
    exact (List.take_prefix_take_left (h k hstop)).flatMap _

theorem succeeded_iff_stop?_eq_none :
    (tree.dump setup 0).succeeded = true ↔ tree.stop? setup = none := by
  cases h : tree.stop? setup with
  | none => simp [dump_of_stop?_eq_none h, Output.succeeded]
  | some j => simp [(dump_of_stop?_eq_some h).1]

/-- A setup that knows more nodes does not stop earlier. -/
theorem stop?_le_stop? (hknows : ∀ node, setup.registry.Knows node → other.registry.Knows node)
    {j k : Nat} (hj : tree.stop? setup = some j) (hk : tree.stop? other = some k) : j ≤ k := by
  obtain ⟨_, -, hbefore⟩ := stop?_eq_some_iff.1 hj
  obtain ⟨hlt, hstop, -⟩ := stop?_eq_some_iff.1 hk
  refine Nat.le_of_not_lt fun hkj => ?_
  have hmem : (tree.listing 0)[k] ∈ (tree.listing 0).take j :=
    List.mem_take_iff_getElem.2 ⟨k, by omega, rfl⟩
  exact hstop (hknows _ (hbefore _ hmem))

end Tree

end TemplateDump
