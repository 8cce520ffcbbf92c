import TemplateDump.Proofs.Output
import TemplateDump.Proofs.Store.Ways
import Mathlib.Data.List.TakeWhile
import Mathlib.Data.Set.Card

/-!
# Shared nodes are written as copies

A store without cycles unfolds to exactly one tree, in which a node that is shared stands once for
each way that leads to it.  The dump of the store is that of the tree: a line for each way, in the
order of the ways, as deep as the way is long (`EndsWithin.dumpLevels_eq_concat_ways`).
`shared_nodes_are_copies` puts this together.
-/

namespace TemplateDump

/-! ## Depth and indentation -/

namespace Store

variable {store : Store} {setup : Setup} {root : Option NodeId} {id : NodeId}

theorem error_writeRoot_depth (depth : Nat) :
    (store.writeRoot setup depth root).error = (store.writeRoot setup 0 root).error :=
  Tree.error_writeRoot_depth setup depth _

theorem chars_writeRoot_of_stopped {depth : Nat}
    (h : (store.writeRoot setup depth root).error ≠ none) :
    (store.writeRoot setup depth root).chars = [] :=
  Tree.chars_writeRoot_of_stopped h

theorem chars_writeRoot_depth {entry : Entry} (hentry : store.get? id = some entry)
    (h : (store.writeRoot setup 0 (some id)).error = none) (depth : Nat) :
    (store.writeRoot setup depth (some id)).chars =
      List.replicate (4 * depth) ' ' ++ (store.writeRoot setup 0 (some id)).chars := by
  obtain ⟨levels, -, hunfold⟩ := exists_unfold_size_eq hentry
  rw [writeRoot, hunfold, Tree.writeRoot] at h
  rw [writeRoot, writeRoot, hunfold, Tree.writeRoot, Tree.writeRoot]
  exact Setup.chars_writeNode_depth h depth

/-! ## A line for each way -/

/-- Where the bound is large enough, the line of a node alone is the one that it has in a dump. -/
theorem EndsWithin.writeRoot_eq {levels : Nat} (h : store.EndsWithin (levels + 1) (some id))
    {entry : Entry} (hentry : store.get? id = some entry) (depth : Nat) :
    store.writeRoot setup depth (some id) ++ .ofChars ['\n'] =
      setup.writeLine depth
        ⟨store.view entry.node, entry.children.map (store.unfold levels)⟩ := by
  have hentry' : (some id).bind store.get? = some entry := hentry
  rw [writeRoot, unfold_eq_of_endsWithin h.endsWithin_size h, unfold_succ_of_some hentry',
    Tree.writeRoot, Setup.writeLine]

/-- A dump has a line for each way, as deep as the way is long. -/
theorem EndsWithin.dumpLevels_eq_concat_ways {levels : Nat} (h : store.EndsWithin levels root)
    (setup : Setup) (depth : Nat) :
    store.dumpLevels setup levels depth root =
      .concat ((store.ways levels root).map fun w =>
        store.writeRoot setup (depth + w.1.length) (some w.2) ++ .ofChars ['\n']) := by
  induction levels generalizing depth root with
  | zero => rfl
  | succ levels ih =>
    cases hentry : root.bind store.get? with
    | none =>
      rw [ways_of_bind_eq_none _ _ hentry, dumpLevels, hentry]
      rfl
    | some entry =>
      obtain ⟨id, rfl, hget⟩ := Option.bind_eq_some_iff.1 hentry
      have hchild : ∀ child ∈ entry.children.zipIdx,
          store.dumpLevels setup levels (depth + 1) child.1 =
            .concat (((store.ways levels child.1).map fun w => (child.2 :: w.1, w.2)).map fun w =>
              store.writeRoot setup (depth + w.1.length) (some w.2) ++ .ofChars ['\n']) := by
        intro child hmem
        have hends : store.EndsWithin levels child.1 :=
          h.child hentry (List.mem_of_getElem? (List.mem_zipIdx_iff_getElem?.1 hmem))
        rw [ih hends, List.map_map]
        refine congrArg Output.concat (List.map_congr_left fun w _ => ?_)
        show _ = store.writeRoot setup (depth + (w.1.length + 1)) (some w.2) ++ _
        rw [Nat.add_right_comm, Nat.add_assoc]
      have hchildren : entry.children.map (store.dumpLevels setup levels (depth + 1)) =
          entry.children.zipIdx.map fun child =>
            store.dumpLevels setup levels (depth + 1) child.1 := by
        conv_lhs => rw [← List.zipIdx_map_fst 0 entry.children]
        rw [List.map_map]
        rfl
      rw [store.dumpLevels_succ _ _ _ hget, hchildren, List.map_congr_left hchild, ways_succ hget,
        List.map_cons, Output.concat_cons, List.map_flatMap, Output.concat_flatMap,
        List.length_nil, Nat.add_zero, h.writeRoot_eq hget]

/-! ## The tree of a place -/

mutual
/-- The place unfolds to the tree, whatever it takes. -/
inductive Unfolds (store : Store) : Option NodeId → Tree → Prop
  | gap {root : Option NodeId} (hentry : root.bind store.get? = none) : Unfolds store root .absent
  | node {root : Option NodeId} {entry : Entry} {children : List Tree}
      (hentry : root.bind store.get? = some entry)
      (hchildren : UnfoldsAll store entry.children children) :
      Unfolds store root (.node (store.view entry.node) children)

/-- The places unfold to the trees, one by one. -/
inductive UnfoldsAll (store : Store) : List (Option NodeId) → List Tree → Prop
  | nil : UnfoldsAll store [] []
  | cons {root : Option NodeId} {rest : List (Option NodeId)} {tree : Tree} {trees : List Tree}
      (htree : Unfolds store root tree) (htrees : UnfoldsAll store rest trees) :
      UnfoldsAll store (root :: rest) (tree :: trees)
end

mutual
/-- A place unfolds to one tree at most. -/
theorem Unfolds.unique {root : Option NodeId} {tree other : Tree} (h : store.Unfolds root tree)
    (h' : store.Unfolds root other) : tree = other := by
  cases h with
  | gap hentry =>
    cases h' with
    | gap _ => rfl
    | node hentry' _ =>
      rw [hentry] at hentry'
      exact absurd hentry' (by simp)
  | node hentry hchildren =>
    cases h' with
    | gap hentry' =>
      rw [hentry] at hentry'
      exact absurd hentry' (by simp)
    | node hentry' hchildren' =>
      rw [hentry] at hentry'
      cases hentry'
      rw [hchildren.unique hchildren']

theorem UnfoldsAll.unique {roots : List (Option NodeId)} {trees others : List Tree}
    (h : store.UnfoldsAll roots trees) (h' : store.UnfoldsAll roots others) : trees = others := by
  cases h with
  | nil =>
    cases h'
    rfl
  | cons htree htrees =>
    cases h' with
    | cons htree' htrees' => rw [htree.unique htree', htrees.unique htrees']
end

theorem unfoldsAll_map {f : Option NodeId → Tree} {roots : List (Option NodeId)}
    (h : ∀ root ∈ roots, store.Unfolds root (f root)) : store.UnfoldsAll roots (roots.map f) := by
  induction roots with
  | nil => exact .nil
  | cons root rest ih =>
    obtain ⟨hroot, hrest⟩ := List.forall_mem_cons.1 h
    exact .cons hroot (ih hrest)

theorem EndsWithin.unfolds {levels : Nat} (h : store.EndsWithin levels root) :
    store.Unfolds root (store.unfold levels root) := by
  induction levels generalizing root with
  | zero => exact .gap h.bind_eq_none
  | succ levels ih =>
    cases hentry : root.bind store.get? with
    | none =>
      rw [unfold_succ_of_none hentry]
      exact .gap hentry
    | some entry =>
      rw [unfold_succ_of_some hentry]
      exact .node hentry (unfoldsAll_map fun child hchild => ih (h.child hentry hchild))

end Store

/-- A serializer writes the dump of the tree to which a place unfolds, if no way is so long that the
word for the depth cannot hold its length. -/
theorem Serializer.serialize_eq_dump_of_endsWithin (serializer : Serializer) (registry : Registry)
    {store : Store} {root : Option NodeId} (h : store.EndsWithin store.size root)
    (hword : store.EndsWithin UInt32.size root) :
    (serializer.serialize registry store root).1 =
      (store.unfold store.size root).dump ⟨registry, serializer.options⟩ 0 := by
  rw [serialize, Writer.walk_eq_of_endsWithin registry h hword]
  show (Writer.walk _ _ _ _ _).1 = _
  rw [Writer.walk_eq_dumpLevels _ _ _ _ _ (by simp), Store.dumpLevels_eq_dump_unfold,
    Store.unfold_eq_of_endsWithin hword h]
  rfl

namespace Store

variable {store : Store} {root : Option NodeId}

/-! ## Copies -/

/-- A node is listed as often as ways lead to it. -/
theorem ListsWays.length_filter {list : List (List Nat × NodeId)} (h : store.ListsWays root list)
    (id : NodeId) :
    (list.filter fun w => w.2 = id).length = {way | store.Leads root way id}.ncard := by
  have hnodup : ((list.filter fun w => w.2 = id).map Prod.fst).Nodup := by
    rw [List.Nodup, List.pairwise_map]
    exact (h.sorted.filter _).imp fun hlt => ne_of_lt hlt
  have hset : {way | store.Leads root way id} =
      (((list.filter fun w => w.2 = id).map Prod.fst).toFinset : Set (List Nat)) := by
    ext way
    simp [← h.mem_iff]
  rw [hset, Set.ncard_coe_finset, List.toFinset_card_of_nodup hnodup, List.length_map]

/-- **Shared nodes are written as copies.**  In a store without cycles a place unfolds to exactly
one tree, and the walk of a writer is the same for every bound that is large enough.  Take the ways
from the place in order: a node is there once for each way that leads to it, and the ways that go on
from it stand behind one another.  The dump of the place is that of the tree, and so is what a
serializer writes, if the word for the depth can hold the length of every way.  It has a line for
each way in front of the first that leads to an unknown node: four blanks for each step, and what is
written for the node by itself. -/
theorem shared_nodes_are_copies (hacyclic : store.Acyclic) (root : Option NodeId) :
    ∃ (tree : Tree) (ways : List (List Nat × NodeId)),
      (store.Unfolds root tree ∧ ∀ other, store.Unfolds root other → other = tree) ∧
      store.ListsWays root ways ∧
      (∀ id, (ways.filter fun w => w.2 = id).length = {way | store.Leads root way id}.ncard) ∧
      (∀ way id, store.Leads root way id → ∃ before after below,
        ways = before ++ (below.map fun w => (way ++ w.1, w.2)) ++ after ∧
        store.ListsWays (some id) below) ∧
      ∀ setup : Setup,
        store.dump setup root = tree.dump setup 0 ∧
        (store.dump setup root).error =
          (ways.findSome? fun w => (store.writeRoot setup 0 (some w.2)).error) ∧
        (store.dump setup root).chars =
          ((ways.takeWhile fun w => (store.writeRoot setup 0 (some w.2)).succeeded).flatMap fun w =>
            List.replicate (4 * w.1.length) ' ' ++ (store.writeRoot setup 0 (some w.2)).chars ++
              ['\n']) ∧
        (∀ levels, store.size ≤ levels →
          Writer.walk setup.registry store levels root =
            Writer.walk setup.registry store store.size root) ∧
        ((∀ way id, store.Leads root way id → way.length < UInt32.size) →
          ∀ serializer : Serializer, serializer.options = setup.options →
            (serializer.serialize setup.registry store root).1 = tree.dump setup 0) := by
  have hends : store.EndsWithin store.size root := hacyclic.endsWithin root
  refine ⟨store.unfold store.size root, store.ways store.size root,
    ⟨hends.unfolds, fun other hother => hother.unique hends.unfolds⟩, hends.listsWays,
    hends.listsWays.length_filter, fun way id => hends.exists_ways_eq, fun setup => ?_⟩
  have hways : store.dump setup root = .concat ((store.ways store.size root).map fun w =>
      store.writeRoot setup w.1.length (some w.2) ++ .ofChars ['\n']) := by
    rw [dump, hends.dumpLevels_eq_concat_ways]
    simp only [Nat.zero_add]
  refine ⟨store.dumpLevels_eq_dump_unfold _ _ _ _, ?_, ?_, ?_, ?_⟩
  · rw [hways, Output.error_concat_lines]
    simp only [error_writeRoot_depth]
  · rw [hways, Output.chars_concat_lines fun w => chars_writeRoot_of_stopped]
    simp only [Output.succeeded, error_writeRoot_depth]
    refine List.flatMap_congr fun w hw => ?_
    obtain ⟨entry, hentry⟩ :=
      (mem_ways_iff.1 ((List.takeWhile_sublist _).subset hw)).1.exists_entry
    have hsucceeded := List.mem_takeWhile_imp hw
    rw [chars_writeRoot_depth hentry (Option.isNone_iff_eq_none.1 hsucceeded)]
  · intro levels hlevels
    exact Writer.walk_eq_of_endsWithin setup.registry (hends.mono hlevels) hends
  · intro hdepth serializer hoptions
    rw [serializer.serialize_eq_dump_of_endsWithin _ hends hdepth, hoptions]

/-- A token stands twice below a node that stands below the root, and once more below the root. -/
theorem copies_of_shared_token :
    let content : Annotated (Payload NodeId) := ⟨.construct .htmlContent, none, []⟩
    let store : Store := ⟨#[⟨⟨.construct (.token ⟨.html, "x"⟩), none, []⟩, []⟩,
      ⟨content, [some ⟨0⟩, some ⟨0⟩]⟩, ⟨content, [some ⟨1⟩, none, some ⟨0⟩]⟩]⟩
    store.Acyclic ∧ ∃ tree, store.Unfolds (some ⟨2⟩) tree ∧
      store.dump {} (some ⟨2⟩) = tree.dump {} 0 ∧
      tree.dump {} 0 = .ofChars ("HtmlContent\n    HtmlContent\n" ++
        "        IntermediateToken - Html - x\n        IntermediateToken - Html - x\n" ++
        "    IntermediateToken - Html - x\n").toList := by
  intro content store
  have hacyclic : store.Acyclic := acyclic_of_childrenAreOlder (by decide)
  obtain ⟨tree, _, ⟨htree, -⟩, -, -, -, hdump⟩ := shared_nodes_are_copies hacyclic (some ⟨2⟩)
  have hsame := (hdump {}).1
  exact ⟨hacyclic, tree, htree, hsame, hsame.symm.trans (by decide +kernel)⟩

end Store

end TemplateDump
