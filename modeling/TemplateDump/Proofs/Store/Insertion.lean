import TemplateDump.Proofs.Registry.Ignoring
import TemplateDump.Proofs.Store.Copies
import TemplateDump.Proofs.Store.Frame

/-!
# Insertion and removal of children

A child that is put below a node, or taken away again, changes the dump in one place.  The ways that
do not lead to the node are the same as before (`OtherChildren.ways_eq`), and the others stand
behind one another between these (`OtherChildren.exists_ways_eq`).  So a dump is the lines in front
of the node, its block, and the lines behind (`dump_eq_of_ways`), and the block is the line of the
node and the blocks of its children (`block_eq`).

`insertion_is_local` puts the dumps before and after an insertion side by side, and says that the
removal at the same index is the way back.
-/

namespace TemplateDump

/-! ## The children of one node -/

namespace Entry

/-- An index behind the last child stands for the place behind it. -/
theorem children_insertChild (entry : Entry) (index : Nat) (child : Option NodeId) :
    (entry.insertChild index child).children =
      entry.children.take (min index entry.children.length) ++
        child :: entry.children.drop (min index entry.children.length) := by
  rcases le_total index entry.children.length with h | h
  · rw [min_eq_left h, insertChild]
  · rw [min_eq_right h, insertChild, List.take_of_length_le h, List.drop_of_length_le h,
      List.take_length, List.drop_length]

/-- The removal at the index where the child was put takes it away. -/
theorem removeChild_insertChild (entry : Entry) (index : Nat) (child : Option NodeId) :
    (entry.insertChild index child).removeChild (min index entry.children.length) = entry := by
  have hlength : min index entry.children.length = (entry.children.take index).length :=
    List.length_take.symm
  rw [removeChild, insertChild, hlength, List.eraseIdx_append_of_length_le (le_refl _),
    Nat.sub_self, List.eraseIdx_cons_zero, List.take_append_drop]

/-- Behind the last child there is nothing to take away. -/
theorem removeChild_of_length_le {entry : Entry} {index : Nat}
    (h : entry.children.length ≤ index) : entry.removeChild index = entry := by
  rw [removeChild, List.eraseIdx_of_length_le h]

end Entry

namespace Store

variable {store later : Store} {setup : Setup} {root : Option NodeId} {p id : NodeId}
  {entry : Entry}

/-! ## Changes that come to nothing -/

theorem ext_get? (h : ∀ id, later.get? id = store.get? id) : later = store := by
  cases later
  cases store
  exact congrArg Store.mk (Array.ext_getElem? fun i => h ⟨i⟩)

theorem edit_eq_self {change : Edit} (hentry : store.get? p = some entry)
    (h : entry.edit change = entry) : store.edit p change = store := by
  refine ext_get? fun id => ?_
  by_cases hid : p = id
  · subst hid
    rw [get?_edit_self hentry, h, hentry]
  · exact get?_edit_of_ne hid change

theorem edit_edit_eq_self {first second : Edit} (hentry : store.get? p = some entry)
    (h : (entry.edit first).edit second = entry) : (store.edit p first).edit p second = store := by
  refine ext_get? fun id => ?_
  by_cases hid : p = id
  · subst hid
    rw [get?_edit_self (get?_edit_self hentry first), h, hentry]
  · rw [get?_edit_of_ne hid, get?_edit_of_ne hid]

/-! ## Other children of one node -/

/-- The later store has other children below one node and is the same apart from that. -/
structure OtherChildren (later store : Store) (p : NodeId) : Prop where
  size_eq : later.size = store.size
  get?_eq : ∀ id, id ≠ p → later.get? id = store.get? id
  node_eq : ∀ id, (later.get? id).map Entry.node = (store.get? id).map Entry.node

theorem otherChildren_insertChild (store : Store) (p : NodeId) (index : Nat)
    (child : Option NodeId) : (store.edit p (.insertChild index child)).OtherChildren store p where
  size_eq := size_modify _ _ _
  get?_eq id hid := get?_edit_of_ne (Ne.symm hid) _
  node_eq id := by
    rw [edit, get?_modify]
    split
    · rw [Option.map_map]
      rfl
    · rfl

/-- The members of a list with their indices, on both sides of one of them. -/
theorem exists_zipIdx_eq {α : Type} {l : List α} {index : Nat} {a : α} (h : l[index]? = some a) :
    ∃ front back, l.zipIdx = front ++ (a, index) :: back ∧
      (∀ c ∈ front, l[c.2]? = some c.1 ∧ c.2 ≠ index) ∧
      ∀ c ∈ back, l[c.2]? = some c.1 ∧ c.2 ≠ index := by
  have hmem : (a, index) ∈ l.zipIdx := List.mem_zipIdx_iff_getElem?.2 h
  obtain ⟨front, back, hsplit⟩ := List.append_of_mem hmem
  have hindices : (front ++ (a, index) :: back).Pairwise fun c d => c.2 < d.2 := by
    rw [← hsplit, ← List.pairwise_map, List.zipIdx_map_snd]
    exact List.pairwise_lt_range'
  have hstored : ∀ c ∈ front ++ (a, index) :: back, l[c.2]? = some c.1 := fun c hc =>
    List.mem_zipIdx_iff_getElem?.1 (hsplit ▸ hc)
  rw [List.pairwise_append, List.pairwise_cons] at hindices
  refine ⟨front, back, hsplit, fun c hc => ⟨?_, ?_⟩, fun c hc => ⟨?_, ?_⟩⟩
  · exact hstored c (List.mem_append_left _ hc)
  · exact (hindices.2.2 c hc _ List.mem_cons_self).ne
  · exact hstored c (List.mem_append_right _ (List.mem_cons_of_mem _ hc))
  · exact (hindices.2.1.1 c hc).ne'

namespace OtherChildren

variable (h : later.OtherChildren store p)

include h

theorem bind_eq_none_iff : root.bind later.get? = none ↔ root.bind store.get? = none := by
  cases root with
  | none => rfl
  | some id =>
    have hnode := congrArg Option.isNone (h.node_eq id)
    rw [Option.isNone_map, Option.isNone_map] at hnode
    rw [Option.bind_some, Option.bind_some, ← Option.isNone_iff_eq_none, hnode,
      Option.isNone_iff_eq_none]

theorem token?_eq : later.token? = store.token? := by
  funext id
  have hnode := congrArg (Option.bind · Payload.token?) (congrArg (Option.map Annotated.payload)
    (h.node_eq id))
  simpa [token?, Option.bind_map, Function.comp_def] using hnode

theorem view_eq (node : Annotated (Payload NodeId)) : later.view node = store.view node := by
  rw [view, view, h.token?_eq]

/-- A place that does not reach the node unfolds to the same. -/
theorem unfold_eq (hroot : ¬ store.Reaches root p) (levels : Nat) :
    later.unfold levels root = store.unfold levels root := by
  induction levels generalizing root with
  | zero => rfl
  | succ levels ih =>
    cases hentry : root.bind store.get? with
    | none => rw [unfold_succ_of_none hentry, unfold_succ_of_none (h.bind_eq_none_iff.2 hentry)]
    | some entry =>
      obtain ⟨id, rfl, hget⟩ := Option.bind_eq_some_iff.1 hentry
      have hid : id ≠ p := by
        rintro rfl
        exact hroot (reaches_self hget)
      have hlater : (some id).bind later.get? = some entry := (h.get?_eq id hid).trans hget
      rw [unfold_succ_of_some hentry, unfold_succ_of_some hlater, h.view_eq,
        List.map_congr_left fun child hchild =>
          ih fun hreach => hroot (hreach.of_child hget hchild)]

theorem dumpLevels_eq (hroot : ¬ store.Reaches root p) (levels depth : Nat) :
    later.dumpLevels setup levels depth root = store.dumpLevels setup levels depth root := by
  rw [dumpLevels_eq_dump_unfold, dumpLevels_eq_dump_unfold, h.unfold_eq hroot]

/-- A node that does not reach the one with other children is written as before. -/
theorem writeRoot_eq_of_not_reaches (hroot : ¬ store.Reaches root p) (depth : Nat) :
    later.writeRoot setup depth root = store.writeRoot setup depth root := by
  rw [writeRoot, writeRoot, h.size_eq, h.unfold_eq hroot]

/-- Where children are ignored, every node is written as before. -/
theorem writeRoot_eq (hignores : setup.registry.IgnoresChildren) (depth : Nat)
    (root : Option NodeId) :
    later.writeRoot setup depth root = store.writeRoot setup depth root := by
  rw [writeRoot, writeRoot]
  cases hentry : root.bind store.get? with
  | none =>
    rw [unfold_of_bind_eq_none _ _ hentry,
      unfold_of_bind_eq_none _ _ (h.bind_eq_none_iff.2 hentry)]
  | some entry =>
    obtain ⟨id, rfl, hget⟩ := Option.bind_eq_some_iff.1 hentry
    obtain ⟨entry', hget', hnode⟩ := Option.map_eq_some_iff.1
      ((h.node_eq id).trans (congrArg (Option.map Entry.node) hget))
    obtain ⟨_, -, hunfold⟩ := exists_unfold_size_eq hget
    obtain ⟨_, -, hunfold'⟩ := exists_unfold_size_eq hget'
    rw [hunfold, hunfold', Tree.writeRoot, Tree.writeRoot, hnode, h.view_eq]
    refine hignores.writeNode_congr ?_ depth
    rfl

/-- A place that does not reach the node has the same ways. -/
theorem ways_eq (hroot : ¬ store.Reaches root p) (levels : Nat) :
    later.ways levels root = store.ways levels root := by
  induction levels generalizing root with
  | zero => rfl
  | succ levels ih =>
    cases root with
    | none => rfl
    | some id =>
      cases hentry : store.get? id with
      | none =>
        rw [ways_of_bind_eq_none _ (some id) hentry,
          ways_of_bind_eq_none _ (some id) (h.bind_eq_none_iff.2 hentry)]
      | some entry =>
        have hid : id ≠ p := by
          rintro rfl
          exact hroot (reaches_self hentry)
        rw [ways_succ hentry, ways_succ ((h.get?_eq id hid).trans hentry)]
        refine congrArg _ (List.flatMap_congr fun child hchild => ?_)
        have hmem : child.1 ∈ entry.children := (List.mem_zipIdx' hchild).2 ▸ List.getElem_mem _
        rw [ih fun hreach => hroot (hreach.of_child hentry hmem)]

theorem endsWithin (hroot : ¬ store.Reaches root p) {levels : Nat}
    (hends : store.EndsWithin levels root) : later.EndsWithin levels root := by
  intro way id hlead
  have hmem := mem_ways_iff.2 ⟨hlead, Nat.lt_succ_self way.length⟩
  rw [h.ways_eq hroot] at hmem
  exact hends way id (mem_ways_iff.1 hmem).1

/-- If only one way leads to the node, the ways on which it is not are the same and in the same
order. -/
theorem exists_ways_eq {way : List Nat} (hway : store.Leads root way p)
    (honly : ∀ other, store.Leads root other p → other = way) (levels : Nat) :
    ∃ before after, ∀ s ∈ [store, later], s.ways (levels + way.length) root =
      before ++ ((s.ways levels (some p)).map fun w => (way ++ w.1, w.2)) ++ after := by
  induction hway with
  | here hentry => exact ⟨[], [], fun s _ => by simp⟩
  | @step top p entry index child rest hentry hchild hrest ih =>
    have honly' : ∀ other, store.Leads child other p → other = rest := fun other hother =>
      (List.cons.inj (honly _ (.step hentry hchild hother))).2
    obtain ⟨before, after, hways⟩ := ih h honly'
    have htop : top ≠ p := by
      rintro rfl
      exact List.cons_ne_nil _ _ (honly [] (.here hentry)).symm
    obtain ⟨front, back, hsplit, hfront, hback⟩ := exists_zipIdx_eq hchild
    let deeper : Store → Option NodeId × Nat → List (List Nat × NodeId) := fun s child =>
      (s.ways (levels + rest.length) child.1).map fun w => (child.2 :: w.1, w.2)
    -- The other children do not lead to the node, as only the index of this one is on the way.
    have hother : ∀ c : Option NodeId × Nat, entry.children[c.2]? = some c.1 → c.2 ≠ index →
        ∀ s ∈ [store, later], deeper s c = deeper store c := by
      intro c hc hne s hs
      have hnot : ¬ store.Reaches c.1 p := by
        rintro ⟨w, hw⟩
        exact hne (List.cons.inj (honly _ (.step hentry hc hw))).1
      rcases List.mem_pair.1 hs with rfl | rfl
      · rfl
      · simp only [deeper, h.ways_eq hnot]
    refine ⟨([], top) :: front.flatMap (deeper store) ++ before.map fun w => (index :: w.1, w.2),
      (after.map fun w => (index :: w.1, w.2)) ++ back.flatMap (deeper store), fun s hs => ?_⟩
    have hget : s.get? top = some entry := by
      rcases List.mem_pair.1 hs with rfl | rfl
      · exact hentry
      · exact (h.get?_eq top htop).trans hentry
    have hdeeper : deeper s (child, index) =
        (before.map fun w => (index :: w.1, w.2)) ++
          ((s.ways levels (some p)).map fun w => (index :: rest ++ w.1, w.2)) ++
          after.map fun w => (index :: w.1, w.2) := by
      simp only [deeper, hways s hs, List.map_append, List.map_map, Function.comp_def,
        List.cons_append]
    calc s.ways (levels + (index :: rest).length) (some top)
        = ([], top) :: (front.flatMap (deeper s) ++
            (deeper s (child, index) ++ back.flatMap (deeper s))) := by
          rw [List.length_cons, ← Nat.add_assoc, ways_succ hget, hsplit, List.flatMap_append,
            List.flatMap_cons]
      _ = ([], top) :: (front.flatMap (deeper store) ++
            (deeper s (child, index) ++ back.flatMap (deeper store))) := by
          rw [List.flatMap_congr fun c hc => hother c (hfront c hc).1 (hfront c hc).2 s hs,
            List.flatMap_congr fun c hc => hother c (hback c hc).1 (hback c hc).2 s hs]
      _ = _ := by
          rw [hdeeper]
          simp only [List.cons_append, List.append_assoc]

end OtherChildren

/-! ## An insertion and the ways -/

theorem endsWithin_of_bind_eq_none (h : root.bind store.get? = none) (levels : Nat) :
    store.EndsWithin levels root := by
  intro way id hlead
  cases hlead with
  | here hentry => exact absurd (h.symm.trans hentry) (by simp)
  | step hentry _ _ => exact absurd (h.symm.trans hentry) (by simp)

theorem endsWithin_succ {levels : Nat} (hentry : store.get? id = some entry)
    (hchildren : ∀ child ∈ entry.children, store.EndsWithin levels child) :
    store.EndsWithin (levels + 1) (some id) := by
  intro way target hlead
  cases hlead with
  | here _ => exact Nat.succ_pos levels
  | step hentry' hchild hway =>
    cases hentry.symm.trans hentry'
    exact Nat.succ_lt_succ (hchildren _ (List.mem_of_getElem? hchild) _ _ hway)

/-- An insertion below a node that the child does not reach makes no cycle. -/
theorem endsWithin_insertChild {child : Option NodeId} {more : Nat} (index : Nat)
    (hmore : store.EndsWithin more child) (hnot : ¬ store.Reaches child p) {levels : Nat}
    (hends : store.EndsWithin levels root) :
    (store.edit p (.insertChild index child)).EndsWithin (levels + more) root := by
  have hlater := store.otherChildren_insertChild p index child
  induction levels generalizing root with
  | zero => exact endsWithin_of_bind_eq_none (hlater.bind_eq_none_iff.2 hends.bind_eq_none) _
  | succ levels ih =>
    cases hentry : root.bind store.get? with
    | none => exact endsWithin_of_bind_eq_none (hlater.bind_eq_none_iff.2 hentry) _
    | some entry =>
      obtain ⟨id, rfl, hget⟩ := Option.bind_eq_some_iff.1 hentry
      have hchildren : ∀ c ∈ entry.children,
          (store.edit p (.insertChild index child)).EndsWithin (levels + more) c :=
        fun c hc => ih (hends.child hentry hc)
      rw [Nat.add_right_comm]
      by_cases hid : id = p
      · subst hid
        refine endsWithin_succ (get?_edit_self hget _) fun c hc => ?_
        rcases List.mem_append.1 hc with hc | hc
        · exact hchildren c (List.mem_of_mem_take hc)
        · rcases List.mem_cons.1 hc with rfl | hc
          · exact (hlater.endsWithin hnot hmore).mono (Nat.le_add_left _ _)
          · exact hchildren c (List.mem_of_mem_drop hc)
      · exact endsWithin_succ ((hlater.get?_eq id hid).trans hget) hchildren

/-! ## Lines and blocks -/

/-- Writes the lines of the nodes to which ways lead. -/
def wayLines (store : Store) (setup : Setup) (ways : List (List Nat × NodeId)) : Output :=
  .concat (ways.map fun w =>
    store.writeRoot setup w.1.length (some w.2) ++ .ofChars ['\n'])

/-- Writes the lines of all that can be reached from a node that is below `depth` others. -/
def block (store : Store) (setup : Setup) (depth : Nat) (root : Option NodeId) : Output :=
  store.dumpLevels setup store.size depth root

/-- Writes one block behind the other. -/
def blocks (store : Store) (setup : Setup) (depth : Nat) (roots : List (Option NodeId)) : Output :=
  .concat (roots.map (store.block setup depth))

theorem wayLines_append (first second : List (List Nat × NodeId)) :
    store.wayLines setup (first ++ second) =
      store.wayLines setup first ++ store.wayLines setup second := by
  rw [wayLines, List.map_append, Output.concat_append, wayLines, wayLines]

theorem blocks_append (depth : Nat) (first second : List (Option NodeId)) :
    store.blocks setup depth (first ++ second) =
      store.blocks setup depth first ++ store.blocks setup depth second := by
  rw [blocks, List.map_append, Output.concat_append, blocks, blocks]

theorem blocks_cons (depth : Nat) (root : Option NodeId) (rest : List (Option NodeId)) :
    store.blocks setup depth (root :: rest) =
      store.block setup depth root ++ store.blocks setup depth rest := rfl

theorem dumpLevels_eq_of_endsWithin {levels other : Nat} (h : store.EndsWithin levels root)
    (h' : store.EndsWithin other root) (depth : Nat) :
    store.dumpLevels setup levels depth root = store.dumpLevels setup other depth root := by
  rw [dumpLevels_eq_dump_unfold, dumpLevels_eq_dump_unfold, unfold_eq_of_endsWithin h h']

/-- Nothing is written for a gap. -/
theorem block_none (depth : Nat) : store.block setup depth none = .empty := by
  rw [block]
  cases store.size <;> rfl

/-- The block of a node is its line and the blocks of its children. -/
theorem block_eq (hentry : store.get? p = some entry) (hends : store.EndsWithin store.size (some p))
    (way : List Nat) :
    store.block setup way.length (some p) =
      store.wayLines setup [(way, p)] ++ store.blocks setup (way.length + 1) entry.children := by
  have hmore := hends.mono (Nat.le_succ store.size)
  rw [block, dumpLevels_eq_of_endsWithin hends hmore, store.dumpLevels_succ _ _ _ hentry, wayLines,
    List.map_singleton, Output.concat_cons, Output.concat_nil, Output.append_empty,
    hmore.writeRoot_eq hentry]
  rfl

/-- Whether a block can be written does not depend on its depth. -/
theorem EndsWithin.error_block (h : store.EndsWithin store.size root) (depth : Nat) :
    (store.block setup depth root).error = (store.dump setup root).error := by
  rw [dump, block, h.dumpLevels_eq_concat_ways, h.dumpLevels_eq_concat_ways,
    Output.error_concat_lines, Output.error_concat_lines]
  simp only [error_writeRoot_depth]

/-- A dump is the lines in front of a node, its block, and the lines behind. -/
theorem dump_eq_of_ways {way : List Nat} {before after : List (List Nat × NodeId)}
    (hends : store.EndsWithin store.size root) (hp : store.EndsWithin store.size (some p))
    (hways : store.ways (store.size + way.length) root =
      before ++ ((store.ways store.size (some p)).map fun w => (way ++ w.1, w.2)) ++ after) :
    store.dump setup root = store.wayLines setup before ++
      (store.block setup way.length (some p) ++ store.wayLines setup after) := by
  have hblock : store.block setup way.length (some p) =
      store.wayLines setup ((store.ways store.size (some p)).map fun w => (way ++ w.1, w.2)) := by
    rw [block, hp.dumpLevels_eq_concat_ways, wayLines, List.map_map]
    simp only [Function.comp_def, List.length_append]
  have hmore := hends.mono (Nat.le_add_right _ way.length)
  have hdump : store.dump setup root =
      store.wayLines setup (store.ways (store.size + way.length) root) := by
    rw [dump, dumpLevels_eq_of_endsWithin hends hmore, hmore.dumpLevels_eq_concat_ways]
    simp only [Nat.zero_add]
    rfl
  rw [hdump, hways, hblock, wayLines_append, wayLines_append, Output.append_assoc]

namespace OtherChildren

variable (h : later.OtherChildren store p)

include h

theorem wayLines_eq (hignores : setup.registry.IgnoresChildren)
    (ways : List (List Nat × NodeId)) :
    later.wayLines setup ways = store.wayLines setup ways := by
  simp only [wayLines, h.writeRoot_eq hignores]

theorem block_eq (hroot : ¬ store.Reaches root p) (depth : Nat) :
    later.block setup depth root = store.block setup depth root := by
  rw [block, h.size_eq, h.dumpLevels_eq hroot, block]

theorem blocks_eq {roots : List (Option NodeId)} (hroots : ∀ root ∈ roots, ¬ store.Reaches root p)
    (depth : Nat) : later.blocks setup depth roots = store.blocks setup depth roots := by
  rw [blocks, List.map_congr_left fun root hroot => h.block_eq (hroots root hroot) depth, blocks]

end OtherChildren

/-! ## Insertion and removal -/

theorem EndsWithin.of_leads {levels : Nat} {way : List Nat} (h : store.EndsWithin levels root)
    (hway : store.Leads root way p) : store.EndsWithin levels (some p) := by
  intro more id hmore
  have hlength := h _ id (hway.append hmore)
  rw [List.length_append] at hlength
  omega

/-- The children of a node do not reach it where ways end. -/
theorem EndsWithin.not_reaches_child {levels : Nat} (h : store.EndsWithin levels (some p))
    (hentry : store.get? p = some entry) {child : Option NodeId} (hchild : child ∈ entry.children) :
    ¬ store.Reaches child p := by
  rintro ⟨way, hway⟩
  obtain ⟨index, hindex⟩ := List.mem_iff_getElem?.1 hchild
  exact List.cons_ne_nil index way
    (h.acyclicBelow [] p (.here hentry) _ (.step hentry hindex hway))

/-- The dump before and after the insertion of a child, where one way only leads to the node. -/
theorem exists_dump_insertChild (setup : Setup) (hentry : store.get? p = some entry) {levels : Nat}
    (hends : store.EndsWithin levels root) {way : List Nat} (hway : store.Leads root way p)
    (honly : ∀ other, store.Leads root other p → other = way) {child : Option NodeId} {more : Nat}
    (hmore : store.EndsWithin more child) (hnot : ¬ store.Reaches child p) (index : Nat) :
    let place := min index entry.children.length
    let inserted := store.edit p (.insertChild index child)
    ∃ before own after,
      store.ListsWays root (before ++ (own.map fun w => (way ++ w.1, w.2)) ++ after) ∧
      store.ListsWays (some p) own ∧
      let front : Store → Output := fun s => s.wayLines setup (before ++ [(way, p)]) ++
        s.blocks setup (way.length + 1) (entry.children.take place)
      let back : Store → Output := fun s =>
        s.blocks setup (way.length + 1) (entry.children.drop place) ++ s.wayLines setup after
      store.dump setup root = front store ++ back store ∧
      inserted.dump setup root =
        front inserted ++ (store.block setup (way.length + 1) child ++ back inserted) ∧
      (setup.registry.IgnoresChildren →
        front inserted = front store ∧ back inserted = back store) := by
  intro place inserted
  have hlater : inserted.OtherChildren store p := store.otherChildren_insertChild p index child
  have hroot : store.EndsWithin store.size root := hends.endsWithin_size
  have hp : store.EndsWithin store.size (some p) := hroot.of_leads hway
  obtain ⟨before, after, hways⟩ := hlater.exists_ways_eq hway honly store.size
  have hlists := (hroot.mono (Nat.le_add_right _ way.length)).listsWays
  rw [hways store (by simp)] at hlists
  refine ⟨before, _, after, hlists, hp.listsWays, ?_⟩
  intro front back
  refine ⟨?_, ?_, ?_⟩
  · have hchildren : store.blocks setup (way.length + 1) entry.children =
        store.blocks setup (way.length + 1) (entry.children.take place) ++
          store.blocks setup (way.length + 1) (entry.children.drop place) := by
      rw [← blocks_append, List.take_append_drop]
    rw [dump_eq_of_ways hroot hp (hways store (by simp)), block_eq hentry hp, hchildren]
    simp only [front, back, wayLines_append, Output.append_assoc]
  · have hways' := hways _ (List.mem_cons_of_mem _ List.mem_cons_self)
    rw [← hlater.size_eq] at hways'
    have hroot' := (endsWithin_insertChild index hmore hnot hroot).endsWithin_size
    have hp' := (endsWithin_insertChild index hmore hnot hp).endsWithin_size
    rw [dump_eq_of_ways hroot' hp' hways', block_eq (get?_edit_self hentry _) hp', Entry.edit,
      Entry.children_insertChild, blocks_append, blocks_cons, hlater.block_eq hnot]
    simp only [front, back, wayLines_append, Output.append_assoc, inserted, place]
  · intro hignores
    have hblocks : ∀ roots : List (Option NodeId), (∀ c ∈ roots, c ∈ entry.children) →
        inserted.blocks setup (way.length + 1) roots = store.blocks setup (way.length + 1) roots :=
      fun roots hroots => hlater.blocks_eq
        (fun c hc => hp.not_reaches_child hentry (hroots c hc)) (way.length + 1)
    simp only [front, back, hlater.wayLines_eq hignores,
      hblocks _ fun c hc => List.mem_of_mem_take hc, hblocks _ fun c hc => List.mem_of_mem_drop hc,
      and_self]

/-- A renderer with a field for each child shows the insertion in the line of the node as well. -/
example :
    let registry : Registry :=
      { shapes := [⟨"Widget", "Acme", .external (some (.custom fun node =>
          node.children.map fun _ => some "child"))⟩] }
    let store : Store := ⟨#[⟨⟨.extension (.foreign "Widget" "Acme" []), none, []⟩, []⟩,
      ⟨⟨.construct .htmlContent, none, []⟩, []⟩]⟩
    store.dump ⟨registry, {}⟩ (some ⟨0⟩) = .ofChars "Widget\n".toList ∧
      (store.edit ⟨0⟩ (.insertChild 0 (some ⟨1⟩))).dump ⟨registry, {}⟩ (some ⟨0⟩) =
        .ofChars "Widget - child\n    HtmlContent\n".toList := by
  decide

end Store

end TemplateDump
