import TemplateDump.Proofs.Store.Unfold
import Mathlib.Data.List.Nodup
import Mathlib.Data.List.Perm.Subperm

/-!
# Ways through a store

A way leads from a place in a store to a node below it: at each node it goes on to the child at an
index.  `Leads` is this relation.  In a store without cycles no way has as many steps as there are
nodes (`Acyclic.endsWithin`), so that the bound on a walk is never felt: `unfold_eq_of_endsWithin`
and `walk_eq_of_endsWithin` say that any two bounds that are large enough give the same.

`ways` lists the ways from a place in the order of a walk; `EndsWithin.listsWays` says that it has
each of them exactly once.
-/

namespace TemplateDump.Store

/-! ## Ways -/

/-- A way from a place to a node of the store: the index of the child to go to, at each node on the
way. -/
inductive Leads (store : Store) : Option NodeId → List Nat → NodeId → Prop
  | here {id : NodeId} {entry : Entry} (hentry : store.get? id = some entry) :
      Leads store (some id) [] id
  | step {id target : NodeId} {entry : Entry} {index : Nat} {child : Option NodeId}
      {way : List Nat} (hentry : store.get? id = some entry)
      (hchild : entry.children[index]? = some child) (hway : Leads store child way target) :
      Leads store (some id) (index :: way) target

/-- No way leads from a node back to the node. -/
def Acyclic (store : Store) : Prop :=
  ∀ id way, store.Leads (some id) way id → way = []

/-- Every way from a place ends before it has taken so many steps. -/
def EndsWithin (store : Store) (levels : Nat) (root : Option NodeId) : Prop :=
  ∀ way id, store.Leads root way id → way.length < levels

section

variable {store : Store} {root : Option NodeId} {id : NodeId} {entry : Entry} {way : List Nat}

theorem Leads.exists_entry (h : store.Leads root way id) : ∃ entry, store.get? id = some entry := by
  induction h with
  | here hentry => exact ⟨_, hentry⟩
  | step _ _ _ ih => exact ih

theorem index_lt_size (h : store.get? id = some entry) : id.index < store.size :=
  (Array.getElem?_eq_some_iff.1 h).1

/-- Different nodes of a store are not more than the store has. -/
theorem length_le_size {ids : List NodeId} (hnodup : ids.Nodup)
    (hstored : ∀ id ∈ ids, id.index < store.size) : ids.length ≤ store.size := by
  have hindices : (ids.map NodeId.index).Nodup := by
    refine hnodup.map fun first second h => ?_
    cases first
    cases second
    exact congrArg NodeId.mk h
  have hsubset : ids.map NodeId.index ⊆ List.range store.size := by
    intro index hindex
    obtain ⟨id, hid, rfl⟩ := List.mem_map.1 hindex
    exact List.mem_range.2 (hstored id hid)
  have hlength := (List.subperm_of_subset hindices hsubset).length_le
  rwa [List.length_map, List.length_range] at hlength

/-- Every child of a node was put into the store before the node. -/
def childrenAreOlder (store : Store) : Bool :=
  store.entries.toList.zipIdx.all fun stored =>
    stored.1.children.all fun child => child.all fun id => id.index < stored.2

theorem lt_of_childrenAreOlder (h : store.childrenAreOlder = true)
    (hentry : store.get? id = some entry) {child : NodeId} (hchild : some child ∈ entry.children) :
    child.index < id.index := by
  have hstored : (entry, id.index) ∈ store.entries.toList.zipIdx := by
    rw [List.mem_zipIdx_iff_getElem?, Array.getElem?_toList]
    exact hentry
  have hchildren := List.all_eq_true.1 (List.all_eq_true.1 h _ hstored) _ hchild
  simpa using hchildren

/-- Every step of a way goes to a smaller index. -/
theorem Leads.index_add_length_le (h : store.childrenAreOlder = true)
    (hlead : store.Leads root way id) {top : NodeId} (htop : root = some top) :
    id.index + way.length ≤ top.index := by
  induction hlead generalizing top with
  | here _ =>
    cases htop
    exact Nat.le_refl _
  | @step _ _ _ _ child _ hentry hchild hway ih =>
    cases htop
    cases child with
    | none => cases hway
    | some child =>
      have hle := ih rfl
      have hlt := lt_of_childrenAreOlder h hentry (List.mem_of_getElem? hchild)
      rw [List.length_cons]
      omega

/-- A store has no cycles if every child is older than its parents. -/
theorem acyclic_of_childrenAreOlder (h : store.childrenAreOlder = true) : store.Acyclic := by
  intro id way hcycle
  have hle := hcycle.index_add_length_le h rfl
  exact List.length_eq_zero_iff.1 (by omega)

/-- No way leads back to the node from which it starts, at the place and below it. -/
def AcyclicBelow (store : Store) (root : Option NodeId) : Prop :=
  ∀ top id, store.Leads root top id → ∀ way, store.Leads (some id) way id → way = []

/-- A way and the nodes above it: as there is no cycle, all of them are different. -/
theorem AcyclicBelow.length_add_length_lt (hacyclic : store.AcyclicBelow root)
    (h : store.Leads root way id) {above : List NodeId} (hnodup : above.Nodup)
    (hstored : ∀ a ∈ above, a.index < store.size)
    (habove : ∀ a ∈ above, ∀ way id, store.Leads root way id →
      ∃ first rest, store.Leads (some a) (first :: rest) id)
    (hcycle : ∀ a ∈ above, ∀ way, store.Leads (some a) way a → way = []) :
    above.length + way.length < store.size := by
  -- The node at the start of the way is none of those above it.
  have hstart : ∀ {start : NodeId} {found : Entry} {above : List NodeId},
      store.get? start = some found → above.Nodup → (∀ a ∈ above, a.index < store.size) →
      (∀ a ∈ above, ∀ way id, store.Leads (some start) way id →
        ∃ first rest, store.Leads (some a) (first :: rest) id) →
      (∀ a ∈ above, ∀ way, store.Leads (some a) way a → way = []) →
      (start :: above).Nodup ∧ ∀ a ∈ start :: above, a.index < store.size := by
    intro start found above hfound hnodup hstored habove hcycle
    refine ⟨List.nodup_cons.2 ⟨fun hmem => ?_, hnodup⟩,
      List.forall_mem_cons.2 ⟨index_lt_size hfound, hstored⟩⟩
    obtain ⟨first, rest, hback⟩ := habove start hmem [] start (.here hfound)
    exact List.cons_ne_nil first rest (hcycle start hmem _ hback)
  induction h generalizing above with
  | here hentry =>
    obtain ⟨hnodup', hstored'⟩ := hstart hentry hnodup hstored habove hcycle
    exact length_le_size hnodup' hstored'
  | @step start target entry index child way hentry hchild hway ih =>
    obtain ⟨hnodup', hstored'⟩ := hstart hentry hnodup hstored habove hcycle
    have hbelow : store.AcyclicBelow child := fun top id htop =>
      hacyclic (index :: top) id (.step hentry hchild htop)
    have hlt := ih hbelow hnodup' hstored'
      (fun a ha way target hlead => by
        have hlead' := Leads.step hentry hchild hlead
        rcases List.mem_cons.1 ha with rfl | ha
        · exact ⟨_, _, hlead'⟩
        · exact habove a ha _ target hlead')
      (List.forall_mem_cons.2 ⟨hacyclic [] start (.here hentry), hcycle⟩)
    rw [List.length_cons] at hlt ⊢
    omega

/-- Where there is no cycle below, every way has fewer steps than there are nodes. -/
theorem AcyclicBelow.endsWithin (hacyclic : store.AcyclicBelow root) :
    store.EndsWithin store.size root := by
  intro way id h
  have hlt := hacyclic.length_add_length_lt h List.nodup_nil
    (fun a ha => absurd ha List.not_mem_nil) (fun a ha => absurd ha List.not_mem_nil)
    fun a ha => absurd ha List.not_mem_nil
  rwa [List.length_nil, Nat.zero_add] at hlt

/-- In a store without cycles every way has fewer steps than there are nodes. -/
theorem Acyclic.endsWithin (hacyclic : store.Acyclic) (root : Option NodeId) :
    store.EndsWithin store.size root :=
  AcyclicBelow.endsWithin fun _ id _ way => hacyclic id way

theorem Leads.append {middle : NodeId} {more : List Nat} (h : store.Leads root way middle)
    (h' : store.Leads (some middle) more id) : store.Leads root (way ++ more) id := by
  induction h with
  | here _ => exact h'
  | step hentry hchild _ ih => exact .step hentry hchild (ih h')

/-- A cycle could be gone round for ever. -/
theorem EndsWithin.acyclicBelow {levels : Nat} (h : store.EndsWithin levels root) :
    store.AcyclicBelow root := by
  intro top id htop way hcycle
  by_contra hway
  have hrounds : ∀ n : Nat, ∃ long, store.Leads root long id ∧ n ≤ long.length := by
    intro n
    induction n with
    | zero => exact ⟨top, htop, Nat.zero_le _⟩
    | succ n ih =>
      obtain ⟨long, hlong, hn⟩ := ih
      refine ⟨long ++ way, hlong.append hcycle, ?_⟩
      have hpos := List.length_pos_iff.2 hway
      rw [List.length_append]
      omega
  obtain ⟨long, hlong, hlevels⟩ := hrounds levels
  exact absurd (h long id hlong) (Nat.not_lt.2 hlevels)

/-- If the ways from a place end at all, they have fewer steps than there are nodes. -/
theorem EndsWithin.endsWithin_size {levels : Nat} (h : store.EndsWithin levels root) :
    store.EndsWithin store.size root :=
  h.acyclicBelow.endsWithin

/-! ## Bounds that are large enough -/

theorem EndsWithin.mono {levels more : Nat} (h : store.EndsWithin levels root)
    (hle : levels ≤ more) : store.EndsWithin more root :=
  fun way id hlead => Nat.lt_of_lt_of_le (h way id hlead) hle

/-- No way starts where none may take even no step. -/
theorem EndsWithin.bind_eq_none (h : store.EndsWithin 0 root) : root.bind store.get? = none := by
  cases hentry : root.bind store.get? with
  | none => rfl
  | some entry =>
    obtain ⟨id, rfl, hget⟩ := Option.bind_eq_some_iff.1 hentry
    exact absurd (h [] id (.here hget)) (Nat.lt_irrefl 0)

theorem EndsWithin.child {levels : Nat} (h : store.EndsWithin (levels + 1) root)
    (hentry : root.bind store.get? = some entry) {child : Option NodeId}
    (hchild : child ∈ entry.children) : store.EndsWithin levels child := by
  obtain ⟨id, rfl, hget⟩ := Option.bind_eq_some_iff.1 hentry
  obtain ⟨index, hindex⟩ := List.mem_iff_getElem?.1 hchild
  intro way target hlead
  exact Nat.lt_of_succ_lt_succ (h _ _ (.step hget hindex hlead))

/-- Something that is computed for a place from the same for its children, up to a bound, does not
depend on the bound, if no way reaches it. -/
theorem eq_of_endsWithin {β : Type} {f : Nat → Option NodeId → β} {nothing : β}
    (hnothing : ∀ levels root, root.bind store.get? = none → f levels root = nothing)
    (hnode : ∀ levels other root entry, root.bind store.get? = some entry →
      store.EndsWithin (levels + 1) root → store.EndsWithin (other + 1) root →
      (∀ child ∈ entry.children, f levels child = f other child) →
      f (levels + 1) root = f (other + 1) root)
    {levels other : Nat} (h : store.EndsWithin levels root) (h' : store.EndsWithin other root) :
    f levels root = f other root := by
  induction levels generalizing other root with
  | zero => rw [hnothing _ _ h.bind_eq_none, hnothing _ _ h.bind_eq_none]
  | succ levels ih =>
    cases hentry : root.bind store.get? with
    | none => rw [hnothing _ _ hentry, hnothing _ _ hentry]
    | some entry =>
      cases other with
      | zero =>
        rw [h'.bind_eq_none] at hentry
        exact absurd hentry (by simp)
      | succ other =>
        exact hnode levels other root entry hentry h h' fun child hchild =>
          ih (h.child hentry hchild) (h'.child hentry hchild)

theorem unfold_of_bind_eq_none (levels : Nat) (root : Option NodeId)
    (h : root.bind store.get? = none) : store.unfold levels root = .absent := by
  cases levels with
  | zero => rfl
  | succ levels => exact unfold_succ_of_none h

/-- A node of the store unfolds to a node. -/
theorem exists_unfold_size_eq (hentry : store.get? id = some entry) :
    ∃ levels, store.size = levels + 1 ∧ store.unfold store.size (some id) =
      .node (store.view entry.node) (entry.children.map (store.unfold levels)) := by
  obtain ⟨levels, hsize⟩ := Nat.exists_eq_add_one_of_ne_zero
    (Nat.ne_of_gt (Nat.zero_lt_of_lt (index_lt_size hentry)))
  refine ⟨levels, hsize, ?_⟩
  have hentry' : (some id).bind store.get? = some entry := hentry
  rw [hsize, unfold_succ_of_some hentry']

theorem unfold_eq_of_endsWithin {levels other : Nat} (h : store.EndsWithin levels root)
    (h' : store.EndsWithin other root) : store.unfold levels root = store.unfold other root := by
  refine eq_of_endsWithin unfold_of_bind_eq_none ?_ h h'
  intro levels other root entry hentry _ _ hchildren
  rw [unfold_succ_of_some hentry, unfold_succ_of_some hentry, List.map_congr_left hchildren]

end

end TemplateDump.Store

namespace TemplateDump.Writer

open TemplateDump.Writer.Action TemplateDump.Store

variable (registry : Registry) {store : Store} {root : Option NodeId}

theorem walk_of_bind_eq_none (levels : Nat) (root : Option NodeId)
    (h : root.bind store.get? = none) : walk registry store levels root = skip := by
  cases levels with
  | zero => rfl
  | succ levels => exact walk_succ_of_none registry store levels h

theorem Action.forEach_congr {α : Type} {act act' : α → Action} {list : List α}
    (h : ∀ a ∈ list, act a = act' a) : forEach act list = forEach act' list := by
  induction list with
  | nil => rfl
  | cons a rest ih =>
    obtain ⟨ha, hrest⟩ := List.forall_mem_cons.1 h
    funext w
    rw [forEach, forEach, ha, ih hrest]

theorem walk_eq_of_endsWithin {levels other : Nat} (h : store.EndsWithin levels root)
    (h' : store.EndsWithin other root) :
    walk registry store levels root = walk registry store other root := by
  refine eq_of_endsWithin (walk_of_bind_eq_none registry) ?_ h h'
  intro levels other root entry hentry h h' hchildren
  rw [walk_succ_of_some _ _ _ hentry, walk_succ_of_some _ _ _ hentry, forEach_congr hchildren,
    unfold_eq_of_endsWithin h h']

end TemplateDump.Writer

namespace TemplateDump.Store

/-! ## The ways from a place in order -/

/-- The ways from a place with fewer steps than `levels` and the nodes to which they lead, in the
order of a walk. -/
def ways (store : Store) : Nat → Option NodeId → List (List Nat × NodeId)
  | 0, _ => []
  | _ + 1, none => []
  | levels + 1, some id =>
    match store.get? id with
    | none => []
    | some entry =>
      ([], id) :: entry.children.zipIdx.flatMap fun child =>
        (store.ways levels child.1).map fun w => (child.2 :: w.1, w.2)

/-- The list has each way from a place exactly once: a way stands before those that go on from it,
and ways that part stand in the order of the children to which they go on. -/
structure ListsWays (store : Store) (root : Option NodeId) (list : List (List Nat × NodeId)) :
    Prop where
  sorted : list.Pairwise fun first second => first.1 < second.1
  mem_iff : ∀ {way id}, (way, id) ∈ list ↔ store.Leads root way id

section

variable {store : Store} {root : Option NodeId} {id : NodeId} {entry : Entry} {way : List Nat}

theorem ways_succ (hentry : store.get? id = some entry) (levels : Nat) :
    store.ways (levels + 1) (some id) =
      ([], id) :: entry.children.zipIdx.flatMap fun child =>
        (store.ways levels child.1).map fun w => (child.2 :: w.1, w.2) := by
  rw [ways, hentry]

theorem ways_of_bind_eq_none (levels : Nat) (root : Option NodeId)
    (h : root.bind store.get? = none) : store.ways levels root = [] := by
  cases levels with
  | zero => rfl
  | succ levels =>
    cases root with
    | none => rfl
    | some id =>
      rw [Option.bind_some] at h
      rw [ways, h]

theorem mem_ways_iff {levels : Nat} :
    (way, id) ∈ store.ways levels root ↔ store.Leads root way id ∧ way.length < levels := by
  induction levels generalizing root way with
  | zero => simp [ways]
  | succ levels ih =>
    constructor
    · intro h
      cases hentry : root.bind store.get? with
      | none =>
        rw [ways_of_bind_eq_none _ _ hentry] at h
        exact absurd h List.not_mem_nil
      | some entry =>
        obtain ⟨top, rfl, hget⟩ := Option.bind_eq_some_iff.1 hentry
        rw [ways_succ hget] at h
        rcases List.mem_cons.1 h with h | h
        · cases h
          exact ⟨.here hget, Nat.succ_pos levels⟩
        · obtain ⟨⟨child, index⟩, hchild, h⟩ := List.mem_flatMap.1 h
          obtain ⟨w, hw, h⟩ := List.mem_map.1 h
          cases h
          obtain ⟨hlead, hlength⟩ := ih.1 hw
          exact ⟨.step hget (List.mem_zipIdx_iff_getElem?.1 hchild) hlead,
            Nat.succ_lt_succ hlength⟩
    · rintro ⟨hlead, hlength⟩
      cases hlead with
      | here hget =>
        rw [ways_succ hget]
        exact List.mem_cons_self
      | @step _ _ _ index child rest hget hchild hrest =>
        rw [ways_succ hget]
        refine List.mem_cons_of_mem _ (List.mem_flatMap.2
          ⟨(child, index), List.mem_zipIdx_iff_getElem?.2 hchild, ?_⟩)
        exact List.mem_map.2 ⟨(rest, id), ih.2 ⟨hrest, Nat.lt_of_succ_lt_succ hlength⟩, rfl⟩

theorem sorted_ways (store : Store) (levels : Nat) (root : Option NodeId) :
    (store.ways levels root).Pairwise fun first second => first.1 < second.1 := by
  induction levels generalizing root with
  | zero => exact List.Pairwise.nil
  | succ levels ih =>
    cases hentry : root.bind store.get? with
    | none =>
      rw [ways_of_bind_eq_none _ _ hentry]
      exact List.Pairwise.nil
    | some entry =>
      obtain ⟨top, rfl, hget⟩ := Option.bind_eq_some_iff.1 hentry
      rw [ways_succ hget, List.pairwise_cons, List.pairwise_flatMap]
      refine ⟨?_, ?_, ?_⟩
      · intro w hw
        obtain ⟨child, -, hw⟩ := List.mem_flatMap.1 hw
        obtain ⟨rest, -, rfl⟩ := List.mem_map.1 hw
        exact List.nil_lt_cons _ _
      · intro child _
        rw [List.pairwise_map]
        exact (ih child.1).imp fun h => List.cons_lt_cons_iff.2 (.inr ⟨rfl, h⟩)
      · have hindices : entry.children.zipIdx.Pairwise fun first second => first.2 < second.2 := by
          rw [← List.pairwise_map, List.zipIdx_map_snd]
          exact List.pairwise_lt_range'
        refine hindices.imp fun {first second} h w hw w' hw' => ?_
        obtain ⟨rest, -, rfl⟩ := List.mem_map.1 hw
        obtain ⟨rest', -, rfl⟩ := List.mem_map.1 hw'
        exact List.cons_lt_cons_iff.2 (.inl h)

theorem EndsWithin.listsWays {levels : Nat} (h : store.EndsWithin levels root) :
    store.ListsWays root (store.ways levels root) where
  sorted := store.sorted_ways levels root
  mem_iff {way id} := by
    rw [mem_ways_iff]
    exact ⟨And.left, fun hlead => ⟨hlead, h way id hlead⟩⟩

/-- The ways that go on from a node stand behind one another. -/
theorem EndsWithin.exists_ways_eq {levels : Nat} (h : store.EndsWithin levels root)
    (hlead : store.Leads root way id) :
    ∃ before after below, store.ways levels root =
      before ++ (below.map fun w => (way ++ w.1, w.2)) ++ after ∧
      store.ListsWays (some id) below := by
  induction hlead generalizing levels with
  | here hget => exact ⟨[], [], store.ways levels _, by simp, h.listsWays⟩
  | @step top _ entry index child rest hget hchild _ ih =>
    cases levels with
    | zero => exact absurd (h [] top (.here hget)) (Nat.not_lt_zero _)
    | succ levels =>
      obtain ⟨before, after, below, hways, hbelow⟩ :=
        ih (h.child (by rwa [Option.bind_some]) (List.mem_of_getElem? hchild))
      have hmem : (child, index) ∈ entry.children.zipIdx := List.mem_zipIdx_iff_getElem?.2 hchild
      obtain ⟨front, back, hsplit⟩ := List.append_of_mem hmem
      let deeper : Option NodeId × Nat → List (List Nat × NodeId) := fun child =>
        (store.ways levels child.1).map fun w => (child.2 :: w.1, w.2)
      refine ⟨([], top) :: front.flatMap deeper ++ before.map fun w => (index :: w.1, w.2),
        (after.map fun w => (index :: w.1, w.2)) ++ back.flatMap deeper, below, ?_, hbelow⟩
      have hdeeper : deeper (child, index) =
          (before.map fun w => (index :: w.1, w.2)) ++
            (below.map fun w => (index :: rest ++ w.1, w.2)) ++
            after.map fun w => (index :: w.1, w.2) := by
        simp only [deeper, hways, List.map_append, List.map_map, Function.comp_def,
          List.cons_append]
      rw [ways_succ hget, hsplit, List.flatMap_append, List.flatMap_cons]
      show ([], top) :: (front.flatMap deeper ++ (deeper (child, index) ++ back.flatMap deeper)) = _
      rw [hdeeper]
      simp only [List.cons_append, List.append_assoc]

end

end TemplateDump.Store
