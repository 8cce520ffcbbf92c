import TemplateDump.Proofs.Store.Ways

/-!
# What a dump of a store depends on

A dump shows the nodes below a place and, of each reference among them, the identifier token, be it
below the place or not.  `SameBelow` says that two stores agree on these, and
`SameBelow.dump_eq` and `SameBelow.serialize_eq` that the place is then written alike.

A new node can show in an old place only if a node names one that does not exist.  That does not
happen in a store that is `Closed`, which a store stays if its changes link only nodes that exist.
-/

namespace TemplateDump

/-! ## The nodes that a node names -/

section

variable {τ υ : Type}

/-- The name of the identifier token, if the contents are a reference that has one. -/
def Payload.identifier? : Payload τ → Option τ
  | .extension (.component (.ref identifier _)) => identifier
  | _ => none

/-- Only the identifier token is named in another way. -/
theorem Payload.bindToken_congr {f g : τ → Option υ} {p : Payload τ}
    (h : ∀ token ∈ p.identifier?, f token = g token) : p.bindToken f = p.bindToken g := by
  rcases p with c | (_ | _ | _ | _ | _ | ⟨identifier, capture⟩) | _ | _
  case extension.component.ref =>
    cases identifier with
    | none => rfl
    | some token =>
      have htoken : f token = g token := h token rfl
      simp only [Payload.bindToken, Extension.bindToken, Component.bindToken, Option.bind_some,
        htoken]
  all_goals rfl

end

/-- The child that a change puts below a node. -/
def Edit.child? : Edit → Option NodeId
  | .addChild child => child
  | .insertChild _ child => child
  | _ => none

namespace Entry

variable {entry : Entry} {change : Edit} {id : NodeId}

/-- The node names another one: as a child or as its identifier token. -/
def Names (entry : Entry) (id : NodeId) : Prop :=
  some id ∈ entry.children ∨ id ∈ entry.node.payload.identifier?

theorem names_addChild {child : Option NodeId} (h : (entry.addChild child).Names id) :
    entry.Names id ∨ id ∈ child := by
  rcases h with h | h
  · rcases List.mem_append.1 h with h | h
    · exact .inl (.inl h)
    · exact .inr (List.mem_singleton.1 h).symm
  · exact .inl (.inr h)

/-- A change lets a node name only what it named before and the child that it puts there. -/
theorem names_edit (h : (entry.edit change).Names id) : entry.Names id ∨ id ∈ change.child? := by
  cases change with
  | addChild child => exact names_addChild h
  | insertChild index child =>
    rcases h with h | h
    · rcases List.mem_append.1 h with h | h
      · exact .inl (.inl (List.mem_of_mem_take h))
      · rcases List.mem_cons.1 h with h | h
        · exact .inr h.symm
        · exact .inl (.inl (List.mem_of_mem_drop h))
    · exact .inl (.inr h)
  | removeChild index => exact .inl (h.imp_left List.mem_of_mem_eraseIdx)
  | construct change =>
    rcases entry with ⟨⟨c | e, source, diagnostics⟩, children⟩
    · exact .inl (h.imp_right nofun)
    · exact .inl h
  | _ => exact .inl h

end Entry

namespace Store

variable {store : Store} {id : NodeId} {entry : Entry}

/-! ## The nodes after a change -/

/-- A new node takes the place of none. -/
theorem get?_add_of_get? (h : store.get? id = some entry) (new : Entry) :
    (store.add new).2.get? id = some entry := by
  have hne : id ≠ (store.add new).1 := by
    rintro rfl
    exact absurd (index_lt_size h) (Nat.lt_irrefl _)
  rw [get?_add, if_neg hne, h]

theorem get?_add_self (store : Store) (new : Entry) :
    (store.add new).2.get? ⟨store.size⟩ = some new :=
  (store.get?_add new _).trans (if_pos rfl)

section Create

variable (payload : Payload NodeId) (source : Option SourceSpan) (diagnostics : List Diagnostic)
  (parent : Option NodeId)

theorem size_create :
    (store.create payload source diagnostics parent).2.size = store.size + 1 := by
  cases parent with
  | none => exact size_add _ _
  | some p => exact (size_modify _ _ _).trans (size_add _ _)

/-- A new node names its identifier token and nothing else. -/
theorem names_newEntry (h : (store.newEntry payload source diagnostics).Names id) :
    id ∈ payload.identifier? := by
  rcases payload with _ | (_ | _ | _ | _ | _ | ⟨_ | token, capture⟩) | _ | _
  case extension.component.ref.some =>
    rcases h with h | h
    · exact (Option.some.inj (List.mem_singleton.1 h)).symm ▸ rfl
    · exact h
  all_goals exact h.resolve_left List.not_mem_nil

/-- A node is put into the store, and then its parent is changed. -/
theorem get?_create (id : NodeId) :
    (store.create payload source diagnostics parent).2.get? id =
      ((store.add (store.newEntry payload source diagnostics)).2.get? id).map fun entry =>
        if parent = some id then entry.addChild (some ⟨store.size⟩) else entry := by
  cases parent with
  | none =>
    have hparent : ¬(none : Option NodeId) = some id := nofun
    simp only [if_neg hparent, Option.map_id_fun']
    rfl
  | some p =>
    refine (get?_modify _ _ _ _).trans ?_
    by_cases hparent : p = id
    · simp only [hparent, if_true]
      rfl
    · have hparent' : ¬some p = some id := fun h => hparent (Option.some.inj h)
      rw [if_neg hparent]
      simp only [if_neg hparent', Option.map_id_fun', id_eq]
      rfl

/-- A node that is not the parent of a new one stays as it is. -/
theorem get?_create_of_ne (h : store.get? id = some entry) (hparent : parent ≠ some id) :
    (store.create payload source diagnostics parent).2.get? id = some entry := by
  rw [get?_create, get?_add_of_get? h]
  simp only [if_neg hparent, Option.map_some]

/-- The nodes of the store and the new one are there afterwards, and only the children of one of
them can be others. -/
theorem exists_get?_create
    (h : (store.add (store.newEntry payload source diagnostics)).2.get? id = some entry) :
    ∃ entry', (store.create payload source diagnostics parent).2.get? id = some entry' ∧
      entry'.node = entry.node ∧
      ∀ named, entry'.Names named → entry.Names named ∨ named = ⟨store.size⟩ := by
  rw [get?_create, h, Option.map_some]
  refine ⟨_, rfl, ?_⟩
  split
  · exact ⟨rfl, fun named hnamed => (Entry.names_addChild hnamed).imp_right
      fun hnew => (Option.some.inj hnew).symm⟩
  · exact ⟨rfl, fun named => .inl⟩

/-- What a token holds does not depend on nodes that are made later. -/
theorem token?_create (h : store.get? id = some entry) :
    (store.create payload source diagnostics parent).2.token? id = store.token? id := by
  obtain ⟨entry', hentry', hnode, -⟩ := exists_get?_create payload source diagnostics parent
    (get?_add_of_get? h _)
  rw [token?, token?, hentry', h, Option.bind_some, Option.bind_some, hnode]

end Create

theorem get?_edit_of_ne {changed : NodeId} (h : changed ≠ id) (change : Edit) :
    (store.edit changed change).get? id = store.get? id :=
  (store.get?_modify _ _ _).trans (if_neg h)

theorem get?_edit_self (h : store.get? id = some entry) (change : Edit) :
    (store.edit id change).get? id = some (entry.edit change) := by
  rw [edit, get?_modify, if_pos rfl, h, Option.map_some]

/-! ## Closed stores -/

/-- There is a gap at the place or a node of the store. -/
def has (store : Store) (place : Option NodeId) : Bool :=
  place.all fun id => (store.get? id).isSome

theorem has_iff {place : Option NodeId} :
    store.has place = true ↔ ∀ id ∈ place, ∃ entry, store.get? id = some entry := by
  simp only [has, Option.all_eq_true, Option.isSome_iff_exists, Option.mem_def]

/-- Every node that is named exists. -/
def Closed (store : Store) : Prop :=
  ∀ id entry, store.get? id = some entry → ∀ named, entry.Names named →
    ∃ found, store.get? named = some found

theorem closed_empty : ({} : Store).Closed := by
  intro id entry h
  exact absurd (index_lt_size h) (Nat.not_lt_zero _)

theorem Closed.create (hclosed : store.Closed) {payload : Payload NodeId}
    (hidentifier : store.has payload.identifier? = true)
    (source : Option SourceSpan) (diagnostics : List Diagnostic) (parent : Option NodeId) :
    (store.create payload source diagnostics parent).2.Closed := by
  intro id entry hentry named hnamed
  have hadded : ∃ added,
      (store.add (store.newEntry payload source diagnostics)).2.get? id = some added ∧
        (added.Names named ∨ named = ⟨store.size⟩) := by
    rw [get?_create] at hentry
    obtain ⟨added, hadded, -⟩ := Option.map_eq_some_iff.1 hentry
    obtain ⟨entry', hentry', -, hnames⟩ :=
      exists_get?_create payload source diagnostics parent hadded
    rw [get?_create, hentry] at hentry'
    cases hentry'
    exact ⟨added, hadded, hnames named hnamed⟩
  have hfound : ∃ found,
      (store.add (store.newEntry payload source diagnostics)).2.get? named = some found := by
    obtain ⟨added, hadded, hnamed | rfl⟩ := hadded
    · rw [get?_add] at hadded
      split at hadded
      · cases hadded
        obtain ⟨found, hfound⟩ := has_iff.1 hidentifier named (names_newEntry _ _ _ hnamed)
        exact ⟨found, get?_add_of_get? hfound _⟩
      · obtain ⟨found, hfound⟩ := hclosed id added hadded named hnamed
        exact ⟨found, get?_add_of_get? hfound _⟩
    · exact ⟨_, store.get?_add_self _⟩
  obtain ⟨found, hfound⟩ := hfound
  obtain ⟨found', hfound', -⟩ := exists_get?_create payload source diagnostics parent hfound
  exact ⟨found', hfound'⟩

theorem Closed.edit (hclosed : store.Closed) {change : Edit}
    (hchild : store.has change.child? = true) (changed : NodeId) :
    (store.edit changed change).Closed := by
  have hstays : ∀ {id entry}, store.get? id = some entry →
      ∃ found, (store.edit changed change).get? id = some found := by
    intro id entry hentry
    by_cases hid : changed = id
    · subst hid
      exact ⟨_, get?_edit_self hentry change⟩
    · exact ⟨entry, (get?_edit_of_ne hid change).trans hentry⟩
  intro id entry hentry named hnamed
  have hfound : ∃ found, store.get? named = some found := by
    rw [Store.edit, get?_modify] at hentry
    split at hentry
    · obtain ⟨old, hold, rfl⟩ := Option.map_eq_some_iff.1 hentry
      rcases Entry.names_edit hnamed with hnamed | hnamed
      · exact hclosed id old hold named hnamed
      · exact has_iff.1 hchild named hnamed
    · exact hclosed id entry hentry named hnamed
  obtain ⟨found, hfound⟩ := hfound
  exact hstays hfound

/-! ## What is below a place -/

/-- The node is at the place or below it. -/
def Reaches (store : Store) (root : Option NodeId) (id : NodeId) : Prop :=
  ∃ way, store.Leads root way id

/-- A dump of the place shows something of the node: it is there or below, or it is the identifier
token of a reference that is. -/
def Shows (store : Store) (root : Option NodeId) (id : NodeId) : Prop :=
  store.Reaches root id ∨
    ∃ holder entry, store.Reaches root holder ∧ store.get? holder = some entry ∧
      id ∈ entry.node.payload.identifier?

variable {root : Option NodeId}

theorem Reaches.exists_entry (h : store.Reaches root id) : ∃ entry, store.get? id = some entry :=
  h.choose_spec.exists_entry

theorem reaches_self (h : store.get? id = some entry) : store.Reaches (some id) id :=
  ⟨[], .here h⟩

theorem Reaches.of_child {top : NodeId} (hentry : store.get? top = some entry)
    {child : Option NodeId} (hchild : child ∈ entry.children) (h : store.Reaches child id) :
    store.Reaches (some top) id := by
  obtain ⟨index, hindex⟩ := List.mem_iff_getElem?.1 hchild
  obtain ⟨way, hway⟩ := h
  exact ⟨index :: way, .step hentry hindex hway⟩

/-- The later store has the nodes at the place and below it as the store has them, with the
identifier tokens of the references among them. -/
structure SameBelow (later store : Store) (root : Option NodeId) : Prop where
  size_le : store.size ≤ later.size
  get?_eq : ∀ id, store.Reaches root id → later.get? id = store.get? id
  token?_eq : ∀ id entry, store.Reaches root id → store.get? id = some entry →
    ∀ token ∈ entry.node.payload.identifier?, later.token? token = store.token? token

variable {later : Store}

theorem SameBelow.refl (store : Store) (root : Option NodeId) : store.SameBelow store root where
  size_le := Nat.le_refl _
  get?_eq _ _ := rfl
  token?_eq _ _ _ _ _ _ := rfl

theorem SameBelow.child {top : NodeId} (h : later.SameBelow store (some top))
    (hentry : store.get? top = some entry) {child : Option NodeId}
    (hchild : child ∈ entry.children) : later.SameBelow store child where
  size_le := h.size_le
  get?_eq id hid := h.get?_eq id (hid.of_child hentry hchild)
  token?_eq id found hid hfound := h.token?_eq id found (hid.of_child hentry hchild) hfound

theorem SameBelow.view_eq {top : NodeId} (h : later.SameBelow store (some top))
    (hentry : store.get? top = some entry) : later.view entry.node = store.view entry.node :=
  congrArg entry.node.withPayload
    (Payload.bindToken_congr (h.token?_eq top entry (reaches_self hentry) hentry))

/-- Something that is computed for a place from what its node shows and from the same for the
children is the same in both stores. -/
theorem SameBelow.eq {β : Type} (f g : Nat → Option NodeId → β)
    (hzero : ∀ root, f 0 root = g 0 root)
    (hgap : ∀ levels, f (levels + 1) none = g (levels + 1) none)
    (hnode : ∀ levels id entry, later.get? id = some entry → store.get? id = some entry →
      later.SameBelow store (some id) →
      (∀ child ∈ entry.children, f levels child = g levels child) →
      f (levels + 1) (some id) = g (levels + 1) (some id))
    (hclosed : store.Closed) (hroot : store.has root = true)
    (h : later.SameBelow store root) (levels : Nat) : f levels root = g levels root := by
  induction levels generalizing root with
  | zero => exact hzero root
  | succ levels ih =>
    cases root with
    | none => exact hgap levels
    | some id =>
      obtain ⟨entry, hentry⟩ := has_iff.1 hroot id rfl
      have hlater := (h.get?_eq id (reaches_self hentry)).trans hentry
      refine hnode levels id entry hlater hentry h fun child hchild => ?_
      refine ih (has_iff.2 fun named hnamed => ?_) (h.child hentry hchild)
      exact hclosed id entry hentry named (.inl (Option.mem_def.1 hnamed ▸ hchild))

theorem SameBelow.unfold_eq (h : later.SameBelow store root) (hclosed : store.Closed)
    (hroot : store.has root = true) (levels : Nat) :
    later.unfold levels root = store.unfold levels root := by
  refine SameBelow.eq later.unfold store.unfold ?_ ?_ ?_ hclosed hroot h levels
  · exact fun _ => rfl
  · exact fun _ => rfl
  · intro levels id entry hlater hentry hsame hchildren
    have hlater' : (some id).bind later.get? = some entry := hlater
    have hentry' : (some id).bind store.get? = some entry := hentry
    rw [unfold_succ_of_some hlater', unfold_succ_of_some hentry', hsame.view_eq hentry,
      List.map_congr_left hchildren]

theorem SameBelow.walk_eq (h : later.SameBelow store root) (hclosed : store.Closed)
    (hroot : store.has root = true) (registry : Registry) (levels : Nat) :
    Writer.walk registry later levels root = Writer.walk registry store levels root := by
  refine SameBelow.eq (Writer.walk registry later) (Writer.walk registry store) ?_ ?_ ?_ hclosed
    hroot h levels
  · exact fun _ => rfl
  · exact fun _ => rfl
  · intro levels id entry hlater hentry hsame hchildren
    have hlater' : (some id).bind later.get? = some entry := hlater
    have hentry' : (some id).bind store.get? = some entry := hentry
    have hroot : store.has (some id) = true := has_iff.2 (by rintro _ ⟨⟩; exact ⟨entry, hentry⟩)
    rw [Writer.walk_succ_of_some _ _ _ hlater', Writer.walk_succ_of_some _ _ _ hentry',
      hsame.unfold_eq hclosed hroot, Writer.Action.forEach_congr hchildren]

/-- A place without cycles below it is dumped alike. -/
theorem SameBelow.dump_eq (h : later.SameBelow store root) (hclosed : store.Closed)
    (hroot : store.has root = true)
    (hends : store.EndsWithin store.size root) (setup : Setup) :
    later.dump setup root = store.dump setup root := by
  rw [dump, dump, dumpLevels_eq_dump_unfold, dumpLevels_eq_dump_unfold,
    h.unfold_eq hclosed hroot, unfold_eq_of_endsWithin (hends.mono h.size_le) hends]

theorem SameBelow.serialize_eq (h : later.SameBelow store root) (hclosed : store.Closed)
    (hroot : store.has root = true)
    (hends : store.EndsWithin store.size root) (registry : Registry) (serializer : Serializer) :
    serializer.serialize registry later root = serializer.serialize registry store root := by
  rw [Serializer.serialize, Serializer.serialize, h.walk_eq hclosed hroot,
    Writer.walk_eq_of_endsWithin registry (hends.mono h.size_le) hends]

/-! ## Changes that do not show -/

theorem exists_get?_of_lt (h : id.index < store.size) : ∃ entry, store.get? id = some entry :=
  ⟨_, Array.getElem?_eq_getElem h⟩

/-- A new node does not show in a place that does not reach the parent. -/
theorem SameBelow.create (h : later.SameBelow store root) (hclosed : store.Closed)
    (payload : Payload NodeId) (source : Option SourceSpan) (diagnostics : List Diagnostic)
    {parent : Option NodeId} (hparent : ∀ p ∈ parent, ¬store.Reaches root p) :
    (later.create payload source diagnostics parent).2.SameBelow store root where
  size_le := by
    rw [size_create]
    exact Nat.le_succ_of_le h.size_le
  get?_eq id hid := by
    obtain ⟨entry, hentry⟩ := hid.exists_entry
    rw [hentry]
    exact get?_create_of_ne _ _ _ _ ((h.get?_eq id hid).trans hentry)
      fun hparent' => hparent id hparent' hid
  token?_eq id entry hid hentry token htoken := by
    obtain ⟨found, hfound⟩ := hclosed id entry hentry token (.inr htoken)
    obtain ⟨found', hfound'⟩ :=
      exists_get?_of_lt (Nat.lt_of_lt_of_le (index_lt_size hfound) h.size_le)
    rw [token?_create _ _ _ _ hfound']
    exact h.token?_eq id entry hid hentry token htoken

/-- A change to a node of which the place shows nothing does not show. -/
theorem SameBelow.edit (h : later.SameBelow store root) {changed : NodeId}
    (hchanged : ¬store.Shows root changed) (change : Edit) :
    (later.edit changed change).SameBelow store root where
  size_le := Nat.le_trans h.size_le (Nat.le_of_eq (later.size_modify changed _).symm)
  get?_eq id hid := by
    have hne : changed ≠ id := fun hid' => hchanged (.inl (hid' ▸ hid))
    rw [get?_edit_of_ne hne]
    exact h.get?_eq id hid
  token?_eq id entry hid hentry token htoken := by
    have hne : changed ≠ token := fun htoken' =>
      hchanged (.inr ⟨id, entry, hid, hentry, htoken' ▸ htoken⟩)
    rw [token?, get?_edit_of_ne hne]
    exact h.token?_eq id entry hid hentry token htoken

end Store

end TemplateDump
