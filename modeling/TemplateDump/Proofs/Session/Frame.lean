import TemplateDump.Proofs.Registry.Registering
import TemplateDump.Proofs.Session.Reuse
import TemplateDump.Proofs.Store.Frame

/-!
# What a session changes in a dump

A step shows in the dump of a place only if it changes a node that the dump shows.
`dump_depends_on_what_it_shows` says so for whole runs, and with it what the line of a reference
shows after any run: the content that was given last to its identifier token, and the source span
that was given last to the reference itself, which in the beginning is a copy of that of the token.

* `closed_after` — steps that link only nodes that exist keep the store closed;
* `sameBelow_after` — steps that spare a place keep all that its dump shows;
* `part_after` — a part of a node is what was last put there.
-/

namespace TemplateDump

/-! ## Steps that change nodes -/

/-- The source span, or its absence, that a change gives to a node. -/
def Edit.source? : Edit → Option (Option SourceSpan)
  | .setSource span => some (some span)
  | .clearSource => some none
  | _ => none

/-- The content that a change gives to a token. -/
def Edit.content? : Edit → Option String
  | .construct (.content text) => some text
  | _ => none

/-- The extension that the contents are, if they are one. -/
def Payload.extension? {τ : Type} : Payload τ → Option (Extension τ)
  | .extension e => some e
  | .construct _ => none

theorem Payload.extension?_eq_some_iff {τ : Type} {p : Payload τ} {e : Extension τ} :
    p.extension? = some e ↔ p = .extension e := by
  cases p <;> simp [Payload.extension?]

namespace SessionStep

/-- The store after the step. -/
def changeStore (store : Store) : SessionStep → Store
  | .create payload source diagnostics parent =>
    (store.create payload source diagnostics parent).2
  | .edit id change => store.edit id change
  | .clear => {}
  | _ => store

/-- The step forgets all nodes. -/
def clears : SessionStep → Bool
  | .clear => true
  | _ => false

/-- The change of the step to a node. -/
def edit? (id : NodeId) : SessionStep → Option Edit
  | .edit changed change => if changed = id then some change else none
  | _ => none

/-- The nodes that the step makes others name are in the store. -/
def linksNodesOf (store : Store) : SessionStep → Bool
  | .create payload _ _ _ => store.has payload.identifier?
  | .edit _ change => store.has change.child?
  | _ => true

/-- The step changes no node that a dump of the place shows, and puts no node below one that is at
the place or below it. -/
def Spares (store : Store) (root : Option NodeId) : SessionStep → Prop
  | .create _ _ _ parent => ∀ p ∈ parent, ¬store.Reaches root p
  | .edit id _ => ¬store.Shows root id
  | .clear => False
  | _ => True

end SessionStep

/-! ## Lines of references -/

/-- A component of which the renderer is in force is written with its own fields. -/
theorem Setup.writeNode_component (setup : Setup) (depth : Nat) {node : Node}
    {c : Component Token} (hpayload : node.payload = .extension (.component c))
    (hlookup : setup.registry.lookup c.kind.label = some (Registry.componentShape c.kind)) :
    setup.writeNode depth node = .ofChars (Line.chars
      { depth := depth
        label := c.kind.label
        source := node.source
        fields := c.fields
        diagnostics := if setup.options.includeDiagnostics then node.diagnostics else [] }) := by
  have hresolve : setup.registry.resolve (node.withPayload (.component c)) =
      .rendered (.component c.kind) :=
    Registry.resolve_eq_rendered_iff.2
      ⟨_, Registry.shapeOf?_eq_some_iff.2 ⟨hlookup, rfl⟩, rfl⟩
  simp only [writeNode, line?, Registry.fields?_of_own_renderer hpayload hresolve, hpayload]
  rfl

/-- The line of a reference shows the content of its identifier token. -/
theorem Store.writeRoot_ref {store : Store} {id token : NodeId} {entry : Entry} {t : Token}
    {capture : Option String} (hentry : store.get? id = some entry)
    (hpayload : entry.node.payload = .extension (.component (.ref (some token) capture)))
    (htoken : store.token? token = some t) (setup : Setup) (depth : Nat)
    (hlookup : setup.registry.lookup ComponentKind.ref.label =
      some (Registry.componentShape .ref)) :
    store.writeRoot setup depth (some id) = .ofChars (Line.chars
      { depth := depth
        label := ComponentKind.ref.label
        source := entry.node.source
        fields := [some t.content, some (capture.getD elementCapture)]
        diagnostics :=
          if setup.options.includeDiagnostics then entry.node.diagnostics else [] }) := by
  obtain ⟨levels, -, hunfold⟩ := exists_unfold_size_eq hentry
  let node : Node := ⟨store.view entry.node, entry.children.map (store.unfold levels)⟩
  have hnode : node.payload = .extension (.component (.ref (some t) capture)) := by
    show entry.node.payload.bindToken store.token? = _
    simp only [hpayload, Payload.bindToken, Extension.bindToken, Component.bindToken,
      Option.bind_some, htoken]
  have hline := setup.writeNode_component depth hnode hlookup
  rw [Component.fields, Option.map_some] at hline
  rw [writeRoot, hunfold, Tree.writeRoot]
  exact hline

namespace Session

variable {session : Session} {step : SessionStep}

theorem store_step (session : Session) (step : SessionStep) :
    (session.step step).2.store = step.changeStore session.store := by
  cases step with
  | write root => cases h : session.writer <;> simp only [step, write, h, SessionStep.changeStore]
  | serialize root =>
    cases h : session.serializer <;> simp only [step, serialize, h, SessionStep.changeStore]
  | _ => rfl

/-! ## Closed stores -/

/-- Every step makes nodes name only nodes that are in the store at that time. -/
def linksNodes (session : Session) : List SessionStep → Bool
  | [] => true
  | step :: rest => step.linksNodesOf session.store && (session.step step).2.linksNodes rest

theorem closed_step (hclosed : session.store.Closed)
    (hstep : step.linksNodesOf session.store = true) : (session.step step).2.store.Closed := by
  rw [store_step]
  cases step with
  | create payload source diagnostics parent => exact hclosed.create hstep source diagnostics parent
  | edit id change => exact hclosed.edit hstep id
  | clear => exact Store.closed_empty
  | _ => exact hclosed

theorem closed_after {steps : List SessionStep} (hclosed : session.store.Closed)
    (hsteps : session.linksNodes steps = true) : (session.after steps).store.Closed := by
  induction steps generalizing session with
  | nil => exact hclosed
  | cons step rest ih =>
    obtain ⟨hstep, hrest⟩ := Bool.and_eq_true_iff.1 hsteps
    exact ih (closed_step hclosed hstep) hrest

/-! ## Steps that spare a place -/

variable {store : Store} {root : Option NodeId}

theorem sameBelow_step (h : session.store.SameBelow store root) (hclosed : store.Closed)
    (hstep : step.Spares store root) : (session.step step).2.store.SameBelow store root := by
  rw [store_step]
  cases step with
  | create payload source diagnostics parent => exact h.create hclosed _ _ _ hstep
  | edit id change => exact h.edit hstep change
  | clear => exact hstep.elim
  | _ => exact h

/-- A run keeps what the dump of a place shows, if each of its steps does. -/
theorem sameBelow_after {steps : List SessionStep} (h : session.store.SameBelow store root)
    (hclosed : store.Closed) (hsteps : ∀ step ∈ steps, step.Spares store root) :
    (session.after steps).store.SameBelow store root := by
  induction steps generalizing session with
  | nil => exact h
  | cons step rest ih =>
    obtain ⟨hstep, hrest⟩ := List.forall_mem_cons.1 hsteps
    exact ih (sameBelow_step h hclosed hstep) hrest

/-! ## Parts of a node -/

variable {β : Type} {read : Annotated (Payload NodeId) → Option β} {put? : Edit → Option β}

/-- A part of the node with an identity. -/
def part (read : Annotated (Payload NodeId) → Option β) (id : NodeId) (session : Session) :
    Option β :=
  (session.store.get? id).bind fun entry => read entry.node

/-- What was put last into a part of a node. -/
def lastPut (put? : Edit → Option β) (id : NodeId) (steps : List SessionStep) : Option β :=
  (steps.filterMap fun step => (step.edit? id).bind put?).getLast?

/-- Only changes to a node put something into its parts. -/
theorem part_step
    (hput : ∀ (entry : Entry) change b, read entry.node = some b →
      read (entry.edit change).node = some ((put? change).getD b)) (id : NodeId) :
    SetsOnly (part read id) (fun step => (step.edit? id).bind put?) SessionStep.clears := by
  intro session step b hb hstep
  obtain ⟨entry, hentry, hread⟩ := Option.bind_eq_some_iff.1 hb
  rw [part, store_step]
  cases step with
  | create payload source diagnostics parent =>
    obtain ⟨entry', hentry', hnode, -⟩ := Store.exists_get?_create payload source diagnostics parent
      (Store.get?_add_of_get? hentry _)
    rw [SessionStep.changeStore, hentry', Option.bind_some, hnode, hread]
    rfl
  | edit changed change =>
    by_cases hid : changed = id
    · subst hid
      have hedit : (SessionStep.edit changed change).edit? changed = some change := if_pos rfl
      simp only [SessionStep.changeStore, Store.get?_edit_self hentry, Option.bind_some, hedit]
      exact hput entry change b hread
    · have hedit : (SessionStep.edit changed change).edit? id = none := if_neg hid
      simp only [SessionStep.changeStore, Store.get?_edit_of_ne hid, hedit]
      exact hb
  | clear => exact absurd hstep (by decide)
  | _ => exact hb

theorem part_after
    (hput : ∀ (entry : Entry) change b, read entry.node = some b →
      read (entry.edit change).node = some ((put? change).getD b)) {id : NodeId} {b : β}
    (hb : session.part read id = some b) {steps : List SessionStep}
    (hsteps : ∀ step ∈ steps, step.clears = false) :
    (session.after steps).part read id = some ((lastPut put? id steps).getD b) :=
  (part_step hput id).after hb hsteps

/-- The source span is what was set last. -/
theorem source_edit (entry : Entry) (change : Edit) (source : Option SourceSpan)
    (h : some entry.node.source = some source) :
    some (entry.edit change).node.source = some (change.source?.getD source) := by
  cases h
  cases change with
  | construct change => rcases entry with ⟨⟨c | e, source, diagnostics⟩, children⟩ <;> rfl
  | _ => rfl

/-- The content of a token is what was set last. -/
theorem content_edit (entry : Entry) (change : Edit) (content : String)
    (h : entry.node.payload.token?.map Token.content = some content) :
    (entry.edit change).node.payload.token?.map Token.content =
      some (change.content?.getD content) := by
  cases change with
  | construct change =>
    obtain ⟨t, ht, rfl⟩ := Option.map_eq_some_iff.1 h
    rcases entry with ⟨⟨c | e, source, diagnostics⟩, children⟩
    · cases c with
      | token t' =>
        cases ht
        cases change <;> rfl
      | _ => exact absurd ht nofun
    · exact absurd ht nofun
  | _ => exact h

/-- An extension stays what it is. -/
theorem extension_edit (entry : Entry) (change : Edit) (e : Extension NodeId)
    (h : entry.node.payload.extension? = some e) :
    (entry.edit change).node.payload.extension? = some e := by
  cases change with
  | construct change =>
    rcases entry with ⟨⟨c | e', source, diagnostics⟩, children⟩
    · exact absurd h nofun
    · exact h
  | _ => exact h

theorem extension_after {id : NodeId} {e : Extension NodeId}
    (he : session.part (·.payload.extension?) id = some e) {steps : List SessionStep}
    (hsteps : ∀ step ∈ steps, step.clears = false) :
    (session.after steps).part (·.payload.extension?) id = some e := by
  have hkeep : ∀ (entry : Entry) (change : Edit) (e : Extension NodeId),
      entry.node.payload.extension? = some e →
      (entry.edit change).node.payload.extension? =
        some ((none : Option (Extension NodeId)).getD e) := extension_edit
  have hnothing : lastPut (fun _ => (none : Option (Extension NodeId))) id steps = none := by
    simp [lastPut]
  rw [part_after hkeep he hsteps, hnothing, Option.getD_none]

theorem part_created (read : Annotated (Payload NodeId) → Option β) (session : Session)
    (payload : Payload NodeId) (source : Option SourceSpan) (diagnostics : List Diagnostic)
    (parent : Option NodeId) :
    (session.step (.create payload source diagnostics parent)).2.part read ⟨session.store.size⟩ =
      read (session.store.newEntry payload source diagnostics).node := by
  obtain ⟨entry', hentry', hnode, -⟩ := Store.exists_get?_create payload source diagnostics parent
    (session.store.get?_add_self _)
  rw [part, store_step, SessionStep.changeStore, hentry', Option.bind_some, hnode]

/-- **A dump depends only on what it shows.**  Take any state that steps bring about which link only
nodes that exist.  If it has no cycles, no run changes the dump of a place, nor what a serializer
writes for it, as long as each step spares the place: it changes no node that the dump shows and
puts no new node below one that is there.

The line of a reference shows, whatever follows up to the point where all nodes are forgotten, the
content that its identifier token has by then, and the source span that was given to the reference
itself; without any, the one that the token had when the reference was made. -/
theorem dump_depends_on_what_it_shows {steps : List SessionStep}
    (hsteps : ({} : Session).linksNodes steps = true) :
    let session := ({} : Session).after steps
    (session.store.Acyclic → ∀ (root : Option NodeId) (later : List SessionStep),
      session.store.has root = true → (∀ step ∈ later, step.Spares session.store root) →
      (∀ setup, (session.after later).store.dump setup root = session.store.dump setup root) ∧
      ∀ registry (serializer : Serializer),
        serializer.serialize registry (session.after later).store root =
          serializer.serialize registry session.store root) ∧
    ∀ (token : NodeId) (entry : Entry) (t : Token), session.store.get? token = some entry →
      entry.node.payload = .construct (.token t) → ∀ capture source diagnostics parent later,
      (∀ step ∈ later, step.clears = false) →
      let payload := .extension (.component (.ref (some token) capture))
      let made := (session.step (.create payload source diagnostics parent)).2
      let ref : NodeId := ⟨session.store.size⟩
      let store := (made.after later).store
      let content := (lastPut Edit.content? token later).getD t.content
      (store.token? token).map Token.content = some content ∧
      ∃ now, store.get? ref = some now ∧
        now.node.source = (lastPut Edit.source? ref later).getD (source.or entry.node.source) ∧
        ∀ (setup : Setup) (depth : Nat),
          setup.registry.lookup ComponentKind.ref.label = some (Registry.componentShape .ref) →
          store.writeRoot setup depth (some ref) = .ofChars (Line.chars
            { depth := depth
              label := ComponentKind.ref.label
              source := now.node.source
              fields := [some content, some (capture.getD elementCapture)]
              diagnostics :=
                if setup.options.includeDiagnostics then now.node.diagnostics else [] }) := by
  intro session
  have hclosed : session.store.Closed := closed_after Store.closed_empty hsteps
  constructor
  · intro hacyclic root later hroot hspares
    have hsame := sameBelow_after (Store.SameBelow.refl session.store root) hclosed hspares
    have hends := hacyclic.endsWithin root
    exact ⟨hsame.dump_eq hclosed hroot hends, hsame.serialize_eq hclosed hroot hends⟩
  · intro token entry t hentry hpayload capture source diagnostics parent later hlater payload made
      ref store content
    have hcontent : (store.token? token).map Token.content = some content := by
      have hbefore : session.part (·.payload.token?.map Token.content) token = some t.content := by
        rw [part, hentry, Option.bind_some, hpayload]
        rfl
      have hafter := part_after content_edit hbefore
        (List.forall_mem_cons.2 ⟨rfl, hlater⟩ :
          ∀ step ∈ .create payload source diagnostics parent :: later, step.clears = false)
      rwa [Store.token?, Option.map_bind]
    have hnew : session.store.newEntry payload source diagnostics =
        ⟨⟨payload, source.or entry.node.source, diagnostics⟩, [some token]⟩ := by
      simp only [payload, Store.newEntry, hentry, Option.bind_some]
    have hsource : (made.after later).part (some ·.source) ref =
        some ((lastPut Edit.source? ref later).getD (source.or entry.node.source)) := by
      refine part_after source_edit ?_ hlater
      rw [part_created, hnew]
    have hextension : (made.after later).part (·.payload.extension?) ref =
        some (.component (.ref (some token) capture)) := by
      refine extension_after ?_ hlater
      rw [part_created, hnew]
      rfl
    obtain ⟨now, hnow, hnowSource⟩ := Option.bind_eq_some_iff.1 hsource
    refine ⟨hcontent, now, hnow, Option.some.inj hnowSource, fun setup depth hlookup => ?_⟩
    obtain ⟨last, hlast, hlastContent⟩ := Option.map_eq_some_iff.1 hcontent
    rw [part, hnow, Option.bind_some, Payload.extension?_eq_some_iff] at hextension
    rw [← hlastContent]
    exact Store.writeRoot_ref hnow hextension hlast setup depth hlookup

/-- A node that the first reference is not above gets it as a child and a new child besides, which
the dump of the reference does not show.  The token of a second reference is taken out of its
children; then the content and the span of the token are changed, and the line of the reference
shows only the content. -/
theorem detached_token_of_ref :
    let span : SourceSpan := ⟨"a.razor", 1, 2, 3, 4⟩
    let ref : Payload NodeId := .extension (.component (.ref (some ⟨0⟩) none))
    let steps : List SessionStep := [
      .create (.construct (.token ⟨.csharp, "x"⟩)) (some span) [] none,
      .create ref none [] none, .create (.construct .htmlContent) none [] none]
    let session := ({} : Session).after steps
    let above : List SessionStep := [.edit ⟨2⟩ (.addChild (some ⟨1⟩)),
      .create (.construct .htmlContent) none [] (some ⟨2⟩)]
    let detach : List SessionStep := [.edit ⟨3⟩ (.removeChild 0),
      .edit ⟨0⟩ (.construct (.content "y")), .edit ⟨0⟩ .clearSource]
    let setup := ({} : Setup).apply .registerComponents
    (({} : Session).linksNodes steps = true ∧ session.store.Acyclic ∧
      session.store.has (some ⟨1⟩) = true ∧
      (∀ step ∈ above, step.Spares session.store (some ⟨1⟩)) ∧
      ∀ step ∈ detach, step.clears = false) ∧
    (session.after above).store.dump setup (some ⟨1⟩) = session.store.dump setup (some ⟨1⟩) ∧
    ((session.step (.create ref none [] none)).2.after detach).store.writeRoot setup 0 (some ⟨3⟩) =
      .ofChars "RefExtensionNode - (1:2,3 [4] a.razor) - y - Element".toList := by
  intro span ref steps session above detach setup
  have hlinks : ({} : Session).linksNodes steps = true := by decide
  have hchildren : session.store.childrenAreOlder = true := by decide
  have hreaches : ¬session.store.Reaches (some ⟨1⟩) ⟨2⟩ := by
    rintro ⟨way, hway⟩
    have hle : 2 + way.length ≤ 1 := hway.index_add_length_le hchildren rfl
    omega
  have hidentifiers : ∀ entry ∈ session.store.entries.toList,
      ¬⟨2⟩ ∈ entry.node.payload.identifier? := by decide
  have hspares : ∀ step ∈ above, step.Spares session.store (some ⟨1⟩) := by
    refine List.forall_mem_cons.2 ⟨?_, List.forall_mem_singleton.2 ?_⟩
    · rintro (hreach | ⟨holder, entry, -, hentry, hidentifier⟩)
      · exact hreaches hreach
      · exact hidentifiers entry (Array.mem_toList_iff.2 (Array.mem_of_getElem? hentry)) hidentifier
    · rintro p ⟨⟩
      exact hreaches
  have hdetach : ∀ step ∈ detach, step.clears = false := by decide
  have hacyclic := Store.acyclic_of_childrenAreOlder hchildren
  obtain ⟨hframe, href⟩ := dump_depends_on_what_it_shows hlinks
  obtain ⟨hdump, -⟩ := hframe hacyclic (some ⟨1⟩) above (by decide) hspares
  obtain ⟨-, now, hnow, -, hline⟩ :=
    href ⟨0⟩ _ _ rfl rfl none none [] none detach hdetach
  refine ⟨⟨hlinks, hacyclic, by decide, hspares, hdetach⟩, hdump setup, ?_⟩
  obtain rfl : now = ⟨⟨ref, some span, []⟩, []⟩ := Option.some.inj (hnow.symm.trans (by rfl))
  exact (hline setup 0 (by rfl)).trans (by decide)

end Session

end TemplateDump
