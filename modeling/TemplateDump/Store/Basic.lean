import TemplateDump.Node.Basic
import TemplateDump.Node.Edit

/-!
# Stores of nodes

A store owns nodes, which are named by their identities. A node lists its children by identity, so
that several nodes can share a child and a child can occur more than once; a place in the list may
also be a gap. A reference names its identifier token by identity too and so follows every later
change to it, also when the token is no longer among its children.

`get?_add` and `get?_modify` say what the two ways of changing a store do to the nodes in it.
-/

namespace TemplateDump

/-! ## Entries -/

/-- The identity of a node in a store. -/
structure NodeId where
  index : Nat
deriving DecidableEq, Inhabited

/-- What a store keeps of a node. -/
structure Entry where
  node : Annotated (Payload NodeId)
  children : List (Option NodeId) := []

/-- A change to one node. -/
inductive Edit where
  | addChild (child : Option NodeId)
  | insertChild (index : Nat) (child : Option NodeId)
  | removeChild (index : Nat)
  | setSource (span : SourceSpan)
  | clearSource
  | addDiagnostic (diagnostic : Diagnostic)
  | construct (change : ConstructEdit)

namespace Entry

/-- Adds a child behind the others. -/
def addChild (entry : Entry) (child : Option NodeId) : Entry :=
  { entry with children := entry.children ++ [child] }

/-- Puts a child in front of the one at an index, or behind all if there is none. -/
def insertChild (entry : Entry) (index : Nat) (child : Option NodeId) : Entry :=
  { entry with children := entry.children.take index ++ child :: entry.children.drop index }

/-- Takes the child at an index away, if there is one. -/
def removeChild (entry : Entry) (index : Nat) : Entry :=
  { entry with children := entry.children.eraseIdx index }

/-- Changes the construct that a node holds. -/
def editConstruct (entry : Entry) (change : ConstructEdit) : Entry :=
  match entry.node.payload with
  | .construct c => { entry with node := entry.node.withPayload (.construct (c.edit change)) }
  | .extension _ => entry

/-- The node after a change. -/
def edit (entry : Entry) : Edit → Entry
  | .addChild child => entry.addChild child
  | .insertChild index child => entry.insertChild index child
  | .removeChild index => entry.removeChild index
  | .setSource span => { entry with node := { entry.node with source := some span } }
  | .clearSource => { entry with node := { entry.node with source := none } }
  | .addDiagnostic d =>
    { entry with node := { entry.node with diagnostics := entry.node.diagnostics ++ [d] } }
  | .construct change => entry.editConstruct change

end Entry

/-! ## Stores -/

/-- The nodes by identity. -/
structure Store where
  entries : Array Entry := #[]

namespace Store

/-- The number of nodes. -/
def size (store : Store) : Nat :=
  store.entries.size

/-- The node with an identity. -/
def get? (store : Store) (id : NodeId) : Option Entry :=
  store.entries[id.index]?

/-- Puts a node into the store under a new identity. -/
def add (store : Store) (entry : Entry) : NodeId × Store :=
  (⟨store.size⟩, ⟨store.entries.push entry⟩)

/-- Changes the node with an identity. -/
def modify (store : Store) (id : NodeId) (f : Entry → Entry) : Store :=
  ⟨store.entries.modify id.index f⟩

/-- A new node. A reference starts with its identifier token as its only child and, if it has no
source span of its own, with a copy of that of the token. -/
def newEntry (store : Store) (payload : Payload NodeId) (source : Option SourceSpan)
    (diagnostics : List Diagnostic) : Entry :=
  match payload with
  | .extension (.component (.ref (some token) _)) =>
    { node := ⟨payload, source.or ((store.get? token).bind (·.node.source)), diagnostics⟩
      children := [some token] }
  | _ => { node := ⟨payload, source, diagnostics⟩ }

/-- Creates a node and, if a parent is given, makes it the last child of that. -/
def create (store : Store) (payload : Payload NodeId) (source : Option SourceSpan)
    (diagnostics : List Diagnostic) (parent : Option NodeId) : NodeId × Store :=
  let (id, created) := store.add (store.newEntry payload source diagnostics)
  match parent with
  | some p => (id, created.modify p (·.addChild (some id)))
  | none => (id, created)

/-- Carries out a change to the node with an identity. -/
def edit (store : Store) (id : NodeId) (change : Edit) : Store :=
  store.modify id (·.edit change)

/-- The token that the node with an identity holds, if it holds one. -/
def token? (store : Store) (id : NodeId) : Option Token :=
  (store.get? id).bind (·.node.payload.token?)

/-- What is kept of a node, with its identifier token as it is now in the place of the token's
identity. -/
def view (store : Store) (node : Annotated (Payload NodeId)) : Head :=
  node.withPayload (node.payload.bindToken store.token?)

/-! ## The nodes after a change -/

@[simp] theorem get?_add (store : Store) (entry : Entry) (id : NodeId) :
    (store.add entry).2.get? id =
      if id = (store.add entry).1 then some entry else store.get? id := by
  cases id with
  | mk index => simp [add, get?, size, Array.getElem?_push]

theorem get?_modify (store : Store) (changed id : NodeId) (f : Entry → Entry) :
    (store.modify changed f).get? id =
      if changed = id then (store.get? id).map f else store.get? id := by
  cases changed with
  | mk i =>
    cases id with
    | mk j => simp [modify, get?, Array.getElem?_modify]

@[simp] theorem size_modify (store : Store) (id : NodeId) (f : Entry → Entry) :
    (store.modify id f).size = store.size := by
  simp [modify, size]

@[simp] theorem size_add (store : Store) (entry : Entry) :
    (store.add entry).2.size = store.size + 1 := by
  simp [add, size]

end Store

end TemplateDump
