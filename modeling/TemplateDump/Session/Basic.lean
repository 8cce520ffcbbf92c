import TemplateDump.Session.Writer

/-!
# Sessions

A session holds a store and a setup, a stream, at most one writer and one serializer that write to
the stream, and the error of the last dump that was stopped. It goes on in steps, each of which
yields the output that it wrote. `outputs_append` and `after_append` take a sequence of steps in two
parts.
-/

namespace TemplateDump

/-- The state of a session. -/
structure Session where
  store : Store := {}
  setup : Setup := {}
  stream : List Char := []
  writer : Option Writer := none
  serializer : Option Serializer := none
  /-- The error of the last dump that was stopped. Later dumps without trouble keep it. -/
  error : Option DumpError := none

/-- A step of a session. -/
inductive SessionStep where
  | setup (operation : SetupOperation)
  | setOptions (options : Options)
  | create (payload : Payload NodeId) (source : Option SourceSpan)
      (diagnostics : List Diagnostic) (parent : Option NodeId)
  | edit (id : NodeId) (change : Edit)
  | clear
  | dump (root : Option NodeId)
  | newWriter
  | setDepth (depth : UInt32)
  | write (root : Option NodeId)
  | newSerializer
  | serialize (root : Option NodeId)

namespace Session

/-- Dumps a node, not to the stream, with the setup as it is. -/
def dump (session : Session) (root : Option NodeId) : Output × Session :=
  let output := session.store.dump session.setup root
  (output, { session with error := output.error.or session.error })

/-- Lets the writer write a node to the stream. -/
def write (session : Session) (root : Option NodeId) : Output × Session :=
  match session.writer with
  | none => (.empty, session)
  | some writer =>
    let tree := session.store.unfold session.store.size root
    let (output, used) := writer.write session.setup.registry tree
    (output, { session with stream := session.stream ++ output.chars, writer := some used })

/-- Lets the serializer write the dump of a node to the stream. -/
def serialize (session : Session) (root : Option NodeId) : Output × Session :=
  match session.serializer with
  | none => (.empty, session)
  | some serializer =>
    let (output, used) := serializer.serialize session.setup.registry session.store root
    (output, { session with stream := session.stream ++ output.chars, serializer := some used })

/-- Forgets all nodes. -/
def clear (session : Session) : Session :=
  { session with store := {} }

/-- Carries out a step. -/
def step (session : Session) : SessionStep → Output × Session
  | .setup operation => (.empty, { session with setup := session.setup.apply operation })
  | .setOptions options =>
    (.empty, { session with setup := { session.setup with options := options } })
  | .create payload source diagnostics parent =>
    (.empty, { session with store := (session.store.create payload source diagnostics parent).2 })
  | .edit id change => (.empty, { session with store := session.store.edit id change })
  | .clear => (.empty, session.clear)
  | .dump root => session.dump root
  | .newWriter =>
    (.empty, { session with writer := some { options := session.setup.options } })
  | .setDepth depth =>
    (.empty, { session with writer := session.writer.map ({ · with depth := depth }) })
  | .write root => session.write root
  | .newSerializer =>
    (.empty, { session with serializer := some (.new session.setup.options) })
  | .serialize root => session.serialize root

/-! ## Runs -/

/-- The state after steps that are carried out one after the other. -/
def after (session : Session) (steps : List SessionStep) : Session :=
  steps.foldl (fun s step => (s.step step).2) session

/-- The outputs of steps that are carried out one after the other. -/
def outputs (session : Session) : List SessionStep → List Output
  | [] => []
  | first :: rest => (session.step first).1 :: (session.step first).2.outputs rest

theorem after_append (session : Session) (first second : List SessionStep) :
    session.after (first ++ second) = (session.after first).after second :=
  List.foldl_append

theorem outputs_append (session : Session) (first second : List SessionStep) :
    session.outputs (first ++ second) =
      session.outputs first ++ (session.after first).outputs second := by
  induction first generalizing session with
  | nil => rfl
  | cons step rest ih => exact congrArg _ (ih _)

end Session

end TemplateDump
