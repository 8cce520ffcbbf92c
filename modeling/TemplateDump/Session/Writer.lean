import TemplateDump.Store.Dump

/-!
# Writers and serializers

A writer writes the lines of single nodes at a depth that stays until it is set anew. A serializer
writes whole dumps with a writer of its own, which it moves up and down with its walk: the depth is
set back behind the children of a node, but a walk that is stopped leaves it where it is, and the
next walk starts at depth zero again. Both take the options that hold when they are made, read the
registry as it is when they write, and keep the last error that stopped them.
-/

namespace TemplateDump

/-- The wording of an error that may have occurred; nothing if none has. -/
def errorText (error : Option DumpError) : String :=
  error.elim "" DumpError.message

/-! ## Writers -/

/-- A writer of single nodes. Its depth is a word of 32 bits. -/
structure Writer where
  options : Options
  depth : UInt32 := 0
  error : Option DumpError := none

namespace Writer

/-- Writes the root of a tree at the depth of the writer. -/
def write (writer : Writer) (registry : Registry) (tree : Tree) : Output × Writer :=
  let output := tree.writeRoot ⟨registry, writer.options⟩ writer.depth.toNat
  (output, { writer with error := output.error.or writer.error })

/-! ### Actions

An action of a writer yields an output and the writer as it is afterwards. -/

/-- Something that a writer does. -/
abbrev Action := Writer → Output × Writer

namespace Action

/-- Does nothing. -/
def skip (writer : Writer) : Output × Writer :=
  (.empty, writer)

/-- Writes a text that needs no node. -/
def text (chars : List Char) (writer : Writer) : Output × Writer :=
  (.ofChars chars, writer)

/-- Does one thing after the other, unless it is stopped at the first. -/
def andThen (first second : Action) (writer : Writer) : Output × Writer :=
  let (output, used) := first writer
  match output.error with
  | some _ => (output, used)
  | none =>
    let (later, last) := second used
    (output ++ later, last)

/-- Does something for each member of a list, up to the first at which it is stopped. -/
def forEach {α : Type} (act : α → Action) : List α → Action
  | [], writer => skip writer
  | a :: rest, writer => andThen (act a) (forEach act rest) writer

/-- Does something one level deeper and comes back, unless it is stopped there. -/
def below (act : Action) (writer : Writer) : Output × Writer :=
  let (output, reached) := act { writer with depth := writer.depth + 1 }
  match output.error with
  | some _ => (output, reached)
  | none => (output, { reached with depth := writer.depth })

end Action

/-- Writes the lines of what can be reached from a node in at most `levels` steps, counting the one
to the node itself, and those of the children one level deeper. -/
def walk (registry : Registry) (store : Store) : Nat → Option NodeId → Action
  | 0, _, writer => Action.skip writer
  | levels + 1, root, writer =>
    match root.bind store.get? with
    | none => Action.skip writer
    | some entry =>
      Action.andThen (·.write registry (store.unfold (levels + 1) root))
        (Action.andThen (Action.text ['\n'])
          (Action.below (Action.forEach (walk registry store levels) entry.children))) writer

end Writer

/-! ## Serializers -/

/-- A writer of whole dumps. -/
structure Serializer where
  writer : Writer

namespace Serializer

/-- A serializer that has not been used. -/
def new (options : Options) : Serializer :=
  ⟨{ options := options }⟩

/-- The options that the serializer was made with. -/
def options (serializer : Serializer) : Options :=
  serializer.writer.options

/-- The last error that stopped the serializer. -/
def error (serializer : Serializer) : Option DumpError :=
  serializer.writer.error

/-- Writes the dump of a node. -/
def serialize (serializer : Serializer) (registry : Registry) (store : Store)
    (root : Option NodeId) : Output × Serializer :=
  let start := { serializer.writer with depth := 0 }
  let (output, used) := Writer.walk registry store store.size root start
  (output, ⟨used⟩)

end Serializer

end TemplateDump
