import TemplateDump.Proofs.Session.Walk
import TemplateDump.Session.Basic

/-!
# Using a writer and a serializer again

A writer and a serializer carry a depth and an error from one call to the next, and a dump that is
stopped leaves the depth wherever it was.  None of it shows in what they write: by
`outputs_independent_of_past` each call writes, in every run, what an object that has just been made
would write.  What an object keeps is the wording of the error of its last call that was stopped
(`TellsLastFailure`).

* `serializer_step`, `writer_step` — what a single step does to the two objects;
* `view_after` — what a run does to an object of which the steps are known;
* `depth_after` — the depth of the writer is the one that was set last.
-/

namespace TemplateDump

/-! ## Kinds of steps -/

namespace SessionStep

/-- The step puts another writer in the place of the writer. -/
def replacesWriter : SessionStep → Bool
  | .newWriter => true
  | _ => false

/-- The step puts another serializer in the place of the serializer. -/
def replacesSerializer : SessionStep → Bool
  | .newSerializer => true
  | _ => false

/-- The step is a call of the writer. -/
def isWrite : SessionStep → Bool
  | .write _ => true
  | _ => false

/-- The step is a call of the serializer. -/
def isSerialize : SessionStep → Bool
  | .serialize _ => true
  | _ => false

/-- The depth that the step gives to the writer. -/
def depth? : SessionStep → Option UInt32
  | .setDepth depth => some depth
  | _ => none

end SessionStep

/-- The depth that was set last; at first it is zero. -/
def lastDepth (steps : List SessionStep) : UInt32 :=
  (steps.filterMap SessionStep.depth?).getLast?.getD 0

/-- The error of the last output that was stopped. -/
def lastError (outputs : List Output) : Option DumpError :=
  (outputs.filterMap Output.error).getLast?

theorem lastError_cons (output : Output) (rest : List Output) :
    lastError (output :: rest) = (lastError rest).or output.error := by
  cases h : output.error with
  | none => rw [lastError, List.filterMap_cons_none h, Option.or_none, lastError]
  | some e =>
    rw [lastError, List.filterMap_cons_some h, List.getLast?_cons, lastError]
    cases (rest.filterMap Output.error).getLast? <;> rfl

/-- Outputs that were not stopped have no error. -/
theorem filterMap_error_eq_nil {outputs : List Output}
    (h : ∀ output ∈ outputs, output.succeeded = true) : outputs.filterMap Output.error = [] :=
  List.filterMap_eq_nil_iff.2 fun output hmem => Option.isNone_iff_eq_none.1 (h output hmem)

/-- The text says nothing if none of the outputs was stopped, and otherwise names the node at which
the last one was, also if others were not stopped since then. -/
structure TellsLastFailure (outputs : List Output) (text : String) : Prop where
  eq_empty : (∀ output ∈ outputs, output.succeeded = true) → text = ""
  eq_message : ∀ before output after label moduleName, outputs = before ++ output :: after →
    output.error = some (.unknownNode label moduleName) →
    (∀ later ∈ after, later.succeeded = true) →
    text = "Unknown node type: " ++ label ++ " (origin " ++ moduleName ++ ")"

theorem tellsLastFailure_lastError (outputs : List Output) :
    TellsLastFailure outputs (errorText (lastError outputs)) where
  eq_empty h := by
    rw [lastError, filterMap_error_eq_nil h]
    rfl
  eq_message before output after label moduleName houtputs herror hafter := by
    rw [houtputs, lastError, List.filterMap_append, List.filterMap_cons_some herror,
      filterMap_error_eq_nil hafter, List.getLast?_concat]
    rfl

namespace Session

/-- The outputs of the steps that `select` picks. -/
def outputsOf (select : SessionStep → Bool) (session : Session) (steps : List SessionStep) :
    List Output :=
  ((steps.zip (session.outputs steps)).filter fun p => select p.1).map Prod.snd

variable {session : Session} {step : SessionStep}

theorem outputsOf_cons (select : SessionStep → Bool) (session : Session) (step : SessionStep)
    (rest : List SessionStep) :
    session.outputsOf select (step :: rest) =
      if select step then (session.step step).1 :: (session.step step).2.outputsOf select rest
      else (session.step step).2.outputsOf select rest := by
  cases h : select step <;> simp [outputsOf, outputs, h]

/-! ## What a run keeps of an object -/

/-- Every step that does not replace the object keeps its options, and notes the error of a call
that was stopped. -/
def Keeps (view : Session → Option Writer) (uses replaces : SessionStep → Bool) : Prop :=
  ∀ session step w, view session = some w → replaces step = false →
    ∃ w', view (session.step step).2 = some w' ∧ w'.options = w.options ∧
      w'.error = if uses step then (session.step step).1.error.or w.error else w.error

/-- A run keeps the options of an object, and leaves it with the error of its last call that was
stopped. -/
theorem view_after {view : Session → Option Writer} {uses replaces : SessionStep → Bool}
    (hkeeps : Keeps view uses replaces) {steps : List SessionStep} {w : Writer}
    (hw : view session = some w) (hsteps : ∀ step ∈ steps, replaces step = false) :
    ∃ w', view (session.after steps) = some w' ∧ w'.options = w.options ∧
      w'.error = (lastError (session.outputsOf uses steps)).or w.error := by
  induction steps generalizing session w with
  | nil => exact ⟨w, hw, rfl, rfl⟩
  | cons step rest ih =>
    obtain ⟨hstep, hrest⟩ := List.forall_mem_cons.1 hsteps
    obtain ⟨v, hv, hvoptions, hverror⟩ := hkeeps session step w hw hstep
    obtain ⟨w', hw', hoptions, herror⟩ := ih hv hrest
    refine ⟨w', hw', hoptions.trans hvoptions, ?_⟩
    rw [herror, hverror, outputsOf_cons]
    cases uses step with
    | true => simp only [if_true, lastError_cons, Option.or_assoc]
    | false => simp

/-- Every step that does not break the view sets what is viewed or leaves it as it is. -/
def SetsOnly {β : Type} (view : Session → Option β) (set? : SessionStep → Option β)
    (breaks : SessionStep → Bool) : Prop :=
  ∀ session step b, view session = some b → breaks step = false →
    view (session.step step).2 = some ((set? step).getD b)

/-- A run leaves what was set last. -/
theorem SetsOnly.after {β : Type} {view : Session → Option β} {set? : SessionStep → Option β}
    {breaks : SessionStep → Bool} (hset : SetsOnly view set? breaks) {steps : List SessionStep}
    {b : β} (hb : view session = some b) (hsteps : ∀ step ∈ steps, breaks step = false) :
    view (session.after steps) = some ((steps.filterMap set?).getLast?.getD b) := by
  induction steps generalizing session b with
  | nil => exact hb
  | cons step rest ih =>
    obtain ⟨hstep, hrest⟩ := List.forall_mem_cons.1 hsteps
    rw [Session.after, List.foldl_cons, ← Session.after, ih (hset session step b hb hstep) hrest]
    cases h : set? step with
    | none => rw [List.filterMap_cons_none h, Option.getD_none]
    | some b' => rw [List.filterMap_cons_some h, List.getLast?_cons, Option.getD_some,
        Option.getD_some]

theorem serializer_step :
    Keeps (fun s => s.serializer.map Serializer.writer) SessionStep.isSerialize
      SessionStep.replacesSerializer := by
  intro session step w hw hstep
  obtain ⟨serializer, hserializer, rfl⟩ := Option.map_eq_some_iff.1 hw
  cases step with
  | newSerializer => exact absurd hstep (by decide)
  | serialize root =>
    have hwalk := Writer.walk_steady session.setup.registry session.store session.store.size root
    refine ⟨(serializer.serialize session.setup.registry session.store root).2.writer, ?_, ?_, ?_⟩
    · simp only [Session.step, serialize, hserializer, Option.map_some]
    · exact hwalk.options_eq _
    · simp only [Session.step, serialize, hserializer]
      exact hwalk.error_eq _
  | write root =>
    refine ⟨serializer.writer, ?_, rfl, rfl⟩
    cases hwriter : session.writer with
    | none => simp only [Session.step, write, hwriter, hw]
    | some writer => simp only [Session.step, write, hwriter, hw]
  | _ => exact ⟨serializer.writer, hw, rfl, rfl⟩

theorem writer_step :
    Keeps Session.writer SessionStep.isWrite SessionStep.replacesWriter := by
  intro session step w hw hstep
  cases step with
  | newWriter => exact absurd hstep (by decide)
  | write root =>
    refine ⟨(w.write session.setup.registry
      (session.store.unfold session.store.size root)).2, ?_, rfl, ?_⟩
    · simp only [Session.step, write, hw]
    · simp only [Session.step, write, hw]
      rfl
  | setDepth depth =>
    refine ⟨{ w with depth := depth }, ?_, rfl, rfl⟩
    simp only [Session.step, hw, Option.map_some]
  | serialize root =>
    refine ⟨w, ?_, rfl, rfl⟩
    cases hserializer : session.serializer with
    | none => simp only [Session.step, serialize, hserializer, hw]
    | some serializer => simp only [Session.step, serialize, hserializer, hw]
  | _ => exact ⟨w, hw, rfl, rfl⟩

/-- Only setting the depth of a writer changes it. -/
theorem depth_step {w : Writer} (hw : session.writer = some w)
    (hstep : step.replacesWriter = false) :
    (session.step step).2.writer.map Writer.depth = some (step.depth?.getD w.depth) := by
  cases step with
  | newWriter => exact absurd hstep (by decide)
  | serialize root =>
    cases hserializer : session.serializer with
    | none =>
      simp only [Session.step, serialize, hserializer, hw]
      rfl
    | some serializer =>
      simp only [Session.step, serialize, hserializer, hw]
      rfl
  | _ =>
    simp only [Session.step, clear, dump, write, hw]
    rfl

/-- The writer has the depth that was set last. -/
theorem depth_after {steps : List SessionStep} {w : Writer} (hw : session.writer = some w)
    (hsteps : ∀ step ∈ steps, step.replacesWriter = false) :
    (session.after steps).writer.map Writer.depth =
      some ((steps.filterMap SessionStep.depth?).getLast?.getD w.depth) := by
  have hset : SetsOnly (fun s => s.writer.map Writer.depth) SessionStep.depth?
      SessionStep.replacesWriter := by
    intro session step depth hdepth hstep
    obtain ⟨v, hv, rfl⟩ := Option.map_eq_some_iff.1 hdepth
    exact depth_step hv hstep
  exact hset.after (by rw [hw, Option.map_some]) hsteps

/-! ## Calls -/

/-- A call of a writer that is stopped writes nothing. -/
theorem chars_write_of_stopped {w : Writer} {registry : Registry} {tree : Tree}
    (h : (w.write registry tree).1.error ≠ none) : (w.write registry tree).1.chars = [] :=
  Tree.chars_writeRoot_of_stopped h

/-- **What came before a call does not show in it.**  From the step that makes a serializer on,
whatever steps follow, a call of it writes what a new serializer with the options of that step would
write with the registry as it is now; and likewise for a writer at the depth that was set last,
which a call leaves as it is.  The error of either is the message of its last call that was stopped,
which names the unknown node, and empty as long as no call was. -/
theorem outputs_independent_of_past (start : Session) (steps : List SessionStep)
    (root : Option NodeId) :
    ((∀ step ∈ steps, step.replacesSerializer = false) →
      let made := (start.step .newSerializer).2
      let session := made.after steps
      let new := (Serializer.new start.setup.options).serialize session.setup.registry
        session.store root
      (session.step (.serialize root)).1 = new.1 ∧
      (session.step (.serialize root)).2.stream = session.stream ++ new.1.chars ∧
      (session.store.size ≤ UInt32.size →
        new.1 = session.store.dump ⟨session.setup.registry, start.setup.options⟩ root) ∧
      ∃ serializer, session.serializer = some serializer ∧
        TellsLastFailure (made.outputsOf SessionStep.isSerialize steps)
          (errorText serializer.error)) ∧
    ((∀ step ∈ steps, step.replacesWriter = false) →
      let made := (start.step .newWriter).2
      let session := made.after steps
      let new := ({ options := start.setup.options, depth := lastDepth steps } : Writer).write
        session.setup.registry (session.store.unfold session.store.size root)
      (session.step (.write root)).1 = new.1 ∧
      (session.step (.write root)).2.stream = session.stream ++ new.1.chars ∧
      (new.1.error ≠ none → (session.step (.write root)).2.stream = session.stream) ∧
      ∃ writer, session.writer = some writer ∧ writer.depth = lastDepth steps ∧
        (session.step (.write root)).2.writer.map Writer.depth = some (lastDepth steps) ∧
        TellsLastFailure (made.outputsOf SessionStep.isWrite steps)
          (errorText writer.error)) := by
  constructor
  · intro hsteps made session new
    have hmade : made.serializer.map Serializer.writer = some { options := start.setup.options } :=
      rfl
    obtain ⟨w, hw, hoptions, herror⟩ := view_after serializer_step hmade hsteps
    obtain ⟨serializer, hserializer, rfl⟩ := Option.map_eq_some_iff.1 hw
    have hnew : (serializer.serialize session.setup.registry session.store root).1 = new.1 := by
      rw [Serializer.serialize_eq_new, show serializer.options = start.setup.options from hoptions]
    refine ⟨?_, ?_, ?_, serializer, hserializer, ?_⟩
    · simp only [Session.step, serialize, show session.serializer = _ from hserializer, hnew]
    · simp only [Session.step, serialize, show session.serializer = _ from hserializer, hnew]
    · exact fun hsize => Serializer.serialize_new_eq_dump _ _ hsize root
    · rw [show serializer.error = _ from herror.trans Option.or_none]
      exact tellsLastFailure_lastError _
  · intro hsteps made session new
    have hmade : made.writer = some { options := start.setup.options } := rfl
    obtain ⟨w, hw, hoptions, herror⟩ := view_after writer_step hmade hsteps
    have hdepth : w.depth = lastDepth steps := by
      have h := depth_after hmade hsteps
      rw [hw] at h
      exact Option.some.inj h
    have hnew : (w.write session.setup.registry
        (session.store.unfold session.store.size root)).1 = new.1 :=
      (Writer.Action.write_steady _ _).output_eq hoptions hdepth
    have hstream : (session.step (.write root)).2.stream = session.stream ++ new.1.chars := by
      simp only [Session.step, write, show session.writer = _ from hw, hnew]
    refine ⟨?_, hstream, ?_, w, hw, hdepth, ?_, ?_⟩
    · simp only [Session.step, write, show session.writer = _ from hw, hnew]
    · intro hstopped
      rw [hstream, chars_write_of_stopped hstopped, List.append_nil]
    · rw [← hdepth]
      simp only [Session.step, write, show session.writer = _ from hw]
      rfl
    · rw [herror.trans Option.or_none]
      exact tellsLastFailure_lastError _

/-- A dump was stopped at depth one, and a writer at the same node.  Then its module was trusted,
and both were used again without trouble.  The next calls start at the margin and at the depth of
the writer, and both objects still tell of the failure. -/
theorem outputs_after_failure :
    let start := ({} : Session).after [.create (.construct .htmlContent) none [] none,
      .create (.extension (.foreign "Widget" "Acme" [])) none [] (some ⟨0⟩)]
    let steps : List SessionStep :=
      [.serialize (some ⟨0⟩), .setup (.trust "Acme"), .serialize (some ⟨0⟩)]
    let dumped := (start.step .newSerializer).2.after steps
    let calls : List SessionStep :=
      [.setDepth 2, .write (some ⟨1⟩), .setup (.trust "Acme"), .write (some ⟨1⟩)]
    let written := (start.step .newWriter).2.after calls
    (∀ step ∈ steps, step.replacesSerializer = false) ∧
    (dumped.step (.serialize (some ⟨0⟩))).1 = .ofChars "HtmlContent\n    Widget\n".toList ∧
    (∃ serializer, dumped.serializer = some serializer ∧
      errorText serializer.error = "Unknown node type: Widget (origin Acme)") ∧
    (∀ step ∈ calls, step.replacesWriter = false) ∧
    (written.step (.write (some ⟨1⟩))).1 = .ofChars "        Widget".toList ∧
    ∃ writer, written.writer = some writer ∧
      errorText writer.error = "Unknown node type: Widget (origin Acme)" := by
  intro start steps dumped calls written
  have hsteps : ∀ step ∈ steps, step.replacesSerializer = false := by decide
  have hcalls : ∀ step ∈ calls, step.replacesWriter = false := by decide
  have hdumps : (start.step .newSerializer).2.outputsOf SessionStep.isSerialize steps =
      [⟨"HtmlContent\n".toList, some (.unknownNode "Widget" "Acme")⟩,
        .ofChars "HtmlContent\n    Widget\n".toList] := by decide
  have hlines : (start.step .newWriter).2.outputsOf SessionStep.isWrite calls =
      [.stop (.unknownNode "Widget" "Acme"), .ofChars "        Widget".toList] := by decide
  have hmessage : "Unknown node type: " ++ "Widget" ++ " (origin " ++ "Acme" ++ ")" =
      "Unknown node type: Widget (origin Acme)" := by decide
  obtain ⟨hdump, -, -, serializer, hserializer, htells⟩ :=
    (outputs_independent_of_past start steps (some ⟨0⟩)).1 hsteps
  obtain ⟨hwrite, -, -, writer, hwriter, -, -, htells'⟩ :=
    (outputs_independent_of_past start calls (some ⟨1⟩)).2 hcalls
  refine ⟨hsteps, hdump.trans (by decide), ⟨serializer, hserializer, ?_⟩, hcalls,
    hwrite.trans (by decide), writer, hwriter, ?_⟩
  · exact (htells.eq_message [] _ _ _ _ hdumps rfl (by decide)).trans hmessage
  · exact (htells'.eq_message [] _ _ _ _ hlines rfl (by decide)).trans hmessage

end Session

end TemplateDump
