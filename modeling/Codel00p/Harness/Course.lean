import Codel00p.Harness.Loop

/-! The course of a turn: one rule for what holds from its first iteration to its last. -/

namespace Codel00p

open Program (Moves Triple Returns)

variable {ω : Type}

def TurnNote.isRoutine : TurnNote ω → Bool
  | .batch _ | .donePoint .. => false
  | _ => true

/-- What the verdicts of a turn are read from: its work, its budgets, and what is more than routine. -/
structure TurnRecord (ω : Type) where
  executed : List ExecutedToolCall := []
  failures : FailureTracker := {}
  attempts : Nat := 0
  critiqueInjected : Bool := false
  executedAtCritique : Nat := 0
  lastVerified : Option Bool := none
  events : List EventKind := []
  notes : List (TurnNote ω) := []

def TurnState.record (state : TurnState ω) : TurnRecord ω where
  executed := state.executed
  failures := state.failures
  attempts := state.verify.attempts
  critiqueInjected := state.verify.critiqueInjected
  executedAtCritique := state.verify.executedAtCritique
  lastVerified := state.verify.lastVerified
  events := (state.events.map (·.kind)).filter (!·.isRoutine)
  notes := state.log.filter (!·.isRoutine)

theorem TurnState.mem_events {state : TurnState ω} {kind : EventKind} (telling : kind.isRoutine = false) :
    kind ∈ state.record.events ↔ ∃ event ∈ state.events, event.kind = kind := by
  simp [TurnState.record, telling]

theorem TurnState.flatMap_notes {β : Type} (state : TurnState ω) {part : TurnNote ω → List β}
    (blank : ∀ note, note.isRoutine = true → part note = []) :
    state.record.notes.flatMap part = state.log.flatMap part := by
  simp only [TurnState.record]
  induction state.log with
  | nil => rfl
  | cons note rest ih =>
    cases plain : note.isRoutine with
    | true => simpa [plain, blank note plain] using ih
    | false => simpa [plain] using ih

theorem TurnState.filterMap_events {β : Type} (state : TurnState ω) {part : EventKind → Option β}
    (blank : ∀ kind, kind.isRoutine = true → part kind = none) :
    state.record.events.filterMap part = state.events.filterMap fun event => part event.kind := by
  simp only [TurnState.record]
  induction state.events with
  | nil => rfl
  | cons event rest ih =>
    cases plain : event.kind.isRoutine with
    | true => simpa [plain, blank event.kind plain] using ih
    | false =>
      simp [plain, List.filterMap_cons, ih]

theorem TurnState.record_event (state : TurnState ω) (host : ω) (event : HarnessEvent)
    (telling : event.kind.isRoutine = false) : { state.withHost host with events := state.events ++ [event] }.record =
      { state.record with events := state.record.events ++ [event.kind] } := by
  simp [TurnState.record, TurnState.withHost, telling]

theorem AgentHarness.recordEvent_record (harness : AgentHarness ω) (turnId : String) {kind : EventKind}
    (telling : kind.isRoutine = false) {before : TurnState ω → Prop} (after : TurnState ω → Prop)
    {stopped : TurnStop → TurnState ω → Prop}
    (holds : ∀ state reached, reached.record = { state.record with events := state.record.events ++ [kind] } →
      reached.session = state.session → before state → after reached) :
    Triple before (harness.recordEvent turnId kind) (fun _ => after) stopped :=
  .change fun state held => holds state _ (state.record_event _ _ telling) rfl held

theorem TurnState.record_note (state : TurnState ω) {note : TurnNote ω} (telling : note.isRoutine = false) :
    (state.note note).record = { state.record with notes := state.record.notes ++ [note] } := by
  simp [TurnState.record, TurnState.note, telling]

structure Aside (state reached : TurnState ω) : Prop where
  record : reached.record = state.record
  said : state.session.messages <+: reached.session.messages

instance : Std.Refl (Aside (ω := ω)) where
  refl _ := ⟨rfl, List.prefix_rfl⟩

instance : IsTrans (TurnState ω) Aside where
  trans _ _ _ first second := ⟨second.record.trans first.record, first.said.trans second.said⟩

namespace Aside

variable {state : TurnState ω}

theorem routine {harness : AgentHarness ω} : Routine harness Aside where
  host _ _ := ⟨rfl, List.prefix_rfl⟩
  event state event plain := by
    refine ⟨?_, List.prefix_rfl⟩
    simp [TurnState.record, TurnState.withHost, plain]

theorem push (message : SessionMessage) : Aside state (state.push message) := ⟨rfl, List.prefix_append _ _⟩

theorem note {observed : TurnNote ω} (plain : observed.isRoutine = true) : Aside state (state.note observed) := by
  refine ⟨?_, List.prefix_rfl⟩
  simp [TurnState.record, TurnState.note, plain]

theorem askModel (harness : AgentHarness ω) (turnId : String) (request : HarnessInferenceRequest) :
    Moves Aside (harness.askModel turnId request) :=
  -- Usage and cost are no part of the record.
  routine.askModel turnId request (fun _ => note rfl) (fun _ _ _ => note rfl) fun _ =>
    .change fun _ => ⟨rfl, List.prefix_rfl⟩

end Aside

def ClosedAfter (kept : TurnState ω → Prop) (done : Option Bool → TurnState ω → Prop)
    (outcome : TurnOutcome) (state : TurnState ω) : Prop :=
  outcome.events = state.events ∧ outcome.toolCalls = state.executed ∧
    ∃ before iterations usage cost verified, (done verified before ∨ verified = none ∧ kept before) ∧
      before.session.messages <+: state.session.messages ∧
      state.record = { before.record with
        events := before.record.events ++ [.turnCompleted iterations usage cost verified] }

theorem closeTurn_reports (harness : AgentHarness ω) (turnId : String) (iterations : Nat)
    (assistantMessage : Option String) (verified : Option Bool) (cancelled : Bool)
    {kept ending : TurnState ω → Prop} {done : Option Bool → TurnState ω → Prop}
    {stopped : TurnStop → TurnState ω → Prop}
    (rests : ∀ state reached, Aside state reached → ending state → ending reached)
    (ends : ∀ state, ending state → done verified state ∨ verified = none ∧ kept state) :
    Triple ending (harness.closeTurn turnId iterations assistantMessage verified cancelled)
      (ClosedAfter kept done) stopped := by
  refine .bind (.of_returns (Aside.routine.runLifecycleHook turnId _) rests) fun _ => ?_
  refine .reads_bind fun (usage, cost) => ?_
  refine .bind (harness.recordEvent_record turnId rfl (fun state => ∃ before, ending before ∧
    before.session = state.session ∧ state.record = { before.record with
      events := before.record.events ++ [.turnCompleted iterations usage cost verified] })
    fun state reached reports same holds => ?_) fun _ => ?_
  · exact ⟨state, holds.1, same.symm, reports⟩
  · refine .reads fun state ⟨before, holds, same, reported⟩ =>
      ⟨rfl, rfl, before, iterations, usage, cost, verified, ?_⟩
    exact ⟨ends before holds, same ▸ List.prefix_rfl, reported⟩

/--
Something that holds between the iterations of a turn,
with the reasons why its tool calls and its done-points keep it.
-/
structure TurnCourse (harness : AgentHarness ω) (turnId : String) (kept : TurnState ω → Prop)
    (done : Option Bool → TurnState ω → Prop) (stopped : TurnStop → TurnState ω → Prop) : Prop where
  opens : ∀ state, state.record = {} → kept state
  aside : ∀ state reached, Aside state reached → kept state → kept reached
  rests : ∀ verified state reached, Aside state reached → done verified state → done verified reached
  stops : ∀ stop state, kept state → stopped stop state
  calls : ∀ calls, Triple kept (harness.runToolCalls turnId calls) (fun _ => kept) stopped
  donePoint : Triple kept (harness.verifyBeforeDone turnId) (AtPhase kept done) stopped

namespace TurnCourse

variable {harness : AgentHarness ω} {turnId : String} {kept : TurnState ω → Prop}
  {done : Option Bool → TurnState ω → Prop} {stopped : TurnStop → TurnState ω → Prop}
  (course : TurnCourse harness turnId kept done stopped)

include course

theorem passing {α : Type} {program : TurnM ω α} (moves : Moves Aside program) :
    Triple kept program (fun _ => kept) stopped :=
  (Triple.of_moves moves course.aside).stopping course.stops

theorem rule : TurnRule harness turnId Aside
    { kept := fun _ => kept, done, closed := ClosedAfter kept done, stopped } :=
  { Aside.routine with
    heeded := fun _ => ⟨rfl, List.prefix_rfl⟩
    keeps := fun _ => course.aside
    hears := fun _ _ => course.aside
    closes := fun _ => course.aside
    rests := course.rests
    stops := fun _ => course.stops
    asks := fun _ request => (course.passing (Aside.askModel harness turnId request)).starting fun _ holds => holds.1
    utters := fun _ reply _ => course.passing (Routine.sayReply (fun _ _ => .push _) reply)
    acts := fun _ _ _ _ _ state => course.aside _ _ (.push _)
    calls := fun _ => course.calls
    donePoint := fun _ => course.donePoint
    completes := fun _ _ verified =>
      closeTurn_reports harness turnId _ _ verified false (course.rests verified) fun _ holds => .inl holds
    cancels := by
      rintro _ ⟨_, rfl | ⟨_, rfl⟩⟩ iterations <;>
        exact closeTurn_reports harness turnId _ none none true course.aside fun _ holds => .inr ⟨rfl, holds⟩ }

theorem runTurn (userMessage : String) : Triple (fun state => state.record = {}) (harness.runTurn turnId userMessage)
      (ClosedAfter kept done) stopped := by
  have fresh : ∀ state reached : TurnState ω, Aside state reached → state.record = {} → reached.record = {} :=
    fun _ _ moved fresh => moved.record.trans fresh
  refine Aside.routine.runTurn turnId userMessage _ fresh (fun _ => id) fresh (fun state fresh => course.stops _ state
    (course.opens state fresh)) course.opens (fun state reached summary moved empty _ => course.opens _ ?_)
    course.aside (course.rule.runIterations _)
  -- A compaction replaces messages, of which there is no record yet.
  exact (Aside.note rfl).record.trans (fresh _ _ moved empty)

end TurnCourse

end Codel00p
