import Mathlib.Logic.Relation
import Codel00p.Harness.Turn

/-! The protocol of a turn: what it can do, step by step, to its transcript and to the outside. -/

namespace Codel00p

/-- Where a turn stands between one inference and the next. -/
inductive Phase where
  /-- Nothing is owed: the next message may be anything. -/
  | idle
  /-- The model has replied and the reply has not been acted on. -/
  | heard (reply : HarnessInferenceResponse)
  /-- The model has said that it is done, and the harness has not looked at its work. -/
  | closing
  /-- The calls of a reply are being answered, and these are still to be recorded. -/
  | answering (pending : List ModelToolCall)

/-- What can be seen of a turn: its transcript, the permissions and executions, and its own notes. -/
structure TurnView (ω : Type) where
  messages : List SessionMessage
  trace : List Action
  log : List (TurnNote ω)

namespace TurnView

variable {ω : Type} (view : TurnView ω)

def push (message : SessionMessage) : TurnView ω := { view with messages := view.messages ++ [message] }

def note (observed : TurnNote ω) : TurnView ω := { view with log := view.log ++ [observed] }

end TurnView

def BatchNote.answers (note : BatchNote) : List (ModelToolCall × ToolAnswer) :=
  note.calls.zip (note.slots.map (·.getD notScheduled))

namespace AgentHarness

variable {ω : Type} (harness : AgentHarness ω)

/-- Whether some call of a batch uses up the failure budget, given the streaks before it. -/
def anyTrips (tracker : FailureTracker) : List (ModelToolCall × ToolAnswer) → Bool
  | [] => false
  | (call, answer) :: rest =>
    harness.trips tracker call (plainResult answer).content
      || anyTrips (harness.trackerAfter tracker call (plainResult answer).content) rest

/-- Whether a batch uses up the failure budget of some operation. -/
def batchTrips (note : BatchNote) : Bool := harness.anyTrips note.failures note.answers

/-- Whether the harness runs checks on its own at a done-point. -/
def verificationDue (verify : VerifyState) (executed : List ExecutedToolCall) (host : ω) : Bool :=
  harness.entersVerification verify executed && !(harness.dueChecks host).isEmpty

end AgentHarness

open AgentHarness

/-- The steps a turn is made of. -/
inductive TurnStep {ω : Type} (harness : AgentHarness ω) :
    Phase × TurnView ω → Phase × TurnView ω → Prop where
  /-- A message in the user's name: the task, a reflection prompt, or feedback of a check. -/
  | user (view : TurnView ω) (text : String) :
      TurnStep harness (.idle, view) (.idle, view.push (.user text))
  /-- A full context is replaced by a summary and the recent messages. -/
  | compact (view : TurnView ω) (session : SessionState) (summary : String)
      (due : harness.compactionDue view.messages = true) (own : session.messages = view.messages) :
      TurnStep harness (.idle, view) (.idle, { view.note .compacted with messages :=
        (session.compactWithSummary summary defaultCompactionRecentMessages).messages })
  /-- A request goes to the model. -/
  | ask (view : TurnView ω) (request : HarnessInferenceRequest)
      (own : request.session.messages = view.messages) :
      TurnStep harness (.idle, view) (.idle, view.note (.asked request))
  /-- The model replies. -/
  | hear (view : TurnView ω) (reply : HarnessInferenceResponse)
      (given : ∃ request host, (harness.infer request host).1 = .ok reply) :
      TurnStep harness (.idle, view) (.heard reply, view.note (.replied reply (harness.salvage reply)))
  /-- A reply without calls and without a text leaves no message. -/
  | pass (view : TurnView ω) (reply : HarnessInferenceResponse)
      (done : harness.effectiveCalls reply = []) (silent : reply.assistantMessage = none) :
      TurnStep harness (.heard reply, view) (.closing, view)
  /-- A reply without calls is the model's text. -/
  | say (view : TurnView ω) (reply : HarnessInferenceResponse) (text : String)
      (done : harness.effectiveCalls reply = []) (said : reply.assistantMessage = some text) :
      TurnStep harness (.heard reply, view) (.closing, view.push (.assistant text))
  /-- A reply with calls becomes one message that carries them. -/
  | call (view : TurnView ω) (reply : HarnessInferenceResponse) (calls : List ModelToolCall)
      (effective : harness.effectiveCalls reply = calls) (nonempty : calls ≠ []) :
      TurnStep harness (.heard reply, view) (.answering calls, view.push (.assistantToolCalls calls))
  /-- The policy is asked about a call. -/
  | decide (view : TurnView ω) (pending : List ModelToolCall) (callId : String)
      (request : PermissionRequest) (outcome : Except HarnessError PermissionDecision) :
      TurnStep harness (.answering pending, view) (.answering pending,
        { view with trace := view.trace ++ [.decided (.model callId) request outcome] })
  /-- A call that some decision allows is executed. -/
  | execute (view : TurnView ω) (pending : List ModelToolCall) (call : ModelToolCall)
      (answer : ToolAnswer) (reached : List Action)
      (sanctioned : Sanctioned view.trace call.name call.input)
      (ran : Ran (harness.tools.handed harness.codec call.name call.input) (.model call.id) call.name
        call.input view.trace reached) :
      TurnStep harness (.answering pending, view)
        (.answering pending, { view with trace := reached }.note (.returned call answer))
  /-- A batch has all its answers. -/
  | batch (view : TurnView ω) (pending : List ModelToolCall) (note : BatchNote) :
      TurnStep harness (.answering pending, view) (.answering pending, view.note (.batch note))
  /-- The next call's answer is recorded. -/
  | record (view : TurnView ω) (call : ModelToolCall) (pending : List ModelToolCall)
      (content : String) :
      TurnStep harness (.answering (call :: pending), view) (.answering pending,
        (view.push (.toolResult call.id call.name content)).note (.recorded call.id content))
  /-- A batch that used up the failure budget is followed by a nudge. -/
  | nudge (view : TurnView ω) (pending : List ModelToolCall) (text : String) (note : BatchNote)
      (noted : .batch note ∈ view.log) (trips : harness.batchTrips note = true)
      (ends : note.last = true → pending = []) :
      TurnStep harness (.answering pending, view) (.answering pending, view.push (.user text))
  /-- All calls are answered. -/
  | finish (view : TurnView ω) : TurnStep harness (.answering [], view) (.idle, view)
  /-- The harness looks at what the model is done with. -/
  | donePoint (view : TurnView ω) (verify : VerifyState) (executed : List ExecutedToolCall) (host : ω) :
      TurnStep harness (.closing, view) (.idle, view.note (.donePoint verify executed host))
  /-- A check runs because verification was due at a done-point. -/
  | check (view : TurnView ω) (verify : VerifyState) (executed : List ExecutedToolCall) (host : ω)
      (input : Json) (reached : List Action) (noted : .donePoint verify executed host ∈ view.log)
      (due : harness.verificationDue verify executed host = true)
      (ran : Ran (harness.tools.handed harness.codec "run_checks" input) .verification "run_checks"
        input view.trace reached) :
      TurnStep harness (.idle, view) (.idle, { view with trace := reached })

theorem TurnStep.mem_log {ω : Type} {harness : AgentHarness ω} {before after : Phase × TurnView ω}
    (steps : TurnStep harness before after) {note : TurnNote ω} (noted : note ∈ before.2.log) :
    note ∈ after.2.log := by
  cases steps <;> first | exact noted | exact List.mem_append_left _ noted

def Reaches {ω : Type} (harness : AgentHarness ω) (start : TurnView ω) (phase : Phase)
    (view : TurnView ω) : Prop :=
  Relation.ReflTransGen (TurnStep harness) (.idle, start) (phase, view)

namespace Reaches

variable {ω : Type} {harness : AgentHarness ω} {start view next : TurnView ω} {phase reached : Phase}

theorem step (reaches : Reaches harness start phase view)
    (steps : TurnStep harness (phase, view) (reached, next)) : Reaches harness start reached next :=
  reaches.tail steps

theorem invariant (holds : Phase → TurnView ω → Prop) (first : holds .idle start)
    (kept : ∀ before after : Phase × TurnView ω, TurnStep harness before after →
      holds before.1 before.2 → holds after.1 after.2)
    (reaches : Reaches harness start phase view) : holds phase view := by
  have general : ∀ after, Relation.ReflTransGen (TurnStep harness) (.idle, start) after →
      holds after.1 after.2 := by
    intro after path
    induction path with
    | refl => exact first
    | tail _ steps ih => exact kept _ _ steps ih
  exact general _ reaches

end Reaches

/-! ### Done-points -/

open Program (Triple)

variable {ω : Type}

def TurnState.atDonePoint (state : TurnState ω) : TurnState ω :=
  state.note (.donePoint state.verify state.executed state.world.host)

def TurnState.verifying (state : TurnState ω) : TurnState ω :=
  { state.atDonePoint with verify := { state.verify with attempts := state.verify.attempts + 1 } }

/-- What holds when checks were run: the turn goes on after a failure, and may complete otherwise. -/
def AfterVerification (after : DonePhase → TurnState ω → Prop) (resting : TurnState ω → Prop) :
    VerificationOutcome → TurnState ω → Prop
  | .failed => after .continue
  | .passed | .skipped => resting

/-- A done-point either runs the checks that are due or goes straight on to the critique. -/
theorem AgentHarness.verifyBeforeDone_rule (harness : AgentHarness ω) (turnId : String)
    {before resting : TurnState ω → Prop} {after : DonePhase → TurnState ω → Prop}
    {stopped : TurnStop → TurnState ω → Prop} (rests : ∀ state, before state →
      harness.verificationDue state.verify state.executed state.world.host = false → resting state.atDonePoint)
    (checks : ∀ state, before state → harness.verificationDue state.verify state.executed state.world.host = true →
      Triple (· = state.verifying)
        (harness.runChecks turnId (state.verify.attempts + 1) (harness.dueChecks state.world.host))
        (AfterVerification after resting) stopped)
    (critique : Triple resting harness.critiqueOrComplete after stopped) :
    Triple before (harness.verifyBeforeDone turnId) after stopped := by
  refine .each fun state holds => .change_bind (· = state.atDonePoint) (by rintro _ rfl; rfl) ?_
  refine .reads_bind fun enters => .knowing (fun _ ⟨at_, read⟩ => at_ ▸ read) fun read => ?_
  have entered : harness.entersVerification state.verify state.executed = enters := read
  refine .ite (fun yes => ?_) fun no => critique.starting ?_
  · have verifies : Triple (fun reached => reached = state.atDonePoint ∧
        harness.entersVerification reached.verify reached.executed = enters)
        (harness.runVerification turnId) (AfterVerification after resting) stopped := by
      refine .reads_bind fun due => .knowing (fun _ ⟨⟨at_, _⟩, read⟩ => at_ ▸ read) fun read => ?_
      obtain rfl : harness.dueChecks state.world.host = due := read
      refine .ite (fun empty => .pure _ ?_) fun present => ?_
      · rintro _ ⟨⟨rfl, _⟩, _⟩
        exact rests state holds (by simp [verificationDue, empty])
      · refine .change_bind (· = state.verifying) (by rintro _ ⟨⟨rfl, _⟩, _⟩; rfl) ?_
        refine .reads_bind fun attempt => .knowing (fun _ ⟨at_, read⟩ => at_ ▸ read) fun read => ?_
        obtain rfl : state.verify.attempts + 1 = attempt := read
        exact (checks state holds (by simp [verificationDue, entered, yes, present])).starting fun _ at_ => at_.1
    refine .bind verifies fun outcome => ?_
    cases outcome with
    | failed => exact .pure _ fun _ goesOn => goesOn
    | passed | skipped => exact critique
  · rintro _ ⟨rfl, _⟩
    exact rests state holds (by simp [verificationDue, entered, no])

end Codel00p
