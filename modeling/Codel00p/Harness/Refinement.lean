import Codel00p.Harness.Batch
import Codel00p.Harness.Loop

/-! A turn does nothing but the steps of its protocol. -/

namespace Codel00p

open Quiet (routine)
open Program (Moves Triple)

variable {ω : Type}

theorem Sanctioned.ran {handed : Option Json} {caller : Caller} {name tool : String} {input raw : Json}
    {trace reached : List Action} (sanctioned : Sanctioned trace tool raw)
    (ran : Ran handed caller name input trace reached) : Sanctioned reached tool raw := by
  cases handed with
  | none => exact (show reached = trace from ran) ▸ sanctioned
  | some given =>
    obtain ⟨actions, rfl, _⟩ := ran
    exact sanctioned.append _

namespace AgentHarness

variable (harness : AgentHarness ω) (turnId : String) (start : TurnView ω)

def At (phase : Phase) (core : TurnCore ω) : Prop := Reaches harness start phase core.view

def Stopped (_ : TurnStop) (state : TurnState ω) : Prop := ∃ phase, harness.At start phase state.core

/-- A turn that ends does so between a reply and the next inference, with the session it has then. -/
def Ended (outcome : TurnOutcome) (state : TurnState ω) : Prop :=
  (harness.At start .idle state.core ∨ ∃ reply, harness.At start (.heard reply) state.core) ∧
    outcome.session = state.session

variable {harness start} in
theorem At.step {phase reached : Phase} {core next : TurnCore ω} (reaches : harness.At start phase core)
    (steps : TurnStep harness (phase, core.view) (reached, next.view)) : harness.At start reached next :=
  Reaches.step reaches steps

/-! ### The calls of a reply -/

/-- A batch follows the protocol while later calls wait for their turn. -/
def batchProtocol (batch later : List ModelToolCall) (last : Bool) (ends : last = true → later = []) :
    harness.BatchInvariant turnId batch last (harness.Stopped start) where
  deciding done core := harness.At start (.answering (batch ++ later)) core ∧
    ∀ call decision, (call, .ok decision) ∈ done → decision.allowsExecution = true →
      Sanctioned core.trace call.name call.input
  executing decided _ core := harness.At start (.answering (batch ++ later)) core ∧
    ∀ call decision, (call, decision) ∈ decided → decision.allowsExecution = true →
      Sanctioned core.trace call.name call.input
  settling steps tracker rest core :=
    harness.At start (.answering (rest.map (·.1) ++ later)) core ∧
      TurnNote.batch (noteOf batch last tracker steps) ∈ core.log
  decides := by
    rintro done call outcome core ⟨at_, sanctions⟩
    refine ⟨at_.step (.decide _ _ call.id _ outcome), fun other decision member allowed => ?_⟩
    -- The decision is an old one, or it is the one that was just made on this very call.
    rcases List.mem_append.1 member with old | new
    · exact (sanctions other decision old allowed).append _
    · cases List.mem_singleton.1 new
      exact ⟨_, _, decision, List.mem_append_right _ List.mem_cons_self, rfl, rfl, allowed⟩
  fails _ _ _ _ _ _ holds := ⟨_, holds.1⟩
  judges decided core _ holds := by
    refine ⟨holds.1, fun call decision member allowed => holds.2 call decision ?_ allowed⟩
    exact List.mem_map.2 ⟨(call, decision), member, rfl⟩
  executes := by
    rintro decided done call decision answer core reached member allowed ⟨at_, sanctions⟩ ran
    refine ⟨at_.step (.execute _ _ call answer reached (sanctions call decision member allowed) ran), ?_⟩
    intro other verdict inside may
    exact (sanctions other verdict inside may).ran ran
  notes := by
    rintro steps core own ⟨at_, _⟩
    have calls : (answered steps).map (·.1) = batch := by
      simpa [answered, Function.comp_def] using own.calls
    rw [calls]
    exact ⟨at_.step (.batch _ _ _), by simp⟩
  blind _ _ _ _ _ holds := holds
  panics _ _ _ _ holds _ _ _ := ⟨_, holds.1⟩
  settles := by
    rintro steps tracker call answer rest core content ⟨at_, noted⟩
    exact ⟨at_.step (.record _ call _ content), List.mem_append_left _ noted⟩
  nudges := by
    rintro steps tracker text core own trips ⟨at_, noted⟩
    have trips' : harness.batchTrips (noteOf batch last tracker steps) = true := by
      rw [batchTrips, BatchNote.answers, noteOf, zip_answers own]
      exact trips
    exact ⟨at_.step (.nudge _ _ text _ noted trips' ends), noted⟩

theorem runBatches_refines (parts : GovernedTools harness.tools) (batches : List (List ModelToolCall)) :
    Triple (Meets (harness.At start (.answering batches.flatten)))
      (harness.runBatches turnId batches) (fun _ => Meets (harness.At start (.answering [])))
      (harness.Stopped start) := by
  induction batches with
  | nil => exact .pure _ fun _ holds => holds
  | cons batch rest ih =>
    have ends : rest.isEmpty = true → rest.flatten = [] := by
      intro empty
      rw [List.isEmpty_iff.1 empty, List.flatten_nil]
    refine .bind (((harness.batchProtocol turnId start batch rest.flatten rest.isEmpty
      ends).runBatch_keeps harness turnId parts).weaken (fun _ holds => ⟨holds, by simp⟩) ?_
      fun _ _ holds => holds) fun _ => ih
    rintro _ state ⟨steps, tracker, _, holds, _⟩
    exact holds

theorem runToolCalls_refines (parts : GovernedTools harness.tools) (calls : List ModelToolCall) :
    Triple (Meets (harness.At start (.answering calls))) (harness.runToolCalls turnId calls)
      (fun _ => Meets (harness.At start .idle)) (harness.Stopped start) := by
  have batched := harness.runBatches_refines turnId start parts (batches harness.isSafe calls.length calls)
  rw [flatten_batches harness.isSafe _ calls (Nat.le_refl _)] at batched
  exact batched.weaken (fun _ holds => holds) (fun _ _ holds => holds.step (.finish _)) fun _ _ holds => holds

/-! ### The done-point -/

variable {host : ω}

section

variable (parts : GovernedTools harness.tools)

include parts

theorem executeCheck_refines {verify : VerifyState}
    {executed : List ExecutedToolCall} (due : harness.verificationDue verify executed host = true) (check : String) :
    Triple (Meets fun core => harness.At start .idle core ∧ TurnNote.donePoint verify executed host ∈ core.log)
      (harness.executeCheck check) (fun _ => Meets fun core => harness.At start .idle core ∧
        TurnNote.donePoint verify executed host ∈ core.log) (harness.Stopped start) := by
  refine .perform ?_
  rintro state ⟨at_, noted⟩
  have ran := execute_ran harness.codec parts .verification "run_checks" (harness.checkInput check) state.world
  exact ⟨at_.step (.check _ verify executed host _ _ noted due ran), noted⟩

theorem runChecks_refines {verify : VerifyState} {executed : List ExecutedToolCall}
    (due : harness.verificationDue verify executed host = true) (attempt : Nat) (checks : List String) :
    Triple (Meets fun core => harness.At start .idle core ∧ TurnNote.donePoint verify executed host ∈ core.log)
      (harness.runChecks turnId attempt checks) (fun _ => Meets (harness.At start .idle))
      (harness.Stopped start) := by
  induction checks with
  | nil => exact .bind (.change fun _ holds => holds.1) fun _ => .pure _ fun _ holds => holds
  | cons check rest ih =>
    refine .bind (harness.executeCheck_refines start parts due check) fun answer => ?_
    cases answer with
    | error error =>
      -- A check that could not run is passed over.
      exact silently_bind (recordEvent_silent harness turnId _) fun _ => ih
    | ok result =>
      refine silently_bind (recordEvent_silent harness turnId _) fun _ => .ite (fun _ => ih) fun _ => ?_
      -- A failing check becomes feedback for the model.
      refine .change_bind (Meets (harness.At start .idle)) (fun _ holds => holds.1) ?_
      exact .bind (.change fun _ holds => holds.step (.user _ _)) fun _ => .pure _ fun _ holds => holds

end

theorem critiqueOrComplete_refines : Triple (Meets (harness.At start .idle)) harness.critiqueOrComplete
      (fun _ => Meets (harness.At start .idle)) (harness.Stopped start) := by
  refine .reads_bind fun due => .ite (fun _ => ?_) fun _ => ?_
  · exact .bind (.change fun _ holds => holds.1.step (.user _ _)) fun _ => .pure _ fun _ holds => holds
  · exact .reads_bind fun verified => .pure _ fun _ holds => holds.1.1

theorem verifyBeforeDone_refines (parts : GovernedTools harness.tools) :
    Triple (Meets (harness.At start .closing)) (harness.verifyBeforeDone turnId)
      (fun _ => Meets (harness.At start .idle)) (harness.Stopped start) := by
  have noted : ∀ state : TurnState ω, Meets (harness.At start .closing) state →
      Meets (harness.At start .idle) state.atDonePoint := fun state at_ => at_.step (.donePoint _ _ _ _)
  refine harness.verifyBeforeDone_rule turnId (fun state at_ _ => noted state at_) (fun state at_ due => ?_)
    (harness.critiqueOrComplete_refines start)
  refine (harness.runChecks_refines turnId start parts due _ _).weaken ?_ (fun outcome _ holds => ?_) fun _ _ holds => holds
  · rintro _ rfl
    exact ⟨noted state at_, List.mem_append_right _ List.mem_cons_self⟩
  · cases outcome <;> exact holds

/-! ### Inference -/

section

variable (request : HarnessInferenceRequest)

include request

theorem inferred_refines : Triple (Meets (harness.At start .idle)) (withHost (harness.infer request))
      (fun answer state => Meets (harness.At start .idle) state ∧ ∃ host, (harness.infer request host).1 = answer)
      (harness.Stopped start) :=
  ⟨fun state at_ => ⟨at_, state.world.host, rfl⟩⟩

theorem orFail_refines (answer : Except HarnessError HarnessInferenceResponse) :
    Triple (fun state : TurnState ω => Meets (harness.At start .idle) state ∧
        ∃ host, (harness.infer request host).1 = answer) (orFail answer)
      (fun reply state => Meets (harness.At start .idle) state ∧ ∃ host, (harness.infer request host).1 = .ok reply)
      (harness.Stopped start) := by
  cases answer with
  | ok reply => exact .pure _ fun _ holds => holds
  | error error => exact .throw _ fun _ holds => ⟨_, holds.1⟩

theorem askModel_refines : Triple (Meets fun core => harness.At start .idle core ∧ request.session = core.session)
      (harness.askModel turnId request) (fun reply => Meets (harness.At start (.heard reply)))
      (harness.Stopped start) := by
  refine silently_bind (recordEvent_silent harness turnId _) fun _ => ?_
  refine .change_bind (Meets (harness.At start .idle)) ?_ ?_
  · rintro state ⟨at_, own⟩
    exact at_.step (.ask _ request (by rw [own]; rfl))
  -- The reply is what the model inferred, or the turn fails with its error.
  refine .bind (inferred_refines harness start request) fun answer => ?_
  refine .bind (orFail_refines harness start request answer) fun reply => ?_
  refine .change_bind (Meets (harness.At start (.heard reply))) ?_ ?_
  · rintro state ⟨at_, host, given⟩
    exact at_.step (.hear _ reply ⟨request, host, given⟩)
  refine silently_bind (recordEvent_silent harness turnId _) fun _ => ?_
  refine silently_bind (accountUsage_silent reply) fun _ => ?_
  exact silently_bind (recordEvent_silent harness turnId _) fun _ => .pure _ fun _ holds => holds

end

/-! ### The loop -/

theorem closeTurn_hands (kept : TurnCore ω → Prop) (stopped : TurnStop → TurnState ω → Prop)
    (iterations : Nat) (assistantMessage : Option String) (verified : Option Bool) (cancelled : Bool) :
    Triple (Meets kept) (harness.closeTurn turnId iterations assistantMessage verified cancelled)
      (fun outcome state => Meets kept state ∧ outcome.session = state.session) stopped := by
  refine silently_bind (routine.runLifecycleHook turnId _) fun _ => ?_
  refine silently_bind (.reads _) fun _ => ?_
  refine silently_bind (recordEvent_silent harness turnId _) fun _ => ?_
  exact .reads fun _ holds => ⟨holds, rfl⟩

theorem sayReply_refines (reply : HarnessInferenceResponse) (callless : harness.effectiveCalls reply = []) :
    Triple (Meets (harness.At start (.heard reply))) (sayReply reply)
      (fun _ => Meets (harness.At start .closing)) (harness.Stopped start) := by
  unfold sayReply
  split
  · next content said => exact .change fun _ at_ => at_.step (.say _ reply content callless said)
  · next silent => exact .pure _ fun _ at_ => at_.step (.pass _ reply callless silent)

/-- The protocol sees no difference. -/
def Unseen (state reached : TurnState ω) : Prop := reached.core.view = state.core.view ∧ reached.session = state.session

instance : Std.Refl (Unseen (ω := ω)) where
  refl _ := ⟨rfl, rfl⟩

instance : IsTrans (TurnState ω) Unseen where
  trans _ _ _ first second := ⟨second.1.trans first.1, second.2.trans first.2⟩

theorem unseen_routine : Routine harness Unseen where
  host _ _ := ⟨rfl, rfl⟩
  event _ _ _ := ⟨rfl, rfl⟩

theorem refines_rule (parts : GovernedTools harness.tools) : TurnRule harness turnId Unseen
    { kept := fun _ => Meets (harness.At start .idle)
      heard := fun _ reply => Meets (harness.At start (.heard reply))
      calling := fun _ calls => Meets (harness.At start (.answering calls))
      closing := fun _ => Meets (harness.At start .closing)
      done := fun _ => Meets (harness.At start .idle)
      closed := harness.Ended start
      stopped := harness.Stopped start } :=
  have unseen : ∀ phase state reached, Unseen state reached → harness.At start phase state.core →
      harness.At start phase reached.core := fun phase _ _ same holds => by
    rw [At, same.1]
    exact holds
  { harness.unseen_routine with
    heeded := fun _ => ⟨rfl, rfl⟩
    keeps := fun _ => unseen _
    hears := fun _ _ => unseen _
    closes := fun _ => unseen _
    rests := fun _ => unseen _
    stops := fun _ _ _ holds => ⟨_, holds⟩
    asks := fun _ => harness.askModel_refines turnId start
    utters := fun _ => harness.sayReply_refines start
    acts := fun _ reply call calls effective _ at_ => at_.step (.call _ reply _ effective (List.cons_ne_nil _ _))
    calls := fun _ => harness.runToolCalls_refines turnId start parts
    donePoint := fun _ => by
      refine (harness.verifyBeforeDone_refines turnId start parts).weaken (fun _ => id) (fun phase _ holds => ?_)
        fun _ _ => id
      cases phase <;> exact holds
    completes := fun _ _ _ => (harness.closeTurn_hands turnId _ _ _ _ _ false).weaken (fun _ => id)
      (fun _ _ ⟨at_, own⟩ => ⟨.inl at_, own⟩) fun _ _ => id
    cancels := by
      -- A turn that was cancelled while the model thought leaves the reply unheeded.
      rintro _ ⟨_, rfl | ⟨reply, rfl⟩⟩ iterations
      · exact (harness.closeTurn_hands turnId (harness.At start .idle) _ _ _ _ true).weaken (fun _ => id)
          (fun _ _ ⟨at_, own⟩ => ⟨.inl at_, own⟩) fun _ _ => id
      · exact (harness.closeTurn_hands turnId (harness.At start (.heard reply)) _ _ _ _ true).weaken (fun _ => id)
          (fun _ _ ⟨at_, own⟩ => ⟨.inr ⟨reply, at_⟩, own⟩) fun _ _ => id }

theorem runTurn_refines (parts : GovernedTools harness.tools) (userMessage : String) :
    Triple (Meets fun core => core.view = start) (harness.runTurn turnId userMessage)
      (harness.Ended start) (harness.Stopped start) := by
  have rule := harness.refines_rule turnId start parts
  refine rule.toRoutine.runTurn turnId userMessage (Meets (harness.At start .idle))
    (fun _ _ same holds => same.1.trans holds) ?_ (rule.keeps 0) (rule.stops 0 .panicked) (fun _ => id) ?_ (rule.keeps 0)
    (rule.runIterations _)
  · rintro state rfl
    exact Reaches.step .refl (.user _ userMessage)
  · intro state reached summary same at_ due
    rw [← same.2] at due
    exact (rule.keeps 0 _ _ same at_).step (.compact _ reached.session summary due rfl)

/--
What every step of the protocol keeps holds when a turn is over.

A turn that returns is at rest or has just heard a reply, and hands back the session it has reached.
-/
theorem runTurnWithState_invariant (assembled : harness.tools.All (Assembled harness.codec harness.permissionPolicy))
    {session : SessionState} {userMessage : String} {outcome : Except TurnStop TurnOutcome} {reached : TurnState ω}
    (ran : harness.runTurnWithState turnId session userMessage host = (outcome, reached))
    (holds : Phase → TurnView ω → Prop) (first : holds .idle { messages := session.messages, trace := [], log := [] })
    (kept : ∀ before after : Phase × TurnView ω, TurnStep harness before after →
      holds before.1 before.2 → holds after.1 after.2) :
    (∃ phase, holds phase reached.core.view) ∧ ∀ done, outcome = .ok done →
      done.session = reached.session ∧
        (holds .idle reached.core.view ∨ ∃ reply, holds (.heard reply) reached.core.view) := by
  have refines := (harness.runTurn_refines turnId { messages := session.messages, trace := [], log := [] }
    (ToolRegistry.All.governed assembled) userMessage).run { world := { host }, session } rfl
  have everywhere : ∀ phase, harness.At { messages := session.messages, trace := [], log := [] } phase
      reached.core → holds phase reached.core.view :=
    fun phase reaches => Reaches.invariant holds first kept reaches
  rw [runTurnWithState] at ran
  rw [ran] at refines
  cases outcome with
  | error stop =>
    obtain ⟨phase, at_⟩ := refines
    exact ⟨⟨phase, everywhere phase at_⟩, nofun⟩
  | ok outcome =>
    obtain ⟨at_ | ⟨reply, at_⟩, own⟩ := refines
    · refine ⟨⟨_, everywhere _ at_⟩, ?_⟩
      rintro _ ⟨⟩
      exact ⟨own, .inl (everywhere _ at_)⟩
    · refine ⟨⟨_, everywhere _ at_⟩, ?_⟩
      rintro _ ⟨⟩
      exact ⟨own, .inr ⟨reply, everywhere _ at_⟩⟩

end AgentHarness

end Codel00p
