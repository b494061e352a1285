import Codel00p.Harness.Routine

/-! One rule for the turn loop: what holds at the points of a turn follows from what leads from one to the next. -/

namespace Codel00p

open Program (Moves Triple Returns)

variable {ω : Type}

/-- What holds after a done-point: the turn goes on, or it is done with a verdict. -/
def AtPhase (kept : TurnState ω → Prop) (done : Option Bool → TurnState ω → Prop) :
    DonePhase → TurnState ω → Prop
  | .continue => kept
  | .complete verified => done verified

/--
What holds at the points of a turn: with so many iterations left, after a reply, before its calls and before
a done-point, after the last one, and at both ends of the turn.
-/
structure TurnPoints (ω : Type) where
  kept : Nat → TurnState ω → Prop
  heard : Nat → HarnessInferenceResponse → TurnState ω → Prop := fun left _ => kept left
  calling : Nat → List ModelToolCall → TurnState ω → Prop := fun left _ => kept left
  closing : Nat → TurnState ω → Prop := kept
  done : Option Bool → TurnState ω → Prop
  closed : TurnOutcome → TurnState ω → Prop
  stopped : TurnStop → TurnState ω → Prop

/-- What holds after an iteration with so many left. -/
def TurnPoints.after (points : TurnPoints ω) (left : Nat) : Option TurnOutcome → TurnState ω → Prop
  | some outcome => points.closed outcome
  | none => points.kept left

/-- The parts of a turn lead from point to point, and what is routine does not lead away from one. -/
structure TurnRule (harness : AgentHarness ω) (turnId : String) (relation : TurnState ω → TurnState ω → Prop)
    (points : TurnPoints ω) : Prop extends Routine harness relation where
  heeded : ∀ state, relation state { state with verify := { state.verify with critiquePending := false } }
  keeps : ∀ left state reached, relation state reached → points.kept left state → points.kept left reached
  hears : ∀ left reply state reached, relation state reached → points.heard left reply state →
    points.heard left reply reached
  closes : ∀ left state reached, relation state reached → points.closing left state → points.closing left reached
  rests : ∀ verified state reached, relation state reached → points.done verified state → points.done verified reached
  stops : ∀ left stop state, points.kept left state → points.stopped stop state
  asks : ∀ left request, Triple (fun state => points.kept (left + 1) state ∧ request.session = state.session)
    (harness.askModel turnId request) (points.heard left) points.stopped
  utters : ∀ left reply, harness.effectiveCalls reply = [] →
    Triple (points.heard left reply) (AgentHarness.sayReply reply) (fun _ => points.closing left) points.stopped
  acts : ∀ left reply call calls, harness.effectiveCalls reply = call :: calls → ∀ state,
    points.heard left reply state → points.calling left (call :: calls) (state.push (.assistantToolCalls (call :: calls)))
  calls : ∀ left calls, Triple (points.calling left calls) (harness.runToolCalls turnId calls)
    (fun _ => points.kept left) points.stopped
  donePoint : ∀ left, Triple (points.closing left) (harness.verifyBeforeDone turnId)
    (AtPhase (points.kept left) points.done) points.stopped
  completes : ∀ iterations said verified, Triple (points.done verified)
    (harness.closeTurn turnId iterations said verified false) points.closed points.stopped
  cancels : ∀ ending, (∃ left, ending = points.kept left ∨ ∃ reply, ending = points.heard left reply) →
    ∀ iterations, Triple ending (harness.finishCancelled turnId iterations) points.closed points.stopped

namespace TurnRule

variable {harness : AgentHarness ω} {turnId : String} {relation : TurnState ω → TurnState ω → Prop}
  {points : TurnPoints ω} [Std.Refl relation] [IsTrans (TurnState ω) relation]
  (rule : TurnRule harness turnId relation points)

include rule

theorem finishReply (left iteration : Nat) {reply : HarnessInferenceResponse}
    (callless : harness.effectiveCalls reply = []) : Triple (points.heard left reply)
      (harness.finishReply turnId iteration reply) (points.after left) points.stopped := by
  refine .bind (rule.utters left reply callless) fun _ => ?_
  refine .bind (.of_returns (rule.noteCritique turnId rule.heeded false) (rule.closes left)) fun _ => ?_
  refine .bind (rule.donePoint left) fun phase => ?_
  cases phase with
  | «continue» => exact .pure _ fun _ holds => holds
  | complete verified =>
    -- Extractors look at the turn before it is closed.
    have rested : ∀ {α : Type} {program : TurnM ω α}, Returns relation program →
        Triple (points.done verified) program (fun _ => points.done verified) points.stopped :=
      fun returns => .of_returns returns (rule.rests verified)
    refine .bind (.bind (rested (.reads _)) fun context => .bind (rested (.reads _)) fun completed => ?_)
      fun outcome => .pure _ fun _ holds => holds
    refine .bind (rested (.forM fun stage member => rule.runPostTurnStage turnId completed member)) fun _ => ?_
    exact rule.completes _ _ verified

theorem actOnCalls (left iteration : Nat) {reply : HarnessInferenceResponse} {call : ModelToolCall}
    {calls : List ModelToolCall} (effective : harness.effectiveCalls reply = call :: calls) :
    Triple (points.heard left reply) (harness.actOnCalls turnId iteration (call :: calls)) (points.after left)
      points.stopped := by
  refine .bind (.of_returns (rule.withHost .isCancelled) (rule.hears left reply)) fun cancelled => .ite (fun _ => ?_) fun _ => ?_
  · exact .bind (rule.cancels _ ⟨left, .inr ⟨reply, rfl⟩⟩ iteration) fun _ => .pure _ fun _ holds => holds
  · refine .bind (.of_returns (rule.noteCritique turnId rule.heeded true) (rule.hears left reply)) fun _ => ?_
    refine .change_bind _ (rule.acts left reply call calls effective) ?_
    exact .bind (rule.calls left _) fun _ => .pure _ fun _ holds => holds

theorem buildRequest (left iteration : Nat) : Triple (points.kept left) (harness.buildRequest turnId iteration)
      (fun request state => points.kept left state ∧ request.session = state.session) points.stopped := by
  have passing : ∀ {α : Type} {program : TurnM ω α}, Moves relation program →
      Triple (points.kept left) program (fun _ => points.kept left) points.stopped :=
    fun moves => (Triple.of_moves moves (rule.keeps left)).stopping (rule.stops left)
  refine .bind (passing (rule.selfBlock iteration).moves) fun _ => ?_
  refine .bind (passing (rule.withHost .loadInstructions).moves) fun loaded => .bind (passing (Routine.orFail loaded)) fun _ => ?_
  refine .bind (passing (rule.consult turnId .retrieveMemory)) fun _ => ?_
  refine .bind (passing (rule.consult turnId .selectSkills)) fun _ => .bind (passing rule.workspaceBlock.moves) fun _ => ?_
  exact .reads_bind fun session => .pure _ fun _ ⟨holds, same⟩ => ⟨holds, same.symm⟩

theorem runIteration (left iteration : Nat) : Triple (points.kept (left + 1))
      (harness.runIteration turnId iteration) (points.after left) points.stopped := by
  refine .bind (.of_returns (rule.withHost .isCancelled) (rule.keeps _)) fun cancelled => .ite (fun _ => ?_) fun _ => ?_
  · exact .bind (rule.cancels _ ⟨_, .inl rfl⟩ _) fun _ => .pure _ fun _ holds => holds
  · refine .bind (.of_returns (rule.runLifecycleHook turnId _) (rule.keeps _)) fun _ => ?_
    refine .bind (rule.buildRequest _ iteration) fun request => .bind (rule.asks left request) fun reply => ?_
    split
    · next callless => exact rule.finishReply left iteration callless
    · next effective => exact rule.actOnCalls left iteration effective

theorem runIterations (left : Nat) :
    Triple (points.kept left) (harness.runIterations turnId left) points.closed points.stopped := by
  induction left with
  | zero => exact .throw _ (rule.stops 0 _)
  | succ left ih =>
    refine .bind (rule.runIteration left _) fun ended => ?_
    cases ended with
    | some outcome => exact .pure _ fun _ holds => holds
    | none => exact ih

end TurnRule

/-- The loop is entered with the message of the user said and the context compacted, if there is need to. -/
theorem Routine.runTurn {harness : AgentHarness ω} {relation : TurnState ω → TurnState ω → Prop} [Std.Refl relation]
    [IsTrans (TurnState ω) relation] (routine : Routine harness relation) (turnId userMessage : String)
    (kept : TurnState ω → Prop) {before opened : TurnState ω → Prop} {closed : TurnOutcome → TurnState ω → Prop}
    {stopped : TurnStop → TurnState ω → Prop}
    (starts : ∀ state reached, relation state reached → before state → before reached)
    (opens : ∀ state, before state → opened (state.push (.user userMessage)))
    (waits : ∀ state reached, relation state reached → opened state → opened reached)
    (panics : ∀ state, opened state → stopped .panicked state) (skips : ∀ state, opened state → kept state)
    (compacts : ∀ state reached summary, relation state reached → opened state →
      harness.compactionDue state.session.messages = true → kept { reached.note .compacted with
        session := reached.session.compactWithSummary summary defaultCompactionRecentMessages })
    (keeps : ∀ state reached, relation state reached → kept state → kept reached)
    (iterates : Triple kept (harness.runIterations turnId harness.maxIterations) closed stopped) :
    Triple before (harness.runTurn turnId userMessage) closed stopped := by
  have entering : ∀ {α : Type} {program : TurnM ω α}, Returns relation program →
      Triple kept program (fun _ => kept) stopped := fun returns => .of_returns returns keeps
  have compacting : Triple opened (harness.compactContextIfNeeded turnId) (fun _ => kept) stopped := by
    refine .each fun state holds => .reads_bind fun messages => .ite (fun due => ?_) fun _ => .pure _ ?_
    · refine .knowing (fun _ ⟨here, read⟩ => here ▸ read) fun read => ?_
      -- What the hook leaves is still related to where the messages were read.
      refine .bind ((Triple.of_returns (routine.runLifecycleHook turnId _) fun _ _ moved reached =>
        IsTrans.trans state _ _ reached moved).starting (by rintro _ ⟨rfl, _⟩; exact Std.Refl.refl _)) fun _ => ?_
      split
      · exact .throw _ fun reached moved => panics reached (waits state reached moved holds)
      · refine .change_bind _ (fun reached moved => compacts state reached _ moved holds (read ▸ due)) ?_
        exact .bind (entering (.reads _)) fun _ => entering (routine.recordEvent turnId rfl)
    · rintro _ ⟨rfl, _⟩
      exact skips _ holds
  refine .bind (.of_returns (routine.recordEvent turnId rfl) starts) fun _ => .change_bind opened opens ?_
  refine .bind (.of_returns (routine.runLifecycleHook turnId _) waits) fun _ => .bind compacting fun _ => ?_
  exact .bind (entering (.reads _)) fun count => .bind (entering (routine.recordEvent turnId rfl)) fun _ => iterates

end Codel00p
