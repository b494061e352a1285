import Codel00p.Harness.Loop

/-! How far a turn can move the world, from how far its collaborators can. -/

namespace Codel00p

open Program (Moves Triple)

variable {ω : Type}

def Calls {α : Type} (relation : World ω → World ω → Prop) (operation : ω → α × ω) : Prop :=
  ∀ world, relation world { world with host := (operation world.host).2 }

/-- Everything that a harness calls moves the world within a relation. -/
structure AgentHarness.Collaborates (harness : AgentHarness ω) (relation : World ω → World ω → Prop) :
    Prop where
  ask : ∀ caller request world, relation world (harness.permissionPolicy.ask caller request world).2
  execute : ∀ caller name input, Moves relation (harness.tools.execute harness.codec caller name input)
  consult : ∀ {α : Type} {operation : ω → α × ω}, harness.Consults operation → Calls relation operation
  emit : ∀ event world, relation world { world with host := harness.emit event world.host }

structure Moved (relation : World ω → World ω → Prop) (state reached : TurnState ω) : Prop where
  world : relation state.world reached.world
  sessionId : reached.session.sessionId = state.session.sessionId

section

variable {relation : World ω → World ω → Prop}

instance [Std.Refl relation] : Std.Refl (Moved relation) where
  refl state := ⟨Std.Refl.refl state.world, rfl⟩

instance [IsTrans (World ω) relation] : IsTrans (TurnState ω) (Moved relation) where
  trans _ _ _ first second := ⟨IsTrans.trans _ _ _ first.world second.world, second.sessionId.trans first.sessionId⟩

end

def Keeps (holds : World ω → Prop) (world reached : World ω) : Prop := holds world → holds reached

instance (holds : World ω → Prop) : Std.Refl (Keeps holds) where
  refl _ start := start

instance (holds : World ω → Prop) : IsTrans (World ω) (Keeps holds) where
  trans _ _ _ first second start := second (first start)

namespace AgentHarness

variable {harness : AgentHarness ω} {relation : World ω → World ω → Prop} (turnId : String)

theorem recordEvent_moves (calls : harness.Collaborates relation) (kind : EventKind) :
    Moves (Moved relation) (harness.recordEvent turnId kind) :=
  .change fun state => ⟨calls.emit _ state.world, rfl⟩

variable [Std.Refl relation]

theorem change_moves {update : TurnState ω → TurnState ω} (world : ∀ state, (update state).world = state.world)
    (sessionId : ∀ state, (update state).session.sessionId = state.session.sessionId) :
    Moves (Moved relation) (Program.change update : TurnM ω Unit) := by
  refine .change fun state => ⟨?_, sessionId state⟩
  rw [world]
  exact Std.Refl.refl _

theorem moved_working (calls : harness.Collaborates relation) : Working harness (Moved relation) where
  host consults state := ⟨calls.consult consults state.world, rfl⟩
  event state _ _ := ⟨calls.emit _ state.world, rfl⟩
  asked state _ _ := ⟨calls.ask _ _ state.world, rfl⟩
  ran state _ _ _ := ⟨calls.execute _ _ _ state.world, rfl⟩
  returned _ _ _ := ⟨Std.Refl.refl _, rfl⟩
  batch _ _ := ⟨Std.Refl.refl _, rfl⟩
  failures _ _ := ⟨Std.Refl.refl _, rfl⟩
  exceeded state _ _ _ _ _ := ⟨calls.emit _ state.world, rfl⟩
  recorded _ _ _ _ := ⟨Std.Refl.refl _, rfl⟩
  executed _ _ := ⟨Std.Refl.refl _, rfl⟩
  nudge _ _ _ _ _ _ _ := ⟨Std.Refl.refl _, rfl⟩

variable [IsTrans (World ω) relation] (calls : harness.Collaborates relation)

include calls

theorem closeTurn_moves (iterations : Nat) (assistantMessage : Option String) (verified : Option Bool)
    (cancelled : Bool) : Moves (Moved relation)
      (harness.closeTurn turnId iterations assistantMessage verified cancelled) :=
  .bind ((moved_working calls).runLifecycleHook turnId _).moves fun _ => .bind (.reads _) fun _ =>
    .bind (recordEvent_moves turnId calls _) fun _ => .reads _

/-- A turn moves by what it calls. -/
theorem runTurn_moves (userMessage : String) : Moves (Moved relation) (harness.runTurn turnId userMessage) := by
  refine Triple.moves fun base => ?_
  have working := moved_working calls
  have still : ∀ state : TurnState ω, relation state.world state.world := fun state => Std.Refl.refl _
  have follows : ∀ state reached, Moved relation state reached → Moved relation base state →
      Moved relation base reached := fun _ _ moved reached => IsTrans.trans _ _ _ reached moved
  have closes : ∀ iterations said verified cancelled, Triple (Moved relation base)
      (harness.closeTurn turnId iterations said verified cancelled) (fun _ => Moved relation base)
      fun _ => Moved relation base := fun _ _ _ _ => Working.follow (closeTurn_moves turnId calls _ _ _ _) base
  have rule : TurnRule harness turnId (Moved relation)
      { kept := fun _ => Moved relation base, done := fun _ => Moved relation base,
        closed := fun _ => Moved relation base, stopped := fun _ => Moved relation base } :=
    { working.toRoutine with
      heeded := fun state => ⟨still state, rfl⟩
      keeps := fun _ => follows
      hears := fun _ _ => follows
      closes := fun _ => follows
      rests := fun _ => follows
      stops := fun _ _ _ => id
      asks := fun _ request => (Working.follow (working.askModel turnId request (fun state => ⟨still state, rfl⟩)
        (fun state _ _ => ⟨still state, rfl⟩) fun _ => change_moves (fun _ => rfl) fun _ => rfl) base).starting
        fun _ holds => holds.1
      utters := fun _ reply _ => Working.follow (Routine.sayReply (fun state _ => ⟨still state, rfl⟩) reply) base
      acts := fun _ _ _ _ _ state => follows _ _ ⟨still state, rfl⟩
      calls := fun _ calls => Working.follow (working.runToolCalls turnId calls) base
      donePoint := fun _ => by
        refine (Working.follow (working.verifyBeforeDone turnId working.toActing ?_ (fun state _ => ⟨still state, rfl⟩)
          (fun state _ _ _ _ => ⟨still state, rfl⟩) (fun state => ⟨still state, rfl⟩)
          (fun state _ => ⟨still state, rfl⟩) (change_moves (fun _ => rfl) fun _ => rfl)) base).weaken
          (fun _ => id) (fun phase _ holds => ?_) fun _ _ => id
        · exact fun state _ _ _ _ _ _ _ => ⟨calls.emit _ state.world, rfl⟩
        · cases phase <;> exact holds
      completes := fun _ _ _ => closes _ _ _ _
      cancels := by rintro _ ⟨_, rfl | ⟨_, rfl⟩⟩ iterations <;> exact closes _ _ _ _ }
  refine working.runTurn turnId userMessage _ follows (fun state => follows _ _ ⟨still state, rfl⟩) follows (fun _ => id)
    (fun _ => id) (fun state reached summary moved here _ => ?_) follows (rule.runIterations _)
  exact follows _ _ ⟨still reached, rfl⟩ (follows _ _ moved here)

end AgentHarness

end Codel00p
