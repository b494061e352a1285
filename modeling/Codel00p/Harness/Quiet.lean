import Codel00p.Harness.Protocol
import Codel00p.Harness.Routine

/-! The operations of a turn that leave everything but the host, the events, and the totals alone. -/

namespace Codel00p

open Program (Moves Triple Returns)

variable {ω : Type}

/-- The part of a turn's state that its protocol is about, with what its decisions depend on. -/
structure TurnCore (ω : Type) where
  session : SessionState
  trace : List Action
  log : List (TurnNote ω)
  executed : List ExecutedToolCall
  failures : FailureTracker
  verify : VerifyState

def TurnState.core (state : TurnState ω) : TurnCore ω :=
  { session := state.session, trace := state.world.trace, log := state.log,
    executed := state.executed, failures := state.failures, verify := state.verify }

def TurnCore.view (core : TurnCore ω) : TurnView ω :=
  { messages := core.session.messages, trace := core.trace, log := core.log }

abbrev Meets (assertion : TurnCore ω → Prop) (state : TurnState ω) : Prop := assertion state.core

def Quiet (state reached : TurnState ω) : Prop := reached.core = state.core

instance : Std.Refl (Quiet (ω := ω)) where
  refl _ := rfl

instance : IsTrans (TurnState ω) Quiet where
  trans _ _ _ first second := second.trans first

theorem Quiet.routine {harness : AgentHarness ω} : Routine harness Quiet where
  host _ _ := rfl
  event _ _ _ := rfl

variable {α : Type} {stopped : TurnStop → TurnState ω → Prop}

theorem silently {program : TurnM ω α} {kept : TurnCore ω → Prop} (silent : Returns Quiet program) :
    Triple (Meets kept) program (fun _ => Meets kept) stopped := by
  refine .of_returns silent fun state reached same holds => ?_
  rw [Meets, same]
  exact holds

theorem silently_bind {β : Type} {first : TurnM ω α} {next : α → TurnM ω β}
    {before : TurnCore ω → Prop} {after : β → TurnState ω → Prop} (silent : Returns Quiet first)
    (goesOn : ∀ value, Triple (Meets before) (next value) after stopped) :
    Triple (Meets before) (first >>= next) after stopped :=
  .bind (silently silent) goesOn

namespace AgentHarness

variable (harness : AgentHarness ω) (turnId : String)

theorem recordEvent_silent (kind : EventKind) : Returns Quiet (harness.recordEvent turnId kind) :=
  .change fun _ => rfl

theorem accountUsage_silent (reply : HarnessInferenceResponse) : Returns Quiet (accountUsage reply : TurnM ω Unit) :=
  .change fun _ => rfl

end AgentHarness

end Codel00p
