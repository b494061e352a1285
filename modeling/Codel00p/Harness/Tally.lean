import Codel00p.Harness.Batch

/-! Every tool call of a reply gets one record, and runs if and only if its own decision allows it. -/

namespace Codel00p

variable {ω : Type}

def Action.ownDecision : Action →
    Option (PermissionRequest × Except HarnessError PermissionDecision)
  | .decided (.model _) request outcome => some (request, outcome)
  | _ => none

def Action.ownStart : Action → Option (String × String × Json × Json)
  | .started (.model callId) tool raw given => some (callId, tool, raw, given)
  | _ => none

def TurnNote.returnedAnswer : TurnNote ω → Option (ModelToolCall × ToolAnswer)
  | .returned call answer => some (call, answer)
  | _ => none

def TurnNote.slots : TurnNote ω → List (Option ToolAnswer)
  | .batch note => note.slots
  | _ => []

attribute [simp] Action.ownDecision Action.ownStart TurnNote.returnedAnswer TurnNote.slots

/-- What has been done so far about the tool calls of the model. -/
structure Tally where
  executed : List ExecutedToolCall
  decisions : List (PermissionRequest × Except HarnessError PermissionDecision)
  starts : List (String × String × Json × Json)
  returned : List (ModelToolCall × ToolAnswer)
  slots : List (Option ToolAnswer)

def TurnCore.tally (core : TurnCore ω) : Tally :=
  { executed := core.executed,
    decisions := core.trace.filterMap Action.ownDecision,
    starts := core.trace.filterMap Action.ownStart,
    returned := core.log.filterMap TurnNote.returnedAnswer,
    slots := core.log.flatMap TurnNote.slots }

namespace AgentHarness

variable (harness : AgentHarness ω) (turnId sessionId : String)

/-- The start that a call leads to when it is executed: none if it does not get to a tool's body. -/
def startOf (call : ModelToolCall) : Option (String × String × Json × Json) :=
  (harness.tools.handed harness.codec call.name call.input).map fun given =>
    (call.id, call.name, call.input, given)

def recordsOf (pairs : List (ModelToolCall × ToolAnswer)) : List ExecutedToolCall :=
  pairs.map fun (call, answer) => harness.recordOf call answer

def tallyAfter (tally : Tally) (steps : List CallStep) : Tally :=
  { executed := tally.executed ++ steps.map fun step => harness.recordOf step.call step.answer,
    decisions := tally.decisions ++ steps.map fun step =>
      (harness.permissionRequest turnId sessionId step.call, .ok step.decision),
    starts := tally.starts ++ (steps.filter CallStep.allowed).filterMap fun step =>
      harness.startOf step.call,
    returned := tally.returned ++ (steps.filter CallStep.allowed).map fun step =>
      (step.call, step.answer),
    slots := tally.slots ++ steps.map fun step => some step.answer }

theorem tallyAfter_append (tally : Tally) (first second : List CallStep) :
    harness.tallyAfter turnId sessionId (harness.tallyAfter turnId sessionId tally first) second =
      harness.tallyAfter turnId sessionId tally (first ++ second) := by
  simp [tallyAfter, List.append_assoc]

theorem own_of_program {action : Action} {requestId : String} (program : action.caller = .program requestId) :
    action.ownDecision = none ∧ action.ownStart = none := by
  cases action with
  | decided | started => cases program; exact ⟨rfl, rfl⟩

def Counts (tally : Tally) (core : TurnCore ω) : Prop := core.session.sessionId = sessionId ∧ core.tally = tally

def Blamed (calls : List ModelToolCall) (stop : TurnStop) (core : TurnCore ω) : Prop :=
  ∃ call ∈ calls, (stop = .panicked ∧ harness.CutsNudge call) ∨ ∃ error, stop = .failed error ∧
    (harness.permissionRequest turnId sessionId call, .error error) ∈ core.tally.decisions

def tallyDecided (tally : Tally)
    (done : List (ModelToolCall × Except HarnessError PermissionDecision)) : Tally :=
  { tally with decisions := tally.decisions ++ done.map fun (call, outcome) =>
      (harness.permissionRequest turnId sessionId call, outcome) }

def tallyExecuted (tally : Tally) (done : List (ModelToolCall × ToolAnswer)) : Tally :=
  { tally with
    starts := tally.starts ++ (done.map (·.1)).filterMap harness.startOf,
    returned := tally.returned ++ done }

theorem own_ran {call : ModelToolCall} {trace reached : List Action}
    (ran : Ran (harness.tools.handed harness.codec call.name call.input) (.model call.id) call.name
      call.input trace reached) : reached.filterMap Action.ownDecision = trace.filterMap Action.ownDecision ∧
      reached.filterMap Action.ownStart = trace.filterMap Action.ownStart ++ (harness.startOf call).toList := by
  cases handed : harness.tools.handed harness.codec call.name call.input with
  | none =>
    rw [handed] at ran
    cases (show reached = trace from ran)
    simp [startOf, handed]
  | some given =>
    rw [handed] at ran
    obtain ⟨actions, rfl, programs, _⟩ := ran
    have foreign : ∀ action ∈ actions, action.ownDecision = none ∧ action.ownStart = none := by
      intro action member
      obtain ⟨requestId, program⟩ := programs action member
      exact own_of_program program
    have decisions := List.filterMap_eq_nil_iff.2 fun action member => (foreign action member).1
    have starts := List.filterMap_eq_nil_iff.2 fun action member => (foreign action member).2
    simp only [List.filterMap_append, List.filterMap_cons, decisions, starts]
    simp [startOf, handed]

/-- The tally of a batch, followed through its decisions, executions, and records. -/
def batchTally (batch : List ModelToolCall) (last : Bool) (tally : Tally) :
    harness.BatchInvariant turnId batch last
      (fun stop => Meets (harness.Blamed turnId sessionId batch stop)) where
  deciding done := Counts sessionId (harness.tallyDecided turnId sessionId tally done)
  executing decided done := Counts sessionId (harness.tallyExecuted
    (harness.tallyDecided turnId sessionId tally (decided.map fun pair => (pair.1, .ok pair.2))) done)
  -- The tally to come stays the same: what has been recorded and what is still to be recorded.
  settling steps _ rest core := Counts sessionId (harness.tallyAfter turnId sessionId tally steps)
    { core with executed := core.executed ++ harness.recordsOf rest }
  decides := by
    rintro done call outcome core ⟨rfl, counted⟩
    refine ⟨rfl, ?_⟩
    simp only [TurnCore.tally, tallyDecided, Tally.mk.injEq] at counted ⊢
    simp [counted, List.filterMap_cons]
  fails := by
    rintro done state call inside error member ⟨_, counted⟩
    refine ⟨call, inside, .inr ⟨error, rfl, ?_⟩⟩
    rw [counted]
    exact List.mem_append_right _ (List.mem_map_of_mem member)
  judges decided core _ counted := by simpa [tallyExecuted] using counted
  executes := by
    rintro decided done call decision answer core reached _ _ ⟨rfl, counted⟩ ran
    obtain ⟨decisions, starts⟩ := harness.own_ran ran
    refine ⟨rfl, ?_⟩
    simp only [TurnCore.tally, tallyExecuted, Tally.mk.injEq] at counted ⊢
    cases start : harness.startOf call <;> simp [counted, decisions, starts, start]
  notes := by
    rintro steps core _ ⟨own, counted⟩
    refine ⟨own, ?_⟩
    simp only [TurnCore.tally, tallyExecuted, tallyDecided, Tally.mk.injEq] at counted ⊢
    simp [counted, tallyAfter, noteOf, recordsOf, answered, Function.comp_def,
      List.filterMap_map, List.filterMap_cons]
  blind _ _ _ _ _ counted := counted
  panics _ _ _ _ _ call inside cut := ⟨call, inside, .inl ⟨rfl, cut⟩⟩
  settles := by
    rintro steps tracker call answer rest core content ⟨own, counted⟩
    refine ⟨own, ?_⟩
    simp only [TurnCore.tally] at counted ⊢
    simpa [settled, recordsOf, List.filterMap_cons] using counted
  nudges _ _ _ _ _ _ counted := counted

theorem runBatch_counts (parts : GovernedTools harness.tools) (batch : List ModelToolCall) (last : Bool)
    (tally : Tally) : Program.Triple (Meets (Counts sessionId tally)) (harness.runBatch turnId batch last)
      (fun _ => Meets fun core => ∃ steps, StepsOf batch steps ∧
        Counts sessionId (harness.tallyAfter turnId sessionId tally steps) core)
      (fun stop => Meets (harness.Blamed turnId sessionId batch stop)) := by
  refine ((harness.batchTally turnId sessionId batch last tally).runBatch_keeps harness turnId
    parts).weaken (fun _ counted => ?_) ?_ (fun _ _ holds => holds)
  · simpa [batchTally, tallyDecided] using counted
  · rintro _ state ⟨steps, _, own, counted⟩
    exact ⟨steps, own, by simpa [batchTally, recordsOf] using counted⟩

theorem runBatches_counts (parts : GovernedTools harness.tools) (batches : List (List ModelToolCall))
    (tally : Tally) : Program.Triple (Meets (Counts sessionId tally)) (harness.runBatches turnId batches)
      (fun _ => Meets fun core => ∃ steps, StepsOf batches.flatten steps ∧
        Counts sessionId (harness.tallyAfter turnId sessionId tally steps) core)
      (fun stop => Meets (harness.Blamed turnId sessionId batches.flatten stop)) := by
  induction batches generalizing tally with
  | nil =>
    refine .pure _ fun state counted => ⟨[], ⟨rfl, by simp⟩, ?_⟩
    simpa [tallyAfter] using counted
  | cons batch rest ih =>
    -- A stop in the first batch or in a later one is blamed on one of all the calls.
    refine .bind ((harness.runBatch_counts turnId sessionId parts batch rest.isEmpty tally).stopping
      (fun stop state ⟨call, inside, reason⟩ => ⟨call, List.mem_append_left _ inside, reason⟩))
      fun _ => ?_
    refine .each fun state ⟨steps, own, counted⟩ => ?_
    refine (ih (harness.tallyAfter turnId sessionId tally steps)).weaken (fun _ same => same ▸ counted) ?_
      (fun stop state ⟨call, inside, reason⟩ => ⟨call, List.mem_append_right _ inside, reason⟩)
    rintro _ reached ⟨later, next, total⟩
    rw [tallyAfter_append] at total
    exact ⟨steps ++ later, own.append next, total⟩

end AgentHarness

open AgentHarness

def listingHarness (policy : PermissionPolicy Unit) : AgentHarness Unit where
  codec := { parse _ := none, render _ := "" }
  tools := ({} : ToolRegistry Unit).withTool
    (LeafTool.tool { name := "list_files", run := fun _ host => (.ok { content := .null }, host) })
  permissionPolicy := policy
  infer _ host := (.error (.inferenceFailed "offline"), host)
  maxIterations := 1

def brokenPolicy : PermissionPolicy Unit where
  decide _ host := (.error (.io (.other "approver is gone")), host)

/-- The state before any call. -/
def freshState : TurnState Unit := { world := { host := () }, session := { sessionId := "session" } }

end Codel00p
