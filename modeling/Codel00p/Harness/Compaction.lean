import Codel00p.Harness.Transcript

/-! What compaction leaves of a transcript: it keeps the end, and may cut it inside the results of one message. -/

namespace Codel00p

variable {ω : Type}

def Asks : Option SessionMessage → SessionMessage → Prop
  | none, _ => False
  | some caller, result =>
    caller.role = .assistant ∧ result.toolCallId ∈ caller.toolCalls.map fun call => some call.id

instance Asks.decide : (caller : Option SessionMessage) → (result : SessionMessage) → Decidable (Asks caller result)
  | none, _ => .isFalse id
  | some caller, result =>
    inferInstanceAs (Decidable
      (caller.role = .assistant ∧ result.toolCallId ∈ caller.toolCalls.map fun call => some call.id))

/-- Every tool result was asked for by the last message before it that is none. -/
def AllAsked : Option SessionMessage → List SessionMessage → Prop
  | _, [] => True
  | caller, message :: rest =>
    if message.role = .tool then Asks caller message ∧ AllAsked caller rest else AllAsked (some message) rest

instance AllAsked.decide : (caller : Option SessionMessage) → (messages : List SessionMessage) →
    Decidable (AllAsked caller messages)
  | _, [] => .isTrue trivial
  | caller, message :: rest =>
    have := AllAsked.decide caller rest
    have := AllAsked.decide (some message) rest
    inferInstanceAs (Decidable (if message.role = .tool then Asks caller message ∧ AllAsked caller rest
      else AllAsked (some message) rest))

/-- A transcript in which every tool call is answered in its place, and every tool result was asked for. -/
def WellFormedTranscript (messages : List SessionMessage) : Prop := WellAnswered messages ∧ AllAsked none messages

instance (messages : List SessionMessage) : Decidable (WellFormedTranscript messages) := inferInstanceAs (Decidable (_ ∧ _))

theorem AllAsked.drop {caller : Option SessionMessage} {messages : List SessionMessage} (asked : AllAsked caller messages)
    (count : Nat) : ∃ other, AllAsked other (messages.drop count) := by
  induction count generalizing caller messages with
  | zero => exact ⟨caller, asked⟩
  | succ count ih =>
    cases messages with
    | nil => exact ⟨caller, trivial⟩
    | cons message rest =>
      rw [AllAsked] at asked
      split at asked
      · exact ih asked.2
      · exact ih asked

theorem AllAsked.of_opens {caller : Option SessionMessage} {messages : List SessionMessage}
    (asked : AllAsked caller messages) (opens : ∀ message, messages.head? = some message → message.role ≠ .tool)
    (other : Option SessionMessage) : AllAsked other messages := by
  cases messages with
  | nil => trivial
  | cons message rest =>
    rw [AllAsked, if_neg (opens message rfl)] at asked ⊢
    exact asked

def CutsResults (messages : List SessionMessage) (keep : Nat) : Prop :=
  ∃ message, (messages.drop (messages.length - keep)).head? = some message ∧ message.role = .tool

theorem compactWithSummary_wellFormed_iff {session : SessionState} (whole : WellFormedTranscript session.messages)
    (summary : String) (keep : Nat) :
    WellFormedTranscript (session.compactWithSummary summary keep).messages ↔ ¬CutsResults session.messages keep := by
  have kept : session.messages.length - min keep session.messages.length = session.messages.length - keep := by omega
  have answered := whole.1.compact summary keep
  have summarized : (session.compactWithSummary summary keep).messages =
      .system ("Session summary:\n" ++ summary) :: session.messages.drop (session.messages.length - keep) := by
    rw [SessionState.compactWithSummary, kept]
  rw [WellFormedTranscript, and_iff_right answered, summarized, AllAsked, if_neg (by simp [SessionMessage.system])]
  constructor
  · -- A summary asks for nothing.
    rintro asked ⟨message, first, tool⟩
    obtain ⟨rest, split⟩ := List.head?_eq_some_iff.1 first
    rw [split, AllAsked, if_pos tool] at asked
    exact nomatch asked.1.1
  · intro uncut
    obtain ⟨caller, asked⟩ := whole.2.drop (session.messages.length - keep)
    exact asked.of_opens (fun message first tool => uncut ⟨message, first, tool⟩) _

namespace AgentHarness

variable (harness : AgentHarness ω) (turnId : String)

theorem exec_compactContextIfNeeded_session (state : TurnState ω) :
    (Program.exec (harness.compactContextIfNeeded turnId) state).2.session =
      if harness.compactionDue state.session.messages then
        match summarizeCompactedMessages state.session.messages defaultCompactionRecentMessages with
        | none => state.session
        | some summary => state.session.compactWithSummary summary defaultCompactionRecentMessages
      else state.session := by
  simp only [compactContextIfNeeded, Program.exec_bind, Program.exec_reads]
  split
  · obtain ⟨_, reached, hooked, quiet⟩ := (@Quiet.routine _ harness).runLifecycleHook turnId .preCompact state
    have same : reached.session = state.session := congrArg TurnCore.session quiet
    simp only [Program.exec_bind, hooked]
    cases summarizeCompactedMessages state.session.messages defaultCompactionRecentMessages with
    | none => exact same
    | some summary =>
      show reached.session.compactWithSummary summary defaultCompactionRecentMessages = _
      rw [same]
  · rfl

/-- Compaction leaves a well-formed transcript well-formed, for whatever it keeps and whenever the harness compacts, just
when it does not keep a tool result first. -/
theorem compaction_wellFormed_iff (state : TurnState ω) (whole : WellFormedTranscript state.session.messages) :
    (∀ summary keep, WellFormedTranscript (state.session.compactWithSummary summary keep).messages ↔
        ¬CutsResults state.session.messages keep) ∧
      (WellFormedTranscript (Program.exec (harness.compactContextIfNeeded turnId) state).2.session.messages ↔
        (harness.compactionDue state.session.messages = true →
          (summarizeCompactedMessages state.session.messages defaultCompactionRecentMessages).isSome →
            ¬CutsResults state.session.messages defaultCompactionRecentMessages)) := by
  have every := compactWithSummary_wellFormed_iff whole
  refine ⟨every, ?_⟩
  rw [exec_compactContextIfNeeded_session]
  split
  · next due =>
    cases summarizeCompactedMessages state.session.messages defaultCompactionRecentMessages with
    | none => simp [whole]
    | some summary => simp [due, every]
  · next undue => simp [undue, whole]

end AgentHarness

def fullContext : AgentHarness Unit where
  codec := { parse _ := none, render _ := "" }
  tools := {}
  permissionPolicy := allowAllPermissionPolicy
  infer _ host := (.error (.inferenceFailed "offline"), host)
  contextWindow := some { model := "m", contextLimitTokens := 10, usedTokens := 9, blockingThresholdTokens := some 8 }
  maxIterations := 1

def conversation (opening closing : List SessionMessage) : TurnState Unit where
  world := { host := () }
  session :=
    { sessionId := "session"
      messages := opening ++ [.assistantToolCalls [{ id := "1", name := "read_file", input := .null }],
        .toolResult "1" "read_file" "text", .assistant "Done."] ++ closing }

/-- A turn in which the calls are the first message that is kept. -/
def beforeCall : TurnState Unit := conversation [.user "Hello.", .user "Read it."] [.user "Thanks."]

/-- A call that is kept keeps its result. -/
theorem call_kept : fullContext.compactionDue beforeCall.session.messages = true ∧
      (∀ summary keep, WellFormedTranscript (beforeCall.session.compactWithSummary summary keep).messages ↔
        ¬CutsResults beforeCall.session.messages keep) ∧
      (WellFormedTranscript (Program.exec (fullContext.compactContextIfNeeded "turn") beforeCall).2.session.messages ↔
        (fullContext.compactionDue beforeCall.session.messages = true →
          (summarizeCompactedMessages beforeCall.session.messages defaultCompactionRecentMessages).isSome →
            ¬CutsResults beforeCall.session.messages defaultCompactionRecentMessages)) :=
  ⟨rfl, fullContext.compaction_wellFormed_iff "turn" beforeCall (by decide)⟩

/-- A turn in which the result is the first message that is kept. -/
def insideCall : TurnState Unit := conversation [.user "Read it."] [.user "Thanks.", .user "Bye."]

/-- A result is kept without its call. -/
theorem result_orphaned : WellFormedTranscript insideCall.session.messages ∧
      ¬WellFormedTranscript (Program.exec (fullContext.compactContextIfNeeded "turn") insideCall).2.session.messages := by
  decide +kernel

end Codel00p
