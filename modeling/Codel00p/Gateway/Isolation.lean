import Codel00p.Gateway.Message
import Codel00p.Gateway.SessionView

/-! What one conversation observes while another one goes on. -/

namespace Codel00p.Gateway

variable {ω : Type}

/-! ### Files -/

namespace ApprovalStore

variable {store other : ApprovalStore} {name : String}

theorem lookup_write_congr (same : store.lookup name = other.lookup name) (writes : List ApprovalWrite) :
    (store.write writes).lookup name = (other.write writes).lookup name := by
  induction writes generalizing store other with
  | nil => exact same
  | cons write writes ih =>
    refine ih ?_
    by_cases own : name = write.1
    · subst own
      rw [Assoc.lookup_insert_self, Assoc.lookup_insert_self]
    · rw [Assoc.lookup_insert_other own, Assoc.lookup_insert_other own, same]

theorem lookup_write_other {writes : List ApprovalWrite} (apart : ∀ write ∈ writes, write.1 ≠ name) :
    (store.write writes).lookup name = store.lookup name := by
  induction writes generalizing store with
  | nil => rfl
  | cons write writes ih =>
    have first : name ≠ write.1 := fun same => apart write List.mem_cons_self same.symm
    refine (ih fun later member => apart later (List.mem_cons_of_mem _ member)).trans ?_
    exact Assoc.lookup_insert_other first _ _

variable (removable : Bool) {conversation : String} (approved : Bool)

theorem resolve_congr (same : store.lookup (fileName conversation) = other.lookup (fileName conversation)) :
    (store.resolve removable conversation approved).1 = (other.resolve removable conversation approved).1 ∧
      (store.resolve removable conversation approved).2.lookup (fileName conversation) =
        (other.resolve removable conversation approved).2.lookup (fileName conversation) := by
  unfold resolve
  rw [same]
  split
  · exact ⟨rfl, same⟩
  · refine ⟨rfl, ?_⟩
    dsimp only
    cases removable with
    | true => exact (Assoc.lookup_erase_self _ _).trans (Assoc.lookup_erase_self _ _).symm
    | false => exact same

theorem lookup_resolve_other (apart : name ≠ fileName conversation) :
    (store.resolve removable conversation approved).2.lookup name = store.lookup name := by
  unfold resolve
  split
  · rfl
  · dsimp only
    split
    · exact Assoc.lookup_erase_other apart store
    · rfl

end ApprovalStore

/-! ### Turns -/

/-- All that has been written is one file. -/
def WritesOnly (name : String) (world : World (GatewayHost ω)) : Prop := ∀ write ∈ world.host.written, write.1 = name

variable {conversation : String} {session : SessionState}

theorem recordApproval_writes {fault : Option WriteFault} {tool detail : String}
    {write : ApprovalWrite} (member : write ∈ (recordApproval fault conversation tool detail).2) :
    write.1 = fileName conversation := by
  unfold recordApproval at member
  split at member
  · exact congrArg Prod.fst (List.mem_singleton.1 member)
  · dsimp only at member
    split at member
    · exact congrArg Prod.fst (List.mem_singleton.1 member)
    · exact nomatch member

theorem gatewayApprovalPolicy_writesOnly (codec : JsonCodec) (fault : ω → Option WriteFault)
    (conversation : String) (caller : Caller) (request : PermissionRequest) (world : World (GatewayHost ω))
    (only : WritesOnly (fileName conversation) world) : WritesOnly (fileName conversation)
      ((gatewayApprovalPolicy codec fault conversation).ask caller request world).2 := by
  intro write member
  unfold PermissionPolicy.ask gatewayApprovalPolicy at member
  dsimp only at member
  split at member
  · exact only write member
  · split at member
    · exact only write member
    · -- Whether the request could be recorded or not, what was written comes last.
      have written : write ∈ world.host.written ++ (recordApproval (fault world.host.host) conversation
          request.toolName (describePermissionRequest codec request)).2 := by
        split at member <;> exact member
      rcases List.mem_append.1 written with earlier | new
      · exact only write earlier
      · exact recordApproval_writes new

theorem gatewayHarness_writesOnly {input : TurnInput ω} {agent : Agent ω} {prompt : String}
    {granted : Option String} {ended : Except TurnStop TurnOutcome} {reached : TurnState (GatewayHost ω)}
    (ran : (gatewayHarness input agent conversation).runTurnWithState input.turnId session prompt
      { granted, host := input.host } = (ended, reached)) :
    WritesOnly (fileName conversation) reached.world ∧
      ∀ outcome, ended = .ok outcome → outcome.session.sessionId = session.sessionId :=
  agent.embed_invariant _ _ _ (WritesOnly (fileName conversation)) (fun _ _ only => only)
    (gatewayApprovalPolicy_writesOnly _ _ _) (fun _ _ _ _ _ only => only) ran
    nofun

/-! ### Messages -/

def GatewayState.view (conversation : String) (state : GatewayState) :
    Option (Option PendingApproval) × StorageScope × Option SessionMetadata × List (AppendLogEntry Json) :=
  (state.approvals.lookup (fileName conversation), state.sessions.view (conversationSessionId conversation))

variable (config : GatewayConfig)

/-- Only one conversation has changed what it observes, and metadata is still filed under its own id. -/
def Confined (conversation : String) (state reached : GatewayState) : Prop :=
  state.sessions.Filed → reached.sessions.Filed ∧
    ∀ other, fileName other ≠ fileName conversation →
      conversationSessionId other ≠ conversationSessionId conversation → reached.view other = state.view other

theorem sessionId_prepareSessionState {codec : SessionCodec} {store : SessionStore} {sessionId : String}
    {previous : Nat} (prepared : prepareSessionState codec store sessionId = .ok (session, previous)) :
    session.sessionId = sessionId := by
  unfold prepareSessionState at prepared
  split at prepared
  · cases prepared
    rfl
  · obtain ⟨records, _, made⟩ := Except.bind_eq_ok.1 prepared
    cases Except.pure_eq_ok.1 made
    rfl

theorem confined_of {state reached : GatewayState} (approvals : ∀ name, name ≠ fileName conversation →
      reached.approvals.lookup name = state.approvals.lookup name)
    (sessions : Spares (conversationSessionId conversation) state.sessions reached.sessions) :
    Confined conversation state reached := by
  intro filed
  obtain ⟨still, spared⟩ := sessions filed
  refine ⟨still, fun other file session => ?_⟩
  rw [GatewayState.view, approvals _ file, spared _ session]
  rfl

instance (conversation : String) : Std.Refl (Confined conversation) where
  refl _ := confined_of (fun _ _ => rfl) (Std.Refl.refl _)

instance (conversation : String) : IsTrans GatewayState (Confined conversation) where
  trans := by
    intro state between reached first second filed
    obtain ⟨middle, led⟩ := first filed
    obtain ⟨last, goes⟩ := second middle
    exact ⟨last, fun other file session => (goes other file session).trans (led other file session)⟩

theorem resolve_confined (removable : Bool) (conversation : String) (approved : Bool) (state : GatewayState) :
    Confined conversation state
      { state with approvals := (state.approvals.resolve removable conversation approved).2 } :=
  confined_of (fun _ apart => ApprovalStore.lookup_resolve_other removable approved apart) (Std.Refl.refl _)

/-! ### What a message depends on -/

section

variable {conversation : String} {state other : GatewayState}

section

variable (same : state.view conversation = other.view conversation)

include same

theorem file_of_view :
    state.approvals.lookup (fileName conversation) = other.approvals.lookup (fileName conversation) :=
  congrArg Prod.fst same

theorem session_of_view : state.sessions.view (conversationSessionId conversation) =
      other.sessions.view (conversationSessionId conversation) :=
  congrArg Prod.snd same

theorem pending_of_view : state.approvals.pending conversation = other.approvals.pending conversation := by
  rw [ApprovalStore.pending, ApprovalStore.pending, file_of_view same]

theorem prepareSessionState_of_view :
    prepareSessionState config.sessions state.sessions (conversationSessionId conversation) =
      prepareSessionState config.sessions other.sessions (conversationSessionId conversation) := by
  have session := session_of_view same
  unfold prepareSessionState
  rw [SessionStore.metadata_of_view session, SessionStore.replay_of_view config.sessions.values session]

end

/--
Something is done for one conversation only.

Nothing that another one observes is changed, and states that the conversation observes the same are answered,
and observed then, the same.
-/
def Local (conversation : String) (answer : GatewayState → Handled × GatewayState) (state other : GatewayState) : Prop :=
  Confined conversation state (answer state).2 ∧ (answer state).1 = (answer other).1 ∧
    (answer state).2.view conversation = (answer other).2.view conversation

section

variable (same : state.view conversation = other.view conversation)

include same

/-- A turn is one of its conversation. -/
theorem runAgentTurn_local (input : TurnInput ω) (prompt : String) (granted : Option String) :
    Local conversation (runAgentTurn config input conversation (conversationSessionId conversation) prompt granted)
      state other := by
  have session := session_of_view same
  unfold Local runAgentTurn
  rw [prepareSessionState_of_view config same]
  split
  iterate 3 · exact ⟨Std.Refl.refl _, rfl, same⟩
  · next prepared previous agent _ found _ =>
    -- The harness never looks at the store, so both turns are one.
    dsimp only
    generalize run : (gatewayHarness input agent conversation).runTurnWithState input.turnId prepared prompt
      { granted, host := input.host } = ran
    obtain ⟨ended, reached⟩ := ran
    obtain ⟨only, stays⟩ := gatewayHarness_writesOnly run
    have spared : ∀ name, name ≠ fileName conversation →
        (state.approvals.write reached.world.host.written).lookup name = state.approvals.lookup name :=
      fun name apart => ApprovalStore.lookup_write_other fun write member same =>
        apart (same.symm.trans (only write member))
    have files := ApprovalStore.lookup_write_congr (file_of_view same) reached.world.host.written
    dsimp only
    split
    · exact ⟨confined_of spared (Std.Refl.refl _), rfl, Prod.ext files session⟩
    · exact ⟨confined_of spared (Std.Refl.refl _), rfl, Prod.ext files session⟩
    · next outcome =>
      have own : outcome.session.sessionId = conversationSessionId conversation :=
        (stays outcome rfl).trans (sessionId_prepareSessionState found)
      have sees := persistTurnOutcome_sees config.sessions input.now outcome.session outcome.events previous
      have spares := persistTurnOutcome_spares config.sessions input.now outcome.session outcome.events previous
      rw [own] at sees spares
      obtain ⟨result, kept⟩ := sees state.sessions other.sessions session
      dsimp only
      rw [result]
      exact ⟨confined_of spared (spares _), rfl, Prod.ext files kept⟩

theorem gatewayTurn_local (input : TurnInput ω) (prompt : String) (granted : Option String) :
    Local conversation (gatewayTurn config input conversation prompt granted) state other := by
  unfold Local gatewayTurn
  split
  · exact ⟨Std.Refl.refl _, rfl, same⟩
  · exact ⟨Std.Refl.refl _, rfl, same⟩
  · obtain ⟨confined, handled, views⟩ := runAgentTurn_local config same input prompt granted
    have pending := pending_of_view views
    dsimp only
    rw [handled, pending]
    exact ⟨confined, rfl, views⟩

theorem view_withApprovals {approvals approvals' : ApprovalStore}
    (file : approvals.lookup (fileName conversation) = approvals'.lookup (fileName conversation)) :
    ({ state with approvals } : GatewayState).view conversation =
      ({ other with approvals := approvals' } : GatewayState).view conversation := by
  have session := session_of_view same
  exact Prod.ext file session

theorem gatewayResolve_local (input : TurnInput ω) (approve : Bool) :
    Local conversation (gatewayResolve config input conversation approve) state other := by
  obtain ⟨outcome, file⟩ := ApprovalStore.resolve_congr input.removable approve (file_of_view same)
  have resolved := view_withApprovals same file
  have confined := resolve_confined input.removable conversation approve state
  unfold Local gatewayResolve
  dsimp only
  rw [outcome, pending_of_view same]
  split
  · exact ⟨confined, rfl, resolved⟩
  · exact ⟨confined, rfl, resolved⟩
  · exact (gatewayTurn_local config resolved input _ _).imp_left (IsTrans.trans _ _ _ confined)

end

theorem runGatewayMessage_local {inbound : Inbound ω}
    (same : state.view inbound.conversation = other.view inbound.conversation) :
    Local inbound.conversation (runGatewayMessage config inbound) state other := by
  unfold Local runGatewayMessage
  split
  · exact ⟨Std.Refl.refl _, rfl, same⟩
  · exact ⟨Std.Refl.refl _, rfl, same⟩
  · exact gatewayResolve_local config same _ _
  · exact gatewayResolve_local config same _ _
  · have file := ApprovalStore.resolve_congr inbound.input.removable false (file_of_view same)
    exact (gatewayTurn_local config (view_withApprovals same file.2) _ _ _).imp_left
      (IsTrans.trans _ _ _ (resolve_confined inbound.input.removable inbound.conversation false state))

end

/-! ### Interleavings -/

def Inbound.isOf (conversation : String) (inbound : Inbound ω) : Bool := inbound.conversation = conversation

/--
Nothing that is done in one conversation changes what another one observes.

In every interleaving, the other conversation is answered as it would be on its own, and observes at the end
what it would observe then.
-/
def Isolated (conversation other : String) : Prop :=
  ∀ (ω : Type) (config : GatewayConfig) (start : GatewayState) (messages : List (Inbound ω)),
    start.sessions.Filed →
    (∀ message ∈ messages, message.conversation = conversation ∨ message.conversation = other) →
      Run.observed (runGatewayMessage config) (Inbound.isOf other) messages start =
        (Run.outputs (runGatewayMessage config) (messages.filter (Inbound.isOf other)) start).1 ∧
      (Run.outputs (runGatewayMessage config) messages start).2.view other =
        (Run.outputs (runGatewayMessage config) (messages.filter (Inbound.isOf other)) start).2.view other

theorem isolated_of_names {other : String} (files : fileName other ≠ fileName conversation)
    (sessions : conversationSessionId other ≠ conversationSessionId conversation) : Isolated conversation other := by
  intro ω config start messages filed ofBoth
  refine Run.apart_of_view (runGatewayMessage config) (GatewayState.view other) (Inbound.isOf other)
    (·.sessions.Filed) (fun message => message.conversation = conversation ∨ message.conversation = other)
    (fun message state holds => ((runGatewayMessage_local config rfl).1 holds).1)
    (fun message state ofBoth foreign holds => ?_) (fun message state state' mine same => ?_) ofBoth filed rfl
  · have its : message.conversation = conversation :=
      ofBoth.resolve_right (by simpa [Inbound.isOf] using foreign)
    exact ((runGatewayMessage_local config rfl).1 holds).2 other (its ▸ files) (its ▸ sessions)
  · have its : message.conversation = other := by simpa [Inbound.isOf] using mine
    subst its
    exact (runGatewayMessage_local config same).2

/-! ### Names that clash -/

/-- Records that are kept as texts. -/
def plainRecords : RecordValues SessionRecord where
  toValue record := .string ((record.message?.map (·.content)).getD "")
  fromValue value := some (.message (.user (value.asStr.getD "")))

def plainConfig : GatewayConfig where
  provider := some "provider"
  model := some "model"
  sessions := { values := plainRecords }

def awaiting (conversation : String) : GatewayState where
  approvals := [(fileName conversation, some { conversation, tool := "shell", detail := "ls" })]
  sessions := { scope := {} }

/-- An agent that is stopped before it does anything. -/
def stoppedAgent : Agent Unit where
  harness :=
    { codec := { parse _ := none, render _ := "" }
      tools := {}
      permissionPolicy := allowAllPermissionPolicy
      infer _ host := (.error (.inferenceFailed "stopped"), host)
      isCancelled host := (true, host)
      maxIterations := 1 }
  leaves := .empty

def stoppedInput : TurnInput Unit where
  agent := .ok stoppedAgent
  host := ()
  turnId := "turn"

def stoppedMessage (conversation text : String) : Inbound Unit :=
  { conversation, user := "user", text, input := stoppedInput }

theorem denial_settles (config : GatewayConfig) {message : Inbound ω} (denies : parseCommand message.text = .deny)
    (removable : message.input.removable = true) (state : GatewayState) :
    (runGatewayMessage config message state).2.approvals.lookup (fileName message.conversation) = none := by
  unfold runGatewayMessage
  rw [denies]
  simp only [gatewayResolve, ApprovalStore.resolve, removable]
  cases found : state.approvals.lookup (fileName message.conversation) with
  | none => exact found
  | some content => exact Assoc.lookup_erase_self _ _

theorem find_runAgentTurn (config : GatewayConfig) {input : TurnInput ω} {agent : Agent ω}
    {prompt : String} {granted : Option String} {state : GatewayState}
    {previous : Nat} {outcome : TurnOutcome} (setup : input.setup = .ok ()) (agentFound : input.agent = .ok agent)
    (prepared : prepareSessionState config.sessions state.sessions (conversationSessionId conversation) =
      .ok (session, previous))
    (ended : ((gatewayHarness input agent conversation).runTurnWithState input.turnId session prompt
      { granted, host := input.host }).1 = .ok outcome) :
    ((runAgentTurn config input conversation (conversationSessionId conversation) prompt granted
      state).2.sessions.find (conversationSessionId conversation)).isSome = true := by
  unfold runAgentTurn
  rw [setup, prepared, agentFound]
  dsimp only
  generalize run : (gatewayHarness input agent conversation).runTurnWithState input.turnId session prompt
    { granted, host := input.host } = ran at ended ⊢
  obtain ⟨_, reached⟩ := ran
  subst ended
  have own : outcome.session.sessionId = conversationSessionId conversation :=
    ((gatewayHarness_writesOnly run).2 outcome rfl).trans (sessionId_prepareSessionState prepared)
  rw [← own]
  exact find_persistTurnOutcome config.sessions input.now outcome.session outcome.events previous state.sessions

theorem message_opens (conversation other : String) :
    ((runGatewayMessage plainConfig (stoppedMessage conversation "go") (awaiting other)).2.sessions.find
      (conversationSessionId conversation)).isSome = true := by
  have command : parseCommand "go" = .message "go" := by decide +kernel
  have provider : plainConfig.provider = some "provider" := rfl
  have model : plainConfig.model = some "model" := rfl
  have prepared : prepareSessionState plainConfig.sessions (awaiting other).sessions
      (conversationSessionId conversation) = .ok ({ sessionId := conversationSessionId conversation }, 0) := by
    rw [prepareSessionState, SessionStore.metadata, awaiting, SessionStore.find_empty]
  have ended : ∃ outcome, ((gatewayHarness stoppedInput stoppedAgent conversation).runTurnWithState
      stoppedInput.turnId { sessionId := conversationSessionId conversation } "go"
      { granted := none, host := stoppedInput.host }).1 = .ok outcome := ⟨_, rfl⟩
  obtain ⟨outcome, ended⟩ := ended
  simp only [runGatewayMessage, stoppedMessage, command, gatewayTurn, provider, model]
  exact find_runAgentTurn plainConfig rfl rfl prepared ended

theorem Isolated.view_message {other : String} (isolated : Isolated conversation other)
    (different : conversation ≠ other) (config : GatewayConfig) {start : GatewayState}
    (filed : start.sessions.Filed) (message : Inbound ω) (sent : message.conversation = conversation) :
    (runGatewayMessage config message start).2.view other = start.view other := by
  obtain ⟨-, views⟩ := isolated ω config start [message] filed (by simp [sent])
  have foreign : Inbound.isOf other message = false := by simpa [Inbound.isOf, sent] using different
  rwa [List.filter_cons_of_neg (by simp [foreign]), List.filter_nil, Run.outputs_cons_snd, Run.outputs_nil_snd,
    Run.outputs_nil_snd] at views

/--
Different conversations are isolated just when they have different files and different sessions.

The names of files and of sessions are made from conversation ids by replacing characters.
-/
theorem conversations_isolated_iff (conversation other : String) (different : conversation ≠ other) :
    Isolated conversation other ↔ fileName other ≠ fileName conversation ∧
        conversationSessionId other ≠ conversationSessionId conversation := by
  constructor
  · intro isolated
    have filed : (awaiting other).sessions.Filed := SessionStore.filed_empty _
    refine ⟨fun clash => ?_, fun clash => ?_⟩
    · -- The request of the other conversation is gone after a denial in this one.
      have deny : parseCommand (stoppedMessage conversation "/deny").text = .deny := by
        change parseCommand "/deny" = .deny
        decide +kernel
      have view := isolated.view_message different plainConfig filed (stoppedMessage conversation "/deny") rfl
      have settled := denial_settles plainConfig deny rfl (awaiting other)
      rw [show (stoppedMessage conversation "/deny").conversation = conversation from rfl, ← clash,
        file_of_view view, awaiting, List.lookup_cons_self] at settled
      exact nomatch settled
    · -- The other conversation has a session after a message of this one.
      have view := isolated.view_message different plainConfig filed (stoppedMessage conversation "go") rfl
      have opened := message_opens conversation other
      rw [← clash, SessionStore.find_of_view (session_of_view view), awaiting, SessionStore.find_empty] at opened
      exact nomatch opened
  · exact fun ⟨files, sessions⟩ => isolated_of_names files sessions

/-- Two channels are isolated. -/
theorem channels_isolated : "C1" ≠ "C2" ∧ Isolated "C1" "C2" :=
  ⟨by decide, (conversations_isolated_iff "C1" "C2" (by decide)).2 (by decide +kernel)⟩

def askingAgent (command : String) : Agent Bool where
  harness :=
    { codec := { parse _ := none, render _ := "" }
      tools := ({} : ToolRegistry Bool).withTool (LeafTool.tool
        { name := "shell", scope := .shell, run := fun _ host => (.ok { content := .null }, host) })
      permissionPolicy := allowAllPermissionPolicy
      infer _ asked :=
        let call : ModelToolCall := { id := "a", name := "shell", input := .obj [("command", .string command)] }
        (.ok { provider := "", model := "", assistantMessage := if asked then some "done" else none,
               toolCalls := if asked then [] else [call] }, true)
      maxIterations := 2 }
  leaves := .withTool .empty ⟨_, rfl⟩

def askingMessage (conversation text command : String) : Inbound Bool :=
  { conversation, user := "user", text,
    input := { agent := .ok (askingAgent command), host := false, turnId := "turn" } }

/-- A gateway that has not had a message. -/
def freshState : GatewayState where
  sessions := { scope := {} }

/-- A request in one conversation, and a denial in another one with the same file. -/
def crossing : List (Inbound Bool) := [askingMessage "team_chat" "go" "ls", askingMessage "team.chat" "/deny" "ls"]

/-- A denial in one conversation takes away the request that another one awaits. -/
theorem denial_crosses :
    (Run.outputs (runGatewayMessage plainConfig) crossing freshState).2.approvals.pending "team_chat" = none ∧
      (Run.outputs (runGatewayMessage plainConfig) (crossing.filter (Inbound.isOf "team_chat"))
        freshState).2.approvals.pending "team_chat" =
          some { conversation := "team_chat", tool := "shell", detail := "ls" } ∧
      ¬Isolated "team.chat" "team_chat" := by
  have gone : (Run.outputs (runGatewayMessage plainConfig) crossing freshState).2.approvals.pending
      "team_chat" = none := by
    decide +kernel
  have awaited : (Run.outputs (runGatewayMessage plainConfig) (crossing.filter (Inbound.isOf "team_chat"))
      freshState).2.approvals.pending "team_chat" =
        some { conversation := "team_chat", tool := "shell", detail := "ls" } := by
    decide +kernel
  refine ⟨gone, awaited, fun isolated => ?_⟩
  obtain ⟨-, views⟩ := isolated Bool plainConfig freshState crossing (SessionStore.filed_empty _)
    (by simp [crossing, askingMessage])
  rw [pending_of_view views, awaited] at gone
  exact nomatch gone

end Codel00p.Gateway
