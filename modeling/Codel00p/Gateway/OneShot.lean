import Codel00p.Gateway.Isolation

/-! What an approval lets through: one call, and which one it has to be. -/

namespace Codel00p.Gateway

variable {ω : Type}

/-! ### Requests on a trace -/

def privilegedRequest : Action → Option (PermissionRequest × Except HarnessError PermissionDecision)
  | .decided _ request outcome => if request.scope = .readOnly then none else some (request, outcome)
  | .started _ _ _ _ => none

/-- Whether an answer lets a call through. -/
def passes : Except HarnessError PermissionDecision → Bool
  | .ok decision => decision.allowsExecution
  | .error _ => false

/-- Whether an answer makes a call wait. -/
def parks : Except HarnessError PermissionDecision → Bool
  | .ok decision => !decision.allowsExecution
  | .error _ => false

variable (trace : List Action)

/-- The requests for more than reading, in order. -/
def requested : List PermissionRequest := (trace.filterMap privilegedRequest).map (·.1)

/-- Those that were let through. -/
def allowed : List PermissionRequest :=
  ((trace.filterMap privilegedRequest).filter fun (_, outcome) => passes outcome).map (·.1)

/-- The last one that was made to wait. -/
def parked : Option PermissionRequest :=
  (((trace.filterMap privilegedRequest).filter fun (_, outcome) => parks outcome).map (·.1)).getLast?

def firstGranted (granted : Option String) : Option PermissionRequest :=
  (requested trace).find? fun request => granted = some request.toolName

theorem firstGranted_none : firstGranted trace none = none := by simp [firstGranted]

theorem firstGranted_some (tool : String) :
    firstGranted trace (some tool) = (requested trace).find? (·.toolName = tool) := by
  simp [firstGranted, eq_comm]

section

variable {trace} {action : Action}

theorem privilegedRequest_decided (caller : Caller) {request : PermissionRequest}
    (privileged : request.scope ≠ .readOnly) (outcome : Except HarnessError PermissionDecision) :
    privilegedRequest (.decided caller request outcome) = some (request, outcome) := if_neg privileged

theorem account_other (other : privilegedRequest action = none) :
    requested (trace ++ [action]) = requested trace ∧ allowed (trace ++ [action]) = allowed trace ∧
      parked (trace ++ [action]) = parked trace := by
  simp [requested, allowed, parked, other]

variable {request : PermissionRequest} {outcome : Except HarnessError PermissionDecision}

section

variable (own : privilegedRequest action = some (request, outcome))

include own

theorem requested_append : requested (trace ++ [action]) = requested trace ++ [request] := by
  simp [requested, own]

theorem allowed_append : allowed (trace ++ [action]) = allowed trace ++ if passes outcome then [request] else [] := by
  cases passed : passes outcome <;> simp [allowed, own, passed]

theorem parked_append : parked (trace ++ [action]) = if parks outcome then some request else parked trace := by
  cases waits : parks outcome <;> simp [parked, own, waits]

end

end

/-! ### The policy -/

section

variable (codec : JsonCodec) (fault : ω → Option WriteFault) (conversation : String)

def approvalFor (request : PermissionRequest) : PendingApproval :=
  { conversation, tool := request.toolName, detail := describePermissionRequest codec request }

/--
What the policy does about a request for more than reading.

It uses up a grant for the tool, or records the request and lets it wait, or fails to record it.
-/
inductive Judged (request : PermissionRequest) (host : GatewayHost ω) :
    Except HarnessError PermissionDecision → GatewayHost ω → Prop where
  | granted (named : host.granted = some request.toolName) {decision : PermissionDecision}
      (allows : decision.allowsExecution = true) : Judged request host (.ok decision) { host with granted := none }
  | parked (unnamed : host.granted ≠ some request.toolName) {decision : PermissionDecision}
      (denies : decision.allowsExecution = false) :
      Judged request host (.ok decision)
        { host with written := host.written ++ [(fileName conversation, some (approvalFor codec conversation request))] }
  | unrecorded (unnamed : host.granted ≠ some request.toolName) (error : HarnessError) :
      Judged request host (.error error) host
  | damaged (unnamed : host.granted ≠ some request.toolName) (error : HarnessError) :
      Judged request host (.error error) { host with written := host.written ++ [(fileName conversation, none)] }

variable {request : PermissionRequest} {action : Action} {outcome : Except HarnessError PermissionDecision}

theorem gatewayApprovalPolicy_judged (privileged : request.scope ≠ .readOnly) (host : GatewayHost ω) :
    Judged codec conversation request host ((gatewayApprovalPolicy codec fault conversation).decide request host).1
      ((gatewayApprovalPolicy codec fault conversation).decide request host).2 := by
  simp only [gatewayApprovalPolicy, if_neg privileged]
  by_cases named : host.granted = some request.toolName
  · rw [if_pos named]
    exact .granted named rfl
  · rw [if_neg named]
    cases failure : fault host.host with
    | none => exact .parked named rfl
    | some failed =>
      simp only [recordApproval]
      cases failed.damages with
      | true => exact .damaged named _
      | false =>
        simp only [Bool.false_eq_true, if_false, List.append_nil]
        exact .unrecorded named _

/-- What is so of a turn at any time, given the grant it was started with. -/
structure Accounted (granted : Option String) (world : World (GatewayHost ω)) : Prop where
  /-- Of the requests, the first one for the granted tool was let through. -/
  allowed_eq : allowed world.trace = (firstGranted world.trace granted).toList
  /-- The grant lasts until then. -/
  granted_eq : world.host.granted = if (firstGranted world.trace granted).isSome then none else granted
  /-- The file of the conversation has the last request that was made to wait, unless it is damaged. -/
  written : ∀ write, world.host.written.getLast? = some write → write.1 = fileName conversation ∧
    ∀ pending, write.2 = some pending →
      ∃ request, parked world.trace = some request ∧ pending = approvalFor codec conversation request
  unwritten : world.host.written = [] → parked world.trace = none

variable {codec conversation} {granted : Option String} {world : World (GatewayHost ω)}

theorem Accounted.start (host : ω) : Accounted codec conversation granted { host := { granted, host } } where
  allowed_eq := rfl
  granted_eq := rfl
  written _ present := nomatch present
  unwritten _ := rfl

section

variable (account : Accounted codec conversation granted world)

include account

theorem Accounted.own (host : ω) :
    Accounted codec conversation granted { world with host := world.host.withHost host } :=
  { account with }

theorem Accounted.other (other : privilegedRequest action = none) :
    Accounted codec conversation granted { world with trace := world.trace ++ [action] } := by
  obtain ⟨same, passed, waits⟩ := @account_other world.trace action other
  have first : firstGranted (world.trace ++ [action]) granted = firstGranted world.trace granted := by
    rw [firstGranted, firstGranted, same]
  constructor <;> simp only [passed, first, waits]
  exacts [account.allowed_eq, account.granted_eq, account.written, account.unwritten]

section

variable (own : privilegedRequest action = some (request, outcome))

include own

theorem Accounted.refused (unnamed : world.host.granted ≠ some request.toolName) (refused : passes outcome = false) :
    allowed (world.trace ++ [action]) = (firstGranted (world.trace ++ [action]) granted).toList ∧
      world.host.granted = if (firstGranted (world.trace ++ [action]) granted).isSome then none else granted := by
  have left := account.granted_eq
  have first : firstGranted (world.trace ++ [action]) granted = firstGranted world.trace granted := by
    rw [firstGranted, requested_append own, List.find?_append]
    cases first : firstGranted world.trace granted with
    | some earlier =>
      rw [firstGranted] at first
      rw [first, Option.some_or]
    | none =>
      -- The grant is still there, and it is for another tool.
      rw [first] at left
      have other : granted ≠ some request.toolName := fun named => unnamed (left.trans named)
      rw [firstGranted] at first
      simp [first, other]
  rw [first, allowed_append own, refused, if_neg (by simp), List.append_nil]
  exact ⟨account.allowed_eq, left⟩

/-- A request that is judged is accounted for. -/
theorem Accounted.judged {host : GatewayHost ω} (judged : Judged codec conversation request world.host outcome host) :
    Accounted codec conversation granted { host, trace := world.trace ++ [action] } := by
  have passed := @allowed_append world.trace _ _ _ own
  have waits := @parked_append world.trace _ _ _ own
  cases judged with
  | granted named allows =>
    -- The grant is still there, so no request before this one was for its tool.
    have left := account.granted_eq
    rw [named] at left
    have unused : firstGranted world.trace granted = none := by
      cases first : firstGranted world.trace granted with
      | none => rfl
      | some earlier => simp [first] at left
    have its : granted = some request.toolName := by simpa [unused] using left.symm
    have none_before := account.allowed_eq
    rw [unused] at none_before
    rw [firstGranted] at unused
    have first : firstGranted (world.trace ++ [action]) granted = some request := by
      rw [firstGranted, requested_append own, List.find?_append, unused]
      simp [its]
    simp only [parks, allows, Bool.not_true, Bool.false_eq_true, if_false] at waits
    constructor <;> simp only [first, waits]
    · rw [passed, none_before]
      simp [passes, allows]
    · rfl
    · exact account.written
    · exact account.unwritten
  | parked unnamed denies =>
    have now : parked (world.trace ++ [action]) = some request := waits.trans (if_pos (by simp [parks, denies]))
    obtain ⟨none_more, lasts⟩ := account.refused own unnamed (by simp [passes, denies])
    refine ⟨none_more, lasts, fun write last => ?_, fun nothing => absurd nothing (by simp)⟩
    obtain rfl : _ = write := by simpa using last
    exact ⟨rfl, fun pending content => ⟨request, now, (Option.some.inj content).symm⟩⟩
  | unrecorded unnamed error =>
    have still : parked (world.trace ++ [action]) = parked world.trace := waits
    obtain ⟨none_more, lasts⟩ := account.refused own unnamed rfl
    exact ⟨none_more, lasts, still ▸ account.written, still ▸ account.unwritten⟩
  | damaged unnamed error =>
    obtain ⟨none_more, lasts⟩ := account.refused own unnamed rfl
    refine ⟨none_more, lasts, fun write last => ?_, fun nothing => absurd nothing (by simp)⟩
    obtain rfl : _ = write := by simpa using last
    exact ⟨rfl, fun pending content => (nomatch content)⟩

end

end

theorem gatewayHarness_accounted {input : TurnInput ω} {agent : Agent ω} {prompt : String}
    {session : SessionState} {ended : Except TurnStop TurnOutcome} {reached : TurnState (GatewayHost ω)}
    (ran : (gatewayHarness input agent conversation).runTurnWithState input.turnId session prompt
      { granted, host := input.host } = (ended, reached)) :
    Accounted agent.harness.codec conversation granted reached.world := by
  refine (agent.embed_invariant _ _ _ (Accounted agent.harness.codec conversation granted)
    (fun _ host account => account.own host) (fun caller request world account => ?_)
    (fun _ _ _ _ _ account => account.other rfl) ran (.start _)).1
  -- Reading is let through and leaves everything as it is.
  by_cases reading : request.scope = .readOnly
  · have same : ((gatewayApprovalPolicy agent.harness.codec input.fault conversation).decide request
        world.host).2 = world.host := by simp [gatewayApprovalPolicy, reading]
    unfold PermissionPolicy.ask
    dsimp only
    rw [same]
    exact account.other (by simp [privilegedRequest, reading])
  · exact account.judged (privilegedRequest_decided caller reading _) (
      gatewayApprovalPolicy_judged _ input.fault _ reading world.host)

end

/-! ### Messages -/

/-- What is so of the files and the trace after a message, given the grant that came of it. -/
structure Settled (conversation : String) (granted : Option String) (before : ApprovalStore) (trace : List Action)
    (after : ApprovalStore) : Prop where
  allowed_eq : allowed trace = (firstGranted trace granted).toList
  /-- What is awaited is the last request that was made to wait, or was awaited before. -/
  pending : ∀ pending, after.pending conversation = some pending →
    (∃ codec request, parked trace = some request ∧ pending = approvalFor codec conversation request) ∨
      parked trace = none ∧ before.pending conversation = some pending

section

variable {conversation : String} {granted : Option String} {before after : ApprovalStore}

theorem Settled.quiet (less : ∀ pending, after.pending conversation = some pending →
    before.pending conversation = some pending) : Settled conversation granted before [] after where
  allowed_eq := rfl
  pending pending found := .inr ⟨rfl, less pending found⟩

theorem Settled.since {between : ApprovalStore} {trace : List Action}
    (settled : Settled conversation granted between trace after)
    (less : ∀ pending, between.pending conversation = some pending →
      before.pending conversation = some pending) : Settled conversation granted before trace after where
  allowed_eq := settled.allowed_eq
  pending pending found :=
    (settled.pending pending found).imp_right fun ⟨quiet, earlier⟩ => ⟨quiet, less pending earlier⟩

theorem ApprovalStore.pending_resolve (removable approved : Bool) {pending : PendingApproval}
    (found : (before.resolve removable conversation approved).2.pending conversation = some pending) :
    before.pending conversation = some pending := by
  unfold ApprovalStore.resolve at found
  split at found
  · exact found
  · cases removable with
    | true => simp [ApprovalStore.pending] at found
    | false => exact found

theorem ApprovalStore.lookup_write_last {name : String} {writes : List ApprovalWrite} {write : ApprovalWrite}
    (last : writes.getLast? = some write) (own : write.1 = name) :
    (before.write writes).lookup name = some write.2 := by
  obtain ⟨rest, rfl⟩ := List.getLast?_eq_some_iff.1 last
  subst own
  unfold ApprovalStore.write
  rw [List.foldl_append]
  exact Assoc.lookup_insert_self _ _ _

theorem Accounted.settled {codec : JsonCodec} {world : World (GatewayHost ω)}
    (account : Accounted codec conversation granted world) (before : ApprovalStore) :
    Settled conversation granted before world.trace (before.write world.host.written) where
  allowed_eq := account.allowed_eq
  pending pending found := by
    cases last : world.host.written.getLast? with
    | none =>
      have nothing : world.host.written = [] := List.getLast?_eq_none_iff.1 last
      rw [nothing] at found
      exact .inr ⟨account.unwritten nothing, found⟩
    | some write =>
      obtain ⟨own, content⟩ := account.written write last
      rw [ApprovalStore.pending, ApprovalStore.lookup_write_last last own] at found
      obtain ⟨request, waits, rfl⟩ := content pending found
      exact .inl ⟨codec, request, waits, rfl⟩

end

section

variable (config : GatewayConfig) (input : TurnInput ω) (conversation prompt : String) (granted : Option String)
  (state : GatewayState)

theorem runAgentTurn_settled (sessionId : String) : Settled conversation granted state.approvals
      (runAgentTurn config input conversation sessionId prompt granted state).1.trace
      (runAgentTurn config input conversation sessionId prompt granted state).2.approvals := by
  unfold runAgentTurn
  split
  iterate 3 · exact .quiet fun _ found => found
  · next session previous agent _ _ _ =>
    dsimp only
    generalize run : (gatewayHarness input agent conversation).runTurnWithState input.turnId session prompt
      { granted, host := input.host } = ran
    obtain ⟨ended, reached⟩ := ran
    have settled := (gatewayHarness_accounted run).settled state.approvals
    dsimp only
    split <;> exact settled

theorem gatewayTurn_settled : Settled conversation granted state.approvals
      (gatewayTurn config input conversation prompt granted state).1.trace
      (gatewayTurn config input conversation prompt granted state).2.approvals := by
  unfold gatewayTurn
  split
  · exact .quiet fun _ found => found
  · exact .quiet fun _ found => found
  · exact runAgentTurn_settled config input conversation prompt granted state _

theorem gatewayResolve_settled (approve : Bool) :
    Settled conversation (if approve then (state.approvals.pending conversation).map (·.tool) else none)
      state.approvals (gatewayResolve config input conversation approve state).1.trace
      (gatewayResolve config input conversation approve state).2.approvals := by
  have resolved : ∀ granted, Settled conversation granted state.approvals []
      (state.approvals.resolve input.removable conversation approve).2 :=
    fun _ => .quiet fun _ found => ApprovalStore.pending_resolve _ _ found
  unfold gatewayResolve
  dsimp only
  generalize answer : state.approvals.resolve input.removable conversation approve = outcome at resolved ⊢
  obtain ⟨outcome, approvals⟩ := outcome
  cases outcome with
  | nothing | denied => exact resolved _
  | approved =>
    -- Only an approval approves.
    obtain rfl : approve = true := by
      unfold ApprovalStore.resolve at answer
      cases approve with
      | true => rfl
      | false => split at answer <;> exact nomatch congrArg Prod.fst answer
    refine (gatewayTurn_settled ..).since fun pending found => ?_
    refine ApprovalStore.pending_resolve input.removable true ?_
    rw [answer]
    exact found

end

def Inbound.grant (inbound : Inbound ω) (store : ApprovalStore) : Option String :=
  if parseCommand inbound.text = .approve then (store.pending inbound.conversation).map (·.tool) else none

theorem runGatewayMessage_settled (config : GatewayConfig) (inbound : Inbound ω) (state : GatewayState) :
    Settled inbound.conversation (inbound.grant state.approvals) state.approvals
      (runGatewayMessage config inbound state).1.trace (runGatewayMessage config inbound state).2.approvals := by
  unfold runGatewayMessage Inbound.grant
  cases parseCommand inbound.text with
  | help | stop => exact .quiet fun _ found => found
  | approve => exact gatewayResolve_settled config inbound.input inbound.conversation state true
  | deny => exact gatewayResolve_settled config inbound.input inbound.conversation state false
  | message text => exact (gatewayTurn_settled ..).since fun _ found => ApprovalStore.pending_resolve _ _ found

/-! ### What the user was shown -/

/-- A request that is awaited, and whether the user was asked about it. -/
structure Awaited where
  request : PermissionRequest
  displayed : Bool

/-- A gateway together with the request that a conversation awaits. -/
structure Watched where
  state : GatewayState
  awaited : Option Awaited := none

def awaitedAfter (conversation : String) (before : Option Awaited) (handled : Handled) (state : GatewayState) :
    Option Awaited :=
  match state.approvals.pending conversation with
  | none => none
  | some pending =>
    let shown := handled.reply.toOption = some (approvalPrompt pending)
    match parked handled.trace with
    | some request => some { request, displayed := shown }
    | none => before.map fun awaited => { awaited with displayed := awaited.displayed || shown }

def Watched.after (config : GatewayConfig) (watched : Watched) (inbound : Inbound ω) : Watched :=
  let (handled, state) := runGatewayMessage config inbound watched.state
  { state, awaited := awaitedAfter inbound.conversation watched.awaited handled state }

structure Tracks (conversation : String) (watched : Watched) : Prop where
  known : ∀ pending, watched.state.approvals.pending conversation = some pending →
    ∃ awaited codec, watched.awaited = some awaited ∧ pending = approvalFor codec conversation awaited.request
  nothing : watched.state.approvals.pending conversation = none → watched.awaited = none

variable {watched : Watched}

theorem Tracks.tool {conversation : String} (tracks : Tracks conversation watched) :
    (watched.state.approvals.pending conversation).map (·.tool) = watched.awaited.map (·.request.toolName) := by
  cases found : watched.state.approvals.pending conversation with
  | none => rw [tracks.nothing found, Option.map_none, Option.map_none]
  | some pending =>
    obtain ⟨awaited, codec, known, rfl⟩ := tracks.known pending found
    rw [known]
    rfl

theorem Tracks.after (config : GatewayConfig) {inbound : Inbound ω} (tracks : Tracks inbound.conversation watched) :
    Tracks inbound.conversation (watched.after config inbound) := by
  have settled := runGatewayMessage_settled config inbound watched.state
  unfold Watched.after
  generalize runGatewayMessage config inbound watched.state = ran at settled ⊢
  obtain ⟨handled, state⟩ := ran
  refine ⟨fun pending found => ?_, fun none => ?_⟩
  · dsimp only at found ⊢
    unfold awaitedAfter
    rw [found]
    rcases settled.pending pending found with ⟨codec, request, waits, rfl⟩ | ⟨quiet, earlier⟩
    · rw [waits]
      exact ⟨_, codec, rfl, rfl⟩
    · obtain ⟨awaited, codec, known, rfl⟩ := tracks.known pending earlier
      rw [quiet, known]
      exact ⟨_, codec, rfl, rfl⟩
  · dsimp only at none ⊢
    unfold awaitedAfter
    rw [none]

/-! ### One approval, one action -/

/-- At most one call is let through, and only by an approval. -/
def AtMostOne (inbound : Inbound ω) (trace : List Action) : Prop :=
  (allowed trace).length ≤ 1 ∧ (allowed trace ≠ [] → parseCommand inbound.text = .approve)

def AsShown (awaited : Option Awaited) (trace : List Action) : Prop :=
  ∀ call ∈ allowed trace, ∃ shown, awaited = some shown ∧ shown.displayed = true ∧
    call.toolName = shown.request.toolName ∧ call.input = shown.request.input

/--
After an approval, the model repeats the request that the user was shown.

The first call of that tool has its input, and the user was asked about it.
-/
def Repeats (awaited : Option Awaited) (inbound : Inbound ω) (trace : List Action) : Prop :=
  parseCommand inbound.text = .approve → ∀ pending, awaited = some pending →
    ∀ call, (requested trace).find? (·.toolName = pending.request.toolName) = some call →
      pending.displayed = true ∧ call.input = pending.request.input

theorem asShown_of_none (awaited : Option Awaited) (inbound : Inbound ω) {trace : List Action}
    (nothing : allowed trace = []) : AtMostOne inbound trace ∧ AsShown awaited trace := by
  constructor
  · simp [AtMostOne, nothing]
  · simp [AsShown, nothing]

/-- What a message lets through is one call at most, and as shown just when the model repeats its request. -/
theorem asShown_iff_repeats (config : GatewayConfig) {inbound : Inbound ω}
    (tracks : Tracks inbound.conversation watched) :
    AtMostOne inbound (runGatewayMessage config inbound watched.state).1.trace ∧
      (AsShown watched.awaited (runGatewayMessage config inbound watched.state).1.trace ↔
        Repeats watched.awaited inbound (runGatewayMessage config inbound watched.state).1.trace) := by
  have allows := (runGatewayMessage_settled config inbound watched.state).allowed_eq
  generalize (runGatewayMessage config inbound watched.state).1.trace = trace at allows ⊢
  rw [Inbound.grant, tracks.tool] at allows
  by_cases approves : parseCommand inbound.text = .approve
  · rw [if_pos approves] at allows
    cases known : watched.awaited with
    | none =>
      rw [known, Option.map_none, firstGranted_none] at allows
      obtain ⟨few, shown⟩ := asShown_of_none none inbound allows
      exact ⟨few, fun _ _ _ awaited => (nomatch awaited), fun _ => shown⟩
    | some pending =>
      rw [known, Option.map_some, firstGranted_some] at allows
      cases first : (requested trace).find? (·.toolName = pending.request.toolName) with
      | none =>
        rw [first] at allows
        obtain ⟨few, shown⟩ := asShown_of_none (some pending) inbound allows
        refine ⟨few, fun _ _ _ same call called => ?_, fun _ => shown⟩
        obtain rfl := Option.some.inj same
        exact nomatch first.symm.trans called
      | some call =>
        -- The one call that is let through is the first one of the tool.
        have only : allowed trace = [call] := by rw [allows, first, Option.toList_some]
        have named : call.toolName = pending.request.toolName := by simpa using List.find?_some first
        refine ⟨⟨by simp [only], fun _ => approves⟩, fun shown _ awaited same other called => ?_, fun repeats => ?_⟩
        · obtain rfl := Option.some.inj same
          obtain rfl := Option.some.inj (first.symm.trans called)
          obtain ⟨own, same, displayed, _, input⟩ := shown call (by simp [only])
          obtain rfl := Option.some.inj same
          exact ⟨displayed, input⟩
        · intro other member
          obtain rfl : other = call := by simpa [only] using member
          obtain ⟨displayed, input⟩ := repeats approves pending rfl other first
          exact ⟨pending, rfl, displayed, named, input⟩
  · -- Nothing is granted by any other message.
    rw [if_neg approves, firstGranted_none] at allows
    obtain ⟨few, shown⟩ := asShown_of_none watched.awaited inbound allows
    exact ⟨few, fun _ approved => absurd approved approves, fun _ => shown⟩

/--
In a conversation, every approval lets at most one call through, and no other message lets any through.

The calls are those that the user was shown just when, after each approval, the model repeats the request.
-/
theorem one_approval_one_action_iff (config : GatewayConfig) (conversation : String) (start : GatewayState)
    (messages : List (Inbound ω)) (nothing : start.approvals.pending conversation = none)
    (own : ∀ message ∈ messages, message.conversation = conversation) :
    let steps := Run.steps (Watched.after config) messages { state := start }
    (∀ step ∈ steps, AtMostOne step.2 (runGatewayMessage config step.2 step.1.state).1.trace) ∧
      ((∀ step ∈ steps, AsShown step.1.awaited (runGatewayMessage config step.2 step.1.state).1.trace) ↔
        ∀ step ∈ steps, Repeats step.1.awaited step.2 (runGatewayMessage config step.2 step.1.state).1.trace) := by
  intro steps
  have fresh : Tracks conversation { state := start } :=
    ⟨fun pending found => (nomatch nothing.symm.trans found), fun _ => rfl⟩
  have each : ∀ step ∈ steps, AtMostOne step.2 (runGatewayMessage config step.2 step.1.state).1.trace ∧
      (AsShown step.1.awaited (runGatewayMessage config step.2 step.1.state).1.trace ↔
        Repeats step.1.awaited step.2 (runGatewayMessage config step.2 step.1.state).1.trace) := by
    intro step taken
    obtain ⟨tracks, its⟩ := Run.steps_invariant (Watched.after config) (Tracks conversation)
      (fun message => message.conversation = conversation)
      (fun watched message same holds => by subst same; exact holds.after config) own fresh taken
    rw [← its] at tracks
    exact asShown_iff_repeats config tracks
  exact ⟨fun step taken => (each step taken).1, forall₂_congr fun step taken => (each step taken).2⟩

def approvedRun (command : String) : List (Inbound Bool) :=
  [askingMessage "team" "go" "ls", askingMessage "team" "/approve" command]

/-- In a run with one approval, at most one call is let through at a time. -/
theorem approved_run_one_action : freshState.approvals.pending "team" = none ∧
      ∀ step ∈ Run.steps (Watched.after plainConfig) (approvedRun "ls") { state := freshState },
        AtMostOne step.2 (runGatewayMessage plainConfig step.2 step.1.state).1.trace :=
  ⟨rfl, (one_approval_one_action_iff plainConfig "team" freshState (approvedRun "ls") rfl
    (by simp [approvedRun, askingMessage])).1⟩

def commandOf (request : PermissionRequest) : Option String := request.input.getStr "command"

/-- A gateway after the agent has asked to run a command. -/
def askedFirst : Watched := Watched.after plainConfig { state := freshState } (askingMessage "team" "go" "ls")

theorem approved_run_seen :
    askedFirst.awaited.map (fun awaited => (commandOf awaited.request, awaited.displayed)) = some (some "ls", true) ∧
      (allowed (runGatewayMessage plainConfig (askingMessage "team" "/approve" "rm -r .")
        askedFirst.state).1.trace).map commandOf = [some "rm -r ."] := by
  decide +kernel

theorem not_asShown {awaited : Option Awaited} {trace : List Action} {command other : Option String}
    {displayed : Bool}
    (shown : awaited.map (fun awaited => (commandOf awaited.request, awaited.displayed)) = some (command, displayed))
    (called : (allowed trace).map commandOf = [other]) (different : command ≠ other) : ¬AsShown awaited trace := by
  intro asShown
  have member : other ∈ (allowed trace).map commandOf := by simp [called]
  obtain ⟨call, member, its⟩ := List.mem_map.1 member
  obtain ⟨pending, rfl, _, _, input⟩ := asShown call member
  have same : commandOf pending.request = command := congrArg Prod.fst (Option.some.inj shown)
  rw [commandOf, ← input] at same
  exact different (same.symm.trans its)

/-- The user was shown one command, and another one was let through. -/
theorem other_command_allowed : ∃ watched message, (watched, message) ∈
        Run.steps (Watched.after plainConfig) (approvedRun "rm -r .") { state := freshState } ∧
      watched.awaited.map (fun awaited => (commandOf awaited.request, awaited.displayed)) = some (some "ls", true) ∧
      (allowed (runGatewayMessage plainConfig message watched.state).1.trace).map commandOf = [some "rm -r ."] ∧
      ¬AsShown watched.awaited (runGatewayMessage plainConfig message watched.state).1.trace := by
  have second : (askedFirst, askingMessage "team" "/approve" "rm -r .") ∈
      Run.steps (Watched.after plainConfig) (approvedRun "rm -r .") { state := freshState } :=
    Run.second_mem_steps _ _ _ [] _
  obtain ⟨shown, called⟩ := approved_run_seen
  exact ⟨askedFirst, _, second, shown, called, not_asShown shown called (by decide)⟩

end Codel00p.Gateway
