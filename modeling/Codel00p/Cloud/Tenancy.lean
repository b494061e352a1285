import Codel00p.Cloud.Routes
import Codel00p.Cloud.ScopedBackend

/-! The organizations of the cloud service do not see or change each other's data. -/

namespace Codel00p.Cloud

open AuthContext (fromClaims requireOrg)
open Program (exec Moves Sees)

variable {σ α β : Type}

namespace ScopedBackend

variable (backend : ScopedBackend σ) (orgId : String)

def data (store : σ) : { scope : StorageScope // scope.organizationId = some orgId } → backend.View :=
  fun scope => backend.view scope.1 store

def seen (state : CloudState σ) :
    ({ scope : StorageScope // scope.organizationId = some orgId } → backend.View) × Counters :=
  (backend.data orgId state.store, state.counters)

/-- What a handler may do for an organization: leave the data of all others as it is. -/
def OthersKept (before after : CloudState σ) : Prop :=
  ∀ other, other ≠ orgId → backend.data other after.store = backend.data other before.store

instance : Std.Refl (backend.OthersKept orgId) := ⟨fun _ _ _ => rfl⟩

instance : IsTrans (CloudState σ) (backend.OthersKept orgId) :=
  ⟨fun _ _ _ first second other apart => (second other apart).trans (first other apart)⟩

end ScopedBackend

/-! ### Handlers keep to an organization -/

/-- A program sees the data of an organization only, and moves the state within a relation. -/
structure Kept (relation : CloudState σ → CloudState σ → Prop) (backend : ScopedBackend σ) (orgId : String)
    (program : CloudM σ α) : Prop where
  sees : Sees (backend.seen orgId) program
  moves : Moves relation program

/-- A program keeps to an organization: it sees its data only, and leaves the data of others alone. -/
abbrev Confined (backend : ScopedBackend σ) (orgId : String) (program : CloudM σ α) : Prop :=
  Kept (backend.OthersKept orgId) backend orgId program

namespace Kept

variable {backend : ScopedBackend σ} {orgId : String} {relation : CloudState σ → CloudState σ → Prop}

theorem ite {condition : Prop} [Decidable condition] {yes no : CloudM σ α} (positive : Kept relation backend orgId yes)
    (negative : Kept relation backend orgId no) : Kept relation backend orgId (if condition then yes else no) := by
  split
  · exact positive
  · exact negative

theorem required {next : Option α → CloudM σ β} (absent : Kept relation backend orgId (next none))
    (present : ∀ value, Kept relation backend orgId (next (some value))) :
    ∀ found, Kept relation backend orgId (next found)
  | none => absent
  | some value => present value

theorem bind [IsTrans (CloudState σ) relation] {first : CloudM σ α} {next : α → CloudM σ β} (confined : Kept relation backend orgId first)
    (rest : ∀ value, Kept relation backend orgId (next value)) : Kept relation backend orgId (first >>= next) :=
  ⟨confined.sees.bind fun value => (rest value).sees, confined.moves.bind fun value => (rest value).moves⟩

variable [Std.Refl relation]

theorem pure (value : α) : Kept relation backend orgId (Pure.pure value) := ⟨Sees.pure value, Moves.pure value⟩

theorem throw (error : ApiError) : Kept relation backend orgId (MonadExcept.throw error : CloudM σ α) :=
  ⟨Sees.throw error, Moves.throw error⟩

theorem ofExcept (outcome : Except ApiError α) : Kept relation backend orgId (Program.ofExcept outcome) :=
  ⟨Sees.ofExcept outcome, Moves.ofExcept outcome⟩

variable (codec : CloudCodec)

theorem storageResult (answer : Except StorageError α) :
    Kept relation backend orgId (Cloud.storageResult codec answer) := by
  cases answer with
  | ok value => exact pure value
  | error error => exact throw _

variable [IsTrans (CloudState σ) relation]

theorem map {program : CloudM σ α} (convert : α → β) (confined : Kept relation backend orgId program) :
    Kept relation backend orgId (convert <$> program) :=
  ⟨confined.sees.map convert, confined.moves.map convert⟩

theorem nextId (kind : RecordKind) : Confined backend orgId (Cloud.nextId kind) where
  sees := by
    refine Sees.perform fun state other same => ?_
    obtain ⟨data, counters⟩ := Prod.mk.inj same
    exact ⟨by rw [counters], Prod.ext data (congrArg (Counters.advance · kind) counters)⟩
  moves := Moves.perform fun _ _ _ => rfl

variable {codec} {scope : StorageScope}

theorem readStore {reader : σ → Except StorageError α} (own : scope.organizationId = some orgId)
    (reads : ReadsFrom backend.view scope reader) : Kept relation backend orgId (Cloud.readStore codec reader) := by
  refine bind ⟨Sees.reads fun state other same => ?_, Moves.reads _⟩ fun answer =>
    storageResult codec answer
  exact reads _ _ (congrFun (Prod.mk.inj same).1 ⟨scope, own⟩)

theorem writeStore {operation : σ → Except StorageError α × σ} (own : scope.organizationId = some orgId)
    (keeps : KeepsTo backend.view scope operation) : Confined backend orgId (Cloud.writeStore codec operation) := by
  refine bind ⟨fun state other same => ?_, Moves.within fun state other apart => ?_⟩ fun answer =>
    storageResult codec answer
  · -- The scope that is written to is changed alike, and the other scopes of the organization stay.
    obtain ⟨data, counters⟩ := Prod.mk.inj same
    obtain ⟨answers, views⟩ := keeps.own _ _ (congrFun data ⟨scope, own⟩)
    refine ⟨congrArg Except.ok answers, Prod.ext (funext fun target => ?_) counters⟩
    by_cases written : target.1 = scope
    · obtain ⟨target, member⟩ := target
      subst written
      exact views
    · have stays := congrFun data target
      exact (keeps.others _ _ written).trans (stays.trans (keeps.others _ _ written).symm)
  · -- A scope of another organization is another scope.
    refine funext fun target => keeps.others _ _ fun same => apart ?_
    exact Option.some.inj (target.2.symm.trans (same ▸ own))

variable {payloads : PayloadCodec α}

section

variable (own : scope.organizationId = some orgId)

include own

theorem storeRecord (kind : RecordKind) (id : String) (record : α)
    (metadata : List (String × String)) : Confined backend orgId
      (Cloud.storeRecord codec backend.toStorageBackend payloads kind scope id record metadata) :=
  (writeStore own (backend.puts
    { scope, collection := kind.collection, id, payload := payloads.toValue record, metadata })).bind fun _ => pure ()

theorem listRecords (name : String) (kind : RecordKind) :
    Kept relation backend orgId (Cloud.listRecords codec backend.toStorageBackend payloads name kind scope) :=
  (readStore own (backend.lists scope _)).bind fun _ => ofExcept _

theorem findRecord (name : String) (kind : RecordKind) (id : String) :
    Kept relation backend orgId (Cloud.findRecord codec backend.toStorageBackend payloads name kind scope id) :=
  (readStore own (backend.gets scope _ id)).bind fun _ => ofExcept _

theorem deleteRecord (name : String) (kind : RecordKind) (id : String) :
    Confined backend orgId (Cloud.deleteRecord codec backend.toStorageBackend name kind scope id) :=
  (writeStore own (backend.deletes scope _ id)).bind fun _ => ite (pure ()) (throw _)

end

theorem requireProject (projectId : String) :
    Kept relation backend orgId (Cloud.requireProject codec backend.toStorageBackend orgId projectId) :=
  (findRecord rfl _ _ _).bind (required (throw _) pure)

theorem createProject (request : NewProject) :
    Confined backend orgId (Cloud.createProject codec backend.toStorageBackend orgId request) :=
  ite (throw _) ((nextId _).bind fun _ => (storeRecord rfl _ _ _ _).bind fun _ => pure _)

theorem updateProject (projectId : String) (update : ProjectUpdate) :
    Confined backend orgId (Cloud.updateProject codec backend.toStorageBackend orgId projectId update) :=
  (requireProject _).bind fun _ => (storeRecord rfl _ _ _ _).bind fun _ => pure _

theorem recordAudit (own : scope.organizationId = some orgId) (memoryId : String) (action : MemoryReviewAction)
    (actor : String) :
    Confined backend orgId (Cloud.recordAudit codec backend.toStorageBackend scope memoryId action actor) :=
  (writeStore own (backend.appends scope _ _)).bind fun _ => pure ()

theorem pushCandidate (project : Project) (request : NewMemoryCandidate) (actor : String) :
    Confined backend orgId (Cloud.pushCandidate codec backend.toStorageBackend orgId project request actor) :=
  ite (throw _) ((nextId _).bind fun _ => (storeRecord rfl _ _ _ _).bind fun _ =>
    (recordAudit rfl _ _ _).bind fun _ => pure _)

theorem listMemory (projectId : String) (status : Option MemoryStatus) :
    Kept relation backend orgId (Cloud.listMemory codec backend.toStorageBackend orgId projectId status) := by
  refine (listRecords rfl _ _).bind fun entries => ?_
  cases status <;> exact pure _

theorem review (projectId memoryId : String) (action : MemoryReviewAction) (actor : String) : Confined backend orgId
      (Cloud.review codec backend.toStorageBackend orgId projectId memoryId action actor) := by
  have own : (projectScope orgId projectId).organizationId = some orgId := rfl
  have memory : Confined backend orgId
      (requireMemory codec backend.toStorageBackend (projectScope orgId projectId) memoryId) :=
    (readStore own (backend.gets _ _ _)).bind (required (throw _) fun _ => (ofExcept _).bind fun _ => pure _)
  exact memory.bind fun _ => (storeRecord own _ _ _ _).bind fun _ =>
    (recordAudit own _ _ _).bind fun _ => pure _

theorem audit (projectId memoryId : String) :
    Kept relation backend orgId (Cloud.audit codec backend.toStorageBackend orgId projectId memoryId) :=
  (readStore rfl (backend.replays _ _)).bind fun _ => ofExcept _

theorem search (projectId query : String) (limit : Nat) :
    Kept relation backend orgId (Cloud.search codec backend.toStorageBackend orgId projectId query limit) :=
  (listMemory _ _).bind fun _ => ite (pure _) (pure _)

theorem getAgent (projectId agentId : String) :
    Kept relation backend orgId (Cloud.getAgent codec backend.toStorageBackend orgId projectId agentId) :=
  (findRecord rfl _ _ _).bind (required (throw _) pure)

theorem createAgent (projectId : String) (request : NewAgent) (actor : String) :
    Confined backend orgId (Cloud.createAgent codec backend.toStorageBackend orgId projectId request actor) :=
  ite (throw _) (ite (throw _) ((nextId _).bind fun _ => (storeRecord rfl _ _ _ _).bind fun _ => pure _))

theorem updateAgent (projectId agentId : String) (update : AgentUpdate) :
    Confined backend orgId (Cloud.updateAgent codec backend.toStorageBackend orgId projectId agentId update) :=
  (getAgent _ _).bind fun _ => (storeRecord rfl _ _ _ _).bind fun _ => pure _

theorem getServer (projectId serverId : String) :
    Kept relation backend orgId (Cloud.getServer codec backend.toStorageBackend orgId projectId serverId) :=
  (findRecord rfl _ _ _).bind (required (throw _) pure)

theorem createServer (projectId : String) (request : NewMcpServer) (actor : String) :
    Confined backend orgId (Cloud.createServer codec backend.toStorageBackend orgId projectId request actor) :=
  ite (throw _) ((ofExcept _).bind fun _ => (nextId _).bind fun _ =>
    (storeRecord rfl _ _ _ _).bind fun _ => pure _)

theorem updateServer (projectId serverId : String) (update : McpServerUpdate) :
    Confined backend orgId (Cloud.updateServer codec backend.toStorageBackend orgId projectId serverId update) :=
  (getServer _ _).bind fun _ => (ofExcept _).bind fun _ => (storeRecord rfl _ _ _ _).bind fun _ => pure _

end Kept

/-! ### Only administrators change more than the candidates -/

def ApiRequest.pushes : ApiRequest → Bool
  | .pushMemory _ _ => true
  | _ => false

section

variable {codec : CloudCodec} {backend : ScopedBackend σ} {auth : AuthContext} {directory : Option Directory}
  {request : ApiRequest} {handler : Handler σ}
  (found : organizationHandler codec backend.toStorageBackend auth directory request = some handler) (orgId : String)

include found

/-- What any member may do without pushing a candidate is to read. -/
theorem reading_kept {relation : CloudState σ → CloudState σ → Prop} [Std.Refl relation]
    [IsTrans (CloudState σ) relation] (anyone : handler.adminOnly = false) (quiet : request.pushes = false) :
    Kept relation backend orgId (handler.run orgId) := by
  cases request <;> simp only [organizationHandler, Option.some.injEq, reduceCtorEq] at found <;> subst found
  all_goals first | (exfalso; cases anyone; done) | (exfalso; cases quiet; done) | skip
  case listOrgMembers => exact (Kept.ofExcept _).bind fun directory => (Kept.ofExcept _).map _
  case events => exact .pure _
  case listProjects => exact (Kept.listRecords rfl _ _).map _
  case getProject => exact (Kept.requireProject _).map _
  case listAgents => exact (Kept.requireProject _).bind fun _ => (Kept.listRecords rfl _ _).map _
  case getAgent => exact (Kept.getAgent _ _).map _
  case listMcp => exact (Kept.requireProject _).bind fun _ => (Kept.listRecords rfl _ _).map _
  case getMcp => exact (Kept.getServer _ _).map _
  case listMemory => exact (Kept.ofExcept _).bind fun _ => (Kept.requireProject _).bind fun _ => (Kept.listMemory _ _).map _
  case searchMemory => exact (Kept.requireProject _).bind fun _ => (Kept.search _ _ _).map _
  case memoryAudit => exact (Kept.audit _ _).map _

theorem organizationHandler_confined : Confined backend orgId (handler.run orgId) := by
  by_cases reads : handler.adminOnly = false ∧ request.pushes = false
  · exact reading_kept found orgId reads.1 reads.2
  cases request <;> simp only [organizationHandler, Option.some.injEq, reduceCtorEq] at found <;> subst found
  all_goals first | exact absurd ⟨rfl, rfl⟩ reads | skip
  case createProject => exact (Kept.createProject _).map _
  case updateProject => exact (Kept.updateProject _ _).map _
  case deleteProject => exact (Kept.deleteRecord rfl _ _ _).bind fun _ => .pure _
  case createAgent => exact (Kept.requireProject _).bind fun _ => (Kept.createAgent _ _ _).map _
  case updateAgent => exact (Kept.updateAgent _ _ _).map _
  case deleteAgent => exact (Kept.deleteRecord rfl _ _ _).bind fun _ => .pure _
  case createMcp => exact (Kept.requireProject _).bind fun _ => (Kept.createServer _ _ _).map _
  case updateMcp => exact (Kept.updateServer _ _ _).map _
  case deleteMcp => exact (Kept.deleteRecord rfl _ _ _).bind fun _ => .pure _
  case pushMemory => exact (Kept.requireProject _).bind fun _ => (Kept.pushCandidate _ _ _).map _
  case approveMemory => exact (Kept.requireProject _).bind fun _ => (Kept.review _ _ _ _).map _
  case rejectMemory => exact (Kept.requireProject _).bind fun _ => (Kept.review _ _ _ _).map _

end

/-! ### Whom a request is handled for -/

/-- The session is one of an administrator of its organization. -/
def Claims.Administers (claims : Claims) : Prop :=
  claims.resolvedOrgId.isSome ∧ claims.resolvedOrgRole.bind OrgRole.fromClerkClaim = some .admin

theorem requireOrg_eq_ok {claims : Claims} {org : OrgRef} {role : OrgRole}
    (required : (fromClaims claims).requireOrg = .ok (org, role)) :
    claims.resolvedOrgId = some org.id ∧ claims.resolvedOrgRole.bind OrgRole.fromClerkClaim = some role := by
  simp only [requireOrg, fromClaims] at required
  cases named : claims.resolvedOrgId with
  | none => simp [named] at required
  | some id =>
    cases given : claims.resolvedOrgRole.bind OrgRole.fromClerkClaim with
    | none => simp [named, given] at required
    | some held =>
      simp only [named, given, Option.map_some, Except.ok.injEq, Prod.mk.injEq] at required
      exact ⟨by rw [← required.1], congrArg some required.2⟩

theorem Handler.organization_eq_ok {handler : Handler σ} {claims : Claims} {orgId : String}
    (granted : handler.organization (fromClaims claims) = .ok orgId) :
    claims.resolvedOrgId = some orgId ∧ (handler.adminOnly = true → claims.Administers) := by
  unfold Handler.organization at granted
  split at granted
  · -- An administrator is a member first, and then one with the role.
    simp only [AuthContext.requireOrgAdmin] at granted
    cases required : (fromClaims claims).requireOrg with
    | error error => simp [required, bind, Except.bind, Functor.map, Except.map] at granted
    | ok found =>
      obtain ⟨org, role⟩ := found
      obtain ⟨named, held⟩ := requireOrg_eq_ok required
      simp only [required, bind, Except.bind, Functor.map] at granted
      by_cases admin : role = .admin
      · simp only [if_pos admin, pure, Except.pure, Except.map, Except.ok.injEq] at granted
        exact ⟨granted ▸ named, fun _ => ⟨by simp [named], admin ▸ held⟩⟩
      · simp [admin, throw, throwThe, MonadExceptOf.throw, Except.map] at granted
  · cases required : (fromClaims claims).requireOrg with
    | error error => simp [required, Functor.map, Except.map] at granted
    | ok found =>
      simp only [required, Functor.map, Except.map, Except.ok.injEq] at granted
      exact ⟨granted ▸ (requireOrg_eq_ok required).1, fun only => absurd only ‹_›⟩

section

variable {codec : CloudCodec} {backend : ScopedBackend σ}

theorem handle_cases (codec : CloudCodec) (backend : StorageBackend σ) (call : ApiCall) :
    (∃ answered : Answered, answered.published = none ∧
      ∀ state, handle codec backend call state = (answered, state)) ∨ ∃ handler orgId,
        organizationHandler codec backend (fromClaims call.claims) call.directory call.request = some handler ∧
        call.claims.resolvedOrgId = some orgId ∧ (handler.adminOnly = true → call.claims.Administers) ∧
        ∀ state, handle codec backend call state = handler.answer orgId state := by
  cases found : organizationHandler codec backend (fromClaims call.claims) call.directory
      call.request with
  | none =>
    exact .inl ⟨{ response := openAnswer (fromClaims call.claims) call.directory call.request }, rfl,
      fun state => by simp only [handle, found]⟩
  | some handler =>
    cases granted : handler.organization (fromClaims call.claims) with
    | error error => exact .inl ⟨{ response := .error error }, rfl, fun state => by
        simp only [handle, found, Handler.handle, granted]⟩
    | ok orgId =>
      obtain ⟨named, admin⟩ := Handler.organization_eq_ok granted
      exact .inr ⟨handler, orgId, rfl, named, admin, fun state => by
        simp only [handle, found, Handler.handle, granted]⟩

theorem Handler.answer_snd (handler : Handler σ) (orgId : String) (state : CloudState σ) :
    (handler.answer orgId state).2 = (exec (handler.run orgId) state).2 := by
  unfold Handler.answer
  split <;> rename_i ran <;> rw [ran]

variable {orgId : String} {state : CloudState σ} {call : ApiCall}

theorem Handler.answer_of_seen {handler : Handler σ} {other : CloudState σ}
    (confined : Confined backend orgId (handler.run orgId))
    (same : backend.seen orgId state = backend.seen orgId other) :
    (handler.answer orgId state).1 = (handler.answer orgId other).1 ∧
      backend.seen orgId (handler.answer orgId state).2 = backend.seen orgId (handler.answer orgId other).2 := by
  obtain ⟨results, views⟩ := confined.sees state other same
  unfold Handler.answer
  generalize exec (handler.run orgId) state = outcome at results views ⊢
  generalize exec (handler.run orgId) other = outcome' at results views ⊢
  rcases outcome with ⟨_ | response, reached⟩ <;> rcases outcome' with ⟨_ | response', reached'⟩ <;> cases results
  · exact ⟨rfl, views⟩
  · exact ⟨rfl, views⟩

theorem handle_others (call : ApiCall) (state : CloudState σ) (apart : call.claims.resolvedOrgId ≠ some orgId) :
    backend.data orgId (handle codec backend.toStorageBackend call state).2.store =
      backend.data orgId state.store := by
  obtain ⟨_, _, answers⟩ | ⟨handler, own, found, named, _, runs⟩ := handle_cases codec backend.toStorageBackend call
  · rw [answers]
  · -- The handler runs for the organization of the session, which is another one.
    have confined : Confined backend own (handler.run own) := organizationHandler_confined found _
    rw [runs, Handler.answer_snd]
    exact confined.moves state orgId fun same => apart (same ▸ named)

theorem handle_administered (call : ApiCall) (state : CloudState σ) (quiet : call.request.pushes = false)
    (member : ¬call.claims.Administers) : (handle codec backend.toStorageBackend call state).2 = state := by
  obtain ⟨_, _, answers⟩ | ⟨handler, own, found, _, admin, runs⟩ := handle_cases codec backend.toStorageBackend call
  · rw [answers]
  · have anyone : handler.adminOnly = false := Bool.eq_false_iff.2 fun only => member (admin only)
    rw [runs, Handler.answer_snd]
    exact Eq.symm ((reading_kept found own anyone quiet).moves state)

theorem handle_own {call : ApiCall} {state other : CloudState σ} {orgId : String}
    (own : call.claims.resolvedOrgId = some orgId) (same : backend.seen orgId state = backend.seen orgId other) :
    (handle codec backend.toStorageBackend call state).1 = (handle codec backend.toStorageBackend call other).1 ∧
      backend.seen orgId (handle codec backend.toStorageBackend call state).2 =
        backend.seen orgId (handle codec backend.toStorageBackend call other).2 := by
  obtain ⟨_, _, answers⟩ | ⟨handler, named, found, is, _, runs⟩ := handle_cases codec backend.toStorageBackend call
  · rw [answers, answers]
    exact ⟨rfl, same⟩
  · obtain rfl : named = orgId := Option.some.inj (is.symm.trans own)
    rw [runs, runs]
    exact Handler.answer_of_seen (organizationHandler_confined found _) same

theorem handle_outside (outside : call.claims.resolvedOrgId = none) (state other : CloudState σ) :
    (handle codec backend.toStorageBackend call state).1 = (handle codec backend.toStorageBackend call other).1 := by
  obtain ⟨_, _, answers⟩ | ⟨_, _, _, named, _⟩ := handle_cases codec backend.toStorageBackend call
  · rw [answers, answers]
  · exact nomatch outside.symm.trans named

theorem handle_published {event : ChangeEvent}
    (published : (handle codec backend.toStorageBackend call state).1.published = some event) :
    call.claims.resolvedOrgId = some event.orgId := by
  obtain ⟨answered, silent, answers⟩ | ⟨handler, named, _, is, _, runs⟩ :=
    handle_cases codec backend.toStorageBackend call
  · rw [answers, silent] at published
    exact nomatch published
  · rw [runs] at published
    unfold Handler.answer at published
    split at published
    · exact nomatch published
    · obtain ⟨_, _, rfl⟩ := Option.map_eq_some_iff.1 published
      exact is

theorem handle_streamed (subscribes : call.request = .events)
    (streams : (handle codec backend.toStorageBackend call state).1.response = .ok (.stream orgId)) :
    call.claims.resolvedOrgId = some orgId := by
  obtain ⟨claims, request, directory⟩ := call
  obtain rfl := subscribes
  simp only [handle, organizationHandler, Handler.handle] at streams
  split at streams
  · exact nomatch streams
  · rename_i own granted
    obtain rfl : own = orgId := ApiResponse.stream.inj (Except.ok.inj streams)
    exact (Handler.organization_eq_ok granted).1

/-- A request that asks for the organizations of its caller. -/
def ApiRequest.listsOrgs : ApiRequest → Bool
  | .listOrgs => true
  | _ => false

/-- The part of a directory that is about one organization. -/
def Directory.only (directory : Directory) (orgId : String) : Directory where
  listUserOrgs _ := .ok []
  listMembers id := if id = orgId then directory.listMembers id else .ok []

/-- A request that finds the part of the directory about one organization. -/
def ApiCall.only (call : ApiCall) (orgId : String) : ApiCall :=
  { call with directory := call.directory.map (·.only orgId) }

theorem handle_only (own : call.claims.resolvedOrgId = some orgId)
    (unlisted : call.request.listsOrgs = false) (state : CloudState σ) :
    handle codec backend.toStorageBackend (call.only orgId) state =
      handle codec backend.toStorageBackend call state := by
  obtain ⟨claims, request, directory⟩ := call
  cases request
  case listOrgs => exact nomatch unlisted
  case listOrgMembers =>
    -- The members that are asked for are those of the organization of the session.
    simp only [handle, ApiCall.only, organizationHandler, Handler.handle, Handler.organization, reading,
      Bool.false_eq_true, if_false]
    cases required : (fromClaims claims).requireOrg with
    | error error => rfl
    | ok found =>
      obtain rfl : found.1.id = orgId := Option.some.inj ((requireOrg_eq_ok required).1.symm.trans own)
      cases directory with
      | none => rfl
      | some directory => simp [Handler.answer, requireDirectory, Directory.only, Program.ofExcept, Functor.map, Except.map]
  all_goals rfl

/-! ### Whole runs -/

def serve (codec : CloudCodec) (backend : StorageBackend σ) (request : Counters × ApiCall) (store : σ) :
    Answered × σ :=
  let (answered, reached) := handle codec backend request.2 { store, counters := request.1 }
  (answered, reached.store)

/-- The requests of a run, each with the counters that it finds. -/
def numbered (codec : CloudCodec) (backend : StorageBackend σ) : List ApiCall → CloudState σ → List (Counters × ApiCall)
  | [], _ => []
  | call :: rest, state =>
    (state.counters, call) :: numbered codec backend rest (handle codec backend call state).2

theorem observed_numbered (codec : CloudCodec) (backend : StorageBackend σ) (own : ApiCall → Bool)
    (calls : List ApiCall) (state : CloudState σ) :
    Run.observed (serve codec backend) (fun request => own request.2) (numbered codec backend calls state)
        state.store = Run.observed (handle codec backend) own calls state := by
  induction calls generalizing state with
  | nil => rfl
  | cons call rest ih =>
    simp only [numbered, Run.observed_cons]
    exact congrArg _ (ih (handle codec backend call state).2)

/-- A request of a session in an organization, other than for the organizations of its caller. -/
def ApiCall.asksOf (orgId : String) (call : ApiCall) : Bool :=
  decide (call.claims.resolvedOrgId = some orgId) && !call.request.listsOrgs

theorem handle_listOrgs (lists : call.request.listsOrgs = true) (state : CloudState σ) :
    handle codec backend.toStorageBackend call state =
      ({ response := openAnswer (fromClaims call.claims) call.directory .listOrgs }, state) := by
  obtain ⟨claims, request, directory⟩ := call
  cases request
  case listOrgs => rfl
  all_goals exact nomatch lists

theorem observed_own (orgId : String) (calls : List ApiCall) {other : σ}
    (same : backend.data orgId state.store = backend.data orgId other) :
    Run.observed (handle codec backend.toStorageBackend) (ApiCall.asksOf orgId) calls state =
      (Run.outputs (serve codec backend.toStorageBackend)
        (((numbered codec backend.toStorageBackend calls state).filter fun request =>
          request.2.asksOf orgId).map fun request => (request.1, request.2.only orgId)) other).1 := by
  rw [Run.outputs_map, ← observed_numbered]
  · refine (Run.apart_of_view _ (backend.data orgId) _ (fun _ => True) (fun _ => True) (fun _ _ _ => trivial)
      (fun request store _ foreign _ => ?_) (fun request store store' own views => ?_) (fun _ _ => trivial)
      trivial same).1
    · -- A request of others leaves the data alone, and so does one for the organizations of a caller.
      cases lists : request.2.request.listsOrgs with
      | true =>
        have unchanged : handle codec backend.toStorageBackend request.2 ⟨store, request.1⟩ = _ :=
          handle_listOrgs lists _
        simp [serve, unchanged]
      | false =>
        refine handle_others _ _ fun named => ?_
        simp [ApiCall.asksOf, named, lists] at foreign
    · -- A request of the organization sees its data, with the numbers that it finds.
      simp only [ApiCall.asksOf, Bool.and_eq_true, decide_eq_true_eq] at own
      have seen : backend.seen orgId ⟨store, request.1⟩ = backend.seen orgId ⟨store', request.1⟩ := Prod.ext views rfl
      obtain ⟨answers, data⟩ := @handle_own σ codec backend request.2 _ _ _ own.1 seen
      exact ⟨answers, (Prod.mk.inj data).1⟩
  · intro request member
    have own := List.of_mem_filter member
    simp only [ApiCall.asksOf, Bool.and_eq_true, decide_eq_true_eq, Bool.not_eq_true'] at own
    funext store
    simp [serve, handle_only own.1 own.2]

end

/-- What holds of a request that is handled: its organization is all that it changes and tells of. -/
structure Isolated (codec : CloudCodec) (backend : ScopedBackend σ) (state : CloudState σ) (call : ApiCall) :
    Prop where
  /-- The data of other organizations stays as it is. -/
  others : ∀ orgId, call.claims.resolvedOrgId ≠ some orgId →
    backend.data orgId (handle codec backend.toStorageBackend call state).2.store = backend.data orgId state.store
  /-- Only an administrator changes anything, other than by pushing a candidate. -/
  administered : call.request.pushes = false → ¬call.claims.Administers →
    (handle codec backend.toStorageBackend call state).2 = state
  /-- A session without an organization is answered without the store. -/
  outside : call.claims.resolvedOrgId = none → ∀ other,
    (handle codec backend.toStorageBackend call state).1 = (handle codec backend.toStorageBackend call other).1
  /-- Subscribers are told of a change in the organization of the session. -/
  published : ∀ event, (handle codec backend.toStorageBackend call state).1.published = some event →
    call.claims.resolvedOrgId = some event.orgId
  /-- A subscriber is sent the changes in the organization of the session. -/
  streamed : ∀ orgId, call.request = .events →
    (handle codec backend.toStorageBackend call state).1.response = .ok (.stream orgId) →
    call.claims.resolvedOrgId = some orgId ∧ ∀ received, ∀ event ∈ eventStream orgId received, event.orgId = orgId
  /-- Asked for the organizations of its caller, the service answers what the directory lists for the user. -/
  listed : call.request.listsOrgs = true →
    (handle codec backend.toStorageBackend call state).1.response =
      (requireDirectory call.directory >>= fun directory => .orgs <$> directory.listUserOrgs call.claims.sub)

theorem mem_eventStream {orgId : String} {received : List (Except Unit ChangeEvent)} {event : ChangeEvent}
    (sent : event ∈ eventStream orgId received) : event.orgId = orgId := by
  obtain ⟨result, _, kept⟩ := List.mem_filterMap.1 sent
  cases result with
  | error missed => exact nomatch kept
  | ok other =>
    dsimp only at kept
    split at kept
    · obtain rfl := Option.some.inj kept
      assumption
    · exact nomatch kept

/--
Organizations are isolated from each other in every run.

What an organization is answered is what it would be answered alone: over any store with the same data of its own,
with its own requests, the numbers that the process hands out for ids, and the directory's members of the
organization. Only the list of the caller's organizations tells of others.
-/
theorem organizations_isolated (codec : CloudCodec) (backend : ScopedBackend σ) (calls : List ApiCall)
    (state : CloudState σ) :
    (∀ before ∈ Run.steps (fun state call => (handle codec backend.toStorageBackend call state).2) calls state,
      Isolated codec backend before.1 before.2) ∧
    ∀ orgId other, backend.data orgId state.store = backend.data orgId other →
      Run.observed (handle codec backend.toStorageBackend) (ApiCall.asksOf orgId) calls state =
        (Run.outputs (serve codec backend.toStorageBackend)
          (((numbered codec backend.toStorageBackend calls state).filter fun request =>
            request.2.asksOf orgId).map fun request => (request.1, request.2.only orgId)) other).1 := by
  refine ⟨fun before _ => ?_, fun orgId other same => observed_own orgId calls same⟩
  obtain ⟨state, call⟩ := before
  exact
    { others := fun orgId apart => handle_others call state apart
      administered := handle_administered call state
      outside := fun none other => handle_outside none state other
      published := fun event => handle_published
      streamed := fun orgId subscribes streams => ⟨handle_streamed subscribes streams, fun _ _ => mem_eventStream⟩
      listed := fun lists => by rw [handle_listOrgs lists]; rfl }

def session (user orgId role : String) : Claims := { sub := user, orgId := some orgId, orgRole := some role }

def twoTenants : List ApiCall :=
  [{ claims := session "ada" "acme" "org:admin", request := .createProject { name := "Site" } },
    { claims := session "bob" "globex" "org:admin", request := .createProject { name := "Plans" } },
    { claims := session "eve" "globex" "org:member", request := .listProjects }]

/-- One of two organizations is answered as if it were alone. -/
theorem globex_answered_alone :
    Run.observed (handle projectsOnly inMemoryScoped.toStorageBackend) (ApiCall.asksOf "globex") twoTenants
        { store := {} } =
      (Run.outputs (serve projectsOnly inMemoryScoped.toStorageBackend)
        (((numbered projectsOnly inMemoryScoped.toStorageBackend twoTenants { store := {} }).filter fun request =>
          request.2.asksOf "globex").map fun request => (request.1, request.2.only "globex")) {}).1 :=
  (organizations_isolated projectsOnly inMemoryScoped twoTenants { store := {} }).2 "globex" {} rfl

/-- A directory in which a user belongs to two organizations. -/
def sharedDirectory : Directory where
  listUserOrgs _ := .ok [{ id := "acme", name := "Acme" }, { id := "globex", name := "Globex" }]
  listMembers _ := .ok []

/-- A session in one organization asks for the organizations of its user. -/
def asksForOrgs : ApiCall :=
  { claims := session "ada" "acme" "org:member", request := .listOrgs, directory := some sharedDirectory }

/-- A session in one organization is told of another one that its user belongs to. -/
theorem orgs_tell_of_others : asksForOrgs.claims.resolvedOrgId = some "acme" ∧
      ∃ orgs, (handle projectsOnly inMemoryScoped.toStorageBackend asksForOrgs { store := {} }).1.response =
          .ok (.orgs orgs) ∧
        ∃ org ∈ orgs, org.id ≠ "acme" :=
  ⟨rfl, _, rfl, _, List.mem_cons_of_mem _ List.mem_cons_self, by decide⟩

end Codel00p.Cloud
