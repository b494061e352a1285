import Codel00p.Cloud.Records

/-! The routes of the cloud service: each takes the organization from the session of its caller. -/

namespace Codel00p.Cloud

/-- A request to a route, with its path and its body. -/
inductive ApiRequest where
  | health
  | me
  | listOrgs
  | listOrgMembers
  | events
  | listProjects
  | createProject (body : NewProject)
  | getProject (projectId : String)
  | updateProject (projectId : String) (body : ProjectUpdate)
  | deleteProject (projectId : String)
  | listAgents (projectId : String)
  | createAgent (projectId : String) (body : NewAgent)
  | getAgent (projectId agentId : String)
  | updateAgent (projectId agentId : String) (body : AgentUpdate)
  | deleteAgent (projectId agentId : String)
  | listMcp (projectId : String)
  | createMcp (projectId : String) (body : NewMcpServer)
  | getMcp (projectId serverId : String)
  | updateMcp (projectId serverId : String) (body : McpServerUpdate)
  | deleteMcp (projectId serverId : String)
  | listMemory (projectId : String) (status : Option String)
  | pushMemory (projectId : String) (body : NewMemoryCandidate)
  | searchMemory (projectId query : String) (limit : Option Nat)
  | approveMemory (projectId memoryId : String)
  | rejectMemory (projectId memoryId : String)
  | memoryAudit (projectId memoryId : String)

/-- What a request that succeeds is answered. -/
inductive ApiResponse where
  | ok
  | viewer (viewer : Viewer)
  | orgs (orgs : List OrgRef)
  | members (members : List OrgMember)
  /-- A stream of the changes in an organization. -/
  | stream (orgId : String)
  | project (project : Project)
  | projects (projects : List Project)
  | agent (agent : CloudAgent)
  | agents (agents : List CloudAgent)
  | server (server : McpServer)
  | servers (servers : List McpServer)
  | memory (entry : MemoryEntry)
  | memories (entries : List MemoryEntry)
  | trail (trail : List MemoryAuditEntry)
  | noContent
  deriving DecidableEq, Repr

/-- A change that subscribers are told of. -/
structure ChangeEvent where
  orgId : String
  entity : String
  action : String
  deriving DecidableEq, Repr

/-- What a subscriber of an organization is sent of what it receives; what it missed is passed over. -/
def eventStream (orgId : String) (received : List (Except Unit ChangeEvent)) : List ChangeEvent :=
  received.filterMap fun
    | .ok event => if event.orgId = orgId then some event else none
    | .error () => none

structure Directory where
  listUserOrgs : String → Except ApiError (List OrgRef)
  listMembers : String → Except ApiError (List OrgMember)

/-- A request of a caller, with what it finds outside of the store. -/
structure ApiCall where
  claims : Claims
  request : ApiRequest
  directory : Option Directory := none

/-- What came of a request: its answer, and the change that is told to subscribers. -/
structure Answered where
  response : Except ApiError ApiResponse
  published : Option ChangeEvent := none

def parseStatus (value : String) : Except ApiError MemoryStatus :=
  match value with
  | "candidate" => .ok .candidate
  | "approved" => .ok .approved
  | "rejected" => .ok .rejected
  | "archived" => .ok .archived
  | _ => .error (.badRequest ("unknown memory status: " ++ value))

def requireDirectory : Option Directory → Except ApiError Directory
  | some directory => .ok directory
  | none => .error (.serviceUnavailable "organization directory is not configured")

variable {σ : Type} (codec : CloudCodec) (backend : StorageBackend σ)

/-- A handler: who may call it, what it does for an organization, and the change that it publishes. -/
structure Handler (σ : Type) where
  adminOnly : Bool
  run : String → CloudM σ ApiResponse
  publishes : Option (String × String) := none

/-- Answers with data of an organization, which any of its members may read. -/
def reading (run : String → CloudM σ ApiResponse) : Handler σ := { adminOnly := false, run }

def changing (entity action : String) (run : String → CloudM σ ApiResponse) : Handler σ :=
  { adminOnly := true, run, publishes := some (entity, action) }

def searchLimit (limit : Option Nat) : Nat := min (max (limit.getD 20) 1) 100

def reviewMemory (projectId memoryId : String) (action : MemoryReviewAction) (actor : String) (orgId : String) :
    CloudM σ ApiResponse := do
  let _ ← requireProject codec backend orgId projectId
  .memory <$> review codec backend orgId projectId memoryId action actor

def listMemoryOf (projectId : String) (status : Option String) (orgId : String) : CloudM σ ApiResponse := do
  let status ← Program.ofExcept (status.mapM parseStatus)
  let _ ← requireProject codec backend orgId projectId
  .memories <$> listMemory codec backend orgId projectId status

/-- The handlers of the routes that need an organization. -/
def organizationHandler (auth : AuthContext) (directory : Option Directory) : ApiRequest → Option (Handler σ)
  | .health | .me | .listOrgs => none
  | .listOrgMembers => some (reading fun orgId => do
      let directory ← Program.ofExcept (requireDirectory directory)
      .members <$> Program.ofExcept (directory.listMembers orgId))
  | .events => some (reading fun orgId => pure (.stream orgId))
  | .listProjects => some (reading fun orgId => .projects <$> listProjects codec backend orgId)
  | .createProject body => some (changing "projects" "created" fun orgId =>
      .project <$> createProject codec backend orgId body)
  | .getProject projectId => some (reading fun orgId => .project <$> requireProject codec backend orgId projectId)
  | .updateProject projectId body => some (changing "projects" "updated" fun orgId =>
      .project <$> updateProject codec backend orgId projectId body)
  | .deleteProject projectId => some (changing "projects" "deleted" fun orgId => do
      deleteProject codec backend orgId projectId
      return .noContent)
  | .listAgents projectId => some (reading fun orgId => do
      let _ ← requireProject codec backend orgId projectId
      .agents <$> listAgents codec backend orgId projectId)
  | .createAgent projectId body => some (changing "agents" "created" fun orgId => do
      let _ ← requireProject codec backend orgId projectId
      .agent <$> createAgent codec backend orgId projectId body auth.userId)
  | .getAgent projectId agentId => some (reading fun orgId =>
      .agent <$> getAgent codec backend orgId projectId agentId)
  | .updateAgent projectId agentId body => some (changing "agents" "updated" fun orgId =>
      .agent <$> updateAgent codec backend orgId projectId agentId body)
  | .deleteAgent projectId agentId => some (changing "agents" "deleted" fun orgId => do
      deleteAgent codec backend orgId projectId agentId
      return .noContent)
  | .listMcp projectId => some (reading fun orgId => do
      let _ ← requireProject codec backend orgId projectId
      .servers <$> listServers codec backend orgId projectId)
  | .createMcp projectId body => some (changing "mcp" "created" fun orgId => do
      let _ ← requireProject codec backend orgId projectId
      .server <$> createServer codec backend orgId projectId body auth.userId)
  | .getMcp projectId serverId => some (reading fun orgId =>
      .server <$> getServer codec backend orgId projectId serverId)
  | .updateMcp projectId serverId body => some (changing "mcp" "updated" fun orgId =>
      .server <$> updateServer codec backend orgId projectId serverId body)
  | .deleteMcp projectId serverId => some (changing "mcp" "deleted" fun orgId => do
      deleteServer codec backend orgId projectId serverId
      return .noContent)
  | .listMemory projectId status => some (reading (listMemoryOf codec backend projectId status))
  | .pushMemory projectId body => some
      { adminOnly := false
        publishes := some ("memory", "created")
        run := fun orgId => do
          let project ← requireProject codec backend orgId projectId
          .memory <$> pushCandidate codec backend orgId project body auth.userId }
  | .searchMemory projectId query limit => some (reading fun orgId => do
      let _ ← requireProject codec backend orgId projectId
      .memories <$> search codec backend orgId projectId query (searchLimit limit))
  | .approveMemory projectId memoryId => some (changing "memory" "reviewed"
      (reviewMemory codec backend projectId memoryId .approved auth.userId))
  | .rejectMemory projectId memoryId => some (changing "memory" "reviewed"
      (reviewMemory codec backend projectId memoryId .rejected auth.userId))
  | .memoryAudit projectId memoryId => some (reading fun orgId =>
      .trail <$> audit codec backend orgId projectId memoryId)

def Handler.organization (handler : Handler σ) (auth : AuthContext) : Except ApiError String :=
  if handler.adminOnly then (·.id) <$> auth.requireOrgAdmin else (fun (org, _) => org.id) <$> auth.requireOrg

/-- The answer of a route that needs no organization. -/
def openAnswer (auth : AuthContext) (directory : Option Directory) : ApiRequest → Except ApiError ApiResponse
  | .me => .ok (.viewer auth.toViewer)
  | .listOrgs => do
    let directory ← requireDirectory directory
    .orgs <$> directory.listUserOrgs auth.userId
  | _ => .ok .ok

def Handler.answer (handler : Handler σ) (orgId : String) (state : CloudState σ) : Answered × CloudState σ :=
  match Program.exec (handler.run orgId) state with
  | (.error error, reached) => ({ response := .error error }, reached)
  | (.ok response, reached) =>
    ({ response := .ok response,
       published := handler.publishes.map fun (entity, action) => { orgId, entity, action } }, reached)

/-- Run a handler for the organization of the caller, if it may call it. -/
def Handler.handle (handler : Handler σ) (auth : AuthContext) (state : CloudState σ) : Answered × CloudState σ :=
  match handler.organization auth with
  | .error error => ({ response := .error error }, state)
  | .ok orgId => handler.answer orgId state

def handle (call : ApiCall) (state : CloudState σ) : Answered × CloudState σ :=
  let auth := AuthContext.fromClaims call.claims
  match organizationHandler codec backend auth call.directory call.request with
  | none => ({ response := openAnswer auth call.directory call.request }, state)
  | some handler => handler.handle auth state

end Codel00p.Cloud
