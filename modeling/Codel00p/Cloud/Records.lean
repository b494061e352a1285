import Codel00p.Cloud.Service

/-! The records of the cloud service: projects of an organization, and the memory, agents, and servers of a project. -/

namespace Codel00p.Cloud

variable {σ : Type} (codec : CloudCodec) (backend : StorageBackend σ)

/-! ### Projects -/

/-- Add a character to a slug; a run of others becomes one hyphen, except at the ends. -/
def slugStep (state : List Char × Bool) (c : Char) : List Char × Bool :=
  if c.isAlphanum then
    ((if state.2 && !state.1.isEmpty then state.1 ++ ['-'] else state.1) ++ [c.toLower], false)
  else (state.1, true)

def slugify (name : String) : String :=
  let slug := (name.toList.foldl slugStep ([], false)).1
  if slug.isEmpty then "project" else String.ofList slug

def projectNotFound (projectId : String) : ApiError := .notFound ("project " ++ projectId ++ " not found")

def storeProject (orgId : String) (project : Project) : CloudM σ Unit :=
  storeRecord codec backend codec.projects .project (organizationScope orgId) project.id project

def getProject (orgId projectId : String) : CloudM σ (Option Project) :=
  findRecord codec backend codec.projects "project" .project (organizationScope orgId) projectId

/-- A project of an organization that has to exist. -/
def requireProject (orgId projectId : String) : CloudM σ Project := do
  match ← getProject codec backend orgId projectId with
  | some project => return project
  | none => throw (projectNotFound projectId)

def listProjects (orgId : String) : CloudM σ (List Project) :=
  listRecords codec backend codec.projects "project" .project (organizationScope orgId)

def withUrl (project : Project) : Option String → Project
  | some url => project.withRepositoryUrl url
  | none => project

def createProject (orgId : String) (request : NewProject) : CloudM σ Project :=
  let name := trim request.name
  if name.isEmpty then throw (.badRequest "project name is required")
  else do
    let id ← nextId .project
    let project := withUrl { id, orgId, name, slug := slugify name } request.repositoryUrl
    storeProject codec backend orgId project
    return project

def updateProject (orgId projectId : String) (update : ProjectUpdate) : CloudM σ Project := do
  let existing ← requireProject codec backend orgId projectId
  let project := withUrl
    { id := existing.id, orgId, name := replaced existing.name update.name, slug := existing.slug }
    (update.repositoryUrl.or existing.repositoryUrl)
  storeProject codec backend orgId project
  return project

def deleteProject (orgId projectId : String) : CloudM σ Unit :=
  deleteRecord codec backend "project" .project (organizationScope orgId) projectId

/-! ### Memory -/

def auditStream (memoryId : String) : String := "memory/" ++ memoryId

def recordAudit (scope : StorageScope) (memoryId : String) (action : MemoryReviewAction) (actor : String) :
    CloudM σ Unit := do
  let _ ← writeStore codec (backend.appendLogEntry scope (auditStream memoryId)
    (codec.audit.toValue { memoryId, action, actor }))

def pushCandidate (orgId : String) (project : Project) (request : NewMemoryCandidate) (actor : String) :
    CloudM σ MemoryEntry :=
  let content := trim request.content
  if content.isEmpty then throw (.badRequest "memory content is required")
  else do
    let id ← nextId .memory
    let entry := request.tags.foldl MemoryEntry.withTag
      ((MemoryEntry.new id { id := project.id, name := project.name } request.kind content).withSensitivity
        request.sensitivity)
    let scope := projectScope orgId project.id
    let metadata := (request.sourceUri.map fun uri => ("source_uri", uri)).toList
    storeRecord codec backend codec.memory .memory scope id entry metadata
    recordAudit codec backend scope id .created actor
    return entry

def listMemory (orgId projectId : String) (status : Option MemoryStatus) : CloudM σ (List MemoryEntry) := do
  let entries ← listRecords codec backend codec.memory "memory" .memory (projectScope orgId projectId)
  match status with
  | some wanted => return entries.filter (·.status = wanted)
  | none => return entries

def requireMemory (scope : StorageScope) (memoryId : String) : CloudM σ (MemoryEntry × List (String × String)) := do
  match ← readStore codec (backend.getDocument scope RecordKind.memory.collection memoryId) with
  | none => throw (.notFound ("memory " ++ memoryId ++ " not found"))
  | some document => do
    let entry ← Program.ofExcept (readPayload codec.memory "memory" document.payload)
    return (entry, document.metadata)

def review (orgId projectId memoryId : String) (action : MemoryReviewAction) (actor : String) :
    CloudM σ MemoryEntry := do
  let scope := projectScope orgId projectId
  let (entry, metadata) ← requireMemory codec backend scope memoryId
  let updated := entry.withStatus action.resultingStatus
  storeRecord codec backend codec.memory .memory scope memoryId updated metadata
  recordAudit codec backend scope memoryId action actor
  return updated

/-- The audit trail of a memory, oldest first. -/
def audit (orgId projectId memoryId : String) : CloudM σ (List MemoryAuditEntry) := do
  let entries ← readStore codec (backend.replayLog (projectScope orgId projectId) (auditStream memoryId))
  Program.ofExcept (entries.mapM fun entry => readPayload codec.audit "audit" entry.payload)

/-- How often a term occurs in a text, one occurrence after the other. -/
def countMatches (term : List Char) : Nat → List Char → Nat
  | 0, _ => 0
  | fuel + 1, text =>
    match splitOnceChars term text with
    | none => 0
    | some (_, after) => countMatches term fuel after + 1

def matchScore (terms : List String) (entry : MemoryEntry) : Nat :=
  let content := (codec.toLowercase entry.content).toList
  (terms.map fun term => countMatches term.toList (content.length + 1) content).sum

def search (orgId projectId query : String) (limit : Nat) : CloudM σ (List MemoryEntry) := do
  let approved ← listMemory codec backend orgId projectId (some .approved)
  let terms := splitPieces isWhitespace (codec.toLowercase query)
  if terms.isEmpty then return approved.take limit
  else
    let scored := (approved.map fun entry => (matchScore codec terms entry, entry)).filter (0 < ·.1)
    return ((scored.mergeSort fun a b => b.1 ≤ a.1).take limit).map (·.2)

/-! ### Agents -/

def storeAgent (orgId projectId : String) (agent : CloudAgent) : CloudM σ Unit :=
  storeRecord codec backend codec.agents .agent (projectScope orgId projectId) agent.id agent

def createAgent (orgId projectId : String) (request : NewAgent) (actor : String) : CloudM σ CloudAgent :=
  let name := trim request.name
  let provider := trim request.provider
  let model := trim request.model
  if name.isEmpty then throw (.badRequest "agent name is required")
  else if provider.isEmpty || model.isEmpty then throw (.badRequest "agent provider and model are required")
  else do
    let id ← nextId .agent
    let agent : CloudAgent :=
      { id, orgId, projectId, name, provider, model, createdBy := actor, mcpServerIds := request.mcpServerIds,
        description := request.description.bind nonEmpty, instructions := request.instructions.bind nonEmpty }
    storeAgent codec backend orgId projectId agent
    return agent

def listAgents (orgId projectId : String) : CloudM σ (List CloudAgent) :=
  listRecords codec backend codec.agents "agent" .agent (projectScope orgId projectId)

def getAgent (orgId projectId agentId : String) : CloudM σ CloudAgent := do
  match ← findRecord codec backend codec.agents "agent" .agent (projectScope orgId projectId) agentId with
  | some agent => return agent
  | none => throw (.notFound ("agent " ++ agentId ++ " not found"))

def updateAgent (orgId projectId agentId : String) (update : AgentUpdate) : CloudM σ CloudAgent := do
  let existing ← getAgent codec backend orgId projectId agentId
  let agent : CloudAgent :=
    { id := existing.id, orgId, projectId, name := replaced existing.name update.name,
      provider := replaced existing.provider update.provider, model := replaced existing.model update.model,
      createdBy := existing.createdBy, mcpServerIds := update.mcpServerIds.getD existing.mcpServerIds,
      description := (update.description.or existing.description).bind nonEmpty,
      instructions := (update.instructions.or existing.instructions).bind nonEmpty }
  storeAgent codec backend orgId projectId agent
  return agent

def deleteAgent (orgId projectId agentId : String) : CloudM σ Unit :=
  deleteRecord codec backend "agent" .agent (projectScope orgId projectId) agentId

/-! ### Servers -/

def storeServer (orgId projectId : String) (server : McpServer) : CloudM σ Unit :=
  storeRecord codec backend codec.servers .server (projectScope orgId projectId) server.id server

def validateServer (transport : McpTransport) (command url : Option String) : Except ApiError Unit :=
  match transport with
  | .stdio => if isBlank (command.getD "") then throw (.badRequest "stdio MCP servers require a command") else pure ()
  | .http => if isBlank (url.getD "") then throw (.badRequest "http MCP servers require a url") else pure ()

def createServer (orgId projectId : String) (request : NewMcpServer) (actor : String) : CloudM σ McpServer :=
  let name := trim request.name
  if name.isEmpty then throw (.badRequest "MCP server name is required")
  else do
    Program.ofExcept (validateServer request.transport request.command request.url)
    let id ← nextId .server
    let server : McpServer :=
      { id, orgId, projectId, name, transport := request.transport, createdBy := actor, enabled := request.enabled,
        command := request.command.bind nonEmpty, url := request.url.bind nonEmpty }
    storeServer codec backend orgId projectId server
    return server

def listServers (orgId projectId : String) : CloudM σ (List McpServer) :=
  listRecords codec backend codec.servers "mcp" .server (projectScope orgId projectId)

def getServer (orgId projectId serverId : String) : CloudM σ McpServer := do
  match ← findRecord codec backend codec.servers "mcp" .server (projectScope orgId projectId) serverId with
  | some server => return server
  | none => throw (.notFound ("mcp server " ++ serverId ++ " not found"))

def updateServer (orgId projectId serverId : String) (update : McpServerUpdate) : CloudM σ McpServer := do
  let existing ← getServer codec backend orgId projectId serverId
  let transport := update.transport.getD existing.transport
  let command := update.command.or existing.command
  let url := update.url.or existing.url
  Program.ofExcept (validateServer transport command url)
  let server : McpServer :=
    { id := existing.id, orgId, projectId, name := replaced existing.name update.name, transport,
      createdBy := existing.createdBy, enabled := update.enabled.getD existing.enabled,
      command := command.bind nonEmpty, url := url.bind nonEmpty }
  storeServer codec backend orgId projectId server
  return server

def deleteServer (orgId projectId serverId : String) : CloudM σ Unit :=
  deleteRecord codec backend "mcp server" .server (projectScope orgId projectId) serverId

/-- Projects as they are written; other records cannot be read. -/
def projectsOnly : CloudCodec where
  projects :=
    { toValue := fun project => .object
        ([("id", .string project.id), ("org_id", .string project.orgId), ("name", .string project.name),
          ("slug", .string project.slug)] ++ (project.repositoryUrl.map fun url => ("repository_url", .string url)).toList)
      fromValue := fun value =>
        match value.getStr "id", value.getStr "org_id", value.getStr "name", value.getStr "slug" with
        | some id, some orgId, some name, some slug =>
          .ok { id, orgId, name, slug, repositoryUrl := value.getStr "repository_url" }
        | _, _, _, _ => .error "missing field" }
  memory := { toValue := fun _ => .null, fromValue := fun _ => .error "" }
  audit := { toValue := fun _ => .null, fromValue := fun _ => .error "" }
  agents := { toValue := fun _ => .null, fromValue := fun _ => .error "" }
  servers := { toValue := fun _ => .null, fromValue := fun _ => .error "" }

end Codel00p.Cloud
