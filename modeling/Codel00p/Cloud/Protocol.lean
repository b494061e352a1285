import Codel00p.Memory.Entry

/-! What the cloud service and its callers exchange: organizations, and the product data that they own. -/

namespace Codel00p.Cloud

def nonEmpty (text : String) : Option String := if isBlank text then none else some text

/-- A reference to an organization. -/
structure OrgRef where
  id : String
  name : String
  slug : Option String := none
  deriving DecidableEq, Repr

inductive OrgRole where
  | admin
  | member
  deriving DecidableEq, Repr

def OrgRole.fromClerkClaim (claim : String) : Option OrgRole :=
  match trim claim with
  | "org:admin" | "admin" => some .admin
  | "org:member" | "member" => some .member
  | _ => none

structure OrgMember where
  userId : String
  role : OrgRole
  email : Option String := none
  name : Option String := none
  deriving DecidableEq, Repr

/-- The caller, as it is told about itself. -/
structure Viewer where
  userId : String
  email : Option String := none
  org : Option OrgRef := none
  orgRole : Option OrgRole := none
  deriving DecidableEq, Repr

/-! ### Projects -/

structure Project where
  id : String
  orgId : String
  name : String
  slug : String
  repositoryUrl : Option String := none
  deriving DecidableEq, Repr

/-- A project with the address of its repository; a blank one is none. -/
def Project.withRepositoryUrl (project : Project) (url : String) : Project :=
  { project with repositoryUrl := nonEmpty url }

structure NewProject where
  name : String
  repositoryUrl : Option String := none

structure ProjectUpdate where
  name : Option String := none
  repositoryUrl : Option String := none

/-! ### Memory -/

structure NewMemoryCandidate where
  kind : MemoryKind
  content : String
  tags : List String := []
  sensitivity : MemorySensitivity := .normal
  sourceUri : Option String := none

inductive MemoryReviewAction where
  | created
  | approved
  | rejected
  | archived
  deriving DecidableEq, Repr

def MemoryReviewAction.resultingStatus : MemoryReviewAction → MemoryStatus
  | .created => .candidate
  | .approved => .approved
  | .rejected => .rejected
  | .archived => .archived

structure MemoryAuditEntry where
  memoryId : String
  action : MemoryReviewAction
  actor : String
  deriving DecidableEq, Repr

/-! ### Agents and servers -/

structure CloudAgent where
  id : String
  orgId : String
  projectId : String
  name : String
  description : Option String := none
  instructions : Option String := none
  provider : String
  model : String
  mcpServerIds : List String := []
  createdBy : String
  deriving DecidableEq, Repr

structure NewAgent where
  name : String
  description : Option String := none
  instructions : Option String := none
  provider : String
  model : String
  mcpServerIds : List String := []

structure AgentUpdate where
  name : Option String := none
  description : Option String := none
  instructions : Option String := none
  provider : Option String := none
  model : Option String := none
  mcpServerIds : Option (List String) := none

/-- How a server is reached. -/
inductive McpTransport where
  | stdio
  | http
  deriving DecidableEq, Repr

structure McpServer where
  id : String
  orgId : String
  projectId : String
  name : String
  transport : McpTransport
  command : Option String := none
  url : Option String := none
  enabled : Bool := true
  createdBy : String
  deriving DecidableEq, Repr

structure NewMcpServer where
  name : String
  transport : McpTransport
  command : Option String := none
  url : Option String := none
  enabled : Bool := true

structure McpServerUpdate where
  name : Option String := none
  transport : Option McpTransport := none
  command : Option String := none
  url : Option String := none
  enabled : Option Bool := none

/-! ### Errors and callers -/

/-- Why a request is not carried out. -/
inductive ApiError where
  | unauthorized (message : String)
  | forbidden (message : String)
  | notFound (message : String)
  | badRequest (message : String)
  | internal (message : String)
  | serviceUnavailable (message : String)
  deriving DecidableEq, Repr

/-- The compact form of the organization of a session. -/
structure CompactOrgClaim where
  id : Option String := none
  slg : Option String := none
  rol : Option String := none
  nam : Option String := none

/-- What a verified token says about a session. -/
structure Claims where
  sub : String
  email : Option String := none
  orgId : Option String := none
  orgSlug : Option String := none
  orgName : Option String := none
  orgRole : Option String := none
  o : Option CompactOrgClaim := none

namespace Claims

variable (claims : Claims)

/-- The organization; a flat claim wins over the compact one. -/
def resolvedOrgId : Option String := claims.orgId.or (claims.o.bind (·.id))

/-- The short name of the organization. -/
def resolvedOrgSlug : Option String := claims.orgSlug.or (claims.o.bind (·.slg))

def resolvedOrgName : Option String := claims.orgName.or (claims.o.bind (·.nam))

def resolvedOrgRole : Option String := claims.orgRole.or (claims.o.bind (·.rol))

end Claims

/-- The caller of a request. -/
structure AuthContext where
  userId : String
  email : Option String := none
  org : Option OrgRef := none
  orgRole : Option OrgRole := none

namespace AuthContext

/-- The caller that a token is about. -/
def fromClaims (claims : Claims) : AuthContext where
  userId := claims.sub
  email := claims.email
  org := claims.resolvedOrgId.map fun id =>
    { id, name := (claims.resolvedOrgName.or claims.resolvedOrgSlug).getD id,
      slug := claims.resolvedOrgSlug.bind nonEmpty }
  orgRole := claims.resolvedOrgRole.bind OrgRole.fromClerkClaim

variable (auth : AuthContext)

def requireOrg : Except ApiError (OrgRef × OrgRole) :=
  match auth.org, auth.orgRole with
  | some org, some role => .ok (org, role)
  | _, _ => .error (.forbidden "no active organization in session")

def requireOrgAdmin : Except ApiError OrgRef := do
  let (org, role) ← auth.requireOrg
  if role = .admin then return org else throw (.forbidden "requires organization admin")

/-- The caller, as it is told about itself. -/
def toViewer : Viewer :=
  let viewer : Viewer := { userId := auth.userId, email := auth.email.bind nonEmpty }
  match auth.org, auth.orgRole with
  | some org, some role => { viewer with org := some org, orgRole := some role }
  | _, _ => viewer

end AuthContext

end Codel00p.Cloud
