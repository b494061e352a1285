import Codel00p.Cloud.Tenancy

/-! Requests to projects that do not exist, or that were deleted. -/

namespace Codel00p.Cloud

open AuthContext (fromClaims)
open Program (exec exec_bind)

/-- The project whose existence a request is made to depend on; an unknown status is refused before. -/
def ApiRequest.guardedBy : ApiRequest → Option String
  | .listAgents projectId | .createAgent projectId _ | .listMcp projectId | .createMcp projectId _
  | .pushMemory projectId _ | .searchMemory projectId _ _ | .approveMemory projectId _ | .rejectMemory projectId _ =>
    some projectId
  | .listMemory projectId status => if (status.mapM parseStatus).toOption.isSome then some projectId else none
  | _ => none

section

variable {σ α : Type} {codec : CloudCodec} {backend : StorageBackend σ} {orgId projectId : String}
  {state : CloudState σ} (absent : backend.getDocument (organizationScope orgId) RecordKind.project.collection projectId
    state.store = .ok none)

include absent

theorem exec_requireProject_bind (next : Project → CloudM σ α) :
    exec (requireProject codec backend orgId projectId >>= next) state =
      (.error (projectNotFound projectId), state) := by
  simp only [requireProject, getProject, findRecord, readStore, exec_bind, Program.exec_reads, absent, storageResult,
    Program.exec_pure, Option.mapM_none, Program.exec_ofExcept]
  rfl

end

def asAda (request : ApiRequest) : ApiCall := { claims := session "ada" "acme" "org:admin", request }

/-- A project with an agent is made, and deleted. -/
def siteDeleted : CloudState (InMemoryStorage Json Json) :=
  [.createProject { name := "Site" }, .createAgent "proj_1" { name := "Helper", provider := "p", model := "m" },
    .deleteProject "proj_1"].foldl (fun state request => (handle projectsOnly inMemoryBackend (asAda request) state).2)
    { store := {} }

end Codel00p.Cloud
