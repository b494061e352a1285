import Codel00p.Gateway.Command
import Codel00p.Harness.Pipeline

/-! Approvals that are awaited, one file for each conversation, and the policy that waits for them. -/

namespace Codel00p.Gateway

/-- A request that awaits the decision of a chat user. -/
structure PendingApproval where
  conversation : String
  tool : String
  detail : String
  deriving DecidableEq, Repr

/-- What became of a request. -/
inductive ApprovalOutcome where
  | approved
  | denied
  | nothing
  deriving DecidableEq, Repr

/-- The files of a store by name; one that cannot be read or makes no sense has no content. -/
abbrev ApprovalStore := List (String × Option PendingApproval)

structure WriteFault where
  message : String
  /-- Whether the file was cut off before the write failed. -/
  damages : Bool
  deriving DecidableEq, Repr

/-- A write to a store: the name of a file and its content. -/
abbrev ApprovalWrite := String × Option PendingApproval

def fileName (conversation : String) : String := sanitizeConversation conversation ++ ".json"

def recordApproval (fault : Option WriteFault) (conversation tool detail : String) :
    Except String Unit × List ApprovalWrite :=
  match fault with
  | none => (.ok (), [(fileName conversation, some { conversation, tool, detail })])
  | some fault =>
    (.error ("approval store i/o error: " ++ fault.message),
      if fault.damages then [(fileName conversation, none)] else [])

namespace ApprovalStore

variable (store : ApprovalStore)

/-- Write files one after the other; a file that is there is replaced. -/
def write (writes : List ApprovalWrite) : ApprovalStore :=
  writes.foldl (fun store (name, content) => Assoc.insert name content store) store

def pending (conversation : String) : Option PendingApproval := (store.lookup (fileName conversation)).bind id

def resolve (removable : Bool) (conversation : String) (approved : Bool) : ApprovalOutcome × ApprovalStore :=
  if (store.lookup (fileName conversation)).isNone then (.nothing, store)
  else
    (if approved then .approved else .denied,
      if removable then Assoc.erase (fileName conversation) store else store)

end ApprovalStore

/-- The most characters of an input that are shown. -/
def maxDetail : Nat := 200

/-- What a chat user is shown of a request: its command, or the start of its input. -/
def describePermissionRequest (codec : JsonCodec) (request : PermissionRequest) : String :=
  match request.input.getStr "command" with
  | some command => trim command
  | none =>
    let rendered := if request.input.isNull then "" else codec.render request.input
    if maxDetail < rendered.length then String.ofList (rendered.toList.take maxDetail) ++ "…" else rendered

/--
What a turn of the gateway works on: the approvals, the grant it was started with, and all else.

No one reads the approvals during a turn, so they are what the turn has written so far.
-/
structure GatewayHost (ω : Type) where
  written : List ApprovalWrite := []
  /-- The tool that may run once, until it does. -/
  granted : Option String
  host : ω

variable {ω : Type}

/-- All else is replaced. -/
def GatewayHost.withHost (host : ω) (whole : GatewayHost ω) : GatewayHost ω := { whole with host }

/-- The policy that asks a chat user: it uses up the grant, or records the request and denies it. -/
def gatewayApprovalPolicy (codec : JsonCodec) (fault : ω → Option WriteFault) (conversation : String) :
    PermissionPolicy (GatewayHost ω) where
  decide request whole :=
    -- Reading never needs the consent of a chat user.
    if request.scope = .readOnly then (.ok (.allow request.requestId .allow), whole)
    else if whole.granted = some request.toolName then
      (.ok (.allow request.requestId .ask), { whole with granted := none })
    else
      let (recorded, writes) := recordApproval (fault whole.host) conversation request.toolName
        (describePermissionRequest codec request)
      let whole := { whole with written := whole.written ++ writes }
      match recorded with
      | .ok () =>
        (.ok (.deny request.requestId .ask ("awaiting remote /approve for " ++ request.toolName)), whole)
      | .error error =>
        (.error (.toolFailed request.toolName ("failed to record approval request: " ++ error)), whole)

end Codel00p.Gateway
