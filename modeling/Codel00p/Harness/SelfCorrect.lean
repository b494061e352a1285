import Codel00p.Lib.Json

/-! In-turn error self-correction: failure classification, the failure budget, and the replan nudge. -/

namespace Codel00p

/-- A category of tool-call failure. -/
inductive ToolErrorKind where
  | missingDependency
  | permissionDenied
  | notFound
  | timeout
  | compileError
  | network
  | invalidInput
  | unknown
  deriving DecidableEq, Repr

namespace ToolErrorKind

/-- The stable snake_case identifier surfaced as `error_kind`. -/
def label : ToolErrorKind → String
  | .missingDependency => "missing_dependency"
  | .permissionDenied => "permission_denied"
  | .notFound => "not_found"
  | .timeout => "timeout"
  | .compileError => "compile_error"
  | .network => "network"
  | .invalidInput => "invalid_input"
  | .unknown => "unknown"

/-- A short, actionable hint for the model. -/
def hint : ToolErrorKind → Option String
  | .missingDependency => some
      ("the command failed because a required dependency or tool is missing; install it (or use an "
        ++ "already-available alternative) rather than retrying as-is")
  | .permissionDenied => some
      ("this was blocked by permissions; retrying the same way will not help — try a different "
        ++ "approach, a path you can access, or ask the user")
  | .notFound => some
      ("the target file, path, or resource does not exist; verify the location (list the directory "
        ++ "or search) before retrying")
  | .timeout => some
      ("the operation timed out; consider a smaller/faster command, a longer timeout, or splitting "
        ++ "the work rather than repeating the same call")
  | .compileError => some
      ("the code failed to compile or parse; read the reported error/location and fix the source "
        ++ "before re-running")
  | .network => some
      ("a network operation failed; the host may be unreachable or offline — avoid repeating it "
        ++ "blindly and consider an offline alternative or asking the user")
  | .invalidInput => some
      ("the tool rejected the input as invalid; match your arguments to the `expected_schema` in "
        ++ "this result (every required field, correct types) before retrying")
  | .unknown => none

end ToolErrorKind

/-- The texts each category is recognized by, the most specific category first. -/
def errorSignatures : List (ToolErrorKind × List String) :=
  [(.permissionDenied,
    ["permission denied", "operation not permitted", "access is denied", "eacces", "eperm",
     "must be run as root", "are you root", "sudo", "read-only file system",
     "denied by permission policy", "blocked by permission"]),
   (.missingDependency,
    ["command not found", ": not found", "is not recognized as an internal or external command",
     "no such command", "executable not found", "modulenotfounderror", "no module named",
     "cannot find module", "library not loaded", "shared object", "unable to locate package",
     "could not find a version that satisfies", "is not installed", "command 'cargo' not found"]),
   (.compileError,
    ["syntaxerror", "syntax error", "parse error", "error[e", "compilation failed",
     "could not compile", "expected one of", "unexpected token", "cannot find type",
     "mismatched types", "unterminated", "indentationerror"]),
   (.timeout, ["timed out", "timeout", "deadline exceeded", "etimedout", "operation timed out"]),
   (.network,
    ["connection refused", "connection reset", "could not resolve host", "name or service not known",
     "temporary failure in name resolution", "network is unreachable", "no route to host",
     "econnrefused", "enotfound", "dns", "tls handshake", "ssl error", "failed to connect"]),
   (.invalidInput,
    ["invalid input", "invalid argument", "invalid value", "invalid json", "failed to deserialize",
     "missing required", "unexpected argument", "unknown flag", "unrecognized option", "malformed"]),
   (.notFound,
    ["no such file or directory", "not found", "does not exist", "enoent", "cannot access", "404",
     "no such directory"])]

/-- Classify a failure text: the first category whose texts occur in it. -/
def classifyKind (message : String) : ToolErrorKind :=
  let lower := toAsciiLowercase message
  ((errorSignatures.find? fun (_, needles) => containsAny lower needles).map (·.1)).getD .unknown

/-- Per-turn tracker of consecutive failures by operation. -/
structure FailureTracker where
  counts : List (String × Nat) := []

namespace FailureTracker

variable (tracker : FailureTracker)

/-- The current consecutive-failure streak of an operation. -/
def streak (signature : String) : Nat := (tracker.counts.lookup signature).getD 0

/-- A success clears the streak. -/
def recordSuccess (signature : String) : FailureTracker := { counts := Assoc.erase signature tracker.counts }

def recordFailure (signature : String) : FailureTracker :=
  { counts := Assoc.insert signature (tracker.streak signature + 1) tracker.counts }

end FailureTracker

/-- What counts as the same operation across a turn. -/
def operationSignature (toolName : String) (input : Json) : String :=
  match toolName with
  | "run_command" =>
    let program := (input.getStr "program").getD ""
    let args := (((input.get "args").bind Json.asArray).map fun items =>
      " ".intercalate (items.filterMap Json.asStr)).getD ""
    trimEnd ("run_command:" ++ program ++ " " ++ args)
  | "run_checks" =>
    "run_checks:" ++ (input.getStr "check").getD "" ++ ":" ++ (input.getStr "command").getD ""
  | other => other

def resultIsFailure (content : Json) : Bool :=
  (content.get "error").isSome || match content.get "success" with
    | some (.bool false) => true
    | _ => false

/-- The most informative failure text of a result. -/
def failureMessage (codec : JsonCodec) (content : Json) : String :=
  match content.getStr "error" with
  | some error => error
  | none =>
    let stderr := (content.getStr "stderr").getD ""
    let stdout := (content.getStr "stdout").getD ""
    if !isBlank stderr then stderr
    else if (content.get "timed_out").bind Json.asBool = some true then "operation timed out"
    else if !isBlank stdout then stdout
    else codec.render content

/-- A schema small enough to be echoed back. -/
def compactSchema (codec : JsonCodec) (schema : Json) : Json :=
  if (codec.render schema).utf8ByteSize ≤ 2000 then schema
  else
    let properties := match schema.get "properties" with
      | some (.object properties) =>
        [("properties", Json.object (properties.map fun (name, spec) =>
          (name, Json.string ((spec.getStr "type").getD "any"))))]
      | _ => []
    .obj (((schema.get "type").map fun kind => ("type", kind)).toList
      ++ ((schema.get "required").map fun required => ("required", required)).toList ++ properties)

def enrichFailure (codec : JsonCodec) (content : Json) (message : String) (schema : Option Json) :
    Json :=
  match content with
  | .object fields =>
    let kind := classifyKind message
    let fields := Assoc.insertMissing "error_kind" (.string kind.label) fields
    let fields := match kind.hint with
      | some hint => Assoc.insertMissing "hint" (.string hint) fields
      | none => fields
    match kind, schema with
    | .invalidInput, some schema =>
      .object (Assoc.insertMissing "expected_schema" (compactSchema codec schema) fields)
    | _, _ => .object fields
  | other => other

/--
The step-back nudge for an operation that keeps failing.

A long error text is cut at 400 bytes, and cutting inside a character stops the program,
which is the case of no answer.
-/
def replanNudge (operation : String) (attempts : Nat) (lastError : String) (replan : Bool) :
    Option String := do
  let trimmed := trim lastError
  let excerpt ← if 400 < trimmed.utf8ByteSize then
      (sliceTo 400 trimmed.toList).map fun front => String.ofList front ++ "…"
    else some trimmed
  return "You have attempted `" ++ operation ++ "` and it has failed " ++ toString attempts
    ++ " times in a row with the same kind of error:\n" ++ excerpt
    ++ "\n\nStop repeating this exact operation — retrying it the same way will keep failing. Step "
    ++ "back and reconsider your approach: try a different command/tool, address the underlying "
    ++ "cause, or (if you are blocked) ask the user."
    ++ if replan then
      " If you are working from a plan, revisit and update it (via the planning tool) to reflect "
        ++ "this dead end before continuing."
    else ""

end Codel00p
