import Codel00p.Lib.Text

/-! Errors of providers, and what a client may do about them. -/

namespace Codel00p

/-- Errors returned by provider resolution, request building, and transports. -/
inductive ProviderError where
  | unknownProvider (provider : String)
  | missingBaseUrl (provider : String)
  | missingCredential (provider : String)
  | policyDenied (provider reason : String)
  | invalidResponse (provider message : String)
  | http (provider message : String)
  deriving DecidableEq, Repr

def ProviderError.message : ProviderError → String
  | .unknownProvider provider => "unknown provider `" ++ provider ++ "`"
  | .missingBaseUrl provider => "provider `" ++ provider ++ "` requires a base URL"
  | .missingCredential provider => "provider `" ++ provider ++ "` requires credentials"
  | .policyDenied provider reason => "provider `" ++ provider ++ "` was denied by policy: " ++ reason
  | .invalidResponse provider message => "invalid response from provider `" ++ provider ++ "`: " ++ message
  | .http provider message => "http request to provider `" ++ provider ++ "` failed: " ++ message

/-- A `Retry-After` header in whole seconds; any other form is no hint. -/
def retryAfterSeconds (header : Option String) : Option Nat := header.bind fun text => parseUsize (trim text)

/-- The error of a response whose status, given with its reason, is no success. -/
def httpStatusError (provider status body : String) (retryAfter : Option Nat) : ProviderError :=
  match retryAfter with
  | some secs => .http provider ("status " ++ status ++ " (retry-after: " ++ toString secs ++ "s): " ++ body)
  | none => .http provider ("status " ++ status ++ ": " ++ body)

/-- Kinds of errors that a run may end in. -/
inductive RuntimeErrorKind where
  | providerAuth
  | providerRateLimit
  | providerBilling
  | providerUnavailable
  | modelUnavailable
  | contextOverflow
  | payloadTooLarge
  | permissionDenied
  | toolExecution
  | invalidToolInput
  | cancelled
  | iterationLimit
  | storage
  | unknown
  deriving DecidableEq, Repr

/-- The name of a kind as it is shown. -/
def RuntimeErrorKind.debug : RuntimeErrorKind → String
  | .providerAuth => "ProviderAuth"
  | .providerRateLimit => "ProviderRateLimit"
  | .providerBilling => "ProviderBilling"
  | .providerUnavailable => "ProviderUnavailable"
  | .modelUnavailable => "ModelUnavailable"
  | .contextOverflow => "ContextOverflow"
  | .payloadTooLarge => "PayloadTooLarge"
  | .permissionDenied => "PermissionDenied"
  | .toolExecution => "ToolExecution"
  | .invalidToolInput => "InvalidToolInput"
  | .cancelled => "Cancelled"
  | .iterationLimit => "IterationLimit"
  | .storage => "Storage"
  | .unknown => "Unknown"

/-- An error, and what may be done about it. -/
structure ClassifiedProviderError where
  kind : RuntimeErrorKind
  retryable : Bool := false
  shouldCompress : Bool := false
  shouldRotateCredential : Bool := false
  shouldFallback : Bool := false
  retryAfterSecs : Option Nat := none
  deriving DecidableEq, Repr

/-- The hint of a message that was put there from the header, in lower case. -/
def parseRetryAfter (message : String) : Option Nat := do
  let (_, after) ← splitOnce message "retry-after:"
  -- Only the piece up to the next occurrence is looked at.
  let piece := ((splitOnce after "retry-after:").map (·.1)).getD after
  let digits := ((piece.toList.dropWhile isWhitespace).takeWhile Char.isDigit)
  parseUsize (String.ofList digits)

/-- Classify an error of a transport by what its message says. -/
def classifyMessage (text : String) : ClassifiedProviderError :=
  let message := toAsciiLowercase text
  let retryAfterSecs := parseRetryAfter message
  if containsAny message ["context length", "maximum context", "too many tokens"] then
    { kind := .contextOverflow, shouldCompress := true }
  else if containsAny message ["payload too large", "request entity too large", "413"] then
    { kind := .payloadTooLarge, shouldCompress := true }
  else if containsAny message ["rate limit", "too many requests", "429", "throttled"] then
    { kind := .providerRateLimit, retryable := true, shouldFallback := true, retryAfterSecs }
  else if containsAny message ["401", "403", "unauthorized", "invalid api key"] then
    { kind := .providerAuth, shouldRotateCredential := true }
  else if containsAny message ["model not found", "unknown model", "invalid model"] then
    { kind := .modelUnavailable, shouldFallback := true }
  else if containsAny message ["503", "529", "overloaded", "temporarily unavailable"] then
    { kind := .providerUnavailable, retryable := true, shouldFallback := true, retryAfterSecs }
  else { kind := .unknown }

def classifyProviderError : ProviderError → ClassifiedProviderError
  | .missingCredential _ => { kind := .providerAuth, shouldRotateCredential := true }
  | .policyDenied _ _ => { kind := .permissionDenied }
  | .missingBaseUrl _ | .unknownProvider _ => { kind := .unknown }
  | .invalidResponse _ message | .http _ message => classifyMessage message

end Codel00p
