import Codel00p.Harness.Permission

/-! Lifecycle events of a turn and the usage totals they report. -/

namespace Codel00p

/-- The largest value of a 64-bit counter. -/
def maxU64 : Nat := 2 ^ 64 - 1

/-- Addition that stops at the largest 64-bit value. -/
def saturatingAdd (a b : Nat) : Nat := min (a + b) maxU64

/-- Tokens of one inference or of a whole turn. -/
structure TokenUsage where
  inputTokens : Nat := 0
  outputTokens : Nat := 0
  cacheReadTokens : Nat := 0
  cacheWriteTokens : Nat := 0
  reasoningTokens : Nat := 0
  deriving DecidableEq, Repr

/-- Accumulate another usage record. -/
def TokenUsage.add (usage other : TokenUsage) : TokenUsage :=
  { inputTokens := saturatingAdd usage.inputTokens other.inputTokens,
    outputTokens := saturatingAdd usage.outputTokens other.outputTokens,
    cacheReadTokens := saturatingAdd usage.cacheReadTokens other.cacheReadTokens,
    cacheWriteTokens := saturatingAdd usage.cacheWriteTokens other.cacheWriteTokens,
    reasoningTokens := saturatingAdd usage.reasoningTokens other.reasoningTokens }

structure CostEstimate where
  currency : String := ""
  totalNanos : Nat := 0
  deriving DecidableEq, Repr

/-- Accumulate another cost; the first currency seen stays. -/
def CostEstimate.add (cost other : CostEstimate) : CostEstimate :=
  { currency := if cost.currency.isEmpty then other.currency else cost.currency,
    totalNanos := saturatingAdd cost.totalNanos other.totalNanos }

/-- What an event reports. -/
inductive EventKind where
  | turnStarted
  | contextBuilt (messageCount : Nat)
  | contextManifest (instructionSources injectedMemoryIds advertisedTools skillNames : List String)
      (messageCount : Nat)
  | contextCompacted (beforeMessageCount afterMessageCount : Nat) (summary : Option String)
  | inferenceRequested (provider model : String)
  | inferenceCompleted (finishReason : Option String) (usage : Option TokenUsage)
      (cost : Option CostEstimate)
  | toolCallRequested (toolName : String)
  | toolCallCompleted (toolName : String)
  | toolCallFailed (toolName message : String)
  | permissionRequested (toolName requestId : String) (scope : PermissionScope)
  | permissionDenied (toolName requestId message : String)
  | toolProgress (toolName phase : String) (message : Option String)
  | lifecycleHookFailed (hook message : String)
  | verificationCompleted (check command : String) (success : Bool) (exitCode : Option Int)
      (attempt : Nat)
  | selfCritiqueCompleted (producedToolCalls : Bool)
  | failureBudgetExceeded (operation : String) (attempts : Nat) (errorKind : String)
  | turnCompleted (iterations : Nat) (usage : Option TokenUsage) (cost : Option CostEstimate)
      (verified : Option Bool)
  deriving DecidableEq, Repr

structure HarnessEvent where
  sessionId : String
  turnId : String
  kind : EventKind
  deriving DecidableEq, Repr

end Codel00p
