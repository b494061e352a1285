import Codel00p.Harness.Event

/-! Responses of providers, and what they cost. -/

namespace Codel00p

structure ToolCall where
  id : Option String
  name : String
  arguments : Json
  providerData : List (String × Json) := []

/-- Normalized usage counters. -/
structure Usage where
  inputTokens : Nat := 0
  outputTokens : Nat := 0
  cacheReadTokens : Nat := 0
  cacheWriteTokens : Nat := 0
  reasoningTokens : Nat := 0
  deriving DecidableEq, Repr

structure UsagePricing where
  currency : String
  inputNanosPerMillionTokens : Nat
  outputNanosPerMillionTokens : Nat
  cacheReadNanosPerMillionTokens : Nat := 0
  cacheWriteNanosPerMillionTokens : Nat := 0
  reasoningNanosPerMillionTokens : Nat := 0
  deriving DecidableEq, Repr

structure UsageCostEstimate where
  currency : String
  pricingSource : Option String
  inputNanos : Nat
  outputNanos : Nat
  cacheReadNanos : Nat
  cacheWriteNanos : Nat
  reasoningNanos : Nat
  totalNanos : Nat
  deriving DecidableEq, Repr

structure InferenceResponse where
  content : Option String
  toolCalls : List ToolCall := []
  finishReason : Option String := none
  reasoning : Option String := none
  usage : Option Usage := none
  cost : Option UsageCostEstimate := none
  providerData : List (String × Json) := []

/-- A part of the cost, rounded up. -/
def estimateComponentNanos (tokens nanosPerMillionTokens : Nat) : Nat :=
  min ((tokens * nanosPerMillionTokens + 999999) / 1000000) maxU64

def Usage.estimateCost (usage : Usage) (pricing : UsagePricing) : UsageCostEstimate :=
  let inputNanos := estimateComponentNanos usage.inputTokens pricing.inputNanosPerMillionTokens
  let outputNanos := estimateComponentNanos usage.outputTokens pricing.outputNanosPerMillionTokens
  let cacheReadNanos := estimateComponentNanos usage.cacheReadTokens pricing.cacheReadNanosPerMillionTokens
  let cacheWriteNanos := estimateComponentNanos usage.cacheWriteTokens pricing.cacheWriteNanosPerMillionTokens
  let reasoningNanos := estimateComponentNanos usage.reasoningTokens pricing.reasoningNanosPerMillionTokens
  { currency := pricing.currency, pricingSource := none, inputNanos, outputNanos, cacheReadNanos,
    cacheWriteNanos, reasoningNanos,
    totalNanos := [outputNanos, cacheReadNanos, cacheWriteNanos, reasoningNanos].foldl saturatingAdd inputNanos }

end Codel00p
