import Codel00p.Harness.ProviderAdapter
import Codel00p.Provider.Policy

/-! Routes: where a request goes to, with which credential, and whether the policy lets it. -/

namespace Codel00p

/-- Provider and model candidate used if the primary route can safely fall back. -/
structure InferenceFallbackRoute where
  provider : String
  model : String
  baseUrl : Option String := none
  deriving DecidableEq, Repr

/--
A request with all that decides about its route.

The deployment is the name under which a tenant of Azure has made a model available.
It is part of the address of the request, and no policy is about it.
-/
structure RouteRequest extends InferenceRequest where
  baseUrl : Option String := none
  deployment : Option String := none
  apiVersion : Option String := none
  fallbackRoutes : List InferenceFallbackRoute := []
  pricing : Option UsagePricing := none

inductive RouteValueSource where
  | requestOverride
  | cloudProxy
  | providerDefault
  deriving DecidableEq, Repr

/-- The name of a source as it is shown. -/
def RouteValueSource.debug : RouteValueSource → String
  | .requestOverride => "RequestOverride"
  | .cloudProxy => "CloudProxy"
  | .providerDefault => "ProviderDefault"

/-- Provider policy decision attached to a resolved route; no route is made for any other one. -/
inductive ProviderPolicyDecision where
  | allowed
  deriving DecidableEq, Repr

/-- Resolved runtime route for an inference request. -/
structure ResolvedInferenceRoute where
  requestedProvider : String
  provider : String
  apiMode : ApiMode
  authType : AuthType
  baseUrl : String
  baseUrlSource : RouteValueSource
  credentialSource : Option String
  credentialSourceKind : Option CredentialSourceKind
  credentialKind : Option CredentialKind
  policyDecision : ProviderPolicyDecision
  policy : ProviderRoutePolicy
  capabilities : ProviderCapabilities
  modelsUrl : Option String
  outputTokenParameter : OutputTokenParameter
  deriving DecidableEq, Repr

structure ProviderProxyRoute where
  baseUrl : String
  credential : Credential
  deriving DecidableEq, Repr

structure StoredUsagePricing where
  pricing : UsagePricing
  source : String
  deriving DecidableEq, Repr

/-- Retry policy applied per route; how long is waited in between is not modelled. -/
structure RetryPolicy where
  /-- Maximum retries after the first attempt. -/
  maxRetries : Nat := 2
  deriving DecidableEq, Repr

/-- Whether a failure is followed by another attempt. -/
def RetryPolicy.shouldRetry (retry : RetryPolicy) (attempt : Nat) (retryable : Bool) : Bool :=
  retryable && attempt < retry.maxRetries

/-- High-level inference facade. -/
structure InferenceClient where
  registry : ProviderRegistry
  credentials : List (String × ResolvedProviderCredential)
  policy : ProviderPolicy
  modelPricing : List (String × List (String × StoredUsagePricing))
  providerProxies : List (String × ProviderProxyRoute)
  retry : RetryPolicy

namespace InferenceClient

variable (client : InferenceClient)

def routeBaseUrl (profile : ProviderProfile) (request : RouteRequest) :
    Except ProviderError (String × RouteValueSource) :=
  match request.baseUrl, client.providerProxies.lookup profile.id, profile.defaultBaseUrl with
  | some baseUrl, _, _ => .ok (baseUrl, .requestOverride)
  | none, some proxy, _ => .ok (proxy.baseUrl, .cloudProxy)
  | none, none, some baseUrl => .ok (baseUrl, .providerDefault)
  | none, none, none => .error (.missingBaseUrl profile.id)

def storedCredential (provider requested : String) : Option ResolvedProviderCredential :=
  (client.credentials.lookup provider).or (client.credentials.lookup requested)

def routeCredential (profile : ProviderProfile) (requested : String) (source : RouteValueSource) :
    Option String × Option CredentialSourceKind × Option CredentialKind :=
  if source = .cloudProxy then
    match client.providerProxies.lookup profile.id with
    | some proxy => (some "cloud_proxy", some .cloudProxy, some proxy.credential.kind)
    | none => (none, none, none)
  else
    let stored := client.storedCredential profile.id requested
    (stored.map (·.source), stored.map (·.sourceKind), stored.map (·.credential.kind))

def profileFor (provider : String) : Except ProviderError ProviderProfile :=
  match client.registry.resolve provider with
  | some profile => .ok profile
  | none => .error (.unknownProvider provider)

/-- How a request authenticates itself. -/
def routeAuthType (profile : ProviderProfile) (source : RouteValueSource) : AuthType :=
  if source = .cloudProxy then .cloudProxy else profile.authType

/-- Resolve provider, API mode, base URL and credential presence without sending a request. -/
def resolve (request : RouteRequest) : Except ProviderError ResolvedInferenceRoute := do
  let profile ← client.profileFor request.provider
  let (baseUrl, baseUrlSource) ← client.routeBaseUrl profile request
  let (credentialSource, credentialSourceKind, credentialKind) :=
    client.routeCredential profile request.provider baseUrlSource
  let authType := routeAuthType profile baseUrlSource
  client.policy.checkProvider profile.id
  client.policy.checkProviderCapabilities profile.id profile.capabilities
  client.policy.checkAuthType profile.id authType
  client.policy.checkModel profile.id request.model
  client.policy.checkCredentialKind profile.id credentialKind
  client.policy.checkCredentialSourceKind profile.id credentialSourceKind
  return {
    requestedProvider := request.provider, provider := profile.id, apiMode := profile.apiMode, authType,
    baseUrl, baseUrlSource, credentialSource, credentialSourceKind, credentialKind,
    policyDecision := .allowed, policy := client.policy.routePolicy profile.id,
    capabilities := profile.capabilities, modelsUrl := profile.modelsUrl,
    outputTokenParameter := profile.outputTokenParameter }

def credentialForRoute (route : ResolvedInferenceRoute) (requestedProvider : String) : Option Credential :=
  if route.baseUrlSource = .cloudProxy then
    (client.providerProxies.lookup route.provider).map (·.credential)
  else (client.storedCredential route.provider requestedProvider).map (·.credential)

def pricingForResponse (request : RouteRequest) (provider model : String) : Option (UsagePricing × String) :=
  match request.pricing with
  | some pricing => some (pricing, "request")
  | none => do
    let stored ← (← client.modelPricing.lookup provider).lookup model
    return (stored.pricing, stored.source)

def attachCostEstimate (response : InferenceResponse) (request : RouteRequest) (provider model : String) :
    InferenceResponse :=
  match response.usage, client.pricingForResponse request provider model with
  | some usage, some (pricing, source) =>
    { response with cost := some { usage.estimateCost pricing with pricingSource := some source } }
  | _, _ => response

end InferenceClient

end Codel00p
