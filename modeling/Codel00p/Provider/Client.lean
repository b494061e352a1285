import Codel00p.Provider.Route

/-! Requests on routes: retries on one route, then the next route, and streams and catalogs. -/

namespace Codel00p

/-! ### What a response says about its routes -/

/-- The kind of a value that may be missing, by name. -/
def debugOr {β : Type} (debug : β → String) (value : Option β) : Json := Json.ofOption (value.map debug)

def namesField {β : Type} (key : String) (name : β → String) :
    Option (List β) → List (String × Json)
  | some values => [(key, .array (values.map fun value => .string (name value)))]
  | none => []

def ProviderCapabilities.toJson (capabilities : ProviderCapabilities) : Json :=
  .obj [("tools", .bool capabilities.tools), ("streaming", .bool capabilities.streaming),
    ("vision", .bool capabilities.vision), ("reasoning", .bool capabilities.reasoning)]

def capabilitiesField (key : String) (capabilities : ProviderCapabilities) : List (String × Json) :=
  if capabilities = {} then [] else [(key, capabilities.toJson)]

def ProviderRoutePolicy.toJson (policy : ProviderRoutePolicy) : Json :=
  .obj (namesField "allowed_models" id policy.allowedModels
    ++ namesField "allowed_auth_types" AuthType.debug policy.allowedAuthTypes
    ++ namesField "allowed_credential_kinds" CredentialKind.debug policy.allowedCredentialKinds
    ++ namesField "allowed_credential_source_kinds" CredentialSourceKind.debug policy.allowedCredentialSourceKinds
    ++ capabilitiesField "required_provider_capabilities" policy.requiredProviderCapabilities
    ++ capabilitiesField "required_model_capabilities" policy.requiredModelCapabilities)

/-- The fields that describe a route. -/
def routeMetadata (route : ResolvedInferenceRoute) (model : String) : List (String × Json) :=
  [("requested_provider", .string route.requestedProvider), ("provider", .string route.provider),
   ("model", .string model), ("api_mode", .string route.apiMode.debug),
   ("auth_type", .string route.authType.debug), ("base_url_source", .string route.baseUrlSource.debug),
   ("credential_source", Json.ofOption route.credentialSource),
   ("credential_source_kind", debugOr CredentialSourceKind.debug route.credentialSourceKind),
   ("credential_kind", debugOr CredentialKind.debug route.credentialKind),
   ("policy_decision", .string "Allowed"), ("policy", route.policy.toJson),
   ("models_url", Json.ofOption route.modelsUrl),
   ("output_token_parameter", .string route.outputTokenParameter.debug),
   ("capabilities", route.capabilities.toJson)]

/-- The entry of a route that brought a response. -/
def successfulAttempt (route : ResolvedInferenceRoute) (model : String) : Json :=
  .obj (routeMetadata route model ++ [("outcome", .string "success")])

def failedAttempt (route : Option ResolvedInferenceRoute) (provider model : String)
    (classified : ClassifiedProviderError) (outcome : String) : Json :=
  let described := match route with
    | some route => routeMetadata route model
    | none => [("requested_provider", .string provider), ("provider", .string provider),
        ("model", .string model)]
  let hint := match classified.retryAfterSecs with
    | some secs => [("retry_after_secs", Json.ofNat secs)]
    | none => []
  .obj (described ++ [("outcome", .string outcome), ("error_kind", .string classified.kind.debug)] ++ hint)

def routeReport (route : ResolvedInferenceRoute) (model : String) (attempts : List Json) : Json :=
  .obj [("selected", .obj (routeMetadata route model)), ("attempts", .array attempts)]

/-- Add to a response what it says about its routes. -/
def attachRouteMetadata (response : InferenceResponse) (route : ResolvedInferenceRoute) (model : String)
    (attempts : List Json) : InferenceResponse :=
  { response with
    providerData := Assoc.insert "codel00p_route" (routeReport route model attempts) response.providerData }

/-! ### Sending -/

/-- What a transport is handed in order to send a request. -/
structure Sent where
  apiMode : ApiMode
  provider : String
  baseUrl : String
  credential : Credential
  outputTokenParameter : OutputTokenParameter
  request : RouteRequest
  streaming : Bool

structure FailedRouteAttempt where
  route : Option ResolvedInferenceRoute
  error : ProviderError

abbrev Outcome := Except FailedRouteAttempt (ResolvedInferenceRoute × InferenceResponse)

structure RouteTry where
  request : RouteRequest
  outcome : Outcome

structure CatalogSent where
  provider : String
  modelsUrl : String
  credential : Credential

structure Traffic where
  sent : List Sent := []
  tries : List RouteTry := []
  listed : List CatalogSent := []

/-- The providers: how they answer may depend on all that went before. -/
structure Wire where
  answer : Traffic → Sent → Except ProviderError InferenceResponse
  catalog : Traffic → CatalogSent → Except ProviderError (List ProviderModel)

structure ModelCatalogRequest where
  provider : String
  baseUrl : Option String := none
  modelsUrl : Option String := none
  deriving DecidableEq, Repr

inductive ModelCatalogUrlSource where
  | requestModelsUrl
  | requestBaseUrl
  | providerDefault
  deriving DecidableEq, Repr

structure ProviderModelCatalog where
  requestedProvider : String
  provider : String
  authType : AuthType
  modelsUrl : String
  modelsUrlSource : ModelCatalogUrlSource
  credentialSource : Option String
  credentialSourceKind : Option CredentialSourceKind
  credentialKind : Option CredentialKind
  policyDecision : ProviderPolicyDecision
  policy : ProviderRoutePolicy
  catalogModelCount : Nat
  returnedModelCount : Nat
  models : List ProviderModel

namespace InferenceClient

variable (client : InferenceClient) (wire : Wire)

/-- Hand a request to its transport. -/
def send (sent : Sent) : Program ProviderError Traffic InferenceResponse := do
  let answer ← Program.perform fun traffic =>
    (wire.answer traffic sent, { traffic with sent := traffic.sent ++ [sent] })
  Program.ofExcept answer

/-- What the transport of a route is handed. -/
def sentOn (route : ResolvedInferenceRoute) (credential : Credential) (request : RouteRequest)
    (streaming : Bool) : Sent :=
  { apiMode := route.apiMode, provider := route.provider, baseUrl := route.baseUrl, credential,
    outputTokenParameter := route.outputTokenParameter, request, streaming }

def notImplemented (route : ResolvedInferenceRoute) : ProviderError :=
  .invalidResponse route.provider ("api mode " ++ route.apiMode.debug ++ " is not implemented yet")

def completeOne (request : RouteRequest) :
    Program FailedRouteAttempt Traffic (ResolvedInferenceRoute × InferenceResponse) :=
  match client.resolve request with
  | .error error => throw { route := none, error }
  | .ok route =>
    match client.credentialForRoute route request.provider with
    | none => throw { route := some route, error := .missingCredential route.provider }
    | some credential =>
      if route.apiMode = .externalProcess then
        throw { route := some route, error := notImplemented route }
      else do
        match ← Program.attempt (send wire (sentOn route credential request false)) with
        | .ok response => return (route, response)
        | .error error => throw { route := some route, error }

def tryOne (request : RouteRequest) : Program FailedRouteAttempt Traffic Outcome := do
  let outcome ← Program.attempt (client.completeOne wire request)
  Program.change fun traffic => { traffic with tries := traffic.tries ++ [{ request, outcome }] }
  return outcome

def retryLoop (request : RouteRequest) : (left attempt : Nat) →
    Program FailedRouteAttempt Traffic (ResolvedInferenceRoute × InferenceResponse)
  | left, attempt => do
    match ← client.tryOne wire request with
    | .ok success => return success
    | .error failed =>
      if client.retry.shouldRetry attempt (classifyProviderError failed.error).retryable then
        match left with
        -- The bound on attempts is reached no later than this, so that the loop never ends here.
        | 0 => throw failed
        | left + 1 => retryLoop request left (attempt + 1)
      else throw failed

def completeOneWithRetry (request : RouteRequest) :
    Program FailedRouteAttempt Traffic (ResolvedInferenceRoute × InferenceResponse) :=
  client.retryLoop wire request client.retry.maxRetries 0

def fallbackRequest (request : RouteRequest) (fallback : InferenceFallbackRoute) : RouteRequest :=
  { request with
    provider := fallback.provider, model := fallback.model, baseUrl := fallback.baseUrl,
    fallbackRoutes := [] }

def succeed (request : RouteRequest) (model : String) (attempts : List Json)
    (success : ResolvedInferenceRoute × InferenceResponse) : InferenceResponse :=
  let response := client.attachCostEstimate success.2 request success.1.provider model
  attachRouteMetadata response success.1 model (attempts ++ [successfulAttempt success.1 model])

def failedEntry (request : RouteRequest) (failed : FailedRouteAttempt) (follows : Bool) : Json :=
  let classified := classifyProviderError failed.error
  failedAttempt failed.route request.provider request.model classified
    (if classified.shouldFallback && follows then "fallback" else "error")

def fallbackLoop (request : RouteRequest) : List Json → ProviderError → List InferenceFallbackRoute →
    Program ProviderError Traffic InferenceResponse
  | _, lastError, [] => throw lastError
  | attempts, _, fallback :: fallbacks => do
    let fallbackRequest := fallbackRequest request fallback
    match ← Program.attempt (client.completeOneWithRetry wire fallbackRequest) with
    | .ok success => return client.succeed request fallback.model attempts success
    | .error failed =>
      if (classifyProviderError failed.error).shouldFallback then
        fallbackLoop request (attempts ++ [failedEntry fallbackRequest failed true]) failed.error fallbacks
      else throw failed.error

def complete (request : RouteRequest) : Program ProviderError Traffic InferenceResponse := do
  match ← Program.attempt (client.completeOneWithRetry wire request) with
  | .ok success => return client.succeed request request.model [] success
  | .error failed =>
    if (classifyProviderError failed.error).shouldFallback then
      client.fallbackLoop wire request [failedEntry request failed (!request.fallbackRoutes.isEmpty)]
        failed.error request.fallbackRoutes
    else throw failed.error

def completeStreaming (request : RouteRequest) : Program ProviderError Traffic InferenceResponse := do
  let route ← Program.ofExcept (client.resolve request)
  match client.credentialForRoute route request.provider with
  | none => throw (.missingCredential route.provider)
  | some credential =>
    let response ← if route.apiMode = .externalProcess then do
        match ← Program.attempt (client.completeOne wire request) with
        | .ok (_, response) => pure response
        | .error failed => throw failed.error
      else send wire (sentOn route credential request true)
    return client.succeed request request.model [] (route, response)

def trimEndSlashes (text : String) : String := String.ofList (text.toList.reverse.dropWhile (· == '/')).reverse

def catalogUrl (profile : ProviderProfile) (request : ModelCatalogRequest) :
    Except ProviderError (String × ModelCatalogUrlSource) :=
  match request.modelsUrl, request.baseUrl, profile.modelsUrl with
  | some modelsUrl, _, _ => .ok (modelsUrl, .requestModelsUrl)
  | none, some baseUrl, _ => .ok (trimEndSlashes baseUrl ++ "/models", .requestBaseUrl)
  | none, none, some modelsUrl => .ok (modelsUrl, .providerDefault)
  | none, none, none => .error (.missingBaseUrl profile.id)

def catalogCredential (profile : ProviderProfile) : Except ProviderError ResolvedProviderCredential :=
  match client.credentials.lookup profile.id with
  | some stored => .ok stored
  | none => .error (.missingCredential profile.id)

/-- All that is settled about a listing before it is sent. -/
def resolveCatalog (request : ModelCatalogRequest) :
    Except ProviderError (ProviderProfile × ResolvedProviderCredential × String × ModelCatalogUrlSource) := do
  let profile ← client.profileFor request.provider
  client.policy.checkProvider profile.id
  client.policy.checkProviderCapabilities profile.id profile.capabilities
  client.policy.checkAuthType profile.id profile.authType
  let (modelsUrl, modelsUrlSource) ← catalogUrl profile request
  let stored ← client.catalogCredential profile
  client.policy.checkCredentialKind profile.id (some stored.credential.kind)
  client.policy.checkCredentialSourceKind profile.id (some stored.sourceKind)
  match stored.credential with
  | .awsSigV4 _ _ _ _ => throw (.invalidResponse profile.id
      "model catalog listing does not support AWS SigV4 credentials yet")
  | _ => return (profile, stored, modelsUrl, modelsUrlSource)

def listModelCatalog (request : ModelCatalogRequest) : Program ProviderError Traffic ProviderModelCatalog := do
  let (profile, stored, modelsUrl, modelsUrlSource) ← Program.ofExcept (client.resolveCatalog request)
  let sent : CatalogSent := { provider := profile.id, modelsUrl, credential := stored.credential }
  let answer ← Program.perform fun traffic =>
    (wire.catalog traffic sent, { traffic with listed := traffic.listed ++ [sent] })
  let rawModels ← Program.ofExcept answer
  let models := client.policy.filterModels profile.id rawModels
  return {
    requestedProvider := request.provider, provider := profile.id, authType := profile.authType, modelsUrl,
    modelsUrlSource, credentialSource := some stored.source,
    credentialSourceKind := some stored.sourceKind, credentialKind := some stored.credential.kind,
    policyDecision := .allowed, policy := client.policy.routePolicy profile.id,
    catalogModelCount := rawModels.length, returnedModelCount := models.length, models }

end InferenceClient

end Codel00p
