import Codel00p.Provider.Client

/-! Clients that find the same entries do the same with every request. -/

namespace Codel00p

open Program InferenceClient

def pricesByModel (prices : List (String × StoredUsagePricing)) (model : String) : Option StoredUsagePricing :=
  prices.lookup model

/-- Two clients find the same under every key. -/
structure SameLookups (client other : InferenceClient) : Prop where
  registry : client.registry = other.registry
  retry : client.retry = other.retry
  credentials : ∀ provider, client.credentials.lookup provider = other.credentials.lookup provider
  modelPricing : ∀ provider, (client.modelPricing.lookup provider).map pricesByModel =
    (other.modelPricing.lookup provider).map pricesByModel
  providerProxies : ∀ provider, client.providerProxies.lookup provider = other.providerProxies.lookup provider
  allowedProviders : client.policy.allowedProviders = other.policy.allowedProviders
  allowedModels : ∀ provider, client.policy.allowedModels.lookup provider = other.policy.allowedModels.lookup provider
  allowedCredentialKinds : ∀ provider, client.policy.allowedCredentialKinds.lookup provider =
    other.policy.allowedCredentialKinds.lookup provider
  allowedAuthTypes :
    ∀ provider, client.policy.allowedAuthTypes.lookup provider = other.policy.allowedAuthTypes.lookup provider
  allowedCredentialSourceKinds : ∀ provider, client.policy.allowedCredentialSourceKinds.lookup provider =
    other.policy.allowedCredentialSourceKinds.lookup provider
  requiredProviderCapabilities : ∀ provider, client.policy.requiredProviderCapabilities.lookup provider =
    other.policy.requiredProviderCapabilities.lookup provider
  requiredModelCapabilities : ∀ provider, client.policy.requiredModelCapabilities.lookup provider =
    other.policy.requiredModelCapabilities.lookup provider

section

variable {client other : InferenceClient}

section

variable (same : SameLookups client other)

include same

theorem SameLookups.price (provider model : String) : (client.modelPricing.lookup provider).bind (·.lookup model) =
      (other.modelPricing.lookup provider).bind (·.lookup model) := by
  have prices := same.modelPricing provider
  generalize client.modelPricing.lookup provider = mine at prices ⊢
  generalize other.modelPricing.lookup provider = others at prices ⊢
  cases mine with
  | none =>
    cases others with
    | none => rfl
    | some others => exact nomatch prices
  | some mine =>
    cases others with
    | none => exact nomatch prices
    | some others => exact congrFun (Option.some.inj prices) model

theorem SameLookups.routePolicy (provider : String) :
    client.policy.routePolicy provider = other.policy.routePolicy provider := by
  simp [ProviderPolicy.routePolicy, same.allowedModels, same.allowedAuthTypes, same.allowedCredentialKinds, same.allowedCredentialSourceKinds, same.requiredProviderCapabilities, same.requiredModelCapabilities]

/-! ### Requests -/

theorem SameLookups.resolve (request : RouteRequest) : client.resolve request = other.resolve request := by
  simp [InferenceClient.resolve, profileFor, routeBaseUrl, routeCredential, storedCredential, ProviderPolicy.checkProvider, ProviderPolicy.checkProviderCapabilities, ProviderPolicy.checkAuthType, ProviderPolicy.checkModel, ProviderPolicy.checkCredentialKind, ProviderPolicy.checkCredentialSourceKind, same.routePolicy, same.registry, same.providerProxies, same.credentials, same.allowedProviders, same.allowedModels, same.allowedAuthTypes, same.allowedCredentialKinds, same.allowedCredentialSourceKinds, same.requiredProviderCapabilities]

theorem SameLookups.credentialForRoute (route : ResolvedInferenceRoute)
    (requested : String) : client.credentialForRoute route requested = other.credentialForRoute route requested := by
  simp [InferenceClient.credentialForRoute, storedCredential, same.providerProxies, same.credentials]

theorem SameLookups.attachCostEstimate (response : InferenceResponse)
    (request : RouteRequest) (provider model : String) : client.attachCostEstimate response request provider model =
      other.attachCostEstimate response request provider model := by
  have stored : ∀ {α : Type} (next : StoredUsagePricing → Option α),
      ((client.modelPricing.lookup provider).bind fun prices => (prices.lookup model).bind next) =
        (other.modelPricing.lookup provider).bind fun prices => (prices.lookup model).bind next := by
    intro α next
    rw [← Option.bind_assoc, ← Option.bind_assoc, same.price]
  have prices : client.pricingForResponse request provider model =
      other.pricingForResponse request provider model := by
    rw [pricingForResponse, pricingForResponse]
    cases request.pricing with
    | some pricing => rfl
    | none => exact stored _
  rw [InferenceClient.attachCostEstimate, InferenceClient.attachCostEstimate, prices]

section

variable (wire : Wire)

include wire

section

variable (request : RouteRequest)

include request

theorem SameLookups.completeOne : client.completeOne wire request = other.completeOne wire request := by
  simp [InferenceClient.completeOne, same.resolve, same.credentialForRoute]

theorem SameLookups.retryLoop (left : Nat) :
    ∀ attempt, client.retryLoop wire request left attempt = other.retryLoop wire request left attempt := by
  induction left with
  | zero =>
    intro attempt
    rw [InferenceClient.retryLoop, InferenceClient.retryLoop]
    simp [tryOne, same.completeOne, same.retry]
  | succ left ih =>
    intro attempt
    rw [InferenceClient.retryLoop, InferenceClient.retryLoop]
    simp [tryOne, same.completeOne, same.retry, ih]

theorem SameLookups.complete : client.complete wire request = other.complete wire request := by
  have route : ∀ request, client.completeOneWithRetry wire request = other.completeOneWithRetry wire request :=
    fun request => by rw [completeOneWithRetry, completeOneWithRetry, same.retryLoop, same.retry]
  have succeed : client.succeed = other.succeed := by
    funext request model attempts success
    rw [InferenceClient.succeed, InferenceClient.succeed, same.attachCostEstimate]
  have fallback : ∀ fallbacks attempts lastError, client.fallbackLoop wire request attempts lastError fallbacks =
      other.fallbackLoop wire request attempts lastError fallbacks := by
    intro fallbacks
    induction fallbacks with
    | nil => exact fun _ _ => rfl
    | cons first fallbacks ih =>
      intro attempts lastError
      rw [fallbackLoop, fallbackLoop]
      simp [route, succeed, ih]
  simp [InferenceClient.complete, route, succeed, fallback]

theorem SameLookups.completeStreaming :
    client.completeStreaming wire request = other.completeStreaming wire request := by
  simp [InferenceClient.completeStreaming, same.resolve, same.credentialForRoute, same.completeOne, InferenceClient.succeed, same.attachCostEstimate]

end

theorem SameLookups.listModelCatalog (request : ModelCatalogRequest) :
    client.listModelCatalog wire request = other.listModelCatalog wire request := by
  have settled : client.resolveCatalog request = other.resolveCatalog request := by
    simp [resolveCatalog, profileFor, catalogCredential, ProviderPolicy.checkProvider, ProviderPolicy.checkProviderCapabilities, ProviderPolicy.checkAuthType, ProviderPolicy.checkCredentialKind, ProviderPolicy.checkCredentialSourceKind, same.registry, same.credentials, same.allowedProviders, same.allowedAuthTypes, same.allowedCredentialKinds, same.allowedCredentialSourceKinds, same.requiredProviderCapabilities]
  simp [InferenceClient.listModelCatalog, settled, same.routePolicy, ProviderPolicy.filterModels, same.allowedModels, same.requiredModelCapabilities]

end

end

end

end Codel00p
