import Codel00p.Provider.Route

/-! Building a client: entries are kept under the names as they are written until the client is built. -/

namespace Codel00p

structure InferenceClientBuilder where
  registry : ProviderRegistry := defaultRegistry
  credentials : List (String × ResolvedProviderCredential) := []
  policy : ProviderPolicy := {}
  modelPricing : List (String × List (String × StoredUsagePricing)) := []
  providerProxies : List (String × ProviderProxyRoute) := []
  retry : RetryPolicy := {}

structure ProviderModelPricing where
  provider : String
  model : String
  pricing : UsagePricing
  deriving DecidableEq, Repr

structure ProviderPricingCatalog where
  source : Option String := none
  entries : List ProviderModelPricing
  deriving DecidableEq, Repr

namespace InferenceClientBuilder

variable (builder : InferenceClientBuilder)

def insertCredential (provider : String) (stored : ResolvedProviderCredential) : InferenceClientBuilder :=
  { builder with credentials := Assoc.insert provider stored builder.credentials }

def credential (provider : String) (credential : Credential) : InferenceClientBuilder :=
  builder.insertCredential provider { credential, source := "configured", sourceKind := .configured }

def organizationCredential (provider : String) (credential : Credential) (organizationRef : String) :
    InferenceClientBuilder :=
  builder.insertCredential provider
    { credential, source := "organization:" ++ organizationRef, sourceKind := .organization }

def managedIdentityCredential (provider : String) (credential : Credential) (identityRef : String) :
    InferenceClientBuilder :=
  builder.insertCredential provider
    { credential, source := "managed_identity:" ++ identityRef, sourceKind := .managedIdentity }

def loadedCredentials (registry : ProviderRegistry) (environment : String → Option String) :
    List (String × ResolvedProviderCredential) :=
  registry.profiles.filterMap fun profile =>
    (registry.credentialFromEnv environment profile.id).map fun credential => (profile.id, credential)

def credentialsFromEnv (environment : String → Option String) : InferenceClientBuilder :=
  { builder with
    credentials := (loadedCredentials builder.registry environment).foldl
      (fun credentials (provider, credential) => Assoc.insertMissing provider credential credentials)
      builder.credentials }

def insertPricing (provider model : String) (stored : StoredUsagePricing) : InferenceClientBuilder :=
  { builder with
    modelPricing := Assoc.insert provider
      (Assoc.insert model stored ((builder.modelPricing.lookup provider).getD [])) builder.modelPricing }

def pricing (provider model : String) (pricing : UsagePricing) : InferenceClientBuilder :=
  builder.insertPricing provider model { pricing, source := "configured" }

def pricingCatalog (catalog : ProviderPricingCatalog) : InferenceClientBuilder :=
  let source := catalog.source.getD "catalog"
  catalog.entries.foldl
    (fun builder entry => builder.insertPricing entry.provider entry.model { pricing := entry.pricing, source })
    builder

def providerProxy (provider baseUrl : String) (credential : Credential) : InferenceClientBuilder :=
  { builder with
    providerProxies := Assoc.insert provider { baseUrl, credential } builder.providerProxies }

def build : InferenceClient where
  registry := builder.registry
  credentials := rekey builder.registry builder.credentials
  policy := builder.policy.canonicalize builder.registry
  modelPricing := rekey builder.registry builder.modelPricing
  providerProxies := rekey builder.registry builder.providerProxies
  retry := builder.retry

end InferenceClientBuilder

end Codel00p
