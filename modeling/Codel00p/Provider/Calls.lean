import Codel00p.Provider.Builder

/-! Sequences of calls on a builder, and the entries that they are about. -/

namespace Codel00p

open Assoc (written_append Updates)

inductive PolicyEntry where
  | allowedModels (provider : String) (models : List String)
  | allowedCredentialKinds (provider : String) (kinds : List CredentialKind)
  | allowedAuthTypes (provider : String) (authTypes : List AuthType)
  | allowedCredentialSourceKinds (provider : String) (kinds : List CredentialSourceKind)
  | requiredProviderCapabilities (provider : String) (capabilities : ProviderCapabilities)
  | requiredModelCapabilities (provider : String) (capabilities : ProviderCapabilities)

def PolicyEntry.addTo (policy : ProviderPolicy) : PolicyEntry → ProviderPolicy
  | .allowedModels provider models => policy.withAllowedModels provider models
  | .allowedCredentialKinds provider kinds => policy.withAllowedCredentialKinds provider kinds
  | .allowedAuthTypes provider authTypes => policy.withAllowedAuthTypes provider authTypes
  | .allowedCredentialSourceKinds provider kinds => policy.withAllowedCredentialSourceKinds provider kinds
  | .requiredProviderCapabilities provider capabilities =>
    policy.withRequiredProviderCapabilities provider capabilities
  | .requiredModelCapabilities provider capabilities =>
    policy.withRequiredModelCapabilities provider capabilities

structure PolicySpec where
  allowOnly : Option (List String) := none
  entries : List PolicyEntry := []

def PolicySpec.policy (spec : PolicySpec) : ProviderPolicy :=
  spec.entries.foldl PolicyEntry.addTo { allowedProviders := spec.allowOnly }

inductive BuilderCall where
  | registry (registry : ProviderRegistry)
  | retryPolicy (retry : RetryPolicy)
  | credential (provider : String) (credential : Credential)
  | organizationCredential (provider : String) (credential : Credential) (organizationRef : String)
  | managedIdentityCredential (provider : String) (credential : Credential) (identityRef : String)
  | credentialsFromEnv (environment : String → Option String)
  | policy (spec : PolicySpec)
  | modelPricing (provider model : String) (pricing : UsagePricing)
  | pricingCatalog (catalog : ProviderPricingCatalog)
  | providerProxy (provider baseUrl : String) (credential : Credential)

def BuilderCall.apply (builder : InferenceClientBuilder) : BuilderCall → InferenceClientBuilder
  | .registry chosen => { builder with registry := chosen }
  | .retryPolicy retry => { builder with retry }
  | .credential provider secret => builder.credential provider secret
  | .organizationCredential provider secret organizationRef =>
    builder.organizationCredential provider secret organizationRef
  | .managedIdentityCredential provider secret identityRef =>
    builder.managedIdentityCredential provider secret identityRef
  | .credentialsFromEnv environment => builder.credentialsFromEnv environment
  | .policy spec => { builder with policy := spec.policy }
  | .modelPricing provider model pricing => builder.pricing provider model pricing
  | .pricingCatalog catalog => builder.pricingCatalog catalog
  | .providerProxy provider baseUrl secret => builder.providerProxy provider baseUrl secret

def PolicyEntry.rename (name : String → String) : PolicyEntry → PolicyEntry
  | .allowedModels provider models => .allowedModels (name provider) models
  | .allowedCredentialKinds provider kinds => .allowedCredentialKinds (name provider) kinds
  | .allowedAuthTypes provider authTypes => .allowedAuthTypes (name provider) authTypes
  | .allowedCredentialSourceKinds provider kinds => .allowedCredentialSourceKinds (name provider) kinds
  | .requiredProviderCapabilities provider capabilities =>
    .requiredProviderCapabilities (name provider) capabilities
  | .requiredModelCapabilities provider capabilities => .requiredModelCapabilities (name provider) capabilities

def BuilderCall.rename (name : String → String) : BuilderCall → BuilderCall
  | .credential provider secret => .credential (name provider) secret
  | .organizationCredential provider secret organizationRef =>
    .organizationCredential (name provider) secret organizationRef
  | .managedIdentityCredential provider secret identityRef =>
    .managedIdentityCredential (name provider) secret identityRef
  | .policy spec =>
    .policy { allowOnly := spec.allowOnly.map (·.map name), entries := spec.entries.map (·.rename name) }
  | .modelPricing provider model pricing => .modelPricing (name provider) model pricing
  | .pricingCatalog catalog =>
    .pricingCatalog { catalog with
      entries := catalog.entries.map fun entry => { entry with provider := name entry.provider } }
  | .providerProxy provider baseUrl secret => .providerProxy (name provider) baseUrl secret
  | call => call

def builderOf (calls : List BuilderCall) : InferenceClientBuilder := calls.foldl BuilderCall.apply {}

/-! ### The entries that calls are about -/

def replacing {β : Type} (provider : String) (value : β) : String × (Option β → β) := (provider, fun _ => value)

/-- All entries under the names as they are written, in the order of the calls. -/
structure ClientEntries where
  credentials : Updates String ResolvedProviderCredential := []
  modelPricing : Updates String (List (String × StoredUsagePricing)) := []
  providerProxies : Updates String ProviderProxyRoute := []
  allowOnly : Option (List String) := none
  allowedModels : Updates String (List String) := []
  allowedCredentialKinds : Updates String (List CredentialKind) := []
  allowedAuthTypes : Updates String (List AuthType) := []
  allowedCredentialSourceKinds : Updates String (List CredentialSourceKind) := []
  requiredProviderCapabilities : Updates String ProviderCapabilities := []
  requiredModelCapabilities : Updates String ProviderCapabilities := []

namespace ClientEntries

/-- Add an entry of a policy. -/
def withPolicyEntry (entries : ClientEntries) : PolicyEntry → ClientEntries
  | .allowedModels provider models =>
    { entries with allowedModels := entries.allowedModels ++ [replacing provider models] }
  | .allowedCredentialKinds provider kinds =>
    { entries with allowedCredentialKinds := entries.allowedCredentialKinds ++ [replacing provider kinds] }
  | .allowedAuthTypes provider authTypes =>
    { entries with allowedAuthTypes := entries.allowedAuthTypes ++ [replacing provider authTypes] }
  | .allowedCredentialSourceKinds provider kinds =>
    { entries with
      allowedCredentialSourceKinds := entries.allowedCredentialSourceKinds ++ [replacing provider kinds] }
  | .requiredProviderCapabilities provider capabilities =>
    { entries with
      requiredProviderCapabilities := entries.requiredProviderCapabilities ++ [replacing provider capabilities] }
  | .requiredModelCapabilities provider capabilities =>
    { entries with
      requiredModelCapabilities := entries.requiredModelCapabilities ++ [replacing provider capabilities] }

def withPolicy (entries : ClientEntries) (spec : PolicySpec) : ClientEntries :=
  spec.entries.foldl withPolicyEntry
    { credentials := entries.credentials, modelPricing := entries.modelPricing,
      providerProxies := entries.providerProxies, allowOnly := spec.allowOnly }

def withCredential (entries : ClientEntries) (provider : String) (credential : Credential) (source : String)
    (sourceKind : CredentialSourceKind) : ClientEntries :=
  { entries with
    credentials := entries.credentials ++ [replacing provider { credential, source, sourceKind }] }

def pricingUpdate (provider model : String) (stored : StoredUsagePricing) :
    String × (Option (List (String × StoredUsagePricing)) → List (String × StoredUsagePricing)) :=
  (provider, fun prices => Assoc.insert model stored (prices.getD []))

def loadedUpdates (registry : ProviderRegistry) (environment : String → Option String) :
    Updates String ResolvedProviderCredential :=
  (InferenceClientBuilder.loadedCredentials registry environment).map fun (provider, credential) =>
    (provider, fun old => old.getD credential)

/-- The entries of a call on a builder that has a registry. -/
def withCall (registry : ProviderRegistry) (entries : ClientEntries) : BuilderCall → ClientEntries
  | .registry _ | .retryPolicy _ => entries
  | .credential provider credential => entries.withCredential provider credential "configured" .configured
  | .organizationCredential provider credential organizationRef =>
    entries.withCredential provider credential ("organization:" ++ organizationRef) .organization
  | .managedIdentityCredential provider credential identityRef =>
    entries.withCredential provider credential ("managed_identity:" ++ identityRef) .managedIdentity
  | .credentialsFromEnv environment =>
    { entries with credentials := entries.credentials ++ loadedUpdates registry environment }
  | .policy spec => entries.withPolicy spec
  | .modelPricing provider model pricing =>
    { entries with
      modelPricing := entries.modelPricing ++ [pricingUpdate provider model { pricing, source := "configured" }] }
  | .pricingCatalog catalog =>
    { entries with
      modelPricing := entries.modelPricing ++ catalog.entries.map fun entry =>
        pricingUpdate entry.provider entry.model
          { pricing := entry.pricing, source := catalog.source.getD "catalog" } }
  | .providerProxy provider baseUrl credential =>
    { entries with providerProxies := entries.providerProxies ++ [replacing provider { baseUrl, credential }] }

/-- A policy whose entries are put together in some way. -/
def policyBy (entries : ClientEntries) (merge : {β : Type} → Updates String β → List (String × β))
    (name : String → String) : ProviderPolicy where
  allowedProviders := entries.allowOnly.map (·.map name)
  allowedModels := merge entries.allowedModels
  allowedAuthTypes := merge entries.allowedAuthTypes
  allowedCredentialKinds := merge entries.allowedCredentialKinds
  allowedCredentialSourceKinds := merge entries.allowedCredentialSourceKinds
  requiredProviderCapabilities := merge entries.requiredProviderCapabilities
  requiredModelCapabilities := merge entries.requiredModelCapabilities

/-- A client whose entries are put together in some way. -/
def clientBy (entries : ClientEntries) (registry : ProviderRegistry) (retry : RetryPolicy)
    (merge : {β : Type} → Updates String β → List (String × β)) : InferenceClient where
  registry
  credentials := merge entries.credentials
  policy := entries.policyBy merge registry.canonicalProvider
  modelPricing := merge entries.modelPricing
  providerProxies := merge entries.providerProxies
  retry

end ClientEntries

def entriesOf (calls : List BuilderCall) : ClientEntries :=
  (calls.foldl (fun (builder, entries) call =>
    (call.apply builder, ClientEntries.withCall builder.registry entries call))
    (({} : InferenceClientBuilder), ({} : ClientEntries))).2

/-! ### A builder holds the entries of its calls -/

structure Holds (builder : InferenceClientBuilder) (entries : ClientEntries) : Prop where
  credentials : builder.credentials = Assoc.written entries.credentials
  modelPricing : builder.modelPricing = Assoc.written entries.modelPricing
  providerProxies : builder.providerProxies = Assoc.written entries.providerProxies
  policy : builder.policy = entries.policyBy Assoc.written id

theorem policy_withPolicyEntry (entries : ClientEntries) (entry : PolicyEntry) :
    (entries.withPolicyEntry entry).policyBy Assoc.written id = entry.addTo (entries.policyBy Assoc.written id) := by
  cases entry <;>
    simp only [ClientEntries.withPolicyEntry, ClientEntries.policyBy, PolicyEntry.addTo,
      written_append, List.foldl_cons, List.foldl_nil] <;> rfl

theorem policy_withPolicy (entries : ClientEntries) (spec : PolicySpec) :
    (entries.withPolicy spec).policyBy Assoc.written id = spec.policy ∧
      (entries.withPolicy spec).credentials = entries.credentials ∧
      (entries.withPolicy spec).modelPricing = entries.modelPricing ∧
      (entries.withPolicy spec).providerProxies = entries.providerProxies := by
  have general : ∀ (policyEntries : List PolicyEntry) (entries : ClientEntries),
      (policyEntries.foldl ClientEntries.withPolicyEntry entries).policyBy Assoc.written id =
          policyEntries.foldl PolicyEntry.addTo (entries.policyBy Assoc.written id) ∧
        (policyEntries.foldl ClientEntries.withPolicyEntry entries).credentials = entries.credentials ∧
        (policyEntries.foldl ClientEntries.withPolicyEntry entries).modelPricing = entries.modelPricing ∧
        (policyEntries.foldl ClientEntries.withPolicyEntry entries).providerProxies =
          entries.providerProxies := by
    intro policyEntries
    induction policyEntries with
    | nil => exact fun _ => ⟨rfl, rfl, rfl, rfl⟩
    | cons entry policyEntries ih =>
      intro entries
      obtain ⟨policy, credentials, pricing, proxies⟩ := ih (entries.withPolicyEntry entry)
      rw [policy_withPolicyEntry] at policy
      refine ⟨policy, credentials.trans ?_, pricing.trans ?_, proxies.trans ?_⟩ <;> cases entry <;> rfl
  have made := general spec.entries
    { credentials := entries.credentials, modelPricing := entries.modelPricing,
      providerProxies := entries.providerProxies, allowOnly := spec.allowOnly }
  refine ⟨made.1.trans ?_, made.2⟩
  rw [PolicySpec.policy]
  congr 1
  simp only [ClientEntries.policyBy, List.map_id_fun, id, Option.map_id']
  rfl

theorem foldl_insertMissing {loaded credentials : List (String × ResolvedProviderCredential)}
    (sorted : Assoc.Sorted credentials) : loaded.foldl (fun credentials (provider, credential) =>
        Assoc.insertMissing provider credential credentials) credentials =
      (loaded.map fun (provider, credential) => (provider, fun old => old.getD credential)).foldl
        Assoc.write credentials := by
  induction loaded generalizing credentials with
  | nil => rfl
  | cons entry loaded ih =>
    obtain ⟨provider, credential⟩ := entry
    have first : Assoc.insertMissing provider credential credentials =
        Assoc.write credentials (provider, fun old => old.getD credential) :=
      Assoc.insertMissing_eq_write sorted
    simp only [List.foldl_cons, List.map_cons, first]
    exact ih (sorted.insert _ _)

theorem foldl_insertPricing (source : String) (rows : List ProviderModelPricing) (builder : InferenceClientBuilder) :
    rows.foldl (fun builder entry =>
        builder.insertPricing entry.provider entry.model { pricing := entry.pricing, source }) builder =
      { builder with
        modelPricing := (rows.map fun entry => ClientEntries.pricingUpdate entry.provider entry.model
          { pricing := entry.pricing, source }).foldl Assoc.write builder.modelPricing } := by
  induction rows generalizing builder with
  | nil => rfl
  | cons row rows ih =>
    rw [List.foldl_cons, ih, List.map_cons, List.foldl_cons]
    rfl

/-- A call keeps the builder holding the entries of its calls. -/
theorem Holds.call {builder : InferenceClientBuilder} {entries : ClientEntries} (holds : Holds builder entries)
    (call : BuilderCall) : Holds (call.apply builder) (entries.withCall builder.registry call) := by
  obtain ⟨credentials, pricing, proxies, policy⟩ := holds
  -- A credential that is given replaces the one under the same name.
  have given : ∀ provider (stored : ResolvedProviderCredential),
      (builder.insertCredential provider stored).credentials =
        Assoc.written (entries.credentials ++ [replacing provider stored]) := by
    intro provider stored
    rw [written_append, ← credentials]
    rfl
  cases call with
  | registry | retryPolicy => exact ⟨credentials, pricing, proxies, policy⟩
  | credential | organizationCredential | managedIdentityCredential => exact ⟨given _ _, pricing, proxies, policy⟩
  | credentialsFromEnv environment =>
    refine ⟨?_, pricing, proxies, policy⟩
    show List.foldl _ _ _ = Assoc.written (_ ++ _)
    rw [written_append, ← credentials]
    exact foldl_insertMissing (credentials ▸ Assoc.sorted_written _)
  | policy spec =>
    obtain ⟨made, sameCredentials, samePricing, sameProxies⟩ := policy_withPolicy entries spec
    refine ⟨?_, ?_, ?_, made.symm⟩
    · exact credentials.trans (congrArg Assoc.written sameCredentials.symm)
    · exact pricing.trans (congrArg Assoc.written samePricing.symm)
    · exact proxies.trans (congrArg Assoc.written sameProxies.symm)
  | modelPricing provider model prices =>
    refine ⟨credentials, ?_, proxies, policy⟩
    show Assoc.insert _ _ _ = Assoc.written (_ ++ _)
    rw [written_append, ← pricing]
    rfl
  | pricingCatalog catalog =>
    have rows := foldl_insertPricing (catalog.source.getD "catalog") catalog.entries builder
    simp only [BuilderCall.apply, InferenceClientBuilder.pricingCatalog, ClientEntries.withCall, rows]
    refine ⟨credentials, ?_, proxies, policy⟩
    rw [written_append, ← pricing]
  | providerProxy provider baseUrl secret =>
    refine ⟨credentials, pricing, ?_, policy⟩
    show Assoc.insert _ _ _ = Assoc.written (_ ++ _)
    rw [written_append, ← proxies]
    rfl

theorem holds_entriesOf (calls : List BuilderCall) : Holds (builderOf calls) (entriesOf calls) := by
  have general : ∀ (builder : InferenceClientBuilder) (entries : ClientEntries), Holds builder entries →
      Holds (calls.foldl BuilderCall.apply builder)
        (calls.foldl (fun (builder, entries) call =>
          (call.apply builder, ClientEntries.withCall builder.registry entries call)) (builder, entries)).2 := by
    induction calls with
    | nil => exact fun _ _ holds => holds
    | cons call calls ih => exact fun builder entries holds => ih _ _ (holds.call call)
  exact general {} {} ⟨rfl, rfl, rfl, rfl⟩

theorem build_builderOf (calls : List BuilderCall) :
    (builderOf calls).build = (entriesOf calls).clientBy (builderOf calls).registry (builderOf calls).retry
      fun updates => rekey (builderOf calls).registry (Assoc.written updates) := by
  obtain ⟨credentials, pricing, proxies, policy⟩ := holds_entriesOf calls
  simp [InferenceClientBuilder.build, ClientEntries.clientBy, credentials, pricing, proxies, policy, ProviderPolicy.canonicalize, ClientEntries.policyBy]

end Codel00p
