import Codel00p.Provider.Calls
import Codel00p.Provider.Lookups

/-! Aliases: when it makes no difference by which name of a provider the calls on a builder go. -/

namespace Codel00p

def canonicalClient (calls : List BuilderCall) : InferenceClient :=
  (entriesOf calls).clientBy (builderOf calls).registry (builderOf calls).retry fun updates =>
    Assoc.written (Assoc.rename (builderOf calls).registry.canonicalProvider updates)

open Program InferenceClient

/--
For every provider and every kind of entry, one spelling decides, and it decides rightly.

That spelling is the greatest of those by which the calls name the provider.
The calls under it have to leave the entry that all calls for the provider leave.
-/
structure SettledEntries (name : String → String) (entries : ClientEntries) : Prop where
  credentials : ∀ provider, Assoc.Settled id name entries.credentials provider
  modelPricing : ∀ provider, Assoc.Settled pricesByModel name entries.modelPricing provider
  providerProxies : ∀ provider, Assoc.Settled id name entries.providerProxies provider
  allowedModels : ∀ provider, Assoc.Settled id name entries.allowedModels provider
  allowedCredentialKinds : ∀ provider, Assoc.Settled id name entries.allowedCredentialKinds provider
  allowedAuthTypes : ∀ provider, Assoc.Settled id name entries.allowedAuthTypes provider
  allowedCredentialSourceKinds : ∀ provider, Assoc.Settled id name entries.allowedCredentialSourceKinds provider
  requiredProviderCapabilities : ∀ provider, Assoc.Settled id name entries.requiredProviderCapabilities provider
  requiredModelCapabilities : ∀ provider, Assoc.Settled id name entries.requiredModelCapabilities provider

def SettledCalls (calls : List BuilderCall) : Prop :=
  SettledEntries (builderOf calls).registry.canonicalProvider (entriesOf calls)

/-- Two clients treat every provider that a request may name in the same way. -/
structure Alike (client other : InferenceClient) (name : String) (profile : ProviderProfile) : Prop where
  credential : client.credentials.lookup profile.id = other.credentials.lookup profile.id
  requested : client.credentials.lookup name = other.credentials.lookup name
  proxy : client.providerProxies.lookup profile.id = other.providerProxies.lookup profile.id
  price : ∀ model, (client.modelPricing.lookup profile.id).bind (·.lookup model) =
    (other.modelPricing.lookup profile.id).bind (·.lookup model)
  policy : client.policy.routePolicy profile.id = other.policy.routePolicy profile.id
  allowed : client.policy.checkProvider profile.id = other.policy.checkProvider profile.id

theorem SameLookups.alike {client other : InferenceClient} (same : SameLookups client other) (name : String) (profile : ProviderProfile) :
    Alike client other name profile where
  credential := same.credentials _
  requested := same.credentials _
  proxy := same.providerProxies _
  price := same.price _
  policy := same.routePolicy _
  allowed := by simp [ProviderPolicy.checkProvider, same.allowedProviders]

theorem SettledCalls.sameLookups {calls : List BuilderCall} (settled : SettledCalls calls) :
    SameLookups (builderOf calls).build (canonicalClient calls) := by
  rw [build_builderOf]
  have found : ∀ {β : Type} {updates : Assoc.Updates String β},
      (∀ provider, Assoc.Settled id (builderOf calls).registry.canonicalProvider updates provider) →
        ∀ provider, (rekey (builderOf calls).registry (Assoc.written updates)).lookup provider =
          (Assoc.written (Assoc.rename (builderOf calls).registry.canonicalProvider updates)).lookup provider := by
    intro β updates settled provider
    have same := Assoc.lookup_rekey_written_eq_iff.2 (settled provider)
    rwa [Option.map_id, id, id] at same
  exact {
    registry := rfl
    retry := rfl
    credentials := found settled.credentials
    modelPricing := fun provider => Assoc.lookup_rekey_written_eq_iff.2 (settled.modelPricing provider)
    providerProxies := found settled.providerProxies
    allowedProviders := rfl
    allowedModels := found settled.allowedModels
    allowedCredentialKinds := found settled.allowedCredentialKinds
    allowedAuthTypes := found settled.allowedAuthTypes
    allowedCredentialSourceKinds := found settled.allowedCredentialSourceKinds
    requiredProviderCapabilities := found settled.requiredProviderCapabilities
    requiredModelCapabilities := found settled.requiredModelCapabilities }

/-! ### What is not settled is seen by a request -/

theorem map_eq_of_bind_eq {mine others : Option (List (String × StoredUsagePricing))} (some : mine.isSome)
    (also : others.isSome) (same : ∀ model, mine.bind (·.lookup model) = others.bind (·.lookup model)) :
    mine.map pricesByModel = others.map pricesByModel := by
  obtain ⟨mine, rfl⟩ := Option.isSome_iff_exists.1 some
  obtain ⟨others, rfl⟩ := Option.isSome_iff_exists.1 also
  exact congrArg Option.some (funext same)

theorem eq_of_getD_eq {β : Type} {mine others : Option β} {default : β} (some : mine.isSome)
    (also : others.isSome) (same : mine.getD default = others.getD default) : mine = others := by
  obtain ⟨mine, rfl⟩ := Option.isSome_iff_exists.1 some
  obtain ⟨others, rfl⟩ := Option.isSome_iff_exists.1 also
  exact congrArg Option.some same

theorem exists_resolve_of_not_settled {β γ : Type} {view : β → γ} {registry : ProviderRegistry}
    {updates : Assoc.Updates String β} {provider : String}
    (unsettled : ¬Assoc.Settled view registry.canonicalProvider updates provider) :
    ∃ name profile, registry.resolve name = some profile ∧ profile.id = provider := by
  obtain ⟨name, other, differ, stands, also⟩ := Assoc.exists_names_of_not_settled unsettled
  rw [ProviderRegistry.canonicalProvider] at stands also
  rcases found : registry.resolve name with _ | profile
  · rcases foundOther : registry.resolve other with _ | profile
    · -- Two names that are of no provider stand for themselves only.
      rw [found] at stands
      rw [foundOther] at also
      exact absurd (stands.trans also.symm) differ
    · rw [foundOther] at also
      exact ⟨other, profile, foundOther, also⟩
  · rw [found] at stands
    exact ⟨name, profile, found, stands⟩

theorem settled_of_alike {β γ : Type} {view : β → γ} {registry : ProviderRegistry} {updates : Assoc.Updates String β}
    (alike : ∀ name profile, registry.resolve name = some profile →
      ((rekey registry (Assoc.written updates)).lookup profile.id).isSome →
      ((Assoc.written (Assoc.rename registry.canonicalProvider updates)).lookup profile.id).isSome →
        ((rekey registry (Assoc.written updates)).lookup profile.id).map view =
          ((Assoc.written (Assoc.rename registry.canonicalProvider updates)).lookup profile.id).map view)
    (provider : String) : Assoc.Settled view registry.canonicalProvider updates provider := by
  by_contra unsettled
  obtain ⟨name, profile, found, rfl⟩ := exists_resolve_of_not_settled unsettled
  obtain ⟨some, also⟩ := Assoc.isSome_of_not_settled unsettled
  exact unsettled (Assoc.lookup_rekey_written_eq_iff.1 (alike name profile found some also))

/--
Names make no difference just when all entries are settled: for every name that a request may have,
credentials, proxies, prices and policy are found as if the calls had gone by canonical ids.

Whole completions, streams and listings then go the same way.
-/
theorem alias_transparent_iff (calls : List BuilderCall) :
    ((∀ name profile, (builderOf calls).registry.resolve name = some profile →
        Alike (builderOf calls).build (canonicalClient calls) name profile) ↔ SettledCalls calls) ∧
      (SettledCalls calls → ∀ wire,
        (∀ request, (builderOf calls).build.complete wire request = (canonicalClient calls).complete wire request) ∧
        (∀ request, (builderOf calls).build.completeStreaming wire request =
          (canonicalClient calls).completeStreaming wire request) ∧
        ∀ request, (builderOf calls).build.listModelCatalog wire request =
          (canonicalClient calls).listModelCatalog wire request) := by
  refine ⟨⟨fun alike => ?_, fun settled name profile _ => settled.sameLookups.alike name profile⟩,
    fun settled wire => ⟨settled.sameLookups.complete wire, settled.sameLookups.completeStreaming wire,
      settled.sameLookups.listModelCatalog wire⟩⟩
  rw [build_builderOf] at alike
  have told := fun name profile found => (alike name profile found).policy
  exact {
    credentials := settled_of_alike fun name profile found _ _ =>
      congrArg (Option.map id) (alike name profile found).credential
    modelPricing := settled_of_alike fun name profile found some also =>
      map_eq_of_bind_eq some also (alike name profile found).price
    providerProxies := settled_of_alike fun name profile found _ _ =>
      congrArg (Option.map id) (alike name profile found).proxy
    allowedModels := settled_of_alike fun name profile found _ _ =>
      congrArg (fun policy => policy.allowedModels.map id) (told name profile found)
    allowedCredentialKinds := settled_of_alike fun name profile found _ _ =>
      congrArg (fun policy => policy.allowedCredentialKinds.map id) (told name profile found)
    allowedAuthTypes := settled_of_alike fun name profile found _ _ =>
      congrArg (fun policy => policy.allowedAuthTypes.map id) (told name profile found)
    allowedCredentialSourceKinds := settled_of_alike fun name profile found _ _ =>
      congrArg (fun policy => policy.allowedCredentialSourceKinds.map id) (told name profile found)
    requiredProviderCapabilities := settled_of_alike fun name profile found some also =>
      congrArg (Option.map id) (eq_of_getD_eq some also
        (congrArg ProviderRoutePolicy.requiredProviderCapabilities (told name profile found)))
    requiredModelCapabilities := settled_of_alike fun name profile found some also =>
      congrArg (Option.map id) (eq_of_getD_eq some also
        (congrArg ProviderRoutePolicy.requiredModelCapabilities (told name profile found))) }

def aliasedCalls : List BuilderCall :=
  [.credential "gpt" (.apiKey "configured-key"),
   .credentialsFromEnv fun key => if key = "OPENAI_API_KEY" then some "environment-key" else none]

def credentialSourceFor (client : InferenceClient) (provider : String) : Option String :=
  (client.resolve { provider, model := "gpt-5", messages := [] }).toOption.bind (·.credentialSource)

/--
The credential that is configured under the alias is replaced by that of the environment.

The alias comes before the id, and so the entry under the id is the one that counts.
Had the credential been configured under the id, it would have been kept.
-/
theorem environment_replaces_aliased :
    credentialSourceFor (builderOf aliasedCalls).build "gpt" = some "environment:OPENAI_API_KEY" ∧
      credentialSourceFor (builderOf (aliasedCalls.map
        (·.rename (builderOf aliasedCalls).registry.canonicalProvider))).build "gpt" = some "configured" ∧
      ¬∀ name profile, (builderOf aliasedCalls).registry.resolve name = some profile →
        Alike (builderOf aliasedCalls).build (canonicalClient aliasedCalls) name profile := by
  refine ⟨by decide +kernel, by decide +kernel, fun alike => ?_⟩
  obtain ⟨profile, found, openai⟩ :=
    Option.map_eq_some_iff.1 (show ((builderOf aliasedCalls).registry.resolve "gpt").map (·.id) = some "openai" by
      decide +kernel)
  have same := (alike "gpt" profile found).credential
  rw [openai] at same
  exact absurd same (by decide +kernel)

end Codel00p
