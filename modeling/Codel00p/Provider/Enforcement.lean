import Codel00p.Provider.Builder
import Codel00p.Provider.Client

/-! Nothing is sent that the policy does not permit. -/

namespace Codel00p

open Program InferenceClient

/-! ### What a policy permits -/

structure ProviderPolicy.Admits (policy : ProviderPolicy) (profile : ProviderProfile) (authType : AuthType)
    (kind : CredentialKind) (sourceKind : CredentialSourceKind) : Prop where
  provider : ∀ allowed, policy.allowedProviders = some allowed → profile.id ∈ allowed
  capabilities : ∀ required, policy.requiredProviderCapabilities.lookup profile.id = some required →
    capabilitiesSatisfy profile.capabilities required = true
  authType : ∀ allowed, policy.allowedAuthTypes.lookup profile.id = some allowed → authType ∈ allowed
  kind : ∀ allowed, policy.allowedCredentialKinds.lookup profile.id = some allowed → kind ∈ allowed
  sourceKind : ∀ allowed, policy.allowedCredentialSourceKinds.lookup profile.id = some allowed → sourceKind ∈ allowed

def ProviderPolicy.AdmitsModel (policy : ProviderPolicy) (provider model : String) : Prop :=
  ∀ allowed, policy.allowedModels.lookup provider = some allowed → model ∈ allowed

namespace ProviderPolicy

variable {policy : ProviderPolicy} {provider : String}

theorem permit_eq_ok {allowed : Bool} {reason : String} :
    permit provider allowed reason = .ok () ↔ allowed = true := by
  cases allowed with
  | true => exact ⟨fun _ => rfl, fun _ => rfl⟩
  | false => exact ⟨fun wrong => (nomatch wrong), fun wrong => (nomatch wrong)⟩

theorem checkProvider_eq_ok : policy.checkProvider provider = .ok () ↔
    ∀ allowed, policy.allowedProviders = some allowed → provider ∈ allowed := by
  cases listed : policy.allowedProviders <;> simp [checkProvider, listed, permit_eq_ok]

theorem checkProviderCapabilities_eq_ok {capabilities : ProviderCapabilities} :
    policy.checkProviderCapabilities provider capabilities = .ok () ↔
      ∀ required, policy.requiredProviderCapabilities.lookup provider = some required →
        capabilitiesSatisfy capabilities required = true := by
  cases listed : policy.requiredProviderCapabilities.lookup provider <;>
    simp [checkProviderCapabilities, listed, permit_eq_ok]

theorem checkAuthType_eq_ok {authType : AuthType} : policy.checkAuthType provider authType = .ok () ↔
    ∀ allowed, policy.allowedAuthTypes.lookup provider = some allowed → authType ∈ allowed := by
  cases listed : policy.allowedAuthTypes.lookup provider <;> simp [checkAuthType, listed, permit_eq_ok]

theorem checkModel_eq_ok {model : String} :
    policy.checkModel provider model = .ok () ↔ policy.AdmitsModel provider model := by
  cases listed : policy.allowedModels.lookup provider <;>
    simp [checkModel, AdmitsModel, listed, permit_eq_ok]

theorem checkGiven_eq_ok {β : Type} [BEq β] [LawfulBEq β] {allowed : Option (List β)} {value : β}
    {what : String} {debug : β → String} : checkGiven provider allowed (some value) what debug = .ok () ↔
      ∀ values, allowed = some values → value ∈ values := by
  cases allowed <;> simp [checkGiven, permit_eq_ok]

theorem admitsModel_of_mem_filterModels {models : List ProviderModel} {model : ProviderModel}
    (member : model ∈ policy.filterModels provider models) : policy.AdmitsModel provider model.id ∧
      ∀ required, policy.requiredModelCapabilities.lookup provider = some required →
        capabilitiesSatisfy model.capabilityFlags required = true := by
  simp only [filterModels] at member
  constructor
  · intro allowed listed
    rw [listed] at member
    -- The filter for capabilities only takes more of the models away.
    have inside : model ∈ models.filter fun model : ProviderModel => allowed.contains model.id := by
      split at member
      · exact (List.mem_filter.1 member).1
      · exact member
    simpa using (List.mem_filter.1 inside).2
  · intro required listed
    rw [listed] at member
    exact (List.mem_filter.1 member).2

end ProviderPolicy

/-! ### Where the credential of a request is from -/

/--
How a client comes by the credential that goes to a URL: the way of authentication and the kind of its source.

The credential of a proxy goes only to that proxy, and a stored one never goes to a proxy.
-/
inductive Held (client : InferenceClient) (profile : ProviderProfile) (request : RouteRequest) :
    (baseUrl : String) → Credential → AuthType → CredentialSourceKind → Prop
  | proxy (proxy : ProviderProxyRoute) (listed : client.providerProxies.lookup profile.id = some proxy)
      (asked : request.baseUrl = none) :
      Held client profile request proxy.baseUrl proxy.credential .cloudProxy .cloudProxy
  | stored (stored : ResolvedProviderCredential) (baseUrl : String)
      (listed : client.storedCredential profile.id request.provider = some stored)
      (direct : request.baseUrl = some baseUrl ∨
        request.baseUrl = none ∧ client.providerProxies.lookup profile.id = none ∧
          profile.defaultBaseUrl = some baseUrl) :
      Held client profile request baseUrl stored.credential profile.authType stored.sourceKind

def Permitted (policy : ProviderPolicy) (client : InferenceClient) (sent : Sent) : Prop :=
  ∃ profile authType sourceKind,
    client.registry.resolve sent.request.provider = some profile ∧ sent.provider = profile.id ∧
      Held client profile sent.request sent.baseUrl sent.credential authType sourceKind ∧
      policy.Admits profile authType sent.credential.kind sourceKind ∧
      policy.AdmitsModel profile.id sent.request.model

def PermittedListing (policy : ProviderPolicy) (client : InferenceClient) (sent : CatalogSent) : Prop :=
  ∃ requested profile stored,
    client.registry.resolve requested = some profile ∧ sent.provider = profile.id ∧
      client.credentials.lookup profile.id = some stored ∧ sent.credential = stored.credential ∧
      policy.Admits profile profile.authType sent.credential.kind stored.sourceKind

def Guarded (policy : ProviderPolicy) (client : InferenceClient) (before after : Traffic) : Prop :=
  (∃ sent, after.sent = before.sent ++ sent ∧ ∀ one ∈ sent, Permitted policy client one) ∧
    ∃ listed, after.listed = before.listed ++ listed ∧ ∀ one ∈ listed, PermittedListing policy client one

section

variable {policy : ProviderPolicy} {client : InferenceClient}

/-- Sending nothing is permitted. -/
instance : Std.Refl (Guarded policy client) := ⟨fun _ => ⟨⟨[], by simp⟩, ⟨[], by simp⟩⟩⟩

/-- What is sent in two parts is permitted when both parts are. -/
instance : IsTrans Traffic (Guarded policy client) where
  trans first second third := by
    rintro ⟨⟨sent, same, permitted⟩, ⟨listed, sameListed, permittedListed⟩⟩
      ⟨⟨sent', same', permitted'⟩, ⟨listed', sameListed', permittedListed'⟩⟩
    refine ⟨⟨sent ++ sent', ?_, ?_⟩, ⟨listed ++ listed', ?_, ?_⟩⟩
    · rw [same', same, List.append_assoc]
    · exact fun one member => (List.mem_append.1 member).elim (permitted one) (permitted' one)
    · rw [sameListed', sameListed, List.append_assoc]
    · exact fun one member => (List.mem_append.1 member).elim (permittedListed one) (permittedListed' one)

end

/-! ### What a resolved route has passed -/

section

variable {client : InferenceClient}

theorem profileFor_eq_ok {provider : String} {profile : ProviderProfile} :
    client.profileFor provider = .ok profile ↔ client.registry.resolve provider = some profile := by
  rw [profileFor]
  cases client.registry.resolve provider <;> simp

/-- A route is the one that its credential was looked up for, and that credential passed the policy. -/
theorem permitted_of_resolve {request : RouteRequest} {route : ResolvedInferenceRoute}
    {credential : Credential} (resolved : client.resolve request = .ok route)
    (found : client.credentialForRoute route request.provider = some credential) (streaming : Bool) :
    Permitted client.policy client (sentOn route credential request streaming) := by
  simp only [resolve, Except.bind_eq_ok, Except.pure_eq_ok] at resolved
  obtain ⟨profile, known, ⟨baseUrl, source⟩, based, _, provider, _, capabilities, _, authType, _, model, _,
    kind, _, sourceKind, rfl⟩ := resolved
  rw [ProviderPolicy.checkProvider_eq_ok] at provider
  rw [ProviderPolicy.checkProviderCapabilities_eq_ok] at capabilities
  rw [ProviderPolicy.checkAuthType_eq_ok] at authType
  rw [ProviderPolicy.checkModel_eq_ok] at model
  -- The second lookup finds what the first one described, in either of the two ways.
  by_cases proxied : source = .cloudProxy
  · subst proxied
    obtain ⟨asked, proxy, listed, sameUrl⟩ : request.baseUrl = none ∧ ∃ proxy,
        client.providerProxies.lookup profile.id = some proxy ∧ proxy.baseUrl = baseUrl := by
      unfold routeBaseUrl at based
      split at based <;> cases based
      exact ⟨by assumption, _, by assumption, rfl⟩
    have same : credential = proxy.credential := by
      simp only [credentialForRoute, if_true, listed, Option.map_some, Option.some.injEq] at found
      exact found.symm
    subst same sameUrl
    simp only [routeCredential, if_true, listed] at kind sourceKind
    refine ⟨profile, .cloudProxy, .cloudProxy, profileFor_eq_ok.1 known, rfl, .proxy proxy listed asked,
      ⟨provider, capabilities, authType, ?_, ?_⟩, model⟩
    · exact ProviderPolicy.checkGiven_eq_ok.1 kind
    · exact ProviderPolicy.checkGiven_eq_ok.1 sourceKind
  · have direct : request.baseUrl = some baseUrl ∨ request.baseUrl = none ∧
        client.providerProxies.lookup profile.id = none ∧ profile.defaultBaseUrl = some baseUrl := by
      unfold routeBaseUrl at based
      split at based <;> cases based
      · exact .inl (by assumption)
      · exact absurd rfl proxied
      · exact .inr ⟨by assumption, by assumption, by assumption⟩
    obtain ⟨stored, listed, same⟩ : ∃ stored,
        client.storedCredential profile.id request.provider = some stored ∧ stored.credential = credential := by
      simp only [credentialForRoute, if_neg proxied] at found
      exact Option.map_eq_some_iff.1 found
    subst same
    simp only [routeCredential, if_neg proxied, listed, Option.map_some] at kind sourceKind
    simp only [routeAuthType, if_neg proxied] at authType
    refine ⟨profile, profile.authType, stored.sourceKind, profileFor_eq_ok.1 known, rfl,
      .stored stored baseUrl listed direct, ⟨provider, capabilities, authType, ?_, ?_⟩, model⟩
    · exact ProviderPolicy.checkGiven_eq_ok.1 kind
    · exact ProviderPolicy.checkGiven_eq_ok.1 sourceKind

theorem permittedListing_of_resolveCatalog {request : ModelCatalogRequest} {profile : ProviderProfile}
    {stored : ResolvedProviderCredential} {modelsUrl : String} {source : ModelCatalogUrlSource}
    (resolved : client.resolveCatalog request = .ok (profile, stored, modelsUrl, source)) :
    PermittedListing client.policy client ⟨profile.id, modelsUrl, stored.credential⟩ := by
  simp only [resolveCatalog, Except.bind_eq_ok] at resolved
  obtain ⟨profile', known, _, provider, _, capabilities, _, authType, url, _, stored', found, _, kind, _,
    sourceKind, rest⟩ := resolved
  have same : profile' = profile ∧ stored' = stored := by
    split at rest
    · exact nomatch rest
    · rw [Except.pure_eq_ok] at rest
      cases rest
      exact ⟨rfl, rfl⟩
  obtain ⟨rfl, rfl⟩ := same
  have listed : client.credentials.lookup profile'.id = some stored' := by
    unfold catalogCredential at found
    split at found <;> cases found
    assumption
  refine ⟨_, profile', stored', profileFor_eq_ok.1 known, rfl, listed, rfl, ?_, ?_, ?_, ?_, ?_⟩
  · exact ProviderPolicy.checkProvider_eq_ok.1 provider
  · exact ProviderPolicy.checkProviderCapabilities_eq_ok.1 capabilities
  · exact ProviderPolicy.checkAuthType_eq_ok.1 authType
  · exact ProviderPolicy.checkGiven_eq_ok.1 kind
  · exact ProviderPolicy.checkGiven_eq_ok.1 sourceKind

end

/-! ### Every way of sending -/

section

variable (client : InferenceClient) (wire : Wire)

theorem send_guarded {sent : Sent} (permitted : Permitted client.policy client sent) :
    Moves (Guarded client.policy client) (send wire sent) :=
  .bind (.perform fun _ => ⟨⟨[sent], rfl, fun _ member => List.mem_singleton.1 member ▸ permitted⟩,
    ⟨[], by simp⟩⟩) fun _ => .ofExcept _

section

variable (request : RouteRequest)

include request

theorem completeOne_guarded : Moves (Guarded client.policy client) (client.completeOne wire request) := by
  rw [completeOne]
  split
  · exact .throw _
  · rename_i route resolved
    split
    · exact .throw _
    · rename_i credential found
      refine .ite (.throw _) (.bind (.attempt (send_guarded client wire ?_)) fun answer => ?_)
      · exact permitted_of_resolve resolved found false
      · split
        · exact .pure _
        · exact .throw _

theorem retryLoop_guarded (left : Nat) :
    ∀ attempt, Moves (Guarded client.policy client) (client.retryLoop wire request left attempt) := by
  have once : Moves (Guarded client.policy client) (client.tryOne wire request) :=
    .bind (.attempt (completeOne_guarded client wire request)) fun _ =>
      .bind (.change fun _ => ⟨⟨[], by simp⟩, ⟨[], by simp⟩⟩) fun _ => .pure _
  induction left with
  | zero =>
    intro attempt
    rw [retryLoop]
    refine .bind once fun outcome => ?_
    split
    · exact .pure _
    · exact .ite (.throw _) (.throw _)
  | succ left ih =>
    intro attempt
    rw [retryLoop]
    refine .bind once fun outcome => ?_
    split
    · exact .pure _
    · exact .ite (ih _) (.throw _)

theorem fallbackLoop_guarded (fallbacks : List InferenceFallbackRoute) :
    ∀ attempts lastError, Moves (Guarded client.policy client)
      (client.fallbackLoop wire request attempts lastError fallbacks) := by
  induction fallbacks with
  | nil => exact fun _ _ => .throw _
  | cons fallback fallbacks ih =>
    intro attempts lastError
    rw [fallbackLoop]
    refine .bind (.attempt (retryLoop_guarded client wire _ _ _)) fun outcome => ?_
    split
    · exact .pure _
    · exact .ite (ih _ _) (.throw _)

theorem complete_guarded : Moves (Guarded client.policy client) (client.complete wire request) := by
  refine .bind (.attempt (retryLoop_guarded client wire request _ _)) fun outcome => ?_
  split
  · exact .pure _
  · exact .ite (fallbackLoop_guarded client wire request _ _ _) (.throw _)

theorem completeStreaming_guarded : Moves (Guarded client.policy client) (client.completeStreaming wire request) := by
  rw [completeStreaming]
  cases resolved : client.resolve request with
  | error error => exact .throw _
  | ok route =>
    show Moves _ (pure route >>= _)
    rw [pure_bind]
    split
    · exact .throw _
    · rename_i credential found
      have permitted := permitted_of_resolve resolved found true
      split
      · refine .bind (.attempt (completeOne_guarded client wire request)) fun outcome => ?_
        split
        · exact .bind (.pure _) fun _ => .pure _
        · exact .bind (.throw _) fun _ => .pure _
      · exact .bind (send_guarded client wire permitted) fun _ => .pure _

end

theorem listModelCatalog_guarded (request : ModelCatalogRequest) :
    Moves (Guarded client.policy client) (client.listModelCatalog wire request) := by
  rw [listModelCatalog]
  cases resolved : client.resolveCatalog request with
  | error error => exact .throw _
  | ok settled =>
    obtain ⟨profile, stored, modelsUrl, source⟩ := settled
    have permitted := permittedListing_of_resolveCatalog resolved
    show Moves _ (pure (profile, stored, modelsUrl, source) >>= _)
    rw [pure_bind]
    refine .bind (.perform fun _ => ⟨⟨[], by simp⟩, ⟨[_], rfl, ?_⟩⟩) fun _ => .bind (.ofExcept _) fun _ => .pure _
    exact fun _ member => List.mem_singleton.1 member ▸ permitted

theorem listModelCatalog_models {request : ModelCatalogRequest} {traffic reached : Traffic}
    {catalog : ProviderModelCatalog}
    (listed : exec (client.listModelCatalog wire request) traffic = (.ok catalog, reached)) :
    ∃ models, catalog.models = client.policy.filterModels catalog.provider models := by
  simp only [listModelCatalog, exec_bind_eq_ok, exec_ofExcept_eq_ok, exec_pure, Prod.mk.injEq,
    Except.ok.injEq] at listed
  obtain ⟨⟨profile, stored, modelsUrl, source⟩, _, _, _, _, _, models, _, _, rfl, _⟩ := listed
  exact ⟨models, rfl⟩

end

/--
Every completion, on its own route or a fallback route, every stream and every listing keeps to the policy.

What a listing returns is permitted as well.
-/
theorem policy_enforced (builder : InferenceClientBuilder) (wire : Wire) :
    let client := builder.build
    let policy := builder.policy.canonicalize builder.registry
    (∀ request, Moves (Guarded policy client) (client.complete wire request)) ∧
      (∀ request, Moves (Guarded policy client) (client.completeStreaming wire request)) ∧
      (∀ request, Moves (Guarded policy client) (client.listModelCatalog wire request)) ∧
      ∀ request traffic catalog reached,
        exec (client.listModelCatalog wire request) traffic = (.ok catalog, reached) →
          ∀ model ∈ catalog.models, policy.AdmitsModel catalog.provider model.id ∧
            ∀ required, policy.requiredModelCapabilities.lookup catalog.provider = some required →
              capabilitiesSatisfy model.capabilityFlags required = true := by
  refine ⟨complete_guarded _ wire, completeStreaming_guarded _ wire, listModelCatalog_guarded _ wire, ?_⟩
  intro request traffic catalog reached listed model member
  obtain ⟨models, same⟩ := listModelCatalog_models _ wire listed
  rw [same] at member
  exact ProviderPolicy.admitsModel_of_mem_filterModels member

def oneModelBuilder : InferenceClientBuilder :=
  { InferenceClientBuilder.credential {} "gpt" (.apiKey "secret") with
    policy := { allowedProviders := some ["gpt"], allowedModels := [("openai-api", ["gpt-5"])],
                allowedCredentialSourceKinds := [("openai", [.configured])] } }

/-- A provider that offers two models and answers every request. -/
def twoModelWire : Wire where
  answer _ _ := .ok { content := some "done" }
  catalog _ _ := .ok [{ id := "gpt-5" }, { id := "o3" }]

/-- The client asks for both models, is sent two, and shows the one that is permitted. -/
theorem oneModel_listing :
    ∃ catalog reached, exec (oneModelBuilder.build.listModelCatalog twoModelWire { provider := "GPT" }) {} =
        (.ok catalog, reached) ∧
      catalog.models.map (·.id) = ["gpt-5"] ∧
      ∀ model ∈ catalog.models,
        (oneModelBuilder.policy.canonicalize defaultRegistry).AdmitsModel catalog.provider model.id := by
  have shown : ((exec (oneModelBuilder.build.listModelCatalog twoModelWire { provider := "GPT" }) {}).1.toOption.map
      fun catalog => catalog.models.map (·.id)) = some ["gpt-5"] := by decide +kernel
  rcases listed : exec (oneModelBuilder.build.listModelCatalog twoModelWire { provider := "GPT" }) {} with
    ⟨_ | catalog, reached⟩
  · rw [listed] at shown
    exact nomatch shown
  · rw [listed] at shown
    refine ⟨catalog, reached, rfl, Option.some.inj shown, fun model member => ?_⟩
    exact ((policy_enforced oneModelBuilder twoModelWire).2.2.2 _ _ _ _ listed model member).1

end Codel00p
