import Codel00p.Lib.Spelling
import Codel00p.Provider.Error
import Codel00p.Provider.Registry

/-! What a policy lets a client do with a provider. -/

namespace Codel00p

/-- Normalized provider model descriptor, as far as a policy reads it. -/
structure ProviderModel where
  id : String
  capabilityFlags : ProviderCapabilities := {}
  deriving DecidableEq, Repr

/--
Provider policy enforced during route resolution; what is not listed is not constrained.

A set is given by its members in order.
-/
structure ProviderPolicy where
  allowedProviders : Option (List String) := none
  allowedModels : List (String × List String) := []
  allowedAuthTypes : List (String × List AuthType) := []
  allowedCredentialKinds : List (String × List CredentialKind) := []
  allowedCredentialSourceKinds : List (String × List CredentialSourceKind) := []
  requiredProviderCapabilities : List (String × ProviderCapabilities) := []
  requiredModelCapabilities : List (String × ProviderCapabilities) := []

/-- Safe provider policy metadata attached to a resolved route. -/
structure ProviderRoutePolicy where
  allowedModels : Option (List String)
  allowedAuthTypes : Option (List AuthType)
  allowedCredentialKinds : Option (List CredentialKind)
  allowedCredentialSourceKinds : Option (List CredentialSourceKind)
  requiredProviderCapabilities : ProviderCapabilities
  requiredModelCapabilities : ProviderCapabilities
  deriving DecidableEq, Repr

def capabilitiesSatisfy (model required : ProviderCapabilities) : Bool :=
  (!required.tools || model.tools) && (!required.streaming || model.streaming)
    && (!required.vision || model.vision) && (!required.reasoning || model.reasoning)

/-- Entries under the canonical ids of their names; of two names of one provider the later one counts. -/
def rekey {β : Type} (registry : ProviderRegistry) (entries : List (String × β)) : List (String × β) :=
  Assoc.rekey registry.canonicalProvider entries

namespace ProviderPolicy

def withAllowedModels (policy : ProviderPolicy) (provider : String) (models : List String) : ProviderPolicy :=
  { policy with allowedModels := Assoc.insert provider models policy.allowedModels }

def withAllowedCredentialKinds (policy : ProviderPolicy) (provider : String) (kinds : List CredentialKind) :
    ProviderPolicy :=
  { policy with allowedCredentialKinds := Assoc.insert provider kinds policy.allowedCredentialKinds }

def withAllowedAuthTypes (policy : ProviderPolicy) (provider : String) (authTypes : List AuthType) :
    ProviderPolicy :=
  { policy with allowedAuthTypes := Assoc.insert provider authTypes policy.allowedAuthTypes }

def withAllowedCredentialSourceKinds (policy : ProviderPolicy) (provider : String)
    (kinds : List CredentialSourceKind) : ProviderPolicy :=
  { policy with
    allowedCredentialSourceKinds := Assoc.insert provider kinds policy.allowedCredentialSourceKinds }

def withRequiredProviderCapabilities (policy : ProviderPolicy) (provider : String)
    (capabilities : ProviderCapabilities) : ProviderPolicy :=
  { policy with
    requiredProviderCapabilities := Assoc.insert provider capabilities policy.requiredProviderCapabilities }

def withRequiredModelCapabilities (policy : ProviderPolicy) (provider : String)
    (capabilities : ProviderCapabilities) : ProviderPolicy :=
  { policy with
    requiredModelCapabilities := Assoc.insert provider capabilities policy.requiredModelCapabilities }

def canonicalize (policy : ProviderPolicy) (registry : ProviderRegistry) : ProviderPolicy where
  allowedProviders := policy.allowedProviders.map (·.map registry.canonicalProvider)
  allowedModels := rekey registry policy.allowedModels
  allowedAuthTypes := rekey registry policy.allowedAuthTypes
  allowedCredentialKinds := rekey registry policy.allowedCredentialKinds
  allowedCredentialSourceKinds := rekey registry policy.allowedCredentialSourceKinds
  requiredProviderCapabilities := rekey registry policy.requiredProviderCapabilities
  requiredModelCapabilities := rekey registry policy.requiredModelCapabilities

variable (policy : ProviderPolicy) (provider : String)

def permit (allowed : Bool) (reason : String) : Except ProviderError Unit :=
  if allowed then .ok () else .error (.policyDenied provider reason)

def checkProvider : Except ProviderError Unit :=
  match policy.allowedProviders with
  | some allowed => permit provider (allowed.contains provider) "provider is not allowed"
  | none => .ok ()

def checkProviderCapabilities (capabilities : ProviderCapabilities) : Except ProviderError Unit :=
  match policy.requiredProviderCapabilities.lookup provider with
  | some required =>
    permit provider (capabilitiesSatisfy capabilities required) "provider capabilities do not satisfy policy"
  | none => .ok ()

def checkGiven {β : Type} [BEq β] (allowed : Option (List β)) (value : Option β) (what : String)
    (debug : β → String) : Except ProviderError Unit :=
  match allowed, value with
  | none, _ => .ok ()
  | some _, none => .error (.policyDenied provider (what ++ " is not allowed: missing"))
  | some allowed, some value =>
    permit provider (allowed.contains value) (what ++ " is not allowed: " ++ debug value)

def checkCredentialKind (credentialKind : Option CredentialKind) : Except ProviderError Unit :=
  checkGiven provider (policy.allowedCredentialKinds.lookup provider) credentialKind "credential kind"
    CredentialKind.debug

def checkAuthType (authType : AuthType) : Except ProviderError Unit :=
  match policy.allowedAuthTypes.lookup provider with
  | some allowed =>
    permit provider (allowed.contains authType) ("auth type is not allowed: " ++ authType.debug)
  | none => .ok ()

def checkCredentialSourceKind (sourceKind : Option CredentialSourceKind) : Except ProviderError Unit :=
  checkGiven provider (policy.allowedCredentialSourceKinds.lookup provider) sourceKind
    "credential source kind" CredentialSourceKind.debug

def checkModel (model : String) : Except ProviderError Unit :=
  match policy.allowedModels.lookup provider with
  | some allowed => permit provider (allowed.contains model) ("model is not allowed: " ++ model)
  | none => .ok ()

/-- The models that a catalog may show. -/
def filterModels (models : List ProviderModel) : List ProviderModel :=
  let named := match policy.allowedModels.lookup provider with
    | some allowed => models.filter fun model => allowed.contains model.id
    | none => models
  match policy.requiredModelCapabilities.lookup provider with
  | some required => named.filter fun model => capabilitiesSatisfy model.capabilityFlags required
  | none => named

def routePolicy : ProviderRoutePolicy where
  allowedModels := policy.allowedModels.lookup provider
  allowedAuthTypes := policy.allowedAuthTypes.lookup provider
  allowedCredentialKinds := policy.allowedCredentialKinds.lookup provider
  allowedCredentialSourceKinds := policy.allowedCredentialSourceKinds.lookup provider
  requiredProviderCapabilities := (policy.requiredProviderCapabilities.lookup provider).getD {}
  requiredModelCapabilities := (policy.requiredModelCapabilities.lookup provider).getD {}

end ProviderPolicy

end Codel00p
