import Codel00p.Lib.Assoc
import Codel00p.Lib.Text
import Mathlib.Data.List.Lex

/-! Provider profiles, their aliases, and the credentials they may be used with. -/

namespace Codel00p

/-- Wire protocol used for a provider request. -/
inductive ApiMode where
  | chatCompletions
  | azureChatCompletions
  | anthropicMessages
  | responses
  | bedrockConverse
  | gemini
  | externalProcess
  deriving DecidableEq, Repr

/-- How credentials are resolved for a provider. -/
inductive AuthType where
  | apiKey
  | oAuthExternal
  | awsSdk
  | gitHubCopilot
  | cloudProxy
  | custom
  deriving DecidableEq, Repr

/-- Request field used for output token limits. -/
inductive OutputTokenParameter where
  | maxTokens
  | maxCompletionTokens
  deriving DecidableEq, Repr

/-- The name of a wire protocol as it is shown. -/
def ApiMode.debug : ApiMode → String
  | .chatCompletions => "ChatCompletions"
  | .azureChatCompletions => "AzureChatCompletions"
  | .anthropicMessages => "AnthropicMessages"
  | .responses => "Responses"
  | .bedrockConverse => "BedrockConverse"
  | .gemini => "Gemini"
  | .externalProcess => "ExternalProcess"

def AuthType.debug : AuthType → String
  | .apiKey => "ApiKey"
  | .oAuthExternal => "OAuthExternal"
  | .awsSdk => "AwsSdk"
  | .gitHubCopilot => "GitHubCopilot"
  | .cloudProxy => "CloudProxy"
  | .custom => "Custom"

/-- The name of a token limit field as it is shown. -/
def OutputTokenParameter.debug : OutputTokenParameter → String
  | .maxTokens => "MaxTokens"
  | .maxCompletionTokens => "MaxCompletionTokens"

/-- High-level provider and model capabilities. -/
structure ProviderCapabilities where
  tools : Bool := false
  streaming : Bool := false
  vision : Bool := false
  reasoning : Bool := false
  deriving DecidableEq, Repr

def ProviderCapabilities.agentic : ProviderCapabilities :=
  { tools := true, streaming := true, vision := false, reasoning := true }

/-- Declarative provider metadata. -/
structure ProviderProfile where
  id : String
  aliases : List String
  apiMode : ApiMode
  authType : AuthType := .apiKey
  envVars : List String
  defaultBaseUrl : Option String := none
  modelsUrl : Option String := none
  outputTokenParameter : OutputTokenParameter := .maxTokens
  capabilities : ProviderCapabilities := .agentic
  deriving DecidableEq, Repr

inductive Credential where
  | apiKey (secret : String)
  | awsSigV4 (accessKeyId secretAccessKey : String) (sessionToken : Option String) (region : String)
  | none
  deriving DecidableEq, Repr

inductive CredentialKind where
  | apiKey
  | awsSigV4
  | none
  deriving DecidableEq, Repr

inductive CredentialSourceKind where
  | configured
  | environment
  | organization
  | cloudProxy
  | managedIdentity
  deriving DecidableEq, Repr

def CredentialKind.debug : CredentialKind → String
  | .apiKey => "ApiKey"
  | .awsSigV4 => "AwsSigV4"
  | .none => "None"

def CredentialSourceKind.debug : CredentialSourceKind → String
  | .configured => "Configured"
  | .environment => "Environment"
  | .organization => "Organization"
  | .cloudProxy => "CloudProxy"
  | .managedIdentity => "ManagedIdentity"

def Credential.kind : Credential → CredentialKind
  | .apiKey _ => .apiKey
  | .awsSigV4 _ _ _ _ => .awsSigV4
  | .none => .none

structure ResolvedProviderCredential where
  credential : Credential
  source : String
  sourceKind : CredentialSourceKind
  deriving DecidableEq, Repr

/-- Providers by their canonical ids, and the aliases that stand for them. -/
structure ProviderRegistry where
  providers : List (String × ProviderProfile) := []
  aliases : List (String × String) := []

namespace ProviderRegistry

def register (registry : ProviderRegistry) (profile : ProviderProfile) : ProviderRegistry :=
  { providers := Assoc.insert profile.id profile registry.providers,
    aliases := profile.aliases.foldl (fun aliases name => Assoc.insert name profile.id aliases) registry.aliases }

/-- The provider of an id or an alias, whatever its case and the white space around it. -/
def resolve (registry : ProviderRegistry) (idOrAlias : String) : Option ProviderProfile :=
  let key := toAsciiLowercase (trim idOrAlias)
  registry.providers.lookup ((registry.aliases.lookup key).getD key)

def profiles (registry : ProviderRegistry) : List ProviderProfile := registry.providers.map (·.2)

/-- The canonical id of a name, which is the name itself if it is none of a provider. -/
def canonicalProvider (registry : ProviderRegistry) (provider : String) : String :=
  ((registry.resolve provider).map (·.id)).getD provider

end ProviderRegistry

/-- The built-in providers. -/
def builtinProfiles : List ProviderProfile :=
  [{ id := "openai", aliases := ["openai-api", "gpt"], apiMode := .responses,
     envVars := ["CODEL00P_PROVIDER_OPENAI_API_KEY", "OPENAI_API_KEY"],
     defaultBaseUrl := some "https://api.openai.com/v1",
     modelsUrl := some "https://api.openai.com/v1/models", outputTokenParameter := .maxCompletionTokens },
   { id := "anthropic", aliases := ["claude", "claude-code"], apiMode := .anthropicMessages,
     envVars := ["CODEL00P_PROVIDER_ANTHROPIC_API_KEY", "ANTHROPIC_API_KEY", "ANTHROPIC_TOKEN",
       "CLAUDE_CODE_OAUTH_TOKEN"],
     defaultBaseUrl := some "https://api.anthropic.com",
     modelsUrl := some "https://api.anthropic.com/v1/models",
     capabilities := { tools := true, streaming := true, vision := true, reasoning := true } },
   { id := "azure-foundry", aliases := ["azure", "azure-ai", "azure-ai-foundry"],
     apiMode := .azureChatCompletions,
     envVars := ["CODEL00P_PROVIDER_AZURE_FOUNDRY_API_KEY", "AZURE_FOUNDRY_API_KEY"] },
   { id := "bedrock", aliases := ["aws", "aws-bedrock", "amazon-bedrock", "amazon"],
     apiMode := .bedrockConverse, authType := .awsSdk,
     envVars := ["CODEL00P_PROVIDER_AWS_ACCESS_KEY_ID", "CODEL00P_PROVIDER_AWS_SECRET_ACCESS_KEY",
       "CODEL00P_PROVIDER_AWS_SESSION_TOKEN", "CODEL00P_PROVIDER_AWS_REGION", "AWS_ACCESS_KEY_ID",
       "AWS_SECRET_ACCESS_KEY", "AWS_SESSION_TOKEN", "AWS_REGION", "AWS_DEFAULT_REGION"],
     defaultBaseUrl := some "https://bedrock-runtime.us-east-1.amazonaws.com" },
   { id := "gemini", aliases := ["google", "google-gemini", "google-ai-studio"], apiMode := .gemini,
     envVars := ["CODEL00P_PROVIDER_GEMINI_API_KEY", "GOOGLE_API_KEY", "GEMINI_API_KEY"],
     defaultBaseUrl := some "https://generativelanguage.googleapis.com/v1beta",
     capabilities := { tools := true, streaming := true, vision := true, reasoning := true } },
   { id := "github", aliases := ["github-copilot", "copilot"], apiMode := .chatCompletions,
     authType := .gitHubCopilot,
     envVars := ["CODEL00P_PROVIDER_GITHUB_TOKEN", "COPILOT_GITHUB_TOKEN", "GH_TOKEN", "GITHUB_TOKEN"],
     defaultBaseUrl := some "https://api.githubcopilot.com", outputTokenParameter := .maxCompletionTokens },
   { id := "github-models", aliases := ["github-model", "gh-models"], apiMode := .chatCompletions,
     envVars := ["CODEL00P_PROVIDER_GITHUB_MODELS_TOKEN", "GITHUB_TOKEN", "GH_TOKEN"],
     defaultBaseUrl := some "https://models.github.ai/inference",
     modelsUrl := some "https://models.github.ai/catalog/models" },
   { id := "openrouter", aliases := ["or"], apiMode := .chatCompletions,
     envVars := ["CODEL00P_PROVIDER_OPENROUTER_API_KEY", "OPENROUTER_API_KEY"],
     defaultBaseUrl := some "https://openrouter.ai/api/v1",
     modelsUrl := some "https://openrouter.ai/api/v1/models" },
   { id := "custom", aliases := ["ollama", "local", "vllm", "llamacpp", "llama.cpp", "llama-cpp"],
     apiMode := .chatCompletions, authType := .custom, envVars := ["CODEL00P_PROVIDER_CUSTOM_API_KEY"] }]

def defaultRegistry : ProviderRegistry := builtinProfiles.foldl ProviderRegistry.register {}

def readFirstEnvSecret (environment : String → Option String) (keys : List String) :
    Option (String × String) :=
  keys.findSome? fun key => ((environment key).bind nonEmptyFilter).map fun value => (key, value)

def environmentCredential (sourceKey : String) (credential : Credential) : ResolvedProviderCredential :=
  { credential, source := "environment:" ++ sourceKey, sourceKind := .environment }

def awsSigV4EnvCredential (environment : String → Option String) : Option ResolvedProviderCredential := do
  let (source, accessKeyId) ← readFirstEnvSecret environment
    ["CODEL00P_PROVIDER_AWS_ACCESS_KEY_ID", "AWS_ACCESS_KEY_ID"]
  let (_, secretAccessKey) ← readFirstEnvSecret environment
    ["CODEL00P_PROVIDER_AWS_SECRET_ACCESS_KEY", "AWS_SECRET_ACCESS_KEY"]
  let sessionToken := (readFirstEnvSecret environment
    ["CODEL00P_PROVIDER_AWS_SESSION_TOKEN", "AWS_SESSION_TOKEN"]).map (·.2)
  let (_, region) ← readFirstEnvSecret environment
    ["CODEL00P_PROVIDER_AWS_REGION", "AWS_REGION", "AWS_DEFAULT_REGION"]
  return environmentCredential source (.awsSigV4 accessKeyId secretAccessKey sessionToken region)

def envCredentialForProfile (environment : String → Option String) (profile : ProviderProfile) :
    Option ResolvedProviderCredential :=
  match profile.authType with
  | .apiKey | .gitHubCopilot | .custom =>
    (readFirstEnvSecret environment profile.envVars).map fun (source, secret) =>
      environmentCredential source (.apiKey secret)
  | .awsSdk => awsSigV4EnvCredential environment
  | .oAuthExternal | .cloudProxy => none

def ProviderRegistry.credentialFromEnv (registry : ProviderRegistry) (environment : String → Option String)
    (idOrAlias : String) : Option ResolvedProviderCredential :=
  (registry.resolve idOrAlias).bind (envCredentialForProfile environment)

end Codel00p
