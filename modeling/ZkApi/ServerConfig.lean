import ZkApi.ProtocolFunctions

/-!
# Server configuration

The configuration fields that the request processor reads, and the checks a
configuration passes before a processor is built from it.
-/

namespace ZkApi

/-- Where prompt-private runtime keys come from. -/
inductive OpenRouterLeaseSourceConfig where
  | openRouter (managementKey : String) (apiBase : String)
  | oaOrg (orgBaseUrl : String) (sharedSecret : String)
deriving DecidableEq

def OpenRouterLeaseSourceConfig.label : OpenRouterLeaseSourceConfig → String
  | .openRouter _ _ => "openrouter"
  | .oaOrg _ _ => "oa_org"

structure OpenRouterLeaseConfig where
  source : OpenRouterLeaseSourceConfig
  ttlSeconds : UInt64
  settlementGraceSeconds : UInt64
deriving DecidableEq

structure ServerConfig where
  protocolVersion : UInt16
  chainId : UInt64
  contractAddress : Felt252
  requestChargeCap : Nat
  policyChargeCap : Nat
  policyEnabled : Bool
  stateSeed : Felt252
  clearSeed : Felt252
  openrouterLeases : Option OpenRouterLeaseConfig
  proofSetupDir : String
deriving DecidableEq

def isSecureOrLoopbackUrl (value : String) : Bool :=
  value.startsWith "https://" || value.startsWith "http://127.0.0.1:" ||
    value.startsWith "http://localhost:"

/-- `OaOrgProvisioner::new`: the org URL is HTTPS or loopback and carries no
credentials, query or fragment. -/
def oaOrgProvisionerNew (P : Protocol) (baseUrl : String) : Except ServerError Unit :=
  match P.parseUrl baseUrl with
  | none => .error (.invalidRequest "invalid OA org URL")
  | some parsed =>
      if !isSecureOrLoopbackUrl parsed.asStr || parsed.username != "" ||
          parsed.password.isSome || parsed.query.isSome || parsed.fragment.isSome then
        .error (.invalidRequest
          "OA org URL must be HTTPS (or explicit loopback HTTP) without credentials, query, or fragment")
      else .ok ()

/-- What `try_new` checks of a lease section before anything is loaded. -/
def ensureLeaseConfig (lease : OpenRouterLeaseConfig) : Except String Unit :=
  if ¬ 0 < lease.ttlSeconds then
    .error "OpenRouter lease TTL must be positive"
  else
    match lease.source with
    | .openRouter managementKey _ =>
        if managementKey = "" then .error "OpenRouter management key cannot be empty"
        else .ok ()
    | .oaOrg orgBaseUrl sharedSecret =>
        if orgBaseUrl = "" then .error "OA org URL cannot be empty"
        else if sharedSecret = "" then .error "OA org shared secret cannot be empty"
        else if lease.ttlSeconds % 60 ≠ 0 then
          .error "OA org lease TTL must be a whole number of minutes"
        else .ok ()

/-- `RequestProcessor::try_new`: every check between a configuration and a
running processor. -/
def tryNew (P : Protocol) (config : ServerConfig) : Except String Unit := do
  match config.openrouterLeases with
  | some lease => ensureLeaseConfig lease
  | none => pure ()
  P.loadVerifier config.proofSetupDir
  match config.openrouterLeases with
  | some ⟨.oaOrg orgBaseUrl _, _, _⟩ =>
      (oaOrgProvisionerNew P orgBaseUrl).mapError ServerError.display
  | _ => pure ()

namespace ServerConfig

/-- The processor holds an OpenRouter management client. -/
def hasOpenRouter (config : ServerConfig) : Bool :=
  match config.openrouterLeases with
  | some ⟨.openRouter _ _, _, _⟩ => true
  | _ => false

/-- The processor holds an OA org client. -/
def hasOaOrg (config : ServerConfig) : Bool :=
  match config.openrouterLeases with
  | some ⟨.oaOrg _ _, _, _⟩ => true
  | _ => false

/-- The solvency bound a new request has to show. -/
def requiredSolvency (config : ServerConfig) : Nat :=
  if config.policyEnabled then config.policyChargeCap else config.requestChargeCap

end ServerConfig

end ZkApi
