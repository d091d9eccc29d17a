import ZkApi.LeaseStore
import ZkApi.OaOrgReplies
import ZkApi.Pricing

/-!
# Operations of the server on its world

Everything a request handler does that other tasks can see or influence is one
operation: a store statement, a look at the root or the clock, taking a lock,
drawing randomness, signing, and each call of a provider or key service.

Outside services answer as they like.  The world remembers the OpenRouter
child keys, because their holders use them while the server runs; `truthful`
says whether OpenRouter reports the use of a key as it is.
-/

namespace ZkApi

structure ProviderResponse where
  statusCode : UInt16
  payload : String
  chargeApplied : Nat
  policyReasonCode : Option UInt32
  policyEvidenceHash : Option Felt252
deriving DecidableEq

/-- A call to something that handlers share. -/
inductive Op where
  | lookupByNullifier (nullifier : Felt252)
  | lookupByClientId (clientRequestId : String)
  | reserve (request : ApiRequestV2) (kind : ReservationKind)
  | finalize (nullifier : Felt252) (transcript : TranscriptRecord)
  | reserveClearance (nullifier : Felt252)
  | createLease (request : ApiRequestV2) (keySource : String)
      (issuedAt expiresAt settleAfter : UInt64) (spendingLimitUsd : Float)
  | updateLeaseTiming (clientRequestId : String) (expiresAt settleAfter : UInt64)
  | activateLease (clientRequestId keyHash : String)
  | removeFailedLease (clientRequestId : String)
  | lookupLease (clientRequestId : String)
  | dueLeases (now : UInt64)
  | recordLeaseError (clientRequestId error : String)
  | finalizeLease (clientRequestId : String) (usageUsd : Float) (chargeApplied : Nat)
  | currentRoot
  | currentTimestamp
  | lockIssue
  | lockSettlement
  | execute (clientRequestId payload : String) (payloadHash : Felt252)
  | randomScalar
  | randomField
  | signState (message : Felt252)
  | signClearance (message : Felt252)
  | openrouterCreate (name : String) (limitUsd : Float) (expiresAt : UInt64)
  | openrouterUsage (hash : String)
  | openrouterDelete (hash : String)
  | openrouterList (offset : Nat)
  | oaRequestKey (clientRequestId : String) (limitUsd : Float) (limitCredits : Nat)
      (durationMinutes : UInt64)
  | oaKeyUsage (clientRequestId keyHash : String) (expectation : OaOrgUsageExpectation)
deriving DecidableEq

/-- What an operation returns. -/
@[reducible]
def Resp : Op → Type
  | .lookupByNullifier _ => Option TranscriptRecord
  | .lookupByClientId _ => Option TranscriptRecord
  | .reserve _ _ => Except ServerError Unit
  | .finalize _ _ => Except ServerError Unit
  | .reserveClearance _ => Except ServerError Unit
  | .createLease _ _ _ _ _ _ => Except ServerError Unit
  | .updateLeaseTiming _ _ _ => Except ServerError Unit
  | .activateLease _ _ => Except ServerError Unit
  | .removeFailedLease _ => Except ServerError Unit
  | .lookupLease _ => Option OpenRouterLeaseRecord
  | .dueLeases _ => List OpenRouterLeaseRecord
  | .recordLeaseError _ _ => Except ServerError Unit
  | .finalizeLease _ _ _ => Except ServerError Unit
  | .currentRoot => Felt252
  | .currentTimestamp => UInt64
  | .lockIssue => Unit
  | .lockSettlement => Unit
  | .execute _ _ _ => Except ServerError ProviderResponse
  | .randomScalar => Felt252
  | .randomField => Felt252
  | .signState _ => SchnorrSignature
  | .signClearance _ => SchnorrSignature
  | .openrouterCreate _ _ _ => Exchange CreateKeyEnvelope
  | .openrouterUsage _ => Exchange KeyData
  | .openrouterDelete _ => Exchange Unit
  | .openrouterList _ => Exchange (List KeyData)
  | .oaRequestKey _ _ _ _ => Exchange OaOrgKeyResponse
  | .oaKeyUsage _ _ _ => Exchange OaOrgUsageResponse

/-- What the outside chooses when an operation asks it. -/
inductive Answer where
  | nothing
  | felt (value : Felt252)
  | signature (value : SchnorrSignature)
  | executed (result : Except ServerError ProviderResponse)
  | created (reply : Exchange CreateKeyEnvelope)
  | usage (reply : Exchange KeyData)
  | deleted (reply : Exchange Unit)
  | listed (reply : Exchange (List KeyData))
  | oaKey (reply : Exchange OaOrgKeyResponse)
  | oaUsage (reply : Exchange OaOrgUsageResponse)

/-- An OpenRouter child key and what its holder has spent with it. -/
structure ChildKey where
  hash : String
  expiresAt : UInt64
  usage : Float
  deleted : Bool

structure World where
  config : ServerConfig
  root : Felt252
  now : UInt64
  store : Store
  issueLock : Option Nat
  settlementLock : Option Nat
  keys : List ChildKey
  truthful : Bool

namespace World

/-- A server that has just been started. -/
def boot (config : ServerConfig) (root : Felt252) (now : UInt64) (store : Store)
    (truthful : Bool) : World where
  config := config
  root := root
  now := now
  store := store
  issueLock := none
  settlementLock := none
  keys := []
  truthful := truthful

/-- The child key with this hash. -/
def key (world : World) (hash : String) : Option ChildKey :=
  world.keys.find? fun key => key.hash = hash

/-- Everything ever spent with a key. -/
def usageOf (world : World) (hash : String) : Float :=
  ((world.key hash).map ChildKey.usage).getD 0.0

/-- A usage reply that OpenRouter may give. -/
def reports (world : World) (hash : String) : Exchange KeyData → Bool
  | .received status _ _ (.ok data) =>
      !world.truthful || !status.isSuccess || decide (data.usageUsd = world.usageOf hash)
  | _ => true

/-- A successful creation leaves a key behind, unless its hash is taken. -/
def keysAfterCreate (world : World) (expiresAt : UInt64) :
    Exchange CreateKeyEnvelope → List ChildKey
  | .received status _ _ (.ok envelope) =>
      if status.isSuccess ∧ (world.key envelope.data.hash).isNone then
        ⟨envelope.data.hash, expiresAt, 0.0, false⟩ :: world.keys
      else world.keys
  | _ => world.keys

/-- OpenRouter has accepted a deletion. -/
def isDeletion : Exchange Unit → Bool
  | .received status _ _ _ => status.isSuccess
  | .unread status _ _ => status.isSuccess
  | .unsent _ => false

/-- A deleted key can no longer be used. -/
def keysAfterDelete (world : World) (hash : String) (reply : Exchange Unit) :
    List ChildKey :=
  world.keys.map fun key =>
    if isDeletion reply ∧ key.hash = hash then { key with deleted := true } else key

end World

/-- The operations that are one statement of the store, with their outcome. -/
def storeStatement (P : Protocol) (now : UInt64) (store : Store) :
    (op : Op) → Option (Resp op × Store)
  | .lookupByNullifier nullifier => some (store.lookupByNullifier P nullifier, store)
  | .lookupByClientId clientRequestId =>
      some (store.lookupByClientId P clientRequestId, store)
  | .reserve request kind => some (store.reserveBoundV2 P now request kind)
  | .finalize nullifier transcript => some (store.finalize P now nullifier transcript)
  | .reserveClearance nullifier => some (store.reserveClearance P now nullifier)
  | .createLease request keySource issuedAt expiresAt settleAfter spendingLimitUsd =>
      some (store.createOpenRouterLease P now request keySource issuedAt expiresAt
        settleAfter spendingLimitUsd)
  | .updateLeaseTiming clientRequestId expiresAt settleAfter =>
      some (store.updateOpenRouterLeaseTiming now clientRequestId expiresAt settleAfter)
  | .activateLease clientRequestId keyHash =>
      some (store.activateOpenRouterLease now clientRequestId keyHash)
  | .removeFailedLease clientRequestId =>
      some (store.removeFailedOpenRouterLease clientRequestId)
  | .lookupLease clientRequestId =>
      some (store.lookupOpenRouterLease P clientRequestId, store)
  | .dueLeases now => some (store.dueOpenRouterLeases P now, store)
  | .recordLeaseError clientRequestId error =>
      some (store.recordOpenRouterLeaseError now clientRequestId error)
  | .finalizeLease clientRequestId usageUsd chargeApplied =>
      some (store.finalizeOpenRouterLease now clientRequestId usageUsd chargeApplied)
  | _ => none

/-- The operations that do not touch the store. -/
def executeOutside (task : Nat) (op : Op) (answer : Answer) (world : World) :
    Option (Resp op × World) :=
  match op, answer with
  | .currentRoot, _ => some (world.root, world)
  | .currentTimestamp, _ => some (world.now, world)
  | .lockIssue, _ =>
      if world.issueLock = none then some ((), { world with issueLock := some task })
      else none
  | .lockSettlement, _ =>
      if world.settlementLock = none then
        some ((), { world with settlementLock := some task })
      else none
  | .execute _ _ _, .executed result => some (result, world)
  | .randomScalar, .felt value => some (value, world)
  | .randomField, .felt value => some (value, world)
  | .signState _, .signature value => some (value, world)
  | .signClearance _, .signature value => some (value, world)
  | .openrouterCreate _ _ expiresAt, .created reply =>
      some (reply, { world with keys := world.keysAfterCreate expiresAt reply })
  | .openrouterUsage hash, .usage reply =>
      if world.reports hash reply then some (reply, world) else none
  | .openrouterDelete hash, .deleted reply =>
      some (reply, { world with keys := world.keysAfterDelete hash reply })
  | .openrouterList _, .listed reply => some (reply, world)
  | .oaRequestKey _ _ _ _, .oaKey reply => some (reply, world)
  | .oaKeyUsage _ _ _, .oaUsage reply => some (reply, world)
  | _, _ => none

/-- Perform one operation of a task. -/
def execute (P : Protocol) (task : Nat) (op : Op) (answer : Answer) (world : World) :
    Option (Resp op × World) :=
  match storeStatement P world.now world.store op with
  | some outcome => some (outcome.1, { world with store := outcome.2 })
  | none => executeOutside task op answer world

/-- A task that has ended holds no lock. -/
def release (task : Nat) (world : World) : World :=
  { world with
    issueLock := if world.issueLock = some task then none else world.issueLock
    settlementLock :=
      if world.settlementLock = some task then none else world.settlementLock }

/-- What happens around the server. -/
inductive Move where
  | updateRoot (root : Felt252)
  | setClock (now : UInt64)
  | useKey (hash : String) (usage : Float)
deriving DecidableEq

/-- A holder can use a key that is neither deleted nor expired; what has been
spent with it never goes down. -/
def move (world : World) : Move → Option World
  | .updateRoot root => some { world with root := root }
  | .setClock now => some { world with now := now }
  | .useKey hash usage =>
      match world.key hash with
      | none => none
      | some key =>
          if key.deleted = false ∧ world.now < key.expiresAt ∧ key.usage ≤ usage then
            some { world with
              keys := world.keys.map fun other =>
                if other.hash = hash then { other with usage := usage } else other }
          else none

/-- A configuration and the root a processor is rebuilt with. -/
structure Reboot where
  config : ServerConfig
  root : Felt252
deriving DecidableEq

/-- Restart the server: the store is reopened, which migrates old rows, and
nothing else survives. -/
def reboot (P : Protocol) (world : World) (change : Reboot) : Option World :=
  match tryNew P change.config with
  | .error _ => none
  | .ok () =>
      some { world with
        config := change.config
        root := change.root
        store := world.store.backfillOpenRouterRequestBindings P
        issueLock := none
        settlementLock := none }

end ZkApi
