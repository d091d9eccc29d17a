import ZkApi.LeaseRows
import ZkApi.ReferenceProtocol
import ZkApi.SoloRuns

/-!
# Resuming a lease

The OA org answers a repeated request for a key with the key it has already
minted.  A retry of an interrupted issuance gets that key, but checks it like a
new one: it must expire one full lease duration from now, give or take thirty
seconds.  So a retry succeeds only in the first thirty seconds.
-/

namespace ZkApi

open ConstrainedTable Interleaving MachineIntegers Handler

variable {P : Protocol}

section Updates

/-- An update of one provisioning lease succeeds if its key hash is free. -/
theorem updateProvisioning_ok (store : Store) {clientRequestId : String} (refused : String)
    {row : LeaseRow} (change : LeaseRow → LeaseRow) (member : row ∈ store.leases)
    (provisioning : Store.isProvisioning clientRequestId row = true)
    (keepsId : ∀ row, (change row).clientRequestId = row.clientRequestId)
    (keepsNullifier : ∀ row, (change row).requestNullifier = row.requestNullifier)
    (free : ∀ other ∈ store.leases, (change row).keyHash.isSome →
      (change row).keyHash ≠ other.keyHash) :
    ∃ leases, store.updateProvisioning clientRequestId change refused =
        (.ok (), { store with leases := leases }) ∧
      ∀ other, other ∈ leases ↔ ∃ old ∈ store.leases,
        Table.updatedRow (Store.isProvisioning clientRequestId) change old = other := by
  have only : ∀ other ∈ store.leases, Store.isProvisioning clientRequestId other = true →
      other = row := by
    intro other otherMember satisfied
    apply Table.eq_of_clash LeaseRow.clash_symm otherMember member
    left
    rw [(of_decide_eq_true satisfied).1, (of_decide_eq_true provisioning).1]
  have harmless : ∀ first ∈ store.leases, ∀ second ∈ store.leases,
      LeaseRow.Clash (Table.updatedRow (Store.isProvisioning clientRequestId) change first)
        (Table.updatedRow (Store.isProvisioning clientRequestId) change second) →
      LeaseRow.Clash first second := by
    intro first firstMember second secondMember clash
    unfold Table.updatedRow at clash
    split at clash
    · rename_i firstSatisfied
      obtain rfl := only first firstMember firstSatisfied
      split at clash
      · rename_i secondSatisfied
        obtain rfl := only second secondMember secondSatisfied
        exact Or.inl rfl
      · rcases clash with sameId | sameNullifier | ⟨present, sameHash⟩
        · exact Or.inl ((keepsId first).symm.trans sameId)
        · exact Or.inr (Or.inl ((keepsNullifier first).symm.trans sameNullifier))
        · exact (free second secondMember present sameHash).elim
    · split at clash
      · rename_i secondSatisfied
        obtain rfl := only second secondMember secondSatisfied
        rcases clash with sameId | sameNullifier | ⟨present, sameHash⟩
        · exact Or.inl (sameId.trans (keepsId second))
        · exact Or.inr (Or.inl (sameNullifier.trans (keepsNullifier second)))
        · exact (free first firstMember (sameHash ▸ present) sameHash.symm).elim
      · exact clash
  obtain ⟨leases, updated⟩ := Table.update_isSome harmless
  have atMostOne : store.leases.affected (Store.isProvisioning clientRequestId) ≤ 1 := by
    refine Table.affected_le_one fun first second firstHolds secondHolds => Or.inl ?_
    rw [(of_decide_eq_true firstHolds).1, (of_decide_eq_true secondHolds).1]
  have atLeastOne := Table.affected_ne_zero member provisioning
  have one : store.leases.affected (Store.isProvisioning clientRequestId) = 1 := by omega
  refine ⟨leases, ?_, fun other => Table.mem_update updated⟩
  simp [Store.updateProvisioning, updated, one]

end Updates

section Lookups

theorem lookupLease_of_mem {world : World} {row : LeaseRow}
    (member : row ∈ world.store.leases) :
    world.store.lookupOpenRouterLease P row.clientRequestId = rowToOpenRouterLease P row := by
  have found : world.store.leases.first
      (fun other => other.clientRequestId = row.clientRequestId) = some row :=
    Table.first_of_mem LeaseRow.clash_symm member (by simp)
      fun other satisfied => Or.inl (of_decide_eq_true satisfied)
  rw [Store.lookupOpenRouterLease, found]
  rfl

/-- What a retry reads from the lease that an attempt has created. -/
theorem read_provisioningRow (feltHex : P.FeltHexRoundTrips)
    (roundTrips : P.RequestJsonRoundTrips) (request : ApiRequestV2) (keySource : String)
    (savedAt issuedAt expiresAt settleAfter : UInt64) (spendingLimitUsd : Float) :
    ∃ existing, rowToOpenRouterLease P (Store.provisioningRow P savedAt request keySource
        issuedAt expiresAt settleAfter spendingLimitUsd) = some existing ∧
      existing.requestNullifier = request.nullifier ∧ existing.apiRequest = request ∧
      existing.keySource = keySource ∧ existing.status = "provisioning" ∧
      existing.keyHash = none ∧ existing.spendingLimitUsd = spendingLimitUsd := by
  have decoded : P.requestFromJson (P.requestToJson request) = some request := roundTrips request
  refine ⟨_, Option.map_eq_some_iff.mpr ⟨request, decoded, rfl⟩, ?_, rfl, rfl, rfl, rfl, rfl⟩
  change (P.feltFromHex (P.feltToHex request.nullifier)).getD Felt252.zero = request.nullifier
  rw [feltHex, Option.getD_some]

end Lookups

section Situation

/-- An earlier attempt has left the request reserved and its OA lease without a
key. -/
structure Stranded (P : Protocol) (world : World) (request : ApiRequestV2)
    (lease : OpenRouterLeaseConfig) : Prop where
  configured : leaseConfigFor P world.config request = .ok lease
  source : ∃ orgBaseUrl sharedSecret, lease.source = .oaOrg orgBaseUrl sharedSecret
  minutes : lease.ttlSeconds ≠ 0 ∧ lease.ttlSeconds % 60 = 0
  payload : P.canonicalPayloadHash request.payload = request.payloadHash
  deployment : DeploymentMatches world.config request.publicInputs
  positive : (Pricing.creditsToUsd request.publicInputs.solvencyBound).isFinite = true ∧
    ¬ Pricing.creditsToUsd request.publicInputs.solvencyBound ≤ 0.0
  reserved : ∃ createdAt, Store.reservedRow P createdAt request.nullifier
    request.clientRequestId request.payloadHash ReservationKind.openRouterLease.asStr
      (some (apiRequestBinding P request)) ∈ world.store.nullifiers
  provisioning : ∃ savedAt issuedAt expiresAt settleAfter, Store.provisioningRow P savedAt
    request "oa_org" issuedAt expiresAt settleAfter
      (Pricing.creditsToUsd request.publicInputs.solvencyBound) ∈ world.store.leases

/-- The key that the OA org has minted for the request at this time. -/
structure Minted (request : ApiRequestV2) (lease : OpenRouterLeaseConfig)
    (mintedAt : UInt64) (response : OaOrgKeyResponse) : Prop where
  usable : keyEvidenceUsable response
    (Pricing.creditsToUsd request.publicInputs.solvencyBound) (lease.ttlSeconds / 60) = true
  expiry : response.expiresAtUnix.toNat = mintedAt.toNat + lease.ttlSeconds.toNat

variable {world : World} {request : ApiRequestV2} {lease : OpenRouterLeaseConfig}
  {answers : Answers (server P)} {task : Nat}

private theorem alone_ensure {condition : Prop} [Decidable condition] {cause : ServerError}
    (holds : condition) :
    (ensure condition cause).alone answers task world = some (.ok (), world) := by
  rw [ensure, Program.require, if_pos holds]
  rfl

private theorem alone_propagate {α : Type} {value : α} :
    (propagate (.ok value)).alone answers task world = some (.ok value, world) :=
  rfl

private theorem alone_refuse {α : Type} {cause : ServerError} :
    (propagate (.error cause) : Handler α).alone answers task world =
      some (.error (.error cause), world) :=
  rfl

private theorem alone_statement {op : Op} {response : Resp op} {store : Store}
    (stated : storeStatement P world.now world.store op = some (response, store)) :
    (call op).alone answers task world = some (.ok response, { world with store := store }) := by
  apply Program.alone_call
  change execute P task op (answers op) world = _
  rw [execute, stated]

private theorem alone_lookup {nullifier : Felt252} {record : Option TranscriptRecord}
    (found : world.store.lookupByNullifier P nullifier = record) :
    (call (.lookupByNullifier nullifier)).alone answers task world = some (.ok record, world) := by
  have stated : storeStatement P world.now world.store (.lookupByNullifier nullifier) =
      some (record, world.store) := by
    rw [storeStatement, found]
  exact alone_statement stated

private theorem alone_currentTimestamp :
    (call .currentTimestamp).alone answers task world = some (.ok world.now, world) :=
  Program.alone_call rfl

/-- A retry passes validation because its reservation is still there. -/
theorem validateAndReserve_alone (feltHex : P.FeltHexRoundTrips)
    (stranded : Stranded P world request lease) :
    (validateAndReserve P world.config request .openRouterLease).alone answers task world =
      some (.ok none, world) := by
  obtain ⟨createdAt, member⟩ := stranded.reserved
  have same : SameRequest P request .openRouterLease (rowToRecord P
      (Store.reservedRow P createdAt request.nullifier request.clientRequestId
        request.payloadHash ReservationKind.openRouterLease.asStr
        (some (apiRequestBinding P request)))) :=
    ⟨rfl, by simp [rowToRecord, Store.reservedRow, parseOptFelt, feltHex request.payloadHash],
      rfl, rfl⟩
  unfold validateAndReserve
  dsimp only
  rw [Program.alone_bind_ok _ (alone_ensure stranded.payload),
    Program.alone_bind_ok _ (alone_ensure stranded.deployment),
    Program.alone_bind_ok _ (alone_lookup (lookup_of_mem member rfl))]
  dsimp only
  rw [Program.alone_bind_ok _ (alone_ensure same)]
  rfl

variable (answers task) in
/-- A retry finds its lease and takes it up where it was left. -/
theorem reconcile_alone (feltHex : P.FeltHexRoundTrips) (roundTrips : P.RequestJsonRoundTrips)
    (stranded : Stranded P world request lease) (fresh : Resumption) :
    ∃ issuedAt, (reconcile P lease request fresh).alone answers task world =
      some (.ok ⟨true, issuedAt,
        Pricing.creditsToUsd request.publicInputs.solvencyBound⟩, world) := by
  obtain ⟨savedAt, issuedAt, expiresAt, settleAfter, member⟩ := stranded.provisioning
  obtain ⟨orgBaseUrl, sharedSecret, source⟩ := stranded.source
  obtain ⟨existing, read, sameNullifier, sameRequest, keySource, status, keyless, limit⟩ :=
    read_provisioningRow feltHex roundTrips request "oa_org" savedAt issuedAt expiresAt
      settleAfter (Pricing.creditsToUsd request.publicInputs.solvencyBound)
  have stated : storeStatement P world.now world.store (.lookupLease request.clientRequestId) =
      some (some existing, world.store) := by
    rw [storeStatement, ← read, ← lookupLease_of_mem member]
    rfl
  have label : existing.keySource = lease.source.label := by
    rw [keySource, source]
    rfl
  refine ⟨existing.issuedAt, ?_⟩
  unfold reconcile
  rw [Program.alone_bind_ok _ (alone_statement stated)]
  dsimp only
  unfold resumeExisting
  rw [Program.alone_bind_ok _ (alone_ensure ⟨sameNullifier, by rw [sameRequest]⟩),
    Program.alone_bind_ok _ (alone_ensure label),
    Program.alone_bind_ok _ (alone_ensure ⟨status, keyless⟩), source]
  dsimp only
  rw [sameRequest, limit, Program.alone_bind_ok _ (alone_ensure ⟨rfl, stranded.positive⟩)]
  rfl

end Situation

section Keys

variable {world : World} {request : ApiRequestV2} {lease : OpenRouterLeaseConfig}
  {answers : Answers (server P)} {task : Nat} {mintedAt : UInt64} {response : OaOrgKeyResponse}

/-- The OA org answers every request for this key with the same response. -/
def Replays (answers : Op → Answer) (request : ApiRequestV2) (response : OaOrgKeyResponse) :
    Prop :=
  ∃ status retryAfter text, status.isSuccess = true ∧
    ∀ limitUsd limitCredits durationMinutes,
      answers (.oaRequestKey request.clientRequestId limitUsd limitCredits durationMinutes) =
        .oaKey (.received status retryAfter text (.ok response))

/-- A replayed key passes the check of its expiry for thirty seconds, unless
the end of a new lease would not fit into 64 bits. -/
theorem expiryIsBounded_iff (minted : Minted request lease mintedAt response)
    (since : mintedAt ≤ world.now)  :
    expiryIsBounded world.now lease.ttlSeconds response.expiresAtUnix = true ↔
      world.now.toNat ≤ mintedAt.toNat + 30 ∨
        2 ^ 64 ≤ mintedAt.toNat + lease.ttlSeconds.toNat + 31 := by
  have bounded := response.expiresAtUnix.toNat_lt
  have since := UInt64.le_iff_toNat_le.mp since
  rw [expiryIsBounded, Bool.and_eq_true, decide_eq_true_iff, decide_eq_true_iff,
    UInt64.le_iff_toNat_le, UInt64.le_iff_toNat_le]
  simp only [toNat_saturatingSub, toNat_saturatingAdd, minted.expiry, UInt64.reduceToNat] at *
  omega

private theorem decodeOaReply_of_success {status : HttpStatus} (success : status.isSuccess = true)
    (label answer : String) (retryAfter : Option UInt64) (text : String) :
    decodeOaReply P label answer (.received status retryAfter text (.ok response)) =
      .ok response := by
  have inRange := of_decide_eq_true success
  have limited : status.code ≠ 429 := by
    intro same
    rw [same] at inRange
    exact absurd inRange.2 (by decide)
  rw [decodeOaReply, if_neg limited, if_pos success]
  rfl

private theorem alone_oaRequestKey {reply : Exchange OaOrgKeyResponse} {clientRequestId : String}
    {limitUsd : Float} {limitCredits : Nat} {durationMinutes : UInt64}
    (answered : answers (.oaRequestKey clientRequestId limitUsd limitCredits durationMinutes) =
      .oaKey reply) :
    (call (.oaRequestKey clientRequestId limitUsd limitCredits durationMinutes)).alone answers
      task world = some (.ok reply, world) := by
  apply Program.alone_call
  rw [answered]
  rfl

/-- The key that the OA org has minted, as the server hands it on. -/
def replayedKey (response : OaOrgKeyResponse) : OaOrgCreatedKey where
  key := response.key
  hash := response.keyHash
  expiresAt := response.expiresAtUnix
  openrouterApiBase := response.openrouterApiBase
  verification := ⟨response.verifierUrl, response.stationId, response.stationRecentlyAttested,
    response.expiresAtUnix, response.stationSignature, response.orgSignature⟩

variable (task) in
theorem oaCreateKey_alone (stranded : Stranded P world request lease)
    (minted : Minted request lease mintedAt response)
    (replays : Replays answers request response) :
    (oaCreateKey P request.clientRequestId
        (Pricing.creditsToUsd request.publicInputs.solvencyBound)
        request.publicInputs.solvencyBound lease.ttlSeconds).alone answers task world =
      if expiryIsBounded world.now lease.ttlSeconds response.expiresAtUnix then
        some (.ok (replayedKey response), world)
      else
        some (.error (.error
          (.internal "OA org returned unusable or unbounded key evidence")), world) := by
  obtain ⟨status, retryAfter, text, success, answered⟩ := replays
  unfold oaCreateKey
  dsimp only
  rw [Program.alone_bind_ok _ (alone_ensure stranded.minutes),
    Program.alone_bind_ok _ (alone_oaRequestKey (answered _ _ _)),
    decodeOaReply_of_success success, Program.alone_bind_ok _ alone_propagate,
    Program.alone_bind_ok _ alone_currentTimestamp]
  have validated : validateResponse world.now response
      (Pricing.creditsToUsd request.publicInputs.solvencyBound) (lease.ttlSeconds / 60)
        lease.ttlSeconds =
      if expiryIsBounded world.now lease.ttlSeconds response.expiresAtUnix then .ok ()
      else .error (.internal "OA org returned unusable or unbounded key evidence") := by
    rw [validateResponse, minted.usable, Bool.true_and]
  rw [validated]
  split
  · rw [Program.alone_bind_ok _ alone_propagate]
    rfl
  · rw [Program.alone_bind_error _ alone_refuse]

/-- The runtime key that a replayed key is turned into. -/
def runtimeKey (response : OaOrgKeyResponse) : RuntimeKey where
  apiKey := response.key
  keyHash := response.keyHash
  openrouterApiBase := response.openrouterApiBase
  expiresAt := saturatingSub response.expiresAtUnix oaLeaseExpirySafetySeconds
  verification := some (replayedKey response).verification

variable (task) in
theorem obtainKey_alone (stranded : Stranded P world request lease)
    (minted : Minted request lease mintedAt response)
    (replays : Replays answers request response)
    (usable : world.now.toNat + 30 < mintedAt.toNat + lease.ttlSeconds.toNat)
    (requestedExpiresAt : UInt64) :
    (obtainKey P lease request (Pricing.creditsToUsd request.publicInputs.solvencyBound)
        requestedExpiresAt).alone answers task world =
      if expiryIsBounded world.now lease.ttlSeconds response.expiresAtUnix then
        some (.ok (runtimeKey response), world)
      else
        some (.error (.error
          (.internal "OA org returned unusable or unbounded key evidence")), world) := by
  obtain ⟨orgBaseUrl, sharedSecret, source⟩ := stranded.source
  have created := oaCreateKey_alone task stranded minted replays
  have alive : world.now <
      saturatingSub (replayedKey response).expiresAt oaLeaseExpirySafetySeconds := by
    change world.now < saturatingSub response.expiresAtUnix oaLeaseExpirySafetySeconds
    rw [UInt64.lt_iff_toNat_lt, toNat_saturatingSub, minted.expiry]
    have safety : oaLeaseExpirySafetySeconds.toNat = 30 := rfl
    omega
  unfold obtainKey
  rw [source]
  dsimp only
  split
  · rename_i bounded
    rw [if_pos bounded] at created
    rw [Program.alone_bind_ok _ created, Program.alone_bind_ok _ alone_currentTimestamp,
      Program.alone_bind_ok _ (alone_ensure alive)]
    rfl
  · rename_i unbounded
    rw [if_neg unbounded] at created
    rw [Program.alone_bind_error _ created]

end Keys

section Activation

variable {world : World} {request : ApiRequestV2} {lease : OpenRouterLeaseConfig}
  {answers : Answers (server P)} {task : Nat} {mintedAt : UInt64} {response : OaOrgKeyResponse}

/-- The lease of the request is active with this key. -/
def ActiveLease (P : Protocol) (request : ApiRequestV2) (keyHash : String) (row : LeaseRow) :
    Prop :=
  LeaseOf P request row ∧ row.status = "active" ∧ row.keyHash = some keyHash

/-- The two writes that make a persisted lease active. -/
theorem activation_ok (stranded : Stranded P world request lease) {keyHash : String}
    (fresh : ∀ row ∈ world.store.leases, row.keyHash ≠ some keyHash)
    (expiresAt settleAfter : UInt64) :
    ∃ timed active,
      storeStatement P world.now world.store
          (.updateLeaseTiming request.clientRequestId expiresAt settleAfter) =
        some (.ok (), timed) ∧
      storeStatement P world.now timed (.activateLease request.clientRequestId keyHash) =
        some (.ok (), active) ∧
      ∃ row ∈ active.leases, ActiveLease P request keyHash row := by
  obtain ⟨savedAt, issuedAt, oldExpiresAt, oldSettleAfter, member⟩ := stranded.provisioning
  have isProvisioning : Store.isProvisioning request.clientRequestId (Store.provisioningRow P
      savedAt request "oa_org" issuedAt oldExpiresAt oldSettleAfter
      (Pricing.creditsToUsd request.publicInputs.solvencyBound)) = true :=
    decide_eq_true ⟨rfl, rfl⟩
  obtain ⟨leases, timing, timedLeases⟩ := updateProvisioning_ok world.store
    "lease timing update failed: constraint violation"
    (Store.timedRow world.now expiresAt settleAfter) member isProvisioning (fun _ => rfl)
    (fun _ => rfl) fun _ _ present => by cases present
  have timedMember := (timedLeases _).mpr ⟨_, member, if_pos isProvisioning⟩
  have stillFree : ∀ other ∈ leases, some keyHash ≠ other.keyHash := by
    intro other otherMember same
    obtain ⟨old, oldMember, rfl⟩ := (timedLeases other).mp otherMember
    unfold Table.updatedRow at same
    split at same <;> exact fresh old oldMember same.symm
  have timedProvisioning : Store.isProvisioning request.clientRequestId
      (Store.timedRow world.now expiresAt settleAfter (Store.provisioningRow P savedAt request
        "oa_org" issuedAt oldExpiresAt oldSettleAfter
        (Pricing.creditsToUsd request.publicInputs.solvencyBound))) = true :=
    decide_eq_true ⟨rfl, rfl⟩
  obtain ⟨activeLeases, activation, activated⟩ := updateProvisioning_ok
    { world.store with leases := leases }
    "lease activation failed: constraint violation" (Store.activeRow world.now keyHash)
    timedMember timedProvisioning (fun _ => rfl) (fun _ => rfl) fun other otherMember _ =>
      stillFree other otherMember
  refine ⟨_, _, congrArg some timing, congrArg some activation, _,
    (activated _).mpr ⟨_, timedMember, if_pos timedProvisioning⟩, ⟨rfl, rfl, rfl⟩, rfl, rfl⟩

variable (task) in
/-- A retry either activates the lease with the replayed key, or leaves the
server as it was. -/
theorem deliverKey_alone (stranded : Stranded P world request lease)
    (minted : Minted request lease mintedAt response)
    (replays : Replays answers request response)
    (usable : world.now.toNat + 30 < mintedAt.toNat + lease.ttlSeconds.toNat)
    (fresh : ∀ row ∈ world.store.leases, row.keyHash ≠ some response.keyHash)
    (issuedAt requestedExpiresAt : UInt64) :
    ∃ result reached, (deliverKey P lease request
        ⟨true, issuedAt, Pricing.creditsToUsd request.publicInputs.solvencyBound⟩
        requestedExpiresAt).alone answers task world = some (result, reached) ∧
      if expiryIsBounded world.now lease.ttlSeconds response.expiresAtUnix then
        (∃ issued, result = .ok issued) ∧
          HasLease reached (ActiveLease P request response.keyHash)
      else
        (∃ failure, result = .error failure) ∧ reached = world := by
  have obtained := obtainKey_alone task stranded minted replays usable
    requestedExpiresAt
  obtain ⟨orgBaseUrl, sharedSecret, source⟩ := stranded.source
  by_cases bounded : expiryIsBounded world.now lease.ttlSeconds response.expiresAtUnix = true
  · rw [if_pos bounded] at obtained
    obtain ⟨timed, active, timing, activation, hasActive⟩ := activation_ok stranded fresh
      (runtimeKey response).expiresAt
      (saturatingAdd (runtimeKey response).expiresAt lease.settlementGraceSeconds)
    have written : (call (.activateLease request.clientRequestId
        (runtimeKey response).keyHash)).alone answers task { world with store := timed } =
          some (.ok (.ok ()), { world with store := active }) := alone_statement activation
    have activated : (activate lease request (runtimeKey response).keyHash).alone answers task
        { world with store := timed } = some (.ok (), { world with store := active }) := by
      unfold activate
      rw [Program.alone_bind_ok _ written]
      rfl
    refine ⟨.ok (issuedLease lease request ⟨true, issuedAt,
      Pricing.creditsToUsd request.publicInputs.solvencyBound⟩ (runtimeKey response)),
      { world with store := active }, ?_, ?_⟩
    · unfold deliverKey
      rw [Program.alone_bind_ok _ obtained, Program.alone_bind_ok _ (alone_statement timing),
        Program.alone_bind_ok _ alone_propagate, Program.alone_bind_ok _ activated]
      rfl
    · rw [if_pos bounded]
      exact ⟨⟨_, rfl⟩, hasActive⟩
  · rw [if_neg bounded] at obtained
    refine ⟨_, _, Program.alone_bind_error _ obtained, ?_⟩
    rw [if_neg bounded]
    exact ⟨⟨_, rfl⟩, rfl⟩

end Activation

section Retry

variable {world : World} {request : ApiRequestV2} {lease : OpenRouterLeaseConfig}
  {answers : Answers (server P)} {task : Nat} {mintedAt : UInt64} {response : OaOrgKeyResponse}

variable (task) in
theorem issueOpenRouterLease_alone (feltHex : P.FeltHexRoundTrips)
    (roundTrips : P.RequestJsonRoundTrips) (stranded : Stranded P world request lease)
    (unlocked : world.issueLock = none) (minted : Minted request lease mintedAt response)
    (replays : Replays answers request response)
    (usable : world.now.toNat + 30 < mintedAt.toNat + lease.ttlSeconds.toNat)
    (fresh : ∀ row ∈ world.store.leases, row.keyHash ≠ some response.keyHash) :
    ∃ result reached, (issueOpenRouterLease P world.config request).alone answers task world =
        some (result, reached) ∧
      if expiryIsBounded world.now lease.ttlSeconds response.expiresAtUnix then
        (∃ issued, result = .ok issued) ∧
          HasLease reached (ActiveLease P request response.keyHash)
      else
        (∃ failure, result = .error failure) ∧ reached.store = world.store := by
  have locks : (call .lockIssue).alone answers task world =
      some (.ok (), { world with issueLock := some task }) := by
    apply Program.alone_call
    change executeOutside task .lockIssue (answers .lockIssue) world = _
    rw [executeOutside, if_pos unlocked]
  have locked : Stranded P { world with issueLock := some task } request lease :=
    { stranded with }
  obtain ⟨issuedAt, reconciled⟩ := reconcile_alone answers task feltHex
    roundTrips locked ⟨false, world.now, Pricing.creditsToUsd request.publicInputs.solvencyBound⟩
  obtain ⟨result, reached, delivered, outcome⟩ := deliverKey_alone task locked minted
    replays usable fresh issuedAt (saturatingAdd world.now lease.ttlSeconds)
  refine ⟨result, reached, ?_, ?_⟩
  · unfold issueOpenRouterLease
    rw [stranded.configured, Program.alone_bind_ok _ alone_propagate,
      Program.alone_bind_ok _ locks,
      Program.alone_bind_ok _ (validateAndReserve_alone feltHex locked),
      Program.alone_bind_ok _ (alone_ensure rfl)]
    dsimp only
    rw [Program.alone_bind_ok _ (alone_ensure stranded.positive),
      Program.alone_bind_ok _ alone_currentTimestamp, Program.alone_bind_ok _ reconciled,
      Program.alone_bind_ok _ alone_currentTimestamp]
    exact delivered
  · split at outcome
    · rename_i bounded
      rw [if_pos bounded]
      exact outcome
    · rename_i unbounded
      rw [if_neg unbounded, outcome.2]
      exact ⟨outcome.1, rfl⟩

/-- While a key that the OA org replays is still usable, a retry of the
interrupted issuance activates the lease exactly if it comes within thirty
seconds of the minting, or the key expires in the last thirty seconds that 64
bits can count.  Any other retry changes nothing. -/
theorem oa_retry_activates_iff (P : Protocol) (feltHex : P.FeltHexRoundTrips)
    (roundTrips : P.RequestJsonRoundTrips) (state : State (server P)) (request : ApiRequestV2)
    (lease : OpenRouterLeaseConfig) (stranded : Stranded P state.world request lease)
    (unlocked : state.world.issueLock = none) (mintedAt : UInt64) (response : OaOrgKeyResponse)
    (minted : Minted request lease mintedAt response) (answers : Answers (server P))
    (replays : Replays answers request response)
    (fresh : ∀ row ∈ state.world.store.leases, row.keyHash ≠ some response.keyHash)
    (since : mintedAt ≤ state.world.now)
    (usable : state.world.now.toNat + 30 < mintedAt.toNat + lease.ttlSeconds.toNat) :
    ∃ result reached,
      state.callAlone answers (.issueOpenRouterLease request) = some (result, reached) ∧
      (∃ last, state.Reaches last ∧ last.world = reached ∧ ∃ earlier,
        last.trace = .returned state.next (.issueOpenRouterLease request) result :: earlier) ∧
      ((∃ issued, result = .ok issued) ∧
          HasLease reached (ActiveLease P request response.keyHash) ↔
        state.world.now.toNat ≤ mintedAt.toNat + 30 ∨
          2 ^ 64 ≤ mintedAt.toNat + lease.ttlSeconds.toNat + 31) ∧
      ((∃ failure, result = .error failure) → reached.store = state.world.store) := by
  obtain ⟨result, reached, done, outcome⟩ := issueOpenRouterLease_alone state.next
    feltHex roundTrips stranded unlocked minted replays usable fresh
  have bounded := expiryIsBounded_iff minted since
  have alone : state.callAlone answers (.issueOpenRouterLease request) =
      some (result, release state.next reached) := State.callAlone_eq done
  refine ⟨result, release state.next reached, alone, State.reaches_of_callAlone alone, ?_, ?_⟩
  · rw [← bounded]
    split at outcome
    · rename_i accepted
      exact ⟨fun _ => accepted, fun _ => outcome⟩
    · rename_i refused
      obtain ⟨⟨failure, rfl⟩, _⟩ := outcome
      constructor
      · rintro ⟨⟨issued, same⟩, _⟩
        cases same
      · intro accepted
        exact (refused accepted).elim
  · rintro ⟨failure, rfl⟩
    split at outcome
    · obtain ⟨⟨issued, same⟩, _⟩ := outcome
      cases same
    · exact outcome.2

/-- The first answer is lost, and the retry comes twenty seconds later. -/
theorem oa_retry_activates_inTime :
    ∃ state, (State.initial (server Reference.protocol)
        (Reference.world Reference.oaLeasingConfig)).Reaches state ∧
      ∃ result reached, state.callAlone Reference.oaAnswers
          (.issueOpenRouterLease Reference.leaseRequest) = some (result, reached) ∧
        (∃ issued, result = .ok issued) ∧
        HasLease reached (ActiveLease Reference.protocol Reference.leaseRequest "hash-oa") := by
  have left : ∃ state, (State.initial (server Reference.protocol)
        (Reference.world Reference.oaLeasingConfig)).Reaches state ∧
      state.world.config = Reference.oaLeasingConfig ∧ state.world.now = 1020 ∧
      state.world.issueLock = none ∧
      (∀ row ∈ state.world.store.leases.rows, row.keyHash ≠ some "hash-oa") ∧
      Store.reservedRow Reference.protocol 1000 Reference.leaseRequest.nullifier
        Reference.leaseRequest.clientRequestId Reference.leaseRequest.payloadHash
        ReservationKind.openRouterLease.asStr
        (some (apiRequestBinding Reference.protocol Reference.leaseRequest)) ∈
          state.world.store.nullifiers.rows ∧
      Store.provisioningRow Reference.protocol 1000 Reference.leaseRequest "oa_org" 1000 1600
        1720 (Pricing.creditsToUsd 1000000) ∈ state.world.store.leases.rows :=
    State.reaches_of_decide (Reference.runs 0 (.issueOpenRouterLease Reference.leaseRequest)
        Reference.oaIssueAnswers ++ [.abort 0, .move (.setClock 1020)])
      (by set_option maxRecDepth 20000 in decide)
  obtain ⟨state, run, config, now, unlocked, fresh, reserved, provisioning⟩ := left
  have stranded : Stranded Reference.protocol state.world Reference.leaseRequest
      Reference.oaOrgLeases :=
    { configured := by
        rw [config]
        decide
      source := ⟨_, _, rfl⟩
      minutes := by decide
      payload := rfl
      deployment := by
        rw [config]
        exact ⟨rfl, rfl, rfl⟩
      positive := by decide
      reserved := ⟨1000, reserved⟩
      provisioning := ⟨1000, 1000, 1600, 1720, provisioning⟩ }
  have minted : Minted Reference.leaseRequest Reference.oaOrgLeases 1000 Reference.oaKey :=
    { usable := by set_option maxRecDepth 20000 in with_unfolding_all decide
      expiry := rfl }
  have replays : Replays Reference.oaAnswers Reference.leaseRequest Reference.oaKey :=
    ⟨_, _, _, rfl, fun _ _ _ => rfl⟩
  obtain ⟨result, reached, done, _, activates, _⟩ := oa_retry_activates_iff Reference.protocol
    Reference.feltHexRoundTrips Reference.requestJsonRoundTrips state Reference.leaseRequest
    Reference.oaOrgLeases stranded unlocked 1000 Reference.oaKey minted Reference.oaAnswers
    replays fresh (by rw [now]; decide) (by rw [now]; decide)
  exact ⟨state, run, result, reached, done, activates.mpr (Or.inl (by rw [now]; decide))⟩

/-- The first answer is lost, and the retry comes thirty-one seconds after the
key was minted.  The OA org replays the key, which is usable for over nine
minutes, but the server refuses it. -/
theorem oa_retry_strands :
    ∃ state, (State.initial (server Reference.protocol)
        (Reference.world Reference.oaLeasingConfig)).Reaches state ∧
      1000 ≤ state.world.now ∧ state.world.now + 30 < Reference.oaKey.expiresAtUnix ∧
      (∀ task < 2, .performed task (.oaRequestKey "lease-1" 1.0 1000000 10)
        (Reference.reply Reference.oaKey) ∈ state.trace) ∧
      .returned 1 (.issueOpenRouterLease Reference.leaseRequest) (.error (.error
        (.internal "OA org returned unusable or unbounded key evidence"))) ∈ state.trace ∧
      ∃ row ∈ state.world.store.leases.rows, row.status = "provisioning" :=
  State.reaches_of_decide (Reference.runs 0 (.issueOpenRouterLease Reference.leaseRequest)
      Reference.oaIssueAnswers ++ .abort 0 :: .move (.setClock 1031) ::
    Reference.runs 1 (.issueOpenRouterLease Reference.leaseRequest)
      (Reference.oaRetryAnswers ++ [.nothing])) (by decide +kernel)

end Retry

end ZkApi
