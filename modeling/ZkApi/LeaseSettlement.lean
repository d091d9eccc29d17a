import ZkApi.FinalizedTranscripts
import ZkApi.ReferenceProtocol

/-!
# Settling a lease

A settlement writes the transcript of its nullifier first and closes its lease
row second.  If it stops in between, a later attempt closes the row from what
the transcript says.  Either way the row ends up with the charge, and for an OA
lease with the usage, of the settlement that wrote the transcript.
-/

namespace ZkApi

open ConstrainedTable Interleaving JsonText MachineIntegers

variable {P : Protocol}

section Recovery

/-- The usage that a recovery reads from the transcript of an OA lease. -/
def recordedUsage (P : Protocol) (record : TranscriptRecord) : Nat :=
  ((payloadField P record "usage_credits").bind Json.asU64).getD 0

/-- The usage that recovery reads from an OA transcript is the one it was
written with. -/
theorem recovered_usageCredits (faithful : P.JsonFaithful) {lease : OpenRouterLeaseRecord}
    {receipt : OaOrgFinalUsage} {payload : Json}
    (built : oaSettlementPayload lease receipt = some payload) {record : TranscriptRecord}
    (stored : record.responsePayload = some (P.jsonToString payload)) :
    recordedUsage P record = receipt.usageCredits := by
  obtain ⟨usageCredits, converted, rfl⟩ := Option.map_eq_some_iff.mp built
  unfold Json.ofU128 at converted
  split at converted
  · rename_i fits
    cases converted
    obtain ⟨parsed, parses, same⟩ := faithful
      [("type", .string "oa_org_ephemeral_lease_settlement"),
        ("issued_at", .integer lease.issuedAt.toNat),
        ("expires_at", .integer lease.expiresAt.toNat),
        ("usage_credits", .integer receipt.usageCredits),
        ("usage_usd", Json.ofF64 (Pricing.creditsToUsd receipt.usageCredits)),
        ("usage_receipt_expires_at", .integer receipt.expiresAt.toNat),
        ("usage_receipt_closed_at", .integer receipt.closedAt.toNat),
        ("usage_finalized_at", .integer receipt.finalizedAt.toNat),
        ("station_id", .string receipt.stationId),
        ("station_signature", .string receipt.stationSignature),
        ("org_signature", .string receipt.orgSignature)]
    have kept : parsed.lookup "usage_credits" = some (.integer receipt.usageCredits) :=
      (same "usage_credits").2 (.integer receipt.usageCredits) rfl trivial
    have converts : (Json.integer receipt.usageCredits).asU64 = some receipt.usageCredits :=
      if_pos fits
    simp [recordedUsage, payloadField, stored, parses, Json.index, kept, converts]
  · cases converted

end Recovery

section Settlement

/-- The lease row is closed with the charge, and for an OA lease the usage, of
the settlement that wrote this transcript. -/
structure SettledBy (P : Protocol) (trace : List (Event (server P)))
    (lease : OpenRouterLeaseRecord) (response : ProviderResponse) (usageUsd : Float)
    (transcript : TranscriptRecord) (row : LeaseRow) : Prop where
  reads : Reads P lease row
  nullifier : row.requestNullifier = P.feltToHex lease.apiRequest.nullifier
  written : ∃ task,
    .performed task (.finalize lease.apiRequest.nullifier transcript) (.ok ()) ∈ trace ∧
      SawActive (historyOf task trace) lease ∧
      Billed P (historyOf task trace) lease response usageUsd
  transcribed : transcript.chargeApplied = some response.chargeApplied
  payload : transcript.responsePayload = some response.payload
  charge : row.chargeApplied = some (asI64 response.chargeApplied)
  usage : row.keySource = "oa_org" → row.usageUsd = some usageUsd

theorem SettledBy.mono {trace later : List (Event (server P))}
    {lease : OpenRouterLeaseRecord} {response : ProviderResponse} {usageUsd : Float}
    {transcript : TranscriptRecord} {row : LeaseRow}
    (settled : SettledBy P trace lease response usageUsd transcript row)
    (grows : trace <:+ later) : SettledBy P later lease response usageUsd transcript row := by
  obtain ⟨task, event, active, billed⟩ := settled.written
  have later := historyOf_suffix task grows
  exact { settled with
    written := ⟨task, grows.subset event, active.mono later, billed.mono later⟩ }

def Settled (P : Protocol) (trace : List (Event (server P))) (row : LeaseRow) : Prop :=
  ∃ lease response usageUsd transcript,
    SettledBy P trace lease response usageUsd transcript row

theorem Settled.mono {trace later : List (Event (server P))} {row : LeaseRow}
    (settled : Settled P trace row) (grows : trace <:+ later) : Settled P later row := by
  obtain ⟨lease, response, usageUsd, transcript, settledBy⟩ := settled
  exact ⟨lease, response, usageUsd, transcript, settledBy.mono grows⟩

/-- Every finalized lease row is as its settlement leaves it. -/
def SettledLeases (P : Protocol) (world : World) (trace : List (Event (server P))) : Prop :=
  ∀ row ∈ world.store.leases, row.status = "finalized" → Settled P trace row

private theorem SettledLeases.same {world after : World} {trace : List (Event (server P))}
    (held : SettledLeases P world trace) (leases : after.store.leases = world.store.leases)
    (event : Event (server P)) : SettledLeases P after (event :: trace) := by
  intro row member finalized
  rw [leases] at member
  exact (held row member finalized).mono (List.suffix_cons event trace)

/-- What the settlements of a run rest on. -/
abbrev SettlementBase (P : Protocol) (initial : ServerConfig) (world : World)
    (trace : List (Event (server P))) : Prop :=
  (Remembers P initial world trace ∧ SeenLeases P world trace ∧ FinalizedRows P world trace ∧
    FinalizedLookups P world trace) ∧ LeasesOwned P world

theorem settlementBase_preserved (initial : ServerConfig) :
    (discipline P).Inductive (SettlementBase P initial) := by
  have base := (remembers_preserved (P := P) initial).both (seenLeases_preserved.both
    (finalizedRows_preserved.both finalizedLookups_preserved))
  exact base.and (leasesOwned_preserved.mono fun world trace held => held.1.2.1)

theorem settlementBase_initial {world : World} (empty : world.store = Store.empty) :
    SettlementBase P world.config world [] := by
  refine ⟨⟨remembers_initial world, evidence_initial (M := server P) world,
    finalizedRows_initial empty, evidence_initial (M := server P) world⟩, ?_⟩
  intro row member
  rw [empty] at member
  exact (Table.not_mem_empty row member).elim

variable {initial : ServerConfig} {world after : World} {trace : List (Event (server P))}

/-- The request of a lease that was read is the one its row belongs to. -/
theorem Reads.owner (roundTrips : P.RequestJsonRoundTrips) (owned : LeasesOwned P world)
    {lease : OpenRouterLeaseRecord} {row : LeaseRow} (member : row ∈ world.store.leases)
    (reads : Reads P lease row) :
    row.requestNullifier = P.feltToHex lease.apiRequest.nullifier ∧
      HasRow world (BoundTo P lease.apiRequest .openRouterLease) := by
  obtain ⟨request, leaseOf, bound⟩ := owned row member
  rw [reads.apiRequest_eq roundTrips leaseOf]
  exact ⟨leaseOf.requestNullifier, bound⟩

/-- The transcript of the nullifier of a lease was written by a settlement of
that lease. -/
theorem settlement_of_finalized (roundTrips : P.RequestJsonRoundTrips)
    (base : SettlementBase P initial world trace) {lease : OpenRouterLeaseRecord}
    {row : LeaseRow} (member : row ∈ world.store.leases) (reads : Reads P lease row)
    {reservation : NullifierRow} (reservationMember : reservation ∈ world.store.nullifiers)
    (sameNullifier : reservation.nullifier = P.feltToHex lease.apiRequest.nullifier)
    (finalized : strToStatus reservation.status = .finalized) :
    ∃ settled response usageUsd transcript,
      WrittenFor P trace settled.apiRequest response transcript ∧
      WrittenWith P settled.apiRequest.nullifier transcript reservation ∧
      Reads P settled row ∧
      ∃ task, .performed task (.finalize settled.apiRequest.nullifier transcript) (.ok ()) ∈
          trace ∧ SawActive (historyOf task trace) settled ∧
            Billed P (historyOf task trace) settled response usageUsd := by
  obtain ⟨⟨remembers, seen, finalizedRows, _⟩, owned⟩ := base
  obtain ⟨rowNullifier, bound⟩ := reads.owner roundTrips owned member
  obtain ⟨request, response, transcript, writtenFor, writtenWith⟩ :=
    finalizedRows reservation reservationMember finalized
  obtain ⟨task, call, kind, next, proofBytes, createdAt, finalizedAt, event, cause, same⟩ :=
    id writtenFor
  cases cause with
  | executed submitted admitted executed =>
      obtain ⟨proxyRow, proxyMember, proxyNullifier, proxyKind, _⟩ :=
        admitted.hasRow remembers.2.1
      obtain ⟨leaseRow, leaseMember, leaseNullifier, leaseKind, _⟩ := bound
      have sameRow : proxyRow = leaseRow := by
        apply row_unique proxyMember leaseMember
        rw [proxyNullifier, ← writtenWith.1, sameNullifier, leaseNullifier]
      rw [sameRow, leaseKind] at proxyKind
      exact absurd proxyKind (by decide)
  | settled active billed =>
      rename_i settledLease usageUsd
      obtain ⟨other, otherMember, otherReads⟩ := active.hasLease seen
      obtain ⟨otherNullifier, _⟩ := otherReads.owner roundTrips owned otherMember
      have sameRow : other = row := by
        apply lease_unique otherMember member
        right
        rw [otherNullifier, ← writtenWith.1, sameNullifier, rowNullifier]
      rw [sameRow] at otherReads
      exact ⟨settledLease, response, usageUsd, transcript, writtenFor, writtenWith, otherReads,
        task, event, active, billed⟩

/-- A row that recovery closes gets the values of the settlement whose
transcript it found. -/
private theorem settled_of_recovered (feltHex : P.FeltHexRoundTrips)
    (roundTrips : P.RequestJsonRoundTrips) (faithful : P.JsonFaithful)
    (base : SettlementBase P initial world trace) {lease : OpenRouterLeaseRecord}
    {row : LeaseRow} (member : row ∈ world.store.leases) (reads : Reads P lease row)
    {task : Nat} {record : TranscriptRecord} {usageUsd : Float}
    (found : Saw (historyOf task trace) (.lookupByNullifier lease.requestNullifier)
      (some record)) (finalized : record.status = .finalized)
    (usage : lease.keySource = "oa_org" →
      usageUsd = Pricing.creditsToUsd (recordedUsage P record)) (now : UInt64) :
    Settled P trace
      (Store.settledRow now usageUsd (record.chargeApplied.getD 0) row) := by
  obtain ⟨reservation, reservationMember, sameNullifier, status, sameCharge, samePayload⟩ :=
    base.1.2.2.2 trivial _ (saw_historyOf_iff.mp found) (lease.requestNullifier, record)
      ⟨rfl, finalized⟩
  obtain ⟨rowNullifier, _⟩ := reads.owner roundTrips base.2 member
  have leaseNullifier : lease.requestNullifier = lease.apiRequest.nullifier := by
    have decoded := reads.requestNullifier
    rw [rowNullifier, feltHex, Option.getD_some] at decoded
    exact decoded.symm
  rw [leaseNullifier] at sameNullifier
  obtain ⟨settled, response, settledUsage, transcript, writtenFor, writtenWith, settledReads,
    event⟩ := settlement_of_finalized roundTrips base member reads reservationMember
      sameNullifier status
  obtain ⟨settledNullifier, _⟩ := settledReads.owner roundTrips base.2 member
  obtain ⟨_, _, _, _, _, _, _, _, _, sameTranscript⟩ := writtenFor
  obtain ⟨_, writtenAt, old, sameRow⟩ := writtenWith
  have charge : record.chargeApplied = some (asU128 (asI64 response.chargeApplied)) := by
    rw [← sameCharge, sameRow, sameTranscript]
    rfl
  have payload : record.responsePayload = some response.payload := by
    rw [← samePayload, sameRow, sameTranscript]
    rfl
  refine ⟨settled, response, settledUsage, transcript,
    Reads.grows settled row _ (.settled row now usageUsd _) settledReads, settledNullifier,
    event, ?_, ?_, ?_, ?_⟩
  · rw [sameTranscript]
    rfl
  · rw [sameTranscript]
    rfl
  · simp [Store.settledRow, charge, asI64_asU128]
  · intro oaOrg
    have oaOrg : row.keySource = "oa_org" := oaOrg
    obtain ⟨_, _, _, billed⟩ := event
    cases billed with
    | openrouter source =>
        rw [← settledReads.keySource, oaOrg] at source
        exact absurd source (by decide)
    | oaOrg _ _ built =>
        have leaseSource : lease.keySource = "oa_org" := reads.keySource.symm.trans oaOrg
        change some usageUsd = some _
        rw [usage leaseSource, recovered_usageCredits faithful built payload]

private theorem settled_of_closes (feltHex : P.FeltHexRoundTrips)
    (roundTrips : P.RequestJsonRoundTrips) (faithful : P.JsonFaithful)
    (base : SettlementBase P initial world trace) {lease : OpenRouterLeaseRecord}
    {row : LeaseRow} (member : row ∈ world.store.leases) (reads : Reads P lease row)
    {task : Nat} {usageUsd : Float} {charge : Nat}
    (active : SawActive (historyOf task trace) lease)
    (closes : Closes P (historyOf task trace) lease usageUsd charge) (now : UInt64) :
    Settled P trace (Store.settledRow now usageUsd charge row) := by
  cases closes with
  | settled billed charged payload written =>
      obtain ⟨rowNullifier, _⟩ := reads.owner roundTrips base.2 member
      exact ⟨lease, _, usageUsd, _, Reads.grows lease row _ (.settled row now usageUsd _) reads,
        rowNullifier, ⟨task, saw_historyOf_iff.mp written, active, billed⟩, charged, payload,
        rfl, fun _ => rfl⟩
  | recovered found finalized usage =>
      exact settled_of_recovered feltHex roundTrips faithful base member reads found finalized
        usage now

private theorem settledLeases_performed (feltHex : P.FeltHexRoundTrips)
    (roundTrips : P.RequestJsonRoundTrips) (faithful : P.JsonFaithful) {task : Nat}
    {call : Call} {op : Op} {answer : Answer} {response : Resp op}
    (allowed : Allowed P world.config call (historyOf task trace) op)
    (executed : execute P task op answer world = some (response, after))
    (base : SettlementBase P initial world trace) (held : SettledLeases P world trace)
    {grown : LeaseRow} (member : grown ∈ after.store.leases)
    (finalized : grown.status = "finalized") : Settled P trace grown := by
  rcases (leaseEffect executed).finalized_origin member finalized with
    old | ⟨clientRequestId, usageUsd, charge, row, rowMember, same, sameId, rfl⟩
  · exact held grown old finalized
  · cases same
    obtain ⟨lease, active, leaseId, closes⟩ := allowed
    obtain ⟨other, otherMember, reads⟩ := active.hasLease base.1.2.1
    have sameRow : other = row := by
      apply lease_unique otherMember rowMember
      left
      rw [reads.clientRequestId, leaseId, sameId]
    rw [sameRow] at reads
    exact settled_of_closes feltHex roundTrips faithful base rowMember reads active closes
      world.now

theorem settledLeases_preserved (feltHex : P.FeltHexRoundTrips)
    (roundTrips : P.RequestJsonRoundTrips) (faithful : P.JsonFaithful) :
    (discipline P).Preserved (SettlementBase P initial) (SettledLeases P) where
  started _ _ _ _ held := held.same rfl _
  performed := by
    intro world trace task call op answer response after _ _ allowed executed base held
    have allowed : Allowed P world.config call (historyOf task trace) op := allowed
    intro grown member finalized
    exact (settledLeases_performed feltHex roundTrips faithful allowed executed base held member
      finalized).mono (List.suffix_cons _ trace)
  returned := by
    intro world trace task call result _ _ _ _ _ held
    apply held.same
    rfl
  aborted := by
    intro world trace task _ _ held
    apply held.same
    rfl
  moved := by
    intro world trace change after moved _ held
    have moved : move world change = some after := moved
    apply held.same
    rw [move_eq moved]
  restarted := by
    intro world trace change after rebooted _ held
    have rebooted : reboot P world change = some after := rebooted
    apply held.same
    rw [(reboot_eq rebooted).1]
    rfl

/-- What a closed lease row and the transcript of its nullifier have in common.
-/
structure RecordedFor (P : Protocol) (row : LeaseRow) (reservation : NullifierRow) : Prop where
  nullifier : reservation.nullifier = row.requestNullifier
  finalized : strToStatus reservation.status = .finalized
  charge : reservation.chargeApplied = row.chargeApplied
  usage : row.keySource = "oa_org" →
    row.usageUsd = some (Pricing.creditsToUsd (recordedUsage P (rowToRecord P reservation)))

theorem Settled.recorded (faithful : P.JsonFaithful) (transcripts : Transcripts P world trace)
    {row : LeaseRow} (settled : Settled P trace row) : HasRow world (RecordedFor P row) := by
  obtain ⟨lease, response, usageUsd, transcript, settledBy⟩ := settled
  obtain ⟨task, event, _, billed⟩ := settledBy.written
  obtain ⟨reservation, member, sameNullifier, writtenAt, old, rfl⟩ :=
    transcripts trivial _ event (lease.apiRequest.nullifier, transcript) rfl
  refine ⟨_, member, sameNullifier.trans settledBy.nullifier.symm, rfl, ?_, fun oaOrg => ?_⟩
  · rw [settledBy.charge]
    change transcript.chargeApplied.map asI64 = _
    rw [settledBy.transcribed]
    rfl
  · rw [settledBy.usage oaOrg]
    have leaseSource : lease.keySource = "oa_org" := settledBy.reads.keySource.symm.trans oaOrg
    cases billed with
    | openrouter source =>
        rw [leaseSource] at source
        exact absurd source (by decide)
    | oaOrg _ _ built =>
        have stored : (rowToRecord P (Store.finalizedRow P writtenAt transcript
            old)).responsePayload = _ := settledBy.payload
        rw [recovered_usageCredits faithful built stored]

/-- What a settlement would close a lease row with is what the closed row says.
-/
theorem closing_agrees (faithful : P.JsonFaithful) (transcripts : Transcripts P world trace)
    {row : LeaseRow} (settled : Settled P trace row) {now : UInt64} {usageUsd : Float}
    {charge : Nat} (closed : Settled P trace (Store.settledRow now usageUsd charge row)) :
    row.chargeApplied = some (asI64 charge) ∧
      (row.keySource = "oa_org" → row.usageUsd = some usageUsd) := by
  obtain ⟨reservation, member, recorded⟩ := settled.recorded faithful transcripts
  obtain ⟨other, otherMember, otherRecorded⟩ := closed.recorded faithful transcripts
  obtain rfl := row_unique member otherMember
    (recorded.nullifier.trans otherRecorded.nullifier.symm)
  constructor
  · exact recorded.charge.symm.trans otherRecorded.charge
  · intro oaOrg
    exact (recorded.usage oaOrg).trans (otherRecorded.usage oaOrg).symm

theorem run_settlementBase {world : World} (empty : world.store = Store.empty)
    {state : State (server P)} (run : (State.initial (server P) world).Reaches state) :
    SettlementBase P world.config state.world state.trace :=
  (settlementBase_preserved world.config).holds (settlementBase_initial empty) run

theorem run_settledLeases (feltHex : P.FeltHexRoundTrips)
    (roundTrips : P.RequestJsonRoundTrips) (faithful : P.JsonFaithful) {world : World}
    (empty : world.store = Store.empty) {state : State (server P)}
    (run : (State.initial (server P) world).Reaches state) :
    SettledLeases P state.world state.trace := by
  have unsettled : SettledLeases P world [] := by
    intro row member
    rw [empty] at member
    exact (Table.not_mem_empty row member).elim
  exact (((settlementBase_preserved world.config).and
    (settledLeases_preserved feltHex roundTrips faithful)).holds
      ⟨settlementBase_initial empty, unsettled⟩ run).2

/-- In every run from an empty store, a finalized lease row has the charge, and
for an OA lease the usage, of the one settlement that has written the
transcript of its nullifier.  Every write that closes the row, by that
settlement or by a later recovery, writes just that. -/
theorem lease_settlement (P : Protocol) (feltHex : P.FeltHexRoundTrips)
    (roundTrips : P.RequestJsonRoundTrips) (faithful : P.JsonFaithful) (world : World)
    (empty : world.store = Store.empty) {state : State (server P)}
    (run : (State.initial (server P) world).Reaches state) :
    (∀ row ∈ state.world.store.leases, row.status = "finalized" →
      (∃ lease response usageUsd transcript,
        SettledBy P state.trace lease response usageUsd transcript row ∧
          (response.chargeApplied < 2 ^ 63 →
            row.chargeApplied.map asU128 = transcript.chargeApplied)) ∧
      HasRow state.world (RecordedFor P row) ∧
      ∀ task usageUsd charge,
        .performed task (.finalizeLease row.clientRequestId usageUsd charge) (.ok ()) ∈
          state.trace →
        row.chargeApplied = some (asI64 charge) ∧
          (row.keySource = "oa_org" → row.usageUsd = some usageUsd)) ∧
    ∀ nullifier, state.trace.countP (isFinalization nullifier) ≤ 1 := by
  have base := run_settlementBase (P := P) empty run
  have transcripts := base.1.1.2.2.1
  refine ⟨fun row member finalized => ?_, run_finalizations_le_one run⟩
  have settled := run_settledLeases feltHex roundTrips faithful empty run row member finalized
  refine ⟨?_, settled.recorded faithful transcripts, fun task usageUsd charge closing => ?_⟩
  · obtain ⟨lease, response, usageUsd, transcript, settledBy⟩ := settled
    refine ⟨lease, response, usageUsd, transcript, settledBy, fun small => ?_⟩
    rw [settledBy.charge, settledBy.transcribed, Option.map_some, asU128_asI64 small]
  · have occurred := (settlementBase_preserved (P := P) world.config).occurred_holds
      (settlementBase_initial empty) run
    obtain ⟨earlier, suffix, call, _, _, _, _, allowed, _⟩ := occurred.of_mem closing
    obtain ⟨lease, active, leaseId, closes⟩ := allowed
    have grows := historyOf_suffix task ((List.suffix_cons _ earlier).trans suffix)
    obtain ⟨other, otherMember, reads⟩ := (active.mono grows).hasLease base.1.2.1
    have sameRow : other = row := by
      apply lease_unique otherMember member
      left
      rw [reads.clientRequestId, leaseId]
    rw [sameRow] at reads
    exact closing_agrees faithful transcripts settled (settled_of_closes feltHex roundTrips
      faithful base member reads (active.mono grows) (closes.mono grows) state.world.now)

/-- The server crashes between the two writes of a settlement, and the next
scan closes the lease. -/
theorem lease_settlement_afterCrash :
    ∃ state, (State.initial (server Reference.protocol)
        (Reference.world Reference.leasingConfig)).Reaches state ∧
      ∃ row ∈ state.world.store.leases.rows, row.chargeApplied = some 500000 ∧
        HasRow state.world (RecordedFor Reference.protocol row) := by
  have reached : ∃ state, (State.initial (server Reference.protocol)
        (Reference.world Reference.leasingConfig)).Reaches state ∧
      ∃ row ∈ state.world.store.leases.rows,
        row.chargeApplied = some 500000 ∧ row.status = "finalized" :=
    State.reaches_of_decide (Reference.runs 0 (.issueOpenRouterLease Reference.leaseRequest)
        Reference.issueAnswers ++
      .move (.useKey "hash-1" 0.5) :: .move (.setClock 2000) ::
      Reference.runs 1 .settleDueOpenRouterLeases
        (List.replicate 4 .nothing ++ Reference.billingAnswers 0.5) ++
      .restart ⟨Reference.leasingConfig, ⟨11⟩⟩ ::
      Reference.runs 2 .settleDueOpenRouterLeases (List.replicate 5 .nothing))
      (by decide +kernel)
  obtain ⟨state, run, row, member, charge, finalized⟩ := reached
  exact ⟨state, run, row, member, charge, ((lease_settlement Reference.protocol
    Reference.feltHexRoundTrips Reference.requestJsonRoundTrips Reference.jsonFaithful _ rfl
    run).1 row member finalized).2.1⟩

end Settlement

end ZkApi
