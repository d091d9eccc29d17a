import ZkApi.LeaseStore
import ZkApi.ReferenceProtocol

/-!
# Values of the columns

Amounts are narrowed to signed 64-bit columns and sign-extended when they are read back,
times are narrowed and widened by the same number of bits.  A row is read back as it was
written exactly if its charge survives that, and the settlement scan compares the narrowed
times.
-/

namespace MachineIntegers

/-- An amount of 128 bits that is the sign extension of its low 64 bits. -/
def SignExtended (amount : Nat) : Prop :=
  amount < 2 ^ 63 ∨ 2 ^ 128 - 2 ^ 63 ≤ amount
deriving Decidable

theorem toInt_asI64 (amount : Nat) : (asI64 amount).toInt = (amount : Int).bmod (2 ^ 64) := by
  rw [asI64, Int64.toInt_ofNat']
  rfl

theorem asU128_asI64_iff {amount : Nat} (bounded : amount < 2 ^ 128) :
    asU128 (asI64 amount) = amount ↔ SignExtended amount := by
  unfold asU128 SignExtended
  rw [toInt_asI64]
  have split : (amount : Int).bmod (2 ^ 64) =
      if (amount : Int) % 2 ^ 64 < 2 ^ 63 then (amount : Int) % 2 ^ 64
        else (amount : Int) % 2 ^ 64 - 2 ^ 64 := by
    simp [Int.bmod]
  rw [split]
  split <;> omega

theorem toInt_toInt64 (time : UInt64) :
    time.toInt64.toInt = if time.toNat < 2 ^ 63 then (time.toNat : Int)
      else (time.toNat : Int) - 2 ^ 64 := by
  have below := time.toNat_lt
  have narrowed : time.toInt64.toInt = (time.toNat : Int).bmod (2 ^ 64) := by
    calc time.toInt64.toInt
        = (UInt64.ofNat time.toNat).toInt64.toInt := by rw [UInt64.ofNat_toNat]
      _ = (asI64 time.toNat).toInt := by rw [UInt64.toInt64_ofNat', asI64]
      _ = (time.toNat : Int).bmod (2 ^ 64) := toInt_asI64 _
  rw [narrowed, Int.bmod]
  split <;> split <;> omega

/-- The signed columns of two times compare like the times, unless exactly one of the times
is too large for a signed column. -/
theorem toInt64_le_iff (first second : UInt64) :
    ((first.toInt64 ≤ second.toInt64) ↔ first ≤ second) ↔
      (first.toNat < 2 ^ 63 ↔ second.toNat < 2 ^ 63) := by
  have belowFirst := first.toNat_lt
  have belowSecond := second.toNat_lt
  rw [Int64.le_iff_toInt_le, UInt64.le_iff_toNat_le, toInt_toInt64, toInt_toInt64]
  split <;> split <;> omega

end MachineIntegers

namespace ZkApi

open ConstrainedTable MachineIntegers

section Records

/-- What a record becomes when this transcript is written at this time. -/
def TranscriptRecord.written (record transcript : TranscriptRecord) (now : UInt64) :
    TranscriptRecord :=
  { transcript with
    nullifier := record.nullifier
    status := .finalized
    reservationKind := record.reservationKind
    clientRequestId := record.clientRequestId
    payloadHash := record.payloadHash
    apiRequestBinding := record.apiRequestBinding
    createdAt := record.createdAt
    finalizedAt := some now }

/-- The charge of a transcript is the sign extension of its column. -/
def TranscriptRecord.ChargeFits (transcript : TranscriptRecord) : Prop :=
  ∀ charge, transcript.chargeApplied = some charge → SignExtended charge

/-- What the lease of a request starts with. -/
def OpenRouterLeaseRecord.provisioning (request : ApiRequestV2) (keySource : String)
    (issuedAt expiresAt settleAfter : UInt64) (spendingLimitUsd : Float) :
    OpenRouterLeaseRecord where
  clientRequestId := request.clientRequestId
  requestNullifier := request.nullifier
  apiRequest := request
  keyHash := none
  keySource := keySource
  status := "provisioning"
  issuedAt := issuedAt
  expiresAt := expiresAt
  settleAfter := settleAfter
  spendingLimitUsd := spendingLimitUsd
  usageUsd := none
  chargeApplied := none
  lastError := none

variable {P : Protocol}

theorem parseOptFelt_feltToHex (felts : P.FeltHexRoundTrips) (value : Option Felt252) :
    parseOptFelt P (value.map P.feltToHex) = value := by
  cases value with
  | none => rfl
  | some felt => exact felts felt

/-- Only the charge may be read back different from how it was written. -/
theorem rowToRecord_finalizedRow (felts : P.FeltHexRoundTrips)
    (signatures : P.SignatureJsonRoundTrips) (now : UInt64) (transcript : TranscriptRecord)
    (row : NullifierRow) :
    rowToRecord P (Store.finalizedRow P now transcript row) =
      { (rowToRecord P row).written transcript now with
        chargeApplied := transcript.chargeApplied.map fun charge => asU128 (asI64 charge) } := by
  have status : strToStatus (statusToStr .finalized) = .finalized := strToStatus_statusToStr _
  have signature : (transcript.nextStateSig.map P.signatureToJson).bind P.signatureFromJson =
      transcript.nextStateSig := by
    cases transcript.nextStateSig with
    | none => rfl
    | some found => exact signatures found
  simp only [rowToRecord, Store.finalizedRow, TranscriptRecord.written, status, signature,
    parseOptFelt_feltToHex felts, Option.map_map, Option.map_some, UInt64.toUInt64_toInt64]
  congr 1
  · cases transcript.responseCode <;> simp
  · cases transcript.nextStateSigEpoch <;> simp
  · cases transcript.policyReasonCode <;> simp

theorem chargeFits_iff {transcript : TranscriptRecord}
    (bounded : ∀ charge, transcript.chargeApplied = some charge → charge < 2 ^ 128) :
    transcript.chargeApplied.map (fun charge => asU128 (asI64 charge)) =
      transcript.chargeApplied ↔ transcript.ChargeFits := by
  unfold TranscriptRecord.ChargeFits
  cases applied : transcript.chargeApplied with
  | none => simp
  | some charge =>
    have narrow := asU128_asI64_iff (bounded charge applied)
    simp [narrow]

/-- A transcript is read back as it was written if and only if its charge fits. -/
theorem Store.finalize_reads (felts : P.FeltHexRoundTrips) (signatures : P.SignatureJsonRoundTrips)
    {store after : Store} {now : UInt64} {nullifier : Felt252} {transcript : TranscriptRecord}
    (bounded : ∀ charge, transcript.chargeApplied = some charge → charge < 2 ^ 128)
    (finalized : store.finalize P now nullifier transcript = (.ok (), after)) :
    ∃ record, store.lookupByNullifier P nullifier = some record ∧
      (after.lookupByNullifier P nullifier = some (record.written transcript now) ↔
        transcript.ChargeFits) := by
  unfold Store.finalize at finalized
  split at finalized
  · cases finalized
  rename_i nullifiers updated
  split at finalized
  · cases finalized
  rename_i affected
  obtain ⟨-, rfl⟩ := Prod.mk.inj finalized
  obtain ⟨row, member, reserved⟩ := Table.exists_of_affected affected
  have named : row.nullifier = P.feltToHex nullifier := (of_decide_eq_true reserved).1
  have found : (store.nullifiers.first fun row => row.nullifier = P.feltToHex nullifier) =
      some row := by
    apply Table.first_of_mem NullifierRow.clash_symm member (decide_eq_true named)
    intro other same
    exact (of_decide_eq_true same).trans named.symm
  have changed : (nullifiers.first fun row => row.nullifier = P.feltToHex nullifier) =
      some (Store.finalizedRow P now transcript row) := by
    rw [Table.first_update updated, found, Option.map_some, Table.updatedRow, if_pos reserved]
    intro other
    unfold Table.updatedRow
    split <;> rfl
  refine ⟨rowToRecord P row, ?_, ?_⟩
  · rw [Store.lookupByNullifier, found, Option.map_some]
  · rw [Store.lookupByNullifier, changed, Option.map_some, Option.some.injEq,
      rowToRecord_finalizedRow felts signatures, ← chargeFits_iff bounded]
    constructor
    · intro same
      exact congrArg TranscriptRecord.chargeApplied same
    · intro same
      rw [same]
      rfl

end Records

section Leases

variable {P : Protocol} {store after : Store} {now : UInt64}

/-- The times of a new lease are read back as they were written. -/
theorem Store.createOpenRouterLease_reads (felts : P.FeltHexRoundTrips)
    (requests : P.RequestJsonRoundTrips) {request : ApiRequestV2} {keySource : String}
    {issuedAt expiresAt settleAfter : UInt64} {spendingLimitUsd : Float}
    (created : store.createOpenRouterLease P now request keySource issuedAt expiresAt settleAfter
      spendingLimitUsd = (.ok (), after)) :
    after.lookupOpenRouterLease P request.clientRequestId =
      some (.provisioning request keySource issuedAt expiresAt settleAfter spendingLimitUsd) := by
  unfold Store.createOpenRouterLease at created
  split at created
  case h_2 => cases created
  rename_i leases inserted
  obtain ⟨-, rfl⟩ := Prod.mk.inj created
  have member := (Table.mem_insert inserted).mpr (Or.inr rfl)
  have found : (leases.first fun row => row.clientRequestId = request.clientRequestId) =
      some (Store.provisioningRow P now request keySource issuedAt expiresAt settleAfter
        spendingLimitUsd) := by
    apply Table.first_of_mem LeaseRow.clash_symm member (decide_eq_true rfl)
    intro other same
    exact Or.inl (of_decide_eq_true same)
  rw [Store.lookupOpenRouterLease, found, Option.bind_some, rowToOpenRouterLease]
  simp only [Store.provisioningRow]
  rw [requests request, felts request.nullifier]
  simp [OpenRouterLeaseRecord.provisioning]

/-- A statement that changes rows of leases and keeps their ids and their requests. -/
theorem Store.changed_lease_reads {leases : Table LeaseRow.Clash} {condition : LeaseRow → Bool}
    {change : LeaseRow → LeaseRow} {clientRequestId : String} {lease : OpenRouterLeaseRecord}
    (updated : store.leases.update condition change = some leases)
    (names : ∀ row, (change row).clientRequestId = row.clientRequestId)
    (held : store.lookupOpenRouterLease P clientRequestId = some lease) :
    ∃ row ∈ store.leases, row.clientRequestId = clientRequestId ∧
      rowToOpenRouterLease P row = some lease ∧
        Store.lookupOpenRouterLease P { store with leases := leases } clientRequestId =
          rowToOpenRouterLease P (Table.updatedRow condition change row) := by
  obtain ⟨row, found, reads⟩ := Option.bind_eq_some_iff.mp held
  obtain ⟨member, named⟩ := Table.first_eq_some found
  refine ⟨row, member, of_decide_eq_true named, reads, ?_⟩
  rw [Store.lookupOpenRouterLease, Table.first_update updated, found, Option.map_some,
    Option.bind_some]
  intro other
  unfold Table.updatedRow
  split
  · rw [names]
  · rfl

/-- A statement that changes the row of this lease. -/
theorem Store.updated_lease_reads {leases : Table LeaseRow.Clash} {condition : LeaseRow → Bool}
    {change : LeaseRow → LeaseRow} {clientRequestId : String} {lease : OpenRouterLeaseRecord}
    (updated : store.leases.update condition change = some leases)
    (names : ∀ row, (change row).clientRequestId = row.clientRequestId)
    (covers : ∀ row ∈ store.leases, row.clientRequestId = clientRequestId → condition row = true)
    (held : store.lookupOpenRouterLease P clientRequestId = some lease) :
    ∃ row, rowToOpenRouterLease P row = some lease ∧
      Store.lookupOpenRouterLease P { store with leases := leases } clientRequestId =
        rowToOpenRouterLease P (change row) := by
  obtain ⟨row, member, named, reads, looked⟩ := Store.changed_lease_reads updated names held
  rw [Table.updatedRow, if_pos (covers row member named)] at looked
  exact ⟨row, reads, looked⟩

/-- A statement that changes the row of this lease while it is being provisioned. -/
theorem Store.updateProvisioning_reads {change : LeaseRow → LeaseRow}
    {clientRequestId refused : String} {lease : OpenRouterLeaseRecord}
    (updated : store.updateProvisioning clientRequestId change refused = (.ok (), after))
    (names : ∀ row, (change row).clientRequestId = row.clientRequestId)
    (held : store.lookupOpenRouterLease P clientRequestId = some lease) :
    ∃ row, rowToOpenRouterLease P row = some lease ∧
      after.lookupOpenRouterLease P clientRequestId = rowToOpenRouterLease P (change row) := by
  unfold Store.updateProvisioning at updated
  split at updated
  · cases updated
  rename_i leases changed
  split at updated
  · cases updated
  rename_i affected
  obtain ⟨-, rfl⟩ := Prod.mk.inj updated
  have one : store.leases.affected (Store.isProvisioning clientRequestId) ≠ 0 := by omega
  obtain ⟨target, inside, provisioning⟩ := Table.exists_of_affected one
  apply Store.updated_lease_reads changed names _ held
  intro row member named
  have same : row = target := by
    apply Table.eq_of_clash LeaseRow.clash_symm member inside
    exact Or.inl (named.trans (of_decide_eq_true provisioning).1.symm)
  exact same ▸ provisioning

/-- The times of an updated lease are read back as they were written. -/
theorem Store.updateOpenRouterLeaseTiming_reads {clientRequestId : String}
    {expiresAt settleAfter : UInt64} {lease : OpenRouterLeaseRecord}
    (held : store.lookupOpenRouterLease P clientRequestId = some lease)
    (timed : store.updateOpenRouterLeaseTiming now clientRequestId expiresAt settleAfter =
      (.ok (), after)) :
    after.lookupOpenRouterLease P clientRequestId =
      some { lease with expiresAt := expiresAt, settleAfter := settleAfter } := by
  obtain ⟨row, reads, looked⟩ := Store.updateProvisioning_reads timed (fun _ => rfl) held
  rw [looked]
  obtain ⟨request, decoded, rfl⟩ := Option.map_eq_some_iff.mp reads
  simp [rowToOpenRouterLease, Store.timedRow, decoded]

/-- The key of an activated lease is read back as it was written. -/
theorem Store.activateOpenRouterLease_reads {clientRequestId keyHash : String}
    {lease : OpenRouterLeaseRecord}
    (held : store.lookupOpenRouterLease P clientRequestId = some lease)
    (activated : store.activateOpenRouterLease now clientRequestId keyHash = (.ok (), after)) :
    after.lookupOpenRouterLease P clientRequestId =
      some { lease with status := "active", keyHash := some keyHash } := by
  obtain ⟨row, reads, looked⟩ := Store.updateProvisioning_reads activated (fun _ => rfl) held
  rw [looked]
  obtain ⟨request, decoded, rfl⟩ := Option.map_eq_some_iff.mp reads
  simp [rowToOpenRouterLease, Store.activeRow, decoded]

/-- The error of an active lease is read back as it was written, and no other lease gets one. -/
theorem Store.recordOpenRouterLeaseError_reads {clientRequestId error : String}
    {lease : OpenRouterLeaseRecord}
    (held : store.lookupOpenRouterLease P clientRequestId = some lease)
    (recorded : store.recordOpenRouterLeaseError now clientRequestId error = (.ok (), after)) :
    after.lookupOpenRouterLease P clientRequestId =
      some (if lease.status = "active" then { lease with lastError := some error } else lease) := by
  unfold Store.recordOpenRouterLeaseError at recorded
  split at recorded
  · cases recorded
  rename_i leases changed
  obtain ⟨-, rfl⟩ := Prod.mk.inj recorded
  obtain ⟨row, -, named, reads, looked⟩ :=
    Store.changed_lease_reads changed (fun _ => rfl) held
  rw [looked]
  obtain ⟨request, decoded, rfl⟩ := Option.map_eq_some_iff.mp reads
  by_cases active : row.status = "active"
  · simp [rowToOpenRouterLease, Table.updatedRow, named, active, decoded]
  · simp [rowToOpenRouterLease, Table.updatedRow, active, decoded]

/-- The charge of a settled lease is read back as it was written if and only if it fits. -/
theorem Store.finalizeOpenRouterLease_reads {clientRequestId : String} {usageUsd : Float}
    {charge : Nat} {lease : OpenRouterLeaseRecord} (bounded : charge < 2 ^ 128)
    (held : store.lookupOpenRouterLease P clientRequestId = some lease)
    (settled : store.finalizeOpenRouterLease now clientRequestId usageUsd charge =
      (.ok (), after)) :
    after.lookupOpenRouterLease P clientRequestId =
      some { lease with
        status := "finalized", usageUsd := some usageUsd, chargeApplied := some charge,
        lastError := none } ↔ SignExtended charge := by
  unfold Store.finalizeOpenRouterLease at settled
  split at settled
  · cases settled
  rename_i leases updated
  obtain ⟨-, rfl⟩ := Prod.mk.inj settled
  obtain ⟨row, reads, looked⟩ := Store.updated_lease_reads updated (fun _ => rfl)
    (fun _ _ named => decide_eq_true named) held
  rw [looked, ← asU128_asI64_iff bounded]
  obtain ⟨request, decoded, rfl⟩ := Option.map_eq_some_iff.mp reads
  simp [rowToOpenRouterLease, Store.settledRow, decoded]

/-- The settlement scan returns the active leases whose narrowed time has come. -/
theorem Store.mem_dueOpenRouterLeases {row : LeaseRow} {lease : OpenRouterLeaseRecord}
    (member : row ∈ store.leases) (reads : rowToOpenRouterLease P row = some lease)
    (active : row.status = "active") :
    lease ∈ store.dueOpenRouterLeases P now ↔ lease.settleAfter.toInt64 ≤ now.toInt64 := by
  have name : ∀ {other : LeaseRow}, rowToOpenRouterLease P other = some lease →
      other.clientRequestId = lease.clientRequestId ∧
        other.settleAfter = lease.settleAfter.toInt64 := by
    intro other decodes
    obtain ⟨request, _, rfl⟩ := Option.map_eq_some_iff.mp decodes
    simp
  rw [Store.dueOpenRouterLeases, List.mem_filterMap, ← (name reads).2]
  constructor
  · rintro ⟨other, listed, decodes⟩
    obtain ⟨inside, due⟩ := Table.mem_select.mp (List.mem_mergeSort.mp listed)
    have same : other = row := by
      apply Table.eq_of_clash LeaseRow.clash_symm inside member
      exact Or.inl ((name decodes).1.trans (name reads).1.symm)
    exact same ▸ (of_decide_eq_true due).2
  · intro come
    have due : Store.isDue now row = true := decide_eq_true ⟨active, come⟩
    exact ⟨row, List.mem_mergeSort.mpr (Table.mem_select.mpr ⟨member, due⟩), reads⟩

/-- Everything that was written is read back, and the scan compares times, exactly as long as
charges are sign extensions of their low 64 bits and no time but the other is too large for a
signed column. -/
theorem columns_faithful_iff (felts : P.FeltHexRoundTrips)
    (signatures : P.SignatureJsonRoundTrips) (requests : P.RequestJsonRoundTrips)
    (store : Store) (now : UInt64) :
    (∀ (nullifier : Felt252) (transcript : TranscriptRecord) (after : Store),
      (∀ charge, transcript.chargeApplied = some charge → charge < 2 ^ 128) →
        store.finalize P now nullifier transcript = (.ok (), after) →
          ∃ record, store.lookupByNullifier P nullifier = some record ∧
            (after.lookupByNullifier P nullifier = some (record.written transcript now) ↔
              transcript.ChargeFits)) ∧
    (∀ (request : ApiRequestV2) (keySource : String) (issuedAt expiresAt settleAfter : UInt64)
      (spendingLimitUsd : Float) (after : Store),
      store.createOpenRouterLease P now request keySource issuedAt expiresAt settleAfter
        spendingLimitUsd = (.ok (), after) →
          after.lookupOpenRouterLease P request.clientRequestId = some
            (.provisioning request keySource issuedAt expiresAt settleAfter spendingLimitUsd)) ∧
    (∀ (clientRequestId : String) (expiresAt settleAfter : UInt64)
      (lease : OpenRouterLeaseRecord) (after : Store),
      store.lookupOpenRouterLease P clientRequestId = some lease →
        store.updateOpenRouterLeaseTiming now clientRequestId expiresAt settleAfter =
          (.ok (), after) →
            after.lookupOpenRouterLease P clientRequestId =
              some { lease with expiresAt := expiresAt, settleAfter := settleAfter }) ∧
    (∀ (clientRequestId keyHash : String) (lease : OpenRouterLeaseRecord) (after : Store),
      store.lookupOpenRouterLease P clientRequestId = some lease →
        store.activateOpenRouterLease now clientRequestId keyHash = (.ok (), after) →
          after.lookupOpenRouterLease P clientRequestId =
            some { lease with status := "active", keyHash := some keyHash }) ∧
    (∀ (clientRequestId error : String) (lease : OpenRouterLeaseRecord) (after : Store),
      store.lookupOpenRouterLease P clientRequestId = some lease →
        store.recordOpenRouterLeaseError now clientRequestId error = (.ok (), after) →
          after.lookupOpenRouterLease P clientRequestId = some (if lease.status = "active" then
            { lease with lastError := some error } else lease)) ∧
    (∀ (clientRequestId : String) (usageUsd : Float) (charge : Nat)
      (lease : OpenRouterLeaseRecord) (after : Store), charge < 2 ^ 128 →
      store.lookupOpenRouterLease P clientRequestId = some lease →
        store.finalizeOpenRouterLease now clientRequestId usageUsd charge = (.ok (), after) →
          (after.lookupOpenRouterLease P clientRequestId =
            some { lease with
              status := "finalized", usageUsd := some usageUsd, chargeApplied := some charge,
              lastError := none } ↔ SignExtended charge)) ∧
    ∀ (row : LeaseRow) (lease : OpenRouterLeaseRecord), row ∈ store.leases →
      rowToOpenRouterLease P row = some lease → row.status = "active" →
        ((lease ∈ store.dueOpenRouterLeases P now ↔ lease.settleAfter ≤ now) ↔
          (lease.settleAfter.toNat < 2 ^ 63 ↔ now.toNat < 2 ^ 63)) := by
  refine ⟨?_, ?_, ?_, ?_, ?_, ?_, ?_⟩
  · intro nullifier transcript after bounded finalized
    exact Store.finalize_reads felts signatures bounded finalized
  · intro request keySource issuedAt expiresAt settleAfter spendingLimitUsd after created
    exact Store.createOpenRouterLease_reads felts requests created
  · intro clientRequestId expiresAt settleAfter lease after held timed
    exact Store.updateOpenRouterLeaseTiming_reads held timed
  · intro clientRequestId keyHash lease after held activated
    exact Store.activateOpenRouterLease_reads held activated
  · intro clientRequestId error lease after held recorded
    exact Store.recordOpenRouterLeaseError_reads held recorded
  · intro clientRequestId usageUsd charge lease after bounded held settled
    exact Store.finalizeOpenRouterLease_reads bounded held settled
  · intro row lease member reads active
    rw [Store.mem_dueOpenRouterLeases member reads active]
    exact toInt64_le_iff _ _

end Leases

section Sample

/-- A reservation, and transcripts for it. -/
noncomputable def reservedSample : Store :=
  (Store.empty.reserveWithKind Reference.protocol 1000 ⟨1⟩ "r" ⟨2⟩ "proxy" none).2

noncomputable def chargedSample (charge : Nat) : TranscriptRecord :=
  { rowToRecord Reference.protocol
      (Store.reservedRow Reference.protocol 1000 ⟨1⟩ "r" ⟨2⟩ "proxy" none) with
    chargeApplied := some charge, responseCode := some 200, responsePayload := some "hi" }

/-- A small charge is read back. -/
theorem small_charge_read : ∃ (after : Store) (record : TranscriptRecord),
    reservedSample.finalize Reference.protocol 1001 ⟨1⟩ (chargedSample 5) = (.ok (), after) ∧
      after.lookupByNullifier Reference.protocol ⟨1⟩ =
        some (record.written (chargedSample 5) 1001) := by
  obtain ⟨finalizes, -⟩ := columns_faithful_iff Reference.feltHexRoundTrips
    Reference.signatureJsonRoundTrips Reference.requestJsonRoundTrips reservedSample 1001
  have charge : ∀ charge, (chargedSample 5).chargeApplied = some charge → charge = 5 :=
    fun _ same => (Option.some.inj same).symm
  obtain ⟨record, _, reads⟩ := finalizes ⟨1⟩ (chargedSample 5) _
    (fun found same => charge found same ▸ by decide) rfl
  exact ⟨_, record, rfl, reads.mpr fun found same => charge found same ▸ by decide⟩

/-- A charge of 2⁶³ credits is read back as another one. -/
theorem wide_charge_changes : ∃ (after : Store) (record : TranscriptRecord),
    reservedSample.lookupByNullifier Reference.protocol ⟨1⟩ = some record ∧
      reservedSample.finalize Reference.protocol 1001 ⟨1⟩ (chargedSample (2 ^ 63)) =
        (.ok (), after) ∧
      (after.lookupByNullifier Reference.protocol ⟨1⟩).bind (·.chargeApplied) =
        some (2 ^ 128 - 2 ^ 63) := by
  exact ⟨_, _, rfl, rfl, by decide⟩

end Sample

end ZkApi
