import ZkApi.LeaseRows
import ZkApi.VerifiedRequests

/-!
# Charges and the proven balance

A request is admitted when its proof shows a balance of at least one configured
cap, and a proxied request is charged up to another one.  The charge stays
within the proven balance as long as the cap that applies when the request is
finalized is covered by the one that was required when it was reserved.  A
lease is never charged more than its own bound.
-/

namespace ZkApi

open ConstrainedTable Interleaving

variable {P : Protocol}

section Caps

/-- No charge that `finalizing` lets through for a proxied request exceeds the
balance that `admitting` requires of its proof. -/
def CapsCovered (admitting finalizing : ServerConfig) : Prop :=
  finalizing.requestChargeCap ≤ admitting.requiredSolvency ∧
    (finalizing.policyEnabled = true →
      finalizing.policyChargeCap ≤ admitting.requiredSolvency)
deriving Decidable

theorem chargeCap_le_of_covered {admitting finalizing : ServerConfig}
    (covered : CapsCovered admitting finalizing) (request : ApiRequestV2)
    (response : ProviderResponse) :
    chargeCap finalizing ReservationKind.proxy.asStr request response ≤
      admitting.requiredSolvency := by
  have notLease : ReservationKind.proxy.asStr ≠ ReservationKind.openRouterLease.asStr := by
    decide
  unfold chargeCap
  rw [if_neg notLease]
  split
  · rename_i policyCharged
    simp only [Bool.and_eq_true] at policyCharged
    exact covered.2 policyCharged.1
  · exact covered.1

/-- Whenever a proxied request is finalized, its caps are covered by those under
which it was reserved. -/
def FinalizationsCovered (initial : ServerConfig) (trace : List (Event (server P))) : Prop :=
  ∀ reserver finalizer request transcript before after,
    .performed reserver (.reserve request .proxy) (.ok ()) :: before <:+ after →
    .performed finalizer (.finalize request.nullifier transcript) (.ok ()) :: after <:+ trace →
      CapsCovered (configAt initial before) (configAt initial after)

end Caps

section Charges

theorem Billed.charge_le {history : History Resp} {lease : OpenRouterLeaseRecord}
    {response : ProviderResponse} {usageUsd : Float}
    (billed : Billed P history lease response usageUsd) :
    response.chargeApplied ≤ lease.apiRequest.publicInputs.solvencyBound := by
  cases billed with
  | openrouter => exact Nat.min_le_right _ _
  | oaOrg _ bounded _ => exact bounded

/-- The request a transcript is for was verified, and the transcript does not
charge more than its bound. -/
structure ChargesWithin (P : Protocol) (initial : ServerConfig)
    (earlier : List (Event (server P))) (nullifier : Felt252)
    (transcript : TranscriptRecord) (request : ApiRequestV2) (kind : ReservationKind)
    (charge : Nat) : Prop where
  sameNullifier : nullifier = request.nullifier
  verified : Verified P initial earlier request kind
  inputs : transcript.requestInputsJson =
    some (P.jsonToString (request.publicInputs.toJson P))
  charged : transcript.chargeApplied = some charge
  within : charge ≤ request.publicInputs.solvencyBound

/-- Nothing was verified before the run. -/
private abbrev nothingBefore : ApiRequestV2 → ReservationKind → Prop :=
  fun _ _ => False

/-- The invariant that the charges of a run rest on. -/
private abbrev ChargeBase (P : Protocol) (initial : ServerConfig) (world : World)
    (trace : List (Event (server P))) : Prop :=
  ((Remembers P initial world trace ∧ Accounted P initial nothingBefore world trace) ∧
    SeenLeases P world trace) ∧ LeasesOwned P world

private theorem chargeBase_preserved (initial : ServerConfig) :
    (discipline P).Inductive (ChargeBase P initial) := by
  have accounted := (remembers_preserved (P := P) initial).and
    (accounted_preserved initial nothingBefore)
  have seen := accounted.both seenLeases_preserved
  exact seen.and (leasesOwned_preserved.mono fun world trace base => base.1.1.2.1)

private theorem chargeBase_initial {world : World} (empty : world.store = Store.empty) :
    ChargeBase P world.config world [] := by
  refine ⟨⟨⟨remembers_initial world, ?_, ?_⟩, evidence_initial (M := server P) world⟩, ?_⟩
  · intro row member
    rw [empty] at member
    exact (Table.not_mem_empty row member).elim
  · intro lease member
    rw [empty] at member
    exact (Table.not_mem_empty lease member).elim
  · intro row member
    rw [empty] at member
    exact (Table.not_mem_empty row member).elim

variable {initial : ServerConfig} {world : World} {earlier trace : List (Event (server P))}
  {task : Nat} {call : Call} {transcript : TranscriptRecord}

private theorem verified_of_admitted (collisionFree : P.CollisionFree)
    (jsonInjective : P.RequestJsonInjective) (base : ChargeBase P initial world earlier)
    {request : ApiRequestV2} {kind : ReservationKind}
    (admitted : Admitted P request kind (historyOf task earlier)) :
    Verified P initial earlier request kind :=
  (known_of_admitted collisionFree jsonInjective base.1.1.1.2.1 base.1.1.2 admitted).resolve_left
    id

/-- The lease that a settlement is about belongs to a verified request. -/
private theorem verified_of_active (collisionFree : P.CollisionFree)
    (roundTrips : P.RequestJsonRoundTrips) (base : ChargeBase P initial world earlier)
    {lease : OpenRouterLeaseRecord} (active : SawActive (historyOf task earlier) lease) :
    Verified P initial earlier lease.apiRequest .openRouterLease := by
  obtain ⟨row, member, reads⟩ := active.hasLease base.1.2
  obtain ⟨request, leaseOf, bound⟩ := base.2 row member
  obtain ⟨reservation, reservationMember, boundTo⟩ := bound
  rw [reads.apiRequest_eq roundTrips leaseOf]
  have digest : reservation.apiRequestBinding ≠ none := by
    rw [boundTo.2.2]
    exact Option.some_ne_none _
  obtain ⟨other, kind, known, otherBound⟩ :=
    base.1.1.2.rows reservation reservationMember digest
  obtain ⟨rfl, rfl⟩ := otherBound.unique collisionFree roundTrips.injective boundTo
  exact known.resolve_left id

private theorem finalize_within (collisionFree : P.CollisionFree)
    (roundTrips : P.RequestJsonRoundTrips) (covered : FinalizationsCovered initial trace)
    {nullifier : Felt252}
    (suffix : .performed task (.finalize nullifier transcript) (.ok ()) :: earlier <:+ trace)
    (allowed : Allowed P world.config call (historyOf task earlier)
      (.finalize nullifier transcript)) (base : ChargeBase P initial world earlier) :
    ∃ request kind charge,
      ChargesWithin P initial earlier nullifier transcript request kind charge := by
  obtain ⟨request, response, rfl, cause, record, next, proofBytes, createdAt, finalizedAt,
    found, bounded, rfl⟩ := allowed
  cases cause with
  | executed submitted admitted executed =>
      have verified := verified_of_admitted collisionFree roundTrips.injective base admitted
      have reserved := verified
      obtain ⟨reserver, _, _, _, before, place, _, _, _, _, checked⟩ := reserved
      have bound := admitted.hasRow base.1.1.1.2.1
      rw [kind_of_boundTo base.1.1.1.2.2.2 bound found, base.1.1.1.1] at bounded
      have caps := covered reserver task request _ before earlier place suffix
      refine ⟨request, .proxy, _, rfl, verified, rfl, rfl, ?_⟩
      calc
        response.chargeApplied ≤
            chargeCap (configAt initial earlier) ReservationKind.proxy.asStr request response :=
          bounded
        _ ≤ (configAt initial before).requiredSolvency :=
          chargeCap_le_of_covered caps request response
        _ ≤ request.publicInputs.solvencyBound := checked.solvent
  | settled active billed =>
      exact ⟨_, .openRouterLease, _, rfl, verified_of_active collisionFree roundTrips base active,
        rfl, rfl, billed.charge_le⟩

/-- In every run from an empty store in which finalizations are covered, every
transcript that is written charges at most the bound of the verified request it
is for. -/
theorem charges_within_solvency (P : Protocol) (collisionFree : P.CollisionFree)
    (roundTrips : P.RequestJsonRoundTrips) (world : World)
    (empty : world.store = Store.empty) {state : State (server P)}
    (run : (State.initial (server P) world).Reaches state)
    (covered : FinalizationsCovered world.config state.trace) :
    ∀ task nullifier transcript earlier,
      .performed task (.finalize nullifier transcript) (.ok ()) :: earlier <:+ state.trace →
        ∃ request kind charge,
          ChargesWithin P world.config earlier nullifier transcript request kind charge := by
  intro task nullifier transcript earlier suffix
  have occurred := (chargeBase_preserved world.config).occurred_holds
    (chargeBase_initial empty) run
  obtain ⟨call, before, answer, after, _, allowed, _, base⟩ :=
    performed_occurred occurred suffix
  exact finalize_within collisionFree roundTrips covered suffix allowed base

/-- With the policy off the only cap is covered by itself. -/
theorem charges_within_solvency_withoutPolicy :
    ∃ state task transcript earlier request kind charge,
      (State.initial (server Reference.protocol)
        (Reference.world (Reference.config 10 1 false none))).Reaches state ∧
      .performed task (.finalize ⟨6⟩ transcript) (.ok ()) :: earlier <:+ state.trace ∧
      ChargesWithin Reference.protocol (Reference.config 10 1 false none) earlier ⟨6⟩
        transcript request kind charge := by
  have reached : ∃ state, (State.initial (server Reference.protocol)
        (Reference.world (Reference.config 10 1 false none))).Reaches state ∧
      KeepsConfig (Reference.config 10 1 false none) state.trace ∧
      ∃ event ∈ state.trace, isFinalization ⟨6⟩ event = true :=
    State.reaches_of_decide (Reference.runs 0 (.processRequest Reference.proxyRequest)
      (Reference.requestAnswers 10)) (by decide)
  obtain ⟨state, run, keeps, event, member, finalizes⟩ := reached
  obtain ⟨task, transcript, rfl⟩ := isFinalization_iff.mp finalizes
  obtain ⟨later, earlier, split⟩ := List.append_of_mem member
  have suffix : .performed task (.finalize ⟨6⟩ transcript) (.ok ()) :: earlier <:+
      state.trace := ⟨later, split.symm⟩
  have covered : FinalizationsCovered (Reference.config 10 1 false none) state.trace := by
    intro _ _ _ _ before after reservation finalization
    have afterSuffix := (List.suffix_cons _ after).trans finalization
    have beforeSuffix := (List.suffix_cons _ before).trans (reservation.trans afterSuffix)
    have keepsBefore : KeepsConfig (Reference.config 10 1 false none) before :=
      fun change restarted => keeps change (beforeSuffix.subset restarted)
    have keepsAfter : KeepsConfig (Reference.config 10 1 false none) after :=
      fun change restarted => keeps change (afterSuffix.subset restarted)
    rw [configAt_eq_of_keeps keepsBefore, configAt_eq_of_keeps keepsAfter]
    decide
  obtain ⟨request, kind, charge, within⟩ := charges_within_solvency Reference.protocol
    Reference.collisionFree Reference.requestJsonRoundTrips _ rfl run covered task ⟨6⟩
    transcript earlier suffix
  exact ⟨state, task, transcript, earlier, request, kind, charge, run, suffix, within⟩

/-- With the policy on and its cap the smaller one, a request that has shown
one credit is charged ten. -/
theorem charge_exceeds_solvency :
    tryNew Reference.protocol (Reference.config 10 1 true none) = .ok () ∧
    (Reference.request "req-1" "hello" 6 1).publicInputs.solvencyBound = 1 ∧
    ∃ state, (State.initial (server Reference.protocol)
        (Reference.world (Reference.config 10 1 true none))).Reaches state ∧
      .performed 0 (.reserve (Reference.request "req-1" "hello" 6 1) .proxy) (.ok ()) ∈
        state.trace ∧
      ∃ row ∈ state.world.store.nullifiers.rows,
        row.nullifier = Reference.protocol.feltToHex ⟨6⟩ ∧
        row.status = statusToStr .finalized ∧ row.chargeApplied = some 10 := by
  refine ⟨rfl, rfl, ?_⟩
  exact State.reaches_of_decide (Reference.runs 0
    (.processRequest (Reference.request "req-1" "hello" 6 1)) (Reference.requestAnswers 10))
    (by decide)

end Charges

end ZkApi
