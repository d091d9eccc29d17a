import ZkApi.LeaseHandlers
import ZkApi.TimedRuns

/-!
# Revoking the keys of an interrupted lease

A server that stops after a runtime key was made and before it is activated can never learn the
key again.  When the lease is resumed it lists all keys of the service, page by page, and revokes
those with the name of the lease, before the row may be removed and a new key made.  The list may
grow meanwhile.
-/

namespace ZkApi

open Interleaving Program Handler

section Service

/-- The lease rows in the store and the keys of the service at each moment, the rows that the store
has accepted and the revocations that the service has. -/
structure KeyService where
  rows : Nat → String → Option OpenRouterLeaseRecord
  written : Nat → ApiRequestV2 → Prop
  keys : Nat → List KeyData
  revoked : Nat → String → Prop

/-- What is answered at a moment.  A page of keys starts at the offset, and none is empty before
the end of the list.  Any request may fail. -/
def KeyService.Answers (service : KeyService) (time : Nat) : (op : Op) → Resp op → Prop
  | .openrouterList offset, .received status _ _ (.ok data) => status.isSuccess = true →
      data <+: (service.keys time).drop offset ∧
        (data = [] → (service.keys time).length ≤ offset)
  | .lookupLease clientRequestId, found => found = service.rows time clientRequestId
  | .createLease request .., reply => reply = .ok () → service.written time request
  | .openrouterDelete hash, reply => World.isDeletion reply = true → service.revoked time hash
  | _, _ => True

/-- No key leaves the list between two moments. -/
def KeyService.Grows (service : KeyService) (start finish : Nat) : Prop :=
  ∀ time later, start ≤ time → time ≤ later → later ≤ finish →
    List.Sublist (service.keys time) (service.keys later)

theorem KeyService.Grows.mono {service : KeyService} {start finish first last : Nat}
    (grows : service.Grows start finish) (after : start ≤ first) (before : last ≤ finish) :
    service.Grows first last :=
  fun time later waits le ends => grows time later (after.trans waits) le (ends.trans before)

end Service

section Listing

variable {service : KeyService} {now later : Nat}

theorem takes_propagate {α : Type} {answers : Nat → (op : Op) → Resp op → Prop}
    {result : Except ServerError α} {value : α}
    (takes : Takes answers now (propagate result) (.ok value) later) :
    result = .ok value ∧ later = now := by
  cases result with
  | ok found =>
      obtain ⟨same, le⟩ := takes_pure.mp takes
      cases same
      exact ⟨rfl, le⟩
  | error cause =>
      obtain ⟨impossible, _⟩ := takes_fail.mp takes
      cases impossible

theorem takes_ensure {answers : Nat → (op : Op) → Resp op → Prop} {condition : Prop}
    [Decidable condition] {cause : ServerError}
    (takes : Takes answers now (ensure condition cause) (.ok ()) later) :
    condition ∧ later = now := by
  unfold ensure require at takes
  split at takes
  · rename_i holds
    exact ⟨holds, (takes_pure.mp takes).2⟩
  · obtain ⟨impossible, _⟩ := takes_fail.mp takes
    cases impossible

/-- A key of the name that is in the list from the start of the listing is found. -/
theorem hashesNamed_complete {name : String} {pages offset : Nat} {matching hashes : List String}
    {key : KeyData} (named : key.name = name) (hashed : key.hash ≠ "")
    (takes : Takes service.Answers now (hashesNamed name pages offset matching) (.ok hashes) later)
    (grows : service.Grows now later)
    (listed : key.hash ∈ matching ∨ key ∈ (service.keys now).drop offset) :
    key.hash ∈ hashes := by
  induction pages generalizing now offset matching with
  | zero =>
      obtain ⟨impossible, _⟩ := takes_fail.mp takes
      cases impossible
  | succ pages ih =>
      obtain ⟨reply, middle, called, decoding⟩ := takes_seq takes
      obtain ⟨waits, response, answered, same⟩ := takes_call.mp called
      cases same
      obtain ⟨data, reached, propagated, rest⟩ := takes_seq decoding
      obtain ⟨decoded, rfl⟩ := takes_propagate propagated
      obtain ⟨status, retryAfter, text, rfl, success⟩ := decodeReply_eq_ok decoded
      obtain ⟨page, last⟩ := answered success
      -- What is still to come has not moved to an earlier place.
      have ahead : key.hash ∈ matching ∨ key ∈ (service.keys reached).drop offset :=
        listed.imp_right fun member =>
          ((grows now reached le_rfl waits rest.le).drop offset).subset member
      split at rest
      · rename_i empty
        obtain ⟨same, _⟩ := takes_pure.mp rest
        cases same
        rcases ahead with found | member
        · exact found
        · rw [List.drop_eq_nil_of_le (last (List.isEmpty_iff.mp empty))] at member
          cases member
      · obtain ⟨_, between, bounded, further⟩ := takes_seq rest
        obtain ⟨_, rfl⟩ := takes_ensure bounded
        refine ih further (grows.mono waits le_rfl) ?_
        rcases ahead with found | member
        · exact .inl (List.mem_append_left _ found)
        · obtain ⟨others, split⟩ := page
          rw [← split] at member
          rcases List.mem_append.mp member with here | there
          · refine .inl (List.mem_append_right _ (List.mem_map.mpr ⟨key, ?_, rfl⟩))
            exact List.mem_filter.mpr ⟨here, by simp [named, hashed]⟩
          · refine .inr ?_
            rw [← List.drop_drop, ← split, List.drop_left]
            exact there

end Listing

section Revocation

variable {service : KeyService} {now later : Nat}

theorem deleteKey_revokes {hash : String}
    (takes : Takes service.Answers now (deleteKey hash) (.ok ()) later) :
    now ≤ later ∧ service.revoked later hash := by
  obtain ⟨reply, middle, called, rest⟩ := takes_seq takes
  obtain ⟨waits, response, answered, same⟩ := takes_call.mp called
  cases same
  cases reply with
  | unsent error =>
      obtain ⟨impossible, _⟩ := takes_fail.mp rest
      cases impossible
  | unread status retryAfter error =>
      obtain ⟨success, rfl⟩ := takes_ensure rest
      exact ⟨waits, answered success⟩
  | received status retryAfter text decoded =>
      obtain ⟨success, rfl⟩ := takes_ensure rest
      exact ⟨waits, answered success⟩

theorem deleteKeys_revoke {hashes : List String}
    (takes : Takes service.Answers now (forEach hashes deleteKey) (.ok ()) later) :
    ∀ hash ∈ hashes, ∃ time, now ≤ time ∧ time ≤ later ∧ service.revoked time hash := by
  induction hashes generalizing now with
  | nil => exact fun hash member => absurd member List.not_mem_nil
  | cons first rest ih =>
      obtain ⟨_, middle, deleted, others⟩ := takes_seq takes
      obtain ⟨waits, gone⟩ := deleteKey_revokes deleted
      intro hash member
      rcases List.mem_cons.mp member with rfl | member
      · exact ⟨middle, waits, others.le, gone⟩
      · obtain ⟨time, after, before, gone⟩ := ih others hash member
        exact ⟨time, waits.trans after, before, gone⟩

/-- Between two moments the keys of a name have been listed and then revoked: those at least that
were there at first, if no key left the list before the listing was over. -/
def KeyService.Reconciled (service : KeyService) (name : String) (start finish : Nat) : Prop :=
  ∃ listed, start ≤ listed ∧ listed ≤ finish ∧ (service.Grows start listed →
    ∀ key ∈ service.keys start, key.name = name → key.hash ≠ "" →
      ∃ time, listed ≤ time ∧ time ≤ finish ∧ service.revoked time key.hash)

theorem deleteKeysNamed_reconciles {name : String}
    (takes : Takes service.Answers now (deleteKeysNamed name) (.ok ()) later) :
    service.Reconciled name now later := by
  obtain ⟨hashes, listed, listing, deleting⟩ := takes_seq takes
  refine ⟨listed, listing.le, deleting.le, fun grows key member named hashed => ?_⟩
  have found := hashesNamed_complete named hashed listing grows (.inr member)
  exact deleteKeys_revoke deleting key.hash found

theorem KeyService.Reconciled.mono {name : String} {start finish : Nat}
    (reconciled : service.Reconciled name start finish) (le : finish ≤ later) :
    service.Reconciled name start later := by
  obtain ⟨listed, begins, before, revoked⟩ := reconciled
  refine ⟨listed, begins, before.trans le, fun grows key member named hashed => ?_⟩
  obtain ⟨time, after, within, gone⟩ := revoked grows key member named hashed
  exact ⟨time, after, within.trans le, gone⟩

end Revocation

section Issuance

variable {service : KeyService} {request : ApiRequestV2} {start now : Nat}

/-- An operation that neither makes a key nor writes or removes a row. -/
def Op.isQuiet : Op → Bool
  | .openrouterCreate _ _ _ => false
  | .createLease .. => false
  | .removeFailedLease _ => false
  | _ => true

theorem only_propagate {α : Type} {kind : Op → Bool} (result : Except ServerError α) :
    (propagate result).Only kind := by
  cases result with
  | ok value => exact .ret value
  | error cause => exact .fail _

theorem only_deleteKey (hash : String) : (deleteKey hash).Only Op.isQuiet :=
  (only_call rfl).bind fun reply => by
    cases reply with
    | unsent error => exact .fail _
    | unread status retryAfter error => exact only_require _ _
    | received status retryAfter text decoded => exact only_require _ _

theorem only_hashesNamed (name : String) (pages offset : Nat) (matching : List String) :
    (hashesNamed name pages offset matching).Only Op.isQuiet := by
  induction pages generalizing offset matching with
  | zero => exact .fail _
  | succ pages ih =>
      refine (only_call rfl).bind fun reply => (only_propagate _).bind fun data => ?_
      split
      · exact .ret _
      · exact (only_require _ _).bind fun _ => ih _ _

theorem only_deleteKeysNamed (name : String) : (deleteKeysNamed name).Only Op.isQuiet := by
  refine (only_hashesNamed name 10001 0 []).bind fun hashes => ?_
  induction hashes with
  | nil => exact .ret ()
  | cons hash hashes ih => exact (only_deleteKey hash).bind fun _ => ih

theorem only_validateAndReserve (P : Protocol) (config : ServerConfig) (request : ApiRequestV2)
    (kind : ReservationKind) :
    (validateAndReserve P config request kind).Only Op.isQuiet := by
  unfold validateAndReserve
  refine (only_require _ _).bind fun _ => (only_require _ _).bind fun _ =>
    (only_call rfl).bind fun existing => ?_
  cases existing with
  | some existing =>
      refine (only_require _ _).bind fun _ => ?_
      split
      · exact (only_propagate _).bind fun _ => .ret _
      · exact .ret _
      · exact .fail _
  | none =>
      refine (only_call rfl).bind fun root => (only_require _ _).bind fun _ =>
        (only_require _ _).bind fun _ => (only_call rfl).bind fun time => ?_
      refine (only_require _ _).bind fun _ => (only_require _ _).bind fun _ =>
        (only_require _ _).bind fun _ => (only_propagate _).bind fun _ => ?_
      exact (only_require _ _).bind fun _ => (only_call rfl).bind fun _ =>
        (only_propagate _).bind fun _ => .ret _

theorem only_oaCreateKey (P : Protocol) (clientRequestId : String) (limitUsd : Float)
    (limitCredits : Nat) (ttlSeconds : UInt64) :
    (oaCreateKey P clientRequestId limitUsd limitCredits ttlSeconds).Only Op.isQuiet :=
  (only_require _ _).bind fun _ => (only_call rfl).bind fun _ =>
    (only_propagate _).bind fun _ => (only_call rfl).bind fun _ =>
      (only_propagate _).bind fun _ => .ret _

theorem only_activate (lease : OpenRouterLeaseConfig) (request : ApiRequestV2) (keyHash : String) :
    (activate lease request keyHash).Only Op.isQuiet := by
  refine (only_call rfl).bind fun activated => ?_
  cases activated with
  | ok done => exact .ret _
  | error cause =>
      dsimp only
      split
      · exact ((only_deleteKey _).attempt.bind fun _ => .ret _).bind fun _ => .fail _
      · exact .fail _

/-- Since the start either the store was seen without a row of the lease, or all its keys were
listed and then revoked. -/
def KeyService.Settled (service : KeyService) (request : ApiRequestV2) (start moment : Nat) :
    Prop :=
  ∃ looked, start ≤ looked ∧ looked ≤ moment ∧
    (service.rows looked request.clientRequestId = none ∨
      service.Reconciled (keyName request) looked moment)

theorem KeyService.Settled.mono {moment later : Nat}
    (settled : service.Settled request start moment) (le : moment ≤ later) :
    service.Settled request start later := by
  obtain ⟨looked, after, before, reason⟩ := settled
  exact ⟨looked, after, before.trans le, reason.imp_right (·.mono le)⟩

/-- After that the row of the lease has been written. -/
def KeyService.Prepared (service : KeyService) (request : ApiRequestV2) (start moment : Nat) :
    Prop :=
  ∃ time, service.Settled request start time ∧ time ≤ moment ∧ service.written time request

theorem KeyService.Prepared.mono {moment later : Nat}
    (prepared : service.Prepared request start moment) (le : moment ≤ later) :
    service.Prepared request start later := by
  obtain ⟨time, settled, before, written⟩ := prepared
  exact ⟨time, settled, before.trans le, written⟩

theorem KeyService.Prepared.settled {moment : Nat}
    (prepared : service.Prepared request start moment) :
    service.Settled request start moment := by
  obtain ⟨time, settled, before, _⟩ := prepared
  exact settled.mono before

/-- The row of the lease is written or removed only when it is settled, and a key is made only when
it is prepared. -/
def ServesSettled (service : KeyService) (request : ApiRequestV2) (start moment : Nat) :
    Op → Prop
  | .openrouterCreate name _ _ =>
      name = keyName request ∧ service.Prepared request start moment
  | .createLease written .. => written = request ∧ service.Settled request start moment
  | .removeFailedLease clientRequestId =>
      clientRequestId = request.clientRequestId ∧ service.Settled request start moment
  | _ => True

theorem servesSettled_of_quiet (time : Nat) (op : Op) (quiet : op.isQuiet = true) :
    ServesSettled service request start time op := by
  cases op with
  | openrouterCreate name limitUsd expiresAt => cases quiet
  | createLease request keySource issuedAt expiresAt settleAfter limitUsd => cases quiet
  | removeFailedLease clientRequestId => cases quiet
  | _ => trivial

theorem safely_quiet {α : Type} {program : Handler α} (only : program.Only Op.isQuiet) :
    Safely service.Answers (ServesSettled service request start) (fun _ _ => True) now program :=
  safely_of_takes only servesSettled_of_quiet fun _ _ _ => trivial

theorem safely_after {α β : Type} {program : Handler α} {next : α → Handler β}
    {ends : Nat → Except Failure β → Prop} (only : program.Only Op.isQuiet)
    (failed : ∀ time error, ends time (.error error))
    (rest : ∀ value later, now ≤ later →
      Safely service.Answers (ServesSettled service request start) ends later (next value)) :
    Safely service.Answers (ServesSettled service request start) ends now (program >>= next) :=
  safely_seq only servesSettled_of_quiet (fun error time _ => failed time error)
    fun value later takes => rest value later takes.le

/-- What is known when a call goes on: it takes up a row only with the other key service, and
otherwise the lease is settled. -/
def Resumed (service : KeyService) (lease : OpenRouterLeaseConfig) (request : ApiRequestV2)
    (start moment : Nat) : Except Failure Resumption → Prop
  | .ok resumption =>
      (resumption.resumeProvisioning = false → service.Settled request start moment) ∧
        ∀ managementKey apiBase, lease.source = .openRouter managementKey apiBase →
          resumption.resumeProvisioning = false
  | .error _ => True

theorem resumeExisting_settles (P : Protocol) (lease : OpenRouterLeaseConfig) (fresh : Resumption)
    (existing : OpenRouterLeaseRecord) (anew : fresh.resumeProvisioning = false)
    (later : start ≤ now) :
    Safely service.Answers (ServesSettled service request start)
      (Resumed service lease request start) now
      (resumeExisting P lease request fresh existing) := by
  unfold resumeExisting
  refine safely_after (only_require _ _) (fun _ _ => trivial) fun _ first le => ?_
  refine safely_after (only_require _ _) (fun _ _ => trivial) fun _ second le' => ?_
  refine safely_after (only_require _ _) (fun _ _ => trivial) fun _ looked le'' => ?_
  have after : start ≤ looked := by omega
  split
  · refine safely_seq (only_deleteKeysNamed _) servesSettled_of_quiet (fun _ _ _ => trivial) ?_
    intro _ revoked takes
    have settled : service.Settled request start revoked :=
      ⟨looked, after, takes.le, .inr (deleteKeysNamed_reconciles takes)⟩
    rw [safely_bind, safely_call]
    refine fun time waits => ⟨⟨rfl, settled.mono waits⟩, fun removed _ => ?_⟩
    refine safely_after (only_propagate removed) (fun _ _ => trivial) fun _ done le => ?_
    exact ⟨fun _ => settled.mono (waits.trans le), fun _ _ _ => anew⟩
  · rename_i other
    refine safely_after (only_require _ _) (fun _ _ => trivial) fun _ _ _ => ?_
    refine ⟨fun impossible => ?_, fun _ _ impossible => ?_⟩
    · cases impossible
    · rw [other] at impossible
      cases impossible

theorem reconcile_settles (P : Protocol) (lease : OpenRouterLeaseConfig) (fresh : Resumption)
    (anew : fresh.resumeProvisioning = false) (later : start ≤ now) :
    Safely service.Answers (ServesSettled service request start)
      (Resumed service lease request start) now (reconcile P lease request fresh) := by
  unfold reconcile
  rw [safely_bind]
  refine safely_call.mpr fun time waits => ⟨trivial, fun found answered => ?_⟩
  cases found with
  | some existing => exact resumeExisting_settles P lease fresh existing anew (later.trans waits)
  | none => exact ⟨fun _ => ⟨time, later.trans waits, le_rfl, .inl answered.symm⟩, fun _ _ _ => anew⟩

theorem persistLease_settled {lease : OpenRouterLeaseConfig} {resumption : Resumption}
    {requestedExpiresAt : UInt64}
    (settled : resumption.resumeProvisioning = false → service.Settled request start now) :
    Safely service.Answers (ServesSettled service request start)
      (fun time result => result = .ok () → resumption.resumeProvisioning = false →
        service.written time request) now
      (persistLease lease request resumption requestedExpiresAt) := by
  unfold persistLease
  split
  · rename_i resumed
    intro _ anew
    rw [anew] at resumed
    cases resumed
  · rename_i anew
    have safe := settled (Bool.not_eq_true _ ▸ anew)
    rw [safely_bind]
    refine safely_call.mpr fun time waits => ⟨⟨rfl, safe.mono waits⟩, fun created answered => ?_⟩
    cases created with
    | ok done => exact fun _ _ => answered rfl
    | error cause => exact fun impossible => by cases impossible

theorem createKey_settled {limitUsd : Float} {expiresAt : UInt64}
    (prepared : service.Prepared request start now) :
    Safely service.Answers (ServesSettled service request start) (fun _ _ => True) now
      (createKey (keyName request) limitUsd expiresAt) := by
  rw [createKey, safely_bind]
  refine safely_call.mpr fun time waits => ⟨⟨rfl, prepared.mono waits⟩, fun reply _ => ?_⟩
  refine safely_quiet ((only_propagate _).bind fun envelope => (only_require _ _).bind fun _ => ?_)
  split
  · exact .ret _
  · exact ((only_deleteKey _).attempt.bind fun _ => .ret _).bind fun _ => .fail _

theorem obtainKey_settled (P : Protocol) (lease : OpenRouterLeaseConfig) (limitUsd : Float)
    (expiresAt : UInt64)
    (prepared : ∀ managementKey apiBase, lease.source = .openRouter managementKey apiBase →
      service.Prepared request start now) :
    Safely service.Answers (ServesSettled service request start) (fun _ _ => True) now
      (obtainKey P lease request limitUsd expiresAt) := by
  unfold obtainKey
  split
  · rename_i managementKey apiBase source
    have ready := prepared managementKey apiBase source
    rw [safely_bind, safely_attempt]
    refine (createKey_settled ready).weaken fun moment result le _ => ?_
    cases result with
    | ok created => trivial
    | error cause =>
        refine safely_bind _ _ |>.mpr (safely_call.mpr fun reached waits => ?_)
        exact ⟨⟨rfl, ready.settled.mono (le.trans waits)⟩, fun _ _ => trivial⟩
  · refine safely_quiet ((only_oaCreateKey ..).bind fun _ => (only_call rfl).bind fun _ => ?_)
    exact (only_require _ _).bind fun _ => .ret _

/-- A server that issues a lease makes no second key beside a forgotten one.  It asks for a key
only after it has written the row of the lease, and it writes or removes the row only if either
the store had no row of the lease when this call looked, or every key of its name that was then
listed has been revoked since, however the pages are cut and whichever requests fail. -/
theorem issueOpenRouterLease_reconciles (P : Protocol) (config : ServerConfig) (service : KeyService)
    (request : ApiRequestV2) (now : Nat) :
    Safely service.Answers (ServesSettled service request now) (fun _ _ => True) now
      (issueOpenRouterLease P config request) := by
  unfold issueOpenRouterLease
  refine safely_after (only_propagate _) (fun _ _ => trivial) fun lease first le => ?_
  refine safely_after (only_call rfl) (fun _ _ => trivial) fun _ second le' => ?_
  refine safely_after (only_validateAndReserve ..) (fun _ _ => trivial) fun _ third le'' => ?_
  refine safely_after (only_require _ _) (fun _ _ => trivial) fun _ fourth le₁ => ?_
  refine safely_after (only_require _ _) (fun _ _ => trivial) fun _ fifth le₂ => ?_
  refine safely_after (only_call rfl) (fun _ _ => trivial) fun issuedAt sixth le₃ => ?_
  have after : now ≤ sixth := by omega
  rw [safely_bind]
  refine (reconcile_settles P lease _ rfl after).weaken fun reached result _ resumed => ?_
  cases result with
  | error cause => trivial
  | ok resumption =>
      refine safely_after (only_call rfl) (fun _ _ => trivial) fun _ asked waits => ?_
      rw [safely_bind]
      refine (persistLease_settled fun anew => (resumed.1 anew).mono waits).weaken ?_
      intro written result le₄ persisted
      cases result with
      | error cause => trivial
      | ok done =>
          have prepared : ∀ managementKey apiBase,
              lease.source = .openRouter managementKey apiBase →
                service.Prepared request now written := by
            intro managementKey apiBase source
            have anew := resumed.2 managementKey apiBase source
            exact ⟨written, (resumed.1 anew).mono (waits.trans le₄), le_rfl, persisted rfl anew⟩
          unfold deliverKey
          rw [safely_bind]
          refine (obtainKey_settled P lease _ _ prepared).weaken fun delivered result _ _ => ?_
          cases result with
          | error cause => trivial
          | ok key =>
              exact safely_quiet ((only_call rfl).bind fun _ => (only_propagate _).bind fun _ =>
                (only_activate ..).bind fun _ => .ret _)

end Issuance

end ZkApi
