import ZkApi.ReservedRequests

/-!
# Only verified requests reach a provider

A retry skips every cryptographic check and rests on the digest in its row.
Digests enter the table when a verified request is reserved, or when the store
is opened and an old lease row supplies the request of an unbound reservation.
Lease rows of the run itself belong to reservations that are bound already, so
the migration only ever binds what was there before the run.
-/

namespace ZkApi

open ConstrainedTable Interleaving

variable {P : Protocol}

section Verification

/-- Some call has passed every check of `validate_and_reserve` with this
request on this endpoint. -/
def Verified (P : Protocol) (initial : ServerConfig) (trace : List (Event (server P)))
    (request : ApiRequestV2) (kind : ReservationKind) : Prop :=
  ∃ task call root now before,
    .performed task (.reserve request kind) (.ok ()) :: before <:+ trace ∧
    .started task call ∈ before ∧ call.Submits request kind ∧
    .performed task .currentRoot root ∈ before ∧
    .performed task .currentTimestamp now ∈ before ∧
    Checked P (configAt initial before) request root now

theorem Verified.mono {initial : ServerConfig} {trace later : List (Event (server P))}
    {request : ApiRequestV2} {kind : ReservationKind}
    (verified : Verified P initial trace request kind) (grows : trace <:+ later) :
    Verified P initial later request kind := by
  obtain ⟨task, call, root, now, before, place, rest⟩ := verified
  exact ⟨task, call, root, now, before, place.trans grows, rest⟩

/-- What a store from before the run contains: every reservation with a digest,
and every lease row, holds a request that was verified when it was written. -/
structure LegacySound (P : Protocol) (legacy : ApiRequestV2 → ReservationKind → Prop)
    (store : Store) : Prop where
  rows : ∀ row ∈ store.nullifiers, row.apiRequestBinding ≠ none →
    ∃ request kind, legacy request kind ∧ BoundTo P request kind row
  leases : ∀ lease ∈ store.leases, ∀ request,
    P.requestFromJson lease.apiRequestJson = some request → legacy request .openRouterLease

theorem legacySound_empty (legacy : ApiRequestV2 → ReservationKind → Prop) :
    LegacySound P legacy Store.empty where
  rows _ member := (Table.not_mem_empty _ member).elim
  leases _ member := (Table.not_mem_empty _ member).elim

/-- The request was verified before the run or in it. -/
abbrev Known (P : Protocol) (initial : ServerConfig)
    (legacy : ApiRequestV2 → ReservationKind → Prop) (trace : List (Event (server P)))
    (request : ApiRequestV2) (kind : ReservationKind) : Prop :=
  legacy request kind ∨ Verified P initial trace request kind

/-- The reservation with this nullifier has a digest. -/
def HasDigest (nullifier : String) (row : NullifierRow) : Prop :=
  row.nullifier = nullifier ∧ row.apiRequestBinding ≠ none

theorem HasDigest.grows (nullifier : String) (row grown : NullifierRow)
    (rowGrows : RowGrows P row grown) (digest : HasDigest nullifier row) :
    HasDigest nullifier grown := by
  refine ⟨rowGrows.nullifier_eq.trans digest.1, ?_⟩
  cases rowGrows with
  | same => exact digest.2
  | finalized => exact digest.2
  | bound bound => exact (digest.2 bound.unbound).elim

/-- Every digest of the store comes from a verified request, and the lease rows
of the run belong to reservations that have a digest. -/
structure Accounted (P : Protocol) (initial : ServerConfig)
    (legacy : ApiRequestV2 → ReservationKind → Prop) (world : World)
    (trace : List (Event (server P))) : Prop where
  rows : ∀ row ∈ world.store.nullifiers, row.apiRequestBinding ≠ none →
    ∃ request kind, Known P initial legacy trace request kind ∧ BoundTo P request kind row
  leases : ∀ lease ∈ world.store.leases, ∀ request,
    P.requestFromJson lease.apiRequestJson = some request →
      legacy request .openRouterLease ∨ HasRow world (HasDigest lease.requestNullifier)

variable {initial : ServerConfig} {legacy : ApiRequestV2 → ReservationKind → Prop}
  {world after : World} {trace : List (Event (server P))}

/-- A change of the world that neither binds rows nor adds lease rows. -/
private theorem Accounted.mono (accounted : Accounted P initial legacy world trace)
    (rows : ∀ grown ∈ after.store.nullifiers, grown.apiRequestBinding ≠ none →
      ∃ row ∈ world.store.nullifiers, row.apiRequestBinding ≠ none ∧ RowGrows P row grown)
    (leases : ∀ grown ∈ after.store.leases, ∃ lease ∈ world.store.leases,
      SameLease grown lease) (grows : RowsGrow P world after)
    {later : List (Event (server P))} (suffix : trace <:+ later) :
    Accounted P initial legacy after later where
  rows grown member digest := by
    obtain ⟨row, rowMember, rowDigest, rowGrows⟩ := rows grown member digest
    obtain ⟨request, kind, known, bound⟩ := accounted.rows row rowMember rowDigest
    exact ⟨request, kind, known.imp id (Verified.mono · suffix),
      BoundTo.grows request kind row grown rowGrows bound⟩
  leases grown member request decoded := by
    obtain ⟨lease, leaseMember, same⟩ := leases grown member
    rw [same.apiRequestJson] at decoded
    rw [same.requestNullifier]
    rcases accounted.leases lease leaseMember request decoded with old | digest
    · exact Or.inl old
    · exact Or.inr (digest.grow grows (HasDigest.grows _))

private theorem Accounted.same (accounted : Accounted P initial legacy world trace)
    (nullifiers : after.store.nullifiers = world.store.nullifiers)
    (leases : after.store.leases = world.store.leases) (event : Event (server P)) :
    Accounted P initial legacy after (event :: trace) := by
  refine accounted.mono ?_ ?_ ?_ (List.suffix_cons event trace)
  · intro grown member digest
    exact ⟨grown, nullifiers ▸ member, digest, .same grown⟩
  · intro grown member
    exact ⟨grown, leases ▸ member, (LeaseGrows.same grown).sameLease⟩
  · intro row member
    exact ⟨row, nullifiers ▸ member, .same row⟩

private theorem Accounted.release (accounted : Accounted P initial legacy world trace)
    (task : Nat) (event : Event (server P)) :
    Accounted P initial legacy (ZkApi.release task world) (event :: trace) := by
  apply accounted.same
  · rfl
  · rfl

variable {task : Nat} {call : Call} {op : Op} {answer : Answer} {response : Resp op}

private theorem verified_reserve {request : ApiRequestV2} {kind : ReservationKind}
    (started : .started task call ∈ trace)
    (allowed : Allowed P (configAt initial trace) call (historyOf task trace)
      (.reserve request kind)) :
    Verified P initial (.performed task (.reserve request kind) (.ok ()) :: trace)
      request kind := by
  obtain ⟨submits, root, now, sawRoot, sawTime, checked⟩ := allowed
  exact ⟨task, call, root, now, trace, List.suffix_refl _, started, submits,
    saw_historyOf_iff.mp sawRoot, saw_historyOf_iff.mp sawTime, checked⟩

private theorem accounted_rows (accounted : Accounted P initial legacy world trace)
    (started : .started task call ∈ trace)
    (allowed : Allowed P (configAt initial trace) call (historyOf task trace) op)
    (executed : execute P task op answer world = some (response, after)) :
    ∀ row ∈ after.store.nullifiers, row.apiRequestBinding ≠ none →
      ∃ request kind, Known P initial legacy (.performed task op response :: trace)
        request kind ∧ BoundTo P request kind row := by
  have old : ∀ row ∈ world.store.nullifiers, row.apiRequestBinding ≠ none →
      ∃ request kind, Known P initial legacy (.performed task op response :: trace)
        request kind ∧ BoundTo P request kind row := by
    intro row member digest
    obtain ⟨request, kind, known, bound⟩ := accounted.rows row member digest
    exact ⟨request, kind, known.imp id (Verified.mono · (List.suffix_cons _ _)), bound⟩
  intro grown member digest
  cases nullifierEffect executed with
  | kept same =>
      rw [same] at member
      exact old grown member digest
  | reserved request kind inserted =>
      rcases (Table.mem_insert inserted).mp member with oldMember | rfl
      · exact old grown oldMember digest
      · exact ⟨request, kind, Or.inr (verified_reserve started allowed), rfl, rfl, rfl⟩
  | finalized nullifier transcript updated found =>
      obtain ⟨row, rowMember, rfl⟩ := (Table.mem_update updated).mp member
      have rowGrows := updatedRow_finalizedRow_grows (P := P) nullifier world.now transcript row
      have rowDigest : row.apiRequestBinding ≠ none := by
        intro unbound
        apply digest
        unfold Table.updatedRow
        split
        · exact unbound
        · exact unbound
      obtain ⟨request, kind, known, bound⟩ := old row rowMember rowDigest
      exact ⟨request, kind, known, BoundTo.grows request kind row _ rowGrows bound⟩
  | cleared nullifier inserted =>
      rcases (Table.mem_insert inserted).mp member with oldMember | rfl
      · exact old grown oldMember digest
      · exact (digest rfl).elim

private theorem accounted_leases (accounted : Accounted P initial legacy world trace)
    (bindings : Bindings P world trace)
    (allowed : Allowed P (configAt initial trace) call (historyOf task trace) op)
    (executed : execute P task op answer world = some (response, after)) :
    ∀ lease ∈ after.store.leases, ∀ request,
      P.requestFromJson lease.apiRequestJson = some request →
        legacy request .openRouterLease ∨ HasRow after (HasDigest lease.requestNullifier) := by
  intro grown member request decoded
  have grows := execute_rowsGrow executed
  rcases (leaseEffect executed).row_origin member with ⟨lease, leaseMember, leaseGrows⟩ |
      ⟨created, keySource, issuedAt, expiresAt, settleAfter, spendingLimitUsd, same, rfl⟩
  · have sameLease := leaseGrows.sameLease
    rw [sameLease.apiRequestJson] at decoded
    rw [sameLease.requestNullifier]
    rcases accounted.leases lease leaseMember request decoded with old | digest
    · exact Or.inl old
    · exact Or.inr (digest.grow grows (HasDigest.grows _))
  · cases same
    obtain ⟨row, rowMember, nullifier, _, binding⟩ := allowed.2.admitted.hasRow bindings
    have digest : HasRow world (HasDigest (P.feltToHex created.nullifier)) :=
      ⟨row, rowMember, nullifier, by simp [binding]⟩
    exact Or.inr (digest.grow grows (HasDigest.grows _))

/-- The migration binds a reservation only to a request from before the run. -/
private theorem accounted_reboot {change : Reboot}
    (accounted : Accounted P initial legacy world trace)
    (rebooted : reboot P world change = some after) :
    Accounted P initial legacy after (.restarted change :: trace) := by
  have grows := reboot_rowsGrow rebooted
  have suffix := List.suffix_cons (Event.restarted change) trace
  have store : after.store = world.store.backfillOpenRouterRequestBindings P := by
    rw [(reboot_eq rebooted).1]
  have leases : after.store.leases = world.store.leases := by
    rw [store]
    rfl
  constructor
  · intro grown member digest
    rw [store] at member
    obtain ⟨row, rowMember, rfl | ⟨lease, leaseMember, bound⟩⟩ := backfill_row_origin member
    · obtain ⟨request, kind, known, boundTo⟩ := accounted.rows grown rowMember digest
      exact ⟨request, kind, known.imp id (Verified.mono · suffix), boundTo⟩
    · obtain ⟨request, decoded, agrees, rfl⟩ := bound.request
      rcases accounted.leases lease leaseMember request decoded with old | digested
      · refine ⟨request, .openRouterLease, Or.inl old, ?_, bound.kind, rfl⟩
        exact bound.nullifier.trans agrees.symm
      · obtain ⟨other, otherMember, otherNullifier, otherDigest⟩ := digested
        have sameRow : other = row :=
          row_unique otherMember rowMember (otherNullifier.trans bound.nullifier.symm)
        rw [sameRow] at otherDigest
        exact (otherDigest bound.unbound).elim
  · intro lease member request decoded
    rw [leases] at member
    rcases accounted.leases lease member request decoded with old | digest
    · exact Or.inl old
    · exact Or.inr (digest.grow grows (HasDigest.grows _))

theorem accounted_preserved (initial : ServerConfig)
    (legacy : ApiRequestV2 → ReservationKind → Prop) :
    (discipline P).Preserved (Remembers P initial) (Accounted P initial legacy) where
  started _ _ _ _ held := held.same rfl rfl _
  performed := by
    intro world trace task call op answer response after _ started allowed executed base held
    have allowed : Allowed P world.config call (historyOf task trace) op := allowed
    rw [base.1] at allowed
    exact ⟨accounted_rows held started allowed executed,
      accounted_leases held base.2.1 allowed executed⟩
  returned _ _ _ _ _ held := held.release _ _
  aborted _ _ held := held.release _ _
  moved moved _ held := by
    refine held.same ?_ ?_ _ <;> rw [move_eq moved]
  restarted rebooted _ held := accounted_reboot held rebooted

end Verification

section Providers

/-- The operation runs a request or asks for a runtime key. -/
def Op.callsProvider : Op → Bool
  | .execute _ _ _ => true
  | .openrouterCreate _ _ _ => true
  | .oaRequestKey _ _ _ _ => true
  | _ => false

/-- The operation is the provider call for this request on this endpoint. -/
def Op.CallsFor (request : ApiRequestV2) : ReservationKind → Op → Prop
  | .proxy, .execute clientRequestId payload payloadHash =>
      clientRequestId = request.clientRequestId ∧ payload = request.payload ∧
        payloadHash = request.payloadHash
  | .openRouterLease, .openrouterCreate name _ _ => name = keyName request
  | .openRouterLease, .oaRequestKey clientRequestId _ _ _ =>
      clientRequestId = request.clientRequestId
  | _, _ => False

theorem Call.Submits.unique {call : Call} {first second : ApiRequestV2}
    {firstKind secondKind : ReservationKind} (firstSubmits : call.Submits first firstKind)
    (secondSubmits : call.Submits second secondKind) :
    first = second ∧ firstKind = secondKind := by
  unfold Call.Submits at firstSubmits secondSubmits
  split at firstSubmits <;> split at secondSubmits <;> simp_all

theorem Allowed.provider {config : ServerConfig} {call : Call} {history : History Resp}
    {op : Op} (allowed : Allowed P config call history op) (calls : op.callsProvider = true) :
    ∃ request kind, call.Submits request kind ∧ op.CallsFor request kind ∧
      Admitted P request kind history := by
  cases op with
  | execute clientRequestId payload payloadHash =>
      obtain ⟨request, rfl, sameId, samePayload, sameHash, admitted⟩ := allowed
      exact ⟨request, .proxy, rfl, ⟨sameId, samePayload, sameHash⟩, admitted⟩
  | openrouterCreate name limitUsd expiresAt =>
      obtain ⟨request, rfl, sameName, admitted⟩ := allowed
      exact ⟨request, .openRouterLease, rfl, sameName, admitted⟩
  | oaRequestKey clientRequestId limitUsd limitCredits durationMinutes =>
      obtain ⟨request, rfl, sameId, admitted⟩ := allowed
      exact ⟨request, .openRouterLease, rfl, sameId, admitted⟩
  | _ => cases calls

/-- A call that submits a request and returns a value found the request bound
to its row. -/
theorem Returns.hasRow {config : ServerConfig} {world : World}
    {trace : List (Event (server P))} (bindings : Bindings P world trace) {task : Nat}
    {call : Call} {value : Result call} {request : ApiRequestV2} {kind : ReservationKind}
    (submits : call.Submits request kind)
    (returns : Returns P config (historyOf task trace) call (.ok value)) :
    HasRow world (BoundTo P request kind) := by
  unfold Call.Submits at submits
  split at submits
  · subst submits
    rcases returns with replayed | ⟨admitted, _⟩
    · exact replayed.hasRow bindings
    · exact admitted.hasRow bindings
  · subst submits
    obtain ⟨_, _, _, admitted, _⟩ := returns
    exact admitted.hasRow bindings
  · exact submits.elim

section Run

variable {initial : ServerConfig} {legacy : ApiRequestV2 → ReservationKind → Prop}
  {trace : List (Event (server P))} {task : Nat}

/-- The invariant of a run that only verified requests are bound. -/
private abbrev ProviderBase (P : Protocol) (initial : ServerConfig)
    (legacy : ApiRequestV2 → ReservationKind → Prop) (world : World)
    (trace : List (Event (server P))) : Prop :=
  Remembers P initial world trace ∧ Accounted P initial legacy world trace

theorem known_of_admitted (collisionFree : P.CollisionFree)
    (jsonInjective : P.RequestJsonInjective) {world : World}
    (bindings : Bindings P world trace) (accounted : Accounted P initial legacy world trace)
    {request : ApiRequestV2} {kind : ReservationKind}
    (admitted : Admitted P request kind (historyOf task trace)) :
    Known P initial legacy trace request kind := by
  obtain ⟨row, member, bound⟩ := admitted.hasRow bindings
  have digest : row.apiRequestBinding ≠ none := by
    rw [bound.2.2]
    exact Option.some_ne_none _
  obtain ⟨other, otherKind, known, otherBound⟩ := accounted.rows row member digest
  obtain ⟨rfl, rfl⟩ := otherBound.unique collisionFree jsonInjective bound
  exact known

/-- A task that calls a provider for its request, or returns a value, has its
request bound to the row of its nullifier. -/
private theorem bound_of_served {world : World}
    (occurred : (discipline P).Occurred (ProviderBase P initial legacy) trace)
    (once : StartsOnce trace) (bindings : Bindings P world trace) {call : Call} {request : ApiRequestV2}
    {kind : ReservationKind} (started : .started task call ∈ trace)
    (submits : call.Submits request kind)
    (served : (∃ op response, .performed task op response ∈ trace ∧
        op.callsProvider = true) ∨
      ∃ value, .returned task call (.ok value) ∈ trace) :
    HasRow world (BoundTo P request kind) := by
  rcases served with ⟨op, response, performed, calls⟩ | ⟨value, returned⟩
  · obtain ⟨later, earlier, split⟩ := List.append_of_mem performed
    have suffix : .performed task op response :: earlier <:+ trace := ⟨later, split.symm⟩
    have past := (List.suffix_cons _ earlier).trans suffix
    obtain ⟨other, _, _, _, otherStarted, allowed, _⟩ := performed_occurred occurred suffix
    have sameCall := once task call other started (past.subset otherStarted)
    subst sameCall
    obtain ⟨made, madeKind, madeSubmits, _, admitted⟩ := allowed.provider calls
    obtain ⟨rfl, rfl⟩ := submits.unique madeSubmits
    exact (admitted.mono (historyOf_suffix task past)).hasRow bindings
  · obtain ⟨later, earlier, split⟩ := List.append_of_mem returned
    have suffix : .returned task call (.ok value) :: earlier <:+ trace := ⟨later, split.symm⟩
    have past := (List.suffix_cons _ earlier).trans suffix
    obtain ⟨_, _, _, returns, _⟩ := returned_occurred occurred suffix
    have earlierBindings : Bindings P world earlier := fun _ event member =>
      bindings trivial event (past.subset member)
    exact Returns.hasRow earlierBindings submits returns

end Run

/-- In every run from a store whose old rows hold verified requests: every
provider call is made for a request that passed every check on the same
endpoint before, and a request whose nullifier is reserved for anything else is
never served. -/
theorem provider_calls_verified (P : Protocol) (collisionFree : P.CollisionFree)
    (jsonInjective : P.RequestJsonInjective)
    (legacy : ApiRequestV2 → ReservationKind → Prop) (world : World)
    (legacySound : LegacySound P legacy world.store) {state : State (server P)}
    (run : (State.initial (server P) world).Reaches state) :
    (∀ task op response earlier, .performed task op response :: earlier <:+ state.trace →
      op.callsProvider = true →
        ∃ call request kind, .started task call ∈ earlier ∧ call.Submits request kind ∧
          op.CallsFor request kind ∧
          (legacy request kind ∨ Verified P world.config earlier request kind)) ∧
    ∀ task call request kind row, .started task call ∈ state.trace →
      call.Submits request kind → row ∈ state.world.store.nullifiers →
      row.nullifier = P.feltToHex request.nullifier →
      (row.apiRequestBinding = none ∨ ∃ reserved reservedKind,
        BoundTo P reserved reservedKind row ∧ (reserved, reservedKind) ≠ (request, kind)) →
        (∀ op response, .performed task op response ∈ state.trace →
          op.callsProvider = false) ∧
        ∀ value, .returned task call (.ok value) ∉ state.trace := by
  have base := (remembers_preserved world.config).and (accounted_preserved (P := P)
    world.config legacy)
  have initially : ProviderBase P world.config legacy world [] := by
    refine ⟨remembers_initial world, ?_, ?_⟩
    · intro row member digest
      obtain ⟨request, kind, verified, bound⟩ := legacySound.rows row member digest
      exact ⟨request, kind, Or.inl verified, bound⟩
    · intro lease member request decoded
      exact Or.inl (legacySound.leases lease member request decoded)
  have occurred := base.occurred_holds initially run
  have once := (startsOnce_preserved (discipline P)).holds startsOnce_nil run
  obtain ⟨⟨_, bindings, _⟩, _⟩ := base.holds initially run
  constructor
  · intro task op response earlier suffix calls
    obtain ⟨call, before, answer, after, started, allowed, _, remembers, accounted⟩ :=
      performed_occurred occurred suffix
    obtain ⟨request, kind, submits, callsFor, admitted⟩ := allowed.provider calls
    exact ⟨call, request, kind, started, submits, callsFor, known_of_admitted collisionFree
      jsonInjective remembers.2.1 accounted admitted⟩
  · intro task call request kind row started submits member nullifier reservedElse
    have notBound : ¬ HasRow state.world (BoundTo P request kind) := by
      rintro ⟨other, otherMember, bound⟩
      obtain rfl := row_unique otherMember member (bound.1.trans nullifier.symm)
      rcases reservedElse with unbound | ⟨reserved, reservedKind, otherBound, different⟩
      · rw [bound.2.2] at unbound
        cases unbound
      · obtain ⟨rfl, rfl⟩ := otherBound.unique collisionFree jsonInjective bound
        exact different rfl
    constructor
    · intro op response performed
      by_contra calls
      apply notBound
      exact bound_of_served occurred once bindings started submits
        (Or.inl ⟨op, response, performed, by simpa using calls⟩)
    · intro value returned
      apply notBound
      exact bound_of_served occurred once bindings started submits (Or.inr ⟨value, returned⟩)

/-- A request is processed, and then one that differs in its id is sent for the
same nullifier. -/
noncomputable def mutatedRetry : List (Action (server Reference.protocol)) :=
  Reference.runs 0 (.processRequest Reference.proxyRequest) (Reference.requestAnswers 10) ++
    Reference.runs 1 (.processRequest (Reference.request "req-2" "hello" 6 10)) [.nothing]

theorem provider_calls_verified_mutatedRetry :
    ∃ state earlier, (State.initial (server Reference.protocol)
        (Reference.world (Reference.config 10 1 false none))).Reaches state ∧
      .performed 0 (.execute "req-1" "hello" ⟨5⟩) (.ok ⟨200, "hi", 10, none, none⟩) ::
        earlier <:+ state.trace ∧
      (∃ call request kind, .started 0 call ∈ earlier ∧ call.Submits request kind ∧
        Verified Reference.protocol (Reference.config 10 1 false none) earlier request kind) ∧
      .started 1 (.processRequest (Reference.request "req-2" "hello" 6 10)) ∈ state.trace ∧
      ∀ value, .returned 1 (.processRequest (Reference.request "req-2" "hello" 6 10))
        (.ok value) ∉ state.trace := by
  have reached : ∃ state, (State.initial (server Reference.protocol)
        (Reference.world (Reference.config 10 1 false none))).Reaches state ∧
      .performed 0 (.execute "req-1" "hello" ⟨5⟩) (.ok ⟨200, "hi", 10, none, none⟩) ::
        state.trace.drop 12 <:+ state.trace ∧
      .started 1 (.processRequest (Reference.request "req-2" "hello" 6 10)) ∈ state.trace ∧
      ∃ row ∈ state.world.store.nullifiers.rows, row.nullifier = "0x6" ∧
        row.reservationKind = "proxy" ∧ row.apiRequestBinding =
          some (apiRequestBinding Reference.protocol Reference.proxyRequest) :=
    State.reaches_of_decide mutatedRetry (by decide +kernel)
  obtain ⟨state, run, executed, started, row, member, nullifier, kind, binding⟩ := reached
  have sound := legacySound_empty (P := Reference.protocol) fun _ _ => False
  have verified := provider_calls_verified Reference.protocol Reference.collisionFree
    Reference.requestJsonRoundTrips.injective _ _ sound run
  obtain ⟨call, request, requestKind, callStarted, submits, _, known⟩ :=
    verified.1 0 _ _ _ executed rfl
  have sameHex : Reference.protocol.feltToHex ⟨6⟩ = "0x6" := by decide
  have rejected := verified.2 1 _ (Reference.request "req-2" "hello" 6 10) .proxy row started
    rfl member (nullifier.trans sameHex.symm) (Or.inr ⟨Reference.proxyRequest, .proxy,
      ⟨nullifier.trans sameHex.symm, kind, binding⟩, by decide⟩)
  exact ⟨state, _, run, executed, ⟨call, request, requestKind, callStarted, submits,
    known.resolve_left id⟩, started, rejected.2⟩

end Providers

end ZkApi
