import ZkApi.LeaseRows

/-!
# Issuing a lease

Issuance spans a reservation, a lease row, a call of a key service, a timing
update and an activation.  The issue lock gives one task at a time the right to
touch rows that are being provisioned, so the row a task knows about is still
as the task left it when it is activated.  A row past provisioning is never
activated again.
-/

namespace ZkApi

open ConstrainedTable Interleaving

variable {P : Protocol}

section Lock

theorem execute_issueLock {task : Nat} {op : Op} {answer : Answer} {world after : World}
    {response : Resp op}
    (executed : execute P task op answer world = some (response, after)) :
    (op = .lockIssue ∧ world.issueLock = none ∧ after.issueLock = some task) ∨
      op ≠ .lockIssue ∧ after.issueLock = world.issueLock := by
  cases op with
  | lockIssue =>
      obtain ⟨free, same⟩ := Option.ite_none_right_eq_some.mp executed
      cases Option.some.inj same
      exact Or.inl ⟨rfl, free, rfl⟩
  | lockSettlement =>
      obtain ⟨_, same⟩ := Option.ite_none_right_eq_some.mp executed
      cases Option.some.inj same
      exact Or.inr ⟨Op.noConfusion, rfl⟩
  | openrouterUsage hash =>
      cases answer with
      | usage reply =>
          obtain ⟨_, same⟩ := Option.ite_none_right_eq_some.mp executed
          cases Option.some.inj same
          exact Or.inr ⟨Op.noConfusion, rfl⟩
      | _ => cases executed
  | _ =>
      refine Or.inr ⟨Op.noConfusion, ?_⟩
      first
        | (cases Option.some.inj executed; rfl)
        | (cases answer <;> first | (cases Option.some.inj executed; rfl) | cases executed)

/-- A running task that has taken the issue lock holds it. -/
def IssueLockHeld (world : World) (trace : List (Event (server P))) : Prop :=
  ∀ task, Running task trace → Saw (historyOf task trace) .lockIssue () →
    world.issueLock = some task

theorem issueLockHeld_preserved :
    (discipline P).Inductive fun world trace => IssueLockHeld (P := P) world trace where
  started := by
    intro world trace task call fresh _ held other running locked
    have locked : Saw (historyOf other trace) .lockIssue () := locked
    rcases running with rfl | running
    · rw [fresh.historyOf_eq_nil] at locked
      cases locked
    · exact held other running locked
  performed := by
    intro world trace task call op answer response after _ _ _ executed _ held other running locked
    rcases execute_issueLock executed with ⟨rfl, free, taken⟩ | ⟨different, kept⟩
    · by_cases same : task = other
      · rw [taken, same]
      · simp only [historyOf, if_neg same] at locked
        have holds := held other running locked
        rw [free] at holds
        cases holds
    · rw [kept]
      refine held other running ?_
      by_cases same : task = other
      · simp only [historyOf, if_pos same, saw_cons] at locked
        rcases locked with equal | locked
        · cases equal
          exact (different rfl).elim
        · exact locked
      · simpa only [historyOf, if_neg same] using locked
  returned := by
    intro world trace task call result _ _ _ _ _ held other running locked
    have holds := held other running.2 locked
    change (if world.issueLock = some task then none else world.issueLock) = some other
    rw [holds, if_neg]
    exact fun same => running.1 (Option.some.inj same).symm
  aborted := by
    intro world trace task _ _ held other running locked
    have holds := held other running.2 locked
    change (if world.issueLock = some task then none else world.issueLock) = some other
    rw [holds, if_neg]
    exact fun same => running.1 (Option.some.inj same).symm
  moved := by
    intro world trace change after moved _ held other running locked
    have moved : move world change = some after := moved
    rw [move_eq moved]
    exact held other running locked
  restarted := by
    intro world trace change after _ _ _ other running
    cases running

end Lock

section Provisioning

/-- Every lease row names its nullifier as the store writes it. -/
def CanonicalLeases (P : Protocol) (world : World) : Prop :=
  ∀ row ∈ world.store.leases, ∃ nullifier, row.requestNullifier = P.feltToHex nullifier

theorem canonicalLeases_preserved :
    (discipline P).Inductive fun world _ => CanonicalLeases P world where
  started _ _ _ _ held := held
  performed := by
    intro world trace task call op answer response after _ _ _ executed _ held grown member
    rcases (leaseEffect executed).row_origin member with ⟨row, rowMember, leaseGrows⟩ |
        ⟨created, _, _, _, _, _, _, rfl⟩
    · obtain ⟨nullifier, same⟩ := held row rowMember
      exact ⟨nullifier, leaseGrows.sameLease.requestNullifier.trans same⟩
    · exact ⟨created.nullifier, rfl⟩
  returned _ _ _ _ _ held := held
  aborted _ _ held := held
  moved := by
    intro world trace change after moved _ held row member
    have moved : move world change = some after := moved
    rw [move_eq moved] at member
    exact held row member
  restarted := by
    intro world trace change after rebooted _ held row member
    have rebooted : reboot P world change = some after := rebooted
    rw [(reboot_eq rebooted).1] at member
    exact held row member

/-- The operation may change the provisioning row with this id. -/
def Op.TouchesLease (clientRequestId : String) : Op → Prop
  | .updateLeaseTiming touched _ _ => touched = clientRequestId
  | .activateLease touched _ => touched = clientRequestId
  | .removeFailedLease touched => touched = clientRequestId
  | _ => False

variable {task : Nat} {call : Call} {op : Op} {answer : Answer} {world after : World}
  {response : Resp op} {trace : List (Event (server P))}

private theorem updated_of_not {condition : LeaseRow → Bool}
    {change : LeaseRow → LeaseRow} {table later : Table LeaseRow.Clash} {row : LeaseRow}
    (updated : table.update condition change = some later) (member : row ∈ table)
    (unaffected : ¬ condition row = true) : row ∈ later := by
  refine (Table.mem_update updated).mpr ⟨row, member, ?_⟩
  rw [Table.updatedRow, if_neg unaffected]

/-- A row that is being provisioned changes only under the issue lock. -/
theorem provisioning_kept (seen : SeenLeases P world trace)
    (allowed : Allowed P world.config call (historyOf task trace) op)
    (executed : execute P task op answer world = some (response, after))
    {row : LeaseRow} (member : row ∈ world.store.leases)
    (provisioning : row.status = "provisioning") :
    row ∈ after.store.leases ∨
      Saw (historyOf task trace) .lockIssue () ∧ op.TouchesLease row.clientRequestId := by
  cases leaseEffect executed with
  | kept same => exact Or.inl (same ▸ member)
  | created _ _ _ _ _ _ inserted =>
      exact Or.inl ((Table.mem_insert inserted).mpr (Or.inl member))
  | timed clientRequestId expiresAt settleAfter updated =>
      obtain ⟨request, _, _, issuing⟩ := allowed
      by_cases same : clientRequestId = row.clientRequestId
      · exact Or.inr ⟨issuing.locked, same⟩
      · refine Or.inl (updated_of_not updated member fun satisfied => same ?_)
        exact (of_decide_eq_true satisfied).1.symm
  | activated clientRequestId keyHash updated =>
      obtain ⟨request, _, _, _, _, _, issuing, _⟩ := allowed
      by_cases same : clientRequestId = row.clientRequestId
      · exact Or.inr ⟨issuing.locked, same⟩
      · refine Or.inl (updated_of_not updated member fun satisfied => same ?_)
        exact (of_decide_eq_true satisfied).1.symm
  | removed clientRequestId deleted =>
      obtain ⟨request, _, _, issuing⟩ := allowed
      by_cases same : clientRequestId = row.clientRequestId
      · exact Or.inr ⟨issuing.locked, same⟩
      · left
        rw [deleted]
        refine Table.mem_delete.mpr ⟨member, ?_⟩
        by_contra failed
        have failed : Store.isFailedProvisioning clientRequestId row = true := by
          simpa using failed
        exact same (of_decide_eq_true failed).1.symm
  | errored clientRequestId error updated =>
      refine Or.inl (updated_of_not updated member fun satisfied => ?_)
      have active := (of_decide_eq_true satisfied).2
      rw [provisioning] at active
      exact absurd active (by decide)
  | settled clientRequestId usageUsd chargeApplied updated =>
      refine Or.inl (updated_of_not updated member fun satisfied => ?_)
      have sameId : row.clientRequestId = clientRequestId := of_decide_eq_true satisfied
      obtain ⟨lease, active, leaseId, _⟩ := allowed
      obtain ⟨other, otherMember, reads⟩ := active.hasLease seen
      have same : other = row := by
        apply lease_unique otherMember member
        left
        rw [reads.clientRequestId, leaseId, sameId]
      rw [same] at reads
      exact reads.issued provisioning

/-- The row that an issuing task with this history is provisioning. -/
structure Provisioned (P : Protocol) (request : ApiRequestV2) (history : History Resp)
    (row : LeaseRow) : Prop where
  clientRequestId : row.clientRequestId = request.clientRequestId
  requestNullifier : row.requestNullifier = P.feltToHex request.nullifier
  status : row.status = "provisioning"
  timed : ∀ expiresAt settleAfter earlier,
    history = ⟨.updateLeaseTiming request.clientRequestId expiresAt settleAfter, .ok ()⟩ ::
      earlier →
    row.expiresAt = expiresAt.toInt64 ∧ row.settleAfter = settleAfter.toInt64

/-- A running task that holds the issue lock finds the row it knows about. -/
def ProvisioningKnown (P : Protocol) (world : World) (trace : List (Event (server P))) : Prop :=
  ∀ task request, Running task trace → .started task (.issueOpenRouterLease request) ∈ trace →
    Saw (historyOf task trace) .lockIssue () →
    KnowsProvisioning request (historyOf task trace) →
      HasLease world (Provisioned P request (historyOf task trace))

/-- What the knowledge of issuing tasks rests on. -/
abbrev IssueBase (P : Protocol) (world : World) (trace : List (Event (server P))) : Prop :=
  (SeenLeases P world trace ∧ CanonicalLeases P world) ∧
    IssueLockHeld world trace ∧ StartsOnce trace

/-- An operation that leaves the row of its own task alone keeps what the task
knows. -/
private theorem provisioned_untouched {request : ApiRequestV2}
    (base : IssueBase P world trace)
    (allowed : Allowed P world.config call (historyOf task trace) op)
    (executed : execute P task op answer world = some (response, after))
    {history later : History Resp} (has : HasLease world (Provisioned P request history))
    (untouched : ¬ op.TouchesLease request.clientRequestId)
    (untimed : ∀ expiresAt settleAfter earlier,
      later ≠ ⟨.updateLeaseTiming request.clientRequestId expiresAt settleAfter, .ok ()⟩ ::
        earlier) :
    HasLease after (Provisioned P request later) := by
  obtain ⟨row, member, provisioned⟩ := has
  refine ⟨row, ?_, provisioned.clientRequestId, provisioned.requestNullifier,
    provisioned.status, fun _ _ _ same => (untimed _ _ _ same).elim⟩
  rcases provisioning_kept base.1.1 allowed executed member provisioned.status with
    kept | ⟨_, touches⟩
  · exact kept
  · rw [provisioned.clientRequestId] at touches
    exact (untouched touches).elim

/-- The operation of an issuing task that tells it about its row. -/
private theorem provisioned_own (feltHex : P.FeltHexRoundTrips) {request : ApiRequestV2}
    (base : IssueBase P world trace)
    (allowed : Allowed P world.config (.issueOpenRouterLease request) (historyOf task trace) op)
    (executed : execute P task op answer world = some (response, after))
    (held : KnowsProvisioning request (historyOf task trace) →
      HasLease world (Provisioned P request (historyOf task trace)))
    (knows : KnowsProvisioning request (⟨op, response⟩ :: historyOf task trace)) :
    HasLease after (Provisioned P request (⟨op, response⟩ :: historyOf task trace)) := by
  cases op with
  | createLease created keySource issuedAt expiresAt settleAfter spendingLimitUsd =>
      cases leaseEffect executed with
      | kept _ passive =>
          cases response with
          | ok value => exact (passive trivial).elim
          | error cause =>
              exact provisioned_untouched base allowed executed (held knows) id
                fun _ _ _ same => by cases same
      | created _ _ _ _ _ _ inserted =>
          obtain ⟨same, _⟩ := allowed
          cases same
          refine ⟨_, (Table.mem_insert inserted).mpr (Or.inr rfl), rfl, rfl, rfl, ?_⟩
          intro _ _ _ same
          cases same
  | lookupLease clientRequestId =>
      cases response with
      | none =>
          exact provisioned_untouched base allowed executed (held knows) id
            fun _ _ _ same => by cases same
      | some existing =>
          rcases knows with ⟨rfl, sameNullifier, provisioning, _⟩ | knows
          · obtain ⟨found, rfl⟩ := execute_lookupLease executed
            obtain ⟨row, member, rowId, read⟩ := lookupLease_eq_some found
            obtain ⟨decoded, _, rfl⟩ := Option.map_eq_some_iff.mp read
            obtain ⟨nullifier, rowNullifier⟩ := base.1.2 row member
            have sameNullifier : (P.feltFromHex row.requestNullifier).getD Felt252.zero =
              request.nullifier := sameNullifier
            rw [rowNullifier, feltHex, Option.getD_some] at sameNullifier
            rw [sameNullifier] at rowNullifier
            refine ⟨row, member, rowId, rowNullifier, provisioning, ?_⟩
            intro _ _ _ same
            cases same
          · exact provisioned_untouched base allowed executed (held knows) id
              fun _ _ _ same => by cases same
  | updateLeaseTiming clientRequestId expiresAt settleAfter =>
      cases leaseEffect executed with
      | kept same passive =>
          cases response with
          | ok value => exact (passive trivial).elim
          | error cause =>
              obtain ⟨row, member, provisioned⟩ := held knows
              refine ⟨row, same ▸ member, provisioned.clientRequestId,
                provisioned.requestNullifier, provisioned.status, ?_⟩
              intro _ _ _ same
              cases same
      | timed _ _ _ updated =>
          obtain ⟨_, same, rfl, _⟩ := allowed
          cases same
          obtain ⟨row, member, provisioned⟩ := held knows
          have satisfied : Store.isProvisioning request.clientRequestId row = true :=
            decide_eq_true ⟨provisioned.clientRequestId, provisioned.status⟩
          refine ⟨_, (Table.mem_update updated).mpr ⟨row, member, rfl⟩, ?_⟩
          rw [Table.updatedRow, if_pos satisfied]
          refine ⟨provisioned.clientRequestId, provisioned.requestNullifier,
            provisioned.status, ?_⟩
          intro otherExpiry otherSettle earlier same
          cases same
          exact ⟨rfl, rfl⟩
  | removeFailedLease clientRequestId => cases knows
  | activateLease clientRequestId keyHash => cases knows
  | lockIssue => cases knows
  | _ =>
      exact provisioned_untouched base allowed executed (held knows) id
        fun _ _ _ same => by cases same

theorem provisioningKnown_preserved (feltHex : P.FeltHexRoundTrips) :
    (discipline P).Preserved (IssueBase P) (ProvisioningKnown P) where
  started := by
    intro world trace task call fresh _ held other request running started locked knows
    have locked : Saw (historyOf other trace) .lockIssue () := locked
    rcases running with rfl | running
    · rw [fresh.historyOf_eq_nil] at locked
      cases locked
    · rcases List.mem_cons.mp started with same | started
      · have sameTask : task = other := by
          cases same
          rfl
        rw [← sameTask, fresh.historyOf_eq_nil] at locked
        cases locked
      · exact held other request running started locked knows
  performed := by
    intro world trace task call op answer response after running started allowed executed base
      held other request otherRunning otherStarted locked knows
    have allowed : Allowed P world.config call (historyOf task trace) op := allowed
    have otherStarted : .started other (.issueOpenRouterLease request) ∈ trace :=
      started_of_cons id otherStarted
    by_cases same : task = other
    · subst same
      have sameCall := base.2.2 task _ _ started otherStarted
      subst sameCall
      simp only [historyOf, if_true] at locked knows ⊢
      refine provisioned_own feltHex base allowed executed (fun known => ?_) knows
      refine held task request otherRunning otherStarted ?_ known
      rcases saw_cons.mp locked with equal | locked
      · cases equal
        cases knows
      · exact locked
    · simp only [historyOf, if_neg same] at locked knows ⊢
      obtain ⟨row, member, provisioned⟩ :=
        held other request otherRunning otherStarted locked knows
      rcases provisioning_kept base.1.1 allowed executed member provisioned.status with
        kept | ⟨taskLocked, _⟩
      · exact ⟨row, kept, provisioned⟩
      · have taskHolds := base.2.1 task running taskLocked
        rw [base.2.1 other otherRunning locked] at taskHolds
        exact (same (Option.some.inj taskHolds).symm).elim
  returned := by
    intro world trace task call result _ _ _ _ _ held other request running started locked knows
    have started : .started other (.issueOpenRouterLease request) ∈ trace :=
      started_of_cons id started
    exact held other request running.2 started locked knows
  aborted := by
    intro world trace task _ _ held other request running started locked knows
    have started : .started other (.issueOpenRouterLease request) ∈ trace :=
      started_of_cons id started
    exact held other request running.2 started locked knows
  moved := by
    intro world trace change after moved _ held other request running started locked knows
    have moved : move world change = some after := moved
    have started : .started other (.issueOpenRouterLease request) ∈ trace :=
      started_of_cons id started
    obtain ⟨row, member, provisioned⟩ := held other request running started locked knows
    refine ⟨row, ?_, provisioned⟩
    rw [move_eq moved]
    exact member
  restarted := by
    intro world trace change after _ _ _ other request running
    cases running

end Provisioning

section Issuance

/-- A key is returned for the nullifier. -/
def isIssuance (nullifier : Felt252) : Event (server P) → Bool
  | .returned _ (.issueOpenRouterLease request) (.ok _) => request.nullifier = nullifier
  | _ => false

/-- The row of the lease that is returned with this key. -/
structure Delivered (P : Protocol) (request : ApiRequestV2) (issued : IssuedOpenRouterLease)
    (keyHash : String) (row : LeaseRow) : Prop where
  clientRequestId : row.clientRequestId = request.clientRequestId
  requestNullifier : row.requestNullifier = P.feltToHex request.nullifier
  status : row.status = "active"
  keyHash : row.keyHash = some keyHash
  expiresAt : row.expiresAt = issued.lease.expiresAt.toInt64
  settleAfter : row.settleAfter = issued.lease.settleAfter.toInt64

/-- The lease of the nullifier is being provisioned. -/
def InProvisioning (P : Protocol) (nullifier : Felt252) (row : LeaseRow) : Prop :=
  row.requestNullifier = P.feltToHex nullifier ∧ row.status = "provisioning"

/-- The lease of the nullifier has been activated. -/
def PastProvisioning (P : Protocol) (nullifier : Felt252) (row : LeaseRow) : Prop :=
  row.requestNullifier = P.feltToHex nullifier ∧ row.status ≠ "provisioning"

theorem PastProvisioning.grows (nullifier : Felt252) (row grown : LeaseRow)
    (leaseGrows : LeaseGrows row grown) (past : PastProvisioning P nullifier row) :
    PastProvisioning P nullifier grown := by
  refine ⟨leaseGrows.sameLease.requestNullifier.trans past.1, ?_⟩
  cases leaseGrows with
  | same => exact past.2
  | timed provisioning => exact (past.2 provisioning).elim
  | activated => exact (by decide : "active" ≠ "provisioning")
  | errored => exact past.2
  | settled => exact (by decide : "finalized" ≠ "provisioning")

theorem pastProvisioning_lasting (nullifier : Felt252) :
    Lasting (server P) (HasLease · (PastProvisioning P nullifier)) :=
  hasLease_lasting (PastProvisioning.grows nullifier) fun _ past => past.2

theorem not_inProvisioning {world : World} {nullifier : Felt252}
    (past : HasLease world (PastProvisioning P nullifier)) :
    ¬ HasLease world (InProvisioning P nullifier) := by
  rintro ⟨row, member, sameNullifier, provisioning⟩
  obtain ⟨other, otherMember, otherNullifier, issued⟩ := past
  have same := lease_unique member otherMember (Or.inr (sameNullifier.trans otherNullifier.symm))
  rw [← same] at issued
  exact issued provisioning

/-- The invariant of a run under which leases are issued. -/
abbrev IssueInv (P : Protocol) (world : World) (trace : List (Event (server P))) : Prop :=
  IssueBase P world trace ∧ ProvisioningKnown P world trace

theorem issueInv_preserved (feltHex : P.FeltHexRoundTrips) :
    (discipline P).Inductive (IssueInv P) := by
  have base := (seenLeases_preserved.both canonicalLeases_preserved).both
    (issueLockHeld_preserved.both (startsOnce_preserved (discipline P)))
  exact base.and (provisioningKnown_preserved feltHex)

theorem issueInv_initial {world : World} (canonical : CanonicalLeases P world) :
    IssueInv P world [] := by
  refine ⟨⟨⟨evidence_initial (M := server P) world, canonical⟩, ?_, startsOnce_nil⟩, ?_⟩
  · intro task running
    cases running
  · intro task request running
    cases running

/-- A step that returns a key turns the provisioning row of its request into an
active one with the terms of the key. -/
theorem issuance_step {state : State (server P)} (inv : IssueInv P state.world state.trace)
    {after : World} {trace rest : List (Event (server P))} {task : Nat}
    {request : ApiRequestV2} {issued : IssuedOpenRouterLease}
    (stepCase : (discipline P).StepCase state after trace)
    (new : trace = .returned task (.issueOpenRouterLease request) (.ok issued) :: rest) :
    HasLease state.world (InProvisioning P request.nullifier) ∧
      ∃ keyHash, KeyDelivered (historyOf task rest) issued.lease.apiKey keyHash ∧
        HasLease after (Delivered P request issued keyHash) := by
  rcases stepCase.of_returned new with returns |
      ⟨op, answer, response, middle, rfl, rfl, running, started, allowed, executed, returns⟩
  · obtain ⟨_, _, _, _, impossible⟩ := returns
    cases impossible
  · obtain ⟨keyHash, earlier, delivered, _, history⟩ := returns
    obtain ⟨last, before⟩ := List.cons.inj history
    cases last
    obtain ⟨_, _, _, _, same, _, issuing, _⟩ := allowed
    cases same
    have provisioned := inv.2 task request running started issuing.locked issuing.knows
    obtain ⟨row, member, isProvisioned⟩ := provisioned
    obtain ⟨expires, settles⟩ := isProvisioned.timed _ _ _ before
    have satisfied : Store.isProvisioning request.clientRequestId row = true :=
      decide_eq_true ⟨isProvisioned.clientRequestId, isProvisioned.status⟩
    refine ⟨⟨row, member, isProvisioned.requestNullifier, isProvisioned.status⟩, keyHash, ?_, ?_⟩
    · simpa [historyOf] using delivered
    · have executed : execute P task (.activateLease request.clientRequestId keyHash) answer
        state.world = some (.ok (), middle) := executed
      cases leaseEffect executed with
      | kept _ passive => exact (passive trivial).elim
      | activated _ _ updated =>
          refine ⟨_, (Table.mem_update updated).mpr ⟨row, member, rfl⟩, ?_⟩
          rw [Table.updatedRow, if_pos satisfied]
          exact ⟨isProvisioned.clientRequestId, isProvisioned.requestNullifier, rfl, rfl,
            expires, settles⟩

theorem isIssuance_iff {nullifier : Felt252} {event : Event (server P)} :
    isIssuance nullifier event = true ↔ ∃ task request issued,
      event = .returned task (.issueOpenRouterLease request) (.ok issued) ∧
        request.nullifier = nullifier := by
  constructor
  · intro issues
    unfold isIssuance at issues
    split at issues
    · rename_i task request issued
      exact ⟨task, request, issued, rfl, of_decide_eq_true issues⟩
    · cases issues
  · rintro ⟨task, request, issued, rfl, same⟩
    exact decide_eq_true same

/-- A step returns no key for the nullifier, or it returns one and its lease was
being provisioned before. -/
theorem issuance_count {state after : State (server P)} {action : Action (server P)}
    (valid : (discipline P).Valid state) (inv : IssueInv P state.world state.trace)
    (stepped : state.step action = some after) (nullifier : Felt252) :
    after.trace.countP (isIssuance nullifier) =
        state.trace.countP (isIssuance nullifier) ∨
      after.trace.countP (isIssuance nullifier) =
        state.trace.countP (isIssuance nullifier) + 1 ∧
      HasLease state.world (InProvisioning P nullifier) ∧
      HasLease after.world (PastProvisioning P nullifier) := by
  have stepCase := valid.step_case stepped
  have onlyReturns : ∀ event : Event (server P), isIssuance nullifier event = true →
      ∃ task call result, event = .returned task call result := by
    intro event issues
    obtain ⟨task, request, issued, rfl, _⟩ := isIssuance_iff.mp issues
    exact ⟨task, _, _, rfl⟩
  rcases stepCase.countP onlyReturns with same | ⟨increased, event, rest, new, issues⟩
  · exact Or.inl same
  · right
    obtain ⟨task, request, issued, rfl, rfl⟩ := isIssuance_iff.mp issues
    obtain ⟨provisioning, keyHash, _, row, member, delivered⟩ :=
      issuance_step inv stepCase new
    refine ⟨increased, provisioning, row, member, delivered.requestNullifier, ?_⟩
    rw [delivered.status]
    decide

/-- No key is returned for a nullifier whose lease is past provisioning. -/
theorem no_issuance_after (feltHex : P.FeltHexRoundTrips) {state later : State (server P)}
    (valid : (discipline P).Valid state) (inv : IssueInv P state.world state.trace)
    {nullifier : Felt252} (past : HasLease state.world (PastProvisioning P nullifier))
    (run : state.Reaches later) :
    later.trace.countP (isIssuance nullifier) = state.trace.countP (isIssuance nullifier) ∧
      HasLease later.world (PastProvisioning P nullifier) := by
  induction run with
  | refl => exact ⟨rfl, past⟩
  | tail run stepped ih =>
      obtain ⟨action, stepped⟩ := stepped
      obtain ⟨sameCount, stillPast⟩ := ih
      obtain ⟨nextValid, nextInv⟩ := (issueInv_preserved feltHex).reaches valid inv run
      refine ⟨?_, (pastProvisioning_lasting nullifier).step stepped stillPast⟩
      rcases issuance_count nextValid nextInv stepped nullifier with
        same | ⟨_, provisioning, _⟩
      · exact same.trans sameCount
      · exact (not_inProvisioning stillPast provisioning).elim

/-- At most one key is returned, and one that was returned leaves its lease past
provisioning. -/
theorem issuances_le_one (feltHex : P.FeltHexRoundTrips) {world : World}
    (canonical : CanonicalLeases P world) {state : State (server P)}
    (run : (State.initial (server P) world).Reaches state) (nullifier : Felt252) :
    state.trace.countP (isIssuance nullifier) = 0 ∨
      state.trace.countP (isIssuance nullifier) = 1 ∧
        HasLease state.world (PastProvisioning P nullifier) := by
  induction run with
  | refl => exact Or.inl rfl
  | tail run stepped ih =>
      obtain ⟨action, stepped⟩ := stepped
      obtain ⟨valid, inv⟩ := (issueInv_preserved feltHex).reaches
        ((discipline P).valid_initial world) (issueInv_initial canonical) run
      rcases issuance_count valid inv stepped nullifier with
        same | ⟨increased, provisioning, past⟩
      · rw [same]
        rcases ih with none | ⟨one, past⟩
        · exact Or.inl none
        · exact Or.inr ⟨one, (pastProvisioning_lasting nullifier).step stepped past⟩
      · rcases ih with none | ⟨_, alreadyPast⟩
        · exact Or.inr ⟨by rw [increased, none], past⟩
        · exact (not_inProvisioning alreadyPast provisioning).elim

/-- In every run: at most one key is returned for a nullifier; whenever a key is
returned, the store then holds exactly one lease row for the nullifier, active
and with the hash and times of the key; and no key is returned once a lease is
active or finalized. -/
theorem lease_issuance (P : Protocol) (feltHex : P.FeltHexRoundTrips) (world : World)
    (canonical : CanonicalLeases P world) {state : State (server P)}
    (run : (State.initial (server P) world).Reaches state) (nullifier : Felt252) :
    state.trace.countP (isIssuance nullifier) ≤ 1 ∧
    (∀ action after task request issued rest, state.step action = some after →
      after.trace = .returned task (.issueOpenRouterLease request) (.ok issued) :: rest →
        ∃ row ∈ after.world.store.leases, ∃ keyHash,
          KeyDelivered (historyOf task rest) issued.lease.apiKey keyHash ∧
          Delivered P request issued keyHash row ∧
          ∀ other ∈ after.world.store.leases,
            other.requestNullifier = P.feltToHex request.nullifier → other = row) ∧
    ∀ row ∈ state.world.store.leases, row.requestNullifier = P.feltToHex nullifier →
      row.status = "active" ∨ row.status = "finalized" →
        ∀ later, state.Reaches later → later.trace.countP (isIssuance nullifier) =
          state.trace.countP (isIssuance nullifier) := by
  obtain ⟨valid, inv⟩ := (issueInv_preserved feltHex).reaches
    ((discipline P).valid_initial world) (issueInv_initial canonical) run
  refine ⟨?_, ?_, ?_⟩
  · rcases issuances_le_one feltHex canonical run nullifier with none | ⟨one, _⟩
    · omega
    · omega
  · intro action after task request issued rest stepped new
    obtain ⟨_, keyHash, keyDelivered, row, member, delivered⟩ :=
      issuance_step inv (valid.step_case stepped) new
    refine ⟨row, member, keyHash, keyDelivered, delivered, fun other otherMember same => ?_⟩
    exact lease_unique otherMember member
      (Or.inr (same.trans delivered.requestNullifier.symm))
  · intro row member sameNullifier status later continues
    have issued : row.status ≠ "provisioning" := by
      rcases status with active | finalized
      · rw [active]
        decide
      · rw [finalized]
        decide
    exact (no_issuance_after feltHex valid inv ⟨row, member, sameNullifier, issued⟩
      continues).1

theorem lease_issuance_openrouter :
    ∃ state, (State.initial (server Reference.protocol)
        (Reference.world Reference.leasingConfig)).Reaches state ∧
      state.trace.countP (isIssuance ⟨5⟩) = 1 ∧
      ∀ later, state.Reaches later → later.trace.countP (isIssuance ⟨5⟩) = 1 := by
  have reached : ∃ state, (State.initial (server Reference.protocol)
        (Reference.world Reference.leasingConfig)).Reaches state ∧
      state.trace.countP (isIssuance ⟨5⟩) = 1 ∧
      ∃ row ∈ state.world.store.leases.rows,
        row.requestNullifier = Reference.protocol.feltToHex ⟨5⟩ ∧ row.status = "active" :=
    State.reaches_of_decide (Reference.runs 0 (.issueOpenRouterLease Reference.leaseRequest)
      Reference.issueAnswers) (by decide)
  obtain ⟨state, run, issued, row, member, sameNullifier, active⟩ := reached
  have canonical : CanonicalLeases Reference.protocol
      (Reference.world Reference.leasingConfig) :=
    fun row member => (Table.not_mem_empty row member).elim
  refine ⟨state, run, issued, fun later continues => ?_⟩
  rw [← issued]
  exact (lease_issuance Reference.protocol Reference.feltHexRoundTrips _ canonical run
    ⟨5⟩).2.2 row member sameNullifier (Or.inl active) later continues

end Issuance

end ZkApi
