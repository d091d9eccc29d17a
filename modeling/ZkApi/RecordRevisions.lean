import ZkApi.BrowserLeases
import ZkApi.ExpiryHistory
import ZkApi.StepRuns

/-!
# Revisions of withdrawal records

A tab reads a withdrawal record, waits for the chain, and writes the record only if its
revision is still the one that was read.  The identity of a record is that of its note:
a balance that is set aside again gets a record with the same identity, which starts
over at the first revision.
-/

namespace ZkApi.Browser.Revisions

open Clientd

section Calls

variable (store : Store)

/-- A record of a mutual withdrawal that no wallet prompt was opened for; `evidence` is
any other trace of a submission in it. -/
def isUnsubmittedParkedMutualWithdrawal (record : WithdrawalRecord) (evidence : Bool) : Bool :=
  record.mode == .mutual && record.preparedWithdrawal.any (fun prepared =>
      prepared.mode == .mutual && prepared.noteId == record.noteId &&
        ["prepared", "reserving"].contains prepared.phase && prepared.submissionId.isNone &&
        prepared.transactionHashes.isEmpty) &&
    record.state.any (fun state => state.noteId == record.noteId) &&
    ["parked", "restored", "challenged_unconfirmed", "recovery_unconfirmed"].contains
      record.phase &&
    !record.startPending && !record.finalizePending && record.closeBlockNumber == 0 && !evidence &&
    !unresolvedLateWithdrawalForNote store.runtime record.noteId

/-- `mutateBackgroundWithdrawal`: a record that does not change is not written. -/
def putMutated (record next : WithdrawalRecord) : Store :=
  if next = record then store
  else { store with
    withdrawals := putRecord store.withdrawals { next with revision := record.revision + 1 } }

/-- `isRecent` says that the block of the observation is not older than the record's. -/
def repairBrowserUnsubmittedBackgroundWithdrawal (noteId : UInt32) (expectedRevision : Nat)
    (isRecent evidence : Bool) : Option Store :=
  (store.record? noteId).bind fun record =>
    if record.revision ≠ expectedRevision ∨ isRecent = false ∨
        isUnsubmittedParkedMutualWithdrawal store record evidence = false then none
    else some (putMutated store record { record with phase := "parked" })

/-- The plan that a resolved start leaves. -/
def retryPlan (record : WithdrawalRecord) : PreparedWithdrawal where
  mode := .mutual
  phase := "prepared"
  noteId := record.noteId
  destination := record.destination
  clearanceReserved := true
  submissionId := none
  transactionHashes := []

/-- The two lists name the same transactions. -/
def sameHashes (hashes others : List String) : Bool :=
  (hashes.map Expiry.lowerCase).eraseDups.isPerm (others.map Expiry.lowerCase).eraseDups

/-- `isResolved` says that the start of the record has been resolved in a block that is
final and not older than the record's. -/
def resolveBrowserBackgroundWithdrawalForRetry (noteId : UInt32) (expectedRevision : Nat)
    (resolvedTransactionHashes : List String) (isResolved : Bool) : Option Store :=
  (store.record? noteId).bind fun record =>
    let known := (record.preparedWithdrawal.map PreparedWithdrawal.transactionHashes).getD []
    if record.revision ≠ expectedRevision ∨ record.state.isNone ∨ record.mode ≠ .mutual ∨
        record.startPending = true ∨ record.finalizePending = true ∨ isResolved = false ∨
        (record.preparedWithdrawal.bind PreparedWithdrawal.submissionId).isSome ∨
        unresolvedLateWithdrawalForNote store.runtime noteId = true ∨
        sameHashes known resolvedTransactionHashes = false then none
    else some (putMutated store record { record with
      phase := "parked", preparedWithdrawal := some (retryPlan record) })

/-- `isChallenged` says that a recent enough block shows the note active, and that the
claim of the record is the caller's and has no hash. -/
def resolveBrowserChallengedFinalization (noteId : UInt32) (expectedRevision : Nat)
    (isChallenged : Bool) : Option Store :=
  (store.record? noteId).bind fun record =>
    if record.revision ≠ expectedRevision ∨ record.finalizePending = false ∨
        isChallenged = false then none
    else
      let withdrawalOnly := record.clearanceReserved ||
        record.preparedWithdrawal.any PreparedWithdrawal.clearanceReserved
      some { store with
        withdrawals := putRecord store.withdrawals { record with
          phase := if withdrawalOnly then "parked" else "restored"
          finalizePending := false
          revision := record.revision + 1 } }

/-- A call that names the revision of the record that its caller has read. -/
inductive GuardedCall where
  | updates (changes : RecordChanges) (sanitize : Bool)
  | restores
  | repairs (isRecent evidence : Bool)
  | resolvesForRetry (resolvedTransactionHashes : List String) (isResolved : Bool)
  | resolvesChallenged (isChallenged : Bool)

def GuardedCall.apply (read : WithdrawalRecord) : GuardedCall → Option Store
  | .updates changes sanitize =>
      updateBrowserWithdrawal store read.noteId changes sanitize (some read.revision)
  | .restores => restoreBrowserWithdrawal store read.noteId read.revision
  | .repairs isRecent evidence =>
      repairBrowserUnsubmittedBackgroundWithdrawal store read.noteId read.revision isRecent evidence
  | .resolvesForRetry resolvedTransactionHashes isResolved =>
      resolveBrowserBackgroundWithdrawalForRetry store read.noteId read.revision
        resolvedTransactionHashes isResolved
  | .resolvesChallenged isChallenged =>
      resolveBrowserChallengedFinalization store read.noteId read.revision isChallenged

end Calls

section Machine

/-- The store, and the records that a caller has read and has not yet used. -/
structure World where
  store : Store
  reads : List WithdrawalRecord
deriving DecidableEq

inductive Action where
  | reads (noteId : UInt32)
  | forgets (read : WithdrawalRecord)
  | changes (change : StoreChange)
  | rewrites (change : RecordChange)
  | calls (read : WithdrawalRecord) (call : GuardedCall)

/-- The tabs read, change and use records in any order. -/
def World.step (world : World) : Action → Option World
  | .reads noteId => (world.store.record? noteId).map fun record =>
      { world with reads := record :: world.reads }
  | .forgets read => some { world with reads := world.reads.erase read }
  | .changes change => (change.apply world.store).map fun store => { world with store := store }
  | .rewrites change => (change.apply world.store).map fun store => { world with store := store }
  | .calls read call =>
      if read ∈ world.reads then (call.apply world.store read).map fun store =>
        { store := store, reads := world.reads.erase read }
      else none

end Machine

section Incarnations

/-- The change puts a record of this note at its first revision. -/
def creates (store : Store) (noteId : UInt32) : StoreChange → Bool
  | .detaches detached _ _ | .detachesClosed detached _ _ _ _ => detached == noteId
  | .parks => store.runtime.state.any fun state => state.noteId == noteId
  | .transfers attempt _ _ _ => attempt.noteId == noteId && (store.record? noteId).isNone
  | _ => false

/-- No record of a note is created while a caller still holds a read of an earlier one. -/
def World.spares (world : World) : Action → Bool
  | .changes change => world.reads.all fun read => !creates world.store read.noteId change
  | _ => true

variable {store next : Store} {record read : WithdrawalRecord} {noteId : UInt32}

theorem record?_put (store : Store) (records : List WithdrawalRecord) (record : WithdrawalRecord)
    (noteId : UInt32) : ({ store with withdrawals := putRecord records record } : Store).record?
      noteId = if record.noteId = noteId then some record
      else ({ store with withdrawals := records } : Store).record? noteId := by
  rw [Store.record?, putRecord, List.find?_cons]
  by_cases same : record.noteId = noteId
  · rw [if_pos same, beq_iff_eq.mpr same]
  · rw [if_neg same, beq_eq_false_iff_ne.mpr same, List.find?_filter, Store.record?]
    show List.find? _ records = List.find? _ records
    congr 1
    funext other
    by_cases found : other.noteId = noteId
    · simp [found, Ne.symm same]
    · simp [found]

theorem record?_delete (store : Store) (records : List WithdrawalRecord) (deleted noteId : UInt32)
    (found : ({ store with withdrawals := deleteRecord records deleted } : Store).record? noteId =
      some record) : ({ store with withdrawals := records } : Store).record? noteId =
      some record := by
  rw [Store.record?, deleteRecord, List.find?_filter] at found
  by_cases same : noteId = deleted
  · obtain ⟨both, -⟩ := List.find?_eq_some_iff_append.mp found
    simp only [bne_iff_ne, ne_eq, beq_iff_eq, decide_eq_true_eq] at both
    exact absurd (both.2.trans same) both.1
  · rw [Store.record?, ← found]
    congr 1
    funext other
    by_cases here : other.noteId = noteId
    · simp [here, same]
    · simp [here]

/-- The record of the note is kept, rewritten with a greater revision or removed. -/
def Advances (store next : Store) (noteId : UInt32) : Prop :=
  ∀ after, next.record? noteId = some after → ∃ before, store.record? noteId = some before ∧
    (after = before ∨ before.revision < after.revision)

theorem Advances.same (same : next.withdrawals = store.withdrawals) :
    Advances store next noteId := by
  intro after found
  rw [Store.record?, same] at found
  exact ⟨after, found, .inl rfl⟩

/-- A record takes the place of the one that it was made from. -/
theorem Advances.put (stored : store.record? record.noteId = some record)
    {after : WithdrawalRecord} (id : after.noteId = record.noteId)
    (newer : record.revision < after.revision) (runtime : Runtime)
    (archives : List ArchivedNote) (noteId : UInt32) :
    Advances store ⟨runtime, putRecord store.withdrawals after, archives⟩ noteId := by
  intro other found
  have put := record?_put ⟨runtime, store.withdrawals, archives⟩ store.withdrawals after
    noteId
  by_cases same : after.noteId = noteId
  · rw [if_pos same] at put
    rw [put, Option.some.injEq] at found
    subst found
    exact ⟨record, same ▸ id ▸ stored, .inr newer⟩
  · rw [if_neg same] at put
    rw [put] at found
    exact ⟨other, found, .inl rfl⟩

theorem Advances.putOther {after : WithdrawalRecord} (other : after.noteId ≠ noteId)
    (runtime : Runtime) (archives : List ArchivedNote) :
    Advances store ⟨runtime, putRecord store.withdrawals after, archives⟩ noteId := by
  intro found stored
  have put := record?_put ⟨runtime, store.withdrawals, archives⟩ store.withdrawals after
    noteId
  rw [if_neg other] at put
  rw [put] at stored
  exact ⟨found, stored, .inl rfl⟩

theorem Advances.delete (deleted : UInt32) (runtime : Runtime) (archives : List ArchivedNote)
    (noteId : UInt32) :
    Advances store ⟨runtime, deleteRecord store.withdrawals deleted, archives⟩ noteId :=
  fun after found => ⟨after, record?_delete ⟨runtime, store.withdrawals, archives⟩
    store.withdrawals deleted noteId found, .inl rfl⟩

theorem stored_self (stored : store.record? noteId = some record) :
    record.noteId = noteId ∧ store.record? record.noteId = some record := by
  have found := stored
  rw [Store.record?] at found
  have same := List.find?_some found
  have id : record.noteId = noteId := eq_of_beq same
  exact ⟨id, id ▸ stored⟩

/-- The record of some note is written again. -/
theorem Advances.newer {written : UInt32} (stored : store.record? written = some record)
    {after : WithdrawalRecord} (id : after.noteId = record.noteId)
    (revision : after.revision = record.revision + 1) (runtime : Runtime)
    (archives : List ArchivedNote) (noteId : UInt32) :
    Advances store ⟨runtime, putRecord store.withdrawals after, archives⟩ noteId :=
  Advances.put (stored_self stored).2 id (revision ▸ Nat.lt_succ_self _) runtime archives noteId

theorem updateBrowserWithdrawal_advances {changes : RecordChanges} {sanitize : Bool}
    {expectedRevision : Option Nat} {updated : UInt32}
    (taken : Browser.updateBrowserWithdrawal store updated changes sanitize expectedRevision =
      some next) : Advances store next noteId := by
  rw [Browser.updateBrowserWithdrawal] at taken
  split at taken
  · cases taken
  case h_2 record stored =>
    split at taken
    · cases taken
    · split at taken
      · cases taken
      · obtain rfl := Option.some.inj taken
        apply Advances.newer stored <;> rfl

theorem mutateBackgroundWithdrawal_advances {mutated : UInt32} {phase planPhase : String}
    {startPending finalizePending : Bool} {submissionId : Option String}
    {transactionHashes : List String}
    (taken : mutateBackgroundWithdrawal store mutated phase startPending finalizePending planPhase
      submissionId transactionHashes = some next) : Advances store next noteId := by
  obtain ⟨record, stored, rfl⟩ := Option.map_eq_some_iff.mp taken
  apply Advances.newer stored <;> rfl

theorem saveBrowserBackgroundWithdrawalPlan_advances {planned : UInt32}
    {destination : Option String}
    (taken : saveBrowserBackgroundWithdrawalPlan store planned destination = some next) :
    Advances store next noteId := by
  rw [saveBrowserBackgroundWithdrawalPlan] at taken
  split at taken
  · cases taken
  case h_2 record stored =>
    split at taken
    · cases taken
    · obtain rfl := Option.some.inj taken
      apply Advances.newer stored <;> rfl

theorem restoreBrowserWithdrawal_advances {restored : UInt32} {expectedRevision : Nat}
    (taken : restoreBrowserWithdrawal store restored expectedRevision = some next) :
    Advances store next noteId := by
  rw [restoreBrowserWithdrawal] at taken
  split at taken
  · cases taken
  · split at taken
    · cases taken
    · dsimp only at taken
      split at taken
      · cases taken
      · obtain rfl := Option.some.inj taken
        exact Advances.delete _ _ _ noteId

/-- A transfer to a record that is there already. -/
theorem transferBrowserLateWithdrawalAttempt_advances {attempt : LateWithdrawalAttempt}
    {phase : String} {mode : WithdrawalMode} {clearanceReserved : Bool}
    (taken : transferBrowserLateWithdrawalAttempt store attempt phase mode clearanceReserved =
      some next)
    (there : attempt.noteId ≠ noteId ∨ (store.record? noteId).isSome = true) :
    Advances store next noteId := by
  unfold transferBrowserLateWithdrawalAttempt at taken
  split at taken
  · cases taken
  · split at taken
    · obtain rfl := Option.some.inj taken
      exact Advances.same rfl
    · dsimp only at taken
      split at taken
      · cases taken
      · split at taken
        · cases taken
        · obtain rfl := Option.some.inj taken
          by_cases other : attempt.noteId = noteId
          · obtain ⟨record, stored⟩ := Option.isSome_iff_exists.mp
              (there.resolve_left (absurd other))
            rw [← other] at stored
            apply Advances.newer stored
            · exact (stored_self stored).1.symm
            · rw [stored]
              rfl
          · exact Advances.putOther other _ _

theorem leave_advances (left : WithdrawalRecord) (other : left.noteId ≠ noteId) :
    Advances store (store.leave left) noteId :=
  Advances.putOther other _ _

theorem detaches_advances {detached : UInt32} (other : detached ≠ noteId) {phase : String}
    {destination : Option String}
    (taken : detachBrowserEscapeWithdrawal store detached phase destination = some next) :
    Advances store next noteId := by
  rw [detachBrowserEscapeWithdrawal] at taken
  split at taken
  · cases taken
  · split at taken
    · cases taken
    case isFalse fits =>
      obtain rfl := Option.some.inj taken
      rw [not_or, not_not] at fits
      exact leave_advances _ fun same => other (fits.1.symm.trans same)

theorem detachesClosed_advances {detached : UInt32} (other : detached ≠ noteId)
    {mode : WithdrawalMode} {destination : Option String} {closeBlockNumber : Nat}
    {clearanceReserved : Bool}
    (taken : detachBrowserClosedWithdrawal store detached mode destination closeBlockNumber
      clearanceReserved = some next) : Advances store next noteId := by
  rw [detachBrowserClosedWithdrawal] at taken
  split at taken
  · cases taken
  · split at taken
    · cases taken
    case isFalse fits =>
      obtain rfl := Option.some.inj taken
      rw [not_or, not_not] at fits
      exact leave_advances _ fun same => other (fits.1.symm.trans same)

theorem parks_advances
    (other : (store.runtime.state.any fun state => state.noteId == noteId) = false)
    (taken : parkBrowserWithdrawal store = some next) : Advances store next noteId := by
  rw [parkBrowserWithdrawal] at taken
  split at taken
  case h_1 state prepared selected plan =>
    split at taken
    · cases taken
    · obtain rfl := Option.some.inj taken
      rw [selected] at other
      exact leave_advances _ (beq_eq_false_iff_ne.mp other)
  · cases taken

theorem storeChange_advances {change : StoreChange} (taken : change.apply store = some next)
    (kept : creates store noteId change = false) : Advances store next noteId := by
  cases change with
  | detaches detached phase destination =>
    exact detaches_advances (beq_eq_false_iff_ne.mp kept) taken
  | detachesClosed detached mode destination closeBlockNumber clearanceReserved =>
    exact detachesClosed_advances (beq_eq_false_iff_ne.mp kept) taken
  | parks => exact parks_advances kept taken
  | restores restored expectedRevision => exact restoreBrowserWithdrawal_advances taken
  | transfers attempt phase mode clearanceReserved =>
    apply transferBrowserLateWithdrawalAttempt_advances taken
    rw [creates, Bool.and_eq_false_iff] at kept
    rcases kept with other | there
    · exact .inl (beq_eq_false_iff_ne.mp other)
    · exact .inr (by simpa using there)
  | archives reason archived claimed =>
    simp only [StoreChange.apply, archiveBrowserWallet] at taken
    grind [Advances.same]
  | clears force expectedNoteId expectedTransactionHashes =>
    simp only [StoreChange.apply, clearPreparedWithdrawal] at taken
    grind [Advances.same]
  | challenges attempt =>
    simp only [StoreChange.apply, resolveLateChallengedWithdrawalAttempt] at taken
    grind [Advances.same]
  | challengesPrepared challenged =>
    simp only [StoreChange.apply, resolveChallengedPreparedEscape] at taken
    grind [Advances.same]
  | remembers attempts =>
    obtain rfl := Option.some.inj taken
    exact Advances.same rfl
  | deposits pending =>
    simp only [StoreChange.apply, planDeposit] at taken
    grind [Advances.same]
  | confirms state =>
    simp only [StoreChange.apply, Browser.confirmDeposit] at taken
    grind [Advances.same]

theorem recordChange_advances {change : RecordChange} (taken : change.apply store = some next) :
    Advances store next noteId := by
  cases change with
  | rewrites phase submissionId transactionHashes =>
    obtain ⟨prepared, -, rfl⟩ := Option.map_eq_some_iff.mp taken
    exact Advances.same rfl
  | updates updated changes expectedRevision => exact updateBrowserWithdrawal_advances taken
  | mutates mutated phase startPending finalizePending planPhase submissionId transactionHashes =>
    exact mutateBackgroundWithdrawal_advances taken
  | plans planned destination => exact saveBrowserBackgroundWithdrawalPlan_advances taken

theorem putMutated_advances (stored : store.record? record.noteId = some record)
    {after : WithdrawalRecord} (id : after.noteId = record.noteId) :
    Advances store (putMutated store record after) noteId := by
  rw [putMutated]
  split
  · exact Advances.same rfl
  · apply Advances.newer stored
    · exact id
    · rfl

/-- A call that succeeds finds the revision that its caller has read. -/
theorem GuardedCall.finds {call : GuardedCall} (taken : call.apply store read = some next) :
    ∃ record, store.record? read.noteId = some record ∧ record.revision = read.revision := by
  cases call with
  | updates changes sanitize =>
    simp only [GuardedCall.apply, Browser.updateBrowserWithdrawal] at taken
    split at taken
    · cases taken
    case h_2 record stored =>
      split at taken
      · cases taken
      case isFalse same => exact ⟨record, stored, by simpa using Eq.symm (by simpa using same)⟩
  | restores =>
    simp only [GuardedCall.apply, restoreBrowserWithdrawal] at taken
    split at taken
    · cases taken
    case h_2 record stored =>
      split at taken
      · cases taken
      · split at taken
        · cases taken
        case isFalse fits =>
          rw [not_or, not_not] at fits
          exact ⟨record, stored, fits.1⟩
  | repairs isRecent evidence =>
    obtain ⟨record, stored, repaired⟩ := Option.bind_eq_some_iff.mp taken
    split at repaired
    · cases repaired
    case isFalse fits =>
      rw [not_or, not_not] at fits
      exact ⟨record, stored, fits.1⟩
  | resolvesForRetry resolvedTransactionHashes isResolved =>
    obtain ⟨record, stored, resolved⟩ := Option.bind_eq_some_iff.mp taken
    dsimp only at resolved
    split at resolved
    · cases resolved
    case isFalse fits =>
      rw [not_or, not_not] at fits
      exact ⟨record, stored, fits.1⟩
  | resolvesChallenged isChallenged =>
    obtain ⟨record, stored, resolved⟩ := Option.bind_eq_some_iff.mp taken
    split at resolved
    · cases resolved
    case isFalse fits =>
      rw [not_or, not_not] at fits
      exact ⟨record, stored, fits.1⟩

theorem GuardedCall.advances {call : GuardedCall} (taken : call.apply store read = some next) :
    Advances store next noteId := by
  cases call with
  | updates changes sanitize => exact updateBrowserWithdrawal_advances taken
  | restores => exact restoreBrowserWithdrawal_advances taken
  | repairs isRecent evidence =>
    obtain ⟨record, stored, repaired⟩ := Option.bind_eq_some_iff.mp taken
    split at repaired
    · cases repaired
    · obtain rfl := Option.some.inj repaired
      exact putMutated_advances (stored_self stored).2 rfl
  | resolvesForRetry resolvedTransactionHashes isResolved =>
    obtain ⟨record, stored, resolved⟩ := Option.bind_eq_some_iff.mp taken
    dsimp only at resolved
    split at resolved
    · cases resolved
    · obtain rfl := Option.some.inj resolved
      exact putMutated_advances (stored_self stored).2 rfl
  | resolvesChallenged isChallenged =>
    obtain ⟨record, stored, resolved⟩ := Option.bind_eq_some_iff.mp taken
    split at resolved
    · cases resolved
    · obtain rfl := Option.some.inj resolved
      apply Advances.newer stored <;> rfl

end Incarnations

section Runs

variable {world next : World} {store : Store} {read : WithdrawalRecord}

/-- The record of the read is the one that was read, or its revision is greater. -/
def Follows (store : Store) (read : WithdrawalRecord) : Prop :=
  ∀ record, store.record? read.noteId = some record →
    record = read ∨ read.revision < record.revision

theorem Follows.advances {later : Store} (follows : Follows store read)
    (advances : Advances store later read.noteId) : Follows later read := by
  intro after found
  obtain ⟨before, stored, moved⟩ := advances after found
  rcases follows before stored with rfl | newer
  · exact moved
  · rcases moved with rfl | newest
    · exact .inr newer
    · exact .inr (newer.trans newest)

theorem Follows.self {noteId : UInt32} (stored : store.record? noteId = some read) :
    Follows store read := by
  intro record found
  rw [(stored_self stored).2, Option.some.injEq] at found
  exact .inl found.symm

def World.Followed (world : World) : Prop :=
  ∀ read ∈ world.reads, Follows world.store read

theorem World.Followed.step (followed : world.Followed) {action : Action}
    (spares : world.spares action = true) (taken : world.step action = some next) :
    next.Followed := by
  cases action with
  | reads noteId =>
    obtain ⟨record, stored, rfl⟩ := Option.map_eq_some_iff.mp taken
    intro read member
    rcases List.mem_cons.mp member with rfl | old
    · exact Follows.self stored
    · exact followed read old
  | forgets read =>
    obtain rfl := Option.some.inj taken
    exact fun other member => followed other (List.mem_of_mem_erase member)
  | changes change =>
    obtain ⟨store, changed, rfl⟩ := Option.map_eq_some_iff.mp taken
    intro read member
    have kept := List.all_eq_true.mp spares read member
    exact (followed read member).advances
      (storeChange_advances changed (Bool.not_eq_true' _ ▸ kept))
  | rewrites change =>
    obtain ⟨store, changed, rfl⟩ := Option.map_eq_some_iff.mp taken
    exact fun read member => (followed read member).advances (recordChange_advances changed)
  | calls read call =>
    simp only [World.step] at taken
    split at taken
    · obtain ⟨store, changed, rfl⟩ := Option.map_eq_some_iff.mp taken
      exact fun other member => (followed other (List.mem_of_mem_erase member)).advances
        (GuardedCall.advances changed)
    · cases taken

/-- A store without records, of which nothing was read. -/
def World.started (runtime : Runtime) : World :=
  ⟨⟨runtime, [], []⟩, []⟩

/-- A call that succeeds changes the record that its caller has read. -/
def World.IsCurrent (world : World) : Prop :=
  ∀ read call next, world.step (.calls read call) = some next →
    world.store.record? read.noteId = some read

/-- As long as no record of a note is created again under a read of an earlier one, every
call that succeeds with the revision of its read changes the very record that was read. -/
theorem World.revisions_current {runtime : Runtime}
    (run : StepRun World.step (fun world action => world.spares action = true)
      (.started runtime) world) : world.IsCurrent := by
  have followed : world.Followed := by
    apply StepRun.invariant run World.Followed
    · exact fun _ member => absurd member List.not_mem_nil
    · exact fun world action next followed spares taken => followed.step spares taken
  intro read call next taken
  simp only [World.step] at taken
  split at taken
  case isTrue member =>
    obtain ⟨store, changed, -⟩ := Option.map_eq_some_iff.mp taken
    obtain ⟨record, stored, revision⟩ := GuardedCall.finds changed
    rcases followed read member record stored with rfl | newer
    · exact stored
    · omega
  · cases taken

/-- A selected balance whose clearance the server has reserved. -/
def reservedRuntime : Runtime where
  state := some ⟨7, ⟨3⟩, 500, Felt252.zero⟩
  journal := none
  pendingDeposit := none
  preparedWithdrawal := some (reservedPlan 7)
  lease := none
  lateWithdrawalAttempts := []

/-- The balance is set aside, read and planned anew by its caller. -/
theorem World.revisions_current_sample : ∃ world : World,
    world.reads.map WithdrawalRecord.revision = [1] ∧ world.IsCurrent := by
  obtain ⟨world, run, read⟩ := exists_stepRun World.step World.spares (.started reservedRuntime)
    [.changes .parks, .reads 7]
    (fun world => decide (world.reads.map WithdrawalRecord.revision = [1])) (by decide)
  exact ⟨world, of_decide_eq_true read, World.revisions_current run⟩

/-- The balance is set aside and read, selected again and set aside again: the record has
another plan and the revision that was read. -/
theorem World.revisions_recreated : ∃ world : World,
    StepRun World.step (fun _ _ => true = true) (.started reservedRuntime) world ∧
      ¬ world.IsCurrent := by
  obtain ⟨world, run, stale⟩ := exists_stepRun World.step (fun _ _ => true)
    (.started reservedRuntime)
    [.changes .parks, .reads 7, .changes (.restores 7 1), .changes .parks]
    (fun world => world.reads.any fun read =>
      (world.step (.calls read (.updates ⟨none, some "recovery_unconfirmed", none, none⟩
        false))).isSome && decide (world.store.record? read.noteId ≠ some read))
    (by decide)
  refine ⟨world, run, fun current => ?_⟩
  obtain ⟨read, -, both⟩ := List.any_eq_true.mp stale
  obtain ⟨called, other⟩ := Bool.and_eq_true_iff.mp both
  obtain ⟨next, taken⟩ := Option.isSome_iff_exists.mp called
  exact of_decide_eq_true other (current read _ next taken)

end Runs

end ZkApi.Browser.Revisions
