import ZkApi.BrowserStore
import ZkApi.ExpiryHistory
import ZkApi.StepRuns

/-!
# Writes of the selected runtime

The tabs of a wallet change the runtime under one exclusive lock: an operation reads the
runtime in one transaction and writes it in a later one, with a value that it has computed in
between.  The release of a refused start prompt takes no lock; it reads and writes the runtime
in a single transaction.
-/

namespace ZkApi.Browser.Writes

open Clientd

section Release

/-- The start prompt that a release names, and what a replacement adds to it. -/
structure StartSubmission where
  submissionId : String
  noteId : UInt32
  mode : WithdrawalMode
  destination : Option String
  replacementUnknown : Bool
deriving DecidableEq

/-- The selected plan waits for this prompt; `sameOrigin` says that the operation, the
deployment and the nonce agree as well. -/
def StartSubmission.matches (submission : StartSubmission) (prepared : PreparedWithdrawal)
    (sameOrigin : Bool) : Bool :=
  prepared.submissionId == some submission.submissionId && prepared.noteId == submission.noteId &&
    prepared.mode == submission.mode &&
    Expiry.lowerCase (prepared.destination.getD "") ==
      Expiry.lowerCase (submission.destination.getD "") && sameOrigin

/-- The plan after its prompt is gone. -/
def releasedPlan (prepared : PreparedWithdrawal) (replacementUnknown : Bool) :
    PreparedWithdrawal :=
  { prepared with
    phase := if replacementUnknown then "dropped_or_pending"
      else if prepared.transactionHashes.isEmpty then "prepared" else "submitted"
    submissionId := none }

/-- `releaseBrowserWithdrawalStartSubmission`, where it writes the runtime. -/
def releaseSelected (runtime : Runtime) (submission : StartSubmission) (sameOrigin : Bool) :
    Option Runtime :=
  (runtime.preparedWithdrawal.filter fun prepared => submission.matches prepared sameOrigin).map
    fun prepared => { runtime with
      preparedWithdrawal := some (releasedPlan prepared submission.replacementUnknown) }

end Release

section Operations

/-- What an operation does with the runtime under the lock.  Only the first form happens on every
path through the operation. -/
inductive Access where
  | reload
  | reloadIf
  | commit
  | transact
deriving DecidableEq

/-- The operations that take the lock; `createWalletChannel` is the message of another tab. -/
inductive Operation where
  | init
  | createWalletChannel
  | getDepositHistory
  | rememberExpiryClaims
  | getPendingLeaseOwner
  | prepareDeposit
  | refreshPendingDeposit
  | pendingDeposit
  | claimPendingDepositSubmission
  | claimPendingDepositReplacement
  | rememberPendingDepositSubmissionMetadata
  | rememberPendingDepositTransaction
  | markPendingDepositRetryable
  | markPendingDepositMissingReceipts
  | releasePendingDepositReplacementClaim
  | markPendingDepositAmbiguous
  | markPendingDepositUnknown
  | authorizePendingDepositRetry
  | resolvePendingDepositSlotConflict
  | confirmDeposit
  | issueLease
  | retireActiveLease
  | settleSessionLease
  | recoverPending
  | prepareWithdrawal
  | claimPreparedWithdrawalSubmission
  | rememberPreparedWithdrawalSubmissionMetadata
  | claimPreparedWithdrawalReplacement
  | rememberPreparedWithdrawalTransaction
  | currentLateWithdrawalAttempts
  | updateLateWithdrawalAttempt
  | transferLateWithdrawalAttempt
  | resolveLateChallengedWithdrawalAttempt
  | markPreparedWithdrawalRetryable
  | markPreparedWithdrawalMissingReceipts
  | markPreparedWithdrawalAmbiguous
  | releasePreparedWithdrawalReplacementClaim
  | authorizePreparedWithdrawalRetry
  | clearPreparedWithdrawal
  | recoverPreparedWithdrawalSubmissionClaim
  | markPreparedWithdrawalUnknown
  | resolveChallengedPreparedEscape
  | detachEscapeWithdrawal
  | detachClosedWithdrawal
  | parkPreparedWithdrawal
  | currentPreparedWithdrawal
  | currentWithdrawal
  | restoreWithdrawal
  | archiveNote
deriving DecidableEq

/-- A response is installed, or an orphaned journal is discarded. -/
def recoverPendingLocked : List Access :=
  [.commit]

def installRecoveredResponse : List Access :=
  [.commit]

def prepareLeaseRequest : List Access :=
  [.commit]

/-- What the operation does, in its order. -/
def Operation.accesses : Operation → List Access
  | .createWalletChannel | .getDepositHistory | .getPendingLeaseOwner | .pendingDeposit
  | .currentLateWithdrawalAttempts | .recoverPreparedWithdrawalSubmissionClaim
  | .currentPreparedWithdrawal | .currentWithdrawal => [.reload]
  | .rememberExpiryClaims => [.reload, .reload]
  | .init => [.reload, .commit] ++ recoverPendingLocked
  | .prepareDeposit => [.reload, .commit, .commit, .reloadIf, .commit]
  | .rememberPendingDepositTransaction | .claimPreparedWithdrawalSubmission
  | .rememberPreparedWithdrawalTransaction => [.reload, .commit, .commit]
  | .issueLease => [.reload] ++ recoverPendingLocked ++ prepareLeaseRequest ++ [.commit] ++
      installRecoveredResponse ++ [.reloadIf] ++ prepareLeaseRequest ++ [.commit, .commit]
  | .retireActiveLease => [.reload] ++ installRecoveredResponse
  | .settleSessionLease | .recoverPending => [.reload] ++ recoverPendingLocked
  | .prepareWithdrawal => [.reload] ++ recoverPendingLocked ++ [.reload, .commit, .commit]
  | .transferLateWithdrawalAttempt | .detachEscapeWithdrawal | .detachClosedWithdrawal
  | .parkPreparedWithdrawal | .restoreWithdrawal | .archiveNote => [.reload, .transact]
  | .refreshPendingDeposit | .claimPendingDepositSubmission | .claimPendingDepositReplacement
  | .rememberPendingDepositSubmissionMetadata | .markPendingDepositRetryable
  | .markPendingDepositMissingReceipts | .releasePendingDepositReplacementClaim
  | .markPendingDepositAmbiguous | .markPendingDepositUnknown | .authorizePendingDepositRetry
  | .resolvePendingDepositSlotConflict | .confirmDeposit
  | .rememberPreparedWithdrawalSubmissionMetadata | .claimPreparedWithdrawalReplacement
  | .updateLateWithdrawalAttempt | .resolveLateChallengedWithdrawalAttempt
  | .markPreparedWithdrawalRetryable | .markPreparedWithdrawalMissingReceipts
  | .markPreparedWithdrawalAmbiguous | .releasePreparedWithdrawalReplacementClaim
  | .authorizePreparedWithdrawalRetry | .clearPreparedWithdrawal
  | .markPreparedWithdrawalUnknown | .resolveChallengedPreparedEscape => [.reload, .commit]

/-- Every operation reads the runtime before it does anything else. -/
theorem Operation.reads_first (operation : Operation) :
    ∃ rest, operation.accesses = .reload :: rest := by
  cases operation <;> exact ⟨_, rfl⟩

end Operations

section Machine

/-- A write of the runtime: what it was computed from and what it took the place of. -/
structure Write where
  bases : List Runtime
  before : Runtime

/-- An operation under the lock: what is left of it, what it has seen of the runtime since it
last read or wrote it, and the value that it has computed and is about to put. -/
structure Held where
  tab : Nat
  left : List Access
  bases : List Runtime
  computed : Option Runtime

/-- The stored runtime, the copy of each tab and the operation that has the lock; `disturbed`
says that a release has written the runtime since this operation last read or wrote it. -/
structure World where
  store : Runtime
  copies : Nat → Runtime
  held : Option Held
  disturbed : Bool
  writes : List Write

inductive Action where
  | acquires (tab : Nat) (operation : Operation)
  | leaves
  | reloads
  | skips
  | computes (change : List Runtime → Runtime)
  | puts
  | transacts (change : Runtime → Option Runtime)
  | refreshes (tab : Nat)
  | releases (submission : StartSubmission) (sameOrigin : Bool)

def World.copy (world : World) (tab : Nat) (runtime : Runtime) : Nat → Runtime :=
  fun other => if other = tab then runtime else world.copies other

/-- `reload` under the lock. -/
def World.reload (world : World) (held : Held) (rest : List Access) : World :=
  { world with
    copies := world.copy held.tab world.store
    held := some { held with left := rest, bases := [world.store] }
    disturbed := false }

/-- What an operation writes becomes the copy of its tab. -/
def World.write (world : World) (held : Held) (rest : List Access) (bases : List Runtime)
    (next : Runtime) : World :=
  { world with
    store := next
    copies := world.copy held.tab next
    held := some { held with left := rest, bases := [next], computed := none }
    disturbed := false
    writes := ⟨bases, world.store⟩ :: world.writes }

/-- The next step of the operation that has the lock.  A commit spreads the tab's copy into the
new value first and puts it later. -/
def World.work (world : World) (held : Held) : Action → Option World
  | .leaves => some { world with held := none }
  | .reloads => match held.left with
      | .reload :: rest => some (world.reload held rest)
      | .reloadIf :: rest => some (world.reload held rest)
      | _ => none
  | .skips => match held.left, held.computed with
      | .reload :: _, _ => none
      | _ :: rest, none => some { world with held := some { held with left := rest } }
      | _, _ => none
  | .computes change => match held.left, held.computed with
      | .commit :: _, none =>
          let bases := world.copies held.tab :: held.bases
          some { world with held := some { held with bases := bases, computed := change bases } }
      | _, _ => none
  | .puts => match held.left, held.computed with
      | .commit :: rest, some next => some (world.write held rest held.bases next)
      | _, _ => none
  | .transacts change => match held.left with
      | .transact :: rest =>
          (change world.store).map fun next => world.write held rest [world.store] next
      | _ => none
  | _ => none

/-- One transaction of some tab, or what it does between two of them. -/
def World.step (world : World) : Action → Option World
  | .acquires tab operation =>
      if world.held.isNone then
        some { world with held := some ⟨tab, operation.accesses, [], none⟩ }
      else none
  -- a read without the lock
  | .refreshes tab => some { world with copies := world.copy tab world.store }
  | .releases submission sameOrigin =>
      (releaseSelected world.store submission sameOrigin).map fun next => { world with
        store := next
        disturbed := true
        writes := ⟨[world.store], world.store⟩ :: world.writes }
  | action => world.held.bind fun held => world.work held action

/-- A value is put only if no release has written the runtime since the operation last read or
wrote it. -/
def World.isUndisturbed (world : World) : Action → Bool
  | .puts => !world.disturbed
  | _ => true

end Machine

section Writes

variable {world next : World}

/-- The write was computed from what it takes the place of, and from nothing else. -/
def Write.IsFresh (write : Write) : Prop :=
  write.bases ≠ [] ∧ ∀ base ∈ write.bases, base = write.before

instance (write : Write) : Decidable write.IsFresh :=
  inferInstanceAs (Decidable (_ ∧ _))

/-- An operation that has read nothing is at its first reading, and otherwise knows what is
stored, unless a release has come in between. -/
structure Held.Serial (held : Held) (world : World) : Prop where
  first : held.bases = [] → held.computed = none ∧ ∃ rest, held.left = .reload :: rest
  known : world.disturbed = false → ∀ base ∈ held.bases, base = world.store
  copied : world.disturbed = false → held.bases ≠ [] → world.copies held.tab = world.store

structure World.Serial (world : World) : Prop where
  held : ∀ held, world.held = some held → held.Serial world
  fresh : ∀ write ∈ world.writes, write.IsFresh

theorem World.copy_self (world : World) (tab : Nat) (runtime : Runtime) :
    world.copy tab runtime tab = runtime :=
  if_pos rfl

theorem World.Serial.reload (serial : world.Serial) (held : Held) (rest : List Access) :
    (world.reload held rest).Serial := by
  refine ⟨fun other same => ?_, serial.fresh⟩
  obtain rfl := Option.some.inj same
  exact {
    first := fun none => absurd none (List.cons_ne_nil _ _)
    known := fun _ base member => List.mem_singleton.mp member
    copied := fun _ _ => world.copy_self held.tab world.store }

theorem World.Serial.write (serial : world.Serial) (held : Held) (rest : List Access)
    {bases : List Runtime} (some' : bases ≠ []) (fresh : ∀ base ∈ bases, base = world.store)
    (value : Runtime) : (world.write held rest bases value).Serial := by
  constructor
  · intro other same
    obtain rfl := Option.some.inj same
    exact {
      first := fun none => absurd none (List.cons_ne_nil _ _)
      known := fun _ base member => List.mem_singleton.mp member
      copied := fun _ _ => world.copy_self held.tab value }
  · intro write member
    rcases List.mem_cons.mp member with rfl | old
    · exact ⟨some', fresh⟩
    · exact serial.fresh write old

theorem World.Serial.work (serial : world.Serial) {held : Held} (mine : world.held = some held)
    {action : Action} (undisturbed : world.isUndisturbed action = true)
    (taken : world.work held action = some next) : next.Serial := by
  have own := serial.held held mine
  cases action with
  | leaves =>
    obtain rfl := Option.some.inj taken
    refine ⟨fun other held => ?_, serial.fresh⟩
    cases held
  | reloads =>
    simp only [World.work] at taken
    split at taken
    · obtain rfl := Option.some.inj taken
      exact serial.reload held _
    · obtain rfl := Option.some.inj taken
      exact serial.reload held _
    · cases taken
  | skips =>
    simp only [World.work] at taken
    split at taken
    · cases taken
    case h_2 access rest unread left _ =>
      obtain rfl := Option.some.inj taken
      refine ⟨fun other same => ?_, serial.fresh⟩
      obtain rfl := Option.some.inj same
      refine ⟨fun none => ?_, own.known, own.copied⟩
      -- the first reading is never skipped
      obtain ⟨_, reads⟩ := (own.first none).2
      obtain ⟨rfl, -⟩ := List.cons.inj (left.symm.trans reads)
      exact absurd rfl unread
    · cases taken
  | computes change =>
    simp only [World.work] at taken
    split at taken
    case h_1 rest left _ =>
      obtain rfl := Option.some.inj taken
      refine ⟨fun other same => ?_, serial.fresh⟩
      obtain rfl := Option.some.inj same
      have read : held.bases ≠ [] := by
        intro none
        obtain ⟨_, reads⟩ := (own.first none).2
        cases (List.cons.inj (left.symm.trans reads)).1
      refine ⟨fun none => absurd none (List.cons_ne_nil _ _), fun clean base member => ?_,
        fun clean _ => own.copied clean read⟩
      rcases List.mem_cons.mp member with rfl | old
      · exact own.copied clean read
      · exact own.known clean base old
    · cases taken
  | puts =>
    simp only [World.work] at taken
    split at taken
    case h_1 rest value left computed =>
      have clean : world.disturbed = false := by simpa [World.isUndisturbed] using undisturbed
      have read : held.bases ≠ [] := by
        intro none
        rw [(own.first none).1] at computed
        cases computed
      obtain rfl := Option.some.inj taken
      exact serial.write held rest read (own.known clean) value
    · cases taken
  | transacts change =>
    simp only [World.work] at taken
    split at taken
    · obtain ⟨value, -, rfl⟩ := Option.map_eq_some_iff.mp taken
      exact serial.write held _ (List.cons_ne_nil _ _)
        (fun base member => List.mem_singleton.mp member) value
    · cases taken
  | acquires _ _ => cases taken
  | refreshes _ => cases taken
  | releases _ _ => cases taken

theorem World.Serial.step (serial : world.Serial) {action : Action}
    (undisturbed : world.isUndisturbed action = true) (taken : world.step action = some next) :
    next.Serial := by
  have works (action : Action) (undisturbed : world.isUndisturbed action = true)
      (taken : (world.held.bind fun held => world.work held action) = some next) :
      next.Serial := by
    obtain ⟨held, mine, taken⟩ := Option.bind_eq_some_iff.mp taken
    exact serial.work mine undisturbed taken
  cases action with
  | acquires tab operation =>
    simp only [World.step] at taken
    split at taken
    · obtain rfl := Option.some.inj taken
      refine ⟨fun held same => ?_, serial.fresh⟩
      obtain rfl := Option.some.inj same
      exact ⟨fun _ => ⟨rfl, operation.reads_first⟩, fun _ _ member => absurd member
        List.not_mem_nil, fun _ none => absurd rfl none⟩
    · cases taken
  | refreshes tab =>
    obtain rfl := Option.some.inj taken
    refine ⟨fun held mine => ?_, serial.fresh⟩
    have own := serial.held held mine
    refine ⟨own.first, own.known, fun clean read => ?_⟩
    by_cases same : held.tab = tab
    · exact if_pos same
    · exact (if_neg same).trans (own.copied clean read)
  | releases submission sameOrigin =>
    obtain ⟨written, -, rfl⟩ := Option.map_eq_some_iff.mp taken
    refine ⟨fun held mine => ⟨(serial.held held mine).first, fun clean => ?_, fun clean => ?_⟩,
      fun write member => ?_⟩
    -- the release disturbs whatever operation is under way
    · cases clean
    · cases clean
    rcases List.mem_cons.mp member with rfl | old
    · exact ⟨List.cons_ne_nil _ _, fun base member => List.mem_singleton.mp member⟩
    · exact serial.fresh write old
  | leaves => exact works _ undisturbed taken
  | reloads => exact works _ undisturbed taken
  | skips => exact works _ undisturbed taken
  | computes change => exact works _ undisturbed taken
  | puts => exact works _ undisturbed taken
  | transacts change => exact works _ undisturbed taken

/-- Tabs that are all open on the same runtime. -/
def World.started (runtime : Runtime) : World where
  store := runtime
  copies := fun _ => runtime
  held := none
  disturbed := false
  writes := []

/-- As long as no release writes between the last read or write of an operation and its next
put, every write of the runtime is computed from what it takes the place of. -/
theorem World.writes_fresh {runtime : Runtime}
    (run : StepRun World.step (fun world action => world.isUndisturbed action = true)
      (.started runtime) world) : ∀ write ∈ world.writes, write.IsFresh := by
  have serial : world.Serial := by
    apply StepRun.invariant run World.Serial
    · refine ⟨fun other held => ?_, fun _ member => absurd member List.not_mem_nil⟩
      cases held
    · exact fun world action next serial undisturbed taken => serial.step undisturbed taken
  exact serial.fresh

/-- A selected note whose withdrawal waits for the wallet. -/
def awaitingRuntime : Runtime where
  state := some ⟨7, ⟨3⟩, 500, Felt252.zero⟩
  journal := none
  pendingDeposit := none
  preparedWithdrawal := some ⟨.mutual, "awaiting_wallet", 7, some "0xab", true, some "prompt", []⟩
  lease := none
  lateWithdrawalAttempts := []

/-- A late hash that another tab writes down. -/
def Runtime.withLateAttempt (runtime : Runtime) : Runtime :=
  { runtime with lateWithdrawalAttempts := runtime.lateWithdrawalAttempts ++
      [⟨"operation", "0x01", 7, .mutual, some "0xab", true, "observed"⟩] }

def refusedPrompt : StartSubmission :=
  ⟨"prompt", 7, .mutual, some "0xAB", false⟩

/-- The late attempt goes to what was seen last. -/
def noteLate : List Runtime → Runtime
  | seen :: _ => Runtime.withLateAttempt seen
  | [] => awaitingRuntime

/-- The prompt is released before the other tab reads the runtime. -/
theorem World.writes_fresh_sample : ∃ world : World, world.writes.length = 2 ∧
    ∀ write ∈ world.writes, write.IsFresh := by
  obtain ⟨world, run, count⟩ := exists_stepRun World.step World.isUndisturbed
    (.started awaitingRuntime)
    [.acquires 1 .updateLateWithdrawalAttempt, .releases refusedPrompt true, .reloads,
      .computes noteLate, .puts]
    (fun world => decide (world.writes.length = 2)) (by decide)
  exact ⟨world, of_decide_eq_true count, World.writes_fresh run⟩

/-- The prompt is released after the other tab has read the runtime: its commit restores
the claim of the prompt. -/
theorem World.release_overwritten : ∃ world : World,
    StepRun World.step (fun _ _ => true = true) (.started awaitingRuntime) world ∧
    (world.store.preparedWithdrawal.bind PreparedWithdrawal.submissionId = some "prompt" ∧
      ¬ ∀ write ∈ world.writes, write.IsFresh) := by
  obtain ⟨world, run, restored⟩ := exists_stepRun World.step (fun _ _ => true)
    (.started awaitingRuntime)
    [.acquires 1 .updateLateWithdrawalAttempt, .reloads, .releases refusedPrompt true,
      .computes noteLate, .puts]
    (fun world => decide (world.store.preparedWithdrawal.bind PreparedWithdrawal.submissionId =
      some "prompt" ∧ ¬ ∀ write ∈ world.writes, write.IsFresh)) (by decide)
  exact ⟨world, run, of_decide_eq_true restored⟩

end Writes

end ZkApi.Browser.Writes
