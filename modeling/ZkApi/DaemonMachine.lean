import ZkApi.DaemonHandlers
import ZkApi.TaskDiscipline

/-!
# The client daemon as a machine of interleaved tasks

Any number of local callers use the routes of one daemon at once.  The server,
the verifier and the inference endpoint answer whatever they like; files,
loads and calls may fail at any step.  Time passes, the vault moves its notes,
callers go away, and the daemon stops and starts again from its files.  A caller
goes away between two operations, and a call that blocks is one operation.
-/

namespace ZkApi.Clientd

open Interleaving

/-- How the last exchange of a request with the server ends. -/
inductive FlowEnd where
  | refused (error : AuthError)
  | interrupted (error : AuthError) (journal : Option PendingRequestJournal)
  | answered (next : NoteState) (response : CoreResponse)
deriving DecidableEq

section Vault

/-- The escape that a note is pending for, and those that were challenged. -/
structure VaultNote where
  status : UInt64
  escape : Option WithdrawalPlan
  challengeDeadline : UInt64
  challenged : List WithdrawalPlan
deriving DecidableEq

def VaultNote.uninitialized : VaultNote :=
  ⟨0, none, 0, []⟩

inductive VaultChange where
  | deposited (noteId : UInt32)
  | mutualClose (plan : WithdrawalPlan)
  | escapeInitiated (plan : WithdrawalPlan) (challengeDeadline : UInt64)
  | escapeChallenged (noteId : UInt32)
  | escapeFinalized (noteId : UInt32)
  | expiredClaimed (noteId : UInt32)
deriving DecidableEq

def VaultChange.noteId : VaultChange → UInt32
  | .deposited noteId => noteId
  | .mutualClose plan => plan.publicInputs.noteId
  | .escapeInitiated plan _ => plan.publicInputs.noteId
  | .escapeChallenged noteId => noteId
  | .escapeFinalized noteId => noteId
  | .expiredClaimed noteId => noteId

/-- What a change makes of its note: it becomes active once, closes from being
active or after an escape, and is active again after a challenge. -/
def VaultNote.after (note : VaultNote) : VaultChange → Option VaultNote
  | .deposited _ => if note.status = 0 then some { note with status := 1 } else none
  | .mutualClose plan =>
      if note.status = 1 ∧ plan.mode = .mutual then some { note with status := 3 } else none
  | .escapeInitiated plan challengeDeadline =>
      if note.status = 1 ∧ plan.mode = .escape then
        some { note with
          status := 2, escape := some plan, challengeDeadline := challengeDeadline }
      else none
  | .escapeChallenged _ =>
      match note.escape with
      | some plan =>
          if note.status = 2 then
            some { note with
              status := 1, escape := none, challenged := plan :: note.challenged }
          else none
      | none => none
  | .escapeFinalized _ => if note.status = 2 then some { note with status := 3 } else none
  | .expiredClaimed _ => if note.status = 1 then some { note with status := 3 } else none

abbrev Vault := UInt32 → VaultNote

def Vault.after (vault : Vault) (change : VaultChange) : Option Vault :=
  ((vault change.noteId).after change).map (Function.update vault change.noteId)

/-- The change that submitting a plan asks for. -/
def submission (plan : WithdrawalPlan) (challengeDeadline : UInt64) : VaultChange :=
  match plan.mode with
  | .mutual => .mutualClose plan
  | .escape => .escapeInitiated plan challengeDeadline

end Vault

/-- The daemon and its surroundings.  `cleared` lists the nullifiers for which
the server has reserved a clearance, `usedIds` the request ids of all proofs. -/
structure World where
  config : AuthConfig
  files : StateDir
  prepared : Option WithdrawalPlan
  preparedOwner : Option Nat
  slot : Option ActiveOpenRouterLease
  slotOwner : Option Nat
  readers : List Nat
  writer : Option Nat
  now : UInt64
  vault : Vault
  cleared : List Felt252
  usedIds : List String

/-- What the environment chooses when a step asks it. -/
inductive Answer where
  | plain
  | fails (error : AuthError)
  | responds (op : Op) (response : Resp op)
  | recovers (next : NoteState)
  | retires (outcome : RetireOutcome)
  | resets (outcome : ResetOutcome)
  | flows (recovered : Option NoteState) (stale : Bool) (last : FlowEnd)
  | prepares (request : ApiRequestV2)
  | withdraws (plan : WithdrawalPlan)
  | losesClearance (error : AuthError)
  | submits (challengeDeadline : UInt64)

section Execution

variable (W : WalletFunctions)

def World.nullifier (world : World) : Option Felt252 :=
  world.files.noteState.map W.stateNullifier

/-- The next state of a note: the same note, with a nullifier for which no
clearance was reserved. -/
def World.Succeeds (world : World) (state next : NoteState) : Prop :=
  next.noteId = state.noteId ∧ next.secret = state.secret ∧
    W.stateNullifier next ∉ world.cleared

instance (world : World) (state next : NoteState) : Decidable (world.Succeeds W state next) := by
  unfold World.Succeeds
  infer_instance

/-- Install the next state of the note, which ends its pending request. -/
def World.install (world : World) (next : NoteState) : World :=
  { world with files := { world.files with noteState := some next, pendingJournal := none } }

/-- Install a state, if there is one to install and a request to end with it. -/
def World.recoverNote (world : World) : Option NoteState → Option World
  | none => some world
  | some next =>
      match world.files.noteState, world.files.pendingJournal with
      | some state, some _ =>
          if world.Succeeds W state next then some (world.install next) else none
      | _, _ => none

/-- The wallet part of a proxied request: recovery, and one exchange with the
server or two. -/
def World.runFlow (world : World) (recovered : Option NoteState) (stale : Bool)
    (last : FlowEnd) : Option (FlowReply × World) := do
  let world ← world.recoverNote W recovered
  match world.files.noteState with
  | none => some (⟨[], .error .noActiveNote⟩, world)
  | some state =>
      let repeated := if stale then [W.stateNullifier state] else []
      let sent := W.stateNullifier state :: repeated
      let keep (journal : Option PendingRequestJournal) : World :=
        { world with files := { world.files with pendingJournal := journal } }
      match last with
      | .refused error =>
          some (⟨repeated, .error error⟩,
            if stale then keep none else world)
      | .interrupted error journal =>
          if journal.all fun journal => journal.noteId == state.noteId then
            some (⟨sent, .error error⟩, keep journal)
          else none
      | .answered next response =>
          if world.Succeeds W state next then
            some (⟨sent, .ok response⟩, world.install next)
          else none

/-- Asking for the proof of a lease: the pending one, or a new one. -/
def World.prepareLease (world : World) (answer : Answer) :
    Option (Except AuthError ApiRequestV2 × World) :=
  match world.files.pendingJournal, world.files.noteState, answer with
  | _, _, .fails error => some (.error error, world)
  | some journal, _, .plain => some (pendingLease W journal, world)
  | none, none, .plain => some (.error .noActiveNote, world)
  | none, some state, .prepares request =>
      if request.payload = W.leaseAuthorization ∧ request.nullifier = W.stateNullifier state ∧
          request.clientRequestId ∉ world.usedIds then
        some (.ok request, { world with
          files := { world.files with
            pendingJournal := some
              ⟨request.clientRequestId, request.nullifier, state.noteId, some request⟩ }
          usedIds := request.clientRequestId :: world.usedIds })
      else none
  | _, _, _ => none

/-- The nullifier that a clearance for this mode reserves. -/
def reservation (mode : WithdrawalMode) (nullifier : Felt252) : Option Felt252 :=
  match mode with
  | .mutual => some nullifier
  | .escape => none

/-- Remember the nullifier of a clearance that the server has reserved. -/
def World.reserveClearance (world : World) (reserved : Option Felt252) : World :=
  { world with cleared := reserved.toList ++ world.cleared }

/-- A withdrawal proof of the current state. -/
def World.withdraw (world : World) (mode : WithdrawalMode) (destination : Address)
    (answer : Answer) : Option (WithdrawReply × World) :=
  match world.files.noteState, answer with
  | _, .fails error => some (⟨none, .error error⟩, world)
  | none, .plain => some (⟨none, .error .noActiveNote⟩, world)
  | some state, .withdraws plan =>
      let reserved := reservation mode (W.stateNullifier state)
      if plan.mode = mode ∧ plan.publicInputs.noteId = state.noteId ∧
          plan.publicInputs.destination = destination ∧
          plan.publicInputs.withdrawalNullifier = W.stateNullifier state then
        some (⟨reserved, .ok plan⟩, world.reserveClearance reserved)
      else none
  | some state, .losesClearance error =>
      let reserved := reservation mode (W.stateNullifier state)
      some (⟨reserved, .error error⟩, world.reserveClearance reserved)
  | _, _ => none

def World.confirmDeposit (world : World) (request : ConfirmDepositRequest) :
    Except AuthError WalletStatus × World :=
  match W.confirmDeposit world.files.noteState request with
  | .error error => (.error error, world)
  | .ok state =>
      let files := { world.files with noteState := some state }
      (.ok files.walletStatus, { world with files := files })

/-- A transaction of the command line that goes through; one that it loses track
of fails here, and the vault may change on its own. -/
def World.submit (world : World) (change : VaultChange) (dryRun : Bool) :
    Option (Except AuthError Unit × World) :=
  if dryRun then some (.ok (), world)
  else (world.vault.after change).map fun vault => (.ok (), { world with vault := vault })

/-- Leave the request lock, held for reading or for writing. -/
def World.releaseRequest (world : World) (task : Nat) : World :=
  { world with
    readers := world.readers.filter fun reader => reader != task
    writer := world.writer.filter fun writer => writer != task }

/-- Empty the slot if it holds the lease of this request. -/
def World.dropSlot (world : World) (clientRequestId : String) : World :=
  { world with
    slot := world.slot.filter fun lease => lease.clientRequestId != clientRequestId }

/-- The steps that take and leave locks, and what is read and written under
them. -/
def executeLocked (task : Nat) (op : Op) (world : World) : Option (Resp op × World) :=
  match op with
  | .readPrepared =>
      if world.preparedOwner = none then some (world.prepared, world) else none
  | .lockPrepared =>
      if world.preparedOwner = none then
        some (world.prepared, { world with preparedOwner := some task })
      else none
  | .setPrepared plan =>
      if world.preparedOwner = some task then some ((), { world with prepared := plan })
      else none
  | .unlockPrepared =>
      if world.preparedOwner = some task then some ((), { world with preparedOwner := none })
      else none
  | .clearPrepared =>
      if world.preparedOwner = none then
        some (world.prepared, { world with prepared := none })
      else none
  | .readSlot => if world.slotOwner = none then some (world.slot, world) else none
  | .lockSlot =>
      if world.slotOwner = none then some (world.slot, { world with slotOwner := some task })
      else none
  | .setSlot lease =>
      if world.slotOwner = some task then some ((), { world with slot := lease }) else none
  | .unlockSlot =>
      if world.slotOwner = some task then some ((), { world with slotOwner := none }) else none
  | .takeSlot =>
      if world.slotOwner = none then some (world.slot, { world with slot := none }) else none
  | .clearSlot =>
      if world.slotOwner = none then some ((), { world with slot := none }) else none
  | .dropSlot clientRequestId =>
      if world.slotOwner = none then some ((), world.dropSlot clientRequestId) else none
  | .readRequest =>
      if world.writer = none then some ((), { world with readers := task :: world.readers })
      else none
  | .writeRequest =>
      if world.writer = none ∧ world.readers = [] then
        some ((), { world with writer := some task })
      else none
  | .tryWriteRequest =>
      if world.writer = none ∧ world.readers = [] then
        some (true, { world with writer := some task })
      else some (false, world)
  | .releaseRequest => some ((), world.releaseRequest task)
  | .now => some (world.now, world)
  | _ => none

/-- The exchanges with the outside that the outside answers as it likes. -/
def Op.isRemote : Op → Bool
  | .ensureSchemeAgreement | .postLease _ | .leaseStatus _ | .requestRecovery _
  | .nullifierRecovery _ | .retireLease _ _ | .submitKey _ _ _ | .postPrompt _ _ _
  | .readBody | .withinDeadline => true
  | _ => false

def executeRemote (op : Op) (answer : Answer) (world : World) : Option (Resp op × World) :=
  match answer with
  | .responds other response =>
      if same : other = op then
        if op.isRemote then some (same ▸ response, world) else none
      else none
  | _ => none

/-- A step that is done as a whole or fails without an effect. -/
def fallible {α : Type} (answer : Answer) (world : World) (done : Except AuthError α × World) :
    Option (Except AuthError α × World) :=
  match answer with
  | .plain => some done
  | .fails error => some (.error error, world)
  | _ => none

def execute (task : Nat) (op : Op) (answer : Answer) (world : World) :
    Option (Resp op × World) :=
  match op with
  | .status => fallible answer world (.ok world.files.walletStatus, world)
  | .retireLowBalanceNote =>
      match answer with
      | .retires outcome =>
          let (result, files) := retireNote world.config outcome world.files
          some (result, { world with files := files })
      | .fails error => some (.error error, world)
      | _ => none
  | .confirmDeposit request =>
      (fallible answer world (world.confirmDeposit W request)).map
        fun (result, after) => (⟨world.files.noteState, result⟩, after)
  | .recover =>
      match answer with
      | .recovers next =>
          (world.recoverNote W (some next)).map fun after =>
            (.ok ⟨true, after.files.walletStatus⟩, after)
      | answer => fallible answer world (.ok ⟨false, world.files.walletStatus⟩, world)
  | .resetFiles =>
      match answer with
      | .resets outcome =>
          let (result, files) := resetFiles outcome world.files
          some (⟨some outcome, world.files, files, result⟩, { world with files := files })
      | .fails error => some (⟨none, world.files, world.files, .error error⟩, world)
      | _ => none
  | .requestFlow _ =>
      match answer with
      | .flows recovered stale last => world.runFlow W recovered stale last
      | .fails error => some (⟨[], .error error⟩, world)
      | _ => none
  | .prepareLease => world.prepareLease W answer
  | .clearPendingRequest =>
      fallible answer world
        (.ok (), { world with files := { world.files with pendingJournal := none } })
  | .withdraw mode destination => world.withdraw W mode destination answer
  | .persistPrepared plan =>
      fallible answer world
        (.ok (), { world with files := { world.files with preparedWithdrawal := some plan } })
  | .removePrepared =>
      fallible answer world
        (.ok (), { world with files := { world.files with preparedWithdrawal := none } })
  | .vaultNotes noteId => fallible answer world (.ok (world.vault noteId).status, world)
  | .vaultPending noteId =>
      fallible answer world
        (if (world.vault noteId).status = 2 then .ok (world.vault noteId).challengeDeadline
          else .error (.wallet "vault pending-withdrawal record is missing"), world)
  | .submitWithdrawal plan dryRun =>
      match answer with
      | .submits challengeDeadline =>
          world.submit (submission plan challengeDeadline) dryRun
      | .fails error => some (.error error, world)
      | _ => none
  | .finalizeEscape noteId dryRun =>
      match answer with
      | .submits _ => world.submit (.escapeFinalized noteId) dryRun
      | .fails error => some (.error error, world)
      | _ => none
  | .readNoteStatus noteId => fallible answer world (.ok (world.vault noteId).status, world)
  | .awaitNoteStatus noteId expected =>
      match answer with
      | .plain => if (world.vault noteId).status = expected then some (.ok (), world) else none
      | .fails error => some (.error error, world)
      | _ => none
  | op =>
      match answer with
      | .plain => executeLocked task op world
      | answer => executeRemote op answer world

end Execution

inductive Call where
  | status
  | retireLowBalanceNote
  | confirmDeposit (request : ConfirmDepositRequest)
  | recover
  | settleForWithdrawal
  | resetWallet
  | executeRequest (request : CoreRequest) (sessionId : Option String)
  | executeStreamingRequest (request : CoreRequest) (sessionId : Option String)
  | requestSubmit (request : CoreRequest)
  | createWithdrawal (mode : WithdrawalMode) (destination : Address)
  | confirmWithdrawal
  | reconcileDirectOpenrouter
  | runManagedWithdrawal (mode : WithdrawalMode) (destination : Address) (dryRun : Bool)
  | finalizeEscapeWithdrawal (noteId : Option UInt32) (dryRun : Bool)
deriving DecidableEq

@[reducible]
def Result : Call → Type
  | .status => WalletStatus
  | .retireLowBalanceNote => Option RetiredNote
  | .confirmDeposit _ => WalletStatus
  | .recover => RecoverResult
  | .settleForWithdrawal => WalletStatus
  | .resetWallet => WalletStatus
  | .executeRequest _ _ => CoreResponse
  | .executeStreamingRequest _ _ => UInt16
  | .requestSubmit _ => CoreResponse
  | .createWithdrawal _ _ => WithdrawalPlan
  | .confirmWithdrawal => WithdrawalChainStatus
  | .reconcileDirectOpenrouter => Unit
  | .runManagedWithdrawal _ _ _ => Unit
  | .finalizeEscapeWithdrawal _ _ => Unit

def handler (W : WalletFunctions) (config : AuthConfig) : (call : Call) → Handler (Result call)
  | .status => status
  | .retireLowBalanceNote => retireLowBalanceNote
  | .confirmDeposit request => confirmDeposit request
  | .recover => recover
  | .settleForWithdrawal => settleForWithdrawal config
  | .resetWallet => resetWallet
  | .executeRequest request sessionId => executeRequestInSession W config request sessionId
  | .executeStreamingRequest request sessionId =>
      executeStreamingRequestInSession W config request sessionId
  | .requestSubmit request => executeRequestDemo request
  | .createWithdrawal mode destination => createWithdrawal config mode destination
  | .confirmWithdrawal => confirmWithdrawal
  | .reconcileDirectOpenrouter => reconcileDirectOpenrouter config
  | .runManagedWithdrawal mode destination dryRun =>
      runManagedWithdrawal config mode destination dryRun
  | .finalizeEscapeWithdrawal noteId dryRun => finalizeEscapeWithdrawal noteId dryRun

inductive Move where
  | tick (now : UInt64)
  | vault (change : VaultChange)
deriving DecidableEq

def move (world : World) : Move → Option World
  | .tick now => if world.now ≤ now then some { world with now := now } else none
  | .vault change => (world.vault.after change).map fun vault => { world with vault := vault }

/-- A task that ends, or whose caller goes away, leaves all its locks. -/
def release (task : Nat) (world : World) : World :=
  { world with
    preparedOwner := world.preparedOwner.filter fun owner => owner != task
    slotOwner := world.slotOwner.filter fun owner => owner != task
    readers := world.readers.filter fun reader => reader != task
    writer := world.writer.filter fun writer => writer != task }

/-- The daemon starts again with the plan that its file holds. -/
def restart (world : World) : World :=
  { world with
    prepared := world.files.preparedWithdrawal
    preparedOwner := none
    slot := none
    slotOwner := none
    readers := []
    writer := none }

@[reducible]
def daemon (W : WalletFunctions) : Machine where
  Op := Op
  Resp := Resp
  Err := AuthError
  Setting := AuthConfig
  Call := Call
  Result := Result
  World := World
  Answer := Answer
  Environment := Move
  Restart := Unit
  setting := World.config
  program := handler W
  execute := execute W
  finish := release
  environment change world := move world change
  restart _ world := some (restart world)

section Equality

instance : (op : Op) → DecidableEq (Resp op)
  | .readPrepared | .lockPrepared | .clearPrepared =>
      inferInstanceAs (DecidableEq (Option WithdrawalPlan))
  | .setPrepared _ | .unlockPrepared | .setSlot _ | .unlockSlot | .clearSlot | .dropSlot _
  | .readRequest | .writeRequest | .releaseRequest => inferInstanceAs (DecidableEq Unit)
  | .persistPrepared _ | .removePrepared | .clearPendingRequest | .ensureSchemeAgreement
  | .submitWithdrawal _ _ | .finalizeEscape _ _ | .awaitNoteStatus _ _ =>
      inferInstanceAs (DecidableEq (Except AuthError Unit))
  | .readSlot | .lockSlot | .takeSlot =>
      inferInstanceAs (DecidableEq (Option ActiveOpenRouterLease))
  | .tryWriteRequest | .withinDeadline => inferInstanceAs (DecidableEq Bool)
  | .status => inferInstanceAs (DecidableEq (Except AuthError WalletStatus))
  | .confirmDeposit _ => inferInstanceAs (DecidableEq DepositReply)
  | .retireLowBalanceNote =>
      inferInstanceAs (DecidableEq (Except AuthError (Option RetiredNote)))
  | .recover => inferInstanceAs (DecidableEq (Except AuthError RecoverResult))
  | .resetFiles => inferInstanceAs (DecidableEq ResetReply)
  | .requestFlow _ => inferInstanceAs (DecidableEq FlowReply)
  | .prepareLease => inferInstanceAs (DecidableEq (Except AuthError ApiRequestV2))
  | .withdraw _ _ => inferInstanceAs (DecidableEq WithdrawReply)
  | .postLease _ => inferInstanceAs (DecidableEq (Reply IssuedOpenRouterLease))
  | .leaseStatus _ => inferInstanceAs (DecidableEq (GetReply OpenRouterLeaseStatusResponse))
  | .requestRecovery _ | .nullifierRecovery _ =>
      inferInstanceAs (DecidableEq (GetReply RecoveryResponseV2))
  | .retireLease _ _ => inferInstanceAs (DecidableEq (Reply OpenRouterLeaseStatusResponse))
  | .submitKey _ _ _ => inferInstanceAs (DecidableEq VerifierReply)
  | .postPrompt _ _ _ => inferInstanceAs (DecidableEq UpstreamReply)
  | .readBody => inferInstanceAs (DecidableEq (Except String String))
  | .now => inferInstanceAs (DecidableEq UInt64)
  | .vaultNotes _ | .vaultPending _ | .readNoteStatus _ =>
      inferInstanceAs (DecidableEq (Except AuthError UInt64))

instance : (call : Call) → DecidableEq (Result call)
  | .status | .confirmDeposit _ | .settleForWithdrawal | .resetWallet =>
      inferInstanceAs (DecidableEq WalletStatus)
  | .retireLowBalanceNote => inferInstanceAs (DecidableEq (Option RetiredNote))
  | .recover => inferInstanceAs (DecidableEq RecoverResult)
  | .executeRequest _ _ | .requestSubmit _ => inferInstanceAs (DecidableEq CoreResponse)
  | .executeStreamingRequest _ _ => inferInstanceAs (DecidableEq UInt16)
  | .createWithdrawal _ _ => inferInstanceAs (DecidableEq WithdrawalPlan)
  | .confirmWithdrawal => inferInstanceAs (DecidableEq WithdrawalChainStatus)
  | .reconcileDirectOpenrouter | .runManagedWithdrawal _ _ _ | .finalizeEscapeWithdrawal _ _ =>
      inferInstanceAs (DecidableEq Unit)

instance (W : WalletFunctions) : DecidableEq (Event (daemon W)) :=
  instDecidableEqEvent

end Equality

/-- A daemon that has just been started on these files. -/
def World.started (config : AuthConfig) (files : StateDir) (now : UInt64) (vault : Vault) :
    World where
  config := config
  files := files
  prepared := files.preparedWithdrawal
  preparedOwner := none
  slot := none
  slotOwner := none
  readers := []
  writer := none
  now := now
  vault := vault
  cleared := []
  usedIds := []

end ZkApi.Clientd
