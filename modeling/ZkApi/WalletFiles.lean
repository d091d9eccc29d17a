import ZkApi.ClientTypes

/-!
# The files of the wallet

The state directory of a wallet: the state of its note, the journal of a
pending request, the prepared withdrawal, and the notes that were archived or
retired.  Every operation on it may fail half-way.
-/

namespace ZkApi.Clientd

/-- A directory of a retired note; a retirement that failed leaves it empty. -/
structure RetiredDir where
  noteId : UInt32
  suffix : Nat
  noteState : Option NoteState
deriving DecidableEq

/-- The files of the wallet.  An archived note is kept under its note id. -/
structure StateDir where
  noteState : Option NoteState
  pendingJournal : Option PendingRequestJournal
  preparedWithdrawal : Option WithdrawalPlan
  archive : List NoteState
  retired : List RetiredDir
deriving DecidableEq

def StateDir.walletStatus (files : StateDir) : WalletStatus :=
  ⟨files.noteState.isSome, files.pendingJournal.isSome, files.noteState⟩

/-- The first suffix that no directory of the note has. -/
def nextRetiredSuffix (retired : List RetiredDir) (noteId : UInt32) : Nat :=
  let taken (suffix : Nat) : Bool :=
    retired.any fun dir => dir.noteId == noteId && dir.suffix == suffix
  ((List.range' 1 (retired.length + 1)).find? fun suffix => !taken suffix).getD 0

/-- Put a note state into a directory, in the place of what it holds. -/
def writeRetired (retired : List RetiredDir) (dir : RetiredDir) : List RetiredDir :=
  dir :: retired.filter fun other => !(other.noteId == dir.noteId && other.suffix == dir.suffix)

/-- Put a note state into the archive, in the place of one with its id. -/
def writeArchive (archive : List NoteState) (state : NoteState) : List NoteState :=
  state :: archive.filter fun other => other.noteId != state.noteId

/-- Which of the fallible steps of a reset succeed, and how it ends. -/
structure ResetOutcome where
  loads : Bool
  archives : Bool
  removesState : Bool
  removesJournal : Bool
  removesPrepared : Bool
  reloads : Except AuthError Unit
deriving DecidableEq

def archiveNote (outcome : ResetOutcome) (files : StateDir) : StateDir :=
  match files.noteState with
  | none => files
  | some state =>
      if outcome.loads && outcome.archives then
        { files with noteState := none, archive := writeArchive files.archive state }
      else if outcome.removesState then { files with noteState := none }
      else files

/-- Everything that a reset does to the files: the state goes to the archive if
that works and is removed otherwise, and the journal and the plan are removed. -/
def resetFiles (outcome : ResetOutcome) (files : StateDir) :
    Except AuthError WalletStatus × StateDir :=
  let archived := archiveNote outcome files
  let reset := { archived with
    pendingJournal := if outcome.removesJournal then none else archived.pendingJournal
    preparedWithdrawal :=
      if outcome.removesPrepared then none else archived.preparedWithdrawal }
  (outcome.reloads.map fun _ => reset.walletStatus, reset)

/-- How far a retirement gets. -/
inductive RetireOutcome where
  | moves
  | leavesDir (error : AuthError)
deriving DecidableEq

def proofBound (config : AuthConfig) : Nat :=
  if config.policyEnabled then config.policyChargeCap else config.requestChargeCap

def retireNote (config : AuthConfig) (outcome : RetireOutcome) (files : StateDir) :
    Except AuthError (Option RetiredNote) × StateDir :=
  match files.noteState with
  | none => (.ok none, files)
  | some state =>
      if proofBound config < state.currentBalance then (.ok none, files)
      else if files.pendingJournal.isSome then (.error .pendingRequest, files)
      else
        let suffix := nextRetiredSuffix files.retired state.noteId
        match outcome with
        | .leavesDir error =>
            (.error error, { files with
              retired := writeRetired files.retired ⟨state.noteId, suffix, none⟩ })
        | .moves =>
            (.ok (some ⟨state.noteId, state.currentBalance⟩), { files with
              noteState := none
              retired := writeRetired files.retired ⟨state.noteId, suffix, some state⟩ })

/-- A request that is pending already is used again, if it is one for a lease. -/
def pendingLease (W : WalletFunctions) (journal : PendingRequestJournal) :
    Except AuthError ApiRequestV2 :=
  match journal.preparedRequest with
  | none => .error (.leasePending "an older pending request has no retryable request body")
  | some request =>
      if request.payload = W.leaseAuthorization then .ok request
      else .error (.leasePending "a non-lease zkAPI request is still pending")

end ZkApi.Clientd
