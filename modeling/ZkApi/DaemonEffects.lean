import ZkApi.DaemonMachine

/-!
# What the steps of the daemon change

A step on a lock changes only what the locks guard, a wallet operation only the
files and what is remembered about them, a transaction only the vault, and
every other step nothing.
-/

namespace ZkApi.Clientd

open Interleaving

/-- The steps on locks and on what they guard, and the clock. -/
def Op.isLocked : Op → Bool
  | .readPrepared | .lockPrepared | .setPrepared _ | .unlockPrepared | .clearPrepared
  | .readSlot | .lockSlot | .setSlot _ | .unlockSlot | .takeSlot | .clearSlot | .dropSlot _
  | .readRequest | .writeRequest | .tryWriteRequest | .releaseRequest | .now => true
  | _ => false

/-- The operations of the wallet and on its files. -/
def Op.isWallet : Op → Bool
  | .status | .retireLowBalanceNote | .confirmDeposit _ | .recover | .resetFiles
  | .requestFlow _ | .prepareLease | .clearPendingRequest | .withdraw _ _
  | .persistPrepared _ | .removePrepared => true
  | _ => false

/-- The reads of the vault and the transactions on it. -/
def Op.isChain : Op → Bool
  | .vaultNotes _ | .vaultPending _ | .submitWithdrawal _ _ | .finalizeEscape _ _
  | .readNoteStatus _ | .awaitNoteStatus _ _ => true
  | _ => false

theorem Op.kinds (op : Op) :
    op.isLocked = true ∨ op.isWallet = true ∨ op.isChain = true ∨ op.isRemote = true := by
  cases op <;> simp [isLocked, isWallet, isChain, isRemote]

variable {W : WalletFunctions} {task : Nat} {op : Op} {answer : Answer} {world after : World}
  {response : Resp op}

theorem fallible_cases {α : Type} {done : Except AuthError α × World}
    {response : Except AuthError α} (executed : fallible answer world done =
      some (response, after)) :
    (response, after) = done ∨ (∃ error, response = .error error) ∧ after = world := by
  unfold fallible at executed
  split at executed
  · exact Or.inl (Option.some.inj executed).symm
  · cases executed
    exact Or.inr ⟨⟨_, rfl⟩, rfl⟩
  · cases executed

theorem executeRemote_world (executed : executeRemote op answer world = some (response, after)) :
    op.isRemote = true ∧ after = world := by
  unfold executeRemote at executed
  split at executed
  · split at executed
    · split at executed
      · rename_i remote
        cases executed
        exact ⟨remote, rfl⟩
      · cases executed
    · cases executed
  · cases executed

theorem execute_eq (locked : op.isLocked = true ∨ op.isRemote = true) :
    execute W task op answer world =
      match answer with
      | .plain => executeLocked task op world
      | answer => executeRemote op answer world := by
  cases op <;> first
    | rfl
    | (rcases locked with locked | locked <;> exact absurd locked Bool.false_ne_true)

theorem isRemote_of_isLocked (locked : op.isLocked = true) : op.isRemote = false := by
  cases op <;> first
    | rfl
    | exact absurd locked Bool.false_ne_true

theorem executeLocked_of_isRemote (remote : op.isRemote = true) :
    executeLocked task op world = none := by
  cases op <;> first
    | rfl
    | exact absurd remote Bool.false_ne_true

theorem execute_of_isLocked (locked : op.isLocked = true)
    (executed : execute W task op answer world = some (response, after)) :
    executeLocked task op world = some (response, after) := by
  rw [execute_eq (Or.inl locked)] at executed
  split at executed
  · exact executed
  · have remote := (executeRemote_world executed).1
    rw [isRemote_of_isLocked locked] at remote
    cases remote

theorem execute_of_isRemote (remote : op.isRemote = true)
    (executed : execute W task op answer world = some (response, after)) : after = world := by
  rw [execute_eq (Or.inr remote)] at executed
  split at executed
  · rw [executeLocked_of_isRemote remote] at executed
    cases executed
  · exact (executeRemote_world executed).2

section Locks

/-- The locks and what they guard, in memory only. -/
def World.withLocks (world locked : World) : World :=
  { world with
    prepared := locked.prepared
    preparedOwner := locked.preparedOwner
    slot := locked.slot
    slotOwner := locked.slotOwner
    readers := locked.readers
    writer := locked.writer }

theorem executeLocked_shape (executed : executeLocked task op world = some (response, after)) :
    after = world.withLocks after := by
  cases op <;> first
    | (cases executed <;> rfl)
    | (obtain ⟨_, same⟩ := Option.ite_none_right_eq_some.mp executed
       cases Option.some.inj same
       rfl)
    | (unfold executeLocked at executed
       dsimp only at executed
       split at executed <;> cases executed <;> rfl)

/-- A step leaves the plan in memory alone, unless it sets or clears it. -/
theorem executeLocked_prepared
    (executed : executeLocked task op world = some (response, after))
    (others : ∀ plan, op ≠ .setPrepared plan) (clears : op ≠ .clearPrepared) :
    after.prepared = world.prepared := by
  cases op <;> first
    | exact absurd rfl (others _)
    | exact absurd rfl clears
    | (cases executed <;> rfl)
    | (obtain ⟨_, same⟩ := Option.ite_none_right_eq_some.mp executed
       cases Option.some.inj same
       rfl)
    | (unfold executeLocked at executed
       dsimp only at executed
       split at executed <;> cases executed <;> rfl)

/-- A step leaves the owner of the plan alone, unless it locks or unlocks it. -/
theorem executeLocked_preparedOwner
    (executed : executeLocked task op world = some (response, after))
    (locks : op ≠ .lockPrepared) (unlocks : op ≠ .unlockPrepared) :
    after.preparedOwner = world.preparedOwner := by
  cases op <;> first
    | exact absurd rfl locks
    | exact absurd rfl unlocks
    | (cases executed <;> rfl)
    | (obtain ⟨_, same⟩ := Option.ite_none_right_eq_some.mp executed
       cases Option.some.inj same
       rfl)
    | (unfold executeLocked at executed
       dsimp only at executed
       split at executed <;> cases executed <;> rfl)

end Locks

section Wallet

/-- The files, and what is remembered about proofs and clearances. -/
def World.withFiles (world filed : World) : World :=
  { world with files := filed.files, cleared := filed.cleared, usedIds := filed.usedIds }

theorem recoverNote_shape {next : Option NoteState}
    (recovered : world.recoverNote W next = some after) : after = world.withFiles after := by
  unfold World.recoverNote at recovered
  split at recovered
  · cases recovered
    rfl
  · split at recovered
    · obtain ⟨_, same⟩ := Option.ite_none_right_eq_some.mp recovered
      cases Option.some.inj same
      rfl
    · cases recovered

theorem withFiles_trans {middle : World} (first : middle = world.withFiles middle)
    (second : after = middle.withFiles after) : after = world.withFiles after := by
  rw [first] at second
  exact second

theorem runFlow_shape {recovered : Option NoteState} {stale : Bool} {last : FlowEnd}
    {reply : FlowReply} (ran : world.runFlow W recovered stale last = some (reply, after)) :
    after = world.withFiles after := by
  obtain ⟨middle, recovers, ran⟩ := Option.bind_eq_some_iff.mp ran
  apply withFiles_trans (recoverNote_shape recovers)
  dsimp only at ran
  split at ran
  · cases ran
    rfl
  · split at ran
    · split at ran <;> cases ran <;> rfl
    · split at ran <;> cases ran
      rfl
    · split at ran <;> cases ran
      rfl

theorem prepareLease_shape {reply : Except AuthError ApiRequestV2}
    (prepared : world.prepareLease W answer = some (reply, after)) :
    after = world.withFiles after := by
  unfold World.prepareLease at prepared
  split at prepared
  · cases prepared
    rfl
  · cases prepared
    rfl
  · cases prepared
    rfl
  · split at prepared <;> cases prepared
    rfl
  · cases prepared

theorem withdraw_shape {mode : WithdrawalMode} {destination : Address} {reply : WithdrawReply}
    (withdrawn : world.withdraw W mode destination answer = some (reply, after)) :
    after = { world with cleared := reply.reserved.toList ++ world.cleared } := by
  unfold World.withdraw at withdrawn
  split at withdrawn
  · cases withdrawn
    rfl
  · cases withdrawn
    rfl
  · dsimp only at withdrawn
    split at withdrawn <;> cases withdrawn
    rfl
  · cases withdrawn
    rfl
  · cases withdrawn

theorem fallible_shape {α : Type} {done : Except AuthError α × World}
    {response : Except AuthError α} (shape : done.2 = world.withFiles done.2)
    (executed : fallible answer world done = some (response, after)) :
    after = world.withFiles after := by
  rcases fallible_cases executed with same | ⟨_, rfl⟩
  · rw [← same] at shape
    exact shape
  · rfl

/-- A deposit changes the note of the wallet, or nothing. -/
theorem execute_deposit {request : ConfirmDepositRequest} {response : DepositReply}
    (executed : execute W task (.confirmDeposit request) answer world = some (response, after)) :
    response.before = world.files.noteState ∧
      (after = world ∧ (∃ error, response.result = .error error) ∨ ∃ state,
        W.confirmDeposit world.files.noteState request = .ok state ∧
        after = { world with files := { world.files with noteState := some state } } ∧
        response.result = .ok after.files.walletStatus) := by
  obtain ⟨⟨result, middle⟩, done, same⟩ := Option.map_eq_some_iff.mp executed
  cases same
  refine ⟨rfl, ?_⟩
  rcases fallible_cases done with same | ⟨⟨error, rfl⟩, rfl⟩
  · unfold World.confirmDeposit at same
    split at same
    · cases same
      exact Or.inl ⟨rfl, _, rfl⟩
    · rename_i state confirmed
      cases same
      exact Or.inr ⟨state, confirmed, rfl, rfl⟩
  · exact Or.inl ⟨rfl, _, rfl⟩

/-- A wallet operation changes only files and what is remembered about them. -/
theorem execute_wallet_shape (wallet : op.isWallet = true)
    (executed : execute W task op answer world = some (response, after)) :
    after = world.withFiles after := by
  cases op with
  | status => exact fallible_shape rfl executed
  | retireLowBalanceNote => cases answer <;> cases executed <;> rfl
  | confirmDeposit request =>
      obtain ⟨-, ⟨rfl, -⟩ | ⟨state, -, rfl, -⟩⟩ := execute_deposit executed <;> rfl
  | recover =>
      cases answer with
      | recovers next =>
          obtain ⟨middle, recovered, same⟩ := Option.map_eq_some_iff.mp executed
          cases same
          exact recoverNote_shape recovered
      | plain | fails error =>
          cases executed
          rfl
      | _ => cases executed
  | resetFiles => cases answer <;> cases executed <;> rfl
  | requestFlow request =>
      cases answer with
      | flows recovered stale last => exact runFlow_shape executed
      | fails error =>
          cases executed
          rfl
      | _ => cases executed
  | prepareLease => exact prepareLease_shape executed
  | clearPendingRequest | persistPrepared plan | removePrepared =>
      exact fallible_shape rfl executed
  | withdraw mode destination =>
      rw [withdraw_shape executed]
      rfl
  | _ => cases wallet

end Wallet

section Chain

theorem submit_shape {change : VaultChange} {dryRun : Bool} {reply : Except AuthError Unit}
    (submitted : world.submit change dryRun = some (reply, after)) :
    after = world ∨
      ∃ vault, world.vault.after change = some vault ∧ after = { world with vault := vault } := by
  unfold World.submit at submitted
  split at submitted
  · cases submitted
    exact Or.inl rfl
  · obtain ⟨vault, changed, same⟩ := Option.map_eq_some_iff.mp submitted
    cases same
    exact Or.inr ⟨vault, changed, rfl⟩

/-- A step on the chain changes nothing or makes one change of the vault. -/
theorem execute_chain_shape (chain : op.isChain = true)
    (executed : execute W task op answer world = some (response, after)) :
    after = world ∨ ∃ change vault,
      world.vault.after change = some vault ∧ after = { world with vault := vault } := by
  have read : ∀ {α : Type} {done : Except AuthError α × World} {response : Except AuthError α},
      done.2 = world → fallible answer world done = some (response, after) → after = world := by
    intro α done response same executed
    rcases fallible_cases executed with equal | ⟨_, rfl⟩
    · rw [← equal] at same
      exact same
    · rfl
  cases op with
  | vaultNotes noteId => exact Or.inl (read rfl executed)
  | vaultPending noteId => exact Or.inl (read rfl executed)
  | readNoteStatus noteId => exact Or.inl (read rfl executed)
  | awaitNoteStatus noteId expected =>
      cases answer with
      | plain =>
          obtain ⟨_, same⟩ := Option.ite_none_right_eq_some.mp executed
          cases Option.some.inj same
          exact Or.inl rfl
      | fails error =>
          cases executed
          exact Or.inl rfl
      | _ => cases executed
  | submitWithdrawal plan dryRun | finalizeEscape noteId dryRun =>
      cases answer with
      | submits challengeDeadline =>
          rcases submit_shape executed with same | ⟨vault, changed, same⟩
          · exact Or.inl same
          · exact Or.inr ⟨_, vault, changed, same⟩
      | fails error =>
          cases executed
          exact Or.inl rfl
      | _ => cases executed
  | _ => cases chain

end Chain

section Environment

/-- Time passes, or the vault changes. -/
theorem move_shape {change : Move} (moved : move world change = some after) :
    (∃ now, after = { world with now := now }) ∨ ∃ change vault,
      world.vault.after change = some vault ∧ after = { world with vault := vault } := by
  cases change with
  | tick now =>
      obtain ⟨_, same⟩ := Option.ite_none_right_eq_some.mp moved
      exact Or.inl ⟨now, (Option.some.inj same).symm⟩
  | vault change =>
      obtain ⟨vault, changed, same⟩ := Option.map_eq_some_iff.mp moved
      exact Or.inr ⟨change, vault, changed, same.symm⟩

theorem move_config {change : Move} (moved : move world change = some after) :
    after.config = world.config := by
  rcases move_shape moved with ⟨_, rfl⟩ | ⟨_, _, _, rfl⟩ <;> rfl

end Environment

section Frames

theorem execute_config (executed : execute W task op answer world = some (response, after)) :
    after.config = world.config := by
  rcases op.kinds with locked | wallet | chain | remote
  · rw [executeLocked_shape (execute_of_isLocked locked executed)]
    rfl
  · rw [execute_wallet_shape wallet executed]
    rfl
  · rcases execute_chain_shape chain executed with same | ⟨_, vault, _, same⟩ <;> rw [same]
  · rw [execute_of_isRemote remote executed]

/-- Only wallet operations change files. -/
theorem execute_files (executed : execute W task op answer world = some (response, after))
    (other : op.isWallet = false) : after.files = world.files := by
  rcases op.kinds with locked | wallet | chain | remote
  · rw [executeLocked_shape (execute_of_isLocked locked executed)]
    rfl
  · rw [other] at wallet
    cases wallet
  · rcases execute_chain_shape chain executed with same | ⟨_, vault, _, same⟩ <;> rw [same]
  · rw [execute_of_isRemote remote executed]

/-- Only setting and clearing changes the plan in memory. -/
theorem execute_prepared (executed : execute W task op answer world = some (response, after))
    (others : ∀ plan, op ≠ .setPrepared plan) (clears : op ≠ .clearPrepared) :
    after.prepared = world.prepared := by
  rcases op.kinds with locked | wallet | chain | remote
  · exact executeLocked_prepared (execute_of_isLocked locked executed) others clears
  · rw [execute_wallet_shape wallet executed]
    rfl
  · rcases execute_chain_shape chain executed with same | ⟨_, vault, _, same⟩ <;> rw [same]
  · rw [execute_of_isRemote remote executed]

/-- Only locking and unlocking changes who holds the plan. -/
theorem execute_preparedOwner
    (executed : execute W task op answer world = some (response, after))
    (locks : op ≠ .lockPrepared) (unlocks : op ≠ .unlockPrepared) :
    after.preparedOwner = world.preparedOwner := by
  rcases op.kinds with locked | wallet | chain | remote
  · exact executeLocked_preparedOwner (execute_of_isLocked locked executed) locks unlocks
  · rw [execute_wallet_shape wallet executed]
    rfl
  · rcases execute_chain_shape chain executed with same | ⟨_, vault, _, same⟩ <;> rw [same]
  · rw [execute_of_isRemote remote executed]

/-- A step makes at most one change of the vault. -/
theorem execute_vault (executed : execute W task op answer world = some (response, after)) :
    after.vault = world.vault ∨ ∃ change, world.vault.after change = some after.vault := by
  rcases op.kinds with locked | wallet | chain | remote
  · rw [executeLocked_shape (execute_of_isLocked locked executed)]
    exact Or.inl rfl
  · rw [execute_wallet_shape wallet executed]
    exact Or.inl rfl
  · rcases execute_chain_shape chain executed with same | ⟨change, vault, changed, same⟩
    · rw [same]
      exact Or.inl rfl
    · rw [same]
      exact Or.inr ⟨change, changed⟩
  · rw [execute_of_isRemote remote executed]
    exact Or.inl rfl

end Frames

section PlanFile

theorem recoverNote_planFile {next : Option NoteState}
    (recovered : world.recoverNote W next = some after) :
    after.files.preparedWithdrawal = world.files.preparedWithdrawal := by
  unfold World.recoverNote at recovered
  split at recovered
  · cases recovered
    rfl
  · split at recovered
    · obtain ⟨_, same⟩ := Option.ite_none_right_eq_some.mp recovered
      cases Option.some.inj same
      rfl
    · cases recovered

theorem runFlow_planFile {recovered : Option NoteState} {stale : Bool} {last : FlowEnd}
    {reply : FlowReply} (ran : world.runFlow W recovered stale last = some (reply, after)) :
    after.files.preparedWithdrawal = world.files.preparedWithdrawal := by
  obtain ⟨middle, recovers, ran⟩ := Option.bind_eq_some_iff.mp ran
  rw [← recoverNote_planFile recovers]
  dsimp only at ran
  split at ran
  · cases ran
    rfl
  · split at ran
    · split at ran <;> cases ran <;> rfl
    · split at ran <;> cases ran
      rfl
    · split at ran <;> cases ran
      rfl

theorem prepareLease_planFile {reply : Except AuthError ApiRequestV2}
    (prepared : world.prepareLease W answer = some (reply, after)) :
    after.files.preparedWithdrawal = world.files.preparedWithdrawal := by
  unfold World.prepareLease at prepared
  split at prepared
  · cases prepared
    rfl
  · cases prepared
    rfl
  · cases prepared
    rfl
  · split at prepared <;> cases prepared
    rfl
  · cases prepared

theorem retireNote_planFile (config : AuthConfig) (outcome : RetireOutcome) (files : StateDir) :
    (retireNote config outcome files).2.preparedWithdrawal = files.preparedWithdrawal := by
  unfold retireNote
  split
  · rfl
  · split
    · rfl
    · split
      · rfl
      · cases outcome <;> rfl

/-- The steps that write or remove the file of the plan. -/
def Op.writesPlan : Op → Bool
  | .persistPrepared _ | .removePrepared | .resetFiles => true
  | _ => false

/-- Every other step leaves the file of the plan alone. -/
theorem execute_planFile (executed : execute W task op answer world = some (response, after))
    (other : op.writesPlan = false) :
    after.files.preparedWithdrawal = world.files.preparedWithdrawal := by
  have read : ∀ {α : Type} {done : Except AuthError α × World} {response : Except AuthError α},
      done.2.files.preparedWithdrawal = world.files.preparedWithdrawal →
      fallible answer world done = some (response, after) →
        after.files.preparedWithdrawal = world.files.preparedWithdrawal := by
    intro α done response same executed
    rcases fallible_cases executed with equal | ⟨_, rfl⟩
    · rw [← equal] at same
      exact same
    · rfl
  by_cases wallet : op.isWallet = true
  · cases op with
    | status => exact read rfl executed
    | retireLowBalanceNote =>
        cases answer with
        | retires outcome =>
            cases executed
            exact retireNote_planFile _ _ _
        | fails error =>
            cases executed
            rfl
        | _ => cases executed
    | confirmDeposit request =>
        obtain ⟨-, ⟨rfl, -⟩ | ⟨state, -, rfl, -⟩⟩ := execute_deposit executed <;> rfl
    | recover =>
        cases answer with
        | recovers next =>
            obtain ⟨middle, recovered, same⟩ := Option.map_eq_some_iff.mp executed
            cases same
            exact recoverNote_planFile recovered
        | plain | fails error =>
            cases executed
            rfl
        | _ => cases executed
    | requestFlow request =>
        cases answer with
        | flows recovered stale last => exact runFlow_planFile executed
        | fails error =>
            cases executed
            rfl
        | _ => cases executed
    | prepareLease => exact prepareLease_planFile executed
    | clearPendingRequest => exact read rfl executed
    | withdraw mode destination => rw [withdraw_shape executed]
    | _ => cases other <;> cases wallet
  · rw [execute_files executed (by simpa using wallet)]

end PlanFile

section Notes

/-- The note of the wallet is as it was, or a next state of it is installed. -/
inductive Advanced (W : WalletFunctions) (world after : World) : Prop
  | kept (note : after.files.noteState = world.files.noteState)
  | installed {state next : NoteState} (note : world.files.noteState = some state)
      (succeeds : world.Succeeds W state next) (installs : after.files.noteState = some next)

/-- The notes that are put away are as they were. -/
structure PutAway (world after : World) : Prop where
  archive : after.files.archive = world.files.archive
  retired : after.files.retired = world.files.retired

theorem PutAway.refl (world : World) : PutAway world world :=
  ⟨rfl, rfl⟩

theorem recoverNote_advanced {next : Option NoteState}
    (recovered : world.recoverNote W next = some after) :
    Advanced W world after ∧ PutAway world after ∧ after.cleared = world.cleared := by
  unfold World.recoverNote at recovered
  split at recovered
  · cases recovered
    exact ⟨.kept rfl, .refl _, rfl⟩
  · split at recovered
    · rename_i found _
      obtain ⟨succeeds, same⟩ := Option.ite_none_right_eq_some.mp recovered
      cases Option.some.inj same
      exact ⟨.installed found succeeds rfl, ⟨rfl, rfl⟩, rfl⟩
    · cases recovered

theorem runFlow_advanced {recovered : Option NoteState} {stale : Bool} {last : FlowEnd}
    {reply : FlowReply} (ran : world.runFlow W recovered stale last = some (reply, after)) :
    Advanced W world after ∧ PutAway world after ∧ after.cleared = world.cleared := by
  obtain ⟨middle, recovers, ran⟩ := Option.bind_eq_some_iff.mp ran
  obtain ⟨advanced, ⟨archive, retired⟩, cleared⟩ := recoverNote_advanced recovers
  have unchanged : after.files.noteState = middle.files.noteState →
      Advanced W world after := by
    intro same
    rcases advanced with kept | ⟨note, succeeds, installs⟩
    · exact .kept (same.trans kept)
    · exact .installed note succeeds (same.trans installs)
  dsimp only at ran
  split at ran
  · cases ran
    exact ⟨unchanged rfl, ⟨archive, retired⟩, cleared⟩
  · rename_i state found
    split at ran
    · split at ran <;> cases ran <;> exact ⟨unchanged rfl, ⟨archive, retired⟩, cleared⟩
    · split at ran <;> cases ran
      exact ⟨unchanged rfl, ⟨archive, retired⟩, cleared⟩
    · obtain ⟨succeeds, same⟩ := Option.ite_none_right_eq_some.mp ran
      cases Option.some.inj same
      refine ⟨?_, ⟨archive, retired⟩, cleared⟩
      obtain ⟨sameId, sameSecret, unspent⟩ := succeeds
      rw [cleared] at unspent
      rcases advanced with kept | ⟨note, earlier, installs⟩
      · exact .installed (kept.symm.trans found) ⟨sameId, sameSecret, unspent⟩ rfl
      · cases installs.symm.trans found
        exact .installed note ⟨sameId.trans earlier.1, sameSecret.trans earlier.2.1, unspent⟩ rfl

theorem prepareLease_kept {reply : Except AuthError ApiRequestV2}
    (prepared : world.prepareLease W answer = some (reply, after)) :
    after.files.noteState = world.files.noteState ∧ PutAway world after ∧
      after.cleared = world.cleared := by
  unfold World.prepareLease at prepared
  split at prepared
  · cases prepared
    exact ⟨rfl, .refl _, rfl⟩
  · cases prepared
    exact ⟨rfl, .refl _, rfl⟩
  · cases prepared
    exact ⟨rfl, .refl _, rfl⟩
  · split at prepared <;> cases prepared
    exact ⟨rfl, ⟨rfl, rfl⟩, rfl⟩
  · cases prepared

/-- The steps that bring a note, put it away or drop it. -/
def Op.movesNote : Op → Bool
  | .retireLowBalanceNote | .confirmDeposit _ | .resetFiles => true
  | _ => false

/-- Every other step keeps the note, but for its next states. -/
theorem execute_note (executed : execute W task op answer world = some (response, after))
    (other : op.movesNote = false) : Advanced W world after ∧ PutAway world after := by
  have read : ∀ {α : Type} {done : Except AuthError α × World} {response : Except AuthError α},
      done.2.files.noteState = world.files.noteState → PutAway world done.2 →
      fallible answer world done = some (response, after) →
        Advanced W world after ∧ PutAway world after := by
    intro α done response same kept executed
    rcases fallible_cases executed with equal | ⟨_, rfl⟩
    · rw [← equal] at same kept
      exact ⟨.kept same, kept⟩
    · exact ⟨.kept rfl, .refl _⟩
  by_cases wallet : op.isWallet = true
  · cases op with
    | status => exact read rfl (.refl _) executed
    | recover =>
        cases answer with
        | recovers next =>
            obtain ⟨middle, recovered, same⟩ := Option.map_eq_some_iff.mp executed
            cases same
            have advanced := recoverNote_advanced recovered
            exact ⟨advanced.1, advanced.2.1⟩
        | plain | fails error =>
            cases executed
            exact ⟨.kept rfl, .refl _⟩
        | _ => cases executed
    | requestFlow request =>
        cases answer with
        | flows recovered stale last =>
            have advanced := runFlow_advanced executed
            exact ⟨advanced.1, advanced.2.1⟩
        | fails error =>
            cases executed
            exact ⟨.kept rfl, .refl _⟩
        | _ => cases executed
    | prepareLease =>
        have kept := prepareLease_kept executed
        exact ⟨.kept kept.1, kept.2.1⟩
    | clearPendingRequest | persistPrepared plan | removePrepared =>
        exact read rfl ⟨rfl, rfl⟩ executed
    | withdraw mode destination =>
        rw [withdraw_shape executed]
        exact ⟨.kept rfl, ⟨rfl, rfl⟩⟩
    | _ => cases other <;> cases wallet
  · have same := execute_files executed (by simpa using wallet)
    exact ⟨.kept (by rw [same]), ⟨by rw [same], by rw [same]⟩⟩

/-- Only withdrawals reserve clearances. -/
theorem execute_cleared (executed : execute W task op answer world = some (response, after))
    (other : ∀ mode destination, op ≠ .withdraw mode destination) :
    after.cleared = world.cleared := by
  have read : ∀ {α : Type} {done : Except AuthError α × World} {response : Except AuthError α},
      done.2.cleared = world.cleared → fallible answer world done = some (response, after) →
        after.cleared = world.cleared := by
    intro α done response same executed
    rcases fallible_cases executed with equal | ⟨_, rfl⟩
    · rw [← equal] at same
      exact same
    · rfl
  rcases op.kinds with locked | wallet | chain | remote
  · rw [executeLocked_shape (execute_of_isLocked locked executed)]
    rfl
  · cases op with
    | status | clearPendingRequest | persistPrepared plan | removePrepared =>
        exact read rfl executed
    | confirmDeposit request =>
        obtain ⟨-, ⟨rfl, -⟩ | ⟨state, -, rfl, -⟩⟩ := execute_deposit executed <;> rfl
    | retireLowBalanceNote | resetFiles => cases answer <;> cases executed <;> rfl
    | recover =>
        cases answer with
        | recovers next =>
            obtain ⟨middle, recovered, same⟩ := Option.map_eq_some_iff.mp executed
            cases same
            exact (recoverNote_advanced recovered).2.2
        | plain | fails error =>
            cases executed
            rfl
        | _ => cases executed
    | requestFlow request =>
        cases answer with
        | flows recovered stale last => exact (runFlow_advanced executed).2.2
        | fails error =>
            cases executed
            rfl
        | _ => cases executed
    | prepareLease => exact (prepareLease_kept executed).2.2
    | withdraw mode destination => exact (other mode destination rfl).elim
    | _ => cases wallet
  · rcases execute_chain_shape chain executed with same | ⟨_, vault, _, same⟩ <;> rw [same]
  · rw [execute_of_isRemote remote executed]

end Notes

section Moves

theorem execute_retire {response : Except AuthError (Option RetiredNote)}
    (executed : execute W task .retireLowBalanceNote answer world = some (response, after)) :
    after = world ∨ ∃ outcome, (response, after.files) =
      retireNote world.config outcome world.files := by
  cases answer with
  | retires outcome =>
      cases executed
      exact Or.inr ⟨outcome, rfl⟩
  | fails error =>
      cases executed
      exact Or.inl rfl
  | _ => cases executed

theorem execute_reset {response : ResetReply}
    (executed : execute W task .resetFiles answer world = some (response, after)) :
    response.before = world.files ∧ response.after = after.files ∧
      (response.outcome = none ∧ after.files = world.files ∨ ∃ outcome,
        response.outcome = some outcome ∧ after.files = (resetFiles outcome world.files).2) := by
  cases answer with
  | resets outcome =>
      cases executed
      exact ⟨rfl, rfl, Or.inr ⟨outcome, rfl, rfl⟩⟩
  | fails error =>
      cases executed
      exact ⟨rfl, rfl, Or.inl ⟨rfl, rfl⟩⟩
  | _ => cases executed

theorem resetFiles_noteState (outcome : ResetOutcome) (files : StateDir) :
    (resetFiles outcome files).2.noteState = none ∨
      (resetFiles outcome files).2.noteState = files.noteState := by
  change (archiveNote outcome files).noteState = none ∨
    (archiveNote outcome files).noteState = files.noteState
  unfold archiveNote
  split
  · exact Or.inr rfl
  · split
    · exact Or.inl rfl
    · split
      · exact Or.inl rfl
      · exact Or.inr rfl

theorem retireNote_noteState (config : AuthConfig) (outcome : RetireOutcome) (files : StateDir) :
    (retireNote config outcome files).2.noteState = files.noteState ∨
      (retireNote config outcome files).2.noteState = none ∧ files.pendingJournal = none := by
  unfold retireNote
  split
  · exact Or.inl rfl
  · split
    · exact Or.inl rfl
    · split
      · exact Or.inl rfl
      · rename_i free
        have journal : files.pendingJournal = none := by simpa using free
        cases outcome
        · exact Or.inr ⟨rfl, journal⟩
        · exact Or.inl rfl

theorem retireNote_pendingJournal (config : AuthConfig) (outcome : RetireOutcome)
    (files : StateDir) :
    (retireNote config outcome files).2.pendingJournal = files.pendingJournal := by
  unfold retireNote
  split
  · rfl
  · split
    · rfl
    · split
      · rfl
      · cases outcome <;> rfl

theorem archiveNote_pendingJournal (outcome : ResetOutcome) (files : StateDir) :
    (archiveNote outcome files).pendingJournal = files.pendingJournal := by
  unfold archiveNote
  split
  · rfl
  · split
    · rfl
    · split <;> rfl

theorem resetFiles_pendingJournal (outcome : ResetOutcome) (files : StateDir) :
    (resetFiles outcome files).2.pendingJournal = none ∨
      (resetFiles outcome files).2.pendingJournal = files.pendingJournal := by
  unfold resetFiles
  dsimp only
  split
  · exact Or.inl rfl
  · exact Or.inr (archiveNote_pendingJournal outcome files)

end Moves

section Journals

/-- A journal that a step has left was there before, or belongs to the note. -/
def JournalKept (world after : World) : Prop :=
  ∀ journal, after.files.pendingJournal = some journal →
    world.files.pendingJournal = some journal ∨
      ∃ state, after.files.noteState = some state ∧ state.noteId = journal.noteId

theorem JournalKept.of_eq (same : after.files.pendingJournal = world.files.pendingJournal) :
    JournalKept world after :=
  fun _ present => Or.inl (same.symm.trans present)

theorem JournalKept.of_none (gone : after.files.pendingJournal = none) :
    JournalKept world after := by
  intro journal present
  rw [gone] at present
  cases present

theorem recoverNote_journal {next : Option NoteState}
    (recovered : world.recoverNote W next = some after) :
    after.files.pendingJournal = none ∨ after = world := by
  unfold World.recoverNote at recovered
  split at recovered
  · cases recovered
    exact Or.inr rfl
  · split at recovered
    · obtain ⟨_, same⟩ := Option.ite_none_right_eq_some.mp recovered
      cases Option.some.inj same
      exact Or.inl rfl
    · cases recovered

theorem runFlow_journal {recovered : Option NoteState} {stale : Bool} {last : FlowEnd}
    {reply : FlowReply} (ran : world.runFlow W recovered stale last = some (reply, after)) :
    JournalKept world after := by
  obtain ⟨middle, recovers, ran⟩ := Option.bind_eq_some_iff.mp ran
  have before := recoverNote_journal recovers
  have unchanged : after.files.pendingJournal = middle.files.pendingJournal →
      JournalKept world after := by
    intro same
    rcases before with gone | rfl
    · exact .of_none (same.trans gone)
    · exact .of_eq same
  dsimp only at ran
  split at ran
  · cases ran
    exact unchanged rfl
  · rename_i state found
    split at ran
    · split at ran <;> cases ran
      · exact .of_none rfl
      · exact unchanged rfl
    · rename_i journal _
      split at ran <;> cases ran
      rename_i owned
      intro other present
      cases journal with
      | none => cases present
      | some journal =>
          cases present
          have same : other.noteId = state.noteId := by simpa using owned
          exact Or.inr ⟨state, found, same.symm⟩
    · obtain ⟨_, same⟩ := Option.ite_none_right_eq_some.mp ran
      cases Option.some.inj same
      exact .of_none rfl

theorem prepareLease_journal {reply : Except AuthError ApiRequestV2}
    (prepared : world.prepareLease W answer = some (reply, after)) : JournalKept world after := by
  unfold World.prepareLease at prepared
  split at prepared
  · cases prepared
    exact .of_eq rfl
  · cases prepared
    exact .of_eq rfl
  · cases prepared
    exact .of_eq rfl
  · rename_i state _ found _ _ _
    split at prepared <;> cases prepared
    intro journal present
    cases present
    exact Or.inr ⟨_, ‹world.files.noteState = some _›, rfl⟩
  · cases prepared

theorem execute_journal (executed : execute W task op answer world = some (response, after)) :
    JournalKept world after := by
  have read : ∀ {α : Type} {done : Except AuthError α × World} {response : Except AuthError α},
      JournalKept world done.2 → fallible answer world done = some (response, after) →
        JournalKept world after := by
    intro α done response kept executed
    rcases fallible_cases executed with equal | ⟨_, rfl⟩
    · rw [← equal] at kept
      exact kept
    · exact .of_eq rfl
  by_cases wallet : op.isWallet = true
  · cases op with
    | status => exact read (.of_eq rfl) executed
    | retireLowBalanceNote =>
        rcases execute_retire executed with rfl | ⟨outcome, done⟩
        · exact .of_eq rfl
        · rw [Prod.mk.injEq] at done
          apply JournalKept.of_eq
          rw [done.2, retireNote_pendingJournal]
    | confirmDeposit request =>
        obtain ⟨-, ⟨rfl, -⟩ | ⟨state, -, rfl, -⟩⟩ := execute_deposit executed <;>
          exact .of_eq rfl
    | recover =>
        cases answer with
        | recovers next =>
            obtain ⟨middle, recovered, same⟩ := Option.map_eq_some_iff.mp executed
            cases same
            rcases recoverNote_journal recovered with gone | rfl
            · exact .of_none gone
            · exact .of_eq rfl
        | plain | fails error =>
            cases executed
            exact .of_eq rfl
        | _ => cases executed
    | resetFiles =>
        obtain ⟨_, _, ⟨_, same⟩ | ⟨outcome, _, same⟩⟩ := execute_reset executed
        · apply JournalKept.of_eq
          rw [same]
        · rcases resetFiles_pendingJournal outcome world.files with gone | kept
          · apply JournalKept.of_none
            rw [same, gone]
          · apply JournalKept.of_eq
            rw [same, kept]
    | requestFlow request =>
        cases answer with
        | flows recovered stale last => exact runFlow_journal executed
        | fails error =>
            cases executed
            exact .of_eq rfl
        | _ => cases executed
    | prepareLease => exact prepareLease_journal executed
    | clearPendingRequest => exact read (.of_none rfl) executed
    | persistPrepared plan | removePrepared => exact read (.of_eq rfl) executed
    | withdraw mode destination =>
        rw [withdraw_shape executed]
        exact .of_eq rfl
    | _ => cases wallet
  · apply JournalKept.of_eq
    rw [execute_files executed (by simpa using wallet)]

end Journals
end ZkApi.Clientd
