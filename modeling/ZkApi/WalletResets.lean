import ZkApi.EscapePlans
import ZkApi.ResetDiscipline

/-!
# Resets of the wallet

A caller that resets the wallet has read the id of its note and has seen that
note closed, but it resets whatever note there is by then.  Where no deposit is
confirmed in between, and none while the wallet has a note, that is the note that
it has seen closed.
-/

namespace ZkApi.Clientd

open Interleaving

variable {W : WalletFunctions}

section Deposits

/-- A journal belongs to the note of the wallet, or to one that is closed. -/
def JournalOwned (files : StateDir) (vault : Vault) : Prop :=
  ∀ journal, files.pendingJournal = some journal →
    (∃ state, files.noteState = some state ∧ state.noteId = journal.noteId) ∨
      (vault journal.noteId).status = 3

def startsReset : Event (daemon W) → Bool
  | .started _ .resetWallet => true
  | _ => false

def confirmsDeposit : Event (daemon W) → Bool
  | .performed _ (.confirmDeposit _) ⟨_, .ok _⟩ => true
  | _ => false

/-- The note that a confirmed deposit takes the place of. -/
def replacedNote : Event (daemon W) → Option NoteState
  | .performed _ (.confirmDeposit _) ⟨before, .ok _⟩ => before
  | _ => none

/-- No deposit is confirmed while the wallet has a note, and none while a task that may
reset the wallet has read a note.  The wallet is not reset on its own. -/
def StepUndisturbed (event : Event (daemon W)) (trace : List (Event (daemon W))) : Prop :=
  startsReset event = false ∧ replacedNote event = none ∧ (confirmsDeposit event = true → ForRunning (M := daemon W)
    (fun _ call history => call.closesNote = true → noteRead history = none) trace)

instance (event : Event (daemon W)) (trace : List (Event (daemon W))) :
    Decidable (StepUndisturbed event trace) :=
  inferInstanceAs (Decidable (_ ∧ _ ∧ _))

/-- No deposit of the run comes in between the steps of a reset. -/
abbrev Undisturbed : List (Event (daemon W)) → Prop :=
  Throughout StepUndisturbed

theorem not_reset_of_undisturbed {trace : List (Event (daemon W))}
    (undisturbed : Undisturbed trace) {task : Nat} : .started task .resetWallet ∉ trace := by
  intro started
  obtain ⟨_, _, unstarted, _⟩ := undisturbed.of_mem started
  cases unstarted

end Deposits

section Steps

variable {task : Nat} {op : Op} {response : Resp op} {answer : Answer} {world after : World}

/-- After a step the wallet has the note it had, unless it has taken a deposit. -/
theorem noteId_before (executed : execute W task op answer world = some (response, after))
    {state : NoteState} (present : after.files.noteState = some state) :
    (∃ before, world.files.noteState = some before ∧ before.noteId = state.noteId) ∨
      ∃ request before wallet,
        (⟨op, response⟩ : (op : Op) × Resp op) = ⟨.confirmDeposit request, before, .ok wallet⟩ := by
  by_cases moves : op.movesNote = true
  · cases op with
    | retireLowBalanceNote =>
        rcases execute_retire executed with rfl | ⟨outcome, done⟩
        · exact Or.inl ⟨state, present, rfl⟩
        · rw [Prod.mk.injEq] at done
          rw [done.2] at present
          rcases retireNote_noteState world.config outcome world.files with kept | ⟨gone, _⟩
          · exact Or.inl ⟨state, kept.symm.trans present, rfl⟩
          · rw [gone] at present
            cases present
    | confirmDeposit request =>
        obtain ⟨-, ⟨rfl, -⟩ | ⟨deposited, -, -, confirmed⟩⟩ := execute_deposit executed
        · exact Or.inl ⟨state, present, rfl⟩
        · obtain ⟨before, result⟩ := response
          cases confirmed
          exact Or.inr ⟨request, before, _, rfl⟩
    | resetFiles =>
        obtain ⟨_, _, ⟨_, same⟩ | ⟨outcome, _, same⟩⟩ := execute_reset executed
        · rw [same] at present
          exact Or.inl ⟨state, present, rfl⟩
        · rw [same] at present
          rcases resetFiles_noteState outcome world.files with gone | kept
          · rw [gone] at present
            cases present
          · exact Or.inl ⟨state, kept.symm.trans present, rfl⟩
    | _ => cases moves
  · rcases (execute_note executed (by simpa using moves)).1 with kept | ⟨note, succeeds, installs⟩
    · exact Or.inl ⟨state, kept.symm.trans present, rfl⟩
    · cases installs.symm.trans present
      exact Or.inl ⟨_, note, succeeds.1.symm⟩

/-- A step keeps the note whose request is pending, unless it is a reset or a deposit that
takes its place. -/
theorem noteId_after (single : replacedNote (W := W) (.performed task op response) = none)
    (executed : execute W task op answer world = some (response, after))
    {journal : PendingRequestJournal} (pending : world.files.pendingJournal = some journal)
    (other : op ≠ .resetFiles) {state : NoteState}
    (present : world.files.noteState = some state) :
    ∃ next, after.files.noteState = some next ∧ next.noteId = state.noteId := by
  by_cases moves : op.movesNote = true
  · cases op with
    | retireLowBalanceNote =>
        rcases execute_retire executed with rfl | ⟨outcome, done⟩
        · exact ⟨state, present, rfl⟩
        · rw [Prod.mk.injEq] at done
          rw [done.2]
          rcases retireNote_noteState world.config outcome world.files with kept | ⟨_, free⟩
          · exact ⟨state, kept.trans present, rfl⟩
          · rw [pending] at free
            cases free
    | confirmDeposit request =>
        obtain ⟨found, ⟨rfl, -⟩ | ⟨deposited, -, -, confirmed⟩⟩ := execute_deposit executed
        · exact ⟨state, present, rfl⟩
        · obtain ⟨before, result⟩ := response
          cases confirmed
          have empty : before = none := single
          rw [empty, present] at found
          cases found
    | resetFiles => exact (other rfl).elim
    | _ => cases moves
  · rcases (execute_note executed (by simpa using moves)).1 with kept | ⟨note, succeeds, installs⟩
    · exact ⟨state, kept.trans present, rfl⟩
    · cases note.symm.trans present
      exact ⟨_, installs, succeeds.1⟩

end Steps

section Invariant

variable {world after : World} {trace : List (Event (daemon W))} {task : Nat}

/-- The note of the wallet is the one that a running task has read. -/
def NoteKnown (world : World) (trace : List (Event (daemon W))) : Prop :=
  ForRunning (M := daemon W) (fun _ call history => call.closesNote = true →
    ∀ noteId, noteRead history = some noteId → ∀ state, world.files.noteState = some state →
      state.noteId = noteId) trace

structure Attributed (world : World) (trace : List (Event (daemon W))) : Prop where
  note : NoteKnown world trace
  journal : JournalOwned world.files world.vault

theorem VaultKnown.closedSeen (known : VaultKnown world trace) {noteId : UInt32}
    (seen : ClosedSeen (historyOf (M := daemon W) task trace) noteId) :
    (world.vault noteId).status = 3 := by
  rcases seen with vault | read | awaited
  · exact known.closed _ (saw_historyOf_iff.mp vault) noteId rfl
  · exact known.closed _ (saw_historyOf_iff.mp read) noteId rfl
  · exact known.closed _ (saw_historyOf_iff.mp awaited) noteId rfl

/-- The wallet is reset only when its note is one that the task has seen closed. -/
theorem Attributed.closed {call : Call} (attributed : Attributed world trace)
    (undisturbed : Undisturbed trace) (running : Running task trace)
    (started : .started task call ∈ trace)
    (allowed : ResetAllowed call (historyOf (M := daemon W) task trace) .resetFiles)
    {state : NoteState} (present : world.files.noteState = some state) :
    ClosedSeen (historyOf (M := daemon W) task trace) state.noteId := by
  rcases allowed rfl with rfl | ⟨closes, noteId, read, seen⟩
  · exact (not_reset_of_undisturbed undisturbed started).elim
  · rw [attributed.note task call running started closes noteId read state present]
    exact seen

theorem noteRead_performed {op : Op} {response : Resp op} {answer : Answer}
    (executed : execute W task op answer world = some (response, after))
    {history : History Resp} {noteId : UInt32}
    (read : noteRead (⟨op, response⟩ :: history) = some noteId) :
    noteRead history = some noteId ∨ op = .status ∧
      after.files.noteState.map NoteState.noteId = some noteId := by
  by_cases blind : op.isBlind = true
  · rw [noteRead_blind blind] at read
    exact Or.inl read
  · cases op with
    | status =>
        rcases fallible_cases executed with same | ⟨⟨error, rfl⟩, _⟩
        · cases same
          exact Or.inr ⟨rfl, read⟩
        · exact Or.inl read
    | resetFiles => cases read
    | _ => exact (blind rfl).elim

theorem attributed_performed {call : Call} {op : Op} {response : Resp op} {answer : Answer}
    (known : VaultKnown world trace)
    (attributed : Attributed world trace)
    (undisturbed : Undisturbed (.performed task op response :: trace))
    (running : Running task trace) (started : .started task call ∈ trace)
    (allowed : ResetAllowed call (historyOf (M := daemon W) task trace) op)
    (executed : execute W task op answer world = some (response, after)) :
    Attributed after (.performed task op response :: trace) := by
  obtain ⟨undisturbed, quiet⟩ := undisturbed
  have lasts : ∀ noteId, (world.vault noteId).status = 3 → (after.vault noteId).status = 3 :=
    fun noteId closed => (lasting_vault (W := W) (fun note => note.status = 3) noteId
      fun _ _ _ changed => VaultNote.closed_after changed).execute executed closed
  have same : ∀ other otherCall, Running other trace → .started other otherCall ∈ trace →
      otherCall.closesNote = true → ∀ noteId, noteRead (historyOf other trace) = some noteId →
        ∀ state, after.files.noteState = some state → state.noteId = noteId := by
    intro other otherCall otherRunning otherStarted closes noteId read state present
    rcases noteId_before executed present with
      ⟨before, found, same⟩ | ⟨request, before, wallet, deposit⟩
    · rw [← same]
      exact attributed.note other otherCall otherRunning otherStarted closes noteId read before
        found
    · cases deposit
      have unread : noteRead (historyOf other trace) = none :=
        quiet.2.2 rfl other otherCall otherRunning otherStarted closes
      rw [unread] at read
      cases read
  refine ⟨?_, ?_⟩
  · intro mover moverCall moverRunning member closes noteId read state present
    have earlier := (List.mem_cons.mp member).resolve_left nofun
    by_cases mine : task = mover
    · subst mine
      rw [historyOf, if_pos rfl] at read
      rcases noteRead_performed executed read with before | ⟨_, now⟩
      · exact same task moverCall moverRunning earlier closes noteId before state present
      · rw [present] at now
        exact Option.some.inj now
    · rw [historyOf, if_neg mine] at read
      exact same mover moverCall moverRunning earlier closes noteId read state present
  · intro journal present
    rcases execute_journal executed journal present with before | owned
    · rcases attributed.journal journal before with ⟨state, found, own⟩ | closed
      · by_cases resets : op = .resetFiles
        · subst resets
          have seen := attributed.closed undisturbed running started allowed found
          have closed := known.closedSeen seen
          rw [own] at closed
          exact Or.inr (lasts _ closed)
        · obtain ⟨next, installed, kept⟩ := noteId_after quiet.2.1 executed before resets found
          exact Or.inl ⟨next, installed, kept.trans own⟩
      · exact Or.inr (lasts _ closed)
    · exact Or.inl owned

theorem attributed_preserved (W : WalletFunctions) :
    (resetDiscipline W).Preserved VaultKnown
      (fun world trace => Undisturbed trace → Attributed (W := W) world trace) where
  started := by
    rintro world trace task call fresh _ inv ⟨undisturbed, _⟩
    have attributed := inv undisturbed
    refine ⟨attributed.note.started fresh ?_, attributed.journal⟩
    intro _ noteId read
    cases read
  performed := by
    intro world trace task call op answer response after running started allowed executed known
      inv undisturbed
    exact attributed_performed known (inv undisturbed.1) undisturbed running started allowed
      executed
  returned := by
    rintro world trace task call result running started newest _ _ inv ⟨undisturbed, _⟩
    have attributed := inv undisturbed
    exact ⟨attributed.note.returned fun _ _ _ _ kept => kept, attributed.journal⟩
  aborted := by
    rintro world trace task running _ inv ⟨undisturbed, _⟩
    have attributed := inv undisturbed
    exact ⟨attributed.note.aborted fun _ _ _ _ kept => kept, attributed.journal⟩
  moved := by
    rintro world trace change after moved _ inv ⟨undisturbed, _⟩
    have attributed := inv undisturbed
    have same : after.files = world.files := by
      rcases move_shape moved with ⟨_, rfl⟩ | ⟨_, _, _, rfl⟩ <;> rfl
    refine ⟨?_, ?_⟩
    · unfold NoteKnown
      rw [same]
      exact ForRunning.moved attributed.note
    · intro journal present
      rw [same] at present ⊢
      apply (attributed.journal journal present).imp_right
      exact (lasting_vault (W := W) (fun note => note.status = 3) journal.noteId
        fun _ _ _ changed => VaultNote.closed_after changed).environment moved
  restarted := by
    rintro world trace change after restarted _ inv ⟨undisturbed, _⟩
    have attributed := inv undisturbed
    cases Option.some.inj restarted
    exact ⟨.restarted, attributed.journal⟩

end Invariant

section Runs

variable {config : AuthConfig} {files : StateDir} {now : UInt64} {vault : Vault}
  {state after : State (daemon W)} {action : Action (daemon W)}

/-- In an undisturbed run a reset removes only the note that its task has seen
closed, and discards only the journal of a closed note. -/
theorem resets_close_only_their_note (owned : JournalOwned files vault)
    (run : (State.initial (daemon W) (World.started config files now vault)).Reaches state)
    (stepped : state.step action = some after) (undisturbed : Undisturbed after.trace)
    {task : Nat} {reply : ResetReply} {earlier : List (Event (daemon W))}
    (suffix : .performed task .resetFiles reply :: earlier <:+ after.trace)
    (added : state.trace <:+ earlier) :
    (∀ note, reply.before.noteState = some note → reply.after.noteState = none →
        ClosedSeen (historyOf (M := daemon W) task earlier) note.noteId) ∧
      ∀ journal, reply.before.pendingJournal = some journal →
        reply.after.pendingJournal = none →
          (state.world.vault journal.noteId).status = 3 := by
  have valid : (resetDiscipline W).Valid state := Discipline.valid_of_reaches run
  obtain ⟨rfl, running, call, answer, world, started, allowed, executed⟩ :=
    valid.performed_added stepped suffix added
  have inv := ((vaultKnown_preserved (resetDiscipline W)).and
    (attributed_preserved W)).holds
      ⟨vaultKnown_nil _, fun _ => ⟨.nil, owned⟩⟩ run
  have past := undisturbed.of_suffix ((List.suffix_cons _ _).trans suffix)
  have attributed := inv.2 past
  have done : execute W task .resetFiles answer state.world = some (reply, world) := executed
  obtain ⟨before, _, _⟩ := execute_reset done
  rw [before]
  refine ⟨fun note present _ => ?_, fun journal present _ => ?_⟩
  · exact attributed.closed past running started allowed present
  · rcases attributed.journal journal present with ⟨note, found, same⟩ | closed
    · have seen := attributed.closed past running started allowed found
      rw [← same]
      exact inv.1.closedSeen seen
    · exact closed

theorem reference_owned : JournalOwned Reference.files Reference.vault := by
  intro journal present
  cases present

/-- A note that was closed in the vault, and a confirmation that is about to reset
the wallet. -/
def closedNote : List (Action (daemon Reference.wallet)) :=
  [.move (.vault (.mutualClose (Reference.plan .mutual))), .start .confirmWithdrawal] ++
    Reference.advances 0 [.plain, .plain, .plain, .plain]

theorem resets_close_only_their_note_confirmed :
    ∃ state after action task reply,
      (State.initial (daemon Reference.wallet) (Reference.started .proxy)).Reaches state ∧
      state.step action = some after ∧ reply.before.noteState = some Reference.note ∧
      reply.after.noteState = none ∧ .performed task .resetFiles reply ∈ after.trace ∧
      ClosedSeen (historyOf (M := daemon Reference.wallet) task state.trace) 7 := by
  have reached : ∃ state,
      (State.initial (daemon Reference.wallet) (Reference.started .proxy)).Reaches state ∧
        ∃ after ∈ state.step (.advance 0 (.resets Reference.wholeReset)),
          Undisturbed after.trace ∧
          after.trace = .performed 0 .resetFiles
            (Reference.resetReply Reference.files Reference.filesAfterReset) :: state.trace :=
    State.reaches_of_decide closedNote (by decide)
  obtain ⟨state, run, after, stepped, undisturbed, added⟩ := reached
  have suffix : .performed 0 .resetFiles (Reference.resetReply Reference.files
      Reference.filesAfterReset) :: state.trace <:+ after.trace := by
    rw [added]
  refine ⟨state, after, _, 0, Reference.resetReply Reference.files Reference.filesAfterReset,
    run, stepped, rfl, rfl, ?_, ?_⟩
  · rw [added]
    exact List.mem_cons_self
  · exact (resets_close_only_their_note reference_owned run stepped undisturbed
      suffix (List.suffix_refl _)).1 Reference.note rfl rfl

/-- Two confirmations see the note closed; one of them resets the wallet, a deposit
of another note is confirmed, and the other one resets it again. -/
def resetOfNewNote : List (Action (daemon Reference.wallet)) :=
  [.move (.vault (.mutualClose (Reference.plan .mutual))), .start .confirmWithdrawal] ++
    Reference.advances 0 [.plain, .plain, .plain, .plain] ++
    .start .confirmWithdrawal ::
    Reference.advances 1 [.plain, .plain, .plain, .plain, .resets Reference.wholeReset,
      .plain, .plain] ++
    [.move (.vault (.deposited 8)), .start (.confirmDeposit ⟨⟨200⟩, 8, 50, 99⟩),
      .advance 2 .plain]

theorem new_note_reset :
    ∃ state after action task reply note,
      (State.initial (daemon Reference.wallet) (Reference.started .proxy)).Reaches state ∧
      state.step action = some after ∧
      after.trace = .performed task .resetFiles reply :: state.trace ∧
      .started task .confirmWithdrawal ∈ state.trace ∧
      reply.before.noteState = some note ∧ reply.after.noteState = none ∧
      (state.world.vault note.noteId).status = 1 ∧
      ¬ ClosedSeen (historyOf (M := daemon Reference.wallet) task state.trace) note.noteId := by
  have reached : ∃ state,
      (State.initial (daemon Reference.wallet) (Reference.started .proxy)).Reaches state ∧
        ∃ after ∈ state.step (.advance 0 (.resets Reference.wholeReset)),
          after.trace.tail = state.trace ∧ .started 0 .confirmWithdrawal ∈ state.trace ∧
          (state.world.vault 8).status = 1 ∧
          state.world.files.noteState = some Reference.newNote ∧
          after.world.files.noteState = none ∧
          (∃ event ∈ after.trace.head?, event = .performed 0 .resetFiles
            (Reference.resetReply state.world.files after.world.files)) ∧
          ¬ ClosedSeen (historyOf (M := daemon Reference.wallet) 0 state.trace) 8 :=
    State.reaches_of_decide resetOfNewNote (by decide)
  obtain ⟨state, run, after, stepped, same, started, active, before, gone, ⟨event, isHead, rfl⟩,
    unseen⟩ := reached
  refine ⟨state, after, _, 0, Reference.resetReply state.world.files after.world.files,
    Reference.newNote, run, stepped, ?_, started, before, gone, active, unseen⟩
  rw [← same, List.cons_head?_tail isHead]

end Runs

end ZkApi.Clientd
