import Mathlib.Data.List.Perm.Subperm
import ZkApi.WalletResets

/-!
# Secrets of the notes

The secret of a note is in the state of the wallet, in the archive or in a
directory of a retired note.  A retirement moves it to a directory that is new,
and requests keep it.  A reset moves it to the archive if it can; where it
cannot, it removes the state all the same, and the secret is lost with it.  A
deposit that is confirmed while a note is active takes the place of its state.
-/

namespace ZkApi.Clientd

open Interleaving

section Files

/-- The secrets that the archive and the directories of retired notes hold. -/
def StateDir.storedSecrets (files : StateDir) : List Felt252 :=
  files.archive.map NoteState.secret ++
    files.retired.filterMap fun dir => dir.noteState.map NoteState.secret

def StateDir.secrets (files : StateDir) : List Felt252 :=
  (files.noteState.map NoteState.secret).toList ++ files.storedSecrets

theorem mem_secrets {files : StateDir} {secret : Felt252} :
    secret ∈ files.secrets ↔ (∃ state, files.noteState = some state ∧ state.secret = secret) ∨
      (∃ state ∈ files.archive, state.secret = secret) ∨
      ∃ dir ∈ files.retired, ∃ state, dir.noteState = some state ∧ state.secret = secret := by
  simp [StateDir.secrets, StateDir.storedSecrets]

/-- Every secret of these files is in those files, but for some that were dropped. -/
def Keeps (dropped : Felt252 → Prop) (before after : StateDir) : Prop :=
  ∀ secret ∈ before.secrets, secret ∈ after.secrets ∨ dropped secret

variable {dropped : Felt252 → Prop} {before after : StateDir}

theorem Keeps.of_eq (noteState : after.noteState = before.noteState)
    (archive : after.archive = before.archive) (retired : after.retired = before.retired) :
    Keeps dropped before after := by
  intro secret member
  rw [mem_secrets] at member ⊢
  rw [noteState, archive, retired]
  exact Or.inl member

theorem Keeps.mono {others : Felt252 → Prop} (keeps : Keeps dropped before after)
    (more : ∀ secret, dropped secret → others secret) : Keeps others before after :=
  fun secret member => (keeps secret member).imp_right (more secret)

end Files

section Retirement

/-- The next suffix names a directory that does not exist yet. -/
theorem nextRetiredSuffix_fresh (retired : List RetiredDir) (noteId : UInt32) :
    ∀ dir ∈ retired, dir.noteId = noteId → dir.suffix ≠ nextRetiredSuffix retired noteId := by
  intro dir member sameId sameSuffix
  unfold nextRetiredSuffix at sameSuffix
  dsimp only at sameSuffix
  generalize found : (List.range' 1 (retired.length + 1)).find? _ = first at sameSuffix
  cases first with
  | some suffix =>
      have free := List.find?_some found
      have taken : (retired.any fun dir => dir.noteId == noteId && dir.suffix == suffix) = true :=
        List.any_eq_true.mpr ⟨dir, member, by simpa [sameId] using sameSuffix⟩
      rw [taken] at free
      cases free
  | none =>
      have every : List.range' 1 (retired.length + 1) ⊆ retired.map RetiredDir.suffix := by
        intro suffix inside
        have taken := List.find?_eq_none.mp found suffix inside
        simp only [Bool.not_eq_true', Bool.not_eq_false, List.any_eq_true, Bool.and_eq_true,
          beq_iff_eq] at taken
        obtain ⟨other, present, _, same⟩ := taken
        exact List.mem_map.mpr ⟨other, present, same⟩
      have longer := (List.Nodup.subperm List.nodup_range' every).length_le
      rw [List.length_range', List.length_map] at longer
      omega

/-- A new directory takes the place of none. -/
theorem mem_writeRetired {retired : List RetiredDir} {noteId : UInt32}
    {kept : Option NoteState} {dir : RetiredDir} :
    dir ∈ writeRetired retired ⟨noteId, nextRetiredSuffix retired noteId, kept⟩ ↔
      dir = ⟨noteId, nextRetiredSuffix retired noteId, kept⟩ ∨ dir ∈ retired := by
  have untouched : (retired.filter fun other => !(other.noteId == noteId &&
      other.suffix == nextRetiredSuffix retired noteId)) = retired := by
    apply List.filter_eq_self.mpr
    intro other present
    by_cases sameId : other.noteId = noteId
    · simp [nextRetiredSuffix_fresh retired noteId other present sameId]
    · simp [sameId]
  unfold writeRetired
  rw [untouched, List.mem_cons]

theorem retireNote_keeps (config : AuthConfig) (outcome : RetireOutcome) (files : StateDir) :
    Keeps dropped files (retireNote config outcome files).2 := by
  unfold retireNote
  split
  · exact .of_eq rfl rfl rfl
  · rename_i state present
    split
    · exact .of_eq rfl rfl rfl
    · split
      · exact .of_eq rfl rfl rfl
      · intro secret member
        rw [mem_secrets] at member
        apply Or.inl
        cases outcome with
        | leavesDir error =>
            rw [mem_secrets]
            apply member.imp_right
            apply Or.imp_right
            rintro ⟨dir, held, found⟩
            exact ⟨dir, mem_writeRetired.mpr (Or.inr held), found⟩
        | moves =>
            rw [mem_secrets]
            rcases member with ⟨active, isActive, same⟩ | archived | ⟨dir, held, found⟩
            · cases present.symm.trans isActive
              exact Or.inr (Or.inr
                ⟨_, mem_writeRetired.mpr (Or.inl rfl), state, rfl, same⟩)
            · exact Or.inr (Or.inl archived)
            · exact Or.inr (Or.inr ⟨dir, mem_writeRetired.mpr (Or.inr held), found⟩)

end Retirement

section Resets

/-- A reset removes the only state with this secret without having archived it, or
archives a note with another secret in the place of one with this secret. -/
def ResetOutcome.Drops (outcome : ResetOutcome) (files : StateDir) (secret : Felt252) : Prop :=
  ∃ state ∈ files.noteState,
    if outcome.loads && outcome.archives then
      state.secret ≠ secret ∧
        ∃ other ∈ files.archive, other.noteId = state.noteId ∧ other.secret = secret
    else outcome.removesState = true ∧ state.secret = secret ∧ secret ∉ files.storedSecrets

theorem resetFiles_keeps (outcome : ResetOutcome) (files : StateDir) :
    Keeps (outcome.Drops files) files (resetFiles outcome files).2 := by
  suffices keeps : Keeps (outcome.Drops files) files (archiveNote outcome files) by
    intro secret member
    have held := keeps secret member
    rw [mem_secrets] at held ⊢
    exact held
  unfold archiveNote
  split
  · exact .of_eq rfl rfl rfl
  · rename_i state present
    split
    · rename_i archives
      intro secret member
      rw [mem_secrets] at member ⊢
      rcases member with ⟨active, isActive, same⟩ | ⟨other, archived, same⟩ | retired
      · cases present.symm.trans isActive
        exact Or.inl (Or.inr (Or.inl ⟨state, List.mem_cons_self, same⟩))
      · by_cases newest : state.secret = secret
        · exact Or.inl (Or.inr (Or.inl ⟨state, List.mem_cons_self, newest⟩))
        by_cases sameId : other.noteId = state.noteId
        · refine Or.inr ⟨state, present, ?_⟩
          rw [if_pos archives]
          exact ⟨newest, other, archived, sameId, same⟩
        · have stays : other ∈ writeArchive files.archive state :=
            List.mem_cons_of_mem _ (List.mem_filter.mpr ⟨archived, by simpa using sameId⟩)
          exact Or.inl (Or.inr (Or.inl ⟨other, stays, same⟩))
      · exact Or.inl (Or.inr (Or.inr retired))
    · rename_i unarchived
      split
      · rename_i removes
        intro secret member
        by_cases stored : secret ∈ files.storedSecrets
        · exact Or.inl (List.mem_append_right _ stored)
        rcases List.mem_append.mp member with active | isStored
        · rw [present] at active
          have same : state.secret = secret := (List.mem_singleton.mp active).symm
          refine Or.inr ⟨state, present, ?_⟩
          rw [if_neg unarchived]
          exact ⟨removes, same, stored⟩
        · exact (stored isStored).elim
      · exact .of_eq rfl rfl rfl

end Resets

section Runs

variable {W : WalletFunctions}

/-- The wallet keeps the secret that it is given with a deposit. -/
def RecordsDeposits (W : WalletFunctions) : Prop :=
  ∀ note request state, W.confirmDeposit note request = .ok state →
    state.secret = request.secret

/-- The reset that an event performs, with the files that it found. -/
def resetOf : Event (daemon W) → Option (ResetOutcome × StateDir)
  | .performed _ .resetFiles reply => reply.outcome.map fun outcome => (outcome, reply.before)
  | _ => none

/-- The secret of the note whose deposit an event confirms. -/
def confirmedSecret : Event (daemon W) → Option Felt252
  | .performed _ (.confirmDeposit request) ⟨_, .ok _⟩ => some request.secret
  | _ => none

/-- A reset drops this secret, or a deposit takes the place of the note that has it. -/
def EventDrops (event : Event (daemon W)) (secret : Felt252) : Prop :=
  (∃ reset ∈ resetOf event, reset.1.Drops reset.2 secret) ∨
    ∃ note ∈ replacedNote event, note.secret = secret

/-- An event of the run has dropped this secret. -/
def Dropped (trace : List (Event (daemon W))) (secret : Felt252) : Prop :=
  ∃ event ∈ trace, EventDrops event secret

theorem Dropped.cons {event : Event (daemon W)} {trace : List (Event (daemon W))}
    {secret : Felt252} (earlier : Dropped trace secret) : Dropped (event :: trace) secret := by
  obtain ⟨other, member, drops⟩ := earlier
  exact ⟨other, List.mem_cons_of_mem _ member, drops⟩

theorem execute_keeps {task : Nat} {op : Op} {response : Resp op}
    {answer : Answer} {world after : World}
    (executed : execute W task op answer world = some (response, after)) :
    Keeps (Dropped (W := W) [.performed task op response]) world.files after.files := by
  by_cases moves : op.movesNote = true
  · cases op with
    | retireLowBalanceNote =>
        rcases execute_retire executed with rfl | ⟨outcome, done⟩
        · exact .of_eq rfl rfl rfl
        · rw [Prod.mk.injEq] at done
          rw [done.2]
          exact retireNote_keeps _ outcome _
    | confirmDeposit request =>
        obtain ⟨found, ⟨rfl, -⟩ | ⟨deposited, -, rfl, confirmed⟩⟩ := execute_deposit executed
        · exact .of_eq rfl rfl rfl
        · obtain ⟨before, result⟩ := response
          cases confirmed
          intro secret member
          rw [mem_secrets] at member
          rcases member with ⟨state, present, same⟩ | stored
          · exact Or.inr ⟨_, List.mem_singleton_self _, Or.inr ⟨state, found.trans present, same⟩⟩
          · exact Or.inl (mem_secrets.mpr (Or.inr stored))
    | resetFiles =>
        obtain ⟨before, _, ⟨_, same⟩ | ⟨outcome, isOutcome, same⟩⟩ := execute_reset executed
        · rw [same]
          exact .of_eq rfl rfl rfl
        · rw [same]
          apply (resetFiles_keeps outcome world.files).mono
          intro secret drops
          refine ⟨_, List.mem_singleton_self _, Or.inl ⟨(outcome, world.files), ?_, drops⟩⟩
          change response.outcome.map _ = _
          rw [isOutcome, before]
          rfl
    | _ => cases moves
  · obtain ⟨advanced, archive, retired⟩ := execute_note executed (by simpa using moves)
    rcases advanced with kept | ⟨note, succeeds, installs⟩
    · exact .of_eq kept archive retired
    · intro secret member
      rw [mem_secrets] at member
      rw [mem_secrets, archive, retired]
      rcases member with ⟨active, isActive, same⟩ | stored
      · cases note.symm.trans isActive
        exact Or.inl (Or.inl ⟨_, installs, succeeds.2.1.trans same⟩)
      · exact Or.inl (Or.inr stored)

/-- The secret of every note that the wallet had at first or was ever confirmed is
held by a file, or a reset or another deposit has dropped it. -/
def SecretsHeld (initially : StateDir) (world : World) (trace : List (Event (daemon W))) :
    Prop :=
  ∀ secret, secret ∈ initially.secrets ∨ (∃ event ∈ trace, confirmedSecret event = some secret) →
    secret ∈ world.files.secrets ∨ Dropped trace secret

variable {initially : StateDir} {world after : World} {event : Event (daemon W)}
  {trace : List (Event (daemon W))}

theorem SecretsHeld.cons (held : SecretsHeld initially world trace)
    (keeps : Keeps (Dropped (event :: trace)) world.files after.files)
    (confirms : ∀ secret, confirmedSecret event = some secret → secret ∈ after.files.secrets) :
    SecretsHeld initially after (event :: trace) := by
  have still : ∀ secret, secret ∈ world.files.secrets ∨ Dropped trace secret →
      secret ∈ after.files.secrets ∨ Dropped (event :: trace) secret := by
    intro secret cases
    rcases cases with present | earlier
    · exact keeps secret present
    · exact Or.inr earlier.cons
  rintro secret (present | ⟨other, member, confirmed⟩)
  · exact still secret (held secret (Or.inl present))
  · rcases List.mem_cons.mp member with rfl | member
    · exact Or.inl (confirms secret confirmed)
    · exact still secret (held secret (Or.inr ⟨other, member, confirmed⟩))

/-- An event that moves no file and confirms no deposit. -/
theorem SecretsHeld.same (held : SecretsHeld initially world trace)
    (files : after.files = world.files) (confirms : confirmedSecret event = none) :
    SecretsHeld initially after (event :: trace) := by
  apply held.cons
  · rw [files]
    exact .of_eq rfl rfl rfl
  · intro secret confirmed
    rw [confirms] at confirmed
    cases confirmed

theorem confirmed_recorded (records : RecordsDeposits W) {task : Nat} {op : Op}
    {response : Resp op} {answer : Answer}
    (executed : execute W task op answer world = some (response, after)) {secret : Felt252}
    (confirmed : confirmedSecret (W := W) (.performed task op response) = some secret) :
    secret ∈ after.files.secrets := by
  cases op with
  | confirmDeposit request =>
      obtain ⟨before, result⟩ := response
      obtain ⟨-, ⟨-, error, refused⟩ | ⟨state, recorded, rfl, accepted⟩⟩ :=
        execute_deposit executed
      · cases refused
        cases confirmed
      · cases accepted
        cases confirmed
        exact mem_secrets.mpr (Or.inl ⟨state, rfl, records _ _ _ recorded⟩)
  | _ => cases confirmed

theorem secretsHeld_preserved (D : Discipline (daemon W)) (records : RecordsDeposits W)
    (initially : StateDir) : D.Inductive (SecretsHeld (W := W) initially) where
  started _ _ _ _ held := held.same rfl rfl
  performed := by
    intro world trace task call op answer response after running started allowed executed _ held
    have executed : execute W task op answer world = some (response, after) := executed
    apply held.cons
    · apply (execute_keeps executed).mono
      rintro secret ⟨event, member, drops⟩
      cases List.mem_singleton.mp member
      exact ⟨_, List.mem_cons_self, drops⟩
    · intro secret confirmed
      exact confirmed_recorded records executed confirmed
  returned _ _ _ _ _ held := held.same rfl rfl
  aborted _ _ held := held.same rfl rfl
  moved changed _ held := by
    rcases move_shape changed with ⟨_, rfl⟩ | ⟨_, _, _, rfl⟩ <;> exact held.same rfl rfl
  restarted := by
    rintro world trace after _ ⟨⟩ _ held
    exact held.same rfl rfl

variable {config : AuthConfig} {files : StateDir} {now : UInt64} {vault : Vault}
  {last : State (daemon W)}

/-- In every run the secret of every note that the wallet had or was confirmed is
still held by a file, or a reset has removed its only state without having archived
it, or has archived a note of the same id in its place, or a deposit that was confirmed
while its note was active has taken its place. -/
theorem secrets_held_or_dropped (records : RecordsDeposits W)
    (run : (State.initial (daemon W) (World.started config files now vault)).Reaches last)
    {secret : Felt252} (confirmed : secret ∈ files.secrets ∨
      ∃ event ∈ last.trace, confirmedSecret event = some secret) :
    secret ∈ last.world.files.secrets ∨ Dropped last.trace secret := by
  have held : SecretsHeld files last.world last.trace :=
    (secretsHeld_preserved (guardDiscipline W) records files).holds
      (fun secret initially => Or.inl (initially.resolve_right (by rintro ⟨_, ⟨⟩, _⟩))) run
  exact held secret confirmed

theorem reference_records : RecordsDeposits Reference.wallet := by
  intro note request state confirmed
  cases note with
  | none =>
      cases confirmed
      rfl
  | some note => cases confirmed

/-- A reset of which every step succeeds, and a deposit after it. -/
def depositAfterReset : List (Action (daemon Reference.wallet)) :=
  .start .resetWallet :: Reference.advances 0 [.resets Reference.wholeReset, .plain, .plain] ++
    [.start (.confirmDeposit ⟨⟨200⟩, 8, 50, 99⟩), .advance 1 .plain]

theorem secrets_held_or_dropped_afterReset :
    ∃ last, (State.initial (daemon Reference.wallet) (Reference.started .proxy)).Reaches last ∧
      last.world.files.noteState = some Reference.newNote ∧
      (⟨100⟩ ∈ last.world.files.secrets ∨ Dropped last.trace ⟨100⟩) := by
  have reached : ∃ last,
      (State.initial (daemon Reference.wallet) (Reference.started .proxy)).Reaches last ∧
        last.world.files.noteState = some Reference.newNote :=
    State.reaches_of_decide depositAfterReset (by decide)
  obtain ⟨last, run, active⟩ := reached
  have held : ⟨100⟩ ∈ Reference.files.secrets := by decide
  exact ⟨last, run, active, secrets_held_or_dropped reference_records run (Or.inl held)⟩

/-- A confirmed deposit, and a reset that cannot archive its note. -/
def unarchivedReset : List (Action (daemon Reference.wallet)) :=
  [.start (.confirmDeposit ⟨⟨200⟩, 8, 50, 99⟩), .advance 0 .plain, .start .resetWallet] ++
    Reference.advances 1 [.resets ⟨true, false, true, true, true, .ok ()⟩, .plain, .plain]

theorem confirmed_secret_lost :
    ∃ last, (State.initial (daemon Reference.wallet) (World.started (Reference.config .proxy)
        ⟨none, none, none, [], []⟩ 10 Reference.vault)).Reaches last ∧
      (∃ event ∈ last.trace, confirmedSecret event = some ⟨200⟩) ∧
      ⟨200⟩ ∉ last.world.files.secrets :=
  State.reaches_of_decide unarchivedReset (by decide)

/-- Two notes with the same id and other secrets, one after the other. -/
def archivedTwice : List (Action (daemon Reference.wallet)) :=
  [.start (.confirmDeposit ⟨⟨200⟩, 8, 50, 99⟩), .advance 0 .plain, .start .resetWallet] ++
    Reference.advances 1 [.resets Reference.wholeReset, .plain, .plain] ++
    [.start (.confirmDeposit ⟨⟨300⟩, 8, 50, 99⟩), .advance 2 .plain, .start .resetWallet] ++
    Reference.advances 3 [.resets Reference.wholeReset, .plain, .plain]

/-- An archive under an id takes the place of another secret. -/
theorem archived_secret_lost :
    ∃ last, (State.initial (daemon Reference.wallet) (World.started (Reference.config .proxy)
        ⟨none, none, none, [], []⟩ 10 Reference.vault)).Reaches last ∧
      (∃ event ∈ last.trace, confirmedSecret event = some ⟨200⟩) ∧
      ⟨200⟩ ∉ last.world.files.secrets :=
  State.reaches_of_decide archivedTwice (by decide)

/-- A wallet that takes every deposit. -/
def overwritingWallet : WalletFunctions :=
  { Reference.wallet with
    confirmDeposit := fun _ request =>
      .ok ⟨request.noteId, request.secret, request.amount, Felt252.zero⟩ }

/-- A deposit that is confirmed while another note is active takes its place. -/
theorem replaced_secret_lost :
    ∃ last, (State.initial (daemon overwritingWallet) (World.started (Reference.config .proxy)
        ⟨none, none, none, [], []⟩ 10 Reference.vault)).Reaches last ∧
      (∃ event ∈ last.trace, confirmedSecret event = some ⟨200⟩) ∧
      ⟨200⟩ ∉ last.world.files.secrets :=
  State.reaches_of_decide [.start (.confirmDeposit ⟨⟨200⟩, 8, 50, 99⟩), .advance 0 .plain,
    .start (.confirmDeposit ⟨⟨300⟩, 9, 50, 99⟩), .advance 1 .plain] (by decide)

end Runs

end ZkApi.Clientd
