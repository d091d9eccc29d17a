import ZkApi.GuardDiscipline

/-!
# The discipline of resets

A confirmation and the command line reset the wallet after they have read its
note and have seen that note closed in the vault.
-/

namespace ZkApi.Clientd

open Interleaving Program

/-- The calls that reset the wallet after they have seen a note closed. -/
def Call.closesNote : Call → Bool
  | .confirmWithdrawal | .runManagedWithdrawal _ _ _ | .finalizeEscapeWithdrawal _ _ => true
  | _ => false

/-- The note that the task has read, until it resets the wallet. -/
def noteRead : History Resp → Option UInt32
  | [] => none
  | ⟨.status, .ok wallet⟩ :: _ => wallet.note.map NoteState.noteId
  | ⟨.resetFiles, _⟩ :: _ => none
  | _ :: history => noteRead history

/-- The task has seen the note closed. -/
def ClosedSeen (history : History Resp) (noteId : UInt32) : Prop :=
  Saw history (.vaultNotes noteId) (.ok 3) ∨ Saw history (.readNoteStatus noteId) (.ok 3) ∨
    Saw history (.awaitNoteStatus noteId 3) (.ok ())

instance (history : History Resp) (noteId : UInt32) : Decidable (ClosedSeen history noteId) :=
  inferInstanceAs (Decidable ((⟨.vaultNotes noteId, .ok 3⟩ : (op : Op) × Resp op) ∈ history ∨
    (⟨.readNoteStatus noteId, .ok 3⟩ : (op : Op) × Resp op) ∈ history ∨
    (⟨.awaitNoteStatus noteId 3, .ok ()⟩ : (op : Op) × Resp op) ∈ history))

/-- The task has read a note and has seen it closed. -/
def Ready (history : History Resp) : Prop :=
  ∃ noteId, noteRead history = some noteId ∧ ClosedSeen history noteId

def ResetAllowed (call : Call) (history : History Resp) (op : Op) : Prop :=
  op = .resetFiles → call = .resetWallet ∨ call.closesNote = true ∧ Ready history

def Op.isKeeping : Op → Bool
  | .resetFiles => false
  | _ => true

/-- The steps that neither read nor reset the note. -/
def Op.isBlind : Op → Bool
  | .status | .resetFiles => false
  | _ => true

section Steps

variable {call : Call} {history : History Resp} {op : Op} {response : Resp op} {noteId : UInt32}

theorem ClosedSeen.cons (seen : ClosedSeen history noteId) :
    ClosedSeen (⟨op, response⟩ :: history) noteId := by
  have grows := List.suffix_cons (⟨op, response⟩ : (op : Op) × Resp op) history
  rcases seen with vault | read | awaited
  · exact Or.inl (vault.mono grows)
  · exact Or.inr (Or.inl (read.mono grows))
  · exact Or.inr (Or.inr (awaited.mono grows))

theorem noteRead_blind (blind : op.isBlind = true) :
    noteRead (⟨op, response⟩ :: history) = noteRead history := by
  cases op <;> first
    | rfl
    | cases blind

theorem Ready.cons (ready : Ready history) (blind : op.isBlind = true) :
    Ready (⟨op, response⟩ :: history) := by
  obtain ⟨noteId, read, closed⟩ := ready
  exact ⟨noteId, (noteRead_blind blind).trans read, closed.cons⟩

theorem resetAllowed_of_isKeeping (keeps : op.isKeeping = true) :
    ResetAllowed call history op := by
  rintro rfl
  cases keeps

end Steps

section Kinds

theorem isKeeping_of_isServing (op : Op) (holds : op.isServing = true) :
    op.isKeeping = true := by
  cases op <;> first | rfl | cases holds

theorem isKeeping_of_isSettling (op : Op) (holds : op.isSettling = true) :
    op.isKeeping = true := by
  cases op <;> first | rfl | cases holds

theorem isKeeping_of_isReconciling (op : Op) (holds : op.isReconciling = true) :
    op.isKeeping = true := by
  cases op <;> first | rfl | cases holds

theorem isKeeping_of_isWithdrawing (op : Op) (holds : op.isWithdrawing = true) :
    op.isKeeping = true := by
  cases op <;> first | rfl | cases holds

theorem isBlind_of_isWithdrawing (op : Op) (holds : op.isWithdrawing = true) :
    op.isBlind = true := by
  cases op <;> first | rfl | cases holds

end Kinds

section Programs

variable {W : WalletFunctions} {config : AuthConfig} {call : Call} {history : History Resp}
  {α : Type}

abbrev ResetFollows (call : Call) (program : Handler α) (history : History Resp)
    (returns : History Resp → α → Prop) : Prop :=
  program.Follows (ResetAllowed call) returns (fun _ _ => True) history

theorem reset_keeping {program : Handler α} (only : program.Only Op.isKeeping) :
    ResetFollows call program history fun _ _ => True := by
  apply only.follows (fun _ => True) trivial
  · exact fun _ _ _ keeps => ⟨resetAllowed_of_isKeeping keeps, fun _ => trivial⟩
  · exact fun _ _ _ => trivial
  · exact fun _ _ _ => trivial

/-- A program that reads no note keeps what the task knows. -/
theorem reset_blind {program : Handler α} {known : History Resp → Prop} (initially : known history)
    (only : program.Only Op.isBlind)
    (kept : ∀ reached (op : Op) (response : Resp op), known reached → op.isBlind = true →
      known (⟨op, response⟩ :: reached)) :
    ResetFollows call program history fun reached _ => known reached := by
  apply only.follows known initially
  · intro reached op held blind
    constructor
    · rintro rfl
      cases blind
    · exact fun response => kept reached op response held blind
  · exact fun _ _ held => held
  · exact fun _ _ _ => trivial

theorem reset_status {next : WalletStatus → Handler α} {returns : History Resp → α → Prop}
    (goesOn : ∀ wallet, noteRead (⟨.status, .ok wallet⟩ :: history) =
      wallet.note.map NoteState.noteId →
        ResetFollows call (next wallet) (⟨.status, .ok wallet⟩ :: history) returns) :
    ResetFollows call (status >>= next) history returns := by
  rw [ResetFollows, follows_bind]
  unfold status
  rw [follows_call_bind]
  refine ⟨nofun, fun response => ?_⟩
  rw [follows_lift]
  constructor
  · rintro wallet rfl
    exact goesOn wallet rfl
  · exact fun _ _ => trivial

/-- A task that may reset the wallet does so once, and goes on without it. -/
theorem reset_resetWallet (ready : call = .resetWallet ∨ call.closesNote = true ∧ Ready history) :
    ResetFollows call resetWallet history fun _ _ => True := by
  unfold resetWallet
  rw [ResetFollows, follows_call_bind]
  refine ⟨fun _ => ready, fun reply => ?_⟩
  apply reset_keeping
  apply (only_lift _).bind
  intro wallet
  apply (only_call rfl).bind
  intro dropped
  exact (only_call rfl).bind fun _ => .ret _

theorem reset_onchainWithdrawalStatus (noteId : UInt32) (read : noteRead history = some noteId) :
    ResetFollows call (onchainWithdrawalStatus noteId) history fun reached found =>
      noteRead reached = some noteId ∧ (found.1 = "closed" → ClosedSeen reached noteId) := by
  unfold onchainWithdrawalStatus
  rw [ResetFollows, follows_call_bind]
  refine ⟨nofun, fun response => ?_⟩
  rw [follows_bind, follows_lift]
  constructor
  · rintro rawStatus rfl
    split
    · exact ⟨read, fun closed => absurd closed (by decide)⟩
    · split
      · rw [follows_call_bind]
        refine ⟨nofun, fun pending => ?_⟩
        rw [follows_bind, follows_lift]
        refine ⟨?_, fun _ _ => trivial⟩
        intro deadline _
        have other : "pending_withdrawal" ≠ "closed" := by decide
        exact ⟨read, fun closed => (other closed).elim⟩
      · split
        · rename_i three
          subst three
          exact ⟨read, fun _ => Or.inl (by simp)⟩
        · split <;> trivial
  · exact fun _ _ => trivial

theorem reset_confirmWithdrawal (closes : call.closesNote = true) :
    ResetFollows call confirmWithdrawal [] fun _ _ => True := by
  unfold confirmWithdrawal
  apply reset_status
  intro wallet read
  cases found : wallet.note with
  | none => trivial
  | some note =>
      rw [found] at read
      dsimp only
      rw [ResetFollows, follows_bind]
      apply (reset_onchainWithdrawalStatus note.noteId read).weaken
      · rintro reached ⟨chainStatus, challengeDeadline⟩ _ ⟨read, closed⟩
        dsimp only
        split
        · rename_i isClosed
          have ready : Ready reached := ⟨note.noteId, read, closed isClosed⟩
          rw [follows_call_bind]
          refine ⟨nofun, fun dropped => ?_⟩
          rw [follows_call_bind]
          refine ⟨nofun, fun emptied => ?_⟩
          rw [follows_bind]
          exact reset_resetWallet (Or.inr ⟨closes, (ready.cons rfl).cons rfl⟩)
        · split
          · rw [follows_bind]
            exact reset_keeping (only_dropEscapePlan.mono isKeeping_of_isWithdrawing)
          · trivial
      · exact fun _ _ _ _ => trivial

/-- What is left over of a settlement was read last. -/
def ReadLast (history : History Resp) (wallet : WalletStatus) : Prop :=
  noteRead history = wallet.note.map NoteState.noteId

theorem reset_settlePendingLease :
    ResetFollows call settlePendingLease history fun reached settled =>
      ∀ wallet, settled = some wallet → ReadLast reached wallet := by
  unfold settlePendingLease
  rw [ResetFollows, follows_bind]
  apply (reset_keeping (only_prepare rfl)).weaken
  · intro reached request _ _
    rw [follows_bind]
    apply (reset_keeping ((only_findLease _ _).mono isKeeping_of_isSettling)).weaken
    · intro reached lease _ _
      have unsettled : ∀ {program : Handler Unit}, program.Only Op.isKeeping →
          ResetFollows call (program >>= fun _ => return none) reached fun reached settled =>
            ∀ wallet, settled = some wallet → ReadLast reached wallet := by
        intro program only
        rw [ResetFollows, follows_bind]
        exact (reset_keeping only).weaken (fun _ _ _ _ => nofun) fun _ _ _ _ => trivial
      cases lease with
      | none =>
          dsimp only
          rw [follows_bind]
          apply (reset_keeping (only_clear rfl)).weaken
          · intro reached cleared _ _
            apply reset_status
            intro wallet read
            split
            · trivial
            · rintro other same
              cases same
              exact read
          · exact fun _ _ _ _ => trivial
      | some lease =>
          dsimp only
          split
          · exact unsettled ((only_retire _).mono fun op holds =>
              isKeeping_of_isSettling op (isSettling_of_isRetiring op holds))
          · split
            · rw [follows_bind]
              apply (reset_keeping (only_recover rfl)).weaken
              · intro reached recovered _ _
                split
                · trivial
                · exact nofun
              · exact fun _ _ _ _ => trivial
            · trivial
    · exact fun _ _ _ _ => trivial
  · exact fun _ _ _ _ => trivial

theorem reset_settleOpenRequest :
    ResetFollows call (settleOpenRequest config) history fun reached settled =>
      ∀ wallet, settled = some wallet → ReadLast reached wallet := by
  unfold settleOpenRequest
  cases config.requestMode with
  | proxy =>
      apply reset_status
      intro wallet read
      split
      · rw [ResetFollows, follows_bind]
        apply (reset_keeping (only_recover rfl)).weaken
        · intro reached recovered _ _
          split
          · trivial
          · exact nofun
        · exact fun _ _ _ _ => trivial
      · exact nofun
  | directOpenrouter =>
      dsimp only
      rw [ResetFollows, follows_call_bind]
      refine ⟨nofun, fun slot => ?_⟩
      cases slot with
      | some lease =>
          rw [follows_bind]
          apply (reset_keeping ((only_retire _).mono fun op holds =>
            isKeeping_of_isSettling op (isSettling_of_isRetiring op holds))).weaken
          · exact fun _ _ _ _ => nofun
          · exact fun _ _ _ _ => trivial
      | none =>
          apply reset_status
          intro wallet read
          split
          · exact reset_settlePendingLease
          · exact nofun

theorem reset_settleForWithdrawal :
    ResetFollows call (settleForWithdrawal config) history ReadLast := by
  unfold settleForWithdrawal
  rw [ResetFollows, follows_call_bind]
  refine ⟨nofun, fun _ => ?_⟩
  rw [follows_bind]
  apply reset_settleOpenRequest.weaken
  · intro reached settled _ read
    cases settled with
    | some wallet =>
        rw [follows_call_bind]
        exact ⟨nofun, fun _ => read wallet rfl⟩
    | none =>
        apply reset_status
        intro wallet read
        split
        · trivial
        · rw [ResetFollows, follows_call_bind]
          exact ⟨nofun, fun _ => read⟩
  · exact fun _ _ _ _ => trivial

theorem reset_managedWithdrawal (closes : call.closesNote = true) (mode : WithdrawalMode)
    (destination : Address) (dryRun : Bool) :
    ResetFollows call (runManagedWithdrawal config mode destination dryRun) []
      fun _ _ => True := by
  unfold runManagedWithdrawal
  rw [ResetFollows, follows_bind]
  apply reset_settleForWithdrawal.weaken
  · intro reached settled _ read
    unfold ReadLast at read
    cases found : settled.note with
    | none => trivial
    | some localNote =>
        rw [found] at read
        dsimp only
        rw [follows_bind, follows_require]
        refine ⟨fun _ => ?_, fun _ => trivial⟩
        rw [follows_bind]
        have creates := (only_createWithdrawal config mode destination).mono
          isBlind_of_isWithdrawing
        have kept : ∀ reached (op : Op) (response : Resp op),
            noteRead reached = some localNote.noteId → op.isBlind = true →
              noteRead (⟨op, response⟩ :: reached) = some localNote.noteId :=
          fun _ _ _ held blind => (noteRead_blind blind).trans held
        apply (reset_blind read creates kept).weaken
        · intro reached plan _ read
          rw [follows_bind, follows_require]
          refine ⟨fun _ => ?_, fun _ => trivial⟩
          rw [follows_bind, follows_require]
          refine ⟨fun _ => ?_, fun _ => trivial⟩
          rw [follows_bind, follows_require]
          refine ⟨fun sameNote => ?_, fun _ => trivial⟩
          rw [follows_call_bind]
          refine ⟨resetAllowed_of_isKeeping rfl, fun submitted => ?_⟩
          rw [follows_bind, follows_lift]
          refine ⟨fun _ _ => ?_, fun _ _ => trivial⟩
          split
          · trivial
          · split
            · rw [follows_call_bind]
              refine ⟨resetAllowed_of_isKeeping rfl, fun awaited => ?_⟩
              rw [follows_bind, follows_lift]
              refine ⟨?_, fun _ _ => trivial⟩
              rintro ⟨⟩ rfl
              rw [follows_bind]
              have ready : Ready (⟨.awaitNoteStatus plan.publicInputs.noteId 3, .ok ()⟩ ::
                  ⟨.submitWithdrawal plan dryRun, submitted⟩ :: reached) := by
                refine ⟨localNote.noteId, read, ?_⟩
                rw [sameNote]
                exact Or.inr (Or.inr (by simp))
              apply (reset_resetWallet (Or.inr ⟨closes, ready⟩)).weaken
              · intro reached wallet _ _
                rw [follows_require]
                exact ⟨fun _ => trivial, fun _ => trivial⟩
              · exact fun _ _ _ _ => trivial
            · exact reset_keeping (only_lift_call rfl)
        · exact fun _ _ _ _ => trivial
  · exact fun _ _ _ _ => trivial

theorem reset_resetClosedNote (closes : call.closesNote = true) {localNoteId : Option UInt32}
    {noteId : UInt32} (read : noteRead history = localNoteId) (closed : ClosedSeen history noteId) :
    ResetFollows call (resetClosedNote localNoteId noteId) history fun _ _ => True := by
  unfold resetClosedNote
  split
  · rename_i same
    rw [ResetFollows, follows_bind]
    apply (reset_resetWallet (Or.inr ⟨closes, noteId, read.trans same, closed⟩)).weaken
    · intro reached wallet _ _
      rw [follows_require]
      exact ⟨fun _ => trivial, fun _ => trivial⟩
    · exact fun _ _ _ _ => trivial
  · trivial

theorem reset_finalizeEscapeWithdrawal (closes : call.closesNote = true)
    (requested : Option UInt32) (dryRun : Bool) :
    ResetFollows call (finalizeEscapeWithdrawal requested dryRun) [] fun _ _ => True := by
  unfold finalizeEscapeWithdrawal
  apply reset_status
  intro wallet read
  dsimp only
  split
  · trivial
  · rename_i noteId _
    rw [ResetFollows, follows_bind, follows_require]
    refine ⟨fun _ => ?_, fun _ => trivial⟩
    rw [follows_call_bind]
    refine ⟨nofun, fun current => ?_⟩
    rw [follows_bind, follows_lift]
    constructor
    · rintro current rfl
      split
      · rw [follows_call_bind]
        refine ⟨nofun, fun finalized => ?_⟩
        rw [follows_bind, follows_lift]
        refine ⟨fun _ _ => ?_, fun _ _ => trivial⟩
        split
        · trivial
        · rw [follows_call_bind]
          refine ⟨nofun, fun awaited => ?_⟩
          rw [follows_bind, follows_lift]
          refine ⟨?_, fun _ _ => trivial⟩
          rintro ⟨⟩ rfl
          exact reset_resetClosedNote closes read (Or.inr (Or.inr (by simp)))
      · split
        · rename_i three
          subst three
          split
          · trivial
          · exact reset_resetClosedNote closes read (Or.inr (Or.inl (by simp)))
        · trivial
    · exact fun _ _ => trivial

theorem reset_handler (config : AuthConfig) (call : Call) :
    ResetFollows call (handler W config call) [] fun _ _ => True := by
  cases call with
  | status => exact reset_keeping (only_status rfl)
  | retireLowBalanceNote => exact reset_keeping (only_lift_call rfl)
  | confirmDeposit request => exact reset_keeping (only_lift_call rfl)
  | recover => exact reset_keeping (only_recover rfl)
  | settleForWithdrawal =>
      exact reset_settleForWithdrawal.weaken (fun _ _ _ _ => trivial) fun _ _ _ _ => trivial
  | resetWallet => exact reset_resetWallet (Or.inl rfl)
  | executeRequest request sessionId =>
      exact reset_keeping ((only_executeRequest W config _ _).mono isKeeping_of_isServing)
  | executeStreamingRequest request sessionId =>
      exact reset_keeping ((only_executeStreamingRequest W config _ _).mono isKeeping_of_isServing)
  | requestSubmit request =>
      exact reset_keeping ((only_requestSubmit _).mono isKeeping_of_isServing)
  | createWithdrawal mode destination =>
      exact reset_keeping ((only_createWithdrawal config _ _).mono isKeeping_of_isWithdrawing)
  | confirmWithdrawal => exact reset_confirmWithdrawal rfl
  | reconcileDirectOpenrouter =>
      exact reset_keeping ((only_reconcile config).mono isKeeping_of_isReconciling)
  | runManagedWithdrawal mode destination dryRun =>
      exact reset_managedWithdrawal rfl mode destination dryRun
  | finalizeEscapeWithdrawal noteId dryRun =>
      exact reset_finalizeEscapeWithdrawal rfl noteId dryRun

end Programs

/-- The discipline of resets. -/
def resetDiscipline (W : WalletFunctions) : Discipline (daemon W) :=
  (guardDiscipline W).restate (fun _ call history op => ResetAllowed call history op)
    (fun _ _ _ _ => True) fun config call => reset_handler config call

end ZkApi.Clientd
