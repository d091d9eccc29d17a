import ZkApi.DaemonEffects
import ZkApi.DaemonPrograms

/-!
# The discipline of the prepared-withdrawal guard

A route sends a request only after its guard has found no plan, if it has a
guard, or to settle what it has found pending.  A withdrawal proof is produced
under the lock of the plan and stored before anything else happens.
-/

namespace ZkApi.Clientd

open Interleaving Program

/-- The routes that check for a prepared withdrawal. -/
def Call.isGuarded : Call → Bool
  | .executeRequest _ _ | .executeStreamingRequest _ _ => true
  | _ => false

/-- The calls that settle what is pending. -/
def Call.settles : Call → Bool
  | .settleForWithdrawal | .runManagedWithdrawal _ _ _ => true
  | _ => false

/-- The calls that produce withdrawal proofs. -/
def Call.withdraws : Call → Bool
  | .createWithdrawal _ _ | .runManagedWithdrawal _ _ _ => true
  | _ => false

/-- The calls that execute a request without a guard. -/
def Call.submits : Call → Bool
  | .requestSubmit _ => true
  | _ => false

/-- The task may execute requests. -/
def Admitted (call : Call) (history : History Resp) : Prop :=
  call.submits = true ∨ call.isGuarded = true ∧ Saw history .readPrepared none

/-- The response shows that there is something to settle. -/
def isUnsettled : (op : Op) × Resp op → Bool
  | ⟨.takeSlot, some _⟩ => true
  | ⟨.status, .ok wallet⟩ => wallet.pendingRequest
  | _ => false

/-- The task has found something to settle, and has not turned to a withdrawal. -/
def Settling (call : Call) (history : History Resp) : Prop :=
  call.settles = true ∧ (∀ entry ∈ history, entry.1 ≠ .lockPrepared) ∧
    ∃ entry ∈ history, isUnsettled entry = true

def Engaged (call : Call) (history : History Resp) : Prop :=
  Admitted call history ∨ Settling call history

instance (call : Call) (history : History Resp) : Decidable (Engaged call history) :=
  have : Decidable (Admitted call history) :=
    inferInstanceAs
      (Decidable (_ ∨ _ ∧ (⟨.readPrepared, none⟩ : (op : Op) × Resp op) ∈ history))
  have : Decidable (Settling call history) := inferInstanceAs (Decidable (_ ∧ _ ∧ _))
  inferInstanceAs (Decidable (_ ∨ _))

instance (call : Call) (history : History Resp) : Decidable (Settling call history) :=
  inferInstanceAs (Decidable (_ ∧ _ ∧ _))

/-- The task holds the lock of the plan. -/
def holdsPrepared : History Resp → Bool
  | [] => false
  | ⟨.lockPrepared, _⟩ :: _ => true
  | ⟨.unlockPrepared, _⟩ :: _ => false
  | _ :: history => holdsPrepared history

/-- The plan in memory, as far as the task knows it. -/
def planSeen : History Resp → Option WithdrawalPlan
  | [] => none
  | ⟨.lockPrepared, plan⟩ :: _ => plan
  | ⟨.setPrepared plan, _⟩ :: _ => plan
  | _ :: history => planSeen history

/-- The plan that the task has just received, before it is stored. -/
def produced : History Resp → Option WithdrawalPlan
  | ⟨.withdraw _ _, ⟨_, .ok plan⟩⟩ :: _ => some plan
  | _ => none

def GuardAllowed (call : Call) (history : History Resp) (op : Op) : Prop :=
  (∀ plan, produced history = some plan → op = .setPrepared (some plan)) ∧
    match op with
    | .readPrepared => call.isGuarded = true
    | .requestFlow _ | .postLease _ => Admitted call history
    | .retireLease _ _ => Engaged call history
    | .lockPrepared => holdsPrepared history = false
    | .withdraw _ _ => holdsPrepared history = true ∧ call.withdraws = true
    | .setPrepared (some plan) => produced history = some plan
    | .setPrepared none => holdsPrepared history = true ∧
        (planSeen history).map WithdrawalPlan.mode = some .escape
    | .takeSlot => call.settles = true
    | _ => True

section Phases

variable {call : Call} {history : History Resp} {op : Op} {response : Resp op}

theorem produced_cons (others : ∀ mode destination, op ≠ .withdraw mode destination) :
    produced (⟨op, response⟩ :: history) = none := by
  cases op <;> first
    | rfl
    | exact absurd rfl (others _ _)

theorem holdsPrepared_cons (locks : op ≠ .lockPrepared) (unlocks : op ≠ .unlockPrepared) :
    holdsPrepared (⟨op, response⟩ :: history) = holdsPrepared history := by
  cases op <;> first
    | rfl
    | exact absurd rfl locks
    | exact absurd rfl unlocks

theorem Admitted.cons (admitted : Admitted call history) :
    Admitted call (⟨op, response⟩ :: history) := by
  rcases admitted with submits | ⟨guarded, passed⟩
  · exact Or.inl submits
  · exact Or.inr ⟨guarded, passed.mono (List.suffix_cons _ _)⟩

theorem Settling.cons (settling : Settling call history) (other : op ≠ .lockPrepared) :
    Settling call (⟨op, response⟩ :: history) := by
  obtain ⟨settles, unlocked, entry, member, unsettled⟩ := settling
  refine ⟨settles, ?_, entry, List.mem_cons_of_mem _ member, unsettled⟩
  intro entry member
  rcases List.mem_cons.mp member with rfl | earlier
  · exact other
  · exact unlocked entry earlier

theorem Engaged.cons (engaged : Engaged call history) (other : op ≠ .lockPrepared) :
    Engaged call (⟨op, response⟩ :: history) :=
  engaged.imp Admitted.cons fun settling => settling.cons other

end Phases

section Programs

variable {call : Call} {history : History Resp} {α : Type}

/-- What the guard asks of a program that neither fails nor ends with a plan that
it has not stored. -/
abbrev GuardFollows (call : Call) (program : Handler α) (history : History Resp)
    (returns : History Resp → α → Prop) : Prop :=
  program.Follows (GuardAllowed call) returns (fun reached _ => produced reached = none) history

/-- Nothing of a withdrawal has been touched, and the lock is as it was. -/
def Untouched (holds : Bool) (history : History Resp) : Prop :=
  produced history = none ∧ holdsPrepared history = holds

theorem guard_plain {program : Handler α} {holds : Bool} (only : program.Only Op.isPlain)
    (untouched : Untouched holds history) :
    GuardFollows call program history fun reached _ => Untouched holds reached := by
  apply only.follows (Untouched holds) untouched
  · intro reached op kept plain
    constructor
    · constructor
      · intro plan new
        rw [kept.1] at new
        cases new
      · cases op <;> trivial
    · intro response
      constructor
      · apply produced_cons
        rintro mode destination rfl
        cases plain
      · rw [holdsPrepared_cons _ _, kept.2]
        · rintro rfl
          cases plain
        · rintro rfl
          cases plain
  · exact fun _ _ kept => kept
  · exact fun _ _ kept => kept.1

/-- Once a task is admitted, it may take every step of executing requests. -/
theorem guard_executing {program : Handler α} (only : program.Only Op.isExecuting)
    (admitted : Admitted call history) (unproduced : produced history = none) :
    GuardFollows call program history fun reached _ => produced reached = none := by
  apply only.follows (fun reached => Admitted call reached ∧ produced reached = none)
    ⟨admitted, unproduced⟩
  · intro reached op kept executing
    constructor
    · constructor
      · intro plan new
        rw [kept.2] at new
        cases new
      · cases op <;> first
          | trivial
          | exact kept.1
          | exact Or.inl kept.1
    · intro response
      refine ⟨kept.1.cons, ?_⟩
      apply produced_cons
      rintro mode destination rfl
      cases executing
  · exact fun _ _ kept => kept.2
  · exact fun _ _ kept => kept.2

/-- What a settlement keeps while it runs. -/
def Unlocked (history : History Resp) : Prop :=
  Untouched false history ∧ ∀ entry ∈ history, entry.1 ≠ .lockPrepared

theorem Unlocked.cons {op : Op} {response : Resp op} (unlocked : Unlocked history)
    (settles : op.isSettling = true) : Unlocked (⟨op, response⟩ :: history) := by
  obtain ⟨⟨unproduced, free⟩, unseen⟩ := unlocked
  refine ⟨⟨?_, ?_⟩, ?_⟩
  · apply produced_cons
    rintro mode destination rfl
    cases settles
  · rw [holdsPrepared_cons _ _, free]
    · rintro rfl
      cases settles
    · rintro rfl
      cases settles
  · intro entry member
    rcases List.mem_cons.mp member with rfl | earlier
    · rintro rfl
      cases settles
    · exact unseen entry earlier

/-- Once a task has found something to settle, it may take every step of a
settlement. -/
theorem guard_settling {program : Handler α} (only : program.Only Op.isSettling)
    (settling : Settling call history) (unlocked : Unlocked history) :
    GuardFollows call program history fun reached _ => Unlocked reached := by
  apply only.follows (fun reached => Settling call reached ∧ Unlocked reached)
    ⟨settling, unlocked⟩
  · intro reached op kept settles
    constructor
    · constructor
      · intro plan new
        rw [kept.2.1.1] at new
        cases new
      · cases op <;> first
          | trivial
          | exact Or.inr kept.1
          | exact kept.1.1
    · intro response
      have other : op ≠ .lockPrepared := by
        rintro rfl
        cases settles
      exact ⟨kept.1.cons other, kept.2.cons settles⟩
  · exact fun _ _ kept => kept.2
  · exact fun _ _ kept => kept.2.1.1

end Programs

section Handlers

variable {W : WalletFunctions} {config : AuthConfig} {history : History Resp} {α : Type}

theorem guard_check {call : Call} {rest : Handler α} (guarded : call.isGuarded = true)
    {returns : History Resp → α → Prop}
    (admits : ∀ reached, Admitted call reached → produced reached = none →
      GuardFollows call rest reached returns) :
    GuardFollows call (checkPreparedWithdrawal >>= fun _ => rest) [] returns := by
  unfold checkPreparedWithdrawal
  rw [GuardFollows, follows_bind, follows_bind]
  refine ⟨⟨nofun, guarded⟩, fun prepared => ?_⟩
  cases prepared with
  | none => exact admits _ (Or.inr ⟨guarded, by simp⟩) rfl
  | some plan => exact rfl

theorem guard_executeRequest (call : Call) (guarded : call.isGuarded = true)
    (request : CoreRequest) (sessionId : Option String) :
    GuardFollows call (executeRequestInSession W config request sessionId) []
      fun reached _ => produced reached = none := by
  apply guard_check guarded
  intro reached admitted unproduced
  cases config.requestMode with
  | proxy => exact guard_executing (only_executeRequestDemo _) admitted unproduced
  | directOpenrouter =>
      apply guard_executing _ admitted unproduced
      exact (only_lift _).bind fun _ => only_executeDirect _ _ _ _

theorem guard_executeStreaming (call : Call) (guarded : call.isGuarded = true)
    (request : CoreRequest) (sessionId : Option String) :
    GuardFollows call (executeStreamingRequestInSession W config request sessionId) []
      fun reached _ => produced reached = none := by
  apply guard_check guarded
  intro reached admitted unproduced
  cases config.requestMode with
  | proxy => exact unproduced
  | directOpenrouter =>
      apply guard_executing _ admitted unproduced
      exact (only_lift _).bind fun _ => only_executeDirectStreaming _ _ _ _

theorem guard_prepareWithdrawal {call : Call} (withdraws : call.withdraws = true)
    (mode : WithdrawalMode) (destination : Address) (locked : Untouched true history) :
    GuardFollows call (prepareWithdrawal config mode destination) history
      fun reached _ => produced reached = none := by
  unfold prepareWithdrawal
  rw [GuardFollows, follows_bind]
  apply (guard_plain ((only_reconcile config).mono isPlain_of_isReconciling) locked).weaken
  · intro reached value _ locked
    rw [follows_call_bind]
    refine ⟨⟨?_, trivial⟩, fun slot => ?_⟩
    · intro plan new
      rw [locked.1] at new
      cases new
    cases slot with
    | some lease => exact rfl
    | none =>
        dsimp only
        rw [follows_call_bind]
        refine ⟨⟨nofun, locked.2, withdraws⟩, fun reply => ?_⟩
        rw [follows_bind, follows_lift]
        obtain ⟨reserved, result⟩ := reply
        constructor
        · intro plan received
          cases received
          rw [follows_call_bind]
          refine ⟨⟨?_, rfl⟩, fun _ => ?_⟩
          · intro other new
            cases new
            rfl
          rw [follows_call_bind]
          refine ⟨⟨nofun, trivial⟩, fun stored => ?_⟩
          rw [follows_bind, follows_lift]
          refine ⟨fun _ _ => ?_, fun _ _ => rfl⟩
          rw [follows_call_bind]
          exact ⟨⟨nofun, trivial⟩, fun _ => rfl⟩
        · intro error received
          cases received
          rfl
  · intro reached error _ unproduced
    exact unproduced

theorem guard_createWithdrawal {call : Call} (withdraws : call.withdraws = true)
    (mode : WithdrawalMode) (destination : Address) (untouched : Untouched false history) :
    GuardFollows call (createWithdrawal config mode destination) history
      fun reached _ => produced reached = none := by
  unfold createWithdrawal
  rw [GuardFollows, follows_call_bind]
  refine ⟨⟨?_, untouched.2⟩, fun prepared => ?_⟩
  · intro plan new
    rw [untouched.1] at new
    cases new
  have locked : Untouched true (⟨.lockPrepared, prepared⟩ :: history) := ⟨rfl, rfl⟩
  cases prepared with
  | none => exact guard_prepareWithdrawal withdraws mode destination locked
  | some plan =>
      dsimp only
      split
      · rw [follows_call_bind]
        exact ⟨⟨nofun, trivial⟩, fun _ => rfl⟩
      · split
        · exact guard_prepareWithdrawal withdraws mode destination locked
        · exact rfl

theorem guard_dropEscapePlan {call : Call} (untouched : Untouched false history) :
    GuardFollows call dropEscapePlan history fun reached _ => produced reached = none := by
  unfold dropEscapePlan
  rw [GuardFollows, follows_call_bind]
  refine ⟨⟨?_, untouched.2⟩, fun prepared => ?_⟩
  · intro plan new
    rw [untouched.1] at new
    cases new
  split
  · rename_i escapes
    rw [follows_call_bind]
    refine ⟨⟨nofun, rfl, escapes⟩, fun _ => ?_⟩
    rw [follows_call_bind]
    refine ⟨⟨nofun, trivial⟩, fun removed => ?_⟩
    rw [follows_bind, follows_lift]
    exact ⟨fun _ _ => ⟨⟨nofun, trivial⟩, fun _ => rfl⟩, fun _ _ => rfl⟩
  · exact ⟨⟨nofun, trivial⟩, fun _ => rfl⟩

theorem guard_confirmWithdrawal (call : Call) :
    GuardFollows call confirmWithdrawal [] fun reached _ => produced reached = none := by
  unfold confirmWithdrawal
  rw [GuardFollows, follows_bind]
  apply (guard_plain (only_status rfl) ⟨rfl, rfl⟩).weaken
  · intro reached wallet _ untouched
    cases wallet.note with
    | none => exact untouched.1
    | some note =>
        dsimp only
        rw [follows_bind]
        have reads := (only_onchainWithdrawalStatus note.noteId).mono isPlain_of_isVaultRead
        apply (guard_plain reads untouched).weaken
        · intro reached found _ untouched
          obtain ⟨chainStatus, challengeDeadline⟩ := found
          dsimp only
          split
          · have resets : (do
                let _ ← Clientd.call .clearPrepared
                Clientd.call .clearSlot
                let wallet ← resetWallet
                return ⟨note.noteId, chainStatus, none, wallet⟩ :
                  Handler WithdrawalChainStatus).Only Op.isPlain := by
              apply (only_call rfl).bind
              intro dropped
              apply (only_call rfl).bind
              intro emptied
              exact only_resetWallet.bind fun _ => .ret _
            exact (guard_plain resets untouched).weaken (fun _ _ _ kept => kept.1)
              (fun _ _ _ kept => kept)
          · split
            · rw [follows_bind]
              exact (guard_dropEscapePlan untouched).weaken (fun _ _ _ kept => kept)
                (fun _ _ _ kept => kept)
            · exact untouched.1
        · exact fun _ _ _ kept => kept
  · exact fun _ _ _ kept => kept

/-- The status that a settlement reads starts a settlement if it is pending. -/
theorem settling_of_status {call : Call} {wallet : WalletStatus}
    (settles : call.settles = true) (unlocked : Unlocked history)
    (pending : wallet.pendingRequest = true) :
    Settling call (⟨.status, .ok wallet⟩ :: history) := by
  exact ⟨settles, (unlocked.cons rfl).2, _, List.mem_cons_self, pending⟩

theorem guard_status {call : Call} {next : WalletStatus → Handler α}
    {returns : History Resp → α → Prop} (unlocked : Unlocked history)
    (goesOn : ∀ wallet, Unlocked (⟨.status, .ok wallet⟩ :: history) →
      GuardFollows call (next wallet) (⟨.status, .ok wallet⟩ :: history) returns) :
    GuardFollows call (status >>= next) history returns := by
  rw [GuardFollows, follows_bind]
  unfold status
  rw [follows_call_bind]
  refine ⟨⟨?_, trivial⟩, fun response => ?_⟩
  · intro plan new
    rw [unlocked.1.1] at new
    cases new
  rw [follows_lift]
  constructor
  · rintro wallet rfl
    exact goesOn wallet (unlocked.cons rfl)
  · rintro error rfl
    exact (unlocked.cons rfl).1.1

theorem guard_settleOpenRequest {call : Call} (settles : call.settles = true)
    (unlocked : Unlocked history) :
    GuardFollows call (settleOpenRequest config) history fun reached _ => Unlocked reached := by
  unfold settleOpenRequest
  cases config.requestMode with
  | proxy =>
      apply guard_status unlocked
      intro wallet after
      split
      · rename_i pending
        apply guard_settling _ (settling_of_status settles unlocked pending) after
        apply (only_recover rfl).bind
        intro recovered
        split <;> constructor
      · exact after
  | directOpenrouter =>
      dsimp only
      rw [GuardFollows, follows_call_bind]
      refine ⟨⟨?_, settles⟩, fun slot => ?_⟩
      · intro plan new
        rw [unlocked.1.1] at new
        cases new
      have taken : Unlocked (⟨.takeSlot, slot⟩ :: history) := unlocked.cons rfl
      cases slot with
      | some lease =>
          have settling : Settling call (⟨.takeSlot, some lease⟩ :: history) :=
            ⟨settles, taken.2, _, List.mem_cons_self, rfl⟩
          apply guard_settling _ settling taken
          exact ((only_retire _).mono isSettling_of_isRetiring).bind fun _ => .ret _
      | none =>
          apply guard_status taken
          intro wallet after
          split
          · rename_i pending
            exact guard_settling only_settlePendingLease
              (settling_of_status settles taken pending) after
          · exact after

theorem guard_settleForWithdrawal (call : Call) (settles : call.settles = true) :
    GuardFollows call (settleForWithdrawal config) [] fun reached _ => Unlocked reached := by
  have fresh : Unlocked [⟨.writeRequest, ()⟩] := by
    refine ⟨⟨rfl, rfl⟩, ?_⟩
    intro entry member
    rw [List.mem_singleton.mp member]
    nofun
  unfold settleForWithdrawal
  rw [GuardFollows, follows_call_bind]
  refine ⟨⟨nofun, trivial⟩, fun _ => ?_⟩
  rw [follows_bind]
  apply (guard_settleOpenRequest settles fresh).weaken
  · intro reached settled _ unlocked
    cases settled with
    | some wallet =>
        rw [follows_call_bind]
        refine ⟨⟨?_, trivial⟩, fun _ => unlocked.cons rfl⟩
        intro plan new
        rw [unlocked.1.1] at new
        cases new
    | none =>
        apply guard_status unlocked
        intro wallet after
        split
        · exact after.1.1
        · rw [GuardFollows, follows_call_bind]
          refine ⟨⟨?_, trivial⟩, fun _ => after.cons rfl⟩
          intro plan new
          rw [after.1.1] at new
          cases new
  · exact fun _ _ _ kept => kept

theorem guard_submission {call : Call} {program : Handler α} {holds : Bool}
    (only : program.Only Op.isPlain) (untouched : Untouched holds history) :
    GuardFollows call program history fun reached _ => produced reached = none :=
  (guard_plain only untouched).weaken (fun _ _ _ kept => kept.1) fun _ _ _ kept => kept

theorem guard_managedWithdrawal (mode : WithdrawalMode) (destination : Address) (dryRun : Bool) :
    GuardFollows (.runManagedWithdrawal mode destination dryRun)
      (runManagedWithdrawal config mode destination dryRun) []
      fun reached _ => produced reached = none := by
  unfold runManagedWithdrawal
  rw [GuardFollows, follows_bind]
  apply (guard_settleForWithdrawal _ rfl).weaken
  · intro reached settled _ unlocked
    cases settled.note with
    | none => exact unlocked.1.1
    | some localNote =>
        dsimp only
        rw [follows_bind, follows_require]
        refine ⟨fun _ => ?_, fun _ => unlocked.1.1⟩
        rw [follows_bind]
        apply (guard_createWithdrawal rfl mode destination unlocked.1).weaken
        · intro reached plan _ stored
          have untouched : Untouched (holdsPrepared reached) reached := ⟨stored, rfl⟩
          apply guard_submission _ untouched
          apply (only_require _ _).bind
          intro sameMode
          apply (only_require _ _).bind
          intro sameDestination
          apply (only_require _ _).bind
          intro sameNote
          apply (only_lift_call rfl).bind
          intro submitted
          split
          · constructor
          · split
            · apply (only_lift_call rfl).bind
              intro closed
              exact only_resetWallet.bind fun _ => only_require _ _
            · exact only_lift_call rfl
        · exact fun _ _ _ kept => kept
  · exact fun _ _ _ kept => kept

theorem guard_handler (config : AuthConfig) (call : Call) :
    GuardFollows call (handler W config call) [] fun reached _ => produced reached = none := by
  have untouched : Untouched false [] := ⟨rfl, rfl⟩
  cases call with
  | status => exact guard_submission (only_status rfl) untouched
  | retireLowBalanceNote => exact guard_submission (only_lift_call rfl) untouched
  | confirmDeposit request => exact guard_submission (only_lift_call rfl) untouched
  | recover => exact guard_submission (only_recover rfl) untouched
  | settleForWithdrawal =>
      exact (guard_settleForWithdrawal _ rfl).weaken (fun _ _ _ kept => kept.1.1)
        fun _ _ _ kept => kept
  | resetWallet => exact guard_submission only_resetWallet untouched
  | executeRequest request sessionId => exact guard_executeRequest _ rfl request sessionId
  | executeStreamingRequest request sessionId =>
      exact guard_executeStreaming _ rfl request sessionId
  | requestSubmit request =>
      exact guard_executing (only_executeRequestDemo _) (Or.inl rfl) rfl
  | createWithdrawal mode destination =>
      exact guard_createWithdrawal rfl mode destination untouched
  | confirmWithdrawal => exact guard_confirmWithdrawal _
  | reconcileDirectOpenrouter =>
      exact guard_submission ((only_reconcile config).mono isPlain_of_isReconciling) untouched
  | runManagedWithdrawal mode destination dryRun =>
      exact guard_managedWithdrawal mode destination dryRun
  | finalizeEscapeWithdrawal noteId dryRun =>
      exact guard_submission (only_finalizeEscapeWithdrawal noteId dryRun) untouched

end Handlers

/-- The discipline of the prepared-withdrawal guard. -/
def guardDiscipline (W : WalletFunctions) : Discipline (daemon W) where
  allowed _ call history op := GuardAllowed call history op
  returns _ _ history _ := produced history = none
  follows config call := guard_handler config call
  execute_setting executed := execute_config executed
  finish_setting _ _ := rfl
  environment_setting := move_config

end ZkApi.Clientd
