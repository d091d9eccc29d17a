import ZkApi.HandlerConformance
import ZkApi.ReferenceProtocol
import ZkApi.StoreEffects

/-!
# The life of a nullifier

A nullifier is reserved and then finalized, or it is cleared for withdrawal,
and never both.  Nothing but the insert conflict of the table and the guard of
the finalizing update is needed for this: lookups and inserts of different
tasks interleave freely.
-/

namespace ZkApi

open ConstrainedTable Interleaving

section Rows

variable {P : Protocol}

/-- Every row of the first table is still there in the second, grown at most as
rows grow. -/
def RowsGrow (P : Protocol) (before after : World) : Prop :=
  ∀ row ∈ before.store.nullifiers, ∃ grown ∈ after.store.nullifiers, RowGrows P row grown

theorem execute_rowsGrow {task : Nat} {op : Op} {answer : Answer} {world after : World}
    {response : Resp op}
    (executed : execute P task op answer world = some (response, after)) :
    RowsGrow P world after :=
  fun _ member => (nullifierEffect executed).row_grows member

theorem move_rowsGrow {world after : World} {change : Move}
    (moved : move world change = some after) : RowsGrow P world after := by
  intro row member
  rw [move_eq moved]
  exact ⟨row, member, .same row⟩

theorem reboot_rowsGrow {world after : World} {change : Reboot}
    (rebooted : reboot P world change = some after) : RowsGrow P world after := by
  intro row member
  rw [(reboot_eq rebooted).1]
  exact backfill_row_grows member

/-- The table has a row with this property. -/
def HasRow (world : World) (holds : NullifierRow → Prop) : Prop :=
  ∃ row ∈ world.store.nullifiers, holds row

theorem HasRow.grow {before after : World} {holds : NullifierRow → Prop}
    (has : HasRow before holds) (grows : RowsGrow P before after)
    (closed : ∀ row grown, RowGrows P row grown → holds row → holds grown) :
    HasRow after holds := by
  obtain ⟨row, member, held⟩ := has
  obtain ⟨grown, grownMember, rowGrows⟩ := grows row member
  exact ⟨grown, grownMember, closed row grown rowGrows held⟩

/-- A property that rows keep as they grow lasts. -/
theorem hasRow_lasting {holds : NullifierRow → Prop}
    (closed : ∀ row grown, RowGrows P row grown → holds row → holds grown) :
    Lasting (server P) (HasRow · holds) where
  execute executed has := has.grow (execute_rowsGrow executed) closed
  finish has := has
  environment moved has := has.grow (move_rowsGrow (P := P) moved) closed
  restart rebooted has := has.grow (reboot_rowsGrow rebooted) closed

/-- Rows of the same nullifier are the same row. -/
theorem row_unique {world : World} {first second : NullifierRow}
    (firstMember : first ∈ world.store.nullifiers)
    (secondMember : second ∈ world.store.nullifiers)
    (same : first.nullifier = second.nullifier) : first = second :=
  Table.eq_of_clash NullifierRow.clash_symm firstMember secondMember same

/-- The row a lookup finds is the row with that nullifier. -/
theorem lookup_eq_some {world : World} {nullifier : Felt252} {record : TranscriptRecord}
    (found : world.store.lookupByNullifier P nullifier = some record) :
    ∃ row ∈ world.store.nullifiers, row.nullifier = P.feltToHex nullifier ∧
      record = rowToRecord P row := by
  obtain ⟨row, first, rfl⟩ := Option.map_eq_some_iff.mp found
  obtain ⟨member, same⟩ := Table.first_eq_some first
  exact ⟨row, member, of_decide_eq_true same, rfl⟩

theorem lookup_of_mem {world : World} {nullifier : Felt252} {row : NullifierRow}
    (member : row ∈ world.store.nullifiers)
    (same : row.nullifier = P.feltToHex nullifier) :
    world.store.lookupByNullifier P nullifier = some (rowToRecord P row) := by
  have found : world.store.nullifiers.first
      (fun row => row.nullifier = P.feltToHex nullifier) = some row :=
    Table.first_of_mem NullifierRow.clash_symm member (by simpa using same)
      fun other satisfied => (of_decide_eq_true satisfied).trans same.symm
  unfold Store.lookupByNullifier
  rw [found]
  rfl

end Rows

section Status

variable {P : Protocol}

/-- The status of a nullifier, as every handler reads it. -/
def statusOf (P : Protocol) (world : World) (nullifier : Felt252) :
    Option NullifierStatus :=
  (world.store.lookupByNullifier P nullifier).map TranscriptRecord.status

/-- The moves a status can make. -/
inductive StatusMove : Option NullifierStatus → Option NullifierStatus → Prop
  | stays (status : Option NullifierStatus) : StatusMove status status
  | reserved : StatusMove none (some .reserved)
  | finalized : StatusMove (some .reserved) (some .finalized)
  | cleared : StatusMove none (some .clearanceReserved)

theorem statusOf_of_mem {world : World} {nullifier : Felt252} {row : NullifierRow}
    (member : row ∈ world.store.nullifiers)
    (same : row.nullifier = P.feltToHex nullifier) :
    statusOf P world nullifier = some (strToStatus row.status) := by
  simp [statusOf, lookup_of_mem member same, rowToRecord]

/-- A nullifier that has a row keeps it, and the row's status moves on. -/
theorem RowsGrow.statusMove {before after : World} (grows : RowsGrow P before after)
    {nullifier : Felt252} (present : statusOf P before nullifier ≠ none) :
    StatusMove (statusOf P before nullifier) (statusOf P after nullifier) := by
  cases found : before.store.lookupByNullifier P nullifier with
  | none => simp [statusOf, found] at present
  | some record =>
      obtain ⟨row, member, same, rfl⟩ := lookup_eq_some found
      obtain ⟨grown, grownMember, rowGrows⟩ := grows row member
      rw [statusOf_of_mem member same,
        statusOf_of_mem grownMember (rowGrows.nullifier_eq.trans same)]
      cases rowGrows with
      | same => exact .stays _
      | finalized _ reserved now transcript =>
          simpa [reserved, Store.finalizedRow] using StatusMove.finalized
      | bound bound =>
          obtain ⟨request, _, _, rfl⟩ := bound.request
          exact .stays _

theorem statusOf_eq_none {world : World} {nullifier : Felt252} :
    statusOf P world nullifier = none ↔
      ∀ row ∈ world.store.nullifiers, row.nullifier ≠ P.feltToHex nullifier := by
  constructor
  · intro absent row member same
    simp [statusOf_of_mem member same] at absent
  · intro absent
    cases found : world.store.lookupByNullifier P nullifier with
    | none => simp [statusOf, found]
    | some record =>
        obtain ⟨row, member, same, _⟩ := lookup_eq_some found
        exact (absent row member same).elim

theorem execute_statusMove {task : Nat} {op : Op} {answer : Answer} {world after : World}
    {response : Resp op}
    (executed : execute P task op answer world = some (response, after))
    (nullifier : Felt252) :
    StatusMove (statusOf P world nullifier) (statusOf P after nullifier) := by
  by_cases absent : statusOf P world nullifier = none
  · rw [absent]
    cases found : after.store.lookupByNullifier P nullifier with
    | none =>
        simp only [statusOf, found, Option.map_none]
        exact .stays none
    | some record =>
        obtain ⟨grown, member, same, rfl⟩ := lookup_eq_some found
        rw [statusOf_of_mem member same]
        rcases (nullifierEffect executed).row_origin member with
          ⟨row, rowMember, rowGrows⟩ | ⟨request, kind, rfl⟩ | ⟨other, rfl⟩
        · exact (statusOf_eq_none.mp absent row rowMember
            (rowGrows.nullifier_eq.symm.trans same)).elim
        · exact .reserved
        · exact .cleared
  · exact (execute_rowsGrow executed).statusMove absent

theorem reboot_statusMove {world after : World} {change : Reboot}
    (rebooted : reboot P world change = some after) (nullifier : Felt252) :
    StatusMove (statusOf P world nullifier) (statusOf P after nullifier) := by
  by_cases absent : statusOf P world nullifier = none
  · have stillAbsent : statusOf P after nullifier = none := by
      refine statusOf_eq_none.mpr fun grown member same => ?_
      rw [(reboot_eq rebooted).1] at member
      obtain ⟨row, rowMember, rowGrows⟩ := backfill_row_origin member
      refine statusOf_eq_none.mp absent row rowMember ?_
      rcases rowGrows with rfl | ⟨lease, _, bound⟩
      · exact same
      · exact (RowGrows.bound bound).nullifier_eq.symm.trans same
    rw [absent, stillAbsent]
    exact .stays none
  · exact (reboot_rowsGrow rebooted).statusMove absent

/-- Every step of the server moves the status of a nullifier legally. -/
theorem step_statusMove {state after : State (server P)} {action : Action (server P)}
    (stepped : state.step action = some after) (nullifier : Felt252) :
    StatusMove (statusOf P state.world nullifier) (statusOf P after.world nullifier) := by
  obtain ⟨middle, worldStep, ended⟩ := State.step_world stepped
  have same : statusOf P after.world nullifier = statusOf P middle nullifier := by
    rcases ended with rfl | ⟨task, finished⟩
    · rfl
    · rw [finished]
      rfl
  rw [same]
  cases worldStep with
  | kept => exact .stays _
  | executed done => exact execute_statusMove done nullifier
  | moved done =>
      have kept : statusOf P middle nullifier = statusOf P state.world nullifier := by
        rw [move_eq done]
        rfl
      rw [kept]
      exact .stays _
  | restarted done => exact reboot_statusMove done nullifier

theorem reaches_statusMoves {first last : State (server P)} (run : first.Reaches last)
    (nullifier : Felt252) :
    Relation.ReflTransGen StatusMove (statusOf P first.world nullifier)
      (statusOf P last.world nullifier) := by
  induction run with
  | refl => exact .refl
  | tail _ stepped ih =>
      obtain ⟨action, stepped⟩ := stepped
      exact ih.tail (step_statusMove stepped nullifier)

/-- Nothing that has been reserved ever becomes cleared. -/
theorem not_clearanceReserved_of_moves {status : Option NullifierStatus}
    (moves : Relation.ReflTransGen StatusMove status (some .clearanceReserved)) :
    status = none ∨ status = some .clearanceReserved := by
  induction moves using Relation.ReflTransGen.head_induction_on with
  | refl => exact Or.inr rfl
  | head move _ ih =>
      cases move with
      | stays => exact ih
      | reserved => exact Or.inl rfl
      | finalized => rcases ih with impossible | impossible <;> cases impossible
      | cleared => exact Or.inl rfl

end Status

section Runs

variable {P : Protocol}

/-- A successful finalization of the nullifier. -/
def isFinalization (nullifier : Felt252) : Event (server P) → Bool
  | .performed _ (.finalize finalized _) (.ok ()) => finalized = nullifier
  | _ => false

theorem isFinalization_iff {nullifier : Felt252} {event : Event (server P)} :
    isFinalization nullifier event = true ↔
      ∃ task transcript, event = .performed task (.finalize nullifier transcript) (.ok ()) := by
  constructor
  · intro finalizes
    unfold isFinalization at finalizes
    split at finalizes
    · rename_i task finalized transcript
      obtain rfl : finalized = nullifier := of_decide_eq_true finalizes
      exact ⟨task, transcript, rfl⟩
    · cases finalizes
  · rintro ⟨task, transcript, rfl⟩
    simp [isFinalization]

/-- The row of a nullifier has this status. -/
def RowStatus (P : Protocol) (status : NullifierStatus) (nullifier : Felt252)
    (row : NullifierRow) : Prop :=
  row.nullifier = P.feltToHex nullifier ∧ strToStatus row.status = status

theorem RowStatus.grows {status : NullifierStatus} (settled : status ≠ .reserved)
    (nullifier : Felt252) (row grown : NullifierRow) (rowGrows : RowGrows P row grown)
    (held : RowStatus P status nullifier row) : RowStatus P status nullifier grown := by
  refine ⟨rowGrows.nullifier_eq.trans held.1, ?_⟩
  cases rowGrows with
  | same => exact held.2
  | finalized _ reserved now transcript =>
      have := held.2
      rw [reserved, strToStatus_statusToStr] at this
      exact (settled this.symm).elim
  | bound bound =>
      obtain ⟨request, _, _, rfl⟩ := bound.request
      exact held.2

/-- A nullifier that was finalized has a finalized row. -/
theorem finalizations_preserved : (discipline P).Inductive
    (Evidence (fun _ => True) (fun event nullifier => isFinalization nullifier event = true)
      (fun nullifier world => HasRow world (RowStatus P .finalized nullifier))) := by
  refine server_evidence suffixClosed_true ?_ (fun nullifier =>
    hasRow_lasting (RowStatus.grows (by decide) nullifier)) ?_ ?_
  · intro event nullifier asserted
    obtain ⟨task, transcript, rfl⟩ := isFinalization_iff.mp asserted
    trivial
  · intro world after trace task call op answer response nullifier _ executed _ _ asserted
    obtain ⟨_, transcript, same⟩ := isFinalization_iff.mp asserted
    cases same
    cases nullifierEffect executed with
    | kept _ passive => exact (passive trivial).elim
    | finalized _ _ updated found =>
        obtain ⟨row, member, reserved⟩ := Table.exists_of_affected found
        refine ⟨_, (Table.mem_update updated).mpr ⟨row, member, rfl⟩, ?_⟩
        rw [Table.updatedRow, if_pos reserved]
        exact ⟨(of_decide_eq_true reserved).1, rfl⟩
  · intro world trace task call result nullifier _ _ _ _ asserted
    cases asserted

/-- Only a nullifier that was not finalized before can be finalized. -/
theorem finalization_is_first {world after : World} {trace : List (Event (server P))}
    (evidence : Evidence (fun _ => True)
      (fun event nullifier => isFinalization nullifier event = true)
      (fun nullifier world => HasRow world (RowStatus P .finalized nullifier)) world trace)
    {task : Nat} {op : Op} {answer : Answer} {response : Resp op}
    (executed : execute P task op answer world = some (response, after))
    {nullifier : Felt252}
    (finalizes : isFinalization (P := P) nullifier (.performed task op response) = true) :
    trace.countP (isFinalization nullifier) = 0 := by
  obtain ⟨_, transcript, same⟩ := isFinalization_iff.mp finalizes
  cases same
  cases nullifierEffect executed with
  | kept _ passive => exact (passive trivial).elim
  | finalized _ _ updated found =>
      obtain ⟨row, member, reserved⟩ := Table.exists_of_affected found
      obtain ⟨sameNullifier, status⟩ := of_decide_eq_true reserved
      refine List.countP_eq_zero.mpr fun event eventMember again => ?_
      obtain ⟨other, otherMember, otherSame, otherStatus⟩ :=
        evidence trivial event eventMember nullifier again
      obtain rfl := row_unique member otherMember (sameNullifier.trans otherSame.symm)
      rw [status] at otherStatus
      cases otherStatus

theorem finalizations_le_one (nullifier : Felt252) :
    (discipline P).Preserved
      (Evidence (fun _ => True)
        (fun event nullifier => isFinalization nullifier event = true)
        fun nullifier world => HasRow world (RowStatus P .finalized nullifier))
      fun _ trace => trace.countP (isFinalization nullifier) ≤ 1 where
  started _ _ _ _ held := by simpa [isFinalization] using held
  performed _ _ _ executed base held := by
    rw [List.countP_cons]
    split
    · rename_i finalizes
      rw [finalization_is_first base executed finalizes]
    · exact held
  returned _ _ _ _ _ held := by simpa [isFinalization] using held
  aborted _ _ held := by simpa [isFinalization] using held
  moved _ _ held := by simpa [isFinalization] using held
  restarted _ _ held := by simpa [isFinalization] using held

/-- Of all attempts to finalize a nullifier at most one succeeds. -/
theorem run_finalizations_le_one {world : World} {state : State (server P)}
    (run : (State.initial (server P) world).Reaches state) (nullifier : Felt252) :
    state.trace.countP (isFinalization nullifier) ≤ 1 :=
  ((finalizations_preserved.and (finalizations_le_one nullifier)).holds
    ⟨evidence_initial world, by simp⟩ run).2

/-- The event shows that the nullifier is cleared for withdrawal. -/
def ShowsClearance : Event (server P) → Felt252 → Prop
  | .performed _ (.reserveClearance cleared) (.ok ()), nullifier => cleared = nullifier
  | .performed _ (.lookupByNullifier found) (some record), nullifier =>
      found = nullifier ∧ record.status = .clearanceReserved
  | .returned _ (.processClearance request) (.ok _), nullifier =>
      request.withdrawalNullifier = nullifier
  | _, _ => False

/-- A nullifier that was ever seen or made clear is clear now. -/
theorem clearances_preserved : (discipline P).Inductive
    (Evidence (fun _ => True) ShowsClearance
      fun nullifier world => HasRow world (RowStatus P .clearanceReserved nullifier)) := by
  refine server_evidence suffixClosed_true ?_
    (fun nullifier => hasRow_lasting (RowStatus.grows (by decide) nullifier)) ?_ ?_
  · intro event nullifier shown
    cases event with
    | performed task op response => trivial
    | returned task call result => trivial
    | _ => cases shown
  · intro world after trace task call op answer response nullifier _ executed _ _ shown
    unfold ShowsClearance at shown
    split at shown
    · rename_i same
      cases same
      subst shown
      cases nullifierEffect executed with
      | kept _ passive => exact (passive trivial).elim
      | cleared _ inserted =>
          exact ⟨_, (Table.mem_insert inserted).mpr (Or.inr rfl), rfl, rfl⟩
    · rename_i same
      cases same
      obtain ⟨rfl, cleared⟩ := shown
      obtain ⟨found, rfl⟩ := execute_lookupByNullifier executed
      obtain ⟨row, member, sameNullifier, rfl⟩ := lookup_eq_some found
      exact ⟨row, member, sameNullifier, cleared⟩
    · rename_i same
      cases same
    · exact shown.elim
  · intro world trace task call result nullifier returns _ _ held shown
    unfold ShowsClearance at shown
    split at shown
    · rename_i same
      cases same
    · rename_i same
      cases same
    · rename_i same
      cases same
      subst shown
      rcases returns with reserved | ⟨record, found, cleared⟩
      · exact held _ (saw_historyOf_iff.mp reserved) _ rfl
      · exact held _ (saw_historyOf_iff.mp found) _ ⟨rfl, cleared⟩
    · exact shown.elim

theorem statusOf_of_hasRow {world : World} {status : NullifierStatus}
    {nullifier : Felt252} (has : HasRow world (RowStatus P status nullifier)) :
    statusOf P world nullifier = some status := by
  obtain ⟨row, member, same, rfl⟩ := has
  exact statusOf_of_mem member same

/-- In every run from any store: a nullifier is finalized at most once, its
status only moves from absent to reserved to finalized or from absent to
cleared, and a clearance is granted only if the nullifier is neither reserved
nor finalized in any state of the run. -/
theorem nullifier_lifecycle (P : Protocol) (world : World) {state : State (server P)}
    (run : (State.initial (server P) world).Reaches state) (nullifier : Felt252) :
    state.trace.countP (isFinalization nullifier) ≤ 1 ∧
    (∀ action after, state.step action = some after →
      StatusMove (statusOf P state.world nullifier)
        (statusOf P after.world nullifier)) ∧
    ∀ later task request response, state.Reaches later →
      .returned task (.processClearance request) (.ok response) ∈ later.trace →
      request.withdrawalNullifier = nullifier →
        statusOf P state.world nullifier ≠ some .reserved ∧
          statusOf P state.world nullifier ≠ some .finalized := by
  refine ⟨run_finalizations_le_one run nullifier,
    fun action after stepped => step_statusMove stepped nullifier, ?_⟩
  · rintro later task request response continues granted rfl
    have cleared := clearances_preserved.holds (evidence_initial world)
      (run.trans continues)
      trivial _ granted request.withdrawalNullifier rfl
    have moves := reaches_statusMoves continues request.withdrawalNullifier
    rw [statusOf_of_hasRow cleared] at moves
    rcases not_clearanceReserved_of_moves moves with status | status <;> simp [status]

/-- One request is processed and another nullifier cleared. -/
noncomputable def processAndClear : List (Action (server Reference.protocol)) :=
  Reference.runs 0 (.processRequest Reference.proxyRequest)
      (Reference.requestAnswers 10) ++
    Reference.runs 1 (.processClearance ⟨⟨9⟩⟩) [.nothing, .signature ⟨4⟩, .nothing]

theorem nullifier_lifecycle_processAndClear :
    ∃ state, (State.initial (server Reference.protocol)
        (Reference.world (Reference.config 10 1 false none))).Reaches state ∧
      statusOf Reference.protocol state.world ⟨6⟩ = some .finalized ∧
      state.trace.countP (isFinalization ⟨6⟩) ≤ 1 ∧
      .returned 1 (.processClearance ⟨⟨9⟩⟩) (.ok ⟨"ok", ⟨9⟩, ⟨4⟩⟩) ∈ state.trace ∧
      statusOf Reference.protocol state.world ⟨9⟩ ≠ some .reserved ∧
      statusOf Reference.protocol state.world ⟨9⟩ ≠ some .finalized := by
  have reached : ∃ state, (State.initial (server Reference.protocol)
        (Reference.world (Reference.config 10 1 false none))).Reaches state ∧
      statusOf Reference.protocol state.world ⟨6⟩ = some .finalized ∧
      .returned 1 (.processClearance ⟨⟨9⟩⟩) (.ok ⟨"ok", ⟨9⟩, ⟨4⟩⟩) ∈ state.trace :=
    State.reaches_of_decide processAndClear (by decide)
  obtain ⟨state, run, finalized, granted⟩ := reached
  have cleared := (nullifier_lifecycle Reference.protocol _ run ⟨9⟩).2.2 state 1 _ _
    Relation.ReflTransGen.refl granted rfl
  exact ⟨state, run, finalized, (nullifier_lifecycle Reference.protocol _ run ⟨6⟩).1,
    granted, cleared⟩

end Runs

end ZkApi
