import Mathlib.Data.List.Nodup
import ZkApi.BrowserStore

/-!
# Where the browser wallet keeps a note

The private state of a note is in the selected slot, in the record of a withdrawal
or in the archives.  Every transaction moves it as a whole, and a note that was
marked for withdrawal stays marked wherever it goes.
-/

namespace ZkApi.Browser

open Clientd

section Places

def ofNote (noteId : UInt32) (states : List NoteState) : List NoteState :=
  states.filter fun state => state.noteId == noteId

/-- Every stored state of a note. -/
def Store.places (store : Store) (noteId : UInt32) : List NoteState :=
  ofNote noteId store.runtime.state.toList ++
    ofNote noteId (store.withdrawals.filterMap WithdrawalRecord.state) ++
      ofNote noteId (store.archives.map ArchivedNote.state)

/-- No request can be made for a state: while it is selected there is a reserved plan
and no journal, and its record is reserved too. -/
structure Store.Withdrawn (store : Store) (state : NoteState) : Prop where
  selected : store.runtime.state = some state → store.runtime.journal = none ∧
    store.runtime.preparedWithdrawal.any PreparedWithdrawal.clearanceReserved = true
  recorded : ∀ record ∈ store.withdrawals, record.state = some state →
    record.clearanceReserved = true

structure Store.Tidy (store : Store) : Prop where
  ids : (store.withdrawals.map WithdrawalRecord.noteId).Nodup
  own : ∀ record ∈ store.withdrawals, ∀ state, record.state = some state →
    state.noteId = record.noteId
  erased : ∀ record ∈ store.withdrawals, record.state = none → record.preparedWithdrawal = none
  plan : store.runtime.journal.isSome → ∀ plan, store.runtime.preparedWithdrawal = some plan →
    plan.clearanceReserved = true

/-- A note is in one place at most. -/
def Store.Single (store : Store) : Prop :=
  ∀ noteId, (store.places noteId).length ≤ 1

/-- What every transaction but a confirmation and a sanitization keeps. -/
structure Store.Keeps (store next : Store) : Prop where
  tidy : next.Tidy
  places : ∀ noteId, next.places noteId = store.places noteId
  withdrawn : ∀ state, store.Withdrawn state → next.Withdrawn state
  emptied : ∀ record ∈ next.withdrawals, record.state = none →
    ∃ old ∈ store.withdrawals, old.noteId = record.noteId ∧ old.state = none
  journal : next.runtime.journal.isSome → next.runtime.state = store.runtime.state ∧
    next.runtime.journal = store.runtime.journal
  requested : ∀ state, store.runtime.state = some state → store.runtime.journal.isSome →
    next.runtime.state = some state ∧ next.runtime.journal = store.runtime.journal ∨
      next.Withdrawn state

end Places

section Lists

theorem mem_ofNote {noteId : UInt32} {states : List NoteState} {state : NoteState} :
    state ∈ ofNote noteId states ↔ state ∈ states ∧ state.noteId = noteId := by
  simp [ofNote]

theorem ofNote_none (noteId : UInt32) : ofNote noteId (none : Option NoteState).toList = [] :=
  rfl

theorem ofNote_some (noteId : UInt32) (state : NoteState) :
    ofNote noteId (some state).toList = if state.noteId = noteId then [state] else [] := by
  by_cases same : state.noteId = noteId <;> simp [ofNote, same]

theorem ofNote_cons (noteId : UInt32) (state : NoteState) (rest : List NoteState) :
    ofNote noteId (state :: rest) =
      if state.noteId = noteId then state :: ofNote noteId rest else ofNote noteId rest := by
  by_cases same : state.noteId = noteId <;> simp [ofNote, same]

theorem mem_putRecord {records : List WithdrawalRecord} {record other : WithdrawalRecord}
    (member : other ∈ putRecord records record) :
    other = record ∨ other ∈ records ∧ other.noteId ≠ record.noteId := by
  simpa [putRecord] using member

theorem mem_deleteRecord {records : List WithdrawalRecord} {noteId : UInt32}
    {other : WithdrawalRecord} (member : other ∈ deleteRecord records noteId) :
    other ∈ records ∧ other.noteId ≠ noteId := by
  simpa [deleteRecord] using member

theorem putRecord_ids {records : List WithdrawalRecord} (record : WithdrawalRecord)
    (ids : (records.map WithdrawalRecord.noteId).Nodup) :
    ((putRecord records record).map WithdrawalRecord.noteId).Nodup := by
  rw [putRecord, List.map_cons, List.nodup_cons]
  constructor
  · intro member
    obtain ⟨other, found, same⟩ := List.mem_map.mp member
    simp [same] at found
  · exact ids.sublist (List.filter_sublist.map _)

theorem deleteRecord_ids {records : List WithdrawalRecord} (noteId : UInt32)
    (ids : (records.map WithdrawalRecord.noteId).Nodup) :
    ((deleteRecord records noteId).map WithdrawalRecord.noteId).Nodup :=
  ids.sublist (List.filter_sublist.map _)

/-- The states of another note are where they were. -/
theorem ofNote_other {records : List WithdrawalRecord} {noteId removed : UInt32}
    (own : ∀ record ∈ records, ∀ state, record.state = some state → state.noteId = record.noteId)
    (other : removed ≠ noteId) :
    ofNote noteId ((records.filter fun record => record.noteId != removed).filterMap
      WithdrawalRecord.state) = ofNote noteId (records.filterMap WithdrawalRecord.state) := by
  induction records with
  | nil => rfl
  | cons record rest ih =>
    have restOwn := ih fun entry member => own entry (List.mem_cons_of_mem _ member)
    by_cases same : record.noteId = removed
    · rw [List.filter_cons_of_neg (by simp [same]), restOwn]
      cases state : record.state with
      | none => rw [List.filterMap_cons_none state]
      | some held =>
        have id := own record List.mem_cons_self held state
        rw [List.filterMap_cons_some state, ofNote, ofNote,
          List.filter_cons_of_neg (by simp [id, same, other])]
    · rw [List.filter_cons_of_pos (by simp [same])]
      cases state : record.state with
      | none => rw [List.filterMap_cons_none state, List.filterMap_cons_none state, restOwn]
      | some held =>
        rw [List.filterMap_cons_some state, List.filterMap_cons_some state, ofNote, ofNote,
          List.filter_cons, List.filter_cons]
        exact congrArg (fun rest => if (held.noteId == noteId) = true then held :: rest else rest)
          restOwn

/-- The states of a note whose records are removed. -/
theorem ofNote_removed {records : List WithdrawalRecord} {removed : UInt32}
    (own : ∀ record ∈ records, ∀ state, record.state = some state → state.noteId = record.noteId) :
    ofNote removed ((records.filter fun record => record.noteId != removed).filterMap
      WithdrawalRecord.state) = [] := by
  rw [List.eq_nil_iff_forall_not_mem]
  intro state member
  rw [mem_ofNote, List.mem_filterMap] at member
  obtain ⟨⟨record, found, held⟩, id⟩ := member
  rw [List.mem_filter, bne_iff_ne] at found
  exact found.2 ((own record found.1 state held).symm.trans id)

theorem ofNote_putRecord {records : List WithdrawalRecord} {record : WithdrawalRecord}
    (own : ∀ other ∈ records, ∀ state, other.state = some state → state.noteId = other.noteId)
    (ownNew : ∀ state, record.state = some state → state.noteId = record.noteId)
    (noteId : UInt32) :
    ofNote noteId ((putRecord records record).filterMap WithdrawalRecord.state) =
      if record.noteId = noteId then record.state.toList
      else ofNote noteId (records.filterMap WithdrawalRecord.state) := by
  rw [putRecord]
  by_cases same : record.noteId = noteId
  · rw [if_pos same]
    subst same
    cases held : record.state with
    | none => rw [List.filterMap_cons_none held, ofNote_removed own]; rfl
    | some state =>
      rw [List.filterMap_cons_some held, ofNote, List.filter_cons_of_pos (by
        simp [ownNew state held])]
      exact congrArg (state :: ·) (ofNote_removed own)
  · rw [if_neg same]
    cases held : record.state with
    | none => rw [List.filterMap_cons_none held, ofNote_other own same]
    | some state =>
      rw [List.filterMap_cons_some held, ofNote, List.filter_cons_of_neg (by
        simp [ownNew state held, same])]
      exact ofNote_other own same

theorem ofNote_deleteRecord {records : List WithdrawalRecord}
    (own : ∀ other ∈ records, ∀ state, other.state = some state → state.noteId = other.noteId)
    (removed noteId : UInt32) :
    ofNote noteId ((deleteRecord records removed).filterMap WithdrawalRecord.state) =
      if removed = noteId then []
      else ofNote noteId (records.filterMap WithdrawalRecord.state) := by
  by_cases same : removed = noteId
  · rw [if_pos same, ← same]
    exact ofNote_removed own
  · rw [if_neg same]
    exact ofNote_other own same

/-- The record of a note holds all recorded states of it. -/
theorem ofNote_record {records : List WithdrawalRecord}
    (ids : (records.map WithdrawalRecord.noteId).Nodup)
    (own : ∀ other ∈ records, ∀ state, other.state = some state → state.noteId = other.noteId)
    {record : WithdrawalRecord} (member : record ∈ records) :
    ofNote record.noteId (records.filterMap WithdrawalRecord.state) = record.state.toList := by
  induction records with
  | nil => simp at member
  | cons first rest ih =>
    have restOwn := fun entry found => own entry (List.mem_cons_of_mem first found)
    rw [List.map_cons, List.nodup_cons] at ids
    rw [List.mem_cons] at member
    cases member with
    | inl same =>
      subst same
      have others : ofNote record.noteId (rest.filterMap WithdrawalRecord.state) = [] := by
        rw [List.eq_nil_iff_forall_not_mem]
        intro state found
        rw [mem_ofNote, List.mem_filterMap] at found
        obtain ⟨⟨entry, inside, held⟩, id⟩ := found
        exact ids.1 (List.mem_map.mpr ⟨entry, inside, (restOwn entry inside state held) ▸ id⟩)
      cases held : record.state with
      | none => rw [List.filterMap_cons_none held, others]; rfl
      | some state =>
        rw [List.filterMap_cons_some held, ofNote, List.filter_cons_of_pos (by
          simp [own record List.mem_cons_self state held])]
        exact congrArg (state :: ·) others
    | inr inside =>
      have apart : first.noteId ≠ record.noteId := fun same =>
        ids.1 (List.mem_map.mpr ⟨record, inside, same.symm⟩)
      have tail := ih ids.2 restOwn inside
      cases held : first.state with
      | none => rw [List.filterMap_cons_none held, tail]
      | some state =>
        rw [List.filterMap_cons_some held, ofNote, List.filter_cons_of_neg (by
          simp [own first List.mem_cons_self state held, apart])]
        exact tail

theorem record?_some {store : Store} {noteId : UInt32} {record : WithdrawalRecord}
    (found : store.record? noteId = some record) :
    record ∈ store.withdrawals ∧ record.noteId = noteId := by
  have same := List.find?_some found
  exact ⟨List.mem_of_find?_eq_some found, eq_of_beq same⟩

end Lists

section Keeps

variable {store : Store}

theorem Store.Single.apart (single : store.Single) {state held : NoteState}
    {record : WithdrawalRecord} (selected : store.runtime.state = some state)
    (member : record ∈ store.withdrawals) (recorded : record.state = some held) :
    held.noteId ≠ state.noteId := by
  intro same
  have bound := single state.noteId
  have found : held ∈ ofNote state.noteId (store.withdrawals.filterMap WithdrawalRecord.state) :=
    mem_ofNote.mpr ⟨List.mem_filterMap.mpr ⟨record, member, recorded⟩, same⟩
  have positive := List.length_pos_of_mem found
  rw [Store.places, selected, ofNote_some, if_pos rfl] at bound
  simp only [List.length_append, List.length_singleton] at bound
  omega

theorem Store.Single.unrecorded (single : store.Single) {state : NoteState}
    (selected : store.runtime.state = some state) :
    ofNote state.noteId (store.withdrawals.filterMap WithdrawalRecord.state) = [] := by
  rw [List.eq_nil_iff_forall_not_mem]
  intro held member
  rw [mem_ofNote, List.mem_filterMap] at member
  obtain ⟨⟨record, found, recorded⟩, id⟩ := member
  exact single.apart selected found recorded id

/-- A change of the plan of the selected note. -/
theorem Store.Keeps.ofRuntime (tidy : store.Tidy) {runtime : Runtime}
    (state : runtime.state = store.runtime.state) (journal : runtime.journal = store.runtime.journal)
    (plan : runtime.journal.isSome → ∀ plan, runtime.preparedWithdrawal = some plan →
      plan.clearanceReserved = true)
    (reserved : store.runtime.preparedWithdrawal.any PreparedWithdrawal.clearanceReserved = true →
      runtime.preparedWithdrawal.any PreparedWithdrawal.clearanceReserved = true) :
    store.Keeps { store with runtime := runtime } where
  tidy := ⟨tidy.ids, tidy.own, tidy.erased, plan⟩
  places noteId := by simp only [Store.places, state]
  withdrawn held marked := by
    constructor
    · intro selected
      have before := marked.selected (state ▸ selected)
      exact ⟨journal.trans before.1, reserved before.2⟩
    · exact marked.recorded
  emptied record member gone := ⟨record, member, rfl, gone⟩
  journal _ := ⟨state, journal⟩
  requested held selected _ := .inl ⟨state.trans selected, journal⟩

/-- A change of a record that keeps its note, its state and its clearance. -/
theorem Store.Keeps.ofRecord (tidy : store.Tidy) {noteId : UInt32} {record next : WithdrawalRecord}
    (found : store.record? noteId = some record) (id : next.noteId = record.noteId)
    (state : next.state = record.state)
    (reserved : record.clearanceReserved = true → next.clearanceReserved = true)
    (erased : next.state = none → next.preparedWithdrawal = none) :
    store.Keeps { store with withdrawals := putRecord store.withdrawals next } where
  tidy := by
    have member := (record?_some found).1
    constructor
    · exact putRecord_ids next tidy.ids
    · intro other put held holds
      cases mem_putRecord put with
      | inl same =>
        subst same
        rw [id]
        exact tidy.own record member held (state ▸ holds)
      | inr old => exact tidy.own other old.1 held holds
    · intro other put gone
      cases mem_putRecord put with
      | inl same => exact same ▸ erased (same ▸ gone)
      | inr old => exact tidy.erased other old.1 gone
    · exact tidy.plan
  places noteId := by
    have member := (record?_some found).1
    have own : ∀ held, next.state = some held → held.noteId = next.noteId := fun held holds =>
      id ▸ tidy.own record member held (state ▸ holds)
    simp only [Store.places]
    rw [ofNote_putRecord tidy.own own]
    by_cases same : next.noteId = noteId
    · rw [if_pos same, state, ← same, id, ofNote_record tidy.ids tidy.own member]
    · rw [if_neg same]
  withdrawn held marked := by
    constructor
    · exact marked.selected
    · intro other put holds
      cases mem_putRecord put with
      | inl same =>
        subst same
        exact reserved (marked.recorded record (record?_some found).1 (state ▸ holds))
      | inr old => exact marked.recorded other old.1 holds
  emptied other put gone := by
    cases mem_putRecord put with
    | inl same =>
      subst same
      exact ⟨record, (record?_some found).1, id.symm, state.symm.trans gone⟩
    | inr old => exact ⟨other, old.1, rfl, gone⟩
  journal _ := ⟨rfl, rfl⟩
  requested held selected _ := .inl ⟨selected, rfl⟩

/-- The selected note leaves the slot for a record. -/
theorem Store.Keeps.ofLeave (tidy : store.Tidy) (single : store.Single) {state : NoteState}
    (selected : store.runtime.state = some state) (idle : store.runtime.journal = none)
    {runtime : Runtime} (gone : runtime.state = none) (dropped : runtime.journal = none)
    {record : WithdrawalRecord} (id : record.noteId = state.noteId)
    (held : record.state = some state)
    (reserved : store.runtime.preparedWithdrawal.any PreparedWithdrawal.clearanceReserved = true →
      record.clearanceReserved = true) :
    store.Keeps { store with
      runtime := runtime, withdrawals := putRecord store.withdrawals record } where
  tidy := by
    constructor
    · exact putRecord_ids record tidy.ids
    · intro other put kept holds
      cases mem_putRecord put with
      | inl same =>
        subst same
        rw [held] at holds
        rw [← Option.some.inj holds, id]
      | inr old => exact tidy.own other old.1 kept holds
    · intro other put gone
      cases mem_putRecord put with
      | inl same =>
        rw [same, held] at gone
        cases gone
      | inr old => exact tidy.erased other old.1 gone
    · intro journal
      rw [dropped] at journal
      cases journal
  places noteId := by
    have own : ∀ kept, record.state = some kept → kept.noteId = record.noteId := by
      intro kept holds
      rw [held] at holds
      rw [← Option.some.inj holds, id]
    simp only [Store.places, gone]
    rw [ofNote_putRecord tidy.own own, ofNote_none, List.nil_append, selected, ofNote_some, held]
    by_cases same : state.noteId = noteId
    · rw [if_pos (id.trans same), if_pos same, ← same, single.unrecorded selected]
      rfl
    · rw [if_neg (id ▸ same), if_neg same, List.nil_append]
  withdrawn kept marked := by
    constructor
    · intro selected
      rw [gone] at selected
      cases selected
    · intro other put holds
      cases mem_putRecord put with
      | inl same =>
        subst same
        rw [held] at holds
        exact reserved (marked.selected (Option.some.inj holds ▸ selected)).2
      | inr old => exact marked.recorded other old.1 holds
  emptied other put gone := by
    cases mem_putRecord put with
    | inl same =>
      rw [same, held] at gone
      cases gone
    | inr old => exact ⟨other, old.1, rfl, gone⟩
  journal journal := by
    rw [dropped] at journal
    cases journal
  requested kept _ journal := by
    rw [idle] at journal
    cases journal

theorem Store.Keeps.refl (tidy : store.Tidy) : store.Keeps store where
  tidy := tidy
  places _ := rfl
  withdrawn _ marked := marked
  emptied record member gone := ⟨record, member, rfl, gone⟩
  journal _ := ⟨rfl, rfl⟩
  requested _ selected _ := .inl ⟨selected, rfl⟩

theorem Store.Keeps.trans {middle next : Store} (first : store.Keeps middle)
    (second : middle.Keeps next) : store.Keeps next where
  tidy := second.tidy
  places noteId := (second.places noteId).trans (first.places noteId)
  withdrawn state marked := second.withdrawn state (first.withdrawn state marked)
  emptied record member gone := by
    obtain ⟨old, inside, same, none⟩ := second.emptied record member gone
    obtain ⟨first, before, id, empty⟩ := first.emptied old inside none
    exact ⟨first, before, id.trans same, empty⟩
  journal asked := by
    have later := second.journal asked
    have earlier := first.journal (later.2 ▸ asked)
    exact ⟨later.1.trans earlier.1, later.2.trans earlier.2⟩
  requested state selected asked := by
    rcases first.requested state selected asked with same | marked
    · rcases second.requested state same.1 (same.2 ▸ asked) with again | marked
      · exact .inl ⟨again.1, again.2.trans same.2⟩
      · exact .inr marked
    · exact .inr (second.withdrawn state marked)

theorem Runtime.isIdle_journal {runtime : Runtime} (idle : runtime.isIdle = true) :
    runtime.journal = none := by
  simp only [Runtime.isIdle, Bool.and_eq_true, Option.isNone_iff_eq_none] at idle
  exact idle.1.1

theorem any_isWithdrawalOnly {plan : Option PreparedWithdrawal}
    (reserved : plan.any PreparedWithdrawal.clearanceReserved = true) :
    plan.any PreparedWithdrawal.isWithdrawalOnly = true := by
  cases plan with
  | none => cases reserved
  | some plan =>
    simp only [Option.any_some] at reserved
    simp [PreparedWithdrawal.isWithdrawalOnly, reserved]

theorem archiveBrowserWallet_keeps (tidy : store.Tidy) (single : store.Single) {next : Store}
    {reason : String} {noteId : UInt32} {claimed : Bool}
    (taken : archiveBrowserWallet store reason noteId claimed = some next) : store.Keeps next := by
  rw [archiveBrowserWallet] at taken
  cases selected : store.runtime.state with
  | none => simp [selected] at taken
  | some state =>
    simp only [selected] at taken
    split at taken
    · cases taken
    split at taken
    · cases taken
    rw [Option.some.injEq] at taken
    subst taken
    constructor
    · exact ⟨tidy.ids, tidy.own, tidy.erased, fun journal => by cases journal⟩
    · intro noteId
      simp only [Store.places, Runtime.unselected, ofNote_none, List.nil_append, selected,
        ofNote_some, List.map_cons]
      by_cases same : state.noteId = noteId
      · have unrecorded := single.unrecorded selected
        rw [same] at unrecorded
        rw [if_pos same, unrecorded, ofNote_cons, if_pos same]
        rfl
      · rw [if_neg same, List.nil_append, ofNote_cons, if_neg same]
    · intro held marked
      constructor
      · intro gone
        cases gone
      · exact marked.recorded
    · intro record member gone
      exact ⟨record, member, rfl, gone⟩
    · intro journal
      cases journal
    · intro held same _
      right
      constructor
      · intro gone
        cases gone
      · intro record member recorded
        exact absurd (congrArg NoteState.noteId (Option.some.inj (selected.symm.trans same)))
          (single.apart selected member recorded).symm

theorem detachBrowserEscapeWithdrawal_keeps (tidy : store.Tidy) (single : store.Single)
    {next : Store} {noteId : UInt32} {phase : String} {destination : Option String}
    (taken : detachBrowserEscapeWithdrawal store noteId phase destination = some next) :
    store.Keeps next := by
  rw [detachBrowserEscapeWithdrawal] at taken
  cases selected : store.runtime.state with
  | none => simp [selected] at taken
  | some state =>
    simp only [selected] at taken
    split at taken
    · cases taken
    case isFalse legal =>
      rw [Option.some.injEq] at taken
      subst taken
      have idle : store.runtime.isIdle = true := by simp_all
      exact .ofLeave tidy single selected (Runtime.isIdle_journal idle) rfl rfl rfl rfl fun reserved =>
        reserved

theorem detachBrowserClosedWithdrawal_keeps (tidy : store.Tidy) (single : store.Single)
    {next : Store} {noteId : UInt32} {mode : WithdrawalMode} {destination : Option String}
    {closeBlockNumber : Nat} {reserved : Bool}
    (taken : detachBrowserClosedWithdrawal store noteId mode destination closeBlockNumber reserved =
      some next) : store.Keeps next := by
  rw [detachBrowserClosedWithdrawal] at taken
  cases selected : store.runtime.state with
  | none => simp [selected] at taken
  | some state =>
    simp only [selected] at taken
    split at taken
    · cases taken
    case isFalse legal =>
      rw [Option.some.injEq] at taken
      subst taken
      have idle : store.runtime.isIdle = true := by simp_all
      apply Store.Keeps.ofLeave tidy single selected (Runtime.isIdle_journal idle) rfl rfl rfl rfl
      intro marked
      simp [leavingRecord, any_isWithdrawalOnly marked]

theorem parkBrowserWithdrawal_keeps (tidy : store.Tidy) (single : store.Single) {next : Store}
    (taken : parkBrowserWithdrawal store = some next) : store.Keeps next := by
  rw [parkBrowserWithdrawal] at taken
  cases selected : store.runtime.state with
  | none => simp [selected] at taken
  | some state =>
    cases planned : store.runtime.preparedWithdrawal with
    | none => simp [selected, planned] at taken
    | some prepared =>
      simp only [selected, planned] at taken
      split at taken
      · cases taken
      case isFalse legal =>
        rw [Option.some.injEq] at taken
        subst taken
        have idle : store.runtime.isIdle = true := by simp_all
        apply Store.Keeps.ofLeave tidy single selected (Runtime.isIdle_journal idle) rfl rfl rfl rfl
        intro marked
        have only := any_isWithdrawalOnly marked
        rw [planned] at only
        exact only

theorem restoreBrowserWithdrawal_keeps (tidy : store.Tidy) {next : Store} {noteId : UInt32}
    {revision : Nat} (taken : restoreBrowserWithdrawal store noteId revision = some next) :
    store.Keeps next := by
  rw [restoreBrowserWithdrawal] at taken
  cases found : store.record? noteId with
  | none => simp [found] at taken
  | some record =>
    obtain ⟨member, id⟩ := record?_some found
    cases held : record.state with
    | none => simp [found, held] at taken
    | some state =>
      simp only [found, held] at taken
      split at taken
      · cases taken
      case isFalse legal =>
        rw [Option.some.injEq] at taken
        subst taken
        have idle : store.runtime.isIdle = true := by simp_all
        have unselected : store.runtime.state = none := by simp_all
        have none := Runtime.isIdle_journal idle
        constructor
        · constructor
          · exact deleteRecord_ids noteId tidy.ids
          · intro other kept
            exact tidy.own other (mem_deleteRecord kept).1
          · intro other kept
            exact tidy.erased other (mem_deleteRecord kept).1
          · intro journal
            rw [none] at journal
            cases journal
        · intro asked
          have own := tidy.own record member state held
          simp only [Store.places, unselected, ofNote_none, ofNote_some, List.nil_append]
          rw [ofNote_deleteRecord tidy.own]
          by_cases same : noteId = asked
          · have recorded := ofNote_record tidy.ids tidy.own member
            rw [if_pos (own.trans (id.trans same)), if_pos same, List.append_nil, ← same, ← id,
              recorded, held]
            rfl
          · rw [if_neg (own.trans id ▸ same), if_neg same, List.nil_append]
        · intro marked withdrawn
          constructor
          · intro same
            have reserved := withdrawn.recorded record member (held.trans same)
            exact ⟨none, by simp [WithdrawalRecord.restoredPlan, reserved]⟩
          · intro other kept
            exact withdrawn.recorded other (mem_deleteRecord kept).1
        · intro other kept gone
          exact ⟨other, (mem_deleteRecord kept).1, rfl, gone⟩
        · intro journal
          rw [none] at journal
          cases journal
        · intro marked _ journal
          rw [none] at journal
          cases journal

/-- Late attempts do not matter for the places of a note. -/
theorem rememberLateWithdrawals_keeps (tidy : store.Tidy) (attempts : List LateWithdrawalAttempt) :
    store.Keeps (rememberLateWithdrawals store attempts) :=
  .ofRuntime tidy rfl rfl tidy.plan id

theorem transferBrowserLateWithdrawalAttempt_keeps (tidy : store.Tidy) (single : store.Single)
    {next : Store} {attempt : LateWithdrawalAttempt} {phase : String} {mode : WithdrawalMode}
    {reserved : Bool}
    (taken : transferBrowserLateWithdrawalAttempt store attempt phase mode reserved = some next) :
    store.Keeps next := by
  rw [transferBrowserLateWithdrawalAttempt] at taken
  split at taken
  · cases taken
  split at taken
  · rw [← Option.some.inj taken]
    exact .refl tidy
  by_cases selects : (store.runtime.state.any fun state => state.noteId == attempt.noteId) = true
  · cases selected : store.runtime.state with
    | none => simp [selected] at selects
    | some state =>
      have id : state.noteId = attempt.noteId := by simpa [selected] using selects
      simp only [selects, Bool.true_eq_false, false_and, true_and, if_false, if_true] at taken
      split at taken
      · cases taken
      case isFalse busy =>
        have idle := Runtime.isIdle_journal (by simpa using busy)
        rw [Option.some.injEq] at taken
        subst taken
        -- A record of the same note has been sanitized.
        have none : (store.record? attempt.noteId).bind WithdrawalRecord.state = none ∧
            (store.record? attempt.noteId).bind WithdrawalRecord.preparedWithdrawal = none := by
          cases found : store.record? attempt.noteId with
          | none => exact ⟨rfl, rfl⟩
          | some record =>
            obtain ⟨member, same⟩ := record?_some found
            have gone : record.state = none := by
              cases held : record.state with
              | none => rfl
              | some kept =>
                exact absurd ((tidy.own record member kept held).trans (same.trans id.symm))
                  (single.apart selected member held)
            exact ⟨gone, tidy.erased record member gone⟩
        apply Store.Keeps.ofLeave tidy single selected idle rfl rfl id.symm
        · simp only [none.1, Option.none_or]
          exact selected
        · intro marked
          simp [none.2, any_isWithdrawalOnly marked]
  · have selects' := Bool.eq_false_of_not_eq_true selects
    simp only [selects', true_and, Bool.false_eq_true, false_and, if_false] at taken
    split at taken
    · cases taken
    case isFalse owns =>
      rw [Option.some.injEq] at taken
      subst taken
      cases found : store.record? attempt.noteId with
      | none => simp [found] at owns
      | some record =>
        cases held : record.state with
        | none => simp [found, held] at owns
        | some state =>
          have remembered := rememberLateWithdrawals_keeps tidy (resolveAttempts
            store.runtime.lateWithdrawalAttempts attempt
            (if phase = "closed_unconfirmed" then "closed" else "detached")
            (if (false || phase == "submitted_unconfirmed" || record.startPending) = true then
              "detached" else "superseded"))
          apply remembered.trans
          apply Store.Keeps.ofRecord remembered.tidy found
          · exact (record?_some found).2.symm
          · simp [held]
          · intro marked
            simp [marked]
          · intro gone
            simp [held] at gone

/-- A plan that has to stay withdrawal-only is cleared by force only. -/
theorem clearPreparedWithdrawal_keeps (tidy : store.Tidy) {next : Store} {force : Bool}
    {expectedNoteId : Option UInt32} {expectedTransactionHashes : Option (List String)}
    (unforced : ¬ (force = true ∧
      store.runtime.preparedWithdrawal.any PreparedWithdrawal.isWithdrawalOnly = true))
    (taken : clearPreparedWithdrawal store force expectedNoteId expectedTransactionHashes =
      some next) : store.Keeps next := by
  rw [clearPreparedWithdrawal] at taken
  split at taken
  · rw [← Option.some.inj taken]
    exact .refl tidy
  case h_2 prepared planned =>
    split at taken
    · cases taken
    split at taken
    · cases taken
    split at taken
    · cases taken
    split at taken
    · cases taken
    split at taken
    · cases taken
    case isFalse legal _ _ =>
      rw [← Option.some.inj taken]
      apply Store.Keeps.ofRuntime tidy
      · rfl
      · rfl
      · intro _ plan none
        cases none
      · intro marked
        have only := any_isWithdrawalOnly marked
        rw [planned, Option.any_some] at only unforced
        cases force with
        | false => exact absurd ⟨rfl, only⟩ legal
        | true => exact absurd ⟨rfl, only⟩ unforced

theorem resolveLateChallengedWithdrawalAttempt_keeps (tidy : store.Tidy) {next : Store}
    {attempt : LateWithdrawalAttempt}
    (taken : resolveLateChallengedWithdrawalAttempt store attempt = some next) :
    store.Keeps next := by
  rw [resolveLateChallengedWithdrawalAttempt] at taken
  split at taken
  · cases taken
  split at taken
  · rw [← Option.some.inj taken]
    exact .refl tidy
  simp only at taken
  split at taken
  · cases taken
  rw [← Option.some.inj taken]
  apply Store.Keeps.ofRuntime tidy
  · rfl
  · rfl
  · intro journal plan planned
    cases before : store.runtime.preparedWithdrawal with
    | none =>
      simp only [before, Option.none_or] at planned
      split at planned
      · rw [← Option.some.inj planned]
        rfl
      · cases planned
    | some old =>
      simp only [before, Option.some_or, ite_self] at planned
      exact tidy.plan journal plan (before.trans planned)
  · intro marked
    cases before : store.runtime.preparedWithdrawal with
    | none => simp [before] at marked
    | some old => simpa [before] using marked

theorem resolveChallengedPreparedEscape_keeps (tidy : store.Tidy) {next : Store}
    {noteId : UInt32} (taken : resolveChallengedPreparedEscape store noteId = some next) :
    store.Keeps next := by
  rw [resolveChallengedPreparedEscape] at taken
  split at taken
  · cases taken
  split at taken
  · cases taken
  rw [← Option.some.inj taken]
  apply Store.Keeps.ofRuntime tidy
  · rfl
  · rfl
  · intro _ plan planned
    rw [← Option.some.inj planned]
    rfl
  · intro _
    rfl

theorem planDeposit_keeps (tidy : store.Tidy) {next : Store} {pending : Option PendingDeposit}
    (taken : planDeposit store pending = some next) : store.Keeps next := by
  rw [planDeposit] at taken
  split at taken
  · cases taken
  rw [← Option.some.inj taken]
  exact .ofRuntime tidy rfl rfl tidy.plan id

theorem rewritePreparedWithdrawal_keeps (tidy : store.Tidy) {next : Store} {phase : String}
    {submissionId : Option String} {hashes : List String}
    (taken : rewritePreparedWithdrawal store phase submissionId hashes = some next) :
    store.Keeps next := by
  rw [rewritePreparedWithdrawal, Option.map_eq_some_iff] at taken
  obtain ⟨prepared, planned, rewritten⟩ := taken
  rw [← rewritten]
  apply Store.Keeps.ofRuntime tidy
  · rfl
  · rfl
  · intro journal plan same
    rw [← Option.some.inj same]
    exact tidy.plan journal prepared planned
  · intro marked
    rw [planned] at marked
    exact marked

theorem updateBrowserWithdrawal_keeps (tidy : store.Tidy) {next : Store} {noteId : UInt32}
    {changes : RecordChanges} {revision : Option Nat}
    (taken : updateBrowserWithdrawal store noteId changes false revision = some next) :
    store.Keeps next := by
  rw [updateBrowserWithdrawal] at taken
  cases found : store.record? noteId with
  | none => simp [found] at taken
  | some record =>
    simp only [found] at taken
    split at taken
    · cases taken
    split at taken
    · cases taken
    rw [← Option.some.inj taken]
    exact .ofRecord tidy found rfl rfl id (tidy.erased record (record?_some found).1)

theorem mutateBackgroundWithdrawal_keeps (tidy : store.Tidy) {next : Store} {noteId : UInt32}
    {phase planPhase : String} {startPending finalizePending : Bool}
    {submissionId : Option String} {hashes : List String}
    (taken : mutateBackgroundWithdrawal store noteId phase startPending finalizePending planPhase
      submissionId hashes = some next) : store.Keeps next := by
  rw [mutateBackgroundWithdrawal, Option.map_eq_some_iff] at taken
  obtain ⟨record, found, mutated⟩ := taken
  rw [← mutated]
  apply Store.Keeps.ofRecord tidy found
  · rfl
  · rfl
  · exact id
  intro gone
  simp only [tidy.erased record (record?_some found).1 gone, Option.map_none]

theorem saveBrowserBackgroundWithdrawalPlan_keeps (tidy : store.Tidy) {next : Store}
    {noteId : UInt32} {destination : Option String}
    (taken : saveBrowserBackgroundWithdrawalPlan store noteId destination = some next) :
    store.Keeps next := by
  rw [saveBrowserBackgroundWithdrawalPlan] at taken
  cases found : store.record? noteId with
  | none => simp [found] at taken
  | some record =>
    simp only [found] at taken
    split at taken
    · cases taken
    case isFalse legal =>
      rw [← Option.some.inj taken]
      apply Store.Keeps.ofRecord tidy found
      · rfl
      · rfl
      · exact id
      intro gone
      simp [WithdrawalRecord.isAvailable, show record.state = none from gone] at legal

/-- A new note in the empty slot. -/
theorem confirmDeposit_places (tidy : store.Tidy) {next : Store} {state : NoteState}
    (taken : confirmDeposit store state = some next) :
    next.Tidy ∧ next.runtime.state = some state ∧ next.runtime.journal = none ∧
      store.runtime.state = none ∧ next.withdrawals = store.withdrawals ∧
      ∀ noteId, next.places noteId =
        (if state.noteId = noteId then [state] else []) ++ store.places noteId := by
  rw [confirmDeposit] at taken
  split at taken
  · cases taken
  split at taken
  · cases taken
  case isFalse legal =>
    have unselected : store.runtime.state = none := by simp_all
    rw [← Option.some.inj taken]
    have tidied : Store.Tidy { store with
        runtime := { store.runtime with
          state := some state, journal := none, pendingDeposit := none,
          preparedWithdrawal := none } } :=
      ⟨tidy.ids, tidy.own, tidy.erased, fun journal => by cases journal⟩
    have placed : ∀ noteId, Store.places { store with
        runtime := { store.runtime with
          state := some state, journal := none, pendingDeposit := none,
          preparedWithdrawal := none } } noteId =
        (if state.noteId = noteId then [state] else []) ++ store.places noteId := by
      intro noteId
      simp only [Store.places, unselected, ofNote_none, ofNote_some, List.nil_append,
        List.append_assoc]
    exact ⟨tidied, rfl, rfl, unselected, rfl, placed⟩

/-- The only way to lose a state is to sanitize its record. -/
theorem sanitize_places (tidy : store.Tidy) {next : Store} {noteId : UInt32}
    {changes : RecordChanges} {revision : Option Nat}
    (taken : updateBrowserWithdrawal store noteId changes true revision = some next) :
    next.Tidy ∧ next.runtime = store.runtime ∧
      (∀ state, store.Withdrawn state → next.Withdrawn state) ∧
      (∀ record ∈ next.withdrawals, record.state = none → record.noteId = noteId ∨
        ∃ old ∈ store.withdrawals, old.noteId = record.noteId ∧ old.state = none) ∧
      (∃ record ∈ store.withdrawals, record.noteId = noteId ∧
        ∃ first last, store.places noteId = first ++ record.state.toList ++ last ∧
          next.places noteId = first ++ last) ∧
      ∀ other, other ≠ noteId → next.places other = store.places other := by
  rw [updateBrowserWithdrawal] at taken
  cases found : store.record? noteId with
  | none => simp [found] at taken
  | some record =>
    obtain ⟨member, id⟩ := record?_some found
    simp only [found] at taken
    split at taken
    · cases taken
    split at taken
    · cases taken
    simp only [if_true, Option.some.injEq] at taken
    subst taken
    constructor
    · constructor
      · exact putRecord_ids _ tidy.ids
      · intro other put state held
        cases mem_putRecord put with
        | inl same =>
          rw [same] at held
          cases held
        | inr old => exact tidy.own other old.1 state held
      · intro other put gone
        cases mem_putRecord put with
        | inl same => rw [same]
        | inr old => exact tidy.erased other old.1 gone
      · exact tidy.plan
    refine ⟨rfl, ?_, ?_, ?_, ?_⟩
    · intro state marked
      constructor
      · exact marked.selected
      · intro other put held
        cases mem_putRecord put with
        | inl same =>
          rw [same] at held
          cases held
        | inr old => exact marked.recorded other old.1 held
    · intro other put gone
      cases mem_putRecord put with
      | inl same => exact .inl (same ▸ id)
      | inr old => exact .inr ⟨other, old.1, rfl, gone⟩
    · refine ⟨record, member, id, ofNote noteId store.runtime.state.toList,
        ofNote noteId (store.archives.map ArchivedNote.state), ?_, ?_⟩
      · rw [Store.places, ← id, ofNote_record tidy.ids tidy.own member]
      · simp only [Store.places]
        rw [ofNote_putRecord tidy.own (fun state held => by cases held), if_pos id]
        simp
    · intro other apart
      simp only [Store.places]
      rw [ofNote_putRecord tidy.own (fun state held => by cases held),
        if_neg (fun same => apart (same.symm.trans id))]

end Keeps

end ZkApi.Browser
