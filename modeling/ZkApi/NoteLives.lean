import ZkApi.MirrorSnapshots

/-!
# The life of a note in the mirror

The vault takes a note through a life of a few states.  Events of different notes come in any
order, and as long as every note keeps to such a life its leaf in the mirror is the one of its
deposit while it is active and zero otherwise.
-/

namespace ZkApi.Indexer

section Lives

/-- The states of a note. -/
inductive NoteStatus where
  | absent
  | active
  | escaping
  | closed
deriving DecidableEq

/-- The life of a note: it is deposited once, its escape is challenged any number of times, and
it ends with a mutual close, a claim of its expiry or an escape that is finalized. -/
def NoteStatus.next : NoteStatus → VaultEvent → Option NoteStatus
  | .absent, .noteDeposited _ _ _ _ _ => some .active
  | .active, .escapeWithdrawalInitiated _ _ _ _ _ => some .escaping
  | .escaping, .escapeWithdrawalChallenged _ _ _ => some .active
  | .escaping, .escapeWithdrawalFinalized _ _ _ => some .closed
  | .active, .mutualClose _ _ _ => some .closed
  | .active, .expiredClaimed _ _ _ => some .closed
  | _, _ => none

/-- The status of a note after its events of a list, if they keep to its life. -/
def statusAfter (events : List VaultEvent) (noteId : UInt32) : Option NoteStatus :=
  (events.filter fun event => event.noteId == noteId).foldlM NoteStatus.next .absent

/-- The leaf of the deposit of a note. -/
def depositLeaf (H : TreeFunctions) : VaultEvent → Option Felt252
  | .noteDeposited noteId commitment amount expiryTs _ =>
      some (H.computeNoteLeaf noteId commitment amount expiryTs)
  | _ => none

theorem statusAfter_append (events : List VaultEvent) (event : VaultEvent) (noteId : UInt32) :
    statusAfter (events ++ [event]) noteId =
      if event.noteId = noteId then (statusAfter events noteId).bind (·.next event)
      else statusAfter events noteId := by
  rw [statusAfter, List.filter_append]
  by_cases own : event.noteId = noteId
  · have kept : [event].filter (fun event => event.noteId == noteId) = [event] := by simp [own]
    rw [kept, if_pos own, List.foldlM_append]
    cases status : statusAfter events noteId with
    | none =>
        rw [statusAfter] at status
        rw [status]
        rfl
    | some status' =>
        rw [statusAfter] at status
        rw [status]
        cases next : status'.next event <;> simp [next]
  · have dropped : [event].filter (fun event => event.noteId == noteId) = [] := by simp [own]
    rw [dropped, if_neg own, List.append_nil, statusAfter]

/-- Every beginning of a life is one. -/
theorem statusAfter_append_some {before events : List VaultEvent} (start : before <+: events)
    {noteId : UInt32} (lives : (statusAfter events noteId).isSome = true) :
    (statusAfter before noteId).isSome = true := by
  obtain ⟨rest, rfl⟩ := start
  induction rest using List.reverseRecOn with
  | nil => simpa using lives
  | append_singleton rest event ih =>
      apply ih
      rw [← List.append_assoc, statusAfter_append] at lives
      split at lives
      · cases status : statusAfter (before ++ rest) noteId with
        | none =>
            rw [status] at lives
            cases lives
        | some status' => rfl
      · exact lives

end Lives

namespace TreeMirror

variable {H : TreeFunctions}

section Leaves

/-- An event leaves the leaves of other notes alone. -/
theorem getLeaf_other (mirror : TreeMirror H.leafwise) (event : VaultEvent) {noteId : UInt32}
    (other : event.noteId ≠ noteId) :
    (mirror.processEvent event).getLeaf noteId = mirror.getLeaf noteId := by
  rw [getLeaf_processEvent]
  cases event <;> first
    | rfl
    | exact if_neg (Ne.symm other)

theorem originalLeaves_other (mirror : TreeMirror H.leafwise) (event : VaultEvent) {noteId : UInt32}
    (other : event.noteId ≠ noteId) :
    (mirror.processEvent event).originalLeaves[noteId]? = mirror.originalLeaves[noteId]? := by
  rw [originalLeaves_processEvent]
  cases event <;> first
    | rfl
    | exact if_neg (Ne.symm other)

/-- What the mirror holds of a note with a status: its original leaf is the one of each of its
deposits, and its leaf is the original one while it is active. -/
structure Holds (H : TreeFunctions) (mirror : TreeMirror H.leafwise) (events : List VaultEvent) (noteId : UInt32)
    (status : NoteStatus) : Prop where
  deposits : ∀ event ∈ events, event.noteId = noteId → ∀ leaf, depositLeaf H event = some leaf →
    mirror.originalLeaves[noteId]? = some leaf
  deposited : status ≠ .absent → ∃ event ∈ events, event.noteId = noteId ∧
    depositLeaf H event = mirror.originalLeaves[noteId]? ∧ (depositLeaf H event).isSome = true
  undeposited : status = .absent → ∀ event ∈ events, event.noteId = noteId →
    depositLeaf H event = none
  active : status = .active → mirror.originalLeaves[noteId]? = some (mirror.getLeaf noteId)
  inactive : status ≠ .active → mirror.getLeaf noteId = Felt252.zero

theorem holds_new (noteId : UInt32) : Holds H new [] noteId .absent where
  deposits := by simp
  deposited different := absurd rfl different
  undeposited := by simp
  active different := by cases different
  inactive _ := rfl

variable {mirror : TreeMirror H.leafwise} {events : List VaultEvent} {noteId : UInt32} {status : NoteStatus}

theorem Holds.other (holds : Holds H mirror events noteId status) {event : VaultEvent}
    (other : event.noteId ≠ noteId) :
    Holds H (mirror.processEvent event) (events ++ [event]) noteId status := by
  have original := originalLeaves_other (H := H) mirror event other
  have leaf := getLeaf_other (H := H) mirror event other
  have earlier : ∀ later ∈ events ++ [event], later.noteId = noteId → later ∈ events := by
    intro later member own
    rcases List.mem_append.mp member with early | last
    · exact early
    · rw [List.mem_singleton.mp last] at own
      exact absurd own other
  refine ⟨?_, ?_, ?_, ?_, ?_⟩
  · intro later member own value found
    rw [original]
    exact holds.deposits later (earlier later member own) own value found
  · intro present
    obtain ⟨deposit, member, rest⟩ := holds.deposited present
    rw [original]
    exact ⟨deposit, List.mem_append_left _ member, rest⟩
  · intro absent later member own
    exact holds.undeposited absent later (earlier later member own) own
  · rw [original, leaf]
    exact holds.active
  · rw [leaf]
    exact holds.inactive

/-- An event that is no deposit of a note keeps its original leaf, so only the leaf has to be
looked at. -/
theorem Holds.own (holds : Holds H mirror events noteId status) {event : VaultEvent}
    (present : status ≠ .absent) (noDeposit : depositLeaf H event = none) {after : NoteStatus}
    (still : after ≠ .absent)
    (original : (mirror.processEvent event).originalLeaves[noteId]? =
      mirror.originalLeaves[noteId]?)
    (active : after = .active → mirror.originalLeaves[noteId]? =
      some ((mirror.processEvent event).getLeaf noteId))
    (inactive : after ≠ .active → (mirror.processEvent event).getLeaf noteId = Felt252.zero) :
    Holds H (mirror.processEvent event) (events ++ [event]) noteId after := by
  refine ⟨?_, ?_, fun absent => absurd absent still, ?_, inactive⟩
  · intro later member own value found
    rw [original]
    rcases List.mem_append.mp member with early | last
    · exact holds.deposits later early own value found
    · rw [List.mem_singleton.mp last, noDeposit] at found
      cases found
  · intro _
    obtain ⟨deposit, member, rest⟩ := holds.deposited present
    rw [original]
    exact ⟨deposit, List.mem_append_left _ member, rest⟩
  · rw [original]
    exact active

/-- An event in the life of a note. -/
theorem Holds.next (holds : Holds H mirror events noteId status) {event : VaultEvent}
    (own : event.noteId = noteId) {after : NoteStatus} (next : status.next event = some after) :
    Holds H (mirror.processEvent event) (events ++ [event]) noteId after := by
  subst own
  have leafNow := @getLeaf_processEvent H mirror event event.noteId
  have originalNow := @originalLeaves_processEvent H mirror event event.noteId
  cases status with
  | absent =>
      cases event with
      | noteDeposited depositedId commitment amount expiryTs newRoot =>
          cases next
          simp only [Change.of, leafAfter, originalAfter, VaultEvent.noteId, if_true] at *
          refine ⟨?_, ?_, fun absent => ?_, fun _ => ?_, fun inactive => absurd rfl inactive⟩
          · intro later member own value found
            rcases List.mem_append.mp member with early | last
            · rw [holds.undeposited rfl later early own] at found
              cases found
            · rw [List.mem_singleton.mp last] at found
              rw [originalNow, ← found]
              rfl
          · intro _
            refine ⟨_, List.mem_append_right _ (List.mem_singleton_self _), rfl, ?_, rfl⟩
            rw [originalNow]
            rfl
          · cases absent
          · rw [originalNow, leafNow]
      | _ => cases next
  | active =>
      cases event with
      | mutualClose | escapeWithdrawalInitiated | expiredClaimed =>
          cases next
          exact holds.own (by simp) rfl (by simp) originalNow (by simp) fun _ => by
            rw [leafNow]
            exact if_pos rfl
      | _ => cases next
  | escaping =>
      cases event with
      | escapeWithdrawalChallenged restoredId nullifier restoredRoot =>
          cases next
          refine holds.own (by simp) rfl (by simp) originalNow (fun _ => ?_)
            fun inactive => absurd rfl inactive
          obtain ⟨deposit, member, same, found, isSome⟩ := holds.deposited (by simp)
          obtain ⟨leaf, value⟩ := Option.isSome_iff_exists.mp isSome
          rw [value] at found
          rw [leafNow]
          simp only [Change.of, leafAfter, VaultEvent.noteId, if_true] at *
          rw [← found, Option.getD_some]
      | escapeWithdrawalFinalized =>
          cases next
          exact holds.own (by simp) rfl (by simp) originalNow (by simp) fun _ => by
            rw [leafNow]
            exact holds.inactive (by simp)
      | _ => cases next
  | closed => cases event <;> cases next

/-- A note that keeps to its life has the leaf of its status. -/
theorem holds_of_status (events : List VaultEvent) (noteId : UInt32) {status : NoteStatus}
    (lives : statusAfter events noteId = some status) :
    Holds H (new.processEvents events) events noteId status := by
  induction events using List.reverseRecOn generalizing status with
  | nil =>
      cases lives
      exact holds_new noteId
  | append_singleton events event ih =>
      rw [statusAfter_append] at lives
      rw [processEvents_append]
      split at lives
      · rename_i own
        obtain ⟨before, early, next⟩ := Option.bind_eq_some_iff.mp lives
        exact (ih early).next own next
      · rename_i other
        exact (ih lives).other other

/-- While the events of every note keep to its life, in any interleaving, after every beginning
of them the leaf of a note is the one of its deposit if the note is active and zero otherwise,
and the leaf of a note that was never deposited is zero.  Events of other notes change no leaf. -/
theorem leaves_follow_lives {H : TreeFunctions} (lawful : H.Lawful) {events : List VaultEvent}
    (lives : ∀ noteId, (statusAfter events noteId).isSome = true) {before : List VaultEvent}
    (start : before <+: events) (noteId : UInt32) :
    (statusAfter before noteId = some .active →
      ∃ deposit ∈ before, deposit.noteId = noteId ∧
        depositLeaf H deposit = some ((new.processEvents before : TreeMirror H).getLeaf noteId)) ∧
    (∀ deposit ∈ before, deposit.noteId = noteId → ∀ leaf, depositLeaf H deposit = some leaf →
      (new.processEvents before : TreeMirror H).getLeaf noteId =
          (if statusAfter before noteId = some .active then leaf else Felt252.zero) ∧
        (leaf ≠ Felt252.zero → ((new.processEvents before : TreeMirror H).getLeaf noteId = leaf ↔
          statusAfter before noteId = some .active))) ∧
    (statusAfter before noteId ≠ some .active →
      (new.processEvents before : TreeMirror H).getLeaf noteId = Felt252.zero) ∧
    ((∀ deposit ∈ before, deposit.noteId = noteId → depositLeaf H deposit = none) →
      (new.processEvents before : TreeMirror H).getLeaf noteId = Felt252.zero) ∧
    ∀ event, before ++ [event] <+: events → event.noteId ≠ noteId →
      (new.processEvents (before ++ [event]) : TreeMirror H).getLeaf noteId =
        (new.processEvents before : TreeMirror H).getLeaf noteId := by
  have leaves : ∀ events, (new.processEvents events : TreeMirror H).getLeaf noteId =
      (new.processEvents events : TreeMirror H.leafwise).getLeaf noteId := by
    intro events
    have same : (new.processEvents events : TreeMirror H).leafwise = new.processEvents events := by
      rw [leafwise_processEvents lawful, leafwise_new lawful]
    rw [← same]
    rfl
  simp only [leaves]
  obtain ⟨status, known⟩ := Option.isSome_iff_exists.mp (statusAfter_append_some start (lives noteId))
  have holds := holds_of_status (H := H) before noteId known
  have inactive : statusAfter before noteId ≠ some .active →
      (new.processEvents before : TreeMirror H.leafwise).getLeaf noteId = Felt252.zero := by
    intro other
    apply holds.inactive
    rintro rfl
    exact other known
  refine ⟨?_, ?_, inactive, ?_, ?_⟩
  · intro active
    cases known.symm.trans active
    obtain ⟨deposit, member, own, found, -⟩ := holds.deposited (by simp)
    exact ⟨deposit, member, own, found.trans (holds.active rfl)⟩
  · intro deposit member own leaf found
    have original := holds.deposits deposit member own leaf found
    have value : (new.processEvents before : TreeMirror H.leafwise).getLeaf noteId =
        if statusAfter before noteId = some .active then leaf else Felt252.zero := by
      split
      · rename_i active
        cases known.symm.trans active
        have same := (holds.active rfl).symm.trans original
        exact Option.some.inj same
      · rename_i other
        exact inactive other
    refine ⟨value, fun nonzero => ?_⟩
    rw [value]
    split
    · rename_i active
      simp [active]
    · rename_i other
      simp [other, Ne.symm nonzero]
  · intro none
    apply holds.inactive
    rintro rfl
    obtain ⟨deposit, member, own, -, found⟩ := holds.deposited (by simp)
    rw [none deposit member own] at found
    cases found
  · intro event _ other
    rw [processEvents_append]
    exact getLeaf_other _ event other

/-- Two notes whose events alternate, the later id first. -/
def alternatingLives : List VaultEvent :=
  [.noteDeposited 7 ⟨1⟩ 1000 1700000000 ⟨0⟩, .noteDeposited 3 ⟨2⟩ 500 1700000000 ⟨0⟩,
    .escapeWithdrawalInitiated 7 ⟨9⟩ 900 1700086400 ⟨0⟩, .mutualClose 3 ⟨8⟩ 400,
    .escapeWithdrawalChallenged 7 ⟨9⟩ ⟨0⟩]

theorem alternatingLives_live (noteId : UInt32) :
    (statusAfter alternatingLives noteId).isSome = true := by
  by_cases first : noteId = 7
  · subst first
    decide
  · by_cases second : noteId = 3
    · subst second
      decide
    · have none : alternatingLives.filter (fun event => event.noteId == noteId) = [] := by
        simp [alternatingLives, VaultEvent.noteId, Ne.symm first, Ne.symm second]
      rw [statusAfter, none]
      rfl

theorem leaves_follow_lives_sample :
    (new.processEvents alternatingLives : TreeMirror constantTree).getLeaf 3 = Felt252.zero :=
  (leaves_follow_lives (TreeFunctions.ofHash_lawful _ _) alternatingLives_live
    (List.prefix_refl _) 3).2.2.1 (by decide)

end Leaves

end TreeMirror

end ZkApi.Indexer
