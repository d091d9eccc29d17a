import ZkApi.BrowserReference
import ZkApi.LeaseCallers
import ZkApi.WalletSteps

/-!
# Ownership of the leases of the browser wallet

A tab holds the key of the lease that it has issued, and the row of the store says
so.  Nobody else retires that lease before it may be settled, as long as the end of
a retirement finds no newer lease in its tab.
-/

namespace ZkApi.Browser

open Clientd

section Assumptions

/-- The server has already answered for the lease of this request. -/
def Entry.answersFor (clientRequestId : String) : Entry → Bool
  | .granted body _ => body.clientRequestId == clientRequestId
  | .sawFinalized _ id => id == clientRequestId
  | _ => false

/-- Open tabs have different owners, requests have fresh identifiers, and the key of a
request is issued once, while it is not finalized. -/
def World.isHonest (world : World) : Action → Bool
  | .opens ownerId => (List.range world.opened).all fun id =>
      !(world.tabs id).alive || (world.tabs id).ownerId != ownerId
  | .replies (.lease _) =>
      match world.critical.bind fun critical => critical.stage.request? with
      | some request => !world.log.any (Entry.answersFor request.clientRequestId)
      | none => true
  | _ => true

/-- A retirement that gets the lock finds no other lease active in its tab, and a tab with an
active lease does not hand over an attempt of the selected note that is settled already. -/
def World.isSteady (world : World) : Action → Bool
  | .enters id (.retiresLease serial) => (world.tabs id).activeLease.all (· == serial)
  | .changes id (.transfers attempt phase mode clearanceReserved) _ _ =>
      !attempt.isTerminal || (world.tabs id).activeLease.isNone ||
        !(StoreChange.transfers attempt phase mode clearanceReserved).forgetsLease world.store
  | _ => true

def World.isLegal (world : World) (action : Action) : Bool :=
  world.isOrderly action && world.isHonest action && world.isSteady action

/-- No lease is retired while its key is in use before it may be settled, and a key is
handed out to the session of its lease, with time to spare and not once it is
finalized. -/
structure Safe (log : List Entry) : Prop where
  unused : ∀ body state stored, .retirementPosted body state stored true ∉ log
  handed : ∀ id lease sessionId chosenAt earlier,
    .checkedOut id lease sessionId chosenAt :: earlier <:+ log →
      lease.sessionId = sessionId ∧
      (∀ now, chosenAt = some now → now + minRequestLeaseRemainingSeconds ≤ lease.expiresAt) ∧
      lease.retired = false ∧ .sawFinalized id lease.clientRequestId ∉ earlier

end Assumptions

section Invariant

def World.journalId (world : World) : Option String :=
  world.store.runtime.journal.map fun journal => journal.preparedRequest.clientRequestId

/-- What holds of the leases of a tab. -/
structure Tab.Leased (world : World) (id : Nat) (tab : Tab) : Prop where
  living : ∀ lease ∈ tab.leases, tab.alive = true
  older : ∀ lease ∈ tab.leases, lease.serial < world.serials
  single : ∀ first ∈ tab.leases, ∀ second ∈ tab.leases, first.serial = second.serial →
    first = second
  granted : ∀ lease ∈ tab.leases,
    world.log.any (Entry.answersFor lease.clientRequestId) = true
  retiring : ∀ lease ∈ tab.leases, lease.retiring = true → lease.inFlight = 0
  retirement : ∀ serial, tab.retirement = some serial → serial < world.serials ∧
    ∀ lease ∈ tab.leases, lease.serial = serial → lease.retiring = true
  used : ∀ lease ∈ tab.leases, world.journalId = some lease.clientRequestId →
    0 < lease.inFlight → world.clock < lease.settleAfter →
      tab.activeLease = some lease.serial
  owns : ∀ lease ∈ tab.leases, world.journalId = some lease.clientRequestId →
    tab.activeLease = some lease.serial → ∃ row, world.store.runtime.lease = some row ∧
      row.ownerId = tab.ownerId ∧ row.settleAfter = lease.settleAfter
  waits : ∀ serial sessionId chosenAt, .ensureReturns serial sessionId chosenAt ∈ tab.pending →
    serial < world.serials ∧ ∀ lease ∈ tab.leases, lease.serial = serial →
      lease.sessionId = sessionId ∧
        ∀ now, chosenAt = some now → now + minRequestLeaseRemainingSeconds ≤ lease.expiresAt
  seen : ∀ lease ∈ tab.leases, tab.activeLease = some lease.serial →
    .sawFinalized id lease.clientRequestId ∉ world.log

structure World.Leased (world : World) : Prop where
  tabs : ∀ id, (world.tabs id).Leased world id
  opened : ∀ id, (world.tabs id).alive = true → id < world.opened
  owners : ∀ first second, (world.tabs first).alive = true → (world.tabs second).alive = true →
    (world.tabs first).ownerId = (world.tabs second).ownerId → first = second
  once : ∀ first second, ∀ lease ∈ (world.tabs first).leases,
    ∀ other ∈ (world.tabs second).leases, lease.clientRequestId = other.clientRequestId →
      first = second ∧ lease.serial = other.serial
  proved : ∀ clientRequestId, world.log.any (Entry.answersFor clientRequestId) = true →
    ∃ entry ∈ world.log, entry.proves? = some clientRequestId
  safe : Safe world.log

/-- No tab has the key of this request. -/
def World.Unissued (world : World) (clientRequestId : String) : Prop :=
  ∀ id, ∀ lease ∈ (world.tabs id).leases, lease.clientRequestId ≠ clientRequestId

/-- The lease of this request is active in no tab before it may be settled. -/
def World.Unowned (world : World) (clientRequestId : String) : Prop :=
  ∀ id, ∀ lease ∈ (world.tabs id).leases, lease.clientRequestId = clientRequestId →
    (world.tabs id).activeLease = some lease.serial → lease.settleAfter ≤ world.clock

/-- The tab that has the lock retires the lease with this key. -/
def World.Retires (world : World) (id serial : Nat) (clientRequestId : String) : Prop :=
  (world.tabs id).retirement = some serial ∧ ∃ lease ∈ (world.tabs id).leases,
    lease.serial = serial ∧ lease.clientRequestId = clientRequestId

/-- The request that is about to be retired. -/
def Stage.retires? : Stage → Option (Retirer × ApiRequestV2)
  | .sends (.retirement retirer) request _ _ => some (retirer, request)
  | .rests (.retirement retirer) request _ _ _ => some (retirer, request)
  | _ => none

structure World.Holds (world : World) (id : Nat) (purpose : Purpose) : Prop where
  alive : (world.tabs id).alive = true
  row : (world.tabs id).runtime.lease = world.store.runtime.lease
  retirement : ∀ serial, purpose = .retiresLease serial →
    (world.tabs id).retirement = some serial ∧
      ((world.tabs id).activeLease = none ∨ (world.tabs id).activeLease = some serial)

structure Stage.Leased (world : World) (id : Nat) (purpose : Purpose) (stage : Stage) : Prop where
  recovery : stage.retirer? = some .recovery → (world.tabs id).activeLease = none
  holder : ∀ serial, stage.retirer? = some (.holder serial) → purpose = .retiresLease serial
  unowned : ∀ request, stage.retires? = some (.recovery, request) →
    world.Unowned request.clientRequestId
  unissued : ∀ sessionId budget request,
    stage.retires? = some (.migration sessionId budget, request) →
      world.Unissued request.clientRequestId
  retires : ∀ serial request, stage.retires? = some (.holder serial, request) →
    world.Retires id serial request.clientRequestId
  verifies : ∀ legacy request lease, stage = .verifies legacy request lease →
    world.Unissued request.clientRequestId ∧ lease.clientRequestId = request.clientRequestId ∧
      world.log.any (Entry.answersFor request.clientRequestId) = true ∧
      .sawFinalized id request.clientRequestId ∉ world.log

structure World.Kept (world : World) : Prop where
  leased : world.Leased
  holds : ∀ critical, world.critical = some critical →
    world.Holds critical.tab critical.purpose
  stage : ∀ critical, world.critical = some critical →
    critical.stage.Leased world critical.tab critical.purpose

end Invariant

section Tabs

variable {world next : World} {id : Nat} {tab changed : Tab}

/-- The parts of a lease that nobody changes. -/
structure ActiveLease.SameKey (lease other : ActiveLease) : Prop where
  serial : other.serial = lease.serial
  clientRequestId : other.clientRequestId = lease.clientRequestId
  sessionId : other.sessionId = lease.sessionId
  expiresAt : other.expiresAt = lease.expiresAt
  settleAfter : other.settleAfter = lease.settleAfter

theorem ActiveLease.SameKey.refl (lease : ActiveLease) : lease.SameKey lease :=
  ⟨rfl, rfl, rfl, rfl, rfl⟩

/-- A tab with the same keys, and no lease active that was not. -/
structure Tab.Follows (tab next : Tab) : Prop where
  alive : next.alive = tab.alive
  owner : next.ownerId = tab.ownerId
  keys : ∀ lease ∈ next.leases, ∃ old ∈ tab.leases, old.SameKey lease
  kept : ∀ old ∈ tab.leases, ∃ lease ∈ next.leases, old.SameKey lease
  active : next.activeLease = tab.activeLease ∨ next.activeLease = none

theorem Tab.Follows.ofEq (alive : changed.alive = tab.alive)
    (owner : changed.ownerId = tab.ownerId) (leases : changed.leases = tab.leases)
    (active : changed.activeLease = tab.activeLease ∨ changed.activeLease = none) :
    tab.Follows changed where
  alive := alive
  owner := owner
  keys lease member := ⟨lease, leases ▸ member, .refl lease⟩
  kept lease member := ⟨lease, leases ▸ member, .refl lease⟩
  active := active

theorem Tab.Follows.trans {middle : Tab} (first : tab.Follows middle)
    (second : middle.Follows changed) : tab.Follows changed where
  alive := second.alive.trans first.alive
  owner := second.owner.trans first.owner
  keys lease member := by
    obtain ⟨old, inside, same⟩ := second.keys lease member
    obtain ⟨older, before, was⟩ := first.keys old inside
    exact ⟨older, before, same.serial.trans was.serial,
      same.clientRequestId.trans was.clientRequestId, same.sessionId.trans was.sessionId,
      same.expiresAt.trans was.expiresAt, same.settleAfter.trans was.settleAfter⟩
  kept older before := by
    obtain ⟨old, inside, was⟩ := first.kept older before
    obtain ⟨lease, member, same⟩ := second.kept old inside
    exact ⟨lease, member, same.serial.trans was.serial,
      same.clientRequestId.trans was.clientRequestId, same.sessionId.trans was.sessionId,
      same.expiresAt.trans was.expiresAt, same.settleAfter.trans was.settleAfter⟩
  active := by
    rcases second.active with same | none
    · rw [same]
      exact first.active
    · exact .inr none

theorem Tab.lease?_some {serial : Nat} {lease : ActiveLease}
    (found : tab.lease? serial = some lease) : lease ∈ tab.leases ∧ lease.serial = serial := by
  have named := List.find?_some found
  exact ⟨List.mem_of_find?_eq_some found, eq_of_beq named⟩

theorem Tab.current_some {lease : ActiveLease} (found : tab.current = some lease) :
    lease ∈ tab.leases ∧ tab.activeLease = some lease.serial := by
  obtain ⟨serial, active, held⟩ := Option.bind_eq_some_iff.mp found
  obtain ⟨member, same⟩ := Tab.lease?_some held
  exact ⟨member, active.trans (congrArg some same.symm)⟩

/-- The leases of a tab stay in order when the world moves on. -/
theorem Tab.Leased.moves (held : tab.Leased world id)
    (stored : ∀ lease ∈ tab.leases, next.journalId = some lease.clientRequestId →
      world.journalId = some lease.clientRequestId ∧
        next.store.runtime.lease = world.store.runtime.lease)
    (clock : world.clock ≤ next.clock) (serials : world.serials ≤ next.serials)
    (log : ∀ entry ∈ world.log, entry ∈ next.log)
    (seen : ∀ lease ∈ tab.leases, tab.activeLease = some lease.serial →
      .sawFinalized id lease.clientRequestId ∈ next.log →
        .sawFinalized id lease.clientRequestId ∈ world.log) : tab.Leased next id where
  living := held.living
  older lease member := Nat.lt_of_lt_of_le (held.older lease member) serials
  single := held.single
  granted lease member := by
    obtain ⟨entry, inside, answers⟩ := List.any_eq_true.mp (held.granted lease member)
    exact List.any_eq_true.mpr ⟨entry, log entry inside, answers⟩
  retiring := held.retiring
  retirement serial retires := by
    obtain ⟨older, flags⟩ := held.retirement serial retires
    exact ⟨Nat.lt_of_lt_of_le older serials, flags⟩
  used lease member journal flight early :=
    held.used lease member (stored lease member journal).1 flight
      (Nat.lt_of_le_of_lt clock early)
  owns lease member journal active := by
    rw [(stored lease member journal).2]
    exact held.owns lease member (stored lease member journal).1 active
  waits serial sessionId chosenAt member := by
    obtain ⟨older, session⟩ := held.waits serial sessionId chosenAt member
    exact ⟨Nat.lt_of_lt_of_le older serials, session⟩
  seen lease member active saw := held.seen lease member active (seen lease member active saw)

/-- A change of a tab that leaves its leases alone. -/
theorem Tab.Leased.rewrite (held : tab.Leased world id) (alive : changed.alive = tab.alive)
    (owner : changed.ownerId = tab.ownerId) (leases : changed.leases = tab.leases)
    (active : changed.activeLease = tab.activeLease)
    (retirement : changed.retirement = tab.retirement ∨ changed.retirement = none)
    (pending : ∀ serial sessionId chosenAt,
      .ensureReturns serial sessionId chosenAt ∈ changed.pending →
        .ensureReturns serial sessionId chosenAt ∈ tab.pending) : changed.Leased world id where
  living := by rw [leases, alive]; exact held.living
  older := by rw [leases]; exact held.older
  single := by rw [leases]; exact held.single
  granted := by rw [leases]; exact held.granted
  retiring := by rw [leases]; exact held.retiring
  retirement serial retires := by
    rw [leases]
    cases retirement with
    | inl same => exact held.retirement serial (same ▸ retires)
    | inr none =>
      rw [none] at retires
      cases retires
  used := by rw [leases, active]; exact held.used
  owns := by rw [leases, active, owner]; exact held.owns
  waits serial sessionId chosenAt member := by
    rw [leases]
    exact held.waits serial sessionId chosenAt (pending serial sessionId chosenAt member)
  seen := by rw [leases, active]; exact held.seen

/-- The tab forgets its active lease, which is not in use. -/
theorem Tab.Leased.forget (held : tab.Leased world id)
    (unused : ∀ lease ∈ tab.leases, world.journalId = some lease.clientRequestId →
      lease.inFlight = 0 ∨ lease.settleAfter ≤ world.clock) :
    { tab with activeLease := none }.Leased world id where
  living := held.living
  older := held.older
  single := held.single
  granted := held.granted
  retiring := held.retiring
  retirement := held.retirement
  used lease member journal flight early := by
    rcases unused lease member journal with none | late <;> omega
  owns lease member journal active := by cases active
  waits := held.waits
  seen lease member active := by cases active

/-- A change of the counts and flags of one lease. -/
theorem Tab.Leased.modify (held : tab.Leased world id) (serial : Nat)
    (change : ActiveLease → ActiveLease) (same : ∀ lease : ActiveLease, lease.SameKey (change lease))
    (retiring : ∀ lease ∈ tab.leases, lease.serial = serial → (change lease).retiring = true →
      (change lease).inFlight = 0)
    (still : tab.retirement = some serial → ∀ lease ∈ tab.leases, lease.serial = serial →
      (change lease).retiring = true)
    (flight : ∀ lease ∈ tab.leases, lease.serial = serial → 0 < (change lease).inFlight →
      0 < lease.inFlight ∨ tab.activeLease = some lease.serial) :
    (tab.modify serial change).Leased world id ∧ tab.Follows (tab.modify serial change) := by
  have from' : ∀ lease ∈ (tab.modify serial change).leases, ∃ old ∈ tab.leases,
      old.SameKey lease ∧ (lease = old ∧ old.serial ≠ serial ∨
        lease = change old ∧ old.serial = serial) := by
    intro lease member
    obtain ⟨old, inside, made⟩ := List.mem_map.mp member
    by_cases here : old.serial = serial
    · rw [if_pos here] at made
      exact ⟨old, inside, made ▸ same old, .inr ⟨made.symm, here⟩⟩
    · rw [if_neg here] at made
      exact ⟨old, inside, made ▸ .refl old, .inl ⟨made.symm, here⟩⟩
  constructor
  · constructor
    · intro lease member
      obtain ⟨old, inside, _⟩ := from' lease member
      exact held.living old inside
    · intro lease member
      obtain ⟨old, inside, key, _⟩ := from' lease member
      exact key.serial ▸ held.older old inside
    · intro first member second other equal
      obtain ⟨old, inside, key, one⟩ := from' first member
      obtain ⟨older, within, also, two⟩ := from' second other
      have one' := held.single old inside older within
        (key.serial.symm.trans (equal.trans also.serial))
      subst one'
      rcases one with ⟨rfl, apart⟩ | ⟨rfl, here⟩ <;> rcases two with ⟨rfl, far⟩ | ⟨rfl, there⟩
      · rfl
      · exact absurd there apart
      · exact absurd here far
      · rfl
    · intro lease member
      obtain ⟨old, inside, key, _⟩ := from' lease member
      rw [key.clientRequestId]
      exact held.granted old inside
    · intro lease member
      obtain ⟨old, inside, _, ⟨rfl, _⟩ | ⟨rfl, here⟩⟩ := from' lease member
      · exact held.retiring lease inside
      · exact retiring old inside here
    · intro retired retires
      refine ⟨(held.retirement retired retires).1, fun lease member named => ?_⟩
      obtain ⟨old, inside, key, ⟨rfl, _⟩ | ⟨rfl, here⟩⟩ := from' lease member
      · exact (held.retirement retired retires).2 lease inside named
      · have own : retired = serial := named.symm.trans (key.serial.trans here)
        subst own
        exact still retires old inside here
    · intro lease member journal busy early
      obtain ⟨old, inside, key, ⟨rfl, _⟩ | ⟨rfl, here⟩⟩ := from' lease member
      · exact held.used lease inside journal busy early
      · rw [key.serial]
        rw [key.clientRequestId] at journal
        rw [key.settleAfter] at early
        rcases flight old inside here busy with before | active
        · exact held.used old inside journal before early
        · exact active
    · intro lease member journal active
      obtain ⟨old, inside, key, _⟩ := from' lease member
      rw [key.clientRequestId] at journal
      rw [key.settleAfter]
      exact held.owns old inside journal (key.serial ▸ active)
    · intro waiting sessionId chosenAt member
      obtain ⟨older, session⟩ := held.waits waiting sessionId chosenAt member
      refine ⟨older, fun lease inside named => ?_⟩
      obtain ⟨old, before, key, _⟩ := from' lease inside
      rw [key.sessionId, key.expiresAt]
      exact session old before (key.serial.symm.trans named)
    · intro lease member active
      obtain ⟨old, inside, key, _⟩ := from' lease member
      rw [key.clientRequestId]
      exact held.seen old inside (key.serial ▸ active)
  · constructor
    · rfl
    · rfl
    · intro lease member
      obtain ⟨old, inside, key, _⟩ := from' lease member
      exact ⟨old, inside, key⟩
    · intro old inside
      by_cases here : old.serial = serial
      · refine ⟨change old, List.mem_map.mpr ⟨old, inside, if_pos here⟩, same old⟩
      · exact ⟨old, List.mem_map.mpr ⟨old, inside, if_neg here⟩, .refl old⟩
    · exact .inl rfl

/-- What a call of a tab does to its leases. -/
structure Tab.Goes (world : World) (id : Nat) (tab next : Tab) : Prop where
  leased : next.Leased world id
  follows : tab.Follows next
  retirement : ∀ serial, tab.retirement = some serial → next.retirement = some serial

theorem Tab.Goes.rewrite (held : tab.Leased world id) (alive : changed.alive = tab.alive)
    (owner : changed.ownerId = tab.ownerId) (leases : changed.leases = tab.leases)
    (active : changed.activeLease = tab.activeLease)
    (retirement : changed.retirement = tab.retirement)
    (pending : ∀ serial sessionId chosenAt,
      .ensureReturns serial sessionId chosenAt ∈ changed.pending →
        .ensureReturns serial sessionId chosenAt ∈ tab.pending) : tab.Goes world id changed where
  leased := held.rewrite alive owner leases active (.inl retirement) pending
  follows := .ofEq alive owner leases (.inl active)
  retirement _ retires := retirement.trans retires

theorem Tab.Goes.trans {middle : Tab} (first : tab.Goes world id middle)
    (second : middle.Goes world id changed) : tab.Goes world id changed where
  leased := second.leased
  follows := first.follows.trans second.follows
  retirement serial retires := second.retirement serial (first.retirement serial retires)

theorem Tab.Goes.refl (held : tab.Leased world id) : tab.Goes world id tab :=
  ⟨held, .ofEq rfl rfl rfl (.inl rfl), fun _ retires => retires⟩

theorem Tab.Goes.waits (held : tab.Leased world id) {call : Pending}
    (other : ∀ serial sessionId chosenAt, call ≠ .ensureReturns serial sessionId chosenAt) :
    tab.Goes world id { tab with pending := call :: tab.pending } :=
  .rewrite held rfl rfl rfl rfl rfl fun serial sessionId chosenAt member =>
    (List.mem_cons.mp member).resolve_left (other serial sessionId chosenAt).symm

theorem Tab.retireActiveLease_goes (held : tab.Leased world id)
    (retired : tab.retireActiveLease = some changed) : tab.Goes world id changed := by
  rw [Tab.retireActiveLease] at retired
  split at retired
  case h_1 lease journal none current stored =>
    obtain ⟨member, active⟩ := Tab.current_some current
    split at retired
    · cases retired
    case isFalse idle =>
      rw [Option.some.injEq] at retired
      subst retired
      have one : ∀ other ∈ tab.leases, other.serial = lease.serial → other = lease :=
        fun other inside named => held.single other inside lease member named
      obtain ⟨leased, follows⟩ := held.modify lease.serial
        (fun lease => { lease with retiring := true })
        (fun lease => ⟨rfl, rfl, rfl, rfl, rfl⟩)
        (fun other inside named _ => by
          rw [one other inside named]
          exact Nat.eq_zero_of_not_pos idle)
        (fun _ _ _ _ => rfl) (fun _ _ _ busy => .inl busy)
      constructor
      · exact {
          leased with
          retirement := by
            intro _ named
            rw [← Option.some.inj named]
            refine ⟨held.older lease member, fun other inside same => ?_⟩
            obtain ⟨old, before, made⟩ := List.mem_map.mp inside
            by_cases here : old.serial = lease.serial
            · rw [if_pos here] at made
              rw [← made]
            · rw [if_neg here] at made
              rw [← made] at same
              exact absurd same here }
      · exact follows.trans (.ofEq rfl rfl rfl (.inl rfl))
      · intro serial retires
        rw [none] at retires
        cases retires
  · exact Option.some.inj retired ▸ .refl held

theorem Tab.waitForLeasePromise_goes (held : tab.Leased world id) {job : LeaseJob}
    {sessionId : String} {budget : Nat}
    (waited : tab.waitForLeasePromise job sessionId budget = .ok changed) :
    tab.Goes world id changed := by
  rw [Tab.waitForLeasePromise] at waited
  split at waited
  · cases waited
  split at waited
  · cases waited
  · exact Except.ok.inj waited ▸ .waits held (by simp)

theorem Tab.ensureLease_goes (held : tab.Leased world id) {sessionId : String}
    {budget now : Nat} (ensured : tab.ensureLease sessionId budget now = .ok changed) :
    tab.Goes world id changed := by
  rw [Tab.ensureLease] at ensured
  split at ensured
  · exact Tab.waitForLeasePromise_goes held ensured
  split at ensured
  · exact Except.ok.inj ensured ▸ .waits held (by simp)
  case h_2 lease current =>
    obtain ⟨inside, active⟩ := Tab.current_some current
    split at ensured
    case isTrue usable =>
      split at ensured
      · cases ensured
      case isFalse own =>
        rw [Except.ok.injEq] at ensured
        subst ensured
        constructor
        · exact {
            held with
            waits := by
              intro serial session chosenAt member
              rcases List.mem_cons.mp member with now | before
              · rw [Pending.ensureReturns.injEq] at now
                obtain ⟨rfl, rfl, rfl⟩ := now
                refine ⟨held.older lease inside, fun other found named => ?_⟩
                rw [held.single other found lease inside named]
                refine ⟨not_not.mp own, fun chosen same => ?_⟩
                simp only [ActiveLease.isUsable, Bool.and_eq_true, decide_eq_true_eq] at usable
                have chosenNow := Option.some.inj same
                omega
              · exact held.waits serial session chosenAt before }
        · exact .ofEq rfl rfl rfl (.inl rfl)
        · exact fun _ retires => retires
    · split at ensured
      · cases ensured
      · exact Except.ok.inj ensured ▸ .waits held (by simp)

theorem Tab.ensureReloaded_goes (held : tab.Leased world id) {sessionId : String}
    {budget now : Nat} (ensured : tab.ensureReloaded sessionId budget now = .ok changed) :
    tab.Goes world id changed := by
  rw [Tab.ensureReloaded] at ensured
  split at ensured
  · cases ensured
  split at ensured
  · exact Tab.waitForLeasePromise_goes held ensured
  · dsimp only at ensured
    have started : tab.Goes world id { tab with
        job := some ⟨sessionId, budget, false⟩, pending := .ensureWaits sessionId :: tab.pending } :=
      .rewrite held rfl rfl rfl rfl rfl fun _ _ _ member =>
        (List.mem_cons.mp member).resolve_left (by simp)
    split at ensured
    · cases ensured
    case h_2 retiring retired =>
      have goes := Tab.retireActiveLease_goes started.leased retired
      rw [← Except.ok.inj ensured]
      apply started.trans (goes.trans _)
      exact .rewrite goes.leased rfl rfl rfl rfl rfl fun _ _ _ member => member
    · exact Except.ok.inj ensured ▸ started

theorem Tab.settleAwaited_goes (held : tab.Leased world id)
    (settled : tab.settleAwaited = .ok changed) : tab.Goes world id changed := by
  rw [Tab.settleAwaited] at settled
  split at settled
  · cases settled
  split at settled
  · exact Except.ok.inj settled ▸ .waits held (by simp)
  · cases settled
  case h_3 retiring _ retired =>
    have goes := Tab.retireActiveLease_goes held retired
    exact Except.ok.inj settled ▸ goes.trans (.waits goes.leased (by simp))

theorem Tab.settleSessionLease_goes (held : tab.Leased world id) {sessionId : String}
    (settled : tab.settleSessionLease sessionId = .ok changed) : tab.Goes world id changed := by
  rw [Tab.settleSessionLease] at settled
  split at settled
  · split at settled
    · cases settled
    case h_2 retiring retired =>
      have goes := Tab.retireActiveLease_goes held retired
      exact Except.ok.inj settled ▸ goes.trans (.waits goes.leased (by simp))
  · exact Except.ok.inj settled ▸ .waits held (by simp)

/-- A settlement only forgets a lease once there is no journal. -/
theorem Tab.settleEnded_goes (held : tab.Leased world id)
    (runtime : tab.runtime = world.store.runtime) (settled : tab.settleEnded = .ok changed) :
    tab.Goes world id changed := by
  rw [Tab.settleEnded] at settled
  split at settled
  · cases settled
  case isFalse dropped =>
    rw [← Except.ok.inj settled]
    constructor
    · apply held.forget
      intro lease _ journal
      rw [runtime, Option.not_isSome_iff_eq_none] at dropped
      rw [World.journalId, dropped] at journal
      cases journal
    · exact .ofEq rfl rfl rfl (.inr rfl)
    · exact fun _ retires => retires

end Tabs

section Worlds

variable {world next : World} {id : Nat} {purpose : Purpose} {stage : Stage}

/-- An entry about neither leases nor keys. -/
def Entry.isQuiet : Entry → Bool
  | .granted _ _ | .sawFinalized _ _ | .checkedOut _ _ _ _ | .retirementPosted _ _ _ _ => false
  | _ => true

theorem World.Leased.setTab (leased : world.Leased) {tab : Tab} (held : tab.Leased world id)
    (follows : (world.tabs id).Follows tab) : (world.setTab id tab).Leased := by
  have cases' : ∀ other, ((world.setTab id tab).tabs other = tab ∧ other = id) ∨
      (world.setTab id tab).tabs other = world.tabs other := by
    intro other
    by_cases same : other = id
    · exact .inl ⟨by rw [same, World.setTab_self], same⟩
    · exact .inr (World.setTab_other _ _ same)
  have alive : ∀ other, ((world.setTab id tab).tabs other).alive = (world.tabs other).alive := by
    intro other
    rcases cases' other with ⟨same, rfl⟩ | same <;> rw [same]
    exact follows.alive
  have owner : ∀ other, ((world.setTab id tab).tabs other).ownerId =
      (world.tabs other).ownerId := by
    intro other
    rcases cases' other with ⟨same, rfl⟩ | same <;> rw [same]
    exact follows.owner
  have keys : ∀ other, ∀ lease ∈ ((world.setTab id tab).tabs other).leases,
      ∃ old ∈ (world.tabs other).leases, old.SameKey lease := by
    intro other lease member
    rcases cases' other with ⟨same, rfl⟩ | same <;> rw [same] at member
    · exact follows.keys lease member
    · exact ⟨lease, member, .refl lease⟩
  constructor
  · intro other
    have own : ((world.setTab id tab).tabs other).Leased world other := by
      rcases cases' other with ⟨same, rfl⟩ | same <;> rw [same]
      · exact held
      · exact leased.tabs other
    exact own.moves (fun _ _ journal => ⟨journal, rfl⟩) (Nat.le_refl _) (Nat.le_refl _)
      (fun _ member => member) fun _ _ _ saw => saw
  · intro other living
    exact leased.opened other ((alive other).symm.trans living)
  · intro first second living also same
    rw [alive] at living also
    rw [owner, owner] at same
    exact leased.owners first second living also same
  · intro first second lease member other inside same
    obtain ⟨old, before, key⟩ := keys first lease member
    obtain ⟨older, within, also⟩ := keys second other inside
    rw [key.serial, also.serial]
    exact leased.once first second old before older within
      (key.clientRequestId.symm.trans (same.trans also.clientRequestId))
  · exact leased.proved
  · exact leased.safe

theorem World.Leased.goes (leased : world.Leased) {tab : Tab}
    (goes : (world.tabs id).Goes world id tab) : (world.setTab id tab).Leased :=
  leased.setTab goes.leased goes.follows

/-- The store, the clock and the log move on, and the leases stay as they are. -/
theorem World.Leased.moves (leased : world.Leased) (next : World) (tabs : next.tabs = world.tabs)
    (opened : next.opened = world.opened)
    (stored : ∀ id, ∀ lease ∈ (world.tabs id).leases,
      next.journalId = some lease.clientRequestId →
        world.journalId = some lease.clientRequestId ∧
          next.store.runtime.lease = world.store.runtime.lease)
    (clock : world.clock ≤ next.clock) (serials : world.serials ≤ next.serials)
    (log : ∀ entry ∈ world.log, entry ∈ next.log)
    (seen : ∀ id, ∀ lease ∈ (world.tabs id).leases,
      (world.tabs id).activeLease = some lease.serial →
      .sawFinalized id lease.clientRequestId ∈ next.log →
        .sawFinalized id lease.clientRequestId ∈ world.log)
    (proved : ∀ clientRequestId, next.log.any (Entry.answersFor clientRequestId) = true →
      ∃ entry ∈ next.log, entry.proves? = some clientRequestId)
    (safe : Safe next.log) : next.Leased where
  tabs id := by
    rw [tabs]
    exact (leased.tabs id).moves (stored id) clock serials log (seen id)
  opened id living := by
    rw [opened]
    exact leased.opened id (tabs ▸ living)
  owners first second living also same := by
    rw [tabs] at living also same
    exact leased.owners first second living also same
  once := by
    rw [tabs]
    exact leased.once
  proved := proved
  safe := safe

theorem Safe.cons {log : List Entry} (safe : Safe log) {entry : Entry}
    (unused : ∀ body state stored, entry ≠ .retirementPosted body state stored true)
    (handed : ∀ id lease sessionId chosenAt, entry = .checkedOut id lease sessionId chosenAt →
      lease.sessionId = sessionId ∧
      (∀ now, chosenAt = some now → now + minRequestLeaseRemainingSeconds ≤ lease.expiresAt) ∧
      lease.retired = false ∧ .sawFinalized id lease.clientRequestId ∉ log) :
    Safe (entry :: log) where
  unused body state stored member :=
    safe.unused body state stored ((List.mem_cons.mp member).resolve_left
      (unused body state stored).symm)
  handed id lease sessionId chosenAt earlier suffix := by
    rw [List.suffix_cons_iff] at suffix
    cases suffix with
    | inl same =>
      rw [List.cons.injEq] at same
      rw [same.2]
      exact handed id lease sessionId chosenAt same.1.symm
    | inr older => exact safe.handed id lease sessionId chosenAt earlier older

theorem World.Leased.proved_cons (leased : world.Leased) {entry : Entry}
    (answers : ∀ clientRequestId, entry.answersFor clientRequestId = true →
      ∃ entry ∈ world.log, entry.proves? = some clientRequestId) (clientRequestId : String)
    (answered : (entry :: world.log).any (Entry.answersFor clientRequestId) = true) :
    ∃ other ∈ entry :: world.log, other.proves? = some clientRequestId := by
  rw [List.any_cons, Bool.or_eq_true] at answered
  cases answered with
  | inl now =>
    obtain ⟨proof, inside, named⟩ := answers clientRequestId now
    exact ⟨proof, List.mem_cons_of_mem _ inside, named⟩
  | inr before =>
    obtain ⟨proof, inside, named⟩ := leased.proved clientRequestId before
    exact ⟨proof, List.mem_cons_of_mem _ inside, named⟩

theorem World.Leased.cons (leased : world.Leased) {entry : Entry}
    (answers : ∀ clientRequestId, entry.answersFor clientRequestId = true →
      ∃ entry ∈ world.log, entry.proves? = some clientRequestId)
    (seen : ∀ id, ∀ lease ∈ (world.tabs id).leases,
      (world.tabs id).activeLease = some lease.serial →
        entry ≠ .sawFinalized id lease.clientRequestId)
    (safe : Safe (entry :: world.log)) : (world.note entry).Leased := by
  apply leased.moves (world.note entry) rfl rfl (fun _ _ _ journal => ⟨journal, rfl⟩)
    (Nat.le_refl _) (Nat.le_refl _) (fun _ member => List.mem_cons_of_mem entry member)
  · intro id lease member active saw
    exact (List.mem_cons.mp saw).resolve_left (seen id lease member active).symm
  · exact leased.proved_cons answers
  · exact safe

theorem World.Leased.note (leased : world.Leased) {entry : Entry}
    (quiet : entry.isQuiet = true) : (world.note entry).Leased := by
  have facts : (∀ clientRequestId, entry.answersFor clientRequestId = false) ∧
      (∀ id clientRequestId, entry ≠ .sawFinalized id clientRequestId) ∧
      (∀ body state stored, entry ≠ .retirementPosted body state stored true) ∧
      (∀ id lease sessionId chosenAt, entry ≠ .checkedOut id lease sessionId chosenAt) := by
    cases entry <;> simp_all [Entry.isQuiet, Entry.answersFor]
  obtain ⟨silent, unseen, unused, unhanded⟩ := facts
  apply leased.cons
  · intro clientRequestId answers
    rw [silent] at answers
    cases answers
  · intro id lease _ _
    exact unseen id _
  · apply leased.safe.cons unused
    intro id lease sessionId chosenAt same
    exact absurd same (unhanded id lease sessionId chosenAt)

/-- A change of the store that drops the journal or leaves it with its lease. -/
theorem World.Leased.store (leased : world.Leased) {store : Store}
    (stored : ∀ id, ∀ lease ∈ (world.tabs id).leases,
      (store.runtime.journal.map fun journal => journal.preparedRequest.clientRequestId) =
        some lease.clientRequestId → world.journalId = some lease.clientRequestId ∧
          store.runtime.lease = world.store.runtime.lease) :
    World.Leased { world with store := store } :=
  leased.moves _ rfl rfl stored (Nat.le_refl _) (Nat.le_refl _) (fun _ member => member)
    (fun _ _ _ _ saw => saw) leased.proved leased.safe

end Worlds

section Holder

variable {world next : World} {id : Nat} {purpose : Purpose} {stage : Stage}

theorem World.Kept.free (leased : world.Leased) (free : world.critical = none) : world.Kept where
  leased := leased
  holds critical held := by
    rw [free] at held
    cases held
  stage critical held := by
    rw [free] at held
    cases held

theorem World.Leased.congr (leased : world.Leased) (next : World) (tabs : next.tabs = world.tabs)
    (opened : next.opened = world.opened) (store : next.store = world.store)
    (clock : next.clock = world.clock) (serials : next.serials = world.serials)
    (log : next.log = world.log) : next.Leased := by
  apply leased.moves next tabs opened
  · intro id lease _ journal
    rw [World.journalId, store] at journal
    exact ⟨journal, store ▸ rfl⟩
  · omega
  · omega
  · exact fun _ member => log ▸ member
  · exact fun _ _ _ _ saw => log ▸ saw
  · exact log ▸ leased.proved
  · exact log ▸ leased.safe

theorem World.Leased.waits (leased : world.Leased) (holds : world.Holds id purpose)
    (staged : stage.Leased world id purpose) : (world.wait id purpose stage).Kept where
  leased := leased.congr _ rfl rfl rfl rfl rfl rfl
  holds critical held := by
    rw [← Option.some.inj held]
    exact ⟨holds.alive, holds.row, holds.retirement⟩
  stage critical held := by
    rw [← Option.some.inj held]
    exact ⟨staged.recovery, staged.holder, staged.unowned, staged.unissued, staged.retires,
      staged.verifies⟩

/-- A stage in which nothing is retired or verified. -/
def Stage.isPlain (stage : Stage) : Bool :=
  stage.retirer?.isNone && match stage with
    | .verifies _ _ _ => false
    | _ => true

theorem Stage.Leased.plain (plain : stage.isPlain = true) : stage.Leased world id purpose := by
  cases stage with
  | sends sending request attempt deadline =>
    cases sending with
    | lease legacy => constructor <;> simp [Stage.retirer?, Stage.retires?]
    | retirement retirer => cases plain
  | rests sending request attempt deadline wakesAt =>
    cases sending with
    | lease legacy => constructor <;> simp [Stage.retirer?, Stage.retires?]
    | retirement retirer => cases plain
  | asksPath migrated | proves migrated | asksWithdrawalPath | asksClearance | provesWithdrawal =>
    constructor <;> simp [Stage.retirer?, Stage.retires?]
  | asksStatus request | asksNullifier request error | asksResponse retirer request
  | completes retirer request | verifies legacy request lease => cases plain

/-- A stage of the recovery before anything is retired. -/
theorem Stage.Leased.recovers (active : (world.tabs id).activeLease = none)
    (retirer : stage.retirer? = some .recovery) (retires : stage.retires? = none) :
    stage.Leased world id purpose where
  recovery _ := active
  holder serial named := by
    rw [retirer] at named
    cases named
  unowned request named := by
    rw [retires] at named
    cases named
  unissued sessionId budget request named := by
    rw [retires] at named
    cases named
  retires serial request named := by
    rw [retires] at named
    cases named
  verifies legacy request lease named := by
    rw [named] at retirer
    cases retirer

/-- A stage after a retirement. -/
theorem Stage.Leased.retired {retirer : Retirer} (named : stage.retirer? = some retirer)
    (retires : stage.retires? = none)
    (recovery : retirer = .recovery → (world.tabs id).activeLease = none)
    (holder : ∀ serial, retirer = .holder serial → purpose = .retiresLease serial) :
    stage.Leased world id purpose where
  recovery same := recovery (Option.some.inj (named.symm.trans same))
  holder serial same := holder serial (Option.some.inj (named.symm.trans same))
  unowned request same := by
    rw [retires] at same
    cases same
  unissued sessionId budget request same := by
    rw [retires] at same
    cases same
  retires serial request same := by
    rw [retires] at same
    cases same
  verifies legacy request lease same := by
    rw [same] at named
    cases named

theorem Tab.rejectJob_leased {tab : Tab} (held : tab.Leased world id) :
    tab.rejectJob.Leased world id :=
  held.rewrite rfl rfl rfl rfl (.inl rfl) fun _ _ _ member => (List.mem_filter.mp member).1

theorem Tab.rejectRetirement_leased {tab : Tab} (held : tab.Leased world id) (serial : Nat) :
    (tab.rejectRetirement serial).Leased world id ∧
      tab.Follows (tab.rejectRetirement serial) := by
  rw [Tab.rejectRetirement]
  generalize started : (if tab.job.any LeaseJob.retires then tab.rejectJob else tab) = start
  have base : start.Leased world id ∧ tab.Follows start := by
    rw [← started]
    split
    · exact ⟨Tab.rejectJob_leased held, .ofEq rfl rfl rfl (.inl rfl)⟩
    · exact ⟨held, .ofEq rfl rfl rfl (.inl rfl)⟩
  dsimp only
  generalize waits : (start.pending.filter _) = calls
  have kept : ∀ call ∈ calls, call ∈ start.pending := by
    intro call member
    rw [← waits] at member
    exact (List.mem_filter.mp member).1
  have ended : { start with retirement := none, pending := calls }.Leased world id :=
    base.1.rewrite rfl rfl rfl rfl (.inr rfl) fun _ _ _ => kept _
  have went : tab.Follows { start with retirement := none, pending := calls } :=
    base.2.trans (.ofEq rfl rfl rfl (.inl rfl))
  split
  · obtain ⟨leased, follows⟩ := ended.modify serial (fun lease => { lease with retiring := false })
      (fun _ => ⟨rfl, rfl, rfl, rfl, rfl⟩) (fun _ _ _ retiring => by cases retiring)
      (fun retires => by cases retires) (fun _ _ _ busy => .inl busy)
    exact ⟨leased, went.trans follows⟩
  · exact ⟨ended, went⟩

theorem World.Leased.throws (leased : world.Leased) (error : BrowserError) :
    (world.throw id purpose error).Kept := by
  apply World.Kept.free _ rfl
  have moved : ∀ tab : Tab, tab.Leased world id → (world.tabs id).Follows tab →
      World.Leased { (world.setTab id tab).note (.threw error) with critical := none } :=
    fun tab held follows => ((leased.setTab held follows).note rfl).congr _ rfl rfl rfl rfl rfl rfl
  have held := leased.tabs id
  cases purpose with
  | issuesLease sessionId budget =>
    apply moved
    · exact (Tab.rejectJob_leased held).rewrite rfl rfl rfl rfl (.inl rfl) fun _ _ _ member => member
    · exact .ofEq rfl rfl rfl (.inl rfl)
  | retiresLease serial =>
    obtain ⟨rejected, follows⟩ := Tab.rejectRetirement_leased held serial
    exact moved _ rejected follows
  | startUp | settles | settlesSession sessionId | withdraws mode destination =>
    exact moved _ held (.ofEq rfl rfl rfl (.inl rfl))

/-- The lease that a tab is retiring is not in use. -/
theorem World.Leased.retiring_unused (leased : world.Leased) (holds : world.Holds id purpose)
    {serial : Nat} (named : purpose = .retiresLease serial) :
    ∀ lease ∈ (world.tabs id).leases, world.journalId = some lease.clientRequestId →
      lease.inFlight = 0 ∨ lease.settleAfter ≤ world.clock := by
  obtain ⟨retires, active⟩ := holds.retirement serial named
  have held := leased.tabs id
  intro lease member journal
  by_cases busy : 0 < lease.inFlight
  · by_cases early : world.clock < lease.settleAfter
    · have current := held.used lease member journal busy early
      rcases active with none | same
      · rw [none] at current
        cases current
      · rw [same] at current
        have retiring := (held.retirement serial retires).2 lease member
          (Option.some.inj current).symm
        exact .inl (held.retiring lease member retiring)
    · exact .inr (Nat.le_of_not_lt early)
  · exact .inl (Nat.eq_zero_of_not_pos busy)

/-- The lease that has been retired is not in use, and the tab forgets it. -/
theorem World.Leased.leaves (leased : world.Leased) (holds : world.Holds id purpose) :
    (world.leave id purpose).Kept := by
  apply World.Kept.free _ rfl
  have moved : ∀ tab : Tab, tab.Leased world id → (world.tabs id).Follows tab →
      World.Leased { world.setTab id tab with critical := none } := fun tab held follows =>
    (leased.setTab held follows).congr _ rfl rfl rfl rfl rfl rfl
  have held := leased.tabs id
  cases purpose with
  | startUp =>
    apply moved
    · exact held.rewrite rfl rfl rfl rfl (.inl rfl) fun _ _ _ member => member
    · exact .ofEq rfl rfl rfl (.inl rfl)
  | settles =>
    apply moved
    · exact held.rewrite rfl rfl rfl rfl (.inl rfl) fun _ _ _ member =>
        (List.mem_cons.mp member).resolve_left (by simp)
    · exact .ofEq rfl rfl rfl (.inl rfl)
  | retiresLease serial =>
    have forgotten := held.forget (leased.retiring_unused holds rfl)
    apply moved
    · exact forgotten.rewrite rfl rfl rfl rfl (.inr rfl) fun _ _ _ member => member
    · exact .ofEq rfl rfl rfl (.inr rfl)
  | issuesLease sessionId budget | settlesSession sessionId | withdraws mode destination =>
    exact moved _ held (.ofEq rfl rfl rfl (.inl rfl))

theorem World.Holds.ofTab (holds : world.Holds id purpose)
    (alive : (next.tabs id).alive = (world.tabs id).alive)
    (row : (next.tabs id).runtime.lease = next.store.runtime.lease)
    (retirement : (next.tabs id).retirement = (world.tabs id).retirement)
    (active : (next.tabs id).activeLease = (world.tabs id).activeLease ∨
      (next.tabs id).activeLease = none) : next.Holds id purpose where
  alive := alive.trans holds.alive
  row := row
  retirement serial named := by
    obtain ⟨retires, current⟩ := holds.retirement serial named
    refine ⟨retirement.trans retires, ?_⟩
    rcases active with same | none
    · rw [same]
      exact current
    · exact .inl none

theorem World.Holds.note (holds : world.Holds id purpose) (entry : Entry) :
    (world.note entry).Holds id purpose :=
  holds.ofTab rfl holds.row rfl (.inl rfl)

theorem World.Holds.commit (holds : world.Holds id purpose) (runtime : Runtime) :
    (world.commit id runtime).Holds id purpose := by
  apply holds.ofTab <;> simp [World.commit]

theorem World.Holds.reload (holds : world.Holds id purpose) :
    (world.reload id).Holds id purpose := by
  apply holds.ofTab <;> rw [World.reload, World.setTab_self]
  · rfl
  · exact .inl rfl

theorem World.Leased.reload (leased : world.Leased) (id : Nat) : (world.reload id).Leased :=
  leased.goes (.rewrite (leased.tabs id) rfl rfl rfl rfl rfl fun _ _ _ member => member)

theorem World.Leased.commit (leased : world.Leased) (id : Nat) {runtime : Runtime}
    (stored : ∀ id, ∀ lease ∈ (world.tabs id).leases,
      (runtime.journal.map fun journal => journal.preparedRequest.clientRequestId) =
        some lease.clientRequestId → world.journalId = some lease.clientRequestId ∧
          runtime.lease = world.store.runtime.lease) : (world.commit id runtime).Leased := by
  have changed : World.Leased { world with store := { world.store with runtime := runtime } } :=
    leased.store stored
  exact changed.goes (.rewrite (changed.tabs id) rfl rfl rfl rfl rfl fun _ _ _ member => member)

/-- Without a journal nothing is said about the lease that it was for. -/
theorem World.Leased.drops (leased : world.Leased) (id : Nat) {runtime : Runtime}
    (dropped : runtime.journal = none) : (world.commit id runtime).Leased := by
  apply leased.commit
  intro other lease member journal
  rw [dropped] at journal
  cases journal

theorem World.Leased.prepares (leased : world.Leased) (sessionId : String) (budget : Nat)
    (holds : world.Holds id (.issuesLease sessionId budget)) (migrated : Bool) :
    (world.prepareLeaseRequest id sessionId budget migrated).Kept := by
  simp only [World.prepareLeaseRequest]
  split
  · exact leased.throws _
  split
  · exact leased.throws _
  split
  · split
    · have flagged : (world.setTab id { world.tabs id with
          legacyMigrationInProgress := true }).Leased :=
        leased.goes (.rewrite (leased.tabs id) rfl rfl rfl rfl rfl fun _ _ _ member => member)
      apply flagged.waits _ (.plain rfl)
      apply holds.ofTab <;> rw [World.setTab_self]
      · exact holds.row
      · exact .inl rfl
    · exact leased.waits holds (.plain rfl)
  · split
    · exact leased.throws _
    · exact leased.waits holds (.plain rfl)

theorem World.Leased.withdraws (leased : world.Leased) (mode : WithdrawalMode)
    (destination : String) (holds : world.Holds id (.withdraws mode destination)) :
    (world.withdrawRecovered id mode destination).Kept := by
  have reloaded := leased.reload id
  simp only [World.withdrawRecovered]
  split
  · exact reloaded.throws _
  split
  · exact reloaded.throws _
  split
  · exact reloaded.throws _
  split
  · exact reloaded.waits holds.reload (.plain rfl)
  split
  · exact reloaded.leaves holds.reload
  split
  · split <;> exact reloaded.throws _
  · exact reloaded.waits holds.reload (.plain rfl)

theorem World.Leased.recovers (leased : world.Leased) (holds : world.Holds id purpose) :
    (world.recovered id purpose).Kept := by
  cases purpose with
  | issuesLease sessionId budget => exact leased.prepares sessionId budget holds false
  | settlesSession sessionId =>
    simp only [World.recovered]
    split
    · exact leased.throws _
    · exact leased.leaves holds
  | withdraws mode destination => exact leased.withdraws mode destination holds
  | startUp | retiresLease serial | settles =>
    rw [World.recovered]
    exact leased.leaves holds

theorem World.Leased.recoveryThrows (leased : world.Leased) (holds : world.Holds id purpose)
    (error : BrowserError) : (world.recoveryThrew id purpose error).Kept := by
  cases purpose with
  | startUp =>
    rw [World.recoveryThrew]
    exact leased.recovers holds
  | issuesLease sessionId budget | settlesSession sessionId | withdraws mode destination
  | retiresLease serial | settles =>
    rw [World.recoveryThrew]
    · exact leased.throws error
    · simp

theorem World.Leased.recoveryFails (leased : world.Leased) (holds : world.Holds id purpose)
    (active : (world.tabs id).activeLease = none) (request : ApiRequestV2)
    (error : BrowserError) : (world.recoveryFailed id purpose request error).Kept := by
  rw [World.recoveryFailed]
  split
  · exact leased.waits holds (.recovers active rfl rfl)
  · exact leased.recoveryThrows holds error

theorem World.Leased.recoversPending (leased : world.Leased) (holds : world.Holds id purpose) :
    (world.recoverPendingLocked id purpose).Kept := by
  rw [World.recoverPendingLocked]
  split
  case h_1 journal _ active => exact leased.waits holds (.recovers active rfl rfl)
  · exact leased.recovers holds

/-- The lease that is about to be retired is not in use. -/
theorem World.Leased.unchecked (leased : world.Leased) {retirer : Retirer}
    {request : ApiRequestV2} (staged : stage.Leased world id purpose)
    (named : stage.retires? = some (retirer, request))
    (journal : world.journalId = some request.clientRequestId) :
    world.isCheckedOut request.clientRequestId = false := by
  rw [World.isCheckedOut, List.any_eq_false]
  intro other _ busy
  simp only [Bool.and_eq_true, List.any_eq_true, beq_iff_eq, decide_eq_true_eq] at busy
  obtain ⟨_, lease, member, ⟨same, flight⟩, early⟩ := busy
  have active := (leased.tabs other).used lease member (same ▸ journal) flight early
  cases retirer with
  | recovery =>
    have late := staged.unowned request named other lease member same active
    omega
  | migration sessionId budget =>
    exact staged.unissued sessionId budget request named other lease member same
  | holder serial =>
    obtain ⟨retires, own, inside, serial', key⟩ := staged.retires serial request named
    obtain ⟨here, one⟩ := leased.once other id lease member own inside (same.trans key.symm)
    subst here
    have retiring := ((leased.tabs other).retirement serial retires).2 lease member
      (one.trans serial')
    have idle := (leased.tabs other).retiring lease member retiring
    omega

theorem World.Leased.sends (leased : world.Leased) (holds : world.Holds id purpose)
    (sending : Sending) (request : ApiRequestV2) (attempt deadline later wakesAt : Nat)
    (staged : (Stage.rests sending request attempt deadline wakesAt).Leased world id purpose)
    (journal : world.journalId = some request.clientRequestId) :
    (world.send id purpose sending request later deadline).Kept := by
  cases sending with
  | lease legacy =>
    have posted : (world.note (.issuePosted request world.store.runtime.state
        world.store.runtime.journal)).Leased := leased.note rfl
    exact posted.waits (holds.ofTab rfl holds.row rfl (.inl rfl)) (.plain rfl)
  | retirement retirer =>
    have unchecked := leased.unchecked staged rfl journal
    have posted : (world.note (.retirementPosted request world.store.runtime.state
        world.store.runtime.journal (world.isCheckedOut request.clientRequestId))).Leased := by
      apply leased.cons
      · intro clientRequestId answers
        cases answers
      · simp
      · rw [unchecked]
        apply leased.safe.cons
        · intro body state stored same
          simp at same
        · simp
    apply posted.waits (holds.ofTab rfl holds.row rfl (.inl rfl))
    exact ⟨staged.recovery, staged.holder, fun request named => staged.unowned request named,
      fun sessionId budget request named => staged.unissued sessionId budget request named,
      fun serial request named => staged.retires serial request named, (by simp)⟩

/-- A tab without an active lease finds a row that no other tab owns. -/
theorem World.Leased.unowned (leased : world.Leased) (holds : world.Holds id purpose)
    (active : (world.tabs id).activeLease = none) {clientRequestId : String}
    (journal : world.journalId = some clientRequestId)
    (own : (world.tabs id).runtime.lease.any
      (·.isForeign (world.tabs id).ownerId world.clock) = false) :
    world.Unowned clientRequestId := by
  intro other lease member same current
  by_cases early : world.clock < lease.settleAfter
  · obtain ⟨row, stored, owner, settles⟩ :=
      (leased.tabs other).owns lease member (same ▸ journal) current
    have apart : (world.tabs other).ownerId ≠ (world.tabs id).ownerId := by
      intro equal
      have here := leased.owners other id ((leased.tabs other).living lease member) holds.alive
        equal
      rw [here, active] at current
      cases current
    have positive : ¬ row.settleAfter = 0 := by omega
    rw [holds.row, stored, Option.any_some, LeaseRow.isForeign, if_neg positive, settles, owner]
      at own
    simp [early, apart] at own
  · exact Nat.le_of_not_lt early

/-- A tab sees that the lease of a request is finalized. -/
theorem World.Leased.sees (leased : world.Leased) (id : Nat) {clientRequestId : String}
    (proved : ∃ entry ∈ world.log, entry.proves? = some clientRequestId)
    (unused : ∀ lease ∈ (world.tabs id).leases,
      (world.tabs id).activeLease = some lease.serial →
        lease.clientRequestId ≠ clientRequestId) :
    (world.note (.sawFinalized id clientRequestId)).Leased := by
  apply leased.cons
  · intro other answers
    rw [← eq_of_beq answers]
    exact proved
  · intro other lease member active same
    rw [Entry.sawFinalized.injEq] at same
    obtain ⟨rfl, key⟩ := same
    exact unused lease member active key.symm
  · exact leased.safe.cons (by simp) (by simp)

/-- The request of the journal was proved. -/
theorem World.Valid.provedId (valid : world.Valid) {clientRequestId : String}
    (journal : world.journalId = some clientRequestId) :
    ∃ entry ∈ world.log, entry.proves? = some clientRequestId := by
  obtain ⟨stored, held, same⟩ := Option.map_eq_some_iff.mp journal
  obtain ⟨state, _, proved⟩ := valid.sound.proved stored held
  exact ⟨_, proved, congrArg some same⟩

theorem Stage.Fits.journalId {request : ApiRequestV2} (fits : stage.Fits world.store.runtime)
    (named : stage.request? = some request) :
    world.journalId = some request.clientRequestId := by
  have stored := fits.request request named
  obtain ⟨journal, held, same⟩ := Option.map_eq_some_iff.mp stored
  rw [World.journalId, held, Option.map_some, same]

/-- The tab has a lease more, which is its active one and has not been used. -/
structure World.Adds (world : World) (id : Nat) (active : ActiveLease) (next : World) : Prop where
  store : next.store = world.store
  log : next.log = world.log
  serials : next.serials = world.serials + 1
  clock : next.clock = world.clock
  opened : next.opened = world.opened
  others : ∀ other, other ≠ id → next.tabs other = world.tabs other
  serial : active.serial = world.serials
  unused : active.inFlight = 0
  kept : active.retiring = false
  alive : (next.tabs id).alive = (world.tabs id).alive
  owner : (next.tabs id).ownerId = (world.tabs id).ownerId
  leases : (next.tabs id).leases = active :: (world.tabs id).leases
  current : (next.tabs id).activeLease = some active.serial
  retirement : (next.tabs id).retirement = (world.tabs id).retirement
  pending : ∀ serial session chosenAt,
    .ensureReturns serial session chosenAt ∈ (next.tabs id).pending →
      .ensureReturns serial session chosenAt ∈ (world.tabs id).pending ∨
        serial = active.serial ∧ session = active.sessionId ∧ chosenAt = none

theorem World.activate_adds (world : World) (id : Nat) (sessionId : String) (lease : IssuedLease)
    (callers : ∀ caller, .ensureWaits caller ∈ (world.tabs id).pending → caller = sessionId) :
    ∃ active : ActiveLease, active.clientRequestId = lease.clientRequestId ∧
      active.settleAfter = lease.settleAfter ∧
      world.Adds id active (world.activate id sessionId lease) := by
  have tab : (world.activate id sessionId lease).tabs id = _ := World.setTab_self world id _
  refine ⟨⟨world.serials, lease.clientRequestId, sessionId, lease.apiKey, lease.expiresAt,
    lease.settleAfter, lease.spendingLimit, 0, false, false⟩, rfl, rfl, ?_⟩
  constructor
  case others => exact fun other apart => World.setTab_other _ _ apart
  case pending =>
    rw [tab]
    intro serial session chosenAt member
    obtain ⟨call, inside, made⟩ := List.mem_map.mp member
    rw [Pending.handed.eq_def] at made
    split at made
    · rw [Pending.ensureReturns.injEq] at made
      exact .inr ⟨made.1.symm, made.2.1 ▸ callers _ inside, made.2.2.symm⟩
    · exact .inl (made ▸ inside)
  all_goals first | rfl | rw [tab]

theorem World.Adds.mem_leases {active : ActiveLease} (adds : world.Adds id active next) {other : Nat}
    {found : ActiveLease} (member : found ∈ (next.tabs other).leases) :
    found ∈ (world.tabs other).leases ∨ found = active ∧ other = id := by
  by_cases here : other = id
  · subst here
    rw [adds.leases] at member
    exact (List.mem_cons.mp member).symm.imp_right fun same => ⟨same, rfl⟩
  · exact .inl (adds.others other here ▸ member)

theorem World.Adds.alive_eq {active : ActiveLease} (adds : world.Adds id active next)
    (other : Nat) : (next.tabs other).alive = (world.tabs other).alive := by
  by_cases here : other = id
  · rw [here, adds.alive]
  · rw [adds.others other here]

theorem World.Adds.owner_eq {active : ActiveLease} (adds : world.Adds id active next)
    (other : Nat) : (next.tabs other).ownerId = (world.tabs other).ownerId := by
  by_cases here : other = id
  · rw [here, adds.owner]
  · rw [adds.others other here]

/-- The tab that has the new lease keeps its invariant. -/
theorem World.Leased.adds_tab (leased : world.Leased) {active : ActiveLease}
    (adds : world.Adds id active next) (unissued : world.Unissued active.clientRequestId)
    (alive : (world.tabs id).alive = true)
    (answered : world.log.any (Entry.answersFor active.clientRequestId) = true)
    (unseen : .sawFinalized id active.clientRequestId ∉ world.log)
    (row : ∃ row, world.store.runtime.lease = some row ∧
      row.ownerId = (world.tabs id).ownerId ∧ row.settleAfter = active.settleAfter)
    (journal : world.journalId = some active.clientRequestId) :
    (next.tabs id).Leased next id := by
  have held := leased.tabs id
  have serials := adds.serials
  have serial := adds.serial
  have old : ∀ found ∈ (next.tabs id).leases, found = active ∨
      found ∈ (world.tabs id).leases := fun found member =>
    List.mem_cons.mp (adds.leases ▸ member)
  have older : ∀ found ∈ (world.tabs id).leases, found.serial ≠ active.serial := by
    intro found member
    have before := held.older found member
    omega
  have apart : ∀ found ∈ (world.tabs id).leases,
      next.journalId ≠ some found.clientRequestId := by
    intro found member same
    rw [World.journalId, adds.store, ← World.journalId, journal] at same
    exact unissued id found member (Option.some.inj same).symm
  constructor
  · exact fun _ _ => adds.alive.trans alive
  · intro found member
    rcases old found member with rfl | before
    · omega
    · have smaller := held.older found before
      omega
  · intro first member second inside same
    rcases old first member with rfl | before <;> rcases old second inside with rfl | also
    · rfl
    · exact absurd same.symm (older second also)
    · exact absurd same (older first before)
    · exact held.single first before second also same
  · intro found member
    rw [adds.log]
    rcases old found member with rfl | before
    · exact answered
    · exact held.granted found before
  · intro found member retiring
    rcases old found member with rfl | before
    · exact adds.unused
    · exact held.retiring found before retiring
  · intro serial retires
    obtain ⟨smaller, flags⟩ := held.retirement serial (adds.retirement ▸ retires)
    refine ⟨by omega, fun found member same => ?_⟩
    rcases old found member with rfl | before
    · omega
    · exact flags found before same
  · intro found member stored busy early
    rcases old found member with rfl | before
    · exact adds.current
    · exact absurd stored (apart found before)
  · intro found member stored _
    rcases old found member with rfl | before
    · rw [adds.store, adds.owner]
      exact row
    · exact absurd stored (apart found before)
  · intro serial session chosenAt waiting
    rcases adds.pending serial session chosenAt waiting with before | ⟨rfl, rfl, rfl⟩
    · obtain ⟨smaller, sessions⟩ := held.waits serial session chosenAt before
      refine ⟨by omega, fun found member same => ?_⟩
      rcases old found member with rfl | known
      · omega
      · exact sessions found known same
    · refine ⟨by omega, fun found member same => ?_⟩
      rcases old found member with rfl | known
      · exact ⟨rfl, (by simp)⟩
      · exact absurd same (older found known)
  · intro found member now
    rw [adds.log]
    rcases old found member with rfl | before
    · exact unseen
    · rw [adds.current] at now
      exact absurd (Option.some.inj now).symm (older found before)

/-- A verified lease becomes the active one of its tab. -/
theorem World.Leased.activates (leased : world.Leased) (sessionId : String)
    (lease : IssuedLease) (unissued : world.Unissued lease.clientRequestId)
    (alive : (world.tabs id).alive = true)
    (answered : world.log.any (Entry.answersFor lease.clientRequestId) = true)
    (unseen : .sawFinalized id lease.clientRequestId ∉ world.log)
    (row : ∃ row, world.store.runtime.lease = some row ∧
      row.ownerId = (world.tabs id).ownerId ∧ row.settleAfter = lease.settleAfter)
    (journal : world.journalId = some lease.clientRequestId)
    (callers : ∀ caller, .ensureWaits caller ∈ (world.tabs id).pending → caller = sessionId) :
    (world.activate id sessionId lease).Kept := by
  apply World.Kept.free _ rfl
  obtain ⟨active, key, settles, adds⟩ := world.activate_adds id sessionId lease callers
  rw [← key] at unissued answered unseen journal
  rw [← settles] at row
  generalize world.activate id sessionId lease = next at adds
  constructor
  · intro other
    by_cases here : other = id
    · rw [here]
      exact leased.adds_tab adds unissued alive answered unseen row journal
    · rw [adds.others other here]
      apply (leased.tabs other).moves
      · intro found member stored
        rw [World.journalId, adds.store] at stored
        exact ⟨stored, adds.store ▸ rfl⟩
      · have clock := adds.clock
        omega
      · have serials := adds.serials
        omega
      · exact fun _ member => adds.log ▸ member
      · exact fun _ _ _ saw => adds.log ▸ saw
  · intro other here
    rw [adds.alive_eq] at here
    rw [adds.opened]
    exact leased.opened other here
  · intro first second here there same
    rw [adds.alive_eq] at here there
    rw [adds.owner_eq, adds.owner_eq] at same
    exact leased.owners first second here there same
  · intro first second one member other inside same
    rcases adds.mem_leases member with old | ⟨rfl, rfl⟩ <;>
      rcases adds.mem_leases inside with known | ⟨rfl, rfl⟩
    · exact leased.once first second one old other known same
    · exact absurd same (unissued first one old)
    · exact absurd same.symm (unissued second other known)
    · exact ⟨rfl, rfl⟩
  · exact adds.log ▸ leased.proved
  · exact adds.log ▸ leased.safe

end Holder

section Answers

variable {config : LeaseConfig} {world next : World} {id : Nat} {purpose : Purpose}
  {stage : Stage} {reply : Reply}

/-- The holder of the key sees that its lease is finalized, and forgets it. -/
theorem World.Leased.retires (leased : world.Leased) (valid : world.Valid)
    (holds : world.Holds id purpose) {serial : Nat} (named : purpose = .retiresLease serial)
    {request : ApiRequestV2} (journal : world.journalId = some request.clientRequestId)
    {tab : Tab} (changed : tab = if ((world.tabs id).modify serial fun lease =>
        { lease with retired := true }).activeLease = some serial then
      { (world.tabs id).modify serial fun lease => { lease with retired := true } with
        activeLease := none }
      else (world.tabs id).modify serial fun lease => { lease with retired := true }) :
    (((world.note (.sawFinalized id request.clientRequestId)).setTab id tab).wait id purpose
      (.asksResponse (.holder serial) request)).Kept := by
  obtain ⟨retires, active⟩ := holds.retirement serial named
  obtain ⟨modified, follows⟩ := (leased.tabs id).modify serial
    (fun lease => { lease with retired := true }) (fun _ => ⟨rfl, rfl, rfl, rfl, rfl⟩)
    (fun lease member _ retiring => (leased.tabs id).retiring lease member retiring)
    (fun retires lease member same => ((leased.tabs id).retirement serial retires).2 lease member
      same) (fun _ _ _ busy => .inl busy)
  have unused : ∀ lease ∈ ((world.tabs id).modify serial fun lease =>
      { lease with retired := true }).leases, world.journalId = some lease.clientRequestId →
        lease.inFlight = 0 ∨ lease.settleAfter ≤ world.clock := by
    intro lease member journal
    obtain ⟨old, inside, made⟩ := List.mem_map.mp member
    have before := leased.retiring_unused holds named old inside
    by_cases here : old.serial = serial
    · rw [if_pos here] at made
      rw [← made] at journal ⊢
      exact before journal
    · rw [if_neg here] at made
      exact made ▸ before (made ▸ journal)
  have gone : tab.activeLease = none := by
    rw [changed]
    split
    · rfl
    case isFalse other => exact active.resolve_right other
  have tabbed : tab = { (world.tabs id).modify serial fun lease =>
      { lease with retired := true } with activeLease := none } := by
    rw [changed]
    split
    · rfl
    case isFalse other =>
      have already : ((world.tabs id).modify serial fun lease =>
        { lease with retired := true }).activeLease = none := active.resolve_right other
      rw [← already]
  have moved : (world.setTab id tab).Leased := by
    rw [tabbed]
    apply leased.setTab (modified.forget unused)
    exact follows.trans (.ofEq rfl rfl rfl (.inr rfl))
  have seen : ((world.setTab id tab).note (.sawFinalized id request.clientRequestId)).Leased := by
    apply moved.sees id (valid.provedId journal)
    intro lease _ current
    rw [World.setTab_self, gone] at current
    cases current
  apply World.Leased.waits seen
  · apply World.Holds.note
    apply holds.ofTab <;> rw [World.setTab_self]
    · rw [tabbed]
      rfl
    · rw [tabbed]
      exact holds.row
    · rw [tabbed]
      rfl
    · exact .inr gone
  · apply Stage.Leased.retired rfl rfl
    · simp
    · intro other same
      rw [Retirer.holder.injEq] at same
      rw [named, same]

theorem verifyLease_none {request : ApiRequestV2} {lease : IssuedLease} {now : Nat}
    (verified : verifyLease request lease now = none) :
    lease.clientRequestId = request.clientRequestId := by
  rw [verifyLease] at verified
  split at verified
  · cases verified
  case isFalse fine => simp_all

/-- The server has not answered for a request whose lease it issues. -/
theorem World.Leased.unissued (leased : world.Leased) {clientRequestId : String}
    (silent : world.log.any (Entry.answersFor clientRequestId) = false) :
    world.Unissued clientRequestId := by
  intro other lease member same
  have granted := (leased.tabs other).granted lease member
  rw [same, silent] at granted
  cases granted

theorem Stage.Leased.migrates (sessionId : String) (budget : Nat) (request : ApiRequestV2)
    (attempt deadline wakesAt : Nat) (unissued : world.Unissued request.clientRequestId) :
    (Stage.rests (.retirement (.migration sessionId budget)) request attempt deadline
      wakesAt).Leased world id purpose where
  recovery := by simp [Stage.retirer?]
  holder := by simp [Stage.retirer?]
  unowned := by simp [Stage.retires?]
  unissued _ _ _ named := by
    simp only [Stage.retires?, Option.some.injEq, Prod.mk.injEq] at named
    exact named.2 ▸ unissued
  retires := by simp [Stage.retires?]
  verifies := by simp

theorem World.Kept.fails (kept : world.Kept) (sending : Sending) (request : ApiRequestV2)
    (attempt deadline : Nat) (error : BrowserError)
    (held : world.critical = some ⟨id, purpose, .sends sending request attempt deadline⟩)
    (answered : world.answer config id purpose (.sends sending request attempt deadline)
      (.throws error) = some next) : next.Kept := by
  have holds := kept.holds _ held
  have staged := kept.stage _ held
  simp only at holds staged
  have noted : (world.noteStale sending request error).Leased := by
    cases sending with
    | lease legacy =>
      simp only [World.noteStale]
      split
      · exact kept.leased.note rfl
      · exact kept.leased
    | retirement retirer => exact kept.leased
  have store := world.noteStale_store sending request error
  have tabs := world.noteStale_tabs sending request error
  have noticed : (world.noteStale sending request error).Holds id purpose := by
    apply holds.ofTab <;> rw [tabs]
    · rw [store]
      exact holds.row
    · exact .inl rfl
  unfold World.answer at answered
  dsimp only at answered
  split at answered
  · rw [← Option.some.inj answered]
    apply noted.waits noticed
    cases sending with
    | lease legacy => exact .plain rfl
    | retirement retirer =>
      exact ⟨staged.recovery, staged.holder, fun request named => staged.unowned request named,
        fun sessionId budget request named => staged.unissued sessionId budget request named,
        fun serial request named => staged.retires serial request named, (by simp)⟩
  split at answered
  · exact Option.some.inj answered ▸ noted.recoveryFails noticed (staged.recovery rfl) request error
  · split at answered
    · rw [← Option.some.inj answered]
      exact World.Leased.throws (noted.drops id rfl) error
    · exact Option.some.inj answered ▸ noted.throws error
  · exact Option.some.inj answered ▸ noted.throws error

/-- A recovery goes on with what the server says of the stored request. -/
theorem World.Kept.readsStatus (kept : world.Kept) (valid : world.Valid) {request : ApiRequestV2}
    {status : String}
    (held : world.critical = some ⟨id, purpose, .asksStatus request⟩)
    (answered : world.answer config id purpose (.asksStatus request)
      (.status status) = some next) : next.Kept := by
  have leased := kept.leased
  have holds := kept.holds _ held
  have staged := kept.stage _ held
  have fits := valid.stage _ held
  simp only at holds staged fits
  unfold World.answer at answered
  dsimp only at answered
  have journal := fits.journalId rfl
  have active := staged.recovery rfl
  split at answered
  · split at answered
    · exact Option.some.inj answered ▸ leased.recovers holds
    case isFalse own =>
      rw [← Option.some.inj answered]
      have unowned := leased.unowned holds active journal (Bool.eq_false_of_not_eq_true own)
      apply leased.waits holds
      constructor
      · exact fun _ => active
      · simp [Stage.retirer?]
      · intro request named
        simp only [Stage.retires?, Option.some.injEq, Prod.mk.injEq] at named
        exact named.2 ▸ unowned
      · simp [Stage.retires?]
      · simp [Stage.retires?]
      · simp
  split at answered
  · rw [← Option.some.inj answered]
    have seen := leased.sees id (valid.provedId journal) fun lease _ current => by
      rw [active] at current
      cases current
    exact seen.waits (holds.note _) (.recovers active rfl rfl)
  · exact Option.some.inj answered ▸ leased.recovers holds

/-- A retirement ends when the server has finalized the request. -/
theorem World.Kept.readsRetirement (kept : world.Kept) (valid : world.Valid) {retirer : Retirer}
    {request : ApiRequestV2} {attempt deadline : Nat} {status : String}
    (held : world.critical =
      some ⟨id, purpose, .sends (.retirement retirer) request attempt deadline⟩)
    (answered : world.answer config id purpose (.sends (.retirement retirer) request attempt deadline)
      (.status status) = some next) : next.Kept := by
  have leased := kept.leased
  have holds := kept.holds _ held
  have staged := kept.stage _ held
  have fits := valid.stage _ held
  simp only at holds staged fits
  unfold World.answer at answered
  dsimp only at answered
  have journal := fits.journalId rfl
  split at answered
  · split at answered
    case h_1 serial =>
      rw [← Option.some.inj answered]
      exact leased.retires valid holds (staged.holder serial rfl) journal rfl
    case h_2 other =>
      rw [← Option.some.inj answered]
      have seen := leased.sees id (valid.provedId journal) fun lease member current => by
        cases retirer with
        | recovery =>
          rw [staged.recovery rfl] at current
          cases current
        | migration sessionId budget =>
          exact staged.unissued sessionId budget request rfl id lease member
        | holder serial => exact absurd rfl (other serial)
      apply seen.waits (holds.note _)
      exact .retired rfl rfl (fun same => staged.recovery (same ▸ rfl))
        fun serial same => absurd same (other serial)
  · split at answered
    · exact Option.some.inj answered ▸ leased.recovers holds
    · exact Option.some.inj answered ▸ leased.throws _

/-- A lease that the server grants is noted and verified. -/
theorem World.Kept.readsLease (kept : world.Kept) (valid : world.Valid) {legacy : Bool}
    {request : ApiRequestV2} {attempt deadline : Nat} {lease : IssuedLease}
    (held : world.critical = some ⟨id, purpose, .sends (.lease legacy) request attempt deadline⟩)
    (honest : world.isHonest (.replies (.lease lease)) = true)
    (answered : world.answer config id purpose (.sends (.lease legacy) request attempt deadline)
      (.lease lease) = some next) : next.Kept := by
  have leased := kept.leased
  have holds := kept.holds _ held
  have fits := valid.stage _ held
  simp only at holds fits
  unfold World.answer at answered
  dsimp only at answered
  have journal := fits.journalId rfl
  have silent : world.log.any (Entry.answersFor request.clientRequestId) = false := by
    simpa [World.isHonest, held, Stage.request?] using honest
  have granted : (world.note (.granted request lease)).Leased := by
    apply leased.cons
    · intro other answers
      exact eq_of_beq answers ▸ valid.provedId journal
    · simp
    · exact leased.safe.cons (by simp) (by simp)
  split at answered
  · exact Option.some.inj answered ▸ granted.throws _
  case h_2 verified =>
    rw [← Option.some.inj answered]
    apply granted.waits (holds.note _)
    refine ⟨by simp [Stage.retirer?], by simp [Stage.retirer?], by simp [Stage.retires?],
      by simp [Stage.retires?], by simp [Stage.retires?], fun _ _ _ same => ?_⟩
    rw [Stage.verifies.injEq] at same
    obtain ⟨_, rfl, rfl⟩ := same
    refine ⟨leased.unissued silent, verifyLease_none verified, ?_, ?_⟩
    · simp [World.note, Entry.answersFor]
    · intro saw
      have before := (List.mem_cons.mp saw).resolve_left (by simp)
      have answers := List.any_eq_false.mp silent _ before
      simp [Entry.answersFor] at answers

/-- A verified lease is stored with its owner, and then used or retired. -/
theorem World.Kept.readsVerified (kept : world.Kept) (valid : world.Valid)
    (issues : world.Issues id purpose) {legacy : Bool}
    {request : ApiRequestV2} {lease : IssuedLease}
    (held : world.critical = some ⟨id, purpose, .verifies legacy request lease⟩)
    (answered : world.answer config id purpose (.verifies legacy request lease)
      .plain = some next) : next.Kept := by
  have leased := kept.leased
  have holds := kept.holds _ held
  have staged := kept.stage _ held
  have fits := valid.stage _ held
  have ready := valid.ready _ held
  simp only at holds staged fits ready
  unfold World.answer at answered
  dsimp only at answered
  have journal := fits.journalId rfl
  obtain ⟨unissued, key, answers, unseen⟩ := staged.verifies legacy request lease rfl
  split at answered
  case h_1 sessionId budget =>
    have written : (world.commit id { (world.tabs id).runtime with
        lease := some (leaseRow (world.tabs id).ownerId sessionId lease) }).Leased := by
      apply leased.commit
      intro other found member stored
      have same := ready.journal
      rw [World.journalId, ← same, stored] at journal
      exact absurd (Option.some.inj journal) (unissued other found member)
    have stored : (world.commit id { (world.tabs id).runtime with
        lease := some (leaseRow (world.tabs id).ownerId sessionId lease) }).journalId =
          some request.clientRequestId := by
      rw [World.journalId, ← ready.journal] at journal
      exact journal
    have kept : (world.commit id { (world.tabs id).runtime with
        lease := some (leaseRow (world.tabs id).ownerId sessionId lease) }).Unissued
          request.clientRequestId := by
      intro other found member
      have inside : found ∈ (world.tabs other).leases := by
        by_cases here : other = id
        · subst here
          simpa [World.commit] using member
        · simpa [World.commit, Function.update_of_ne here] using member
      exact unissued other found inside
    split at answered
    · rw [← Option.some.inj answered]
      exact written.waits (holds.commit _) (.migrates _ _ _ _ _ _ kept)
    · rw [← Option.some.inj answered]
      apply written.activates sessionId lease
      · exact key ▸ kept
      · simpa [World.commit] using holds.alive
      · exact key ▸ answers
      · exact key ▸ unseen
      · exact ⟨_, rfl, by simp [World.commit, leaseRow], rfl⟩
      · exact key ▸ stored
      · exact (issues.commit _).callers
  · cases answered

/-- An installed state replaces the request and its lease. -/
theorem World.Kept.readsCompleted (kept : world.Kept) {retirer : Retirer} {request : ApiRequestV2}
    {state : NoteState}
    (held : world.critical = some ⟨id, purpose, .completes retirer request⟩)
    (answered : world.answer config id purpose (.completes retirer request)
      (.completed state) = some next) : next.Kept := by
  have leased := kept.leased
  have holds := kept.holds _ held
  unfold World.answer at answered
  dsimp only at answered
  have noted : (world.note (.installed state)).Leased := leased.note rfl
  have installed : ((world.note (.installed state)).commit id { (world.tabs id).runtime with
      state := some state, journal := none, lease := none }).Leased := noted.drops id rfl
  have holding := (holds.note (.installed state)).commit { (world.tabs id).runtime with
    state := some state, journal := none, lease := none }
  split at answered
  · exact Option.some.inj answered ▸ installed.recovers holding
  case h_2 sessionId budget =>
    rw [← Option.some.inj answered]
    apply World.Leased.prepares
    · apply World.Leased.reload
      exact installed.goes (.rewrite (installed.tabs id) rfl rfl rfl rfl rfl
        fun _ _ _ member => member)
    · apply World.Holds.reload
      constructor
      · rw [World.setTab_self]
        exact holding.alive
      · rw [World.setTab_self]
        exact holding.row
      · simp
  · exact Option.some.inj answered ▸ installed.leaves holding

theorem World.Kept.answers (kept : world.Kept) (valid : world.Valid) (joined : world.Joined)
    (held : world.critical = some ⟨id, purpose, stage⟩)
    (honest : world.isHonest (.replies reply) = true) (fresh : world.Fresh (.replies reply))
    (answered : world.answer config id purpose stage reply = some next) : next.Kept := by
  have leased := kept.leased
  have holds := kept.holds _ held
  have staged := kept.stage _ held
  have ready := valid.ready _ held
  have fits := valid.stage _ held
  simp only at holds staged ready fits
  have whole := answered
  unfold World.answer at answered
  split at answered <;> dsimp only at answered
  case h_1 request status => exact kept.readsStatus valid held whole
  case h_2 request error =>
    exact Option.some.inj answered ▸ leased.recoveryFails holds (staged.recovery rfl) request error
  case h_3 request error status found =>
    split at answered
    · exact Option.some.inj answered ▸ leased.waits holds
        (.recovers (staged.recovery rfl) rfl rfl)
    split at answered
    · exact Option.some.inj answered ▸ World.Leased.recovers (leased.drops id rfl) (holds.commit _)
    · exact Option.some.inj answered ▸ leased.recoveryThrows holds error
  case h_4 request first error => exact Option.some.inj answered ▸ leased.throws error
  case h_5 sending request attempt deadline error =>
    exact kept.fails sending request attempt deadline error held whole
  case h_6 sending request attempt deadline wakesAt =>
    split at answered
    · exact Option.some.inj answered ▸ leased.sends holds sending request attempt deadline _ wakesAt
        staged (fits.journalId rfl)
    · cases answered
  case h_7 sending request attempt deadline wakesAt error =>
    exact Option.some.inj answered ▸ leased.throws error
  case h_8 retirer request attempt deadline status => exact kept.readsRetirement valid held whole
  case h_9 legacy request attempt deadline lease => exact kept.readsLease valid held honest whole
  case h_10 legacy request lease => exact kept.readsVerified valid (joined.goes held) held whole
  case h_11 legacy request lease error => exact Option.some.inj answered ▸ leased.throws error
  case h_12 retirer request found =>
    split at answered
    · rw [← Option.some.inj answered]
      apply leased.waits holds
      exact .retired rfl rfl (fun same => staged.recovery (same ▸ rfl))
        fun serial same => staged.holder serial (same ▸ rfl)
    split at answered
    · exact Option.some.inj answered ▸ leased.recovers holds
    · exact Option.some.inj answered ▸ leased.throws _
    · exact Option.some.inj answered ▸ leased.leaves holds
  case h_13 retirer request error => exact Option.some.inj answered ▸ leased.throws error
  case h_14 retirer request state => exact kept.readsCompleted held whole
  case h_15 retirer request error => exact Option.some.inj answered ▸ leased.throws error
  case h_16 migrated unchanged =>
    split at answered
    · split at answered
      · exact Option.some.inj answered ▸ leased.throws _
      split at answered
      · exact Option.some.inj answered ▸ leased.throws _
      · exact Option.some.inj answered ▸ leased.waits holds (.plain rfl)
    · cases answered
  case h_17 migrated error => exact Option.some.inj answered ▸ leased.throws error
  case h_18 migrated journal =>
    split at answered
    · cases answered
    case h_2 state selected =>
      rw [← Option.some.inj answered]
      have noted : (world.note (.proved state journal)).Leased := leased.note rfl
      apply World.Leased.waits _ ((holds.note _).commit _) (.plain rfl)
      apply noted.commit
      intro other lease member stored
      have granted := (leased.tabs other).granted lease member
      obtain ⟨entry, inside, named⟩ := leased.proved _ granted
      simp only [World.Fresh, World.isFresh, List.all_eq_true, bne_iff_ne] at fresh
      exact absurd (named.trans stored.symm) (fresh entry inside)
  case h_19 migrated error => exact Option.some.inj answered ▸ leased.throws error
  case h_20 unchanged =>
    have idle := ready.journal.trans (fits.idle rfl).1
    split at answered
    case h_1 mode destination state selected =>
      split at answered
      · exact Option.some.inj answered ▸ leased.leaves holds
      split at answered
      · rw [← Option.some.inj answered]
        apply World.Leased.waits _ ((holds.commit _).note _) (.plain rfl)
        apply World.Leased.note
        · exact leased.drops id idle
        · rfl
      · exact Option.some.inj answered ▸ leased.waits holds (.plain rfl)
    · cases answered
  case h_21 error => exact Option.some.inj answered ▸ leased.throws error
  case h_22 => exact Option.some.inj answered ▸ leased.waits holds (.plain rfl)
  case h_23 error => exact Option.some.inj answered ▸ leased.throws error
  case h_24 =>
    have idle := ready.journal.trans (fits.idle rfl).1
    split at answered
    case h_1 mode destination state selected =>
      rw [← Option.some.inj answered]
      exact World.Leased.leaves (leased.drops id idle) (holds.commit _)
    · cases answered
  case h_25 error => exact Option.some.inj answered ▸ leased.throws error
  · cases answered

theorem World.Leased.enters (leased : world.Leased) (alive : (world.tabs id).alive = true)
    (steady : world.isSteady (.enters id purpose) = true)
    (entered : world.enter id purpose = some next) : next.Kept := by
  have reloaded := leased.reload id
  have holds : ∀ purpose : Purpose, (∀ serial, purpose ≠ .retiresLease serial) →
      (world.reload id).Holds id purpose := by
    intro purpose other
    constructor
    · rw [World.reload, World.setTab_self]
      exact alive
    · rw [World.reload, World.setTab_self]
      rfl
    · intro serial same
      exact absurd same (other serial)
  have erased : ∀ call purpose, (∀ serial, purpose ≠ .retiresLease serial) →
      ((world.reload id).setTab id { (world.reload id).tabs id with
        pending := (world.tabs id).pending.erase call }).Leased ∧
      ((world.reload id).setTab id { (world.reload id).tabs id with
        pending := (world.tabs id).pending.erase call }).Holds id purpose := by
    intro call purpose other
    constructor
    · apply reloaded.goes
      apply Tab.Goes.rewrite (reloaded.tabs id)
      · rfl
      · rfl
      · rfl
      · rfl
      · rfl
      · intro _ _ _ member
        rw [World.reload, World.setTab_self]
        exact List.mem_of_mem_erase member
    · apply (holds purpose other).ofTab <;> rw [World.setTab_self]
      · exact (holds purpose other).row
      · exact .inl rfl
  unfold World.enter at entered
  dsimp only at entered
  split at entered
  · cases entered
  cases purpose with
  | startUp =>
    dsimp only at entered
    split at entered
    · cases entered
    · exact Option.some.inj entered ▸ reloaded.recoversPending (holds .startUp (by simp))
  | issuesLease sessionId budget =>
    dsimp only at entered
    split at entered
    · exact Option.some.inj entered ▸
        reloaded.recoversPending (holds (.issuesLease sessionId budget) (by simp))
    · cases entered
  | retiresLease serial =>
    dsimp only at entered
    split at entered
    case isTrue retires =>
      have tab : (world.reload id).tabs id = { world.tabs id with
        runtime := world.store.runtime } := World.setTab_self ..
      have active : (world.tabs id).activeLease = none ∨
          (world.tabs id).activeLease = some serial := by
        cases current : (world.tabs id).activeLease with
        | none => exact .inl rfl
        | some other => exact .inr (by simpa [World.isSteady, current] using steady)
      have holding : (world.reload id).Holds id (.retiresLease serial) := by
        constructor
        · rw [tab]
          exact alive
        · rw [tab]
          rfl
        · intro other same
          rw [Purpose.retiresLease.injEq] at same
          rw [tab, ← same]
          exact ⟨retires, active⟩
      split at entered
      case h_1 journal lease stored found =>
        split at entered
        case isTrue same =>
          rw [← Option.some.inj entered]
          obtain ⟨member, named⟩ := Tab.lease?_some found
          apply reloaded.waits holding
          refine ⟨by simp [Stage.retirer?], ?_, by simp [Stage.retires?], by simp [Stage.retires?],
            ?_, by simp⟩
          · intro other retirer
            simp only [Stage.retirer?, Option.some.injEq, Retirer.holder.injEq] at retirer
            rw [retirer]
          · intro other request named'
            simp only [Stage.retires?, Option.some.injEq, Prod.mk.injEq,
              Retirer.holder.injEq] at named'
            obtain ⟨rfl, rfl⟩ := named'
            rw [World.Retires, tab]
            exact ⟨retires, lease, member, named, same.symm⟩
        · exact Option.some.inj entered ▸ reloaded.leaves holding
      · exact Option.some.inj entered ▸ reloaded.leaves holding
    · cases entered
  | settles =>
    dsimp only at entered
    split at entered
    · obtain ⟨moved, still⟩ := erased .settleRecovers .settles (by simp)
      exact Option.some.inj entered ▸ moved.recoversPending still
    · cases entered
  | settlesSession sessionId =>
    dsimp only at entered
    split at entered
    · obtain ⟨moved, still⟩ := erased (.sessionRecovers sessionId) (.settlesSession sessionId) (by simp)
      split at entered
      · exact Option.some.inj entered ▸ moved.recoversPending still
      · exact Option.some.inj entered ▸ moved.leaves still
    · cases entered
  | withdraws mode destination =>
    dsimp only at entered
    split at entered
    · exact Option.some.inj entered ▸ reloaded.throws _
    split at entered
    · exact Option.some.inj entered ▸ reloaded.throws _
    split at entered
    · exact Option.some.inj entered ▸ reloaded.throws _
    · exact Option.some.inj entered ▸
        reloaded.recoversPending (holds (.withdraws mode destination) (by simp))

end Answers

section Steps

variable {config : LeaseConfig} {world next : World} {id : Nat}

/-- What happens outside of the lock does not disturb its holder. -/
theorem World.Kept.outside (kept : world.Kept) (next : World) (leased : next.Leased)
    (critical : ∀ critical, next.critical = some critical → world.critical = some critical ∧
      (world.tabs critical.tab).Follows (next.tabs critical.tab) ∧
      (∀ serial, (world.tabs critical.tab).retirement = some serial →
        (next.tabs critical.tab).retirement = some serial) ∧
      (next.tabs critical.tab).runtime.lease = next.store.runtime.lease)
    (keys : ∀ id, ∀ lease ∈ (next.tabs id).leases, ∃ old ∈ (world.tabs id).leases,
      old.SameKey lease)
    (active : ∀ id serial, (next.tabs id).activeLease = some serial →
      (world.tabs id).activeLease = some serial)
    (clock : world.clock ≤ next.clock) (log : ∀ entry ∈ world.log, entry ∈ next.log)
    (seen : ∀ id clientRequestId, .sawFinalized id clientRequestId ∈ next.log →
      .sawFinalized id clientRequestId ∈ world.log) : next.Kept where
  leased := leased
  holds holder held := by
    obtain ⟨before, follows, retirement, row⟩ := critical holder held
    have holds := kept.holds holder before
    constructor
    · exact follows.alive.trans holds.alive
    · exact row
    · intro serial named
      obtain ⟨retires, current⟩ := holds.retirement serial named
      refine ⟨retirement serial retires, ?_⟩
      rcases follows.active with same | none
      · rw [same]
        exact current
      · exact .inl none
  stage holder held := by
    obtain ⟨before, follows, retirement, row⟩ := critical holder held
    have staged := kept.stage holder before
    have unissued : ∀ clientRequestId, world.Unissued clientRequestId →
        next.Unissued clientRequestId := by
      intro clientRequestId none id lease member same
      obtain ⟨old, inside, key⟩ := keys id lease member
      exact none id old inside (key.clientRequestId.symm.trans same)
    constructor
    · intro named
      rcases follows.active with same | none
      · exact same.trans (staged.recovery named)
      · exact none
    · exact staged.holder
    · intro request named id lease member same current
      obtain ⟨old, inside, key⟩ := keys id lease member
      have late := staged.unowned request named id old inside
        (key.clientRequestId.symm.trans same) (key.serial ▸ active id lease.serial current)
      rw [key.settleAfter]
      omega
    · intro sessionId budget request named
      exact unissued _ (staged.unissued sessionId budget request named)
    · intro serial request named
      obtain ⟨retires, lease, member, own, same⟩ := staged.retires serial request named
      obtain ⟨found, inside, key⟩ := follows.kept lease member
      exact ⟨retirement serial retires, found, inside, key.serial.trans own,
        key.clientRequestId.trans same⟩
    · intro legacy request lease named
      obtain ⟨none, key, answers, unseen⟩ := staged.verifies legacy request lease named
      obtain ⟨entry, inside, answer⟩ := List.any_eq_true.mp answers
      exact ⟨unissued _ none, key, List.any_eq_true.mpr ⟨entry, log entry inside, answer⟩,
        fun saw => unseen (seen _ _ saw)⟩

theorem World.Kept.goes (kept : world.Kept) {tab : Tab}
    (goes : (world.tabs id).Goes world id tab)
    (row : tab.runtime = (world.tabs id).runtime ∨ tab.runtime = world.store.runtime) :
    (world.setTab id tab).Kept := by
  have split' : ∀ other, ((world.setTab id tab).tabs other = tab ∧ other = id) ∨
      (world.setTab id tab).tabs other = world.tabs other := by
    intro other
    by_cases same : other = id
    · exact .inl ⟨by rw [same, World.setTab_self], same⟩
    · exact .inr (World.setTab_other _ _ same)
  apply kept.outside _ (kept.leased.goes goes)
  · intro critical held
    have holds := kept.holds critical held
    refine ⟨held, ?_⟩
    rcases split' critical.tab with ⟨same, here⟩ | same <;> rw [same]
    · subst here
      refine ⟨goes.follows, goes.retirement, ?_⟩
      rcases row with mine | stored
      · rw [mine]
        exact holds.row
      · rw [stored]
        rfl
    · exact ⟨.ofEq rfl rfl rfl (.inl rfl), fun _ retires => retires, holds.row⟩
  · intro other lease member
    rcases split' other with ⟨same, rfl⟩ | same <;> rw [same] at member
    · exact goes.follows.keys lease member
    · exact ⟨lease, member, .refl lease⟩
  · intro other serial current
    rcases split' other with ⟨same, rfl⟩ | same <;> rw [same] at current
    · rcases goes.follows.active with still | none
      · exact still.symm.trans current
      · rw [none] at current
        cases current
    · exact current
  · exact Nat.le_refl _
  · exact fun _ member => member
  · exact fun _ _ saw => saw

theorem World.Kept.cons (kept : world.Kept) {entry : Entry} (leased : (world.note entry).Leased)
    (unseen : ∀ id clientRequestId, entry ≠ .sawFinalized id clientRequestId) :
    (world.note entry).Kept := by
  apply kept.outside _ leased
  · intro critical held
    exact ⟨held, .ofEq rfl rfl rfl (.inl rfl), fun _ retires => retires,
      (kept.holds critical held).row⟩
  · exact fun _ lease member => ⟨lease, member, .refl lease⟩
  · exact fun _ _ current => current
  · exact Nat.le_refl _
  · exact fun _ member => List.mem_cons_of_mem entry member
  · intro id clientRequestId saw
    exact (List.mem_cons.mp saw).resolve_left (unseen id clientRequestId).symm

theorem World.Kept.note (kept : world.Kept) {entry : Entry} (quiet : entry.isQuiet = true) :
    (world.note entry).Kept := by
  apply kept.cons (kept.leased.note quiet)
  intro id clientRequestId same
  rw [same] at quiet
  cases quiet

theorem World.Kept.returns (kept : world.Kept) {result : Except BrowserError Tab}
    (goes : ∀ tab, result = .ok tab → (world.tabs id).Goes world id tab ∧
      (world.tabs id).Calm tab) : (world.returned id result).Kept := by
  cases result with
  | ok tab =>
    obtain ⟨goes, calm⟩ := goes tab rfl
    exact kept.goes goes (.inl calm.runtime)
  | error error => exact kept.note rfl

/-- A key is handed out while its lease is active. -/
theorem World.Kept.acquires (kept : world.Kept) {serial : Nat} {sessionId : String}
    {chosenAt : Option Nat}
    (chosen : ∀ lease ∈ (world.tabs id).leases, lease.serial = serial →
      lease.sessionId = sessionId ∧
        ∀ now, chosenAt = some now → now + minRequestLeaseRemainingSeconds ≤ lease.expiresAt)
    (acquired : world.acquireEphemeralKey id serial sessionId chosenAt = some next) :
    next.Kept := by
  rw [World.acquireEphemeralKey] at acquired
  dsimp only at acquired
  split at acquired
  · cases acquired
  case h_2 lease found =>
    obtain ⟨member, named⟩ := Tab.lease?_some found
    split at acquired
    · exact Option.some.inj acquired ▸ kept.note rfl
    case isFalse usable =>
      simp only [ne_eq, not_or, not_not, Bool.not_eq_true] at usable
      obtain ⟨active, idle, unretired⟩ := usable
      have held := kept.leased.tabs id
      have one : ∀ other ∈ (world.tabs id).leases, other.serial = serial → other = lease :=
        fun other inside same => held.single other inside lease member (same.trans named.symm)
      obtain ⟨leased, follows⟩ := held.modify serial
        (fun lease => { lease with inFlight := lease.inFlight + 1 })
        (fun _ => ⟨rfl, rfl, rfl, rfl, rfl⟩)
        (fun other inside same retiring => by
          rw [one other inside same] at retiring
          rw [idle] at retiring
          cases retiring)
        (fun retires other inside same => (held.retirement serial retires).2 other inside same)
        (fun other inside same _ => .inr (active.trans (congrArg some same.symm)))
      have counted := kept.goes ⟨leased, follows, fun _ retires => retires⟩ (.inl rfl)
      rw [← Option.some.inj acquired]
      have unseen : ∀ other clientRequestId, Entry.checkedOut id lease sessionId chosenAt ≠
          .sawFinalized other clientRequestId := by
        intro other clientRequestId same
        cases same
      apply counted.cons _ unseen
      apply counted.leased.cons
      · intro clientRequestId answers
        cases answers
      · exact fun other lease _ _ => unseen other lease.clientRequestId
      apply counted.leased.safe.cons
      · intro body state stored same
        cases same
      intro other handed session chosen' same
      rw [Entry.checkedOut.injEq] at same
      obtain ⟨rfl, rfl, rfl, rfl⟩ := same
      have session := chosen lease member named
      exact ⟨session.1, session.2, unretired,
        held.seen lease member (active.trans (congrArg some named.symm))⟩

theorem World.Kept.resumes (kept : world.Kept) {call : Pending}
    (member : call ∈ (world.tabs id).pending) (resumed : world.resume id call = some next) :
    next.Kept := by
  have held := kept.leased.tabs id
  have erased : (world.tabs id).Goes world id { world.tabs id with
      pending := (world.tabs id).pending.erase call } :=
    .rewrite held rfl rfl rfl rfl rfl fun _ _ _ inside => List.mem_of_mem_erase inside
  have read : (world.tabs id).Goes world id { world.tabs id with
      pending := (world.tabs id).pending.erase call, runtime := world.store.runtime } :=
    .rewrite held rfl rfl rfl rfl rfl fun _ _ _ inside => List.mem_of_mem_erase inside
  have calm := kept.goes erased (.inl rfl)
  have reloaded := kept.goes read (.inr rfl)
  have settled : ∀ other : Pending, (∀ serial sessionId chosenAt,
      other ≠ .ensureReturns serial sessionId chosenAt) →
      (world.setTab id { world.tabs id with
        pending := other :: (world.tabs id).pending.erase call }).Kept := fun other unlike =>
    kept.goes (erased.trans (.waits erased.leased unlike)) (.inl rfl)
  cases call with
  | ensureReloads sessionId budget now =>
    rw [World.resume] at resumed
    rw [← Option.some.inj resumed]
    apply reloaded.returns
    intro tab ensured
    have tabs := reloaded.leased.tabs id
    rw [World.setTab_self] at tabs ⊢
    exact ⟨Tab.ensureReloaded_goes tabs ensured, Tab.ensureReloaded_calm ensured⟩
  | ensureReturns serial sessionId chosenAt =>
    apply calm.acquires _ resumed
    rw [World.setTab_self]
    exact (held.waits serial sessionId chosenAt member).2
  | settleAwaits =>
    rw [World.resume] at resumed
    split at resumed
    · cases resumed
    · rw [← Option.some.inj resumed]
      apply calm.returns
      intro tab settled
      have tabs := calm.leased.tabs id
      rw [World.setTab_self] at tabs ⊢
      exact ⟨Tab.settleAwaited_goes tabs settled, Tab.settleAwaited_calm settled⟩
  | settleRetires =>
    rw [World.resume] at resumed
    split at resumed
    · cases resumed
    · exact Option.some.inj resumed ▸ settled .settleEnds (by simp)
  | settleEnds =>
    rw [World.resume] at resumed
    rw [← Option.some.inj resumed]
    apply reloaded.returns
    intro tab settled
    have tabs := reloaded.leased.tabs id
    rw [World.setTab_self] at tabs ⊢
    exact ⟨Tab.settleEnded_goes tabs rfl settled, Tab.settleEnded_calm settled⟩
  | sessionRetires sessionId =>
    rw [World.resume] at resumed
    split at resumed
    · cases resumed
    · exact Option.some.inj resumed ▸ settled (.sessionRecovers sessionId) (by simp)
  | clears state =>
    rw [World.resume] at resumed
    exact Option.some.inj resumed ▸ calm.note rfl
  | ensureWaits sessionId | settleRecovers | sessionRecovers sessionId | checksClose record =>
    cases resumed

theorem StoreChange.apply_journal {store changed : Store} {change : StoreChange}
    (applied : change.apply store = some changed) :
    changed.runtime.journal = none ∨ changed.runtime.journal = store.runtime.journal ∧
      changed.runtime.lease = store.runtime.lease ∧ (change.forgetsLease store = true →
        ∃ attempt phase mode reserved, change = .transfers attempt phase mode reserved ∧
          attempt.isTerminal = true) := by
  -- most changes forget no lease
  have kept {found : Prop} (forgets : false = true) : found := absurd forgets Bool.false_ne_true
  cases change with
  | archives reason noteId claimed =>
    rw [StoreChange.apply, archiveBrowserWallet] at applied
    split at applied
    · cases applied
    split at applied
    · cases applied
    split at applied
    · cases applied
    · exact Option.some.inj applied ▸ .inl rfl
  | detaches noteId phase destination =>
    rw [StoreChange.apply, detachBrowserEscapeWithdrawal] at applied
    split at applied
    · cases applied
    split at applied
    · cases applied
    · exact Option.some.inj applied ▸ .inl rfl
  | detachesClosed noteId mode destination closeBlockNumber reserved =>
    rw [StoreChange.apply, detachBrowserClosedWithdrawal] at applied
    split at applied
    · cases applied
    split at applied
    · cases applied
    · exact Option.some.inj applied ▸ .inl rfl
  | parks =>
    rw [StoreChange.apply, parkBrowserWithdrawal] at applied
    split at applied
    · split at applied
      · cases applied
      · exact Option.some.inj applied ▸ .inl rfl
    · cases applied
  | restores noteId revision =>
    rw [StoreChange.apply, restoreBrowserWithdrawal] at applied
    split at applied
    · cases applied
    split at applied
    · cases applied
    dsimp only at applied
    split at applied
    · cases applied
    · exact Option.some.inj applied ▸ .inr ⟨rfl, rfl, kept⟩
  | transfers attempt phase mode reserved =>
    rw [StoreChange.apply, transferBrowserLateWithdrawalAttempt] at applied
    dsimp only at applied
    split at applied
    · cases applied
    split at applied
    case isTrue terminal =>
      exact Option.some.inj applied ▸ .inr ⟨rfl, rfl, fun _ => ⟨_, _, _, _, rfl, terminal⟩⟩
    split at applied
    · cases applied
    split at applied
    · cases applied
    rw [← Option.some.inj applied]
    dsimp only
    split
    · exact .inl rfl
    case isFalse apart => exact .inr ⟨rfl, rfl, fun forgets => absurd forgets apart⟩
  | clears force expectedNoteId expectedTransactionHashes =>
    rw [StoreChange.apply, clearPreparedWithdrawal] at applied
    split at applied
    · exact Option.some.inj applied ▸ .inr ⟨rfl, rfl, kept⟩
    repeat
      split at applied
      · cases applied
    exact Option.some.inj applied ▸ .inr ⟨rfl, rfl, kept⟩
  | challenges attempt =>
    rw [StoreChange.apply, resolveLateChallengedWithdrawalAttempt] at applied
    dsimp only at applied
    split at applied
    · cases applied
    split at applied
    · exact Option.some.inj applied ▸ .inr ⟨rfl, rfl, kept⟩
    split at applied
    · cases applied
    · exact Option.some.inj applied ▸ .inr ⟨rfl, rfl, kept⟩
  | challengesPrepared noteId =>
    rw [StoreChange.apply, resolveChallengedPreparedEscape] at applied
    split at applied
    · cases applied
    split at applied
    · cases applied
    · exact Option.some.inj applied ▸ .inr ⟨rfl, rfl, kept⟩
  | remembers attempts => exact Option.some.inj applied ▸ .inr ⟨rfl, rfl, kept⟩
  | deposits pending =>
    rw [StoreChange.apply, planDeposit] at applied
    split at applied
    · cases applied
    · exact Option.some.inj applied ▸ .inr ⟨rfl, rfl, kept⟩
  | confirms state =>
    rw [StoreChange.apply, confirmDeposit] at applied
    split at applied
    · cases applied
    split at applied
    · cases applied
    · exact Option.some.inj applied ▸ .inl rfl

theorem RecordChange.apply_journal {store changed : Store} {change : RecordChange}
    (applied : change.apply store = some changed) :
    changed.runtime.journal = store.runtime.journal ∧
      changed.runtime.lease = store.runtime.lease := by
  cases change with
  | rewrites phase submissionId hashes =>
    obtain ⟨plan, planned, same⟩ := Option.map_eq_some_iff.mp applied
    subst same
    exact ⟨rfl, rfl⟩
  | updates noteId changes revision =>
    have runtime := updateBrowserWithdrawal_runtime applied
    exact ⟨runtime ▸ rfl, runtime ▸ rfl⟩
  | mutates noteId phase startPending finalizePending planPhase submissionId hashes =>
    obtain ⟨record, found, same⟩ := Option.map_eq_some_iff.mp applied
    subst same
    exact ⟨rfl, rfl⟩
  | plans noteId destination =>
    rw [RecordChange.apply, saveBrowserBackgroundWithdrawalPlan] at applied
    split at applied
    · cases applied
    split at applied
    · cases applied
    · exact Option.some.inj applied ▸ ⟨rfl, rfl⟩

/-- A change of plans and records that leaves the request and the row of its lease. -/
theorem World.Kept.stores (kept : world.Kept) {store : Store}
    (journal : store.runtime.journal = world.store.runtime.journal)
    (row : store.runtime.lease = world.store.runtime.lease) :
    World.Kept { world with store := store } := by
  apply kept.outside
  · apply kept.leased.store
    intro other lease _ stored
    rw [journal] at stored
    exact ⟨stored, row⟩
  · intro critical held
    exact ⟨held, .ofEq rfl rfl rfl (.inl rfl), fun _ retires => retires,
      (kept.holds critical held).row.trans row.symm⟩
  · exact fun _ lease member => ⟨lease, member, .refl lease⟩
  · exact fun _ _ current => current
  · exact Nat.le_refl _
  · exact fun _ member => member
  · exact fun _ _ saw => saw

theorem World.Kept.changes (kept : world.Kept) (free : world.critical = none) {store : Store}
    {change : StoreChange} (statusThrows : Bool)
    (applied : change.apply world.store = some store) :
    World.Kept { world.noteChange change statusThrows with store := store } := by
  have noted : (world.noteChange change statusThrows).Leased := by
    unfold World.noteChange
    split
    · dsimp only
      split
      · exact World.Leased.note (kept.leased.note rfl) rfl
      · exact kept.leased.note rfl
    · exact kept.leased
  have still : (world.noteChange change statusThrows).critical = none ∧
      (world.noteChange change statusThrows).store = world.store := by
    unfold World.noteChange
    split
    · dsimp only
      split <;> exact ⟨free, rfl⟩
    · exact ⟨free, rfl⟩
  apply World.Kept.free
  · apply noted.store
    intro other lease _ stored
    rcases StoreChange.apply_journal applied with none | ⟨journal, row, _⟩
    · rw [none] at stored
      cases stored
    · rw [journal] at stored
      rw [World.journalId, still.2]
      exact ⟨stored, row⟩
  · exact still.1

/-- A tab may forget its lease when nothing is journaled. -/
theorem Tab.Leased.forgets {tab : Tab} (held : tab.Leased world id) (idle : world.journalId = none)
    (runtime : Runtime) :
    Tab.Leased world id { tab with runtime := runtime, activeLease := none } where
  living := held.living
  older := held.older
  single := held.single
  granted := held.granted
  retiring := held.retiring
  retirement := held.retirement
  used _ _ journal := by
    rw [idle] at journal
    cases journal
  owns _ _ _ active := by cases active
  waits := held.waits
  seen _ _ active := by cases active

/-- A tab forgets its lease when nothing is journaled any more. -/
theorem World.Kept.keepLease (kept : world.Kept) {keeps : Bool}
    (idle : keeps = false → world.journalId = none ∨ (world.tabs id).activeLease = none) :
    (world.keepLease id keeps).Kept := by
  have held := kept.leased.tabs id
  have same (active : (if keeps then (world.tabs id).activeLease else none) =
      (world.tabs id).activeLease) : (world.keepLease id keeps).Kept :=
    kept.goes (.rewrite held rfl rfl rfl active rfl fun _ _ _ member => member) (.inr rfl)
  cases keeps with
  | true => exact same rfl
  | false =>
    rcases idle rfl with idle | forgotten
    · exact kept.goes ⟨held.forgets idle _, .ofEq rfl rfl rfl (.inr rfl), fun _ retires => retires⟩
        (.inr rfl)
    · exact same forgotten.symm

theorem World.Kept.syncs (kept : world.Kept) {record : WithdrawalRecord}
    {receiptBlocks : List Nat} {observedBlock : Nat} {reads : FinalityReads}
    (synced : world.syncClosed record receiptBlocks observedBlock reads = some next) :
    next.Kept := by
  rw [World.syncClosed] at synced
  dsimp only at synced
  split at synced
  · split at synced
    · exact Option.some.inj synced ▸ kept.note rfl
    case h_2 store updated =>
      rw [← Option.some.inj synced]
      have runtime := updateBrowserWithdrawal_runtime updated
      have read : (world.note (.vaultRead record.noteId (browserWithdrawalStateFinality reads
        "closed" (record.closedAt receiptBlocks observedBlock) observedBlock).checkedBlock
        "closed" reads.finalizedBlock (reads.head observedBlock))).Kept := kept.note rfl
      exact (read.stores (runtime ▸ rfl) (runtime ▸ rfl)).note rfl
  · split at synced
    · exact Option.some.inj synced ▸ kept
    case h_2 store updated =>
      have runtime := updateBrowserWithdrawal_runtime updated
      exact Option.some.inj synced ▸ kept.stores (runtime ▸ rfl) (runtime ▸ rfl)

/-- A tab without keys takes this place. -/
theorem World.Leased.replaces (leased : world.Leased) {tab : Tab} {opened : Nat}
    (leases : tab.leases = []) (retirement : tab.retirement = none) (pending : tab.pending = [])
    (more : world.opened ≤ opened) (within : tab.alive = true → id < opened)
    (owner : ∀ other, (world.tabs other).alive = true → tab.alive = true →
      (world.tabs other).ownerId = tab.ownerId → other = id) :
    World.Leased { world.setTab id tab with opened := opened } := by
  have split' : ∀ other, ((world.setTab id tab).tabs other = tab ∧ other = id) ∨
      (world.setTab id tab).tabs other = world.tabs other ∧ other ≠ id := by
    intro other
    by_cases same : other = id
    · exact .inl ⟨by rw [same, World.setTab_self], same⟩
    · exact .inr ⟨World.setTab_other _ _ same, same⟩
  have from' : ∀ other, ∀ lease ∈ ((world.setTab id tab).tabs other).leases,
      lease ∈ (world.tabs other).leases := by
    intro other lease member
    rcases split' other with ⟨same, rfl⟩ | ⟨same, _⟩ <;> rw [same] at member
    · rw [leases] at member
      cases member
    · exact member
  constructor
  · intro other
    dsimp only
    rcases split' other with ⟨same, rfl⟩ | ⟨same, _⟩ <;> rw [same]
    · constructor <;> simp [leases, retirement, pending]
    · apply (leased.tabs other).moves
      · exact fun _ _ journal => ⟨journal, rfl⟩
      · exact Nat.le_refl _
      · exact Nat.le_refl _
      · exact fun _ member => member
      · exact fun _ _ _ saw => saw
  · intro other alive
    dsimp only at alive ⊢
    rcases split' other with ⟨same, rfl⟩ | ⟨same, _⟩ <;> rw [same] at alive
    · exact within alive
    · exact Nat.lt_of_lt_of_le (leased.opened other alive) more
  · intro first second living also same
    dsimp only at living also same
    rcases split' first with ⟨one, here⟩ | ⟨one, apart⟩ <;>
      rcases split' second with ⟨two, there⟩ | ⟨two, far⟩ <;>
      rw [one] at living same <;> rw [two] at also same
    · exact here.trans there.symm
    · exact here.trans (owner second also living same.symm).symm
    · exact (owner first living also same).trans there.symm
    · exact leased.owners first second living also same
  · intro first second lease member other inside
    exact leased.once first second lease (from' first lease member) other (from' second other inside)
  · exact leased.proved
  · exact leased.safe

theorem World.Kept.replaces (kept : world.Kept) (id : Nat) (tab : Tab)
    (leases : tab.leases = []) (active : tab.activeLease = none) (next : World)
    (leased : next.Leased) (tabs : next.tabs = (world.setTab id tab).tabs)
    (store : next.store = world.store) (clock : next.clock = world.clock)
    (log : next.log = world.log)
    (critical : ∀ critical, next.critical = some critical →
      world.critical = some critical ∧ critical.tab ≠ id) : next.Kept := by
  have split' : ∀ other, next.tabs other = tab ∨ next.tabs other = world.tabs other := by
    intro other
    rw [tabs]
    by_cases same : other = id
    · exact .inl (by rw [same, World.setTab_self])
    · exact .inr (World.setTab_other _ _ same)
  apply kept.outside _ leased
  · intro holder held
    obtain ⟨before, apart⟩ := critical holder held
    have same : next.tabs holder.tab = world.tabs holder.tab := by
      rw [tabs]
      exact World.setTab_other _ _ apart
    rw [same, store]
    exact ⟨before, .ofEq rfl rfl rfl (.inl rfl), fun _ retires => retires,
      (kept.holds holder before).row⟩
  · intro other lease member
    rcases split' other with same | same <;> rw [same] at member
    · rw [leases] at member
      cases member
    · exact ⟨lease, member, .refl lease⟩
  · intro other serial current
    rcases split' other with same | same <;> rw [same] at current
    · rw [active] at current
      cases current
    · exact current
  · omega
  · rw [log]
    exact fun _ member => member
  · rw [log]
    exact fun _ _ saw => saw

theorem World.Kept.reload (kept : world.Kept) (id : Nat) : (world.reload id).Kept :=
  kept.goes (.rewrite (kept.leased.tabs id) rfl rfl rfl rfl rfl fun _ _ _ member => member)
    (.inr rfl)

theorem World.Kept.step (kept : world.Kept) (valid : world.Valid) (joined : world.Joined)
    {action : Action} (legal : world.isLegal action = true) (taken : world.step config action = some next) :
    next.Kept := by
  simp only [World.isLegal, Bool.and_eq_true] at legal
  obtain ⟨⟨fresh, honest⟩, steady⟩ := legal
  have leased := kept.leased
  have held := leased.tabs
  cases action with
  | opens ownerId =>
    rw [← Option.some.inj taken]
    have free : ∀ id, (world.tabs id).alive = true → id ≠ world.opened := by
      intro id alive
      have before := leased.opened id alive
      omega
    apply kept.replaces world.opened (.opened ownerId world.store.runtime) rfl rfl
    · apply leased.replaces rfl rfl rfl (Nat.le_succ _)
      · intro _
        exact Nat.lt_succ_self _
      · intro other alive _ same
        simp only [World.isHonest, List.all_eq_true, List.mem_range, Bool.or_eq_true,
          Bool.not_eq_true', bne_iff_ne] at honest
        rcases honest other (leased.opened other alive) with closed | differs
        · rw [closed] at alive
          cases alive
        · exact absurd same differs
    · rfl
    · rfl
    · rfl
    · rfl
    · intro critical holder
      exact ⟨holder, free critical.tab (kept.holds critical holder).alive⟩
  | closes id =>
    rw [← Option.some.inj taken]
    apply kept.replaces id .closed rfl rfl
    · have replaced : World.Leased { world.setTab id .closed with opened := world.opened } :=
        leased.replaces rfl rfl rfl (Nat.le_refl _) (by simp [Tab.closed]) (by simp [Tab.closed])
      exact replaced.congr _ rfl rfl rfl rfl rfl rfl
    · rfl
    · rfl
    · rfl
    · rfl
    · intro critical holder
      obtain ⟨before, apart⟩ := Option.filter_eq_some_iff.mp holder
      exact ⟨before, bne_iff_ne.mp apart⟩
  | ticks seconds =>
    rw [← Option.some.inj taken]
    apply kept.outside
    · exact leased.moves _ rfl rfl (fun _ _ _ journal => ⟨journal, rfl⟩) (Nat.le_add_right _ _)
        (Nat.le_refl _) (fun _ member => member) (fun _ _ _ _ saw => saw) leased.proved leased.safe
    · intro critical holder
      exact ⟨holder, .ofEq rfl rfl rfl (.inl rfl), fun _ retires => retires,
        (kept.holds critical holder).row⟩
    · exact fun _ lease member => ⟨lease, member, .refl lease⟩
    · exact fun _ _ current => current
    · exact Nat.le_add_right _ _
    · exact fun _ member => member
    · exact fun _ _ saw => saw
  | reloads id => exact World.call_eq taken ▸ kept.reload id
  | ensures id sessionId budget =>
    rw [World.call_eq taken]
    exact kept.returns fun tab ensured =>
      ⟨Tab.ensureLease_goes (held id) ensured, Tab.ensureLease_calm ensured⟩
  | settles id =>
    rw [World.call_eq taken]
    exact kept.goes (.waits (held id) (by simp)) (.inl rfl)
  | settlesSession id sessionId =>
    rw [World.call_eq taken]
    exact kept.returns fun tab settled =>
      ⟨Tab.settleSessionLease_goes (held id) settled, Tab.settleSessionLease_calm settled⟩
  | retires id =>
    rw [World.call_eq taken]
    cases retired : (world.tabs id).retireActiveLease with
    | none => exact kept.goes (.refl (held id)) (.inl rfl)
    | some tab =>
      exact kept.goes (Tab.retireActiveLease_goes (held id) retired)
        (.inl (Tab.retireActiveLease_calm retired).runtime)
  | releases id serial =>
    rw [World.call_eq taken]
    obtain ⟨released, follows⟩ := (held id).modify serial
      (fun lease => { lease with inFlight := lease.inFlight - 1 })
      (fun _ => ⟨rfl, rfl, rfl, rfl, rfl⟩)
      (fun lease member _ retiring => by
        have none := (held id).retiring lease member retiring
        dsimp only
        omega)
      (fun retires lease member same => ((held id).retirement serial retires).2 lease member same)
      (fun lease _ _ busy => .inl (by
        dsimp only at busy
        omega))
    exact kept.goes ⟨released, follows, fun _ retires => retires⟩ (.inl rfl)
  | withdrawsRecord id noteId =>
    rw [World.step] at taken
    split at taken
    · cases taken
    case h_2 record found =>
      obtain ⟨state, _, called⟩ := Option.bind_eq_some_iff.mp taken
      rw [World.call_eq called]
      exact kept.goes (.waits (held id) (by simp)) (.inl rfl)
  | resumes id call =>
    rw [World.step] at taken
    split at taken
    case isTrue member => exact kept.resumes member taken
    · cases taken
  | cancels id call =>
    rw [World.call_eq taken]
    exact kept.goes (.rewrite (held id) rfl rfl rfl rfl rfl
      fun _ _ _ member => List.mem_of_mem_erase member) (.inl rfl)
  | enters id purpose =>
    have alive : (world.tabs id).alive = true := by
      rw [World.step] at taken
      unfold World.enter at taken
      dsimp only at taken
      split at taken
      · cases taken
      case isFalse free =>
        cases alive : (world.tabs id).alive with
        | true => rfl
        | false => simp [alive] at free
    exact leased.enters alive steady taken
  | replies reply =>
    obtain ⟨critical, holder, answered⟩ := Option.bind_eq_some_iff.mp taken
    exact kept.answers valid joined holder honest (World.Orderly.fresh fresh) answered
  | changes id change aborts statusThrows =>
    rw [World.step] at taken
    split at taken
    · cases taken
    case isFalse free =>
      split at taken
      · exact World.call_eq taken ▸ (kept.reload id).note rfl
      split at taken
      · exact World.call_eq taken ▸ (kept.reload id).note rfl
      case h_2 store filtered =>
        rw [World.call_eq taken]
        have applied := (Option.filter_eq_some_iff.mp filtered).1
        apply (kept.changes (Option.not_isSome_iff_eq_none.mp free) statusThrows
          applied).keepLease
        intro forgets
        rcases StoreChange.apply_journal applied with none | ⟨_, _, terminal⟩
        · exact .inl (by rw [World.journalId, none]; rfl)
        · have forgets : change.forgetsLease world.store = true := by simpa using forgets
          obtain ⟨attempt, phase, mode, reserved, rfl, settled⟩ := terminal forgets
          right
          simpa [World.isSteady, settled, forgets, World.noteChange] using steady
  | rewrites change aborts =>
    rw [World.step] at taken
    split at taken
    · exact Option.some.inj taken ▸ kept.note rfl
    case h_2 store applied =>
      obtain ⟨journal, row⟩ := RecordChange.apply_journal (Option.filter_eq_some_iff.mp applied).1
      exact Option.some.inj taken ▸ kept.stores journal row
  | syncs id noteId =>
    obtain ⟨record, _, called⟩ := Option.bind_eq_some_iff.mp taken
    rw [World.call_eq called]
    exact kept.goes (.waits (held id) (by simp)) (.inl rfl)
  | observesClosed id record receiptBlocks observedBlock reads =>
    rw [World.step] at taken
    split at taken
    · have moved : (world.setTab id { world.tabs id with
          pending := (world.tabs id).pending.erase (.checksClose record) }).Kept :=
        kept.goes (.rewrite (held id) rfl rfl rfl rfl rfl
          fun _ _ _ member => List.mem_of_mem_erase member) (.inl rfl)
      exact moved.syncs taken
    · cases taken

theorem World.started_kept (clock : Nat) : (World.started clock).Kept := by
  apply World.Kept.free _ rfl
  constructor
  · intro id
    constructor <;> simp [World.started, Tab.closed, Tab.opened]
  · intro id alive
    cases alive
  · intro first second alive
    cases alive
  · intro first second lease member
    cases member
  · intro clientRequestId answered
    cases answered
  · constructor
    · exact fun _ _ _ => List.not_mem_nil
    · intro id lease sessionId chosenAt earlier suffix
      exact absurd (List.suffix_nil.mp suffix) (List.cons_ne_nil _ _)

theorem World.Reaches.kept {clock : Nat}
    (reaches : World.Reaches config (fun world action => world.isLegal action = true)
      (.started clock) world) : world.Valid ∧ world.Joined ∧ world.Kept := by
  induction reaches with
  | refl => exact ⟨World.started_valid clock, World.started_joined clock, World.started_kept clock⟩
  | step action _ legal taken ih =>
    obtain ⟨valid, joined, kept⟩ := ih
    have parts := legal
    simp only [World.isLegal, Bool.and_eq_true] at parts
    have opened := fun critical holder =>
      kept.leased.opened critical.tab (kept.holds critical holder).alive
    exact ⟨valid.step parts.1.1 taken, joined.step opened taken,
      kept.step valid joined legal taken⟩

def Entry.isCheckout : Entry → Bool
  | .checkedOut _ _ _ _ => true
  | _ => false

def Entry.retiresEarly : Entry → Bool
  | .retirementPosted _ _ _ early => early
  | _ => false

/-- As long as the retirements of a tab find no newer lease in it, nobody retires a key
that is in use before it may be settled. -/
theorem leases_owned {clock : Nat}
    (reaches : World.Reaches config (fun world action => world.isLegal action = true)
      (.started clock) world) : Safe world.log :=
  reaches.kept.2.2.leased.safe

open ZkApi.Browser.Reference in
/-- A key is handed out. -/
theorem leases_owned_checked_out : ∃ world : World,
    (∃ id lease sessionId chosenAt, .checkedOut id lease sessionId chosenAt ∈ world.log) ∧
      Safe world.log := by
  obtain ⟨world, reaches, out⟩ := World.exists_reached leaseConfig World.isLegal (.started 0)
    (funds ++ asks 0 0 ++ proves 0 "r" ++ issues "r" 100 ++
      [.resumes 0 (.ensureReturns 0 "s" none)])
    (fun world => world.log.any Entry.isCheckout) (by decide)
  refine ⟨world, ?_, leases_owned reaches⟩
  obtain ⟨entry, inside, checkout⟩ := List.any_eq_true.mp out
  cases entry with
  | checkedOut id lease sessionId chosenAt => exact ⟨id, lease, sessionId, chosenAt, inside⟩
  | _ => cases checkout

open ZkApi.Clientd.Reference ZkApi.Browser.Reference in
/-- A retirement that began while a new lease was being issued ends after it: the tab
forgets the lease that it has handed out, and its next call retires it. -/
theorem ended_retirement_forgets : ¬ ∀ world : World,
    World.Reaches leaseConfig
      (fun world action => (world.isOrderly action && world.isHonest action) = true)
      (.started 0) world → Safe world.log := by
  intro every
  obtain ⟨world, reaches, posted⟩ := World.exists_reached leaseConfig
    (fun world action => world.isOrderly action && world.isHonest action) (.started 0)
    (funds ++ asks 0 0 ++ proves 0 "r" ++ issues "r" 100 ++
      [.ticks 350, .opens "b", .enters 1 .startUp, .replies (.status "active"), .replies .plain,
        .replies (.status "finalized"), .replies (.response true),
        .replies (.completed nextNote)] ++
      asks 0 350 ++
      [.enters 0 (.issuesLease "s" 5), .replies (.path true),
        .replies (.prepared (journal "r'")), .retires 0, .replies .plain] ++
      issues "r'" 1000 ++
      [.resumes 0 (.ensureReturns 1 "s" none), .enters 0 (.retiresLease 0)] ++
      asks 0 350 ++
      [.enters 0 (.issuesLease "s" 5), .replies (.status "active"), .replies .plain])
    (fun world => world.log.any Entry.retiresEarly) (by decide)
  obtain ⟨entry, inside, early⟩ := List.any_eq_true.mp posted
  cases entry with
  | retirementPosted body state stored checkedOut =>
    subst early
    exact (every world reaches).unused body state stored inside
  | _ => cases early

end Steps

end ZkApi.Browser
