import ZkApi.ExpiryHistory
import ZkApi.PromiseCaches
import ZkApi.StepRuns

/-!
# The proving keys of the worker

The worker answers messages, and several of them can wait at the same time.  It downloads a
proving key once and checks its hash, decodes it once into a prover, and keeps the promises of
both so that later messages need not wait again.
-/

namespace ZkApi.Browser.Worker

open Expiry PromiseCaches

section Messages

/-- Where a proving key is, and its hash if it is known. -/
structure Descriptor where
  url : String
  sha256 : Option String
deriving DecidableEq

abbrev Bytes := List UInt8

def cacheKey (descriptor : Descriptor) : String :=
  String.ofList (descriptor.url.toList ++ '|' :: (descriptor.sha256.getD "").toList)

/-- The bytes have the hash that the descriptor gives, if it gives one. -/
def intact (digest : Bytes → String) (descriptor : Descriptor) (bytes : Bytes) : Bool :=
  match descriptor.sha256 with
  | some sha256 => sha256 = "" || digest bytes = lowerCase sha256
  | none => true

/-- The operations of `execute`, as far as they load a key. -/
inductive Operation where
  | preloadRequestProver (provingKey : Descriptor)
  | prepareRequest (provingKey : Descriptor)
  | prepareWithdrawal (provingKey : Descriptor)
  | other (name : String)
deriving DecidableEq

def Operation.provingKey : Operation → Option Descriptor
  | .preloadRequestProver descriptor => some descriptor
  | .prepareRequest descriptor => some descriptor
  | .prepareWithdrawal descriptor => some descriptor
  | .other _ => none

/-- A preload ends when its prover is there. -/
def Operation.onlyLoads : Operation → Bool
  | .preloadRequestProver _ => true
  | _ => false

/-- An answer to a message, with the key that it was made with. -/
inductive Reply where
  | result (used : Option Bytes)
  | error
deriving DecidableEq

/-- What a message waits for.  The call that made a promise handles its rejection. -/
inductive Phase where
  | starting
  | awaitsProver (promise : Nat) (owns : Bool)
  | awaitsKey (promise : Nat) (owns : Bool)
  | replied (reply : Reply)
deriving DecidableEq

structure Call where
  id : Nat
  operation : Operation
  phase : Phase
deriving DecidableEq

end Messages

section Worker

/-- A prover that is being made: it waits for the promise of its key. -/
structure ProverInput where
  descriptor : Descriptor
  keyPromise : Nat
  owns : Bool
deriving DecidableEq

def ProverInput.cacheKey (input : ProverInput) : String :=
  Worker.cacheKey input.descriptor

/-- The state of the worker.  A prover stands for the bytes that it was decoded from. -/
structure State where
  initialized : Outcome Unit
  provingKeys : Cache Descriptor String Bytes
  requestProvers : Cache ProverInput String Bytes
  calls : List Call

def State.initial : State where
  initialized := .pending
  provingKeys := Cache.empty
  requestProvers := Cache.empty
  calls := []

/-- The promise of a key, and whether the caller has made it. -/
def State.loadProvingKey (state : State) (descriptor : Descriptor) : State × Nat × Bool :=
  match state.provingKeys.entry (cacheKey descriptor) with
  | some promise => (state, promise, false)
  | none =>
      ({ state with provingKeys := state.provingKeys.start cacheKey descriptor },
        state.provingKeys.promises.length, true)

/-- The promise of a prover.  Making one loads its key. -/
def State.loadRequestProver (state : State) (descriptor : Descriptor) : State × Nat × Bool :=
  match state.requestProvers.entry (cacheKey descriptor) with
  | some promise => (state, promise, false)
  | none =>
      let (loading, keyPromise, owns) := state.loadProvingKey descriptor
      ({ loading with
          requestProvers :=
            loading.requestProvers.start ProverInput.cacheKey ⟨descriptor, keyPromise, owns⟩ },
        loading.requestProvers.promises.length, true)

/-- The outcome that one who waits for a promise can see.  The one who made it has handled it
before. -/
def visible {Input Value : Type} (cache : Cache Input String Value) (promise : Nat)
    (owns : Bool) : Outcome Value :=
  match cache.get promise with
  | some found => if owns && !found.handled then .pending else found.outcome
  | none => .pending

def State.withPhase (state : State) (index : Nat) (call : Call) (phase : Phase) : State :=
  { state with calls := state.calls.set index { call with phase := phase } }

/-- A call goes on after it has waited. -/
def State.resume (state : State) (index : Nat) (call : Call) (succeeds : Bool) : Option State :=
  match call.phase with
  | .replied _ => none
  | .starting =>
      match state.initialized, call.operation with
      | .pending, _ => none
      | .rejected, _ => some (state.withPhase index call (.replied .error))
      | .fulfilled _, .preloadRequestProver descriptor
      | .fulfilled _, .prepareRequest descriptor =>
          let (loading, promise, owns) := state.loadRequestProver descriptor
          some (loading.withPhase index call (.awaitsProver promise owns))
      | .fulfilled _, .prepareWithdrawal descriptor =>
          let (loading, promise, owns) := state.loadProvingKey descriptor
          some (loading.withPhase index call (.awaitsKey promise owns))
      | .fulfilled _, .other _ =>
          some (state.withPhase index call (.replied (if succeeds then .result none else .error)))
  | .awaitsProver promise owns =>
      match visible state.requestProvers promise owns with
      | .pending => none
      | .rejected => some (state.withPhase index call (.replied .error))
      | .fulfilled bytes =>
          some (state.withPhase index call (.replied
            (if succeeds || call.operation.onlyLoads then .result (some bytes) else .error)))
  | .awaitsKey promise owns =>
      match visible state.provingKeys promise owns with
      | .pending => none
      | .rejected => some (state.withPhase index call (.replied .error))
      | .fulfilled bytes =>
          some (state.withPhase index call
            (.replied (if succeeds then .result (some bytes) else .error)))

/-- What can happen next.  A download ends with bytes or fails, and the calls and the makers of
promises go on in any order. -/
inductive Event where
  | message (id : Nat) (operation : Operation)
  | initialized (succeeds : Bool)
  | downloaded (promise : Nat) (answer : Option Bytes)
  | keyHandled (promise : Nat)
  | decoded (promise : Nat) (succeeds : Bool)
  | proverHandled (promise : Nat)
  | resumed (index : Nat) (succeeds : Bool)

/-- The download of a key fails if the bytes are not those of the descriptor. -/
def downloadOutcome (digest : Bytes → String) (descriptor : Descriptor) :
    Option Bytes → Outcome Bytes
  | none => .rejected
  | some bytes => if intact digest descriptor bytes then .fulfilled bytes else .rejected

/-- Decode the key of a prover.  After that the copy of the key is taken out of its cache. -/
def State.decode (state : State) (promise : Nat) (input : ProverInput) (succeeds : Bool) :
    Option State :=
  match visible state.provingKeys input.keyPromise input.owns with
  | .pending => none
  | .rejected =>
      some { state with requestProvers := state.requestProvers.settle promise .rejected }
  | .fulfilled bytes =>
      some { state with
        provingKeys := state.provingKeys.drop (cacheKey input.descriptor)
        requestProvers := state.requestProvers.settle promise
          (if succeeds then .fulfilled bytes else .rejected) }

def step (digest : Bytes → String) (state : State) : Event → Option State
  | .message id operation =>
      some { state with calls := state.calls ++ [⟨id, operation, .starting⟩] }
  | .initialized succeeds =>
      if state.initialized = .pending then
        some { state with initialized := if succeeds then .fulfilled () else .rejected }
      else none
  | .downloaded promise answer =>
      match state.provingKeys.get promise with
      | some found =>
          if found.outcome = .pending then
            some { state with
              provingKeys :=
                state.provingKeys.settle promise (downloadOutcome digest found.input answer) }
          else none
      | none => none
  | .keyHandled promise =>
      match state.provingKeys.get promise with
      | some found =>
          if found.outcome ≠ .pending ∧ found.handled = false then
            some { state with provingKeys := state.provingKeys.handle cacheKey promise }
          else none
      | none => none
  | .decoded promise succeeds =>
      match state.requestProvers.get promise with
      | some found =>
          if found.outcome = .pending then state.decode promise found.input succeeds else none
      | none => none
  | .proverHandled promise =>
      match state.requestProvers.get promise with
      | some found =>
          if found.outcome ≠ .pending ∧ found.handled = false then
            some { state with
              requestProvers := state.requestProvers.handle ProverInput.cacheKey promise }
          else none
      | none => none
  | .resumed index succeeds =>
      match state.calls[index]? with
      | some call => state.resume index call succeeds
      | none => none

end Worker

section Invariant

variable {digest : Bytes → String} {plain : Descriptor → Prop} {state : State}

/-- Bytes that had the hash of a descriptor with the key. -/
def Vouched (digest : Bytes → String) (plain : Descriptor → Prop) (key : String)
    (bytes : Bytes) : Prop :=
  ∃ descriptor, plain descriptor ∧ cacheKey descriptor = key ∧
    intact digest descriptor bytes = true

/-- A call waits for a promise of its own key, and has used no other bytes. -/
def CallGood (digest : Bytes → String) (plain : Descriptor → Prop) (state : State)
    (call : Call) : Prop :=
  (∀ descriptor, call.operation.provingKey = some descriptor → plain descriptor) ∧
  match call.phase with
  | .awaitsProver promise _ => ∃ descriptor found,
      call.operation.provingKey = some descriptor ∧
      state.requestProvers.get promise = some found ∧
      found.input.cacheKey = cacheKey descriptor
  | .awaitsKey promise _ => ∃ descriptor found,
      call.operation.provingKey = some descriptor ∧
      state.provingKeys.get promise = some found ∧ cacheKey found.input = cacheKey descriptor
  | .replied (.result (some bytes)) => ∃ descriptor,
      call.operation.provingKey = some descriptor ∧
      Vouched digest plain (cacheKey descriptor) bytes
  | _ => True

/-- The invariant of the worker, for descriptors of some kind. -/
structure Good (digest : Bytes → String) (plain : Descriptor → Prop) (state : State) :
    Prop where
  keysSound : Sound cacheKey state.provingKeys
  proversSound : Sound ProverInput.cacheKey state.requestProvers
  proversLasting : Lasting ProverInput.cacheKey state.requestProvers
  keys : ∀ id promise, state.provingKeys.get id = some promise → plain promise.input ∧
    ∀ bytes, promise.outcome = .fulfilled bytes → intact digest promise.input bytes = true
  provers : ∀ id promise, state.requestProvers.get id = some promise →
    plain promise.input.descriptor ∧
    (∃ key, state.provingKeys.get promise.input.keyPromise = some key ∧
      cacheKey key.input = promise.input.cacheKey) ∧
    ∀ bytes, promise.outcome = .fulfilled bytes →
      Vouched digest plain promise.input.cacheKey bytes
  calls : ∀ call ∈ state.calls, CallGood digest plain state call

theorem good_initial : Good digest plain State.initial where
  keysSound := sound_empty
  proversSound := sound_empty
  proversLasting := lasting_empty
  keys _ _ found := by cases found
  provers _ _ found := by cases found
  calls _ member := by cases member

/-- A call stays good while the caches grow. -/
theorem CallGood.mono {later : State} {call : Call} (good : CallGood digest plain state call)
    (keys : Evolves state.provingKeys later.provingKeys)
    (provers : Evolves state.requestProvers later.requestProvers) :
    CallGood digest plain later call := by
  refine ⟨good.1, ?_⟩
  have rest := good.2
  cases phase : call.phase with
  | starting => trivial
  | awaitsProver promise owns =>
      rw [phase] at rest
      obtain ⟨descriptor, found, named, held, same⟩ := rest
      obtain ⟨grown, again, input, _⟩ := provers promise found held
      exact ⟨descriptor, grown, named, again, by rw [input, same]⟩
  | awaitsKey promise owns =>
      rw [phase] at rest
      obtain ⟨descriptor, found, named, held, same⟩ := rest
      obtain ⟨grown, again, input, _⟩ := keys promise found held
      exact ⟨descriptor, grown, named, again, by rw [input, same]⟩
  | replied reply =>
      rw [phase] at rest
      cases reply with
      | result used => cases used <;> exact rest
      | error => trivial

/-- The cache of the keys may grow, as long as new bytes are checked. -/
theorem Good.withKeys (good : Good digest plain state) {keys : Cache Descriptor String Bytes}
    (evolves : Evolves state.provingKeys keys) (sound : Sound cacheKey keys)
    (checked : ∀ id promise, keys.get id = some promise → plain promise.input ∧
      ∀ bytes, promise.outcome = .fulfilled bytes → intact digest promise.input bytes = true) :
    Good digest plain { state with provingKeys := keys } where
  keysSound := sound
  proversSound := good.proversSound
  proversLasting := good.proversLasting
  keys := checked
  provers id promise found := by
    obtain ⟨kind, ⟨key, held, same⟩, vouched⟩ := good.provers id promise found
    obtain ⟨grown, again, input, _⟩ := evolves _ key held
    exact ⟨kind, ⟨grown, again, by rw [input, same]⟩, vouched⟩
  calls call member := (good.calls call member).mono evolves (Evolves.refl _)

/-- The cache of the provers may grow, as long as new provers come from checked bytes. -/
theorem Good.withProvers (good : Good digest plain state)
    {provers : Cache ProverInput String Bytes}
    (evolves : Evolves state.requestProvers provers)
    (sound : Sound ProverInput.cacheKey provers)
    (lasting : Lasting ProverInput.cacheKey provers)
    (checked : ∀ id promise, provers.get id = some promise →
      plain promise.input.descriptor ∧
      (∃ key, state.provingKeys.get promise.input.keyPromise = some key ∧
        cacheKey key.input = promise.input.cacheKey) ∧
      ∀ bytes, promise.outcome = .fulfilled bytes →
        Vouched digest plain promise.input.cacheKey bytes) :
    Good digest plain { state with requestProvers := provers } where
  keysSound := good.keysSound
  proversSound := sound
  proversLasting := lasting
  keys := good.keys
  provers := checked
  calls call member := (good.calls call member).mono (Evolves.refl _) evolves

/-- A call gets another phase. -/
theorem Good.withPhase (good : Good digest plain state) {index : Nat} {call : Call}
    {phase : Phase} (next : CallGood digest plain state { call with phase := phase }) :
    Good digest plain (state.withPhase index call phase) where
  keysSound := good.keysSound
  proversSound := good.proversSound
  proversLasting := good.proversLasting
  keys := good.keys
  provers := good.provers
  calls other member := by
    rcases List.mem_or_eq_of_mem_set member with old | rfl
    · exact good.calls other old
    · exact next

/-- The one who loads a key gets a promise for it. -/
theorem Good.loadProvingKey (good : Good digest plain state) {descriptor : Descriptor}
    (kind : plain descriptor) :
    Good digest plain (state.loadProvingKey descriptor).1 ∧
      (state.loadProvingKey descriptor).1.requestProvers = state.requestProvers ∧
      (state.loadProvingKey descriptor).1.calls = state.calls ∧
      ∃ found, (state.loadProvingKey descriptor).1.provingKeys.get
          (state.loadProvingKey descriptor).2.1 = some found ∧
        cacheKey found.input = cacheKey descriptor := by
  rw [State.loadProvingKey]
  cases held : state.provingKeys.entry (cacheKey descriptor) with
  | some promise =>
      obtain ⟨found, got, same, _⟩ := good.keysSound.entry _ promise held
      exact ⟨good, rfl, rfl, found, got, same⟩
  | none =>
      refine ⟨good.withKeys (evolves_start _ _) (good.keysSound.start descriptor) ?_, rfl, rfl,
        _, Cache.get_start_new _ _ _, rfl⟩
      intro id promise found
      rcases Cache.get_start_cases found with old | ⟨_, rfl⟩
      · exact good.keys id promise old
      · exact ⟨kind, nofun⟩

/-- The one who loads a prover gets a promise for it. -/
theorem Good.loadRequestProver (good : Good digest plain state) {descriptor : Descriptor}
    (kind : plain descriptor) :
    Good digest plain (state.loadRequestProver descriptor).1 ∧
      ∃ found, (state.loadRequestProver descriptor).1.requestProvers.get
          (state.loadRequestProver descriptor).2.1 = some found ∧
        found.input.cacheKey = cacheKey descriptor := by
  rw [State.loadRequestProver]
  cases held : state.requestProvers.entry (cacheKey descriptor) with
  | some promise =>
      obtain ⟨found, got, same, _⟩ := good.proversSound.entry _ promise held
      exact ⟨good, found, got, same⟩
  | none =>
      obtain ⟨loading, provers, calls, key, loaded, same⟩ := good.loadProvingKey kind
      refine ⟨loading.withProvers (evolves_start _ _) (loading.proversSound.start _)
        (loading.proversLasting.start ?_) ?_, _, Cache.get_start_new _ _ _, rfl⟩
      · rw [provers]
        exact held
      · intro id promise found
        rcases Cache.get_start_cases found with old | ⟨_, rfl⟩
        · exact loading.provers id promise old
        · exact ⟨kind, ⟨key, loaded, same⟩, nofun⟩

theorem visible_fulfilled {Input : Type} {cache : Cache Input String Bytes} {promise : Nat}
    {owns : Bool} {bytes : Bytes} {found : Promise Input Bytes}
    (held : cache.get promise = some found)
    (seen : visible cache promise owns = .fulfilled bytes) : found.outcome = .fulfilled bytes := by
  rw [visible, held] at seen
  dsimp only at seen
  split at seen
  · cases seen
  · exact seen

theorem intact_of_downloaded {descriptor : Descriptor} {answer : Option Bytes} {bytes : Bytes}
    (same : downloadOutcome digest descriptor answer = .fulfilled bytes) :
    intact digest descriptor bytes = true := by
  unfold downloadOutcome at same
  split at same
  · cases same
  · rename_i given
    split at same
    · rename_i checked
      cases same
      exact checked
    · cases same

/-- A call goes on with a promise of its own key, and ends with the bytes of that promise. -/
theorem Good.resume (good : Good digest plain state) {index : Nat} {call : Call} {next : State}
    {succeeds : Bool} (member : call ∈ state.calls)
    (resumed : state.resume index call succeeds = some next) : Good digest plain next := by
  obtain ⟨kind, phase⟩ := good.calls call member
  have ended : ∀ reply : Reply, (∀ bytes, reply = .result (some bytes) → ∃ descriptor,
      call.operation.provingKey = some descriptor ∧
      Vouched digest plain (cacheKey descriptor) bytes) →
      Good digest plain (state.withPhase index call (.replied reply)) := by
    intro reply used
    refine good.withPhase ⟨kind, ?_⟩
    cases reply with
    | error => trivial
    | result bytes =>
        cases bytes with
        | none => trivial
        | some bytes => exact used bytes rfl
  unfold State.resume at resumed
  split at resumed
  · cases resumed
  · split at resumed
    · cases resumed
    · cases resumed
      exact ended .error nofun
    · rename_i descriptor _ operation
      cases resumed
      have named : call.operation.provingKey = some descriptor := by rw [operation]; rfl
      obtain ⟨loading, found, held, same⟩ := good.loadRequestProver (kind descriptor named)
      exact loading.withPhase ⟨kind, descriptor, found, named, held, same⟩
    · rename_i descriptor _ operation
      cases resumed
      have named : call.operation.provingKey = some descriptor := by rw [operation]; rfl
      obtain ⟨loading, found, held, same⟩ := good.loadRequestProver (kind descriptor named)
      exact loading.withPhase ⟨kind, descriptor, found, named, held, same⟩
    · rename_i descriptor _ operation
      cases resumed
      have named : call.operation.provingKey = some descriptor := by rw [operation]; rfl
      obtain ⟨loading, _, _, found, held, same⟩ := good.loadProvingKey (kind descriptor named)
      exact loading.withPhase ⟨kind, descriptor, found, named, held, same⟩
    · cases resumed
      refine ended _ fun bytes same => ?_
      split at same <;> cases same
  · rename_i promise owns waits
    rw [waits] at phase
    obtain ⟨descriptor, found, named, held, same⟩ := phase
    split at resumed
    · cases resumed
    · cases resumed
      exact ended .error nofun
    · rename_i bytes seen
      cases resumed
      refine ended _ fun others equal => ?_
      split at equal
      · cases equal
        obtain ⟨_, _, vouched⟩ := good.provers promise found held
        rw [same] at vouched
        exact ⟨descriptor, named, vouched _ (visible_fulfilled held seen)⟩
      · cases equal
  · rename_i promise owns waits
    rw [waits] at phase
    obtain ⟨descriptor, found, named, held, same⟩ := phase
    split at resumed
    · cases resumed
    · cases resumed
      exact ended .error nofun
    · rename_i bytes seen
      cases resumed
      refine ended _ fun others equal => ?_
      split at equal
      · cases equal
        obtain ⟨own, checked⟩ := good.keys promise found held
        exact ⟨descriptor, named, found.input, own, same, checked _ (visible_fulfilled held seen)⟩
      · cases equal

/-- A prover is decoded from the bytes of its key, which have been checked. -/
theorem Good.decode (good : Good digest plain state) {promise : Nat}
    {found : Promise ProverInput Bytes} {next : State} {succeeds : Bool}
    (held : state.requestProvers.get promise = some found) (waiting : found.outcome = .pending)
    (decoded : state.decode promise found.input succeeds = some next) :
    Good digest plain next := by
  obtain ⟨kind, ⟨key, loaded, same⟩, _⟩ := good.provers promise found held
  have settles : ∀ outcome : Outcome Bytes, (∀ bytes, outcome = .fulfilled bytes →
      Vouched digest plain found.input.cacheKey bytes) →
      Good digest plain { state with
        requestProvers := state.requestProvers.settle promise outcome } := by
    intro outcome vouched
    refine good.withProvers (evolves_settle held waiting outcome)
      (good.proversSound.settle held waiting outcome)
      (good.proversLasting.settle held waiting outcome) ?_
    intro id other got
    rw [Cache.settle_eq held] at got
    by_cases own : promise = id
    · subst own
      cases (Cache.get_put_self held).symm.trans got
      exact ⟨kind, ⟨key, loaded, same⟩, vouched⟩
    · rw [Cache.get_put_ne own] at got
      exact good.provers id other got
  unfold State.decode at decoded
  split at decoded
  · cases decoded
  · cases decoded
    exact settles .rejected nofun
  · rename_i bytes seen
    cases decoded
    have settled := settles (if succeeds then .fulfilled bytes else .rejected) (by
      intro others equal
      split at equal
      · cases equal
        obtain ⟨own, checked⟩ := good.keys _ key loaded
        exact ⟨key.input, own, same, checked _ (visible_fulfilled loaded seen)⟩
      · cases equal)
    exact settled.withKeys (evolves_drop _ _) (settled.keysSound.drop _) settled.keys

/-- Every step keeps the invariant, if new messages name descriptors of the kind. -/
theorem Good.step (good : Good digest plain state) {event : Event} {next : State}
    (kind : ∀ id operation descriptor, event = .message id operation →
      operation.provingKey = some descriptor → plain descriptor)
    (stepped : step digest state event = some next) : Good digest plain next := by
  cases event with
  | message id operation =>
      cases stepped
      refine ⟨good.keysSound, good.proversSound, good.proversLasting, good.keys, good.provers, ?_⟩
      intro call member
      rcases List.mem_append.mp member with old | new
      · exact good.calls call old
      · cases List.mem_singleton.mp new
        exact ⟨fun descriptor named => kind id operation descriptor rfl named, trivial⟩
  | initialized succeeds =>
      simp only [Worker.step] at stepped
      split at stepped
      · cases stepped
        exact ⟨good.keysSound, good.proversSound, good.proversLasting, good.keys, good.provers,
          good.calls⟩
      · cases stepped
  | downloaded promise answer =>
      simp only [Worker.step] at stepped
      split at stepped
      · rename_i found held
        split at stepped
        · rename_i waiting
          cases stepped
          refine good.withKeys (evolves_settle held waiting _)
            (good.keysSound.settle held waiting _) ?_
          intro id other got
          rw [Cache.settle_eq held] at got
          by_cases own : promise = id
          · subst own
            cases (Cache.get_put_self held).symm.trans got
            refine ⟨(good.keys promise found held).1, fun bytes same => ?_⟩
            exact intact_of_downloaded same
          · rw [Cache.get_put_ne own] at got
            exact good.keys id other got
        · cases stepped
      · cases stepped
  | keyHandled promise =>
      simp only [Worker.step] at stepped
      split at stepped
      · rename_i found held
        split at stepped
        · rename_i settled
          cases stepped
          refine good.withKeys (evolves_handle held) (good.keysSound.handle held settled.1) ?_
          intro id other got
          obtain ⟨old, was, input, outcome⟩ := get_of_handle held got
          obtain ⟨own, checked⟩ := good.keys id old was
          rw [input, outcome]
          exact ⟨own, checked⟩
        · cases stepped
      · cases stepped
  | decoded promise succeeds =>
      simp only [Worker.step] at stepped
      split at stepped
      · rename_i found held
        split at stepped
        · rename_i waiting
          exact good.decode held waiting stepped
        · cases stepped
      · cases stepped
  | proverHandled promise =>
      simp only [Worker.step] at stepped
      split at stepped
      · rename_i found held
        split at stepped
        · rename_i settled
          cases stepped
          refine good.withProvers (evolves_handle held)
            (good.proversSound.handle held settled.1) (good.proversLasting.handle held) ?_
          intro id other got
          obtain ⟨old, was, input, outcome⟩ := get_of_handle held got
          rw [input, outcome]
          exact good.provers id old was
        · cases stepped
      · cases stepped
  | resumed index succeeds =>
      simp only [Worker.step] at stepped
      split at stepped
      · rename_i call found
        exact good.resume (List.mem_of_getElem? found) stepped
      · cases stepped

end Invariant

section Runs

variable {digest : Bytes → String} {state : State}

/-- The hash of a key has no bar, which would make the end of the URL ambiguous. -/
def plainHash (descriptor : Descriptor) : Bool :=
  !(descriptor.sha256.getD "").toList.contains '|'

def plainMessage : Event → Bool
  | .message _ operation => operation.provingKey.all plainHash
  | _ => true

theorem cacheKey_injective {first second : Descriptor} (plain : plainHash first = true)
    (other : plainHash second = true) (same : cacheKey first = cacheKey second) :
    first.url = second.url ∧ first.sha256.getD "" = second.sha256.getD "" := by
  have letters := congrArg List.reverse (String.ofList_injective same)
  have back : ∀ descriptor : Descriptor, plainHash descriptor = true →
      ∀ rest : List Char, ((descriptor.sha256.getD "").toList.reverse ++ '|' :: rest).span
        (· ≠ '|') = ((descriptor.sha256.getD "").toList.reverse, '|' :: rest) := by
    intro descriptor plain rest
    have none : ∀ letter ∈ (descriptor.sha256.getD "").toList.reverse, letter ≠ '|' := by
      rintro letter member rfl
      simp [plainHash, List.mem_reverse.mp member] at plain
    rw [List.span_eq_takeWhile_dropWhile]
    congr 1
    · rw [List.takeWhile_append_of_pos (by simpa using none)]
      simp
    · rw [List.dropWhile_append_of_pos (by simpa using none)]
      simp
  simp only [List.reverse_append, List.reverse_cons, List.append_assoc, List.singleton_append]
    at letters
  have split := congrArg (List.span (· ≠ '|')) letters
  rw [back first plain, back second other, Prod.mk.injEq] at split
  have urls := List.reverse_injective (List.cons.inj split.2).2
  exact ⟨String.toList_injective urls, String.toList_injective (List.reverse_injective split.1)⟩

/-- Only the hash that is named counts. -/
theorem intact_eq (descriptor : Descriptor) (bytes : Bytes) : intact digest descriptor bytes =
    (descriptor.sha256.getD "" = "" || digest bytes = lowerCase (descriptor.sha256.getD "")) := by
  rw [intact]
  cases descriptor.sha256 <;> simp

theorem good_of_run {allowed : State → Event → Prop} (plain : Descriptor → Prop)
    (kind : ∀ state id operation descriptor, allowed state (.message id operation) →
      operation.provingKey = some descriptor → plain descriptor)
    (run : StepRun (step digest) allowed State.initial state) : Good digest plain state :=
  run.invariant (Good digest plain) good_initial fun state event next good legal stepped =>
    good.step (fun id operation descriptor same named => by
      subst same
      exact kind state id operation descriptor legal named) stepped

/-- Whatever the order of downloads, failures and messages, a message is answered only with a key
that has the hash which the message itself names. -/
theorem worker_keys_intact
    (run : StepRun (step digest) (fun _ event => plainMessage event = true) State.initial state) :
    ∀ call ∈ state.calls, ∀ bytes, call.phase = .replied (.result (some bytes)) →
      ∃ descriptor, call.operation.provingKey = some descriptor ∧
        intact digest descriptor bytes = true := by
  intro call member bytes replied
  have good := good_of_run (fun descriptor => plainHash descriptor = true)
    (fun _ _ operation descriptor plain named => by
      simpa [plainMessage, named] using plain) run
  obtain ⟨kind, phase⟩ := good.calls call member
  rw [replied] at phase
  obtain ⟨descriptor, named, other, plain, same, checked⟩ := phase
  obtain ⟨_, sha256⟩ := cacheKey_injective plain (kind descriptor named) same
  refine ⟨descriptor, named, ?_⟩
  rw [intact_eq, ← sha256, ← intact_eq]
  exact checked

def sampleKey : Descriptor where
  url := "/proving.key"
  sha256 := some "AB"

/-- A request and a withdrawal at the same time; the first download of each is refused. -/
def sampleEvents : List Event :=
  [.message 7 (.prepareRequest sampleKey), .message 8 (.prepareWithdrawal sampleKey),
    .initialized true, .resumed 0 true, .resumed 1 true, .downloaded 0 none, .keyHandled 0,
    .resumed 1 true, .decoded 0 true, .proverHandled 0, .resumed 0 true,
    .message 9 (.prepareRequest sampleKey), .resumed 2 true, .downloaded 1 (some [1]),
    .keyHandled 1, .decoded 1 true, .proverHandled 1, .resumed 2 true]

theorem worker_keys_intact_sample : ∃ state,
    StepRun (step fun _ => "ab") (fun _ event => plainMessage event = true) State.initial state ∧
    state.calls.map Call.phase =
      [.replied .error, .replied .error, .replied (.result (some [1]))] ∧
    ∀ call ∈ state.calls, ∀ bytes, call.phase = .replied (.result (some bytes)) →
      ∃ descriptor, call.operation.provingKey = some descriptor ∧
        intact (fun _ => "ab") descriptor bytes = true := by
  obtain ⟨state, run, phases⟩ := exists_stepRun (step fun _ => "ab")
    (fun _ event => plainMessage event) State.initial sampleEvents
    (fun state => state.calls.map Call.phase =
      [.replied .error, .replied .error, .replied (.result (some [1]))]) (by decide)
  exact ⟨state, run, of_decide_eq_true phases, worker_keys_intact run⟩

/-- A failure does not poison a cache.  While a rejected promise is in it, the call that made the
promise has yet to go on; it can, and then the key is free for a new attempt. -/
theorem worker_caches_recover
    (run : StepRun (step digest) (fun _ _ => True) State.initial state) :
    (∀ key id promise, state.provingKeys.entry key = some id →
      state.provingKeys.get id = some promise → promise.outcome = .rejected →
      ∃ next, step digest state (.keyHandled id) = some next ∧
        next.provingKeys.entry key = none) ∧
    ∀ key id promise, state.requestProvers.entry key = some id →
      state.requestProvers.get id = some promise → promise.outcome = .rejected →
      ∃ next, step digest state (.proverHandled id) = some next ∧
        next.requestProvers.entry key = none := by
  have good := good_of_run (fun _ => True) (fun _ _ _ _ _ _ => trivial) run
  constructor
  · intro key id promise held found rejected
    obtain ⟨entered, got, same, fresh⟩ := good.keysSound.entry key id held
    cases found.symm.trans got
    refine ⟨{ state with provingKeys := state.provingKeys.handle cacheKey id }, ?_, ?_⟩
    · simp [step, found, rejected, fresh rejected]
    · exact entry_handle found rejected same held
  · intro key id promise held found rejected
    obtain ⟨entered, got, same, fresh⟩ := good.proversSound.entry key id held
    cases found.symm.trans got
    refine ⟨{ state with
      requestProvers := state.requestProvers.handle ProverInput.cacheKey id }, ?_, ?_⟩
    · simp [step, found, rejected, fresh rejected]
    · exact entry_handle found rejected same held

theorem worker_caches_recover_sample : ∃ state,
    StepRun (step fun _ => "ab") (fun _ _ => True) State.initial state ∧
    (state.provingKeys.entry (cacheKey sampleKey) = some 0 ∧
      (state.provingKeys.get 0).map Promise.outcome = some .rejected) ∧
    ((∀ key id promise, state.provingKeys.entry key = some id →
      state.provingKeys.get id = some promise → promise.outcome = .rejected →
      ∃ next, step (fun _ => "ab") state (.keyHandled id) = some next ∧
        next.provingKeys.entry key = none) ∧
    ∀ key id promise, state.requestProvers.entry key = some id →
      state.requestProvers.get id = some promise → promise.outcome = .rejected →
      ∃ next, step (fun _ => "ab") state (.proverHandled id) = some next ∧
        next.requestProvers.entry key = none) := by
  obtain ⟨state, run, shown⟩ := exists_stepRun (step fun _ => "ab") (fun _ _ => true)
    State.initial (sampleEvents.take 6)
    (fun state => state.provingKeys.entry (cacheKey sampleKey) = some 0 ∧
      (state.provingKeys.get 0).map Promise.outcome = some .rejected) (by decide)
  have run := run.mono fun _ _ _ => trivial
  exact ⟨state, run, of_decide_eq_true shown, worker_caches_recover run⟩

/-- At no time are there two provers for one key, decoded or on the way. -/
theorem worker_prover_unique
    (run : StepRun (step digest) (fun _ _ => True) State.initial state) :
    ∀ first second one other, state.requestProvers.get first = some one →
      state.requestProvers.get second = some other →
      one.input.cacheKey = other.input.cacheKey → one.outcome ≠ .rejected →
      other.outcome ≠ .rejected → first = second := by
  intro first second one other found also same alive living
  have good := good_of_run (fun _ => True) (fun _ _ _ _ _ _ => trivial) run
  exact good.proversLasting.unique found also same alive living

theorem worker_prover_unique_sample : ∃ state,
    StepRun (step fun _ => "ab") (fun _ _ => True) State.initial state ∧
    state.requestProvers.promises.map Promise.outcome = [.rejected, .fulfilled [1]] ∧
    ∀ first second one other, state.requestProvers.get first = some one →
      state.requestProvers.get second = some other →
      one.input.cacheKey = other.input.cacheKey → one.outcome ≠ .rejected →
      other.outcome ≠ .rejected → first = second := by
  obtain ⟨state, run, shown⟩ := exists_stepRun (step fun _ => "ab") (fun _ _ => true)
    State.initial sampleEvents
    (fun state => state.requestProvers.promises.map Promise.outcome =
      [.rejected, .fulfilled [1]]) (by decide)
  have run := run.mono fun _ _ _ => trivial
  exact ⟨state, run, of_decide_eq_true shown, worker_prover_unique run⟩

end Runs

end ZkApi.Browser.Worker
