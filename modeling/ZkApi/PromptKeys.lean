import ZkApi.KeyDiscipline
import ZkApi.ReferenceWallet
import ZkApi.TraceEvidence

/-!
# Whose keys prompts are posted with

Every lease in the slot hands out a key that the server has issued for the
session of the lease.  So does every lease that a task posts a prompt with, and
its session is the caller's.
-/

namespace ZkApi.Clientd

open Interleaving MachineIntegers

variable {W : WalletFunctions} {config : AuthConfig} {trace later : List (Event (daemon W))}
  {world after : World} {task : Nat}

section Issued

/-- Some task has had the key verified. -/
def VerifiedKey (config : AuthConfig) (trace : List (Event (daemon W))) (apiKey : String) : Prop :=
  ∃ task evidence reply,
    .performed task (.submitKey (submitKeyUrl config) apiKey evidence) reply ∈ trace ∧
      VerifierReply.accepts reply = true

/-- The server has issued this to a task of the session. -/
def IssuedTo (trace : List (Event (daemon W))) (sessionId : String)
    (issued : IssuedOpenRouterLease) : Prop :=
  ∃ task call request, .started task call ∈ trace ∧ Call.session call = some sessionId ∧
    .performed task (.postLease request) (.success issued) ∈ trace

/-- The lease is what the daemon has made of a lease issued for its session, verified
since then if it says so. -/
def LeaseBacked (config : AuthConfig) (trace : List (Event (daemon W)))
    (lease : ActiveOpenRouterLease) : Prop :=
  ∃ issued now accepted, IssuedTo trace lease.sessionId issued ∧
    acceptLease config lease.sessionId now issued = .ok accepted ∧ lease.SameKey accepted ∧
    (lease.verified = true → accepted.verified = true ∨ VerifiedKey config trace lease.apiKey)

theorem VerifiedKey.mono {apiKey : String} (verified : VerifiedKey config trace apiKey)
    (more : trace ⊆ later) : VerifiedKey config later apiKey := by
  obtain ⟨task, evidence, reply, member, accepts⟩ := verified
  exact ⟨task, evidence, reply, more member, accepts⟩

theorem IssuedTo.mono {sessionId : String} {issued : IssuedOpenRouterLease}
    (issuedTo : IssuedTo trace sessionId issued) (more : trace ⊆ later) :
    IssuedTo later sessionId issued := by
  obtain ⟨task, call, request, started, session, answered⟩ := issuedTo
  exact ⟨task, call, request, more started, session, more answered⟩

theorem LeaseBacked.mono {lease : ActiveOpenRouterLease} (backed : LeaseBacked config trace lease)
    (more : trace ⊆ later) : LeaseBacked config later lease := by
  obtain ⟨issued, now, accepted, issuedTo, accepts, same, verified⟩ := backed
  exact ⟨issued, now, accepted, issuedTo.mono more, accepts, same,
    fun claims => (verified claims).imp id fun key => key.mono more⟩

/-- Every lease in the slot is backed, and so was every one that a task has found
there. -/
structure SlotBacked (world : World) (trace : List (Event (daemon W))) : Prop where
  slot : ∀ lease, world.slot = some lease → LeaseBacked world.config trace lease
  found : ∀ task lease, .performed task .lockSlot (some lease) ∈ trace →
    LeaseBacked world.config trace lease

theorem verifiedKey_of_accepted {apiKey : String}
    (accepted : KeyAccepted config (historyOf task trace) apiKey) :
    VerifiedKey config trace apiKey := by
  obtain ⟨evidence, reply, seen, accepts⟩ := accepted
  exact ⟨task, evidence, reply, saw_historyOf_iff.mp seen, accepts⟩

/-- What a task knows of a lease is backed. -/
theorem KnownLease.backed {call : Call} {lease : ActiveOpenRouterLease}
    (backed : SlotBacked world trace) (started : .started task call ∈ trace)
    (known : KnownLease world.config call (historyOf task trace) lease) :
    LeaseBacked world.config trace lease := by
  obtain ⟨received, origin, same, verified⟩ := known
  have claims : lease.verified = true → received.verified = true ∨
      VerifiedKey world.config trace lease.apiKey :=
    fun claimed => (verified claimed).imp id verifiedKey_of_accepted
  cases origin with
  | slot seen =>
      obtain ⟨issued, now, accepted, issuedTo, accepts, sameKey, before⟩ :=
        backed.found task received (saw_historyOf_iff.mp seen)
      refine ⟨issued, now, accepted, same.session ▸ issuedTo, same.session ▸ accepts,
        ⟨same.session.trans sameKey.session, same.key.trans sameKey.key,
          same.base.trans sameKey.base, same.expiry.trans sameKey.expiry⟩, fun claimed => ?_⟩
      rcases claims claimed with earlier | key
      · rw [same.key]
        exact before earlier
      · exact Or.inr key
  | @issued request issued now sessionId answered session accepted =>
      have own : lease.sessionId = sessionId :=
        same.session.trans (acceptLease_eq_ok accepted).session
      exact ⟨issued, now, received,
        ⟨task, call, request, started, own ▸ session, saw_historyOf_iff.mp answered⟩,
        own ▸ accepted, same, claims⟩

/-- Only setting it puts a lease into the slot. -/
theorem execute_slot {op : Op} {answer : Answer} {response : Resp op}
    (executed : execute W task op answer world = some (response, after))
    {lease : ActiveOpenRouterLease} (holds : after.slot = some lease) :
    world.slot = some lease ∨ op = .setSlot (some lease) := by
  rcases op.kinds with locked | wallet | chain | remote
  · have executed := execute_of_isLocked locked executed
    cases op with
    | setSlot slot =>
        obtain ⟨_, same⟩ := Option.ite_none_right_eq_some.mp executed
        cases Option.some.inj same
        cases holds
        exact Or.inr rfl
    | takeSlot | clearSlot =>
        obtain ⟨_, same⟩ := Option.ite_none_right_eq_some.mp executed
        cases Option.some.inj same
        cases holds
    | dropSlot clientRequestId =>
        obtain ⟨_, same⟩ := Option.ite_none_right_eq_some.mp executed
        cases Option.some.inj same
        exact Or.inl (Option.filter_eq_some_iff.mp holds).1
    | _ =>
        refine Or.inl (Eq.trans ?_ holds)
        first
          | (cases executed <;> rfl)
          | (obtain ⟨_, same⟩ := Option.ite_none_right_eq_some.mp executed
             cases Option.some.inj same
             rfl)
          | (simp only [executeLocked] at executed
             split at executed <;> cases executed <;> rfl)
  · rw [execute_wallet_shape wallet executed] at holds
    exact Or.inl holds
  · rcases execute_chain_shape chain executed with same | ⟨_, vault, _, same⟩ <;>
      rw [same] at holds <;> exact Or.inl holds
  · rw [execute_of_isRemote remote executed] at holds
    exact Or.inl holds

theorem SlotBacked.other {event : Event (daemon W)} (backed : SlotBacked world trace)
    (config : after.config = world.config) (slot : after.slot = world.slot ∨ after.slot = none)
    (unlocked : ∀ task lease, event ≠ .performed task .lockSlot (some lease)) :
    SlotBacked after (event :: trace) where
  slot lease holds := by
    rw [config]
    rcases slot with same | gone
    · exact (backed.slot lease (same ▸ holds)).mono (List.subset_cons_self _ _)
    · rw [gone] at holds
      cases holds
  found task lease member := by
    rw [config]
    have earlier := (List.mem_cons.mp member).resolve_left (unlocked task lease).symm
    exact (backed.found task lease earlier).mono (List.subset_cons_self _ _)

theorem slotBacked_preserved (W : WalletFunctions) :
    (keyDiscipline W).Inductive (SlotBacked (W := W)) where
  started task call _ _ backed := backed.other rfl (Or.inl rfl) (by simp)
  performed := by
    intro world trace task call op answer response after _ started allowed executed _ backed
    have executed : execute W task op answer world = some (response, after) := executed
    have more : trace ⊆ .performed task op response :: trace := List.subset_cons_self _ _
    have same := execute_config executed
    constructor
    · intro lease holds
      rw [same]
      rcases execute_slot executed holds with already | sets
      · exact (backed.slot lease already).mono more
      · subst sets
        have known : KnownLease world.config call (historyOf task trace) lease := allowed
        exact (known.backed backed started).mono more
    · intro other lease member
      rw [same]
      rcases List.mem_cons.mp member with new | earlier
      · cases new
        obtain ⟨_, shown⟩ := Option.ite_none_right_eq_some.mp (execute_of_isLocked rfl executed)
        have held : world.slot = some lease := congrArg Prod.fst (Option.some.inj shown)
        exact (backed.slot lease held).mono more
      · exact (backed.found other lease earlier).mono more
  returned _ _ _ _ _ backed := backed.other rfl (Or.inl rfl) (by simp)
  aborted _ _ backed := backed.other rfl (Or.inl rfl) (by simp)
  moved moved _ backed := by
    refine backed.other (move_config moved) (Or.inl ?_) (by simp)
    rcases move_shape moved with ⟨_, rfl⟩ | ⟨_, _, _, rfl⟩ <;> rfl
  restarted := by
    intro world trace change after restarted _ backed
    cases Option.some.inj restarted
    exact backed.other rfl (Or.inr rfl) (by simp)

end Issued

section Posts

/-- A prompt is posted under the inference base, with a key that was issued for the
session of the caller, from a source that is allowed, verified if it must be, and not
within one second of its expiry when the task last looked at the clock. -/
structure PostedWith (config : AuthConfig) (task : Nat) (earlier : List (Event (daemon W)))
    (url apiKey : String) (issued : IssuedOpenRouterLease) : Prop where
  place : url = trimEndSlashes config.openrouterInferenceBase ++ "/chat/completions"
  key : apiKey = issued.lease.apiKey
  session : ∃ call sessionId, .started task call ∈ earlier ∧ Call.session call = some sessionId ∧
    IssuedTo earlier sessionId issued
  required : config.requireOaOrgKeySource = true → issued.keySource = "oa_org"
  verified : issued.keySource = "oa_org" → VerifiedKey config earlier apiKey
  timely : Timely (lastReading (historyOf task earlier)) issued.lease.expiresAt

def StepPosted (config : AuthConfig) : Event (daemon W) → List (Event (daemon W)) → Prop
  | .performed task (.postPrompt url apiKey _) _, earlier =>
      ∃ issued, PostedWith config task earlier url apiKey issued
  | _, _ => True

/-- The reading of the clock that an event is. -/
def readingOf : Event (daemon W) → Option (Nat × UInt64)
  | .performed task .now now => some (task, now)
  | _ => none

/-- The lease that the task has been issued in its last step. -/
def justIssued : History Resp → Option IssuedOpenRouterLease
  | ⟨.postLease _, .success issued⟩ :: _ => some issued
  | _ => none

/-- No lease is accepted in its last second. -/
def StepLasts (config : AuthConfig) (event : Event (daemon W))
    (earlier : List (Event (daemon W))) : Prop :=
  ∀ reading ∈ readingOf event, ∀ issued ∈ justIssued (historyOf reading.1 earlier),
    ¬ ShortLived config reading.2 issued

instance (config : AuthConfig) (now : UInt64) (issued : IssuedOpenRouterLease) :
    Decidable (ShortLived config now issued) :=
  decidable_of_iff (config.requireOaOrgKeySource = false ∧ issued.keySource = "openrouter" ∧
      issued.verification = none ∧ issued.lease.apiKey.isEmpty = false ∧
      matchesTrustedUrl issued.lease.openrouterApiBase config.openrouterInferenceBase = true ∧
      now < issued.lease.expiresAt ∧ issued.lease.expiresAt ≤ saturatingAdd now 1)
    ⟨fun all => ⟨all.1, all.2.1, all.2.2.1, all.2.2.2.1, all.2.2.2.2.1, all.2.2.2.2.2.1,
        all.2.2.2.2.2.2⟩,
      fun short => ⟨short.unrequired, short.source, short.unverified, short.usable, short.trusted,
        short.unexpired, short.short⟩⟩

instance (config : AuthConfig) (event : Event (daemon W)) (earlier : List (Event (daemon W))) :
    Decidable (StepLasts config event earlier) :=
  inferInstanceAs (Decidable (∀ reading ∈ readingOf event,
    ∀ issued ∈ justIssued (historyOf reading.1 earlier), ¬ ShortLived config reading.2 issued))

/-- A step of a task is in the trace where it is in the history of the task. -/
theorem performed_of_historyOf {op : Op} {response : Resp op} {rest : History Resp}
    (suffix : (⟨op, response⟩ :: rest : History Resp) <:+ historyOf task trace) :
    ∃ earlier, .performed task op response :: earlier <:+ trace ∧
      historyOf task earlier = rest := by
  induction trace with
  | nil => cases List.suffix_nil.mp suffix
  | cons event trace ih =>
      have goesOn (within : (⟨op, response⟩ :: rest : History Resp) <:+ historyOf task trace) :
          ∃ earlier, .performed task op response :: earlier <:+ event :: trace ∧
            historyOf task earlier = rest := by
        obtain ⟨earlier, found, same⟩ := ih within
        exact ⟨earlier, found.trans (List.suffix_cons _ _), same⟩
      cases event with
      | performed other otherOp otherResponse =>
          by_cases own : other = task
          · subst own
            rw [historyOf, if_pos rfl] at suffix
            rcases List.suffix_cons_iff.mp suffix with new | within
            · cases new
              exact ⟨trace, List.suffix_refl _, rfl⟩
            · exact goesOn within
          · rw [historyOf, if_neg own] at suffix
            exact goesOn suffix
      | _ => exact goesOn suffix

theorem not_gotShort (lasts : Throughout (StepLasts config) trace) :
    ¬ GotShort config (historyOf task trace) := by
  rintro ⟨request, issued, now, rest, suffix, short⟩
  obtain ⟨earlier, found, same⟩ := performed_of_historyOf suffix
  have step := (lasts.of_suffix found).2
  refine step (task, now) rfl issued ?_ short
  rw [same]
  rfl

/-- A prompt that may be posted is posted as it should be. -/
theorem PostReady.posted {call : Call} {url apiKey : String} {expiresAt : UInt64}
    (backed : SlotBacked world trace)
    (started : .started task call ∈ trace)
    (ready : PostReady world.config call (historyOf task trace) url apiKey expiresAt)
    (lasts : Throughout (StepLasts world.config) trace) :
    ∃ issued, PostedWith world.config task trace url apiKey issued := by
  obtain ⟨lease, known, verified, session, place, key, sameExpiry, timely⟩ := ready
  obtain ⟨issued, now, accepted, issuedTo, accepts, same, source⟩ := known.backed backed started
  have acceptance := acceptLease_eq_ok accepts
  have expiry := sameExpiry.trans (same.expiry.trans acceptance.expiry)
  refine ⟨issued, ?_, key.trans (same.key.trans acceptance.key),
    ⟨call, lease.sessionId, started, session, issuedTo⟩, fun required => ?_, fun oaOrg => ?_, ?_⟩
  · have trusted := acceptance.trusted
    simp only [matchesTrustedUrl, Bool.and_eq_true, beq_iff_eq] at trusted
    rw [place, same.base.trans acceptance.base, trusted.2]
  · rcases acceptance.source with ⟨_, unrequired, _⟩ | ⟨oaOrg, _⟩
    · rw [unrequired] at required
      cases required
    · exact oaOrg
  · rw [key]
    rcases source verified with earlier | verifies
    · rcases acceptance.source with ⟨direct, _⟩ | ⟨_, unverified⟩
      · rw [direct] at oaOrg
        exact absurd oaOrg (by decide)
      · rw [unverified] at earlier
        cases earlier
    · exact verifies
  · rw [← expiry]
    exact timely.resolve_left (not_gotShort lasts)

/-- The prompts of the run were posted as they should be, if no lease was accepted in
its last second. -/
def PromptsPosted (world : World) (trace : List (Event (daemon W))) : Prop :=
  Throughout (StepLasts world.config) trace → Throughout (StepPosted world.config) trace

theorem promptsPosted_preserved (W : WalletFunctions) :
    (keyDiscipline W).Preserved (SlotBacked (W := W)) PromptsPosted where
  started _ _ _ _ held lasts := ⟨held lasts.1, trivial⟩
  performed := by
    intro world trace task call op answer response after _ started allowed executed backed held
      lasts
    rw [execute_config executed] at lasts ⊢
    refine ⟨held lasts.1, ?_⟩
    cases op with
    | postPrompt url apiKey body =>
        obtain ⟨expiresAt, ready⟩ := allowed
        exact PostReady.posted backed started ready lasts.1
    | _ => trivial
  returned _ _ _ _ _ held lasts := ⟨held lasts.1, trivial⟩
  aborted _ _ held lasts := ⟨held lasts.1, trivial⟩
  moved := by
    intro world trace change after moved _ held lasts
    rw [move_config moved] at lasts ⊢
    exact ⟨held lasts.1, trivial⟩
  restarted := by
    intro world trace change after restarted _ held lasts
    cases Option.some.inj restarted
    exact ⟨held lasts.1, trivial⟩

end Posts

section Runs

variable {files : StateDir} {now : UInt64} {vault : Vault} {last : State (daemon W)}

theorem configKept_preserved (W : WalletFunctions) (config : AuthConfig) :
    (keyDiscipline W).Inductive fun world _ => world.config = config where
  started _ _ _ _ kept := kept
  performed _ _ _ executed _ kept := (execute_config executed).trans kept
  returned _ _ _ _ _ kept := kept
  aborted _ _ kept := kept
  moved moved _ kept := (move_config moved).trans kept
  restarted := by
    intro world trace change after restarted _ kept
    cases Option.some.inj restarted
    exact kept

/-- In every run in which no lease is accepted in its last second, every prompt is
posted as it should be, and the slot holds one lease at most. -/
theorem prompts_posted
    (run : (State.initial (daemon W) (World.started config files now vault)).Reaches last)
    (lasts : Throughout (StepLasts config) last.trace) :
    Throughout (StepPosted config) last.trace ∧ last.world.slot.toList.length ≤ 1 := by
  have initially : SlotBacked (W := W) (World.started config files now vault) [] ∧
      PromptsPosted (W := W) (World.started config files now vault) [] :=
    ⟨⟨by simp [World.started], by simp⟩, fun _ => trivial⟩
  have posted := (((slotBacked_preserved W).and (promptsPosted_preserved W)).holds initially run).2
  have kept := (configKept_preserved W config).holds rfl run
  rw [PromptsPosted, kept] at posted
  refine ⟨posted lasts, ?_⟩
  cases last.world.slot <;> simp

/-- A request that is posted with a key of the inference endpoint itself. -/
def postedOnce (expiresAt : UInt64) : List (Action (daemon Reference.wallet)) :=
  .start (.executeRequest Reference.request (some "s")) ::
    Reference.advances 0 (Reference.opening ++
      Reference.issuing (Reference.leaseRequest "r1" ⟨100⟩)
        (Reference.issued "r1" "k1" expiresAt) ++
      Reference.rejecting "k1")

theorem prompts_posted_once :
    ∃ last, (State.initial (daemon Reference.wallet)
        (Reference.started .directOpenrouter)).Reaches last ∧
      .performed 0 (.postPrompt "https://o/chat/completions" "k1" "hello")
        (.failure 401 none "") ∈ last.trace ∧
      Throughout (StepLasts (Reference.config .directOpenrouter)) last.trace ∧
      Throughout (StepPosted (Reference.config .directOpenrouter)) last.trace ∧
      last.world.slot.toList.length ≤ 1 := by
  have reached : ∃ state, (State.initial (daemon Reference.wallet)
      (Reference.started .directOpenrouter)).Reaches state ∧
        .performed 0 (.postPrompt "https://o/chat/completions" "k1" "hello")
          (.failure 401 none "") ∈ state.trace ∧
        Throughout (StepLasts (Reference.config .directOpenrouter)) state.trace :=
    State.reaches_of_decide (postedOnce 100) (by decide)
  obtain ⟨state, run, posted, lasts⟩ := reached
  exact ⟨state, run, posted, lasts, prompts_posted run lasts⟩

/-- The lease that an event has brought. -/
def leaseOf : Event (daemon W) → Option IssuedOpenRouterLease
  | .performed _ (.postLease _) (.success issued) => some issued
  | _ => none

/-- The clock shows the last second of the key when its lease is accepted, and the
prompt is posted all the same. -/
theorem prompt_posted_in_last_second :
    ∃ last, (State.initial (daemon Reference.wallet)
        (Reference.started .directOpenrouter)).Reaches last ∧
      .performed 0 (.postPrompt "https://o/chat/completions" "k1" "hello")
        (.failure 401 none "") ∈ last.trace ∧
      ¬ Throughout (StepPosted (Reference.config .directOpenrouter)) last.trace := by
  have reached : ∃ state, (State.initial (daemon Reference.wallet)
      (Reference.started .directOpenrouter)).Reaches state ∧
        state.trace.head? = some (.performed 0
          (.postPrompt "https://o/chat/completions" "k1" "hello") (.failure 401 none "")) ∧
        lastReading (historyOf 0 state.trace.tail) = some 10 ∧
        ∀ event ∈ state.trace.tail, ∀ issued ∈ leaseOf event, issued.lease.expiresAt = 11 :=
    State.reaches_of_decide (postedOnce 11) (by decide)
  obtain ⟨state, run, isHead, shown, expiries⟩ := reached
  have split := List.cons_head?_tail isHead
  refine ⟨state, run, ?_, fun posted => ?_⟩
  · rw [← split]
    exact List.mem_cons_self
  · rw [← split] at posted
    obtain ⟨issued, postedWith⟩ := posted.2
    obtain ⟨call, sessionId, _, _, issuer, _, request, _, _, answered⟩ := postedWith.session
    obtain ⟨now, admitted, early⟩ := postedWith.timely
    rw [expiries _ answered issued rfl] at early
    rw [shown] at admitted
    cases admitted
    exact absurd early (by decide)

end Runs

end ZkApi.Clientd
