import ZkApi.GuardDiscipline

/-!
# The discipline of runtime keys

A task posts prompts only with a key that it has received for its own session,
from the slot or from the server, and puts only such leases into the slot.
-/

namespace ZkApi.Clientd

open Interleaving Program MachineIntegers

/-- The session whose prompts a call posts. -/
def Call.session : Call → Option String
  | .executeRequest _ sessionId | .executeStreamingRequest _ sessionId =>
      (normalizeSessionId sessionId).toOption
  | _ => none

/-- The verifier says that the key is verified. -/
def VerifierReply.accepts : VerifierReply → Bool
  | .json status _ verdict _ _ => 200 ≤ status && status < 300 && verdict == some "verified"
  | _ => false

/-- The two leases hand out one key to one session. -/
structure ActiveOpenRouterLease.SameKey (lease other : ActiveOpenRouterLease) : Prop where
  session : lease.sessionId = other.sessionId
  key : lease.apiKey = other.apiKey
  base : lease.openrouterApiBase = other.openrouterApiBase
  expiry : lease.expiresAt = other.expiresAt

theorem ActiveOpenRouterLease.SameKey.refl (lease : ActiveOpenRouterLease) :
    lease.SameKey lease :=
  ⟨rfl, rfl, rfl, rfl⟩

/-- What the daemon makes of an issued lease that it accepts. -/
structure Acceptance (config : AuthConfig) (sessionId : String) (now : UInt64)
    (issued : IssuedOpenRouterLease) (lease : ActiveOpenRouterLease) : Prop where
  session : lease.sessionId = sessionId
  key : lease.apiKey = issued.lease.apiKey
  base : lease.openrouterApiBase = issued.lease.openrouterApiBase
  expiry : lease.expiresAt = issued.lease.expiresAt
  usable : issued.lease.apiKey.isEmpty = false
  unexpired : now < issued.lease.expiresAt
  trusted : matchesTrustedUrl issued.lease.openrouterApiBase config.openrouterInferenceBase = true
  source : issued.keySource = "openrouter" ∧ config.requireOaOrgKeySource = false ∧
      issued.verification = none ∨
    issued.keySource = "oa_org" ∧ lease.verified = false

theorem acceptLease_eq_ok {config : AuthConfig} {sessionId : String} {now : UInt64}
    {issued : IssuedOpenRouterLease} {lease : ActiveOpenRouterLease}
    (accepted : acceptLease config sessionId now issued = .ok lease) :
    Acceptance config sessionId now issued lease := by
  unfold acceptLease at accepted
  dsimp only at accepted
  split at accepted
  · cases accepted
  rename_i accepts
  simp only [Bool.or_eq_true, decide_eq_true_eq, not_or, Bool.not_eq_true] at accepts
  have unexpired : now < issued.lease.expiresAt := UInt64.not_le.mp accepts.2
  split at accepted
  · cases accepted
  rename_i trusted
  have trusted : matchesTrustedUrl issued.lease.openrouterApiBase
      config.openrouterInferenceBase = true := by
    simpa using trusted
  split at accepted
  · rename_i source
    cases required : config.requireOaOrgKeySource with
    | true =>
        simp [enforceRequiredKeySource, required] at accepted
        cases accepted
    | false =>
        simp only [enforceRequiredKeySource, required, Bool.false_and, Bool.false_eq_true,
          if_false] at accepted
        change (if _ then _ else _) = _ at accepted
        split at accepted
        · cases accepted
        · rename_i unverifiable
          cases accepted
          have nothing : issued.verification = none := by simpa using unverifiable
          exact ⟨rfl, rfl, rfl, rfl, accepts.1, unexpired, trusted,
            Or.inl ⟨source, required, nothing⟩⟩
  · split at accepted
    · rename_i source
      split at accepted
      · cases accepted
      · cases accepted
        exact ⟨rfl, rfl, rfl, rfl, accepts.1, unexpired, trusted, Or.inr ⟨source, rfl⟩⟩
    · cases accepted

section Knowledge

variable (config : AuthConfig) (call : Call) (history : History Resp)

/-- The task has had the key verified. -/
def KeyAccepted (apiKey : String) : Prop :=
  ∃ evidence reply, Saw history (.submitKey (submitKeyUrl config) apiKey evidence) reply ∧
    reply.accepts = true

/-- The task has found the lease in the slot, or it was issued for its session. -/
inductive ReceivedLease (lease : ActiveOpenRouterLease) : Prop where
  | slot (seen : Saw history .lockSlot (some lease))
  | issued {request : ApiRequestV2} {issued : IssuedOpenRouterLease} {now : UInt64}
      {sessionId : String} (answered : Saw history (.postLease request) (.success issued))
      (session : call.session = some sessionId)
      (accepted : acceptLease config sessionId now issued = .ok lease)

/-- The lease hands out a key that the task has received, and has had verified
if it says so and did not say so before. -/
def KnownLease (lease : ActiveOpenRouterLease) : Prop :=
  ∃ received, ReceivedLease config call history received ∧ lease.SameKey received ∧
    (lease.verified = true → received.verified = true ∨ KeyAccepted config history lease.apiKey)

/-- What the clock has last shown to the task. -/
def lastReading : History Resp → Option UInt64
  | [] => none
  | ⟨.now, now⟩ :: _ => some now
  | _ :: history => lastReading history

/-- The reading is not within one second of the expiry. -/
def Timely (reading : Option UInt64) (expiresAt : UInt64) : Prop :=
  ∃ now, reading = some now ∧ saturatingAdd now 1 < expiresAt

/-- The daemon accepts a key of the inference endpoint itself, without the second to
go that every other lease must have. -/
structure ShortLived (now : UInt64) (issued : IssuedOpenRouterLease) : Prop where
  unrequired : config.requireOaOrgKeySource = false
  source : issued.keySource = "openrouter"
  unverified : issued.verification = none
  usable : issued.lease.apiKey.isEmpty = false
  trusted : matchesTrustedUrl issued.lease.openrouterApiBase config.openrouterInferenceBase = true
  unexpired : now < issued.lease.expiresAt
  short : issued.lease.expiresAt ≤ saturatingAdd now 1

/-- The task has received such a key. -/
def GotShort : Prop :=
  ∃ request issued now earlier, (⟨.now, now⟩ :: ⟨.postLease request, .success issued⟩ :: earlier :
    History Resp) <:+ history ∧ ShortLived config now issued

/-- The task may post this key, which expires at that time, to this place. -/
def PostReady (url apiKey : String) (expiresAt : UInt64) : Prop :=
  ∃ lease, KnownLease config call history lease ∧ lease.verified = true ∧
    call.session = some lease.sessionId ∧
    url = trimEndSlashes lease.openrouterApiBase ++ "/chat/completions" ∧
    apiKey = lease.apiKey ∧ expiresAt = lease.expiresAt ∧
    (GotShort config history ∨ Timely (lastReading history) expiresAt)

def KeyAllowed : Op → Prop
  | .setSlot (some lease) => KnownLease config call history lease
  | .postPrompt url apiKey _ => ∃ expiresAt, PostReady config call history url apiKey expiresAt
  | _ => True

/-- The task holds a lease of its own session, and has just looked at the clock
if the lease is verified. -/
structure HoldsLease (lease : ActiveOpenRouterLease) : Prop where
  known : KnownLease config call history lease
  session : call.session = some lease.sessionId
  timely : lease.verified = true →
    GotShort config history ∨ Timely (lastReading history) lease.expiresAt

end Knowledge

section Growth

variable {config : AuthConfig} {call : Call} {history later : History Resp}
  {lease : ActiveOpenRouterLease} {op : Op} {response : Resp op}

theorem KeyAccepted.mono {apiKey : String} (accepted : KeyAccepted config history apiKey)
    (grows : history <:+ later) : KeyAccepted config later apiKey := by
  obtain ⟨evidence, reply, seen, accepts⟩ := accepted
  exact ⟨evidence, reply, seen.mono grows, accepts⟩

theorem ReceivedLease.mono (received : ReceivedLease config call history lease)
    (grows : history <:+ later) : ReceivedLease config call later lease := by
  cases received with
  | slot seen => exact .slot (seen.mono grows)
  | issued answered session accepted => exact .issued (answered.mono grows) session accepted

theorem KnownLease.mono (known : KnownLease config call history lease) (grows : history <:+ later) :
    KnownLease config call later lease := by
  obtain ⟨received, origin, same, verified⟩ := known
  exact ⟨received, origin.mono grows, same,
    fun claims => (verified claims).imp id fun accepted => accepted.mono grows⟩

theorem GotShort.mono (short : GotShort config history) (grows : history <:+ later) :
    GotShort config later := by
  obtain ⟨request, issued, now, earlier, suffix, shortLived⟩ := short
  exact ⟨request, issued, now, earlier, suffix.trans grows, shortLived⟩

theorem lastReading_cons (other : op ≠ .now) :
    lastReading (⟨op, response⟩ :: history) = lastReading history := by
  cases op <;> first
    | rfl
    | exact absurd rfl other

theorem HoldsLease.cons (holds : HoldsLease config call history lease) (other : op ≠ .now) :
    HoldsLease config call (⟨op, response⟩ :: history) lease where
  known := holds.known.mono (List.suffix_cons _ _)
  session := holds.session
  timely verified := by
    rw [lastReading_cons other]
    exact (holds.timely verified).imp (fun short => short.mono (List.suffix_cons _ _)) id

theorem timely_of_retryFits {now expiresAt delay : UInt64}
    (fits : retryFitsLease now expiresAt delay = true) : Timely (some now) expiresAt := by
  refine ⟨now, rfl, ?_⟩
  have within := UInt64.lt_iff_toNat_lt.mp (of_decide_eq_true fits)
  rw [toNat_saturatingAdd, toNat_saturatingAdd] at within
  rw [UInt64.lt_iff_toNat_lt, toNat_saturatingAdd]
  omega

/-- A key that the time allows to be posted again may be. -/
theorem PostReady.again {url apiKey : String} {now expiresAt delay : UInt64}
    (ready : PostReady config call history url apiKey expiresAt) (grows : history <:+ later)
    (fits : retryFitsLease now expiresAt delay = true) :
    PostReady config call (⟨.now, now⟩ :: later) url apiKey expiresAt := by
  obtain ⟨lease, known, verified, session, place, key, expiry, _⟩ := ready
  exact ⟨lease, known.mono (grows.trans (List.suffix_cons _ _)), verified, session, place, key,
    expiry, Or.inr (timely_of_retryFits fits)⟩

/-- Counting a request does not change what is known about its lease. -/
theorem KnownLease.served (known : KnownLease config call history lease) :
    KnownLease config call history lease.served := by
  obtain ⟨received, origin, same, verified⟩ := known
  exact ⟨received, origin, ⟨same.session, same.key, same.base, same.expiry⟩, verified⟩

end Growth

/-- The steps that neither post a prompt nor put a lease into the slot. -/
def Op.isKeyless : Op → Bool
  | .setSlot (some _) | .postPrompt _ _ _ => false
  | _ => true

section Programs

variable {config : AuthConfig} {call : Call} {history : History Resp} {α β : Type}

abbrev KeyFollows (config : AuthConfig) (call : Call) (program : Handler α)
    (history : History Resp) (returns : History Resp → α → Prop) : Prop :=
  program.Follows (KeyAllowed config call) returns (fun _ _ => True) history

theorem key_keyless {program : Handler α} (only : program.Only Op.isKeyless) :
    KeyFollows config call program history fun _ _ => True := by
  apply only.follows (fun _ => True) trivial
  · intro reached op _ keyless
    refine ⟨?_, fun _ => trivial⟩
    cases op with
    | setSlot lease =>
        cases lease with
        | none => trivial
        | some lease => cases keyless
    | postPrompt url apiKey body => cases keyless
    | _ => trivial
  · exact fun _ _ _ => trivial
  · exact fun _ _ _ => trivial

theorem key_bind {program : Handler α} {next : α → Handler β}
    {returns : History Resp → β → Prop} (only : program.Only Op.isKeyless)
    (rest : ∀ reached value, history <:+ reached →
      KeyFollows config call (next value) reached returns) :
    KeyFollows config call (program >>= next) history returns := by
  rw [KeyFollows, follows_bind]
  exact (key_keyless only).weaken (fun reached value grows _ => rest reached value grows)
    fun _ _ _ _ => trivial

theorem key_of_follows {program : Handler α} {next : α → Handler β}
    {returns : History Resp → β → Prop} {middle : History Resp → α → Prop}
    (first : KeyFollows config call program history middle)
    (rest : ∀ reached value, history <:+ reached → middle reached value →
      KeyFollows config call (next value) reached returns) :
    KeyFollows config call (program >>= next) history returns := by
  rw [KeyFollows, follows_bind]
  exact first.weaken rest fun _ _ _ _ => trivial

theorem isKeyless_of_isRetiring (op : Op) (holds : op.isRetiring = true) :
    op.isKeyless = true := by
  cases op <;> first | rfl | cases holds

theorem isKeyless_of_isPlain (op : Op) (holds : op.isPlain = true) : op.isKeyless = true := by
  cases op <;> first | rfl | cases holds

theorem isKeyless_of_isSettling (op : Op) (holds : op.isSettling = true) :
    op.isKeyless = true := by
  cases op <;> first | rfl | cases holds

theorem isKeyless_of_isWithdrawing (op : Op) (holds : op.isWithdrawing = true) :
    op.isKeyless = true := by
  cases op <;> first | rfl | cases holds

section Issuance

variable {sessionId : String}

/-- The lease that the daemon makes of the answer it has just received. -/
theorem holds_accepted {request : ApiRequestV2} {issued : IssuedOpenRouterLease} {now : UInt64}
    {lease : ActiveOpenRouterLease} (own : call.session = some sessionId)
    (accepted : acceptLease config sessionId now issued = .ok lease) :
    HoldsLease config call
      (⟨.now, now⟩ :: ⟨.postLease request, .success issued⟩ :: history) lease := by
  have acceptance := acceptLease_eq_ok accepted
  have answered : Saw (⟨.now, now⟩ :: ⟨.postLease request, .success issued⟩ :: history :
      History Resp) (.postLease request) (.success issued) := by
    simp [Saw]
  refine ⟨⟨lease, .issued answered own accepted, .refl lease, Or.inl⟩, ?_, fun verified => ?_⟩
  · rw [acceptance.session]
    exact own
  · -- the answer is refused once the lease has expired, but not for want of the margin
    rcases acceptance.source with ⟨source, required, nothing⟩ | ⟨_, unverified⟩
    · by_cases timely : saturatingAdd now 1 < lease.expiresAt
      · exact Or.inr ⟨now, rfl, timely⟩
      · rw [acceptance.expiry, UInt64.not_lt] at timely
        exact Or.inl ⟨request, issued, now, history, List.suffix_refl _, required, source,
          nothing, acceptance.usable, acceptance.trusted, acceptance.unexpired, timely⟩
    · rw [unverified] at verified
      cases verified

theorem key_issueRound {onStale onLost : Option (Handler ActiveOpenRouterLease)}
    (own : call.session = some sessionId)
    (goesOn : ∀ program, onStale = some program ∨ onLost = some program → ∀ reached,
      KeyFollows config call program reached (HoldsLease config call)) :
    KeyFollows config call (issueRound config sessionId onStale onLost) history
      (HoldsLease config call) := by
  apply key_bind (only_prepare rfl)
  intro reached request _
  rw [KeyFollows, follows_call_bind]
  refine ⟨trivial, fun reply => ?_⟩
  cases reply with
  | unreachable message | malformed message | failed status body => trivial
  | success issued =>
      dsimp only
      rw [follows_call_bind]
      refine ⟨trivial, fun now => ?_⟩
      rw [follows_lift]
      exact ⟨fun lease accepted => holds_accepted own accepted, fun _ _ => trivial⟩
  | refused error =>
      dsimp only
      split
      · split
        · apply key_bind (only_clear rfl)
          intro reached _ _
          exact goesOn _ (Or.inl rfl) _
        · trivial
      · split
        · have fetches : (fetchDirectLeaseStatus request.clientRequestId).Only Op.isKeyless :=
            (only_call rfl).bind fun reply => only_getOk reply
          apply key_bind fetches
          intro reached lease _
          split
          · trivial
          · split
            · apply key_bind ((only_retire _).mono isKeyless_of_isRetiring)
              intro reached _ _
              exact goesOn _ (Or.inr rfl) _
            · split
              · apply key_bind (only_recover rfl)
                intro reached recovered _
                split
                · trivial
                · exact goesOn _ (Or.inr rfl) _
              · trivial
        · trivial

theorem key_issue (own : call.session = some sessionId) :
    KeyFollows config call (issueDirectOpenrouterLease config sessionId) history
      (HoldsLease config call) := by
  have last : ∀ reached, KeyFollows config call (issueRound config sessionId none none) reached
      (HoldsLease config call) :=
    fun reached => key_issueRound own (by simp)
  unfold issueDirectOpenrouterLease
  apply key_issueRound own
  rintro program (same | same) reached
  · cases same
    apply key_issueRound own
    rintro program (same | same) reached
    · cases same
    · cases same
      exact last reached
  · cases same
    apply key_issueRound own
    rintro program (same | same) reached
    · cases same
      exact last reached
    · cases same

theorem key_replaceLease (own : call.session = some sessionId) :
    KeyFollows config call (replaceLease config sessionId) history (HoldsLease config call) := by
  apply key_bind (only_recover rfl)
  intro reached _ _
  apply key_of_follows (key_issue own)
  intro reached lease _ holds
  rw [KeyFollows, follows_call_bind]
  exact ⟨holds.known, fun _ => holds.cons (by simp)⟩

theorem key_ensure {slot : Option ActiveOpenRouterLease} (own : call.session = some sessionId)
    (seen : Saw history .lockSlot slot) :
    KeyFollows config call (ensureDirectOpenrouterLease config slot sessionId) history
      (HoldsLease config call) := by
  unfold ensureDirectOpenrouterLease
  cases slot with
  | none => exact key_replaceLease own
  | some lease =>
      dsimp only
      rw [KeyFollows, follows_call_bind]
      refine ⟨trivial, fun now => ?_⟩
      split
      · rename_i timely
        split
        · rename_i same
          refine ⟨⟨lease, .slot (seen.mono (List.suffix_cons _ _)), .refl lease, Or.inl⟩, ?_,
            fun _ => Or.inr ⟨now, rfl, timely⟩⟩
          rw [same]
          exact own
        · trivial
      · rw [follows_call_bind]
        refine ⟨trivial, fun _ => ?_⟩
        apply key_bind ((only_retire _).mono isKeyless_of_isRetiring)
        intro reached _ _
        exact key_replaceLease own

end Issuance

section Verification

-- where a key is verified is settled, and not to be looked into when programs are compared
attribute [local irreducible] matchesTrustedUrl

variable {apiKey : String} {expiresAt : UInt64}

theorem key_retryWithin {retryAfter : Option UInt64} {error : AuthError}
    {again : Option (Handler α)} {returns : History Resp → α → Prop}
    (goesOn : ∀ program, again = some program → ∀ now,
      retryFitsLease now expiresAt (directRemoteRetryDelay retryAfter) = true →
        KeyFollows config call program (⟨.now, now⟩ :: history) returns) :
    KeyFollows config call (retryWithin expiresAt retryAfter error again) history returns := by
  unfold retryWithin
  cases again with
  | none => trivial
  | some again =>
      dsimp only
      rw [KeyFollows, follows_call_bind]
      refine ⟨trivial, fun now => ?_⟩
      split
      · rename_i fits
        exact goesOn _ rfl now fits
      · trivial

theorem key_submitOnce {evidence : OaKeyVerificationEvidence} {again : Option (Handler Unit)}
    (goesOn : ∀ program, again = some program → ∀ reached,
      KeyFollows config call program reached fun reached _ => KeyAccepted config reached apiKey) :
    KeyFollows config call (submitOnce (submitKeyUrl config) apiKey expiresAt evidence again)
      history fun reached _ => KeyAccepted config reached apiKey := by
  unfold submitOnce
  rw [KeyFollows, follows_call_bind]
  refine ⟨trivial, fun reply => ?_⟩
  cases reply with
  | unreachable message => exact key_retryWithin fun program same now _ => goesOn program same _
  | unreadable message => trivial
  | invalid status retryAfter message =>
      dsimp only
      split
      · exact key_retryWithin fun program same now _ => goesOn program same _
      · trivial
  | json status retryAfter verdict retryable detail =>
      dsimp only
      split
      · rename_i accepts
        exact ⟨evidence, _, List.mem_cons_self, accepts⟩
      · split
        · exact key_retryWithin fun program same now _ => goesOn program same _
        · trivial

theorem key_verifyOaKey (apiKey : String) (expiresAt : UInt64)
    (evidence : OaKeyVerificationEvidence) :
    KeyFollows config call (verifyOaKey config apiKey expiresAt evidence) history
      fun reached _ => history <:+ reached ∧ KeyAccepted config reached apiKey := by
  apply key_bind (only_require _ _)
  intro first _ required
  apply key_bind (only_lift _)
  intro second _ lifted
  have grown := required.trans lifted
  have submits : KeyFollows config call
      (threeAttempts (submitOnce (submitKeyUrl config) apiKey expiresAt evidence)) second
      fun reached _ => KeyAccepted config reached apiKey := by
    unfold threeAttempts
    apply key_submitOnce
    rintro program same reached
    cases same
    apply key_submitOnce
    rintro program same reached
    cases same
    exact key_submitOnce (by simp)
  exact submits.weaken (fun reached _ grows accepted => ⟨grown.trans grows, accepted⟩)
    fun _ _ _ _ => trivial

/-- The end of a verification, which is not to have outlasted the key. -/
def confirmVerified (lease : ActiveOpenRouterLease) : Handler ActiveOpenRouterLease := do
  let now ← Clientd.call .now
  if lease.expiresAt ≤ saturatingAdd now 1 then
    .fail (.keyVerification "OA key expired while verification was in progress")
  else return { lease with verified := true }

theorem verifyLease_eq (lease : ActiveOpenRouterLease) : verifyLease config lease =
    match lease.verification with
    | none => .fail (.keyVerification "OA lease lost its verification evidence")
    | some evidence =>
        verifyOaKey config lease.apiKey lease.expiresAt evidence >>= fun _ =>
          confirmVerified lease :=
  rfl

theorem key_confirm {lease : ActiveOpenRouterLease}
    (known : KnownLease config call history lease)
    (session : call.session = some lease.sessionId)
    (accepted : KeyAccepted config history lease.apiKey) :
    KeyFollows config call (confirmVerified lease) history fun reached verified =>
      verified.verified = true ∧ HoldsLease config call reached verified := by
  unfold confirmVerified
  rw [KeyFollows, follows_call_bind]
  refine ⟨trivial, fun now => ?_⟩
  split
  · trivial
  · rename_i timely
    have later : history <:+ ⟨.now, now⟩ :: history := List.suffix_cons _ _
    obtain ⟨received, origin, same, _⟩ := known.mono later
    refine ⟨rfl, ⟨received, origin, ⟨same.session, same.key, same.base, same.expiry⟩, ?_⟩,
      session, fun _ => Or.inr ⟨now, rfl, UInt64.not_le.mp timely⟩⟩
    exact fun _ => Or.inr (accepted.mono later)

theorem key_verifyLease {lease : ActiveOpenRouterLease}
    (holds : HoldsLease config call history lease) :
    KeyFollows config call (verifyLease config lease) history fun reached verified =>
      verified.verified = true ∧ HoldsLease config call reached verified := by
  rw [verifyLease_eq]
  cases lease.verification with
  | none => trivial
  | some evidence =>
      dsimp only
      apply key_of_follows (key_verifyOaKey lease.apiKey lease.expiresAt evidence)
      rintro reached _ _ ⟨grows, accepted⟩
      exact key_confirm (holds.known.mono grows) holds.session accepted

end Verification

section Inference

variable {W : WalletFunctions}

theorem key_postOnce {url apiKey body : String} {expiresAt : UInt64}
    {again : Option (Handler UInt16)} (ready : PostReady config call history url apiKey expiresAt)
    (goesOn : ∀ program, again = some program → ∀ reached,
      PostReady config call reached url apiKey expiresAt →
        KeyFollows config call program reached fun _ _ => True) :
    KeyFollows config call (postOnce url apiKey body expiresAt again) history
      fun _ _ => True := by
  unfold postOnce
  rw [KeyFollows, follows_call_bind]
  refine ⟨⟨expiresAt, ready⟩, fun reply => ?_⟩
  cases reply with
  | unreachable message =>
      exact key_retryWithin fun program same now fits =>
        goesOn program same _ (ready.again (List.suffix_cons _ _) fits)
  | success status => trivial
  | unreadable message => trivial
  | failure status retryAfter text =>
      dsimp only
      split
      · exact key_retryWithin fun program same now fits =>
          goesOn program same _ (ready.again (List.suffix_cons _ _) fits)
      · trivial

theorem key_send {url apiKey body : String} {expiresAt : UInt64}
    (ready : PostReady config call history url apiKey expiresAt) :
    KeyFollows config call (sendOpenrouterRequest url apiKey body expiresAt) history
      fun _ _ => True := by
  apply key_postOnce ready
  rintro program same reached ready
  cases same
  apply key_postOnce ready
  rintro program same reached ready
  cases same
  exact key_postOnce ready (by simp)

theorem key_replaceRejected {lease : ActiveOpenRouterLease} {error : AuthError}
    {again : Option (Handler Opened)}
    (goesOn : ∀ program, again = some program → ∀ reached,
      KeyFollows config call program reached fun _ _ => True) :
    KeyFollows config call (replaceRejected W lease error again) history fun _ _ => True := by
  have retires : (retireDirectOpenrouterLease lease.clientRequestId).Only Op.isKeyless :=
    (only_retire _).mono isKeyless_of_isRetiring
  unfold replaceRejected
  rw [KeyFollows, follows_call_bind]
  refine ⟨trivial, fun _ => ?_⟩
  rw [follows_call_bind]
  refine ⟨trivial, fun _ => ?_⟩
  rw [follows_call_bind]
  refine ⟨trivial, fun _ => ?_⟩
  dsimp only
  split
  · apply key_bind retires
    intro reached _ _
    rw [KeyFollows, follows_call_bind]
    exact ⟨trivial, fun _ => goesOn _ rfl _⟩
  · exact key_bind retires.attempt fun _ _ _ => trivial

/-- The key of a verified lease that the task holds may be posted once the slot
is free again. -/
theorem key_serveLease {lease : ActiveOpenRouterLease} {body : String}
    {again : Option (Handler Opened)} (holds : HoldsLease config call history lease)
    (verified : lease.verified = true)
    (goesOn : ∀ program, again = some program → ∀ reached,
      KeyFollows config call program reached fun _ _ => True) :
    KeyFollows config call (serveLease W config lease "/chat/completions" body again) history
      fun _ _ => True := by
  unfold serveLease
  rw [KeyFollows, follows_call_bind]
  refine ⟨holds.known.served, fun done => ?_⟩
  rw [follows_call_bind]
  refine ⟨trivial, fun left => ?_⟩
  have counted : HoldsLease config call
      (⟨.setSlot (some lease.served), done⟩ :: history) lease := holds.cons (by simp)
  have free : HoldsLease config call
      (⟨.unlockSlot, left⟩ :: ⟨.setSlot (some lease.served), done⟩ :: history) lease :=
    counted.cons (by simp)
  have ready : PostReady config call
      (⟨.unlockSlot, left⟩ :: ⟨.setSlot (some lease.served), done⟩ :: history)
      (trimEndSlashes lease.openrouterApiBase ++ "/chat/completions") lease.apiKey
      lease.expiresAt :=
    ⟨lease, free.known, verified, free.session, rfl, rfl, rfl, free.timely verified⟩
  have sends : KeyFollows config call
      (sendVerifiedOpenrouterRequest config lease "/chat/completions" body)
      (⟨.unlockSlot, left⟩ :: ⟨.setSlot (some lease.served), done⟩ :: history)
      fun _ _ => True := by
    unfold sendVerifiedOpenrouterRequest
    rw [verified, if_pos rfl]
    exact key_send ready
  have attempts : KeyFollows config call
      (sendVerifiedOpenrouterRequest config lease "/chat/completions" body).attempt
      (⟨.unlockSlot, left⟩ :: ⟨.setSlot (some lease.served), done⟩ :: history)
      fun _ _ => True := by
    rw [KeyFollows, follows_attempt]
    exact sends
  apply key_of_follows attempts
  intro reached sent _ _
  cases sent with
  | ok status => trivial
  | error error => exact key_replaceRejected goesOn

theorem key_openRound {sessionId body : String} {again : Option (Handler Opened)}
    (own : call.session = some sessionId)
    (goesOn : ∀ program, again = some program → ∀ reached,
      KeyFollows config call program reached fun _ _ => True) :
    KeyFollows config call (openRound W config sessionId "/chat/completions" body again) history
      fun _ _ => True := by
  unfold openRound
  rw [KeyFollows, follows_call_bind]
  refine ⟨trivial, fun _ => ?_⟩
  rw [follows_call_bind]
  refine ⟨trivial, fun slot => ?_⟩
  apply key_of_follows (key_ensure own (by simp))
  intro reached lease _ holds
  cases verified : lease.verified with
  | true =>
      rw [if_pos rfl]
      exact key_serveLease holds verified goesOn
  | false =>
      rw [if_neg Bool.false_ne_true]
      apply key_of_follows (key_verifyLease holds)
      rintro reached lease _ ⟨verified, holds⟩
      rw [KeyFollows, follows_call_bind]
      exact ⟨holds.known, fun _ => key_serveLease (holds.cons (by simp)) verified goesOn⟩

theorem key_open {sessionId : String} (own : call.session = some sessionId)
    (request : CoreRequest) :
    KeyFollows config call (openDirectOpenrouterResponse W config request sessionId) history
      fun _ _ => True := by
  apply key_bind (only_lift_call rfl)
  intro reached _ _
  apply key_openRound own
  rintro program same reached
  cases same
  exact key_openRound own (by simp)

end Inference

section Routes

theorem only_settleOpenRequest (config : AuthConfig) :
    (settleOpenRequest config).Only Op.isKeyless := by
  unfold settleOpenRequest
  cases config.requestMode with
  | proxy =>
      apply (only_status rfl).bind
      intro wallet
      split
      · apply (only_recover rfl).bind
        intro recovered
        split <;> constructor
      · constructor
  | directOpenrouter =>
      apply (only_call rfl).bind
      intro slot
      cases slot with
      | some lease =>
          exact ((only_retire _).mono isKeyless_of_isRetiring).bind fun _ => .ret _
      | none =>
          apply (only_status rfl).bind
          intro wallet
          split
          · exact only_settlePendingLease.mono isKeyless_of_isSettling
          · constructor

theorem only_settleForWithdrawal (config : AuthConfig) :
    (settleForWithdrawal config).Only Op.isKeyless := by
  apply (only_call rfl).bind
  intro entered
  apply (only_settleOpenRequest config).bind
  intro settled
  cases settled with
  | some wallet => exact (only_call rfl).bind fun _ => .ret _
  | none =>
      apply (only_status rfl).bind
      intro wallet
      split
      · constructor
      · exact (only_call rfl).bind fun _ => .ret _

theorem only_confirmWithdrawal : confirmWithdrawal.Only Op.isKeyless := by
  apply (only_status rfl).bind
  intro wallet
  cases wallet.note with
  | none => constructor
  | some note =>
      have reads := (only_onchainWithdrawalStatus note.noteId).mono isPlain_of_isVaultRead
      apply (reads.mono isKeyless_of_isPlain).bind
      rintro ⟨chainStatus, challengeDeadline⟩
      dsimp only
      split
      · apply (only_call rfl).bind
        intro dropped
        apply (only_call rfl).bind
        intro emptied
        exact (only_resetWallet.mono isKeyless_of_isPlain).bind fun _ => .ret _
      · split
        · exact (only_dropEscapePlan.mono isKeyless_of_isWithdrawing).bind fun _ => .ret _
        · constructor

theorem only_managedWithdrawal (config : AuthConfig) (mode : WithdrawalMode)
    (destination : Address) (dryRun : Bool) :
    (runManagedWithdrawal config mode destination dryRun).Only Op.isKeyless := by
  apply (only_settleForWithdrawal config).bind
  intro settled
  cases settled.note with
  | none => constructor
  | some localNote =>
      apply (only_require _ _).bind
      intro unpending
      apply ((only_createWithdrawal config mode destination).mono isKeyless_of_isWithdrawing).bind
      intro plan
      apply (only_require _ _).bind
      intro sameMode
      apply (only_require _ _).bind
      intro sameDestination
      apply (only_require _ _).bind
      intro sameNote
      apply (only_lift_call rfl).bind
      intro submitted
      split
      · constructor
      · split
        · apply (only_lift_call rfl).bind
          intro closed
          exact (only_resetWallet.mono isKeyless_of_isPlain).bind fun _ => only_require _ _
        · exact only_lift_call rfl

theorem only_check : checkPreparedWithdrawal.Only Op.isKeyless := by
  apply (only_call rfl).bind
  intro prepared
  cases prepared <;> constructor

theorem only_demo (request : CoreRequest) : (executeRequestDemo request).Only Op.isKeyless :=
  (only_lift_call rfl).bind fun _ => only_lift_call rfl

variable {W : WalletFunctions}

theorem key_executeRequest (request : CoreRequest) (sessionId : Option String) :
    KeyFollows config (.executeRequest request sessionId)
      (executeRequestInSession W config request sessionId) [] fun _ _ => True := by
  apply key_bind only_check
  intro reached _ _
  cases config.requestMode with
  | proxy => exact key_keyless (only_demo request)
  | directOpenrouter =>
      dsimp only
      rw [KeyFollows, follows_bind, follows_lift]
      refine ⟨fun own normalized => ?_, fun _ _ => trivial⟩
      have session : Call.session (.executeRequest request sessionId) = some own := by
        simp [Call.session, normalized, Except.toOption]
      apply key_of_follows (key_open session request)
      intro reached opened _ _
      apply key_keyless
      apply (only_call rfl).bind
      intro payload
      apply (only_call rfl).bind
      intro released
      cases payload with
      | error message => constructor
      | ok rawPayload => exact (only_status rfl).bind fun _ => .ret _

theorem key_executeStreaming (request : CoreRequest) (sessionId : Option String) :
    KeyFollows config (.executeStreamingRequest request sessionId)
      (executeStreamingRequestInSession W config request sessionId) [] fun _ _ => True := by
  apply key_bind only_check
  intro reached _ _
  cases config.requestMode with
  | proxy => trivial
  | directOpenrouter =>
      dsimp only
      rw [KeyFollows, follows_bind, follows_lift]
      refine ⟨fun own normalized => ?_, fun _ _ => trivial⟩
      have session : Call.session (.executeStreamingRequest request sessionId) = some own := by
        simp [Call.session, normalized, Except.toOption]
      apply key_of_follows (key_open session request)
      intro reached opened _ _
      apply key_keyless
      apply (only_call rfl).bind
      intro payload
      exact (only_call rfl).bind fun _ => .ret _

theorem key_handler (config : AuthConfig) (call : Call) :
    KeyFollows config call (handler W config call) [] fun _ _ => True := by
  cases call with
  | status => exact key_keyless (only_status rfl)
  | retireLowBalanceNote => exact key_keyless (only_lift_call rfl)
  | confirmDeposit request => exact key_keyless (only_lift_call rfl)
  | recover => exact key_keyless (only_recover rfl)
  | settleForWithdrawal => exact key_keyless (only_settleForWithdrawal config)
  | resetWallet => exact key_keyless (only_resetWallet.mono isKeyless_of_isPlain)
  | executeRequest request sessionId => exact key_executeRequest request sessionId
  | executeStreamingRequest request sessionId => exact key_executeStreaming request sessionId
  | requestSubmit request => exact key_keyless (only_demo request)
  | createWithdrawal mode destination =>
      exact key_keyless
        ((only_createWithdrawal config mode destination).mono isKeyless_of_isWithdrawing)
  | confirmWithdrawal => exact key_keyless only_confirmWithdrawal
  | reconcileDirectOpenrouter =>
      have reconciles := (only_reconcile config).mono isPlain_of_isReconciling
      exact key_keyless (reconciles.mono isKeyless_of_isPlain)
  | runManagedWithdrawal mode destination dryRun =>
      exact key_keyless (only_managedWithdrawal config mode destination dryRun)
  | finalizeEscapeWithdrawal noteId dryRun =>
      exact key_keyless
        ((only_finalizeEscapeWithdrawal noteId dryRun).mono isKeyless_of_isPlain)

end Routes

end Programs

/-- The discipline of runtime keys. -/
def keyDiscipline (W : WalletFunctions) : Discipline (daemon W) :=
  (guardDiscipline W).restate (fun config call history op => KeyAllowed config call history op)
    (fun _ _ _ _ => True) fun config call => key_handler config call

end ZkApi.Clientd
