import ZkApi.HandlerDiscipline
import ZkApi.TraceEvidence

/-!
# The handlers keep the discipline

Each handler is executed symbolically once.  What a called part promises is
stated once and used by name.
-/

namespace ZkApi

open Interleaving Handler

section Combinators

variable {α : Type} {allowed : History Resp → Op → Prop}
  {returns : History Resp → α → Prop} {fails : History Resp → Failure → Prop}
  {history : History Resp}

@[simp]
theorem follows_throw (cause : ServerError) :
    Program.Follows allowed returns fails history (throw cause : Handler α) ↔
      fails history (.error cause) :=
  Iff.rfl

@[simp]
theorem follows_ensure (condition : Prop) [Decidable condition] (cause : ServerError)
    {returns : History Resp → Unit → Prop} :
    Program.Follows allowed returns fails history (ensure condition cause) ↔
      (condition → returns history ()) ∧ (¬ condition → fails history (.error cause)) :=
  Program.follows_require condition (Failure.error cause)

@[simp]
theorem follows_propagate (result : Except ServerError α) :
    Program.Follows allowed returns fails history (propagate result) ↔
      (∀ value, result = .ok value → returns history value) ∧
        ∀ cause, result = .error cause → fails history (.error cause) := by
  cases result <;> simp [propagate]

@[simp]
theorem follows_okOr (value : Option α) (cause : ServerError) :
    Program.Follows allowed returns fails history (okOr value cause) ↔
      (∀ found, value = some found → returns history found) ∧
        (value = none → fails history (.error cause)) := by
  cases value <;> simp [okOr]

end Combinators

section Validation

variable {P : Protocol} {config : ServerConfig} {call : Call} {request : ApiRequestV2}
  {kind : ReservationKind} {history : History Resp}

private theorem rejected_unseen
    (unseen : Saw history (.lookupByNullifier request.nullifier) none)
    (cause : ServerError) : Rejected P history request kind (.error cause) :=
  ⟨cause, rfl, Or.inr (Or.inr (Or.inr (Or.inl unseen)))⟩

theorem validateAndReserve_follows (submits : call.Submits request kind) :
    (validateAndReserve P config request kind).Follows (Allowed P config call)
      (fun reached value =>
        P.canonicalPayloadHash request.payload = request.payloadHash ∧
        DeploymentMatches config request.publicInputs ∧
        match value with
        | none => Admitted P request kind reached
        | some response => Replayed P request kind reached response)
      (fun reached failure => Rejected P reached request kind failure) history := by
  simp only [validateAndReserve, Program.follows_bind, follows_ensure, Handler.call,
    Program.follows_call]
  refine ⟨fun payload => ⟨fun deployment => ⟨trivial, fun existing => ?_⟩, ?_⟩, ?_⟩
  · cases existing with
    | some existing =>
        have seen : Saw (⟨.lookupByNullifier request.nullifier, some existing⟩ :: history)
            (.lookupByNullifier request.nullifier) (some existing) := by simp
        simp only [Program.follows_bind, follows_ensure]
        refine ⟨fun same => ?_, fun different => ?_⟩
        · cases status : existing.status with
          | reserved =>
              exact ⟨payload, deployment, Or.inr ⟨existing, seen, same, status⟩⟩
          | finalized =>
              simp only [Program.follows_bind, follows_propagate, Program.follows_pure]
              refine ⟨fun response stored => ?_, fun cause failed => ?_⟩
              · exact ⟨payload, deployment, existing, seen, same, status, stored⟩
              · unfold responseFromRecord at failed
                split at failed
                · cases failed
                  exact ⟨_, rfl, Or.inr (Or.inr (Or.inl ⟨_, rfl⟩))⟩
                · cases failed
          | clearanceReserved =>
              exact ⟨_, rfl, Or.inr (Or.inr (Or.inr (Or.inr
                ⟨existing, seen, fun _ => status⟩)))⟩
        · exact ⟨_, rfl, Or.inr (Or.inr (Or.inr (Or.inr
            ⟨existing, seen, fun same => (different same).elim⟩)))⟩
    | none =>
        simp only [Program.follows_bind, follows_ensure, Program.follows_call,
          follows_propagate, Program.follows_pure]
        refine ⟨trivial, fun root => ⟨fun sameRoot => ⟨fun signingKey =>
          ⟨trivial, fun now => ⟨fun fresh => ⟨fun solvent => ⟨fun tag =>
            ⟨fun verified accepted => ⟨fun holds => ⟨⟨submits, root, now, by simp, by simp, ?_⟩,
              fun reserved => ⟨fun _ done => ?_, ?_⟩⟩, ?_⟩, ?_⟩, ?_⟩, ?_⟩, ?_⟩⟩, ?_⟩, ?_⟩⟩
        · subst holds
          refine ⟨payload, deployment, sameRoot, signingKey, fresh, solvent, tag, ?_⟩
          cases outcome : P.verify config.proofSetupDir request.publicInputs
              request.proof with
          | error message => simp [outcome, Except.mapError] at accepted
          | ok value => simpa [outcome, Except.mapError] using accepted
        · cases done
          exact ⟨payload, deployment, Or.inl (by simp)⟩
        all_goals
          intros
          exact rejected_unseen (by simp) _
  · intro _
    exact ⟨_, rfl, Or.inr (Or.inl ⟨_, rfl⟩)⟩
  · intro mismatch
    exact ⟨_, rfl, Or.inl mismatch⟩

end Validation

section Finalization

variable {P : Protocol} {config : ServerConfig} {call : Call} {request : ApiRequestV2}
  {history : History Resp}

theorem drawNextState_follows (charge : Nat) :
    (drawNextState P config request charge).Follows (Allowed P config call)
      (fun _ _ => True)
      (fun reached failure => Unfinalized P reached request charge failure) history := by
  simp only [drawNextState, Program.follows_bind, follows_propagate, Handler.call,
    Program.follows_call, Program.follows_pure]
  refine ⟨trivial, fun blindDelta => ⟨fun commitment _ =>
    ⟨trivial, fun _ => ⟨trivial, fun _ => trivial⟩⟩, fun cause failed => ?_⟩⟩
  cases outcome : P.serverUpdate ⟨request.publicInputs.anonymousCommitmentX,
      request.publicInputs.anonymousCommitmentY⟩ charge blindDelta with
  | error message =>
      rw [outcome] at failed
      cases failed
      exact ⟨_, rfl, Or.inr (Or.inl ⟨message, blindDelta, rfl, outcome⟩)⟩
  | ok value =>
      rw [outcome] at failed
      cases failed

theorem finalizeRequest_follows {response : ProviderResponse}
    (cause : Cause P call history request response) :
    (finalizeRequest P config request response).Follows (Allowed P config call)
      (fun reached value => Finalized P config reached request response value)
      (fun reached failure =>
        Unfinalized P reached request response.chargeApplied failure) history := by
  simp only [finalizeRequest, Program.follows_bind, Handler.call, Program.follows_call,
    follows_okOr, follows_ensure]
  refine ⟨trivial, fun found => ⟨?_, ?_⟩⟩
  · rintro record rfl
    refine ⟨fun capped => ?_, fun _ => ⟨_, rfl, Or.inl ⟨_, rfl⟩⟩⟩
    refine (drawNextState_follows response.chargeApplied).weaken ?_ ?_
    · intro drawn next grows _
      simp only [follows_propagate, Program.follows_pure]
      have found : Saw drawn (.lookupByNullifier request.nullifier) (some record) :=
        Saw.mono (by simp) grows
      have earlier : history <:+ drawn := (List.suffix_cons _ _).trans grows
      refine ⟨fun proofBytes _ => ⟨trivial, fun createdAt => ⟨trivial, fun finalizedAt =>
        ⟨?_, fun finalized => ⟨?_, ?_⟩⟩⟩⟩, ?_⟩
      · exact ⟨request, response, rfl, cause.mono (earlier.trans ⟨[_, _], rfl⟩),
          record, next, proofBytes, createdAt, finalizedAt, found.mono ⟨[_, _], rfl⟩,
          capped, rfl⟩
      · rintro _ rfl
        exact ⟨record, next, proofBytes, createdAt, finalizedAt, rfl, capped,
          found.mono ⟨[_, _, _], rfl⟩, by simp⟩
      · rintro cause rfl
        exact ⟨cause, rfl, Or.inr (Or.inr (Or.inr ⟨_, saw_cons.mpr (Or.inl rfl)⟩))⟩
      · intro cause failed
        cases outcome : P.base64Decode request.proof.proof with
        | error message =>
            rw [outcome] at failed
            cases failed
            exact ⟨_, rfl, Or.inr (Or.inr (Or.inl ⟨message, rfl, outcome⟩))⟩
        | ok value =>
            rw [outcome] at failed
            cases failed
    · intro reached failure _ failed
      exact failed
  · rintro rfl
    exact ⟨_, rfl, Or.inl ⟨_, rfl⟩⟩

end Finalization

section Endpoints

variable {P : Protocol} {config : ServerConfig}

theorem processRequest_follows (request : ApiRequestV2) :
    (processRequest P config request).Follows
      (Allowed P config (.processRequest request))
      (fun history value => Returns P config history (.processRequest request) (.ok value))
      (fun history failure =>
        Returns P config history (.processRequest request) (.error failure)) [] := by
  have submits : Call.Submits (.processRequest request) request .proxy := rfl
  simp only [processRequest, Program.follows_bind]
  refine (validateAndReserve_follows submits).weaken ?_ ?_
  · rintro reserved (_ | response) _ ⟨_, _, validated⟩
    · simp only [Program.follows_bind, Handler.call, Program.follows_call,
        follows_propagate]
      refine ⟨⟨request, rfl, rfl, rfl, rfl, validated⟩, fun executed => ⟨?_, ?_⟩⟩
      · rintro response rfl
        have admitted := validated.mono (List.suffix_cons
          (⟨.execute request.clientRequestId request.payload request.payloadHash,
            .ok response⟩ : (op : Op) × Resp op) reserved)
        refine (finalizeRequest_follows (.executed rfl admitted (by simp))).weaken ?_ ?_
        · intro reached value grows finalized
          exact Or.inr ⟨admitted.mono grows, response, finalized⟩
        · intro reached failure _ failed
          exact Or.inr (Or.inr ⟨_, failed⟩)
      · rintro cause rfl
        exact Or.inr (Or.inl ⟨cause, rfl, by simp⟩)
    · exact Or.inl validated
  · intro reached failure _ rejected
    exact Or.inl rejected

theorem processClearance_follows (request : ClearanceRequest) :
    (processClearance P config request).Follows
      (Allowed P config (.processClearance request))
      (fun history value =>
        Returns P config history (.processClearance request) (.ok value))
      (fun _ _ => True) [] := by
  simp only [processClearance, Program.follows_bind, Handler.call, Program.follows_call]
  refine ⟨trivial, fun found => ?_⟩
  cases found with
  | none =>
      simp only [Program.follows_pure, Program.follows_call, Program.follows_bind,
        follows_propagate, Bool.false_eq_true, if_false]
      refine ⟨trivial, fun signature => ⟨rfl, fun reserved => ⟨?_, fun _ _ => trivial⟩⟩⟩
      rintro _ rfl
      exact Or.inl (by simp)
  | some record =>
      by_cases cleared : record.status = .clearanceReserved
      · simp only [cleared, if_true]
        exact ⟨trivial, fun signature => Or.inr ⟨record, by simp, cleared⟩⟩
      · simp only [cleared, if_false, Program.follows_bind, follows_throw]

end Endpoints

section Issue

variable {P : Protocol} {config : ServerConfig} {call : Call} {history : History Resp}

theorem deleteKey_follows (hash : String) :
    (deleteKey hash).Follows (Allowed P config call)
      (fun reached _ => ∃ reply, reached = ⟨.openrouterDelete hash, reply⟩ :: history)
      (fun reached _ => ∃ reply, reached = ⟨.openrouterDelete hash, reply⟩ :: history)
      history := by
  simp only [deleteKey, Program.follows_bind, Handler.call, Program.follows_call]
  refine ⟨trivial, fun reply => ?_⟩
  cases reply <;> simp

theorem ignoring_follows {α : Type} {program : Handler α} {reaches : History Resp → Prop}
    {fails : History Resp → Failure → Prop}
    (follows : program.Follows (Allowed P config call) (fun reached _ => reaches reached)
      (fun reached _ => reaches reached) history) :
    (ignoring program).Follows (Allowed P config call) (fun reached _ => reaches reached)
      fails history := by
  simp only [ignoring, Program.follows_bind, Program.follows_attempt, Program.follows_pure]
  exact follows

variable {request : ApiRequestV2} {lease : OpenRouterLeaseConfig}

/-- What an issuing task knows survives every step of the key services. -/
theorem Issuing.step (issuing : Issuing P request history)
    {op : Op} {response : Resp op}
    (neutral : KnowsProvisioning request (⟨op, response⟩ :: history) ↔
      KnowsProvisioning request history) :
    Issuing P request (⟨op, response⟩ :: history) :=
  ⟨issuing.locked.mono (List.suffix_cons _ _), issuing.admitted.mono (List.suffix_cons _ _),
    neutral.mpr issuing.knows⟩

theorem hashesNamed_follows (name : String) (pages offset : Nat) (matching : List String)
    (issuing : Issuing P request history) :
    (hashesNamed name pages offset matching).Follows (Allowed P config call)
      (fun reached _ => Issuing P request reached) (fun _ _ => True) history := by
  induction pages generalizing offset matching history with
  | zero => trivial
  | succ pages ih =>
      simp only [hashesNamed, Program.follows_bind, Handler.call, Program.follows_call,
        follows_propagate]
      refine ⟨trivial, fun reply => ⟨fun data _ => ?_, fun _ _ => trivial⟩⟩
      have listed := issuing.step (P := P)
        (show KnowsProvisioning request (⟨.openrouterList offset, reply⟩ :: history) ↔ _
          from Iff.rfl)
      split
      · exact listed
      · simp only [Program.follows_bind, follows_ensure]
        exact ⟨fun _ => ih _ _ listed, fun _ => trivial⟩

theorem deleteKeysNamed_follows (name : String) (issuing : Issuing P request history) :
    (deleteKeysNamed name).Follows (Allowed P config call)
      (fun reached _ => Issuing P request reached) (fun _ _ => True) history := by
  simp only [deleteKeysNamed, Program.follows_bind]
  refine (hashesNamed_follows name _ _ _ issuing).weaken ?_ fun _ _ _ _ => trivial
  intro listed hashes _ issuing
  refine Program.follows_forEach hashes deleteKey (fun hash _ reached issuing => ?_) issuing
  refine (deleteKey_follows hash).weaken ?_ fun _ _ _ _ => trivial
  rintro deleted _ _ ⟨reply, rfl⟩
  exact issuing.step Iff.rfl

theorem createKey_follows {name : String} {limitUsd : Float} {expiresAt : UInt64}
    (permitted : Allowed P config call history (.openrouterCreate name limitUsd expiresAt))
    (issuing : Issuing P request history) :
    (createKey name limitUsd expiresAt).Follows (Allowed P config call)
      (fun reached created => Issuing P request reached ∧
        KeyDelivered reached created.key created.hash)
      (fun reached _ => Issuing P request reached) history := by
  simp only [createKey, Program.follows_bind, Handler.call, Program.follows_call,
    follows_propagate, follows_ensure]
  refine ⟨permitted, fun reply => ⟨fun envelope decoded => ⟨fun _ => ?_,
    fun _ => issuing.step Iff.rfl⟩, fun _ _ => issuing.step Iff.rfl⟩⟩
  split
  · obtain ⟨status, retryAfter, text, rfl, _⟩ := decodeReply_eq_ok decoded
    exact ⟨issuing.step Iff.rfl, Or.inl ⟨name, limitUsd, expiresAt, status, retryAfter, text,
      envelope, saw_cons.mpr (Or.inl rfl), rfl, rfl⟩⟩
  · simp only [Program.follows_bind, follows_throw]
    refine (ignoring_follows (deleteKey_follows envelope.data.hash)).weaken ?_
      fun _ _ _ failed => failed
    rintro reached _ _ ⟨deletion, rfl⟩
    exact (issuing.step Iff.rfl).step Iff.rfl

/-- Asking either service for the key of a known row keeps what is known. -/
theorem obtainKey_follows {spendingLimitUsd : Float} {requestedExpiresAt : UInt64}
    (submitted : call = .issueOpenRouterLease request)
    (issuing : Issuing P request history) :
    (obtainKey P lease request spendingLimitUsd requestedExpiresAt).Follows
      (Allowed P config call)
      (fun reached key => Issuing P request reached ∧
        KeyDelivered reached key.apiKey key.keyHash)
      (fun _ _ => True) history := by
  unfold obtainKey
  split
  · simp only [Program.follows_bind, Program.follows_attempt, Program.follows_pure]
    refine (createKey_follows ⟨request, submitted, rfl, issuing.admitted⟩ issuing).weaken
      (fun _ _ _ delivered => delivered) ?_
    intro reached failure _ issuing
    exact ⟨⟨request, submitted, rfl, issuing⟩, fun _ => trivial⟩
  · simp only [oaCreateKey, Program.follows_bind, Handler.call, Program.follows_call,
      follows_propagate, follows_ensure, Program.follows_pure]
    refine ⟨fun _ => ⟨⟨request, submitted, rfl, issuing.admitted⟩, fun reply =>
      ⟨fun response decoded => ⟨trivial, fun now => ⟨fun _ _ => ⟨trivial, fun _ =>
        ⟨fun _ => ⟨((issuing.step Iff.rfl).step Iff.rfl).step Iff.rfl, ?_⟩,
          fun _ => trivial⟩⟩, fun _ _ => trivial⟩⟩, fun _ _ => trivial⟩⟩, fun _ => trivial⟩
    obtain ⟨status, retryAfter, text, rfl⟩ := decodeOaReply_eq_ok decoded
    exact Or.inr ⟨_, _, _, _, status, retryAfter, text, response,
      saw_cons.mpr (Or.inr (saw_cons.mpr (Or.inr (saw_cons.mpr (Or.inl rfl))))), rfl, rfl⟩

/-- Reconciling with an earlier row either knows that row or has removed it. -/
theorem resumeExisting_follows {fresh : Resumption} {existing : OpenRouterLeaseRecord}
    (submitted : call = .issueOpenRouterLease request)
    (locked : Saw history .lockIssue ())
    (admitted : Admitted P request .openRouterLease history)
    (found : ∃ earlier, history =
      ⟨.lookupLease request.clientRequestId, some existing⟩ :: earlier) :
    (resumeExisting P lease request fresh existing).Follows (Allowed P config call)
      (fun reached resumption => resumption = fresh ∨
        resumption.resumeProvisioning = true ∧ Issuing P request reached)
      (fun _ _ => True) history := by
  simp only [resumeExisting, Program.follows_bind, follows_ensure]
  refine ⟨fun sameRequest => ⟨fun _ => ⟨fun provisioning => ?_, fun _ => trivial⟩,
    fun _ => trivial⟩, fun _ => trivial⟩
  have issuing : Issuing P request history := by
    obtain ⟨earlier, rfl⟩ := found
    exact ⟨locked, admitted, Or.inl ⟨rfl, sameRequest.1, provisioning⟩⟩
  split
  · simp only [Program.follows_bind]
    refine (deleteKeysNamed_follows (keyName request) issuing).weaken ?_
      fun _ _ _ _ => trivial
    intro deleted _ _ issuing
    simp only [Handler.call, Program.follows_call, follows_propagate, Program.follows_pure]
    exact ⟨⟨request, submitted, rfl, issuing⟩, fun _ =>
      ⟨fun _ _ => Or.inl trivial, fun _ _ => trivial⟩⟩
  · simp only [Program.follows_bind, follows_ensure, Program.follows_pure]
    exact ⟨fun _ => Or.inr ⟨trivial, issuing⟩, fun _ => trivial⟩

theorem activate_follows {keyHash : String} {expiresAt settleAfter : UInt64}
    {earlier : History Resp} (submitted : call = .issueOpenRouterLease request)
    (issuing : Issuing P request history)
    (timed : history = ⟨.updateLeaseTiming request.clientRequestId expiresAt settleAfter,
      .ok ()⟩ :: earlier) :
    (activate lease request keyHash).Follows (Allowed P config call)
      (fun reached _ =>
        reached = ⟨.activateLease request.clientRequestId keyHash, .ok ()⟩ :: history)
      (fun _ _ => True) history := by
  simp only [activate, Program.follows_bind, Handler.call, Program.follows_call]
  refine ⟨⟨request, expiresAt, settleAfter, earlier, submitted, rfl, issuing, timed⟩,
    fun activated => ?_⟩
  cases activated with
  | ok => rfl
  | error cause =>
      dsimp only
      split
      · simp only [Program.follows_bind, follows_throw]
        exact ignoring_follows ((deleteKey_follows keyHash).weaken
          (fun _ _ _ _ => trivial) fun _ _ _ _ => trivial)
      · trivial

theorem reconcile_follows {fresh : Resumption}
    (submitted : call = .issueOpenRouterLease request)
    (locked : Saw history .lockIssue ())
    (admitted : Admitted P request .openRouterLease history) :
    (reconcile P lease request fresh).Follows (Allowed P config call)
      (fun reached resumption => resumption = fresh ∨
        resumption.resumeProvisioning = true ∧ Issuing P request reached)
      (fun _ _ => True) history := by
  simp only [reconcile, Program.follows_bind, Handler.call, Program.follows_call]
  refine ⟨trivial, fun existing => ?_⟩
  cases existing with
  | some existing =>
      exact resumeExisting_follows submitted (locked.mono (List.suffix_cons _ _))
        (admitted.mono (List.suffix_cons _ _)) ⟨history, rfl⟩
  | none => exact Or.inl rfl

theorem persistLease_follows {resumption : Resumption} {requestedExpiresAt : UInt64}
    (submitted : call = .issueOpenRouterLease request)
    (starts : resumption.resumeProvisioning = false →
      Provisions P config request lease.source.label resumption.spendingLimitUsd history)
    (resumes : resumption.resumeProvisioning = true → Issuing P request history) :
    (persistLease lease request resumption requestedExpiresAt).Follows
      (Allowed P config call) (fun reached _ => Issuing P request reached)
      (fun _ _ => True) history := by
  unfold persistLease
  split
  · exact resumes ‹_›
  · rename_i fresh
    have provisions := starts (Bool.eq_false_of_not_eq_true fresh)
    simp only [Program.follows_bind, Handler.call, Program.follows_call, follows_propagate]
    refine ⟨⟨submitted, provisions⟩, fun created => ⟨?_, fun _ _ => trivial⟩⟩
    rintro _ rfl
    exact ⟨provisions.locked.mono (List.suffix_cons _ _),
      provisions.admitted.mono (List.suffix_cons _ _), Or.inl rfl⟩

theorem deliverKey_follows {resumption : Resumption} {requestedExpiresAt : UInt64}
    (issuing : Issuing P request history) :
    (deliverKey P lease request resumption requestedExpiresAt).Follows
      (Allowed P config (.issueOpenRouterLease request))
      (fun history value =>
        Returns P config history (.issueOpenRouterLease request) (.ok value))
      (fun _ _ => True) history := by
  simp only [deliverKey, Program.follows_bind]
  refine (obtainKey_follows rfl issuing).weaken ?_ fun _ _ _ _ => trivial
  rintro obtained key _ ⟨issuing, delivered⟩
  simp only [Handler.call, Program.follows_call, follows_propagate, Program.follows_pure]
  refine ⟨⟨request, rfl, rfl, issuing⟩, fun timed => ⟨?_, fun _ _ => trivial⟩⟩
  rintro _ rfl
  refine (activate_follows rfl (issuing.step Iff.rfl) rfl).weaken ?_ fun _ _ _ _ => trivial
  rintro reached _ grows rfl
  have earlier : obtained <:+ _ := (List.suffix_cons _ _).trans grows
  refine ⟨key.keyHash, obtained, ?_, issuing.admitted.mono earlier, rfl⟩
  rcases delivered with ⟨name, limitUsd, expiresAt, status, retryAfter, text, envelope,
    saw, same⟩ | ⟨clientRequestId, limitUsd, limitCredits, durationMinutes, status,
    retryAfter, text, response, saw, same⟩
  · exact Or.inl ⟨name, limitUsd, expiresAt, status, retryAfter, text, envelope,
      saw.mono earlier, same⟩
  · exact Or.inr ⟨clientRequestId, limitUsd, limitCredits, durationMinutes, status,
      retryAfter, text, response, saw.mono earlier, same⟩

theorem issueOpenRouterLease_follows (request : ApiRequestV2) :
    (issueOpenRouterLease P config request).Follows
      (Allowed P config (.issueOpenRouterLease request))
      (fun history value =>
        Returns P config history (.issueOpenRouterLease request) (.ok value))
      (fun _ _ => True) [] := by
  have submits : Call.Submits (.issueOpenRouterLease request) request .openRouterLease := rfl
  simp only [issueOpenRouterLease, Program.follows_bind, follows_propagate, Handler.call,
    Program.follows_call]
  refine ⟨fun lease configured => ⟨trivial, fun _ => ?_⟩, fun _ _ => trivial⟩
  refine (validateAndReserve_follows submits).weaken ?_ fun _ _ _ _ => trivial
  rintro reserved replayed lockedGrows ⟨payload, deployment, validated⟩
  simp only [follows_ensure]
  refine ⟨fun unreplayed => ⟨fun positive => ⟨trivial, fun issuedAt => ?_⟩,
    fun _ => trivial⟩, fun _ => trivial⟩
  subst unreplayed
  have locked : Saw reserved .lockIssue () := Saw.mono (by simp) lockedGrows
  have admitted : Admitted P request .openRouterLease reserved := validated
  refine (reconcile_follows rfl (locked.mono (List.suffix_cons _ _))
    (admitted.mono (List.suffix_cons _ _))).weaken ?_ fun _ _ _ _ => trivial
  intro reconciled resumption grows resumed
  refine ⟨trivial, fun now => ?_⟩
  have later : reserved <:+ ⟨.currentTimestamp, now⟩ :: reconciled :=
    (List.suffix_cons _ _).trans (grows.trans (List.suffix_cons _ _))
  refine (persistLease_follows rfl ?_ ?_).weaken (fun _ _ _ issuing =>
    deliverKey_follows issuing) fun _ _ _ _ => trivial
  · intro starts
    rcases resumed with rfl | ⟨resumes, _⟩
    · exact ⟨locked.mono later, admitted.mono later, payload, deployment,
        ⟨lease, configured, rfl⟩, rfl, positive⟩
    · simp [starts] at resumes
  · intro resumes
    rcases resumed with rfl | ⟨_, issuing⟩
    · cases resumes
    · exact issuing.step Iff.rfl

end Issue

section Settlement

variable {P : Protocol} {config : ServerConfig} {call : Call} {history : History Resp}
  {lease : OpenRouterLeaseRecord}

theorem finalizedTranscript_follows :
    (finalizedTranscript lease).Follows (Allowed P config call)
      (fun reached value => ∀ record, value = some record →
        Saw reached (.lookupByNullifier lease.requestNullifier) (some record) ∧
          record.status = .finalized)
      (fun _ _ => True) history := by
  simp only [finalizedTranscript, Program.follows_bind, Handler.call, Program.follows_call,
    Program.follows_pure]
  refine ⟨trivial, fun found record kept => ?_⟩
  obtain ⟨rfl, finalized⟩ := Option.filter_eq_some_iff.mp kept
  exact ⟨saw_cons.mpr (Or.inl rfl), by simpa using finalized⟩

/-- Bill a lease: write its transcript, then close the lease with the same
charge. -/
theorem bill_follows {response : ProviderResponse} {usageUsd : Float}
    (active : SawActive history lease)
    (billed : Billed P history lease response usageUsd) :
    (finalizeRequest P config lease.apiRequest response).Follows (Allowed P config call)
      (fun reached _ => Allowed P config call reached
        (.finalizeLease lease.clientRequestId usageUsd response.chargeApplied))
      (fun _ _ => True) history := by
  refine (finalizeRequest_follows (.settled active billed)).weaken ?_ fun _ _ _ _ => trivial
  rintro reached _ grows ⟨record, next, proofBytes, createdAt, finalizedAt, _, _, _, written⟩
  exact ⟨lease, active.mono grows, rfl, .settled (billed.mono grows) rfl rfl written⟩

theorem oaReceipt_follows :
    (oaReceipt P config lease).Follows (Allowed P config call)
      (fun _ receipt =>
        receipt.usageCredits ≤ lease.apiRequest.publicInputs.solvencyBound)
      (fun _ _ => True) history := by
  simp only [oaReceipt, oaGetKeyUsage, Program.follows_bind, Handler.call,
    Program.follows_call, follows_okOr, follows_ensure, follows_propagate]
  refine ⟨fun keyHash _ => ⟨fun _ => ⟨fun leaseConfig _ => ⟨fun _ => ⟨trivial, fun reply =>
    ⟨fun response _ => ⟨fun usage validated => ?_, fun _ _ => trivial⟩,
      fun _ _ => trivial⟩⟩, fun _ => trivial⟩, fun _ => trivial⟩, fun _ => trivial⟩,
    fun _ => trivial⟩
  cases usage with
  | pending retryAfterSeconds => trivial
  | finalized receipt =>
      simp only [Program.follows_bind, follows_ensure, Program.follows_pure]
      exact ⟨fun _ => validateUsageResponse_le_limit validated, fun _ => trivial⟩

theorem settleOaOrgLease_follows (source : lease.keySource = "oa_org")
    (active : SawActive history lease) :
    (settleOaOrgLease P config lease).Follows (Allowed P config call) (fun _ _ => True)
      (fun _ _ => True) history := by
  simp only [settleOaOrgLease, Program.follows_bind]
  refine finalizedTranscript_follows.weaken ?_ fun _ _ _ _ => trivial
  rintro looked (_ | record) grows found
  · simp only [Program.follows_bind]
    refine oaReceipt_follows.weaken ?_ fun _ _ _ _ => trivial
    intro received receipt later bounded
    cases built : oaSettlementPayload lease receipt with
    | none => trivial
    | some payload =>
        simp only [Program.follows_bind]
        refine (bill_follows (active.mono (grows.trans later))
          (.oaOrg source bounded built)).weaken ?_ fun _ _ _ _ => trivial
        intro reached _ _ closes
        exact ⟨closes, fun _ => by simp⟩
  · obtain ⟨seen, finalized⟩ := found record rfl
    simp only [Program.follows_bind, Handler.call, Program.follows_call, follows_propagate]
    exact ⟨⟨lease, active.mono grows, rfl, .recovered seen finalized fun _ => rfl⟩,
      fun _ => ⟨fun _ _ => trivial, fun _ _ => trivial⟩⟩

theorem settleOpenRouterLease_follows (source : lease.keySource = "openrouter")
    (active : SawActive history lease) :
    (settleOpenRouterLease P config lease).Follows (Allowed P config call)
      (fun _ _ => True) (fun _ _ => True) history := by
  simp only [settleOpenRouterLease, Program.follows_bind]
  refine finalizedTranscript_follows.weaken ?_ fun _ _ _ _ => trivial
  rintro looked (_ | record) grows found
  · simp only [getKeyUsage, Program.follows_bind, follows_okOr, Handler.call,
      Program.follows_call, follows_propagate, Program.follows_pure]
    refine ⟨fun keyHash key => ⟨trivial, fun reply => ⟨fun data decoded => ?_,
      fun _ _ => trivial⟩⟩, fun _ => trivial⟩
    obtain ⟨status, retryAfter, text, rfl, success⟩ := decodeReply_eq_ok decoded
    refine (bill_follows (active.mono (grows.trans (List.suffix_cons _ _)))
      (.openrouter source key (saw_cons.mpr (Or.inl rfl)) success)).weaken ?_
      fun _ _ _ _ => trivial
    intro reached _ _ closes
    refine ⟨closes, fun settled => ⟨fun _ _ => ?_, fun _ _ => trivial⟩⟩
    exact ignoring_follows ((deleteKey_follows keyHash).weaken
      (fun _ _ _ _ => trivial) fun _ _ _ _ => trivial)
  · obtain ⟨seen, finalized⟩ := found record rfl
    simp only [Program.follows_bind, Handler.call, Program.follows_call, follows_propagate]
    refine ⟨⟨lease, active.mono grows, rfl, .recovered seen finalized fun other => ?_⟩,
      fun _ => ⟨fun _ _ => trivial, fun _ _ => trivial⟩⟩
    rw [source] at other
    exact absurd other (by decide)

theorem settleLease_follows (active : SawActive history lease) :
    (settleLease P config lease).Follows (Allowed P config call) (fun _ _ => True)
      (fun _ _ => True) history := by
  unfold settleLease
  split
  · rename_i source
    simp only [Program.follows_bind, follows_ensure]
    exact ⟨fun _ => settleOpenRouterLease_follows source active, fun _ => trivial⟩
  split
  · rename_i source
    exact settleOaOrgLease_follows source active
  · trivial

theorem settleOrRecord_follows (active : SawActive history lease) :
    (settleOrRecord P config lease).Follows (Allowed P config call) (fun _ _ => True)
      (fun _ _ => True) history := by
  simp only [settleOrRecord, Program.follows_bind, Program.follows_attempt]
  refine (settleLease_follows active).weaken (fun _ _ _ _ => trivial) ?_
  intro reached failure _ _
  cases failure with
  | error cause => exact ⟨trivial, fun _ => trivial⟩
  | panic => trivial

theorem settleDueOpenRouterLeases_follows :
    (settleDueOpenRouterLeases P config).Follows (Allowed P config call)
      (fun _ _ => True) (fun _ _ => True) history := by
  simp only [settleDueOpenRouterLeases, Program.follows_bind, Handler.call,
    Program.follows_call]
  refine ⟨trivial, fun _ => ⟨trivial, fun now => ⟨trivial, fun due => ?_⟩⟩⟩
  have scanned : ∀ item ∈ due, ∀ reached, Saw reached (.dueLeases now) due →
      (settleOrRecord P config item).Follows (Allowed P config call)
        (fun later _ => Saw later (.dueLeases now) due) (fun _ _ => True) reached := by
    intro item member reached scanned
    exact (settleOrRecord_follows (Or.inr ⟨now, due, scanned, member⟩)).weaken
      (fun later _ grows _ => scanned.mono grows) fun _ _ _ _ => trivial
  exact (Program.follows_forEach due _ scanned (saw_cons.mpr (Or.inl rfl))).weaken
    (fun _ _ _ _ => trivial) fun _ _ _ _ => trivial

theorem settleUnlessFinalized_follows
    (seen : ∃ clientRequestId, Saw history (.lookupLease clientRequestId) (some lease)) :
    (settleUnlessFinalized P config lease).Follows (Allowed P config call)
      (fun _ _ => True) (fun _ _ => True) history := by
  obtain ⟨clientRequestId, seen⟩ := seen
  unfold settleUnlessFinalized
  split
  · trivial
  · simp only [Program.follows_bind, follows_ensure]
    exact ⟨fun active => settleLease_follows (Or.inl ⟨clientRequestId, seen, active⟩),
      fun _ => trivial⟩

theorem retireOpenRouterLease_follows (clientRequestId : String) (request : ApiRequestV2) :
    (retireOpenRouterLease P config clientRequestId request).Follows
      (Allowed P config call) (fun _ _ => True) (fun _ _ => True) history := by
  simp only [retireOpenRouterLease, Program.follows_bind, Handler.call, Program.follows_call,
    follows_okOr, follows_propagate, follows_ensure]
  refine ⟨trivial, fun _ => ⟨trivial, fun found => ⟨?_, fun _ => trivial⟩⟩⟩
  rintro lease rfl
  refine ⟨fun requestMatches _ => ⟨fun _ => ?_, fun _ => trivial⟩, fun _ _ => trivial⟩
  refine (settleUnlessFinalized_follows ⟨clientRequestId,
    saw_cons.mpr (Or.inl rfl)⟩).weaken ?_ fun _ _ _ _ => trivial
  intro settled _ _ _
  simp only [openrouterLeaseStatus, Program.follows_bind, Handler.call,
    Program.follows_call, Program.follows_pure]
  exact ⟨trivial, fun _ => ⟨fun _ _ => trivial, fun _ => trivial⟩⟩

end Settlement

theorem handler_follows (P : Protocol) (config : ServerConfig) (call : Call) :
    (handler P config call).Follows (Allowed P config call)
      (fun history value => Returns P config history call (.ok value))
      (fun history failure => Returns P config history call (.error failure)) [] := by
  cases call with
  | processRequest request => exact processRequest_follows request
  | issueOpenRouterLease request => exact issueOpenRouterLease_follows request
  | settleDueOpenRouterLeases => exact settleDueOpenRouterLeases_follows
  | retireOpenRouterLease clientRequestId request =>
      exact retireOpenRouterLease_follows clientRequestId request
  | processClearance request => exact processClearance_follows request
  | recoverByClientId clientRequestId =>
      exact ⟨trivial, fun record => ⟨record, saw_cons.mpr (Or.inl rfl), rfl⟩⟩
  | recoverByNullifier nullifier =>
      exact ⟨trivial, fun record => ⟨record, saw_cons.mpr (Or.inl rfl), rfl⟩⟩
  | openrouterLeaseStatus clientRequestId => exact ⟨trivial, fun _ => trivial⟩

/-- The discipline that every handler of the server keeps. -/
def discipline (P : Protocol) : Discipline (server P) where
  allowed := Allowed P
  returns config call history result := Returns P config history call result
  follows := handler_follows P
  execute_setting := execute_config
  finish_setting _ _ := rfl
  environment_setting moved := by rw [move_eq moved]

section Occurrences

variable {P : Protocol} {Inv : World → List (Event (server P)) → Prop}
  {trace earlier : List (Event (server P))} {task : Nat}

/-- Every operation of the trace was allowed when it was performed. -/
theorem performed_occurred (occurred : (discipline P).Occurred Inv trace) {op : Op}
    {response : Resp op} (suffix : .performed task op response :: earlier <:+ trace) :
    ∃ call world answer after, .started task call ∈ earlier ∧
      Allowed P world.config call (historyOf task earlier) op ∧
      execute P task op answer world = some (response, after) ∧ Inv world earlier :=
  occurred _ _ suffix

theorem returned_occurred (occurred : (discipline P).Occurred Inv trace) {call : Call}
    {result : Except Failure (Result call)}
    (suffix : .returned task call result :: earlier <:+ trace) :
    ∃ world, .started task call ∈ earlier ∧ Newest task earlier ∧
      Returns P world.config (historyOf task earlier) call result ∧ Inv world earlier :=
  occurred _ _ suffix

end Occurrences

/-- The rule for evidence, with what the discipline says about the server. -/
theorem server_evidence {P : Protocol} {ι : Type}
    {Base : World → List (Event (server P)) → Prop}
    {condition : List (Event (server P)) → Prop} {asserts : Event (server P) → ι → Prop}
    {holds : ι → World → Prop} (suffixClosed : SuffixClosed condition)
    (ofTasks : OfTasks asserts) (lasting : ∀ index, Lasting (server P) (holds index))
    (performed : ∀ (world after : World) (trace : List (Event (server P))) (task : Nat)
      (call : Call) (op : Op) (answer : Answer) (response : Resp op) (index : ι),
      Allowed P world.config call (historyOf task trace) op →
      execute P task op answer world = some (response, after) → Base world trace →
      condition trace → asserts (.performed task op response) index → holds index after)
    (returned : ∀ (world : World) (trace : List (Event (server P))) (task : Nat)
      (call : Call) (result : Except Failure (Result call)) (index : ι),
      Returns P world.config (historyOf task trace) call result → Base world trace →
      condition trace →
      (∀ event ∈ trace, ∀ index, asserts event index → holds index world) →
      asserts (.returned task call result) index → holds index world) :
    (discipline P).Preserved Base (Evidence condition asserts holds) :=
  evidence_preserved suffixClosed ofTasks lasting
    (fun allowed executed base met asserted =>
      performed _ _ _ _ _ _ _ _ _ allowed executed base met asserted)
    fun returns base met held asserted =>
      returned _ _ _ _ _ _ returns base met held asserted

end ZkApi
