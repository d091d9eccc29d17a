import ZkApi.ReservedRequests

/-!
# Retries of a reserved request

A request that was reserved once is recognised by every later attempt, which
then skips the checks against root, clock and proof.  A second attempt may
call the provider again and draw another next state, but only the attempt whose
transcript is stored releases its response.  All responses for a nullifier are
therefore the one that can be read off its row.
-/

namespace ZkApi

open ConstrainedTable Interleaving MachineIntegers

variable {P : Protocol}

section Recognition

/-- A lookup by an identical request recognises the row. -/
def Recognised (P : Protocol) (request : ApiRequestV2) (kind : ReservationKind)
    (row : NullifierRow) : Prop :=
  row.nullifier = P.feltToHex request.nullifier ∧
    SameRequest P request kind (rowToRecord P row) ∧
    strToStatus row.status ≠ .clearanceReserved

theorem Recognised.grows (request : ApiRequestV2) (kind : ReservationKind)
    (row grown : NullifierRow) (rowGrows : RowGrows P row grown)
    (recognised : Recognised P request kind row) : Recognised P request kind grown := by
  cases rowGrows with
  | same => exact recognised
  | finalized =>
      refine ⟨recognised.1, recognised.2.1, ?_⟩
      simp [Store.finalizedRow]
  | bound bound =>
      have unbound := bound.unbound
      have binding : row.apiRequestBinding = some _ := recognised.2.1.2.2.2
      rw [binding] at unbound
      cases unbound

/-- The event shows that an identical request is recognised. -/
def ShowsRecognition (P : Protocol) :
    Event (server P) → ApiRequestV2 × ReservationKind → Prop
  | .performed _ (.reserve request kind) (.ok ()), index => (request, kind) = index
  | .performed _ (.lookupByNullifier nullifier) (some record), index =>
      nullifier = index.1.nullifier ∧ SameRequest P index.1 index.2 record ∧
        record.status ≠ .clearanceReserved
  | _, _ => False

abbrev Recognitions (P : Protocol) : World → List (Event (server P)) → Prop :=
  Evidence (fun _ => True) (ShowsRecognition P) fun index world =>
    HasRow world (Recognised P index.1 index.2)

private theorem recognised_reservedRow (feltHex : P.FeltHexRoundTrips) (now : UInt64)
    (request : ApiRequestV2) (kind : ReservationKind) :
    Recognised P request kind (Store.reservedRow P now request.nullifier
      request.clientRequestId request.payloadHash kind.asStr
      (some (apiRequestBinding P request))) := by
  refine ⟨rfl, ⟨rfl, ?_, rfl, rfl⟩, by simp [Store.reservedRow]⟩
  exact feltHex request.payloadHash

theorem recognitions_preserved (feltHex : P.FeltHexRoundTrips) :
    (discipline P).Inductive (Recognitions P) := by
  refine server_evidence suffixClosed_true ?_
    (fun index => hasRow_lasting (Recognised.grows index.1 index.2)) ?_ ?_
  · intro event index shown
    cases event with
    | performed task op response => trivial
    | _ => cases shown
  · intro world after trace task call op answer response index _ executed _ _ shown
    unfold ShowsRecognition at shown
    split at shown
    · rename_i same
      cases same
      subst shown
      cases nullifierEffect executed with
      | kept _ passive => exact (passive trivial).elim
      | reserved _ _ inserted =>
          exact ⟨_, (Table.mem_insert inserted).mpr (Or.inr rfl),
            recognised_reservedRow feltHex world.now _ _⟩
    · rename_i same
      cases same
      obtain ⟨sameNullifier, sameRequest, status⟩ := shown
      obtain ⟨found, rfl⟩ := execute_lookupByNullifier executed
      obtain ⟨row, member, rowNullifier, rfl⟩ := lookup_eq_some found
      rw [sameNullifier] at rowNullifier
      exact ⟨row, member, rowNullifier, sameRequest, status⟩
    · exact shown.elim
  · intro world trace task call result index _ _ _ _ shown
    cases shown

theorem Admitted.recognised {world : World} {trace : List (Event (server P))}
    (recognitions : Recognitions P world trace) {task : Nat} {request : ApiRequestV2}
    {kind : ReservationKind} (admitted : Admitted P request kind (historyOf task trace)) :
    HasRow world (Recognised P request kind) := by
  rcases admitted with reserved | ⟨record, found, same, status⟩
  · exact recognitions trivial _ (saw_historyOf_iff.mp reserved) (request, kind) rfl
  · refine recognitions trivial _ (saw_historyOf_iff.mp found) (request, kind) ⟨rfl, same, ?_⟩
    rw [status]
    decide

/-- A lookup of a recognised request finds its row. -/
theorem lookup_recognised {world : World} {request : ApiRequestV2} {kind : ReservationKind}
    (recognised : HasRow world (Recognised P request kind)) :
    ∃ record, world.store.lookupByNullifier P request.nullifier = some record ∧
      SameRequest P request kind record ∧ record.status ≠ .clearanceReserved := by
  obtain ⟨row, member, nullifier, same, status⟩ := recognised
  exact ⟨_, lookup_of_mem member nullifier, same, status⟩

end Recognition

section Responses

/-- The response that every reader of a finalized row gets. -/
def Answers (P : Protocol) (response : RequestResponseV2) (row : NullifierRow) : Prop :=
  strToStatus row.status = .finalized ∧
    responseFromRecord (rowToRecord P row) (row.clientRequestId.getD "") = .ok response

theorem Answers.grows (response : RequestResponseV2) (row grown : NullifierRow)
    (rowGrows : RowGrows P row grown) (answers : Answers P response row) :
    Answers P response grown := by
  cases rowGrows with
  | same => exact answers
  | finalized _ reserved =>
      have status := answers.1
      rw [reserved, strToStatus_statusToStr] at status
      cases status
  | bound bound =>
      obtain ⟨request, _, _, rfl⟩ := bound.request
      exact answers

/-- How a row is found. -/
inductive RowKey where
  | nullifier (nullifier : Felt252)
  | clientId (clientRequestId : String)

def RowKey.Of (P : Protocol) : RowKey → NullifierRow → Prop
  | .nullifier felt, row => row.nullifier = P.feltToHex felt
  | .clientId clientRequestId, row => row.clientRequestId = some clientRequestId

theorem RowKey.Of.grows (key : RowKey) (row grown : NullifierRow)
    (rowGrows : RowGrows P row grown) (found : key.Of P row) : key.Of P grown := by
  cases rowGrows with
  | same => exact found
  | finalized => cases key <;> exact found
  | bound bound =>
      obtain ⟨request, _, _, rfl⟩ := bound.request
      cases key <;> exact found

/-- A stored record from which this response is read. -/
def Carries (record : TranscriptRecord) (response : RequestResponseV2) : Prop :=
  record.status = .finalized ∧
    responseFromRecord record (record.clientRequestId.getD "") = .ok response

/-- The event shows the response of a row. -/
def ShowsResponse : Event (server P) → RowKey × RequestResponseV2 → Prop
  | .performed _ (.lookupByNullifier nullifier) (some record), index =>
      .nullifier nullifier = index.1 ∧ Carries record index.2
  | .performed _ (.lookupByClientId clientRequestId) (some record), index =>
      .clientId clientRequestId = index.1 ∧ Carries record index.2
  | .returned _ (.processRequest request) (.ok response), index =>
      (.nullifier request.nullifier, response) = index
  | .returned _ (.recoverByNullifier nullifier) (.ok recovery), index =>
      .nullifier nullifier = index.1 ∧ recovery.requestResponse = some index.2
  | .returned _ (.recoverByClientId clientRequestId) (.ok recovery), index =>
      .clientId clientRequestId = index.1 ∧ recovery.requestResponse = some index.2
  | _, _ => False

theorem carries_of_recovery {record : Option TranscriptRecord} {response : RequestResponseV2}
    (found : ((record.map recoveryFromRecord).getD notFoundRecovery).requestResponse =
      some response) : ∃ stored, record = some stored ∧ Carries stored response := by
  cases record with
  | none => cases found
  | some stored =>
      refine ⟨stored, rfl, ?_⟩
      change (recoveryFromRecord stored).requestResponse = some response at found
      unfold recoveryFromRecord at found
      dsimp only at found
      split at found
      · rename_i finalized
        refine ⟨finalized, ?_⟩
        cases read : responseFromRecord stored (stored.clientRequestId.getD "") with
        | error cause =>
            rw [read] at found
            cases found
        | ok value =>
            rw [read] at found
            cases found
            rfl
      · cases found

private theorem parseOptFelt_map (feltHex : P.FeltHexRoundTrips) (felt : Option Felt252) :
    parseOptFelt P (felt.map P.feltToHex) = felt := by
  cases felt with
  | none => rfl
  | some felt => exact feltHex felt

/-- The response read from a transcript is the one that was released with it. -/
theorem responseFromRecord_written (feltHex : P.FeltHexRoundTrips)
    (signatureJson : P.SignatureJsonRoundTrips) {request : ApiRequestV2} {kind : String}
    {provided : ProviderResponse} {next : NextState} {proofBytes : List UInt8}
    {createdAt finalizedAt now : UInt64} {old : NullifierRow}
    (fits : provided.chargeApplied < 2 ^ 63)
    (nullifier : old.nullifier = P.feltToHex request.nullifier) :
    responseFromRecord (rowToRecord P (Store.finalizedRow P now
      (transcriptOf P request kind provided next proofBytes createdAt finalizedAt) old))
      request.clientRequestId = .ok (responseOf P request provided next) := by
  have signature : (some (P.signatureToJson next.signature)).bind P.signatureFromJson =
      some next.signature := signatureJson next.signature
  have evidenceHash := parseOptFelt_map feltHex provided.policyEvidenceHash
  have responseHash := parseOptFelt_map feltHex (some (P.canonicalResponseHash provided.payload))
  have commitmentX := parseOptFelt_map feltHex (some next.commitment.x)
  have commitmentY := parseOptFelt_map feltHex (some next.commitment.y)
  have anchor := parseOptFelt_map feltHex (some next.anchor)
  have blindDelta := parseOptFelt_map feltHex (some next.blindDelta)
  simp only [Option.map_some] at responseHash commitmentX commitmentY anchor blindDelta
  simp only [responseFromRecord, rowToRecord, Store.finalizedRow, transcriptOf, responseOf,
    Option.map_some, signature, evidenceHash, responseHash, commitmentX, commitmentY, anchor,
    blindDelta, Option.getD_some, nullifier, feltHex request.nullifier, asU128_asI64 fits,
    i32AsU16_u16AsI32, Option.map_map]
  congr
  cases provided.policyReasonCode with
  | none => rfl
  | some code => simp

/-- In a run under one configuration, every response that was shown can be read
off its row. -/
abbrev Responses (P : Protocol) (initial : ServerConfig) :
    World → List (Event (server P)) → Prop :=
  Evidence (KeepsConfig initial) ShowsResponse fun index world =>
    HasRow world fun row => index.1.Of P row ∧ Answers P index.2 row

private theorem hasRow_of_record {world : World} {key : RowKey} {row : NullifierRow}
    {response : RequestResponseV2} (member : row ∈ world.store.nullifiers)
    (found : key.Of P row) (carries : Carries (rowToRecord P row) response) :
    HasRow world fun row => key.Of P row ∧ Answers P response row :=
  ⟨row, member, found, carries⟩

private theorem chargeCap_lt {config : ServerConfig} {request : ApiRequestV2}
    {provided : ProviderResponse} (requestCap : config.requestChargeCap < 2 ^ 63)
    (policyCap : config.policyChargeCap < 2 ^ 63) :
    chargeCap config ReservationKind.proxy.asStr request provided < 2 ^ 63 := by
  have notLease : ReservationKind.proxy.asStr ≠ ReservationKind.openRouterLease.asStr := by
    decide
  unfold chargeCap
  rw [if_neg notLease]
  split
  · exact policyCap
  · exact requestCap

/-- The response of an attempt that stored its transcript is in its row. -/
private theorem answers_of_finalized (feltHex : P.FeltHexRoundTrips)
    (signatureJson : P.SignatureJsonRoundTrips) {initial : ServerConfig}
    (requestCap : initial.requestChargeCap < 2 ^ 63)
    (policyCap : initial.policyChargeCap < 2 ^ 63) {world : World}
    {trace : List (Event (server P))} (config : world.config = initial)
    (transcripts : Transcripts P world trace) (kinds : Kinds P world trace)
    {task : Nat} {request : ApiRequestV2} {provided : ProviderResponse}
    {response : RequestResponseV2} (recognised : HasRow world (Recognised P request .proxy))
    (finalized : Finalized P world.config (historyOf task trace) request provided response) :
    HasRow world fun row =>
      (RowKey.nullifier request.nullifier).Of P row ∧ Answers P response row := by
  obtain ⟨record, next, proofBytes, createdAt, finalizedAt, rfl, bounded, found, written⟩ :=
    finalized
  obtain ⟨row, member, nullifier, same, status⟩ := recognised
  have bound : HasRow world (BoundTo P request .proxy) :=
    ⟨row, member, nullifier, same.2.2.1, same.2.2.2⟩
  have fits : provided.chargeApplied < 2 ^ 63 := by
    rw [kind_of_boundTo kinds bound found, config] at bounded
    exact lt_of_le_of_lt bounded (chargeCap_lt requestCap policyCap)
  obtain ⟨other, otherMember, otherNullifier, now, old, rfl⟩ :=
    transcripts trivial _ (saw_historyOf_iff.mp written) (request.nullifier, _) rfl
  obtain rfl := row_unique member otherMember (nullifier.trans otherNullifier.symm)
  refine ⟨_, member, nullifier, by simp [Store.finalizedRow], ?_⟩
  have clientRequestId : old.clientRequestId = some request.clientRequestId := same.1
  have sameId : (Store.finalizedRow P now (transcriptOf P request record.reservationKind
      provided next proofBytes createdAt finalizedAt) old).clientRequestId.getD "" =
        request.clientRequestId := by
    change old.clientRequestId.getD "" = request.clientRequestId
    rw [clientRequestId, Option.getD_some]
  exact sameId ▸ responseFromRecord_written feltHex signatureJson fits otherNullifier

theorem responses_preserved (feltHex : P.FeltHexRoundTrips)
    (signatureJson : P.SignatureJsonRoundTrips) {initial : ServerConfig}
    (requestCap : initial.requestChargeCap < 2 ^ 63)
    (policyCap : initial.policyChargeCap < 2 ^ 63) :
    (discipline P).Preserved
      (fun world trace => Remembers P initial world trace ∧ Recognitions P world trace)
      (Responses P initial) := by
  refine server_evidence (keepsConfig_suffixClosed initial) ?_ (fun index =>
    hasRow_lasting fun row grown rowGrows held =>
      ⟨RowKey.Of.grows index.1 row grown rowGrows held.1,
        Answers.grows index.2 row grown rowGrows held.2⟩) ?_ ?_
  · intro event index shown
    cases event with
    | performed task op response => trivial
    | returned task call result => trivial
    | _ => cases shown
  · rintro world after trace task call op answer response ⟨key, answered⟩ _ executed _ _ shown
    unfold ShowsResponse at shown
    split at shown
    · rename_i same
      cases same
      obtain ⟨rfl, carries⟩ := shown
      obtain ⟨found, rfl⟩ := execute_lookupByNullifier executed
      obtain ⟨row, member, rowNullifier, rfl⟩ := lookup_eq_some found
      exact hasRow_of_record member rowNullifier carries
    · rename_i same
      cases same
      obtain ⟨rfl, carries⟩ := shown
      obtain ⟨found, rfl⟩ := execute_lookupByClientId executed
      obtain ⟨row, first, rfl⟩ := Option.map_eq_some_iff.mp found
      obtain ⟨member, satisfied⟩ := Table.first_eq_some first
      have sameId : row.clientRequestId = some _ := of_decide_eq_true satisfied
      exact hasRow_of_record member sameId carries
    all_goals
      rename_i same
      try cases same
    cases shown
  · rintro world trace task call result ⟨key, answered⟩ returns ⟨remembers, recognitions⟩ keeps
      held shown
    unfold ShowsResponse at shown
    split at shown
    · rename_i same
      cases same
    · rename_i same
      cases same
    · rename_i same
      cases same
      cases shown
      rcases returns with replayed | ⟨admitted, provided, finalized⟩
      · obtain ⟨record, found, same, status, read⟩ := replayed
        refine held _ (saw_historyOf_iff.mp found) _ ⟨rfl, status, ?_⟩
        rw [same.1]
        exact read
      · have config := remembers.1.trans (configAt_eq_of_keeps keeps)
        exact answers_of_finalized feltHex signatureJson requestCap policyCap config
          remembers.2.2.1 remembers.2.2.2 (admitted.recognised recognitions) finalized
    · rename_i same
      cases same
      obtain ⟨rfl, carried⟩ := shown
      obtain ⟨record, found, rfl⟩ := returns
      obtain ⟨stored, rfl, carries⟩ := carries_of_recovery carried
      exact held _ (saw_historyOf_iff.mp found) _ ⟨rfl, carries⟩
    · rename_i same
      cases same
      obtain ⟨rfl, carried⟩ := shown
      obtain ⟨record, found, rfl⟩ := returns
      obtain ⟨stored, rfl, carries⟩ := carries_of_recovery carried
      exact held _ (saw_historyOf_iff.mp found) _ ⟨rfl, carries⟩
    · cases shown

end Responses

section Retries

/-- The errors that reject a request for good. -/
def ServerError.Refuses : ServerError → Prop
  | .replay => True
  | .staleRoot _ => True
  | .invalidRequest _ => True
  | .invalidProof _ => True
  | _ => False

/-- Finalization cannot compute the next state of the request. -/
def Unfinalizable (P : Protocol) (request : ApiRequestV2) (message : String) : Prop :=
  P.base64Decode request.proof.proof = .error message ∨
    ∃ charge blindDelta, P.serverUpdate ⟨request.publicInputs.anonymousCommitmentX,
      request.publicInputs.anonymousCommitmentY⟩ charge blindDelta = .error message

theorem execute_finalize_error {task : Nat} {nullifier : Felt252}
    {transcript : TranscriptRecord} {answer : Answer} {world after : World}
    {cause : ServerError} (executed : execute P task (.finalize nullifier transcript) answer
      world = some (.error cause, after)) : ¬ cause.Refuses := by
  have response := congrArg Prod.fst (Option.some.inj executed)
  change (world.store.finalize P world.now nullifier transcript).1 = .error cause at response
  unfold Store.finalize at response
  split at response
  · cases response
    exact id
  · split at response
    · cases response
      exact id
    · cases response

/-- The invariant that the retries of a run rest on. -/
private abbrev RetryBase (P : Protocol) (initial : ServerConfig) (world : World)
    (trace : List (Event (server P))) : Prop :=
  Remembers P initial world trace ∧ Recognitions P world trace

/-- A task that starts after the reservation finds it. -/
private theorem lookup_after_reservation {initial : ServerConfig}
    {trace before : List (Event (server P))} {task reserver : Nat} {call : Call}
    {request : ApiRequestV2} (occurred : (discipline P).Occurred (RetryBase P initial) trace)
    (start : .started task call :: before <:+ trace)
    (reserved : .performed reserver (.reserve request .proxy) (.ok ()) ∈ before)
    {found : Option TranscriptRecord}
    (looked : .performed task (.lookupByNullifier request.nullifier) found ∈ trace) :
    ∃ record, found = some record ∧ SameRequest P request .proxy record ∧
      record.status ≠ .clearanceReserved := by
  obtain ⟨later, earlier, split⟩ := List.append_of_mem looked
  have suffix : .performed task (.lookupByNullifier request.nullifier) found :: earlier <:+
      trace := ⟨later, split.symm⟩
  obtain ⟨other, world, answer, after, started, _, executed, base⟩ :=
    performed_occurred occurred suffix
  have within := occurred.started_suffix start
    ((List.suffix_cons _ earlier).trans suffix) started
  have member : .performed reserver (.reserve request .proxy) (.ok ()) ∈ earlier :=
    within.subset (List.mem_cons_of_mem _ reserved)
  have recognised := base.2 trivial _ member (request, .proxy) rfl
  obtain ⟨record, stored, same, status⟩ := lookup_recognised recognised
  obtain ⟨response, _⟩ := execute_lookupByNullifier executed
  exact ⟨record, response.symm.trans stored, same, status⟩

/-- A retry is refused only by the provider or because the request cannot be
finalized. -/
theorem retry_not_refused {initial : ServerConfig}
    {trace before : List (Event (server P))} {task reserver : Nat}
    {request : ApiRequestV2} {cause : ServerError}
    (occurred : (discipline P).Occurred (RetryBase P initial) trace)
    (start : .started task (.processRequest request) :: before <:+ trace)
    (reserved : .performed reserver (.reserve request .proxy) (.ok ()) ∈ before)
    (answered : .returned task (.processRequest request) (.error (.error cause)) ∈ trace)
    (refuses : cause.Refuses) :
    .performed task (.execute request.clientRequestId request.payload request.payloadHash)
        (.error cause) ∈ trace ∨
      ∃ message, cause = .invalidProof message ∧ Unfinalizable P request message := by
  obtain ⟨later, earlier, split⟩ := List.append_of_mem answered
  have suffix : .returned task (.processRequest request) (.error (.error cause)) :: earlier <:+
      trace := ⟨later, split.symm⟩
  have past : earlier <:+ trace := (List.suffix_cons _ earlier).trans suffix
  obtain ⟨world, started, _, returns, base⟩ := returned_occurred occurred suffix
  have lookups : ∀ found, Saw (historyOf task earlier)
      (.lookupByNullifier request.nullifier) found → ∃ record, found = some record ∧
        SameRequest P request .proxy record ∧ record.status ≠ .clearanceReserved := by
    intro found saw
    exact lookup_after_reservation occurred start reserved
      (past.subset (saw_historyOf_iff.mp saw))
  rcases returns with rejected | ⟨_, same, executed⟩ | ⟨charge, _, same, unfinalized⟩
  · exfalso
    obtain ⟨_, same, reason⟩ := rejected
    cases same
    rcases reason with payload | ⟨_, rfl⟩ | ⟨_, rfl⟩ | missing | ⟨record, found, onlyCleared⟩
    · have reservedInTrace := start.subset (List.mem_cons_of_mem _ reserved)
      obtain ⟨_, place⟩ := List.append_of_mem reservedInTrace
      obtain ⟨tail, place⟩ := place
      obtain ⟨_, _, _, _, _, allowed, _⟩ := performed_occurred occurred ⟨_, place.symm⟩
      obtain ⟨_, _, _, _, _, checked⟩ := allowed
      exact payload checked.payload
    · exact refuses
    · exact refuses
    · obtain ⟨_, impossible, _⟩ := lookups none missing
      cases impossible
    · obtain ⟨_, sameRecord, sameRequest, status⟩ := lookups _ found
      cases sameRecord
      exact status (onlyCleared sameRequest)
  · cases same
    exact Or.inl (past.subset (saw_historyOf_iff.mp executed))
  · cases same
    rcases unfinalized with ⟨_, rfl⟩ | ⟨message, blindDelta, rfl, failed⟩ |
      ⟨message, rfl, failed⟩ | ⟨transcript, refused⟩
    · exact refuses.elim
    · exact Or.inr ⟨message, rfl, Or.inr ⟨charge, blindDelta, failed⟩⟩
    · exact Or.inr ⟨message, rfl, Or.inl failed⟩
    · exfalso
      obtain ⟨_, place⟩ := List.append_of_mem (past.subset (saw_historyOf_iff.mp refused))
      obtain ⟨tail, place⟩ := place
      obtain ⟨_, _, _, _, _, _, executed, _⟩ := performed_occurred occurred ⟨_, place.symm⟩
      exact execute_finalize_error executed refuses

/-- A response that was returned for the nullifier of a request.  Recovery by
client id speaks about that nullifier as long as no other row carries the id. -/
inductive Answered (P : Protocol) (state : State (server P)) (request : ApiRequestV2) :
    RequestResponseV2 → Prop
  | processed {task : Nat} {other : ApiRequestV2} {response : RequestResponseV2}
      (sameNullifier : other.nullifier = request.nullifier)
      (returned : .returned task (.processRequest other) (.ok response) ∈ state.trace) :
      Answered P state request response
  | byNullifier {task : Nat} {recovery : RecoveryResponseV2} {response : RequestResponseV2}
      (returned : .returned task (.recoverByNullifier request.nullifier) (.ok recovery) ∈
        state.trace) (carried : recovery.requestResponse = some response) :
      Answered P state request response
  | byClientId {task : Nat} {recovery : RecoveryResponseV2} {response : RequestResponseV2}
      (unique : ∀ row ∈ state.world.store.nullifiers,
        row.clientRequestId = some request.clientRequestId →
          row.nullifier = P.feltToHex request.nullifier)
      (returned : .returned task (.recoverByClientId request.clientRequestId) (.ok recovery) ∈
        state.trace) (carried : recovery.requestResponse = some response) :
      Answered P state request response

theorem Answered.hasRow {initial : ServerConfig} {state : State (server P)}
    (responses : Responses P initial state.world state.trace)
    (keeps : KeepsConfig initial state.trace) {request : ApiRequestV2}
    {response : RequestResponseV2} (answered : Answered P state request response) :
    HasRow state.world fun row =>
      row.nullifier = P.feltToHex request.nullifier ∧ Answers P response row := by
  cases answered with
  | processed sameNullifier returned =>
      have shown := responses keeps _ returned (.nullifier _, response) rfl
      rw [sameNullifier] at shown
      exact shown
  | byNullifier returned carried =>
      exact responses keeps _ returned (.nullifier request.nullifier, response) ⟨rfl, carried⟩
  | byClientId unique returned carried =>
      obtain ⟨row, member, sameId, answers⟩ := responses keeps _ returned
        (.clientId request.clientRequestId, response) ⟨rfl, carried⟩
      exact ⟨row, member, unique row member sameId, answers⟩

/-- In every run under one configuration with caps below `2 ^ 63`: an attempt
at a request that starts after the request was reserved is refused only by the
provider or because the request cannot be finalized, and all responses returned
for its nullifier are the same. -/
theorem retry_agreement (P : Protocol) (feltHex : P.FeltHexRoundTrips)
    (signatureJson : P.SignatureJsonRoundTrips) (world : World)
    (requestCap : world.config.requestChargeCap < 2 ^ 63)
    (policyCap : world.config.policyChargeCap < 2 ^ 63) {state : State (server P)}
    (run : (State.initial (server P) world).Reaches state)
    (keeps : KeepsConfig world.config state.trace) (request : ApiRequestV2) :
    (∀ task reserver before cause,
      .started task (.processRequest request) :: before <:+ state.trace →
      .performed reserver (.reserve request .proxy) (.ok ()) ∈ before →
      .returned task (.processRequest request) (.error (.error cause)) ∈ state.trace →
      cause.Refuses →
        .performed task (.execute request.clientRequestId request.payload
          request.payloadHash) (.error cause) ∈ state.trace ∨
        ∃ message, cause = .invalidProof message ∧ Unfinalizable P request message) ∧
    ∀ first second, Answered P state request first → Answered P state request second →
      first = second := by
  have base := (remembers_preserved (P := P) world.config).both (recognitions_preserved feltHex)
  have initially : RetryBase P world.config world [] :=
    ⟨remembers_initial world, evidence_initial (M := server P) world⟩
  constructor
  · intro task reserver before cause start reserved answered refuses
    exact retry_not_refused (base.occurred_holds initially run) start reserved answered refuses
  · intro first second firstAnswered secondAnswered
    have responses := (base.and (responses_preserved feltHex signatureJson requestCap
      policyCap)).holds ⟨initially, evidence_initial (M := server P) world⟩ run |>.2
    obtain ⟨row, member, nullifier, _, firstRead⟩ := firstAnswered.hasRow responses keeps
    obtain ⟨other, otherMember, otherNullifier, _, secondRead⟩ :=
      secondAnswered.hasRow responses keeps
    obtain rfl := row_unique member otherMember (nullifier.trans otherNullifier.symm)
    exact Except.ok.inj (firstRead.symm.trans secondRead)

/-- The first attempt at a request is lost after the reservation; the retry
succeeds although root and clock have moved on, and so do a replay and a
recovery. -/
noncomputable def retryAfterFailure : List (Action (server Reference.protocol)) :=
  let request := Reference.proxyRequest
  Reference.runs 0 (.processRequest request)
      [.nothing, .nothing, .nothing, .nothing, .executed (.error (.internal "timed out"))] ++
    [.move (.updateRoot ⟨12⟩), .move (.setClock 9000)] ++
    Reference.runs 1 (.processRequest request)
      ([.nothing] ++ (Reference.requestAnswers 10).drop 4) ++
    Reference.runs 2 (.processRequest request) [.nothing] ++
    Reference.runs 3 (.recoverByNullifier ⟨6⟩) [.nothing]

def retryResponse : RequestResponseV2 :=
  ⟨"ok", "req-1", ⟨6⟩, 200, "hi", ⟨2⟩, 10, ⟨⟨13⟩, ⟨1⟩⟩, ⟨2⟩, ⟨1⟩, ⟨3⟩, none, none⟩

theorem retry_agreement_afterFailure :
    ∃ state, (State.initial (server Reference.protocol)
        (Reference.world (Reference.config 10 1 false none))).Reaches state ∧
      .returned 1 (.processRequest Reference.proxyRequest)
        (.ok retryResponse) ∈ state.trace ∧
      ∀ response, Answered Reference.protocol state Reference.proxyRequest
        response → response = retryResponse := by
  have reached : ∃ state, (State.initial (server Reference.protocol)
        (Reference.world (Reference.config 10 1 false none))).Reaches state ∧
      KeepsConfig (Reference.config 10 1 false none) state.trace ∧
      .returned 1 (.processRequest Reference.proxyRequest)
        (.ok retryResponse) ∈ state.trace :=
    State.reaches_of_decide retryAfterFailure (by set_option maxRecDepth 20000 in decide)
  obtain ⟨state, run, keeps, answered⟩ := reached
  refine ⟨state, run, answered, fun response other => ?_⟩
  exact (retry_agreement Reference.protocol Reference.feltHexRoundTrips
    Reference.signatureJsonRoundTrips _ (by decide) (by decide) run keeps
    Reference.proxyRequest).2 _ _ other (.processed rfl answered)

/-- Two attempts at a request look it up before either reserves it, and a third
one is sent after the reservation. -/
noncomputable def refusedRetries : List (Action (server Reference.protocol)) :=
  let request := Reference.proxyRequest
  Reference.runs 0 (.processRequest request) [.nothing] ++
    Reference.runs 1 (.processRequest request) [.nothing, .nothing, .nothing] ++
    [.advance 0 .nothing, .advance 0 .nothing, .advance 0 .nothing, .advance 1 .nothing,
      .advance 0 (.executed (.error (.internal "timed out")))] ++
    Reference.runs 2 (.processRequest request)
      [.nothing, .executed (.error (.invalidRequest
        "OpenAI is not configured on this server (no OpenAI key)"))]

/-- The duplicate that lost the race is answered with a replay, and a retry
that starts after the reservation is answered with the provider's refusal. -/
theorem retries_refused :
    ∃ state, (State.initial (server Reference.protocol)
        (Reference.world (Reference.config 10 1 false none))).Reaches state ∧
      KeepsConfig (Reference.config 10 1 false none) state.trace ∧
      (∃ before, .returned 1 (.processRequest Reference.proxyRequest)
          (.error (.error .replay)) :: before <:+ state.trace ∧
        .performed 0 (.reserve Reference.proxyRequest .proxy) (.ok ()) ∈
          before) ∧
      ∃ before, .started 2 (.processRequest Reference.proxyRequest) ::
          before <:+ state.trace ∧
        .performed 0 (.reserve Reference.proxyRequest .proxy) (.ok ()) ∈
          before ∧
        .returned 2 (.processRequest Reference.proxyRequest)
          (.error (.error (.invalidRequest
            "OpenAI is not configured on this server (no OpenAI key)"))) ∈ state.trace := by
  have reached : ∃ state, (State.initial (server Reference.protocol)
        (Reference.world (Reference.config 10 1 false none))).Reaches state ∧
      KeepsConfig (Reference.config 10 1 false none) state.trace ∧
      (.returned 1 (.processRequest Reference.proxyRequest)
          (.error (.error .replay)) :: state.trace.drop 7 <:+ state.trace ∧
        .performed 0 (.reserve Reference.proxyRequest .proxy) (.ok ()) ∈
          state.trace.drop 7) ∧
      .started 2 (.processRequest Reference.proxyRequest) ::
          state.trace.drop 4 <:+ state.trace ∧
        .performed 0 (.reserve Reference.proxyRequest .proxy) (.ok ()) ∈
          state.trace.drop 4 ∧
        .returned 2 (.processRequest Reference.proxyRequest)
          (.error (.error (.invalidRequest
            "OpenAI is not configured on this server (no OpenAI key)"))) ∈ state.trace :=
    State.reaches_of_decide refusedRetries (by set_option maxRecDepth 20000 in decide)
  obtain ⟨state, run, keeps, duplicate, retry⟩ := reached
  exact ⟨state, run, keeps, ⟨_, duplicate⟩, ⟨_, retry⟩⟩

end Retries

end ZkApi
