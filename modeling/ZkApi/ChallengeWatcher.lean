import ZkApi.FinalizedTranscripts
import ZkApi.ReferenceProtocol

/-!
# The challenge watcher

A stale escape withdrawal is challenged with the archived request of its
nullifier.  The processor archives the public inputs of version 2, and the
watcher decodes the archive as public inputs of version 1, which have a
statement type.  So no request that the processor has finalized can be
challenged.
-/

namespace ZkApi

open ConstrainedTable Interleaving JsonText

/-- `RequestPublicInputs`, the public inputs of version 1. -/
structure RequestPublicInputs where
  statementType : Nat
  protocolVersion : Nat
  chainId : Nat
  contractAddress : Felt252
  activeRoot : Felt252
  stateSigEpoch : Nat
  stateSigRoot : Felt252
  requestNullifier : Felt252
  anonCommitmentX : Felt252
  anonCommitmentY : Felt252
  expiryTs : Nat
  solvencyBound : Nat
deriving DecidableEq

section Decoding

variable (P : Protocol)

/-- A field of an object that has no default.  The texts of the errors leave out
the quotes around the name and the position in the text. -/
def requiredField {α : Type} (value : Json) (name : String) (decode : Json → Option α) :
    Except String α :=
  match value.field? name with
  | none => .error ("missing field " ++ name)
  | some field =>
      match decode field with
      | none => .error ("invalid type for field " ++ name)
      | some decoded => .ok decoded

/-- An unsigned integer of this many bits. -/
def decodeUnsigned (bits : Nat) : Json → Option Nat
  | .integer value => if value < 2 ^ bits then some value else none
  | _ => none

def decodeFelt (value : Json) : Option Felt252 :=
  value.asString.bind P.feltFromHex

def RequestPublicInputs.ofJson (value : Json) : Except String RequestPublicInputs := do
  let statementType ← requiredField value "statement_type" (decodeUnsigned 8)
  let protocolVersion ← requiredField value "protocol_version" (decodeUnsigned 16)
  let chainId ← requiredField value "chain_id" (decodeUnsigned 64)
  let contractAddress ← requiredField value "contract_address" (decodeFelt P)
  let activeRoot ← requiredField value "active_root" (decodeFelt P)
  let stateSigEpoch ← requiredField value "state_sig_epoch" (decodeUnsigned 32)
  let stateSigRoot ← requiredField value "state_sig_root" (decodeFelt P)
  let requestNullifier ← requiredField value "request_nullifier" (decodeFelt P)
  let anonCommitmentX ← requiredField value "anon_commitment_x" (decodeFelt P)
  let anonCommitmentY ← requiredField value "anon_commitment_y" (decodeFelt P)
  let expiryTs ← requiredField value "expiry_ts" (decodeUnsigned 64)
  let solvencyBound ← requiredField value "solvency_bound" (decodeUnsigned 128)
  return ⟨statementType, protocolVersion, chainId, contractAddress, activeRoot, stateSigEpoch,
    stateSigRoot, requestNullifier, anonCommitmentX, anonCommitmentY, expiryTs, solvencyBound⟩

/-- `serde_json::from_str::<RequestPublicInputs>`. -/
def requestPublicInputsFromStr (text : String) : Except String RequestPublicInputs :=
  match P.jsonFromStr text with
  | none => .error "invalid JSON"
  | some value => RequestPublicInputs.ofJson P value

end Decoding

/-- The calldata of a challenge. -/
structure ChallengeAction (depth : Nat) where
  noteId : UInt32
  requestInputs : RequestPublicInputs
  proofArtifact : List UInt8
  siblings : Vector Felt252 depth

section Watcher

variable (P : Protocol) (store : Store)

def archivedTranscript (nullifier : Felt252) : Option TranscriptRecord :=
  (store.lookupByNullifier P nullifier).filter fun record => record.status = .finalized

def buildChallengeAction {depth : Nat} (noteId : UInt32) (nullifier : Felt252)
    (siblings : Vector Felt252 depth) : Except String (ChallengeAction depth) :=
  match archivedTranscript P store nullifier with
  | none => .error "no finalized transcript for nullifier"
  | some record =>
      match record.requestInputsJson with
      | none => .error "missing archived request inputs"
      | some requestInputsJson =>
          match requestPublicInputsFromStr P requestInputsJson with
          | .error error => .error ("invalid archived request inputs: " ++ error)
          | .ok requestInputs =>
              if requestInputs.requestNullifier ≠ nullifier then
                .error "archived request nullifier mismatch"
              else
                match record.proofBlob with
                | none => .error "missing archived proof blob"
                | some proofArtifact => .ok ⟨noteId, requestInputs, proofArtifact, siblings⟩

end Watcher

section Archive

variable {P : Protocol}

/-- The archived inputs of a request lack a field that the watcher requires. -/
theorem requestPublicInputsFromStr_archived (faithful : P.JsonFaithful)
    (inputs : RequestPublicInputsV2) :
    requestPublicInputsFromStr P (P.jsonToString (inputs.toJson P)) =
      .error "missing field statement_type" := by
  obtain ⟨parsed, parses, same⟩ := faithful
    [("protocol_version", .integer inputs.protocolVersion.toNat),
      ("chain_id", .integer inputs.chainId.toNat),
      ("contract_address", .string (P.feltToHex inputs.contractAddress)),
      ("active_root", .string (P.feltToHex inputs.activeRoot)),
      ("state_signing_key_x", .string (P.feltToHex inputs.stateSigningKeyX)),
      ("state_signing_key_y", .string (P.feltToHex inputs.stateSigningKeyY)),
      ("request_time", .integer inputs.requestTime.toNat),
      ("solvency_bound", .integer inputs.solvencyBound),
      ("request_nullifier", .string (P.feltToHex inputs.requestNullifier)),
      ("authorization_tag", .string (P.feltToHex inputs.authorizationTag)),
      ("anonymous_commitment_x", .string (P.feltToHex inputs.anonymousCommitmentX)),
      ("anonymous_commitment_y", .string (P.feltToHex inputs.anonymousCommitmentY))]
  have missing : parsed.lookup "statement_type" = none := (same "statement_type").1.mpr rfl
  rw [requestPublicInputsFromStr, RequestPublicInputsV2.toJson, parses]
  simp only [RequestPublicInputs.ofJson, requiredField, Json.field?, missing]
  rfl

/-- The watcher refuses every finalization of a run. -/
theorem buildChallengeAction_finalized (faithful : P.JsonFaithful) {world : World}
    {state : State (server P)} (run : (State.initial (server P) world).Reaches state)
    {task : Nat} {nullifier : Felt252} {transcript : TranscriptRecord}
    (finalized : .performed task (.finalize nullifier transcript) (.ok ()) ∈ state.trace)
    {depth : Nat} (noteId : UInt32) (siblings : Vector Felt252 depth) :
    buildChallengeAction P state.world.store noteId nullifier siblings =
      .error "invalid archived request inputs: missing field statement_type" := by
  have remembers := (remembers_preserved (P := P) world.config).holds (remembers_initial world) run
  have occurred := (remembers_preserved (P := P) world.config).occurred_holds
    (remembers_initial world) run
  obtain ⟨earlier, suffix, call, _, _, _, _, allowed, _⟩ := occurred.of_mem finalized
  obtain ⟨request, response, rfl, _, record, next, proofBytes, createdAt, finalizedAt, _, _,
    rfl⟩ := allowed
  obtain ⟨row, member, rowNullifier, writtenAt, old, rfl⟩ :=
    remembers.2.2.1 trivial _ finalized (request.nullifier, _) rfl
  have found := lookup_of_mem (P := P) member rowNullifier
  have archived : archivedTranscript P state.world.store request.nullifier = _ :=
    congrArg (Option.filter _) found
  rw [buildChallengeAction, archived]
  change (match requestPublicInputsFromStr P
    (P.jsonToString (request.publicInputs.toJson P)) with
    | .error error => _
    | .ok requestInputs => _) = _
  rw [requestPublicInputsFromStr_archived faithful]
  rfl

/-- No request that the processor has finalized can be challenged from the
archive. -/
theorem challenges_refused (P : Protocol) (faithful : P.JsonFaithful) (world : World)
    {state : State (server P)} (run : (State.initial (server P) world).Reaches state)
    (task : Nat) (nullifier : Felt252) (transcript : TranscriptRecord)
    (finalized : .performed task (.finalize nullifier transcript) (.ok ()) ∈ state.trace)
    {depth : Nat} (noteId : UInt32) (siblings : Vector Felt252 depth) :
    ¬ ∃ action, buildChallengeAction P state.world.store noteId nullifier siblings =
      .ok action := by
  rintro ⟨action, built⟩
  rw [buildChallengeAction_finalized faithful run finalized] at built
  cases built

/-- A run in which a proxied request is finalized. -/
private theorem reaches_finalized :
    ∃ state, (State.initial (server Reference.protocol)
        (Reference.world (Reference.config 10 1 false none))).Reaches state ∧
      ∃ task transcript,
        .performed task (.finalize ⟨6⟩ transcript) (.ok ()) ∈ state.trace := by
  have reached : ∃ state, (State.initial (server Reference.protocol)
        (Reference.world (Reference.config 10 1 false none))).Reaches state ∧
      state.trace.countP (isFinalization ⟨6⟩) = 1 :=
    State.reaches_of_decide (Reference.runs 0 (.processRequest Reference.proxyRequest)
      (Reference.requestAnswers 10)) (by decide)
  obtain ⟨state, run, finalized⟩ := reached
  have positive : 0 < state.trace.countP (isFinalization ⟨6⟩) := by omega
  obtain ⟨event, member, finalizes⟩ := List.countP_pos_iff.mp positive
  obtain ⟨task, transcript, rfl⟩ := isFinalization_iff.mp finalizes
  exact ⟨state, run, task, transcript, member⟩

theorem challenges_refused_proxied :
    ∃ state, (State.initial (server Reference.protocol)
        (Reference.world (Reference.config 10 1 false none))).Reaches state ∧
      ¬ ∃ action, buildChallengeAction Reference.protocol state.world.store 9 ⟨6⟩
        (Vector.replicate 32 Felt252.zero) = .ok action := by
  obtain ⟨state, run, task, transcript, finalized⟩ := reaches_finalized
  exact ⟨state, run, challenges_refused Reference.protocol Reference.jsonFaithful _ run task ⟨6⟩
    transcript finalized 9 _⟩

/-- The watcher finds the transcript of a finalized request, and fails to decode
it. -/
theorem archived_request_undecodable :
    ∃ state, (State.initial (server Reference.protocol)
        (Reference.world (Reference.config 10 1 false none))).Reaches state ∧
      (∃ task transcript,
        .performed task (.finalize Reference.proxyRequest.nullifier transcript) (.ok ()) ∈
          state.trace) ∧
      buildChallengeAction Reference.protocol state.world.store 9
        Reference.proxyRequest.nullifier (Vector.replicate 32 Felt252.zero) =
          .error "invalid archived request inputs: missing field statement_type" := by
  obtain ⟨state, run, task, transcript, finalized⟩ := reaches_finalized
  exact ⟨state, run, ⟨task, transcript, finalized⟩,
    buildChallengeAction_finalized Reference.jsonFaithful run finalized 9 _⟩

end Archive

end ZkApi
