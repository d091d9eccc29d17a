import ZkApi.DaemonMachine

/-!
# A wallet to run the daemon with

Functions of a wallet that behave as those of the daemon do, and the worlds in
which its sample runs take place.
-/

namespace ZkApi.Clientd.Reference

open Interleaving

/-- A wallet whose nullifiers add the secret to the anchor, and that takes a
deposit only while it has no note. -/
def wallet : WalletFunctions where
  stateNullifier state := ⟨state.secret.value + state.currentAnchor.value⟩
  confirmDeposit
    | some _, _ => .error (.wallet "wallet already has an active note")
    | none, request => .ok ⟨request.noteId, request.secret, request.amount, Felt252.zero⟩
  leaseAuthorization := "lease"
  openrouterBody _ body := body
  jsonErrorMessage _ := none

def config (requestMode : RequestMode) : AuthConfig where
  requestMode := requestMode
  requestChargeCap := 5
  policyChargeCap := 5
  policyEnabled := false
  oaVerifierUrl := "https://v"
  openrouterInferenceBase := "https://o"
  requireOaOrgKeySource := false

def note : NoteState :=
  ⟨7, ⟨100⟩, 50, Felt252.zero⟩

/-- The state of the note after one request. -/
def nextNote : NoteState :=
  ⟨7, ⟨100⟩, 45, ⟨1⟩⟩

def files : StateDir :=
  ⟨some note, none, none, [], []⟩

/-- A vault in which this note is active. -/
def vault (noteId : UInt32) : VaultNote :=
  if noteId = 7 then ⟨1, none, 0, []⟩ else VaultNote.uninitialized

def plan (mode : WithdrawalMode) : WithdrawalPlan where
  mode := mode
  publicInputs := ⟨7, 50, 1, ⟨100⟩⟩
  siblings := []
  proof := ⟨.groth16Bn254, ""⟩

def request : CoreRequest :=
  ⟨"/v1/chat/completions", "hello"⟩

def response : CoreResponse :=
  ⟨"r1", 200, "hi", 5, ⟨1⟩, some 45⟩

def started (requestMode : RequestMode) : World :=
  World.started (config requestMode) files 10 vault

/-- A note that is deposited later. -/
def newNote : NoteState :=
  ⟨8, ⟨200⟩, 50, Felt252.zero⟩

/-- A reset of which every step succeeds. -/
def wholeReset : ResetOutcome :=
  ⟨true, true, true, true, true, .ok ()⟩

def filesAfterReset : StateDir :=
  ⟨none, none, none, [note], []⟩

def resetReply (before after : StateDir) : ResetReply :=
  ⟨some wholeReset, before, after, .ok after.walletStatus⟩

/-- A proved request for a lease. -/
def leaseRequest (clientRequestId : String) (nullifier : Felt252) : ApiRequestV2 where
  clientRequestId := clientRequestId
  payload := "lease"
  payloadHash := Felt252.zero
  publicInputs := {
    protocolVersion := 2
    chainId := 1
    contractAddress := Felt252.zero
    activeRoot := Felt252.zero
    stateSigningKeyX := Felt252.zero
    stateSigningKeyY := Felt252.zero
    requestTime := 10
    solvencyBound := 5
    requestNullifier := nullifier
    authorizationTag := Felt252.zero
    anonymousCommitmentX := Felt252.zero
    anonymousCommitmentY := Felt252.zero }
  proof := ⟨.groth16Bn254, ""⟩

/-- A lease that is issued with a key of the inference endpoint itself. -/
def issued (clientRequestId apiKey : String) (expiresAt : UInt64) : IssuedOpenRouterLease where
  lease := {
    status := "active"
    clientRequestId := clientRequestId
    apiKey := apiKey
    openrouterApiBase := "https://o"
    issuedAt := 10
    expiresAt := expiresAt
    validForSeconds := 90
    settleAfter := expiresAt
    spendingLimitUsd := 1 }
  keySource := "openrouter"
  verification := none

def finalized (clientRequestId : String) : OpenRouterLeaseStatusResponse where
  status := "finalized"
  clientRequestId := clientRequestId
  issuedAt := 10
  expiresAt := 100
  settleAfter := 100
  spendingLimitUsd := 1
  usageUsd := none
  chargeApplied := some 5
  lastError := none

/-- The steps of a request up to the lock of the slot. -/
def opening : List Answer :=
  [.plain, .responds .ensureSchemeAgreement (.ok ()), .plain, .plain]

/-- The steps that put a new lease into the empty slot. -/
def issuing (request : ApiRequestV2) (issued : IssuedOpenRouterLease) : List Answer :=
  [.plain, .prepares request, .responds (.postLease request) (.success issued), .plain, .plain]

/-- The request is counted and then posted with this key, which is rejected. -/
def rejecting (apiKey : String) : List Answer :=
  [.plain, .plain, .responds (.postPrompt "https://o/chat/completions" apiKey "hello")
    (.failure 401 none "")]

/-- Advance a task with these answers. -/
def advances (task : Nat) (answers : List Answer) : List (Action (daemon wallet)) :=
  answers.map (Action.advance task)

/-- A withdrawal from beginning to end, of a daemon without a lease. -/
def withdrawal (task : Nat) (mode : WithdrawalMode) : List (Action (daemon wallet)) :=
  .start (.createWithdrawal mode 1) ::
    advances task [.plain, .plain, .withdraws (plan mode), .plain, .plain, .plain]

end ZkApi.Clientd.Reference
