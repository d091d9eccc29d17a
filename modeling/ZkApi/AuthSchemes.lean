import ZkApi.BlindSchnorr
import ZkApi.CredentialSchemes

/-!
# The two methods of authentication

Blind-signature credentials chain their serials, so that all successors of one
credential share one spend token, and are verified with the key of the instance.
State-anchor credentials derive their anchors from the leaf of the signer, so that
every successor has a token of its own, and are verified with the root that the
presentation names.
-/

namespace ZkApi.Auth

section BlindSignature

/-- Blind issuance and its verification. -/
structure Signatures where
  Key : Type
  PublicKey : Type
  Signature : Type
  Seed : Type
  publicKey : Key → PublicKey
  blindIssue : Key → Felt252 → Seed → Option Signature
  verify : PublicKey → Felt252 → Signature → Bool

/-- The signatures of the blind Schnorr protocol, from the nonce of the signer and the
two blindings of the client. -/
@[reducible]
def schnorrSignatures {Point : Type} [AddCommGroup Point] [DecidableEq Point]
    (curve : Curve Point) (keccak : Keccak) : Signatures where
  Key := curve.Felt
  PublicKey := Point
  Signature := Signature curve
  Seed := curve.Felt × curve.Felt × curve.Felt
  publicKey secret := (SigningKey.fromSecret curve secret).publicPoint
  blindIssue secret message
    | (k, alpha, beta) => do
        let key := SigningKey.fromSecret curve secret
        let nonce := serverCommit curve k
        let (state, c) ← clientBlind curve keccak nonce.commitment key.publicPoint
          (curve.fromUint message.value) alpha beta
        clientUnblind curve keccak state (serverRespond curve nonce key c)
  verify publicPoint message := Auth.verify curve keccak publicPoint (curve.fromUint message.value)

theorem schnorrSignatures_accepted {Point : Type} [AddCommGroup Point] [DecidableEq Point]
    {curve : Curve Point} {keccak : Keccak} {secret : curve.Felt} {message : Felt252}
    {seed : curve.Felt × curve.Felt × curve.Felt} {signature : Signature curve}
    (issued : (schnorrSignatures curve keccak).blindIssue secret message seed = some signature) :
    (schnorrSignatures curve keccak).verify ((schnorrSignatures curve keccak).publicKey secret)
      message signature = true := by
  obtain ⟨k, alpha, beta⟩ := seed
  obtain ⟨⟨state, c⟩, blinds, unblinds⟩ := Option.bind_eq_some_iff.mp issued
  obtain ⟨other, isOther, accepted⟩ := issued_verifies blinds
  have same : other = signature := Option.some.inj (isOther.symm.trans unblinds)
  dsimp only [schnorrSignatures]
  rw [← same]
  exact accepted

/-- What a hash is taken of. -/
inductive HashPart where
  | text (value : String)
  | balance (value : Nat)
  | felt (value : Felt252)
deriving DecidableEq

structure BlindFunctions extends Signatures where
  hashToFelt : String → List HashPart → Felt252

variable (B : BlindFunctions)

def credDomain : String := "zkapi.bs.cred.v1"

def serialDomain : String := "zkapi.bs.serial.v1"

def credentialMessage (balance : Nat) (serial : Felt252) : Felt252 :=
  B.hashToFelt credDomain [.balance balance, .felt serial]

def genesisSerial (secret : Felt252) : Felt252 :=
  B.hashToFelt serialDomain [.text "genesis", .felt secret]

def nextSerial (previous : Felt252) : Felt252 :=
  B.hashToFelt serialDomain [.felt previous]

/-- A credential, and the presentation that reveals it. -/
structure BlindCredential where
  balance : Nat
  serial : Felt252
  signature : B.Signature

structure BlindSignatureScheme where
  key : B.Key
  spent : List Felt252

def BlindSignatureScheme.new (key : B.Key) : BlindSignatureScheme B :=
  ⟨key, []⟩

variable {B}

/-- Sign a credential. -/
def BlindSignatureScheme.sign (scheme : BlindSignatureScheme B) (balance : Nat)
    (serial : Felt252) (seed : B.Seed) : Option (BlindCredential B) :=
  (B.blindIssue scheme.key (credentialMessage B balance serial) seed).map fun signature =>
    ⟨balance, serial, signature⟩

def BlindSignatureScheme.verify (scheme : BlindSignatureScheme B)
    (presentation : BlindCredential B) :
    Except AuthError Felt252 × BlindSignatureScheme B :=
  let message := credentialMessage B presentation.balance presentation.serial
  if B.verify (B.publicKey scheme.key) message presentation.signature = false then
    (.error (.verificationFailed "invalid blind signature"), scheme)
  else if presentation.serial ∈ scheme.spent then (.error .replay, scheme)
  else (.ok presentation.serial, { scheme with spent := presentation.serial :: scheme.spent })

def BlindSignatureScheme.applyCharge (scheme : BlindSignatureScheme B)
    (credential : BlindCredential B) (charge : Nat) (seed : B.Seed) :
    Option (Except AuthError (BlindCredential B) × BlindSignatureScheme B) :=
  if charge ≤ credential.balance then
    (scheme.sign (credential.balance - charge) (nextSerial B credential.serial) seed).map
      fun next => (.ok next, scheme)
  else some (.error (.insufficientBalance credential.balance charge), scheme)

variable (B)

@[reducible]
def blindSignatureScheme : CredentialScheme where
  State := BlindSignatureScheme B
  Credential := BlindCredential B
  Presentation := BlindCredential B
  Token := Felt252
  Seed := B.Seed
  issue scheme secret balance seed :=
    (scheme.sign balance (genesisSerial B secret) seed).map fun credential =>
      (.ok credential, scheme)
  authenticate credential chargeCap _ :=
    if credential.balance < chargeCap then
      .error (.insufficientBalance credential.balance chargeCap)
    else .ok (credential, credential.serial)
  verify scheme presentation := scheme.verify presentation
  applyCharge scheme credential _ charge seed := scheme.applyCharge credential charge seed
  buildWithdrawal credential := credential
  verifyWithdrawal scheme withdrawal :=
    match scheme.verify withdrawal with
    | (.error error, scheme) => (.error error, scheme)
    | (.ok token, scheme) => (.ok (withdrawal.balance, token), scheme)
  balance := BlindCredential.balance

end BlindSignature

section StateAnchor

/-- The functions of the protocol and of its signer that the scheme is built with. -/
structure AnchorFunctions where
  Signer : Type
  XmssSignature : Type
  genesisAnchor : Felt252
  commit : Nat → Felt252 → Felt252 × Felt252
  addBlinding : Felt252 → Felt252 → Felt252
  computeNullifier : Felt252 → Felt252 → Felt252
  computeBlindDelta : Felt252 → Felt252 → Nat → Felt252
  computeNextAnchor : Felt252 → Felt252 → Felt252 → Felt252 → Nat → Felt252
  computeStateMessage : UInt16 → UInt64 → Felt252 → Felt252 → Felt252 → Felt252 → Felt252
  serverRng : Felt252 → UInt8 → Felt252
  nextIndex : Signer → Nat
  rootFelt : Signer → Felt252
  sign : Signer → Felt252 → Option (XmssSignature × Nat) × Signer
  withEpoch : XmssSignature → UInt32 → XmssSignature
  xmssVerify : Felt252 → Felt252 → XmssSignature → Bool

variable (F : AnchorFunctions)

structure StateAnchorCredential where
  secret : Felt252
  balance : Nat
  blinding : Felt252
  anchor : Felt252
  isGenesis : Bool
  stateSig : Option F.XmssSignature
  stateSigRoot : Felt252

structure StateAnchorPresentation where
  balance : Nat
  blinding : Felt252
  userRerand : Felt252
  anchor : Felt252
  nullifier : Felt252
  isGenesis : Bool
  stateSig : Option F.XmssSignature
  stateSigRoot : Felt252

structure StateAnchorScheme where
  signer : F.Signer
  epoch : UInt32
  protocolVersion : UInt16
  chainId : UInt64
  contract : Felt252
  spent : List Felt252

variable {F}

def StateAnchorScheme.stateMessage (scheme : StateAnchorScheme F) (balance : Nat)
    (blinding anchor : Felt252) : Felt252 :=
  let (cx, cy) := F.commit balance blinding
  F.computeStateMessage scheme.protocolVersion scheme.chainId scheme.contract cx cy anchor

/-- The presentation of a credential; withdrawals do not rerandomize. -/
def StateAnchorCredential.present (credential : StateAnchorCredential F)
    (userRerand : Felt252) : StateAnchorPresentation F where
  balance := credential.balance
  blinding := credential.blinding
  userRerand := userRerand
  anchor := credential.anchor
  nullifier := F.computeNullifier credential.secret credential.anchor
  isGenesis := credential.isGenesis
  stateSig := credential.stateSig
  stateSigRoot := credential.stateSigRoot

def StateAnchorScheme.verifyStateSig (scheme : StateAnchorScheme F)
    (presentation : StateAnchorPresentation F) : Except AuthError Unit :=
  if presentation.isGenesis then .ok ()
  else match presentation.stateSig with
    | none => .error (.verificationFailed "missing non-genesis state signature")
    | some signature =>
        let message := scheme.stateMessage presentation.balance presentation.blinding
          presentation.anchor
        if F.xmssVerify presentation.stateSigRoot message signature = false then
          .error (.verificationFailed "XMSS state signature verification failed")
        else .ok ()

def StateAnchorScheme.verify (scheme : StateAnchorScheme F)
    (presentation : StateAnchorPresentation F) :
    Except AuthError Felt252 × StateAnchorScheme F :=
  match scheme.verifyStateSig presentation with
  | .error error => (.error error, scheme)
  | .ok () =>
      if presentation.nullifier ∈ scheme.spent then (.error .replay, scheme)
      else (.ok presentation.nullifier,
        { scheme with spent := presentation.nullifier :: scheme.spent })

def StateAnchorScheme.applyCharge (scheme : StateAnchorScheme F)
    (credential : StateAnchorCredential F) (presentation : StateAnchorPresentation F)
    (charge : Nat) : Except AuthError (StateAnchorCredential F) × StateAnchorScheme F :=
  if charge ≤ credential.balance then
    let nextBalance := credential.balance - charge
    let leafIndex := F.nextIndex scheme.signer
    let serverRng := F.serverRng presentation.nullifier 1
    let serverRng2 := F.serverRng presentation.nullifier 2
    let blindDelta := F.computeBlindDelta serverRng2 presentation.nullifier leafIndex
    let nextBlinding :=
      F.addBlinding (F.addBlinding credential.blinding presentation.userRerand) blindDelta
    let (ncx, ncy) := F.commit nextBalance nextBlinding
    let nextAnchor :=
      F.computeNextAnchor serverRng presentation.nullifier ncx ncy leafIndex
    let message := scheme.stateMessage nextBalance nextBlinding nextAnchor
    match F.sign scheme.signer message with
    | (none, signer) =>
        (.error (.crypto "XMSS signing capacity exhausted"), { scheme with signer := signer })
    | (some (stateSig, signedIndex), signer) =>
        let scheme := { scheme with signer := signer }
        if signedIndex ≠ leafIndex then
          (.error (.crypto "XMSS leaf index moved unexpectedly"), scheme)
        else
          (.ok {
            secret := credential.secret
            balance := nextBalance
            blinding := nextBlinding
            anchor := nextAnchor
            isGenesis := false
            stateSig := some (F.withEpoch stateSig scheme.epoch)
            stateSigRoot := F.rootFelt scheme.signer }, scheme)
  else (.error (.insufficientBalance credential.balance charge), scheme)

variable (F)

/-- The seed is the blinding of a new credential, or the rerandomization of a
presentation. -/
@[reducible]
def stateAnchorScheme : CredentialScheme where
  State := StateAnchorScheme F
  Credential := StateAnchorCredential F
  Presentation := StateAnchorPresentation F
  Token := Felt252
  Seed := Felt252
  issue scheme secret balance seed :=
    some (.ok {
      secret := secret
      balance := balance
      blinding := seed
      anchor := F.genesisAnchor
      isGenesis := true
      stateSig := none
      stateSigRoot := Felt252.zero }, scheme)
  authenticate credential chargeCap seed :=
    if credential.balance < chargeCap then
      .error (.insufficientBalance credential.balance chargeCap)
    else .ok (credential.present seed, F.computeNullifier credential.secret credential.anchor)
  verify scheme presentation := scheme.verify presentation
  applyCharge scheme credential presentation charge _ :=
    some (scheme.applyCharge credential presentation charge)
  buildWithdrawal credential := credential.present Felt252.zero
  verifyWithdrawal scheme withdrawal :=
    match scheme.verify withdrawal with
    | (.error error, scheme) => (.error error, scheme)
    | (.ok token, scheme) => (.ok (withdrawal.balance, token), scheme)
  balance := StateAnchorCredential.balance

end StateAnchor

end ZkApi.Auth
