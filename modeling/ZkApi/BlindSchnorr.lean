import Mathlib
import ZkApi.DoubleAndAdd

/-!
# Blind Schnorr signatures

Scalars are carried as elements of the base field and are reduced modulo the
group order at every operation.  The client blinds the commitment of the signer
with two scalars, and a verified signature is consistent with every transcript
of the signer through exactly one such pair.
-/

namespace ZkApi.Auth

open DoubleAndAdd

/-- A group of prime order with a generator, and the coordinates of its points in a
larger field. -/
structure Curve (Point : Type) [AddCommGroup Point] where
  prime : Nat
  order : Nat
  order_prime : order.Prime
  order_lt : order < prime
  prime_le : prime ≤ 2 ^ 256
  card_eq : Nat.card Point = order
  generator : Point
  generates : generator ≠ 0
  x : Point → Fin prime

variable {Point : Type} [AddCommGroup Point]

namespace Curve

abbrev Felt (curve : Curve Point) := Fin curve.prime

variable (curve : Curve Point)

theorem prime_pos : 0 < curve.prime :=
  Nat.zero_lt_of_lt curve.order_lt

section Scalars

def fromUint (value : Nat) : curve.Felt :=
  ⟨value % curve.prime, Nat.mod_lt _ curve.prime_pos⟩

def reduce (a : curve.Felt) : curve.Felt :=
  curve.fromUint (a % curve.order)

def add (a b : curve.Felt) : curve.Felt :=
  curve.fromUint ((a + b : Nat) % curve.order)

def sub (a b : curve.Felt) : curve.Felt :=
  curve.fromUint ((a % curve.order + curve.order - b % curve.order) % curve.order)

def mul (a b : curve.Felt) : curve.Felt :=
  curve.fromUint ((a * b : Nat) % curve.order)

/-- The number that bytes with the highest one first stand for. -/
def uintOfBytes (bytes : List UInt8) : Nat :=
  bytes.foldl (fun value byte => 256 * value + byte.toNat) 0

def fromBytesReduced (bytes : List UInt8) : curve.Felt :=
  curve.fromUint (uintOfBytes bytes % curve.order)

def toBytesBe (a : curve.Felt) : List UInt8 :=
  (List.range 32).map fun index => UInt8.ofNat (a / 256 ^ (31 - index))

variable {curve}

theorem val_fromUint (value : Nat) :
    (curve.fromUint (value % curve.order)).val = value % curve.order := by
  have below : value % curve.order < curve.order := Nat.mod_lt _ curve.order_prime.pos
  exact Nat.mod_eq_of_lt (below.trans curve.order_lt)

theorem val_reduce (a : curve.Felt) : (curve.reduce a).val = a % curve.order :=
  val_fromUint _

theorem val_add (a b : curve.Felt) : (curve.add a b).val = (a + b : Nat) % curve.order :=
  val_fromUint _

theorem val_sub (a b : curve.Felt) : (curve.sub a b).val =
    (a % curve.order + curve.order - b % curve.order) % curve.order :=
  val_fromUint _

theorem val_mul (a b : curve.Felt) : (curve.mul a b).val = (a * b : Nat) % curve.order :=
  val_fromUint _

theorem add_sub (a b : curve.Felt) : curve.add b (curve.sub a b) = curve.reduce a := by
  apply Fin.ext
  have pos := curve.order_prime.pos
  have below : b.val % curve.order < curve.order := Nat.mod_lt _ pos
  have whole : b.val % curve.order +
      (a.val % curve.order + curve.order - b.val % curve.order) =
        a.val % curve.order + curve.order := by
    omega
  rw [val_add, val_sub, val_reduce, Nat.add_mod_mod, ← Nat.mod_add_mod, whole,
    Nat.add_mod_right, Nat.mod_mod]

theorem add_left_cancel {a b c : curve.Felt} (reducedB : b.val < curve.order)
    (reducedC : c.val < curve.order) (same : curve.add a b = curve.add a c) : b = c := by
  apply Fin.ext
  have sums : a.val + b.val ≡ a.val + c.val [MOD curve.order] := by
    rw [Nat.ModEq, ← val_add, ← val_add, same]
  exact (sums.add_left_cancel' a.val).eq_of_lt_of_lt reducedB reducedC

end Scalars

section Points

/-- Double-and-add over the digits of the reduced scalar. -/
def scalarMul (point : Point) (k : curve.Felt) : Point :=
  addDoubled 0 point (lowBits 256 (curve.reduce k))

/-- The affine coordinate; the identity has none. -/
def pointX [DecidableEq Point] (point : Point) : Option curve.Felt :=
  if point = 0 then none else some (curve.x point)

variable {curve}

theorem mod_order_nsmul (k : Nat) (point : Point) : (k % curve.order) • point = k • point := by
  rw [← curve.card_eq]
  exact mod_natCard_nsmul point k

theorem scalarMul_eq (point : Point) (k : curve.Felt) :
    curve.scalarMul point k = k.val • point := by
  have fits : (curve.reduce k).val < 2 ^ 256 :=
    lt_of_lt_of_le (curve.reduce k).isLt curve.prime_le
  rw [scalarMul, addDoubled_eq, ofBits_lowBits fits, zero_add, val_reduce, mod_order_nsmul]

theorem pointX_eq [DecidableEq Point] {point : Point} (affine : point ≠ 0) :
    curve.pointX point = some (curve.x point) :=
  if_neg affine

end Points

end Curve

/-- The Keccak function, from bytes to bytes. -/
abbrev Keccak := List UInt8 → List UInt8

variable (curve : Curve Point) (keccak : Keccak)

def challengeDomain : List UInt8 :=
  "zkapi.blind-schnorr.v1".toUTF8.toList

/-- The challenge of a commitment and a message, which needs a commitment other
than the identity. -/
def challenge [DecidableEq Point] (rPrime : Point) (message : curve.Felt) : Option curve.Felt := do
  let x ← curve.pointX rPrime
  return curve.fromBytesReduced
    (keccak (challengeDomain ++ curve.toBytesBe x ++ curve.toBytesBe message))

structure SigningKey where
  secret : curve.Felt
  publicPoint : Point

def SigningKey.fromSecret (secret : curve.Felt) : SigningKey curve :=
  let secret := curve.reduce secret
  { secret := secret, publicPoint := curve.scalarMul curve.generator secret }

structure IssuanceNonce where
  k : curve.Felt
  commitment : Point

def serverCommit (k : curve.Felt) : IssuanceNonce curve where
  k := k
  commitment := curve.scalarMul curve.generator k

structure BlindState where
  alpha : curve.Felt
  rPrime : Point
  message : curve.Felt

/-- The commitment with both blindings added to it. -/
def blinded (commitment publicPoint : Point) (alpha beta : curve.Felt) : Point :=
  commitment + curve.scalarMul curve.generator alpha + curve.scalarMul publicPoint beta

def clientBlind [DecidableEq Point] (commitment publicPoint : Point) (message alpha beta : curve.Felt) :
    Option (BlindState curve × curve.Felt) := do
  let rPrime := blinded curve commitment publicPoint alpha beta
  let cPrime ← challenge curve keccak rPrime message
  let c := curve.add cPrime beta
  return ({ alpha := alpha, rPrime := rPrime, message := message }, c)

def serverRespond (nonce : IssuanceNonce curve) (key : SigningKey curve) (c : curve.Felt) :
    curve.Felt :=
  curve.add nonce.k (curve.mul c key.secret)

@[ext]
structure Signature where
  cPrime : curve.Felt
  sPrime : curve.Felt
deriving DecidableEq

def clientUnblind [DecidableEq Point] (state : BlindState curve) (s : curve.Felt) : Option (Signature curve) := do
  let cPrime ← challenge curve keccak state.rPrime state.message
  return { cPrime := cPrime, sPrime := curve.add s state.alpha }

def verify [DecidableEq Point] (publicPoint : Point) (message : curve.Felt) (sig : Signature curve) : Bool :=
  let rPP := curve.scalarMul curve.generator sig.sPrime +
    -curve.scalarMul publicPoint sig.cPrime
  if rPP = 0 then false
  else challenge curve keccak rPP message == some sig.cPrime

/-- With this pair of reduced scalars the client turns a transcript into a signature. -/
def Blinds [DecidableEq Point] (commitment publicPoint : Point) (message c s : curve.Felt)
    (signature : Signature curve) (blinding : curve.Felt × curve.Felt) : Prop :=
  blinding.1.val < curve.order ∧ blinding.2.val < curve.order ∧ ∃ state,
    clientBlind curve keccak commitment publicPoint message blinding.1 blinding.2 =
        some (state, c) ∧
      clientUnblind curve keccak state s = some signature

section Blinding

variable {curve} {keccak} {commitment publicPoint : Point} {c cPrime s alpha beta : curve.Felt}

/-- The blinded commitment is the one that a verifier of the signature recovers. -/
theorem blinded_eq
    (transcript : curve.scalarMul curve.generator s = commitment + curve.scalarMul publicPoint c)
    (blinds : curve.add cPrime beta = curve.reduce c) :
    blinded curve commitment publicPoint alpha beta =
      curve.scalarMul curve.generator (curve.add s alpha) +
        -curve.scalarMul publicPoint cPrime := by
  have challenges : c.val • publicPoint = cPrime.val • publicPoint + beta.val • publicPoint := by
    have reduced := congrArg Fin.val blinds
    rw [Curve.val_add, Curve.val_reduce] at reduced
    have wraps : ((cPrime.val + beta.val) % curve.order) • publicPoint =
        (cPrime.val + beta.val) • publicPoint := Curve.mod_order_nsmul _ _
    rw [← add_nsmul, ← wraps, reduced, Curve.mod_order_nsmul]
  have response : (curve.add s alpha).val • curve.generator =
      s.val • curve.generator + alpha.val • curve.generator := by
    rw [Curve.val_add, Curve.mod_order_nsmul, add_nsmul]
  rw [Curve.scalarMul_eq, Curve.scalarMul_eq, challenges] at transcript
  rw [blinded, Curve.scalarMul_eq, Curve.scalarMul_eq, Curve.scalarMul_eq, Curve.scalarMul_eq,
    response, transcript]
  abel

/-- The transcript of an honest signer fits its commitment and its key. -/
theorem serverRespond_transcript (secret k : curve.Felt) (c : curve.Felt) :
    curve.scalarMul curve.generator
        (serverRespond curve (serverCommit curve k) (SigningKey.fromSecret curve secret) c) =
      (serverCommit curve k).commitment +
        curve.scalarMul (SigningKey.fromSecret curve secret).publicPoint c := by
  simp only [serverRespond, serverCommit, SigningKey.fromSecret, Curve.scalarMul_eq,
    Curve.val_add, Curve.val_mul, Curve.mod_order_nsmul, Nat.add_mod_mod, add_nsmul]
  rw [mul_nsmul']

variable [DecidableEq Point]

theorem exists_challenge {rPrime : Point} (affine : rPrime ≠ 0) (message : curve.Felt) :
    ∃ found, challenge curve keccak rPrime message = some found := by
  rw [challenge, Curve.pointX_eq affine]
  exact ⟨_, rfl⟩

theorem clientBlind_of_challenge {message challenged : curve.Felt}
    (found : challenge curve keccak (blinded curve commitment publicPoint alpha beta) message =
      some challenged) :
    clientBlind curve keccak commitment publicPoint message alpha beta =
      some (⟨alpha, blinded curve commitment publicPoint alpha beta, message⟩,
        curve.add challenged beta) := by
  simp only [clientBlind, found, Option.pure_def, Option.bind_eq_bind, Option.bind_some]

theorem clientUnblind_of_challenge {rPrime : Point} {message challenged : curve.Felt}
    (found : challenge curve keccak rPrime message = some challenged) :
    clientUnblind curve keccak ⟨alpha, rPrime, message⟩ s =
      some ⟨challenged, curve.add s alpha⟩ := by
  simp only [clientUnblind, found, Option.pure_def, Option.bind_eq_bind, Option.bind_some]

/-- A signature is accepted just if the recovered commitment has its challenge. -/
theorem verify_iff {message : curve.Felt} {sig : Signature curve} :
    verify curve keccak publicPoint message sig = true ↔
      challenge curve keccak (curve.scalarMul curve.generator sig.sPrime +
        -curve.scalarMul publicPoint sig.cPrime) message = some sig.cPrime := by
  unfold verify
  dsimp only
  split
  · rename_i identity
    rw [identity, challenge, Curve.pointX, if_pos rfl]
    simp
  · rw [beq_iff_eq]

/-- The signature that blinding, signing and unblinding make is accepted. -/
theorem issued_verifies {secret k alpha beta message : curve.Felt} {state : BlindState curve}
    {c : curve.Felt}
    (blinds : clientBlind curve keccak (serverCommit curve k).commitment
      (SigningKey.fromSecret curve secret).publicPoint message alpha beta = some (state, c)) :
    ∃ signature,
      clientUnblind curve keccak state (serverRespond curve (serverCommit curve k)
        (SigningKey.fromSecret curve secret) c) = some signature ∧
      verify curve keccak (SigningKey.fromSecret curve secret).publicPoint message signature =
        true := by
  obtain ⟨cPrime, challenged, isState⟩ := Option.bind_eq_some_iff.mp blinds
  cases isState
  refine ⟨_, Option.bind_eq_some_iff.mpr ⟨cPrime, challenged, rfl⟩, ?_⟩
  rw [verify_iff]
  have reduced : curve.add cPrime beta = curve.reduce (curve.add cPrime beta) := by
    apply Fin.ext
    rw [Curve.val_reduce, Curve.val_add, Nat.mod_mod]
  rw [← blinded_eq (serverRespond_transcript secret k _) reduced]
  exact challenged

/-- A pair of scalars with which an accepted signature comes from a transcript. -/
theorem exists_blinding {message sPrime : curve.Felt}
    (transcript : curve.scalarMul curve.generator s = commitment + curve.scalarMul publicPoint c)
    (accepted : verify curve keccak publicPoint message ⟨cPrime, sPrime⟩ = true) :
    Blinds curve keccak commitment publicPoint message (curve.reduce c) s
      ⟨cPrime, curve.reduce sPrime⟩ (curve.sub sPrime s, curve.sub c cPrime) := by
  have pos := curve.order_prime.pos
  have recovered : blinded curve commitment publicPoint (curve.sub sPrime s)
      (curve.sub c cPrime) = curve.scalarMul curve.generator sPrime +
        -curve.scalarMul publicPoint cPrime := by
    rw [blinded_eq transcript (Curve.add_sub c cPrime), Curve.add_sub, Curve.scalarMul_eq,
      Curve.scalarMul_eq, Curve.scalarMul_eq, Curve.val_reduce, Curve.mod_order_nsmul]
  have challenged : challenge curve keccak (blinded curve commitment publicPoint
      (curve.sub sPrime s) (curve.sub c cPrime)) message = some cPrime := by
    have found := verify_iff.mp accepted
    rw [recovered]
    exact found
  have alphaReduced : (curve.sub sPrime s).val < curve.order := by
    rw [Curve.val_sub]
    exact Nat.mod_lt _ pos
  have betaReduced : (curve.sub c cPrime).val < curve.order := by
    rw [Curve.val_sub]
    exact Nat.mod_lt _ pos
  have blinds := clientBlind_of_challenge challenged
  have unblinds : clientUnblind curve keccak ⟨curve.sub sPrime s, _, message⟩ s =
      some ⟨_, curve.add s (curve.sub sPrime s)⟩ := clientUnblind_of_challenge challenged
  rw [Curve.add_sub] at blinds unblinds
  exact ⟨alphaReduced, betaReduced, _, blinds, unblinds⟩

theorem Blinds.sums {message : curve.Felt} {signature : Signature curve}
    {blinding : curve.Felt × curve.Felt}
    (blinds : Blinds curve keccak commitment publicPoint message c s signature blinding) :
    curve.add s blinding.1 = signature.sPrime ∧ curve.add signature.cPrime blinding.2 = c := by
  obtain ⟨_, _, state, blinds, unblinds⟩ := blinds
  obtain ⟨challenged, isChallenge, same⟩ := Option.bind_eq_some_iff.mp blinds
  cases same
  obtain ⟨again, isAgain, same⟩ := Option.bind_eq_some_iff.mp unblinds
  cases same
  cases isChallenge.symm.trans isAgain
  exact ⟨rfl, rfl⟩

/-- The scalars are determined by the transcript and the signature. -/
theorem Blinds.unique {message : curve.Felt} {signature : Signature curve}
    {first second : curve.Felt × curve.Felt}
    (blindsFirst : Blinds curve keccak commitment publicPoint message c s signature first)
    (blindsSecond : Blinds curve keccak commitment publicPoint message c s signature second) :
    first = second := by
  obtain ⟨firstResponse, firstChallenge⟩ := blindsFirst.sums
  obtain ⟨secondResponse, secondChallenge⟩ := blindsSecond.sums
  apply Prod.ext
  · exact Curve.add_left_cancel blindsFirst.1 blindsSecond.1
      (firstResponse.trans secondResponse.symm)
  · exact Curve.add_left_cancel blindsFirst.2.1 blindsSecond.2.1
      (firstChallenge.trans secondChallenge.symm)

/-- Issued signatures are accepted, and every accepted signature comes, up to the
reduction of its scalars, from every transcript through exactly one blinding. -/
theorem blind_signatures (curve : Curve Point) (keccak : Keccak) :
    (∀ secret k alpha beta message : curve.Felt,
      blinded curve (serverCommit curve k).commitment
          (SigningKey.fromSecret curve secret).publicPoint alpha beta ≠ 0 →
        ∃ state c signature,
          clientBlind curve keccak (serverCommit curve k).commitment
            (SigningKey.fromSecret curve secret).publicPoint message alpha beta =
              some (state, c) ∧
          clientUnblind curve keccak state (serverRespond curve (serverCommit curve k)
            (SigningKey.fromSecret curve secret) c) = some signature ∧
          verify curve keccak (SigningKey.fromSecret curve secret).publicPoint message
            signature = true) ∧
    ∀ (commitment publicPoint : Point) (message c s cPrime sPrime : curve.Felt),
      curve.scalarMul curve.generator s = commitment + curve.scalarMul publicPoint c →
      verify curve keccak publicPoint message ⟨cPrime, sPrime⟩ = true →
        ∃! blinding, Blinds curve keccak commitment publicPoint message (curve.reduce c) s
          ⟨cPrime, curve.reduce sPrime⟩ blinding := by
  constructor
  · intro secret k alpha beta message affine
    obtain ⟨cPrime, challenged⟩ : ∃ found, challenge curve keccak _ message = some found :=
      exists_challenge affine message
    have blinds := clientBlind_of_challenge challenged
    obtain ⟨signature, unblinds, accepted⟩ := issued_verifies blinds
    exact ⟨_, _, signature, blinds, unblinds, accepted⟩
  · intro commitment publicPoint message c s cPrime sPrime transcript accepted
    have blinds := exists_blinding transcript accepted
    exact ⟨_, blinds, fun _ others => others.unique blinds⟩

end Blinding

section Samples

/-- A curve of three points over a field of five elements. -/
@[reducible]
def smallCurve : Curve (ZMod 3) where
  prime := 5
  order := 3
  order_prime := Nat.prime_three
  order_lt := by decide
  prime_le := by decide
  card_eq := by simp
  generator := 1
  generates := by decide
  x point := Fin.ofNat 5 point.val

def emptyKeccak : Keccak :=
  fun _ => []

theorem blind_signatures_small :
    (∃ state c signature,
      clientBlind smallCurve emptyKeccak (serverCommit smallCurve 1).commitment
        (SigningKey.fromSecret smallCurve 1).publicPoint 0 1 0 = some (state, c) ∧
      clientUnblind smallCurve emptyKeccak state (serverRespond smallCurve
        (serverCommit smallCurve 1) (SigningKey.fromSecret smallCurve 1) c) = some signature ∧
      verify smallCurve emptyKeccak (SigningKey.fromSecret smallCurve 1).publicPoint 0
        signature = true) ∧
    ∃! blinding, Blinds smallCurve emptyKeccak 1 1 0 (smallCurve.reduce 1) 2
      ⟨0, smallCurve.reduce 1⟩ blinding :=
  ⟨(blind_signatures smallCurve emptyKeccak).1 1 1 1 0 0 (by decide +kernel),
    (blind_signatures smallCurve emptyKeccak).2 1 1 0 1 2 0 1 (by decide +kernel)
      (by decide +kernel)⟩

/-- A signature whose second scalar is not reduced is accepted, and no blinding of a
transcript leads to it. -/
theorem unreduced_signature_unblinded :
    smallCurve.scalarMul smallCurve.generator 2 = 1 + smallCurve.scalarMul 1 1 ∧
      verify smallCurve emptyKeccak 1 0 ⟨0, 4⟩ = true ∧
      ∀ blinding, ¬ Blinds smallCurve emptyKeccak 1 1 0 1 2 ⟨0, 4⟩ blinding := by
  refine ⟨by decide +kernel, by decide +kernel, fun blinding blinds => ?_⟩
  have response := congrArg Fin.val blinds.sums.1
  have reduced : (smallCurve.add 2 blinding.1).val < 3 := by
    rw [Curve.val_add]
    exact Nat.mod_lt _ (by decide)
  rw [response] at reduced
  exact absurd reduced (by decide)

end Samples

end ZkApi.Auth
