import ZkApi.AuthSchemes

/-!
# Conservation of credentials

Along a chain of charges the serial of a blind credential is determined by the
deposit and the number of charges, so one successor at most of every credential is
spent.  In a run that shows no forged signature and no collision of hashes, a key
accepts only what its instance has signed.  The state anchors give every successor its own token, so there the same
holds only of runs that charge each credential once and present it to the instance
that has issued it.
-/

namespace ZkApi.Auth

section Blind

variable {B : BlindFunctions}

theorem blind_verified {scheme after : BlindSignatureScheme B} {presentation : BlindCredential B}
    {token : Felt252} (done : scheme.verify presentation = (.ok token, after)) :
    B.verify (B.publicKey scheme.key) (credentialMessage B presentation.balance
        presentation.serial) presentation.signature = true ∧
      presentation.serial ∉ scheme.spent ∧
      after = { scheme with spent := presentation.serial :: scheme.spent } := by
  unfold BlindSignatureScheme.verify at done
  dsimp only at done
  split at done
  · cases done
  · rename_i accepted
    split at done
    · cases done
    · rename_i fresh
      cases done
      exact ⟨by simpa using accepted, fresh, rfl⟩

theorem blind_refused {scheme after : BlindSignatureScheme B} {presentation : BlindCredential B}
    {error : AuthError} (done : scheme.verify presentation = (.error error, after)) :
    after = scheme := by
  unfold BlindSignatureScheme.verify at done
  dsimp only at done
  split at done
  · cases done
    rfl
  · split at done <;> cases done
    rfl

theorem blind_charged {scheme after : BlindSignatureScheme B} {credential : BlindCredential B}
    {charge : Nat} {seed : B.Seed} {result : Except AuthError (BlindCredential B)}
    (done : scheme.applyCharge credential charge seed = some (result, after)) :
    after = scheme ∧ ∀ next, result = .ok next → charge ≤ credential.balance ∧
      scheme.sign (credential.balance - charge) (nextSerial B credential.serial) seed =
        some next := by
  unfold BlindSignatureScheme.applyCharge at done
  split at done
  · rename_i covered
    obtain ⟨next, signed, same⟩ := Option.map_eq_some_iff.mp done
    cases same
    refine ⟨rfl, ?_⟩
    rintro _ ⟨⟩
    exact ⟨covered, signed⟩
  · cases done
    refine ⟨rfl, ?_⟩
    rintro _ ⟨⟩

theorem blind_signed {scheme : BlindSignatureScheme B} {balance : Nat} {serial : Felt252}
    {seed : B.Seed} {credential : BlindCredential B}
    (signed : scheme.sign balance serial seed = some credential) :
    credential.balance = balance ∧ credential.serial = serial ∧
      B.blindIssue scheme.key (credentialMessage B balance serial) seed =
        some credential.signature := by
  obtain ⟨signature, issued, same⟩ := Option.map_eq_some_iff.mp signed
  cases same
  exact ⟨rfl, rfl, issued⟩

/-- Serials are the spend tokens of blind credentials. -/
def blindLawful (B : BlindFunctions) : Lawful (blindSignatureScheme B) where
  token := BlindCredential.serial
  shownToken := BlindCredential.serial
  shownBalance := BlindCredential.balance
  spent := BlindSignatureScheme.spent
  issued := by
    intro state secret balance seed result after done
    obtain ⟨credential, signed, same⟩ := Option.map_eq_some_iff.mp done
    cases same
    refine ⟨rfl, ?_⟩
    rintro _ ⟨⟩
    exact (blind_signed signed).1
  authenticated := by
    intro credential chargeCap seed presentation shown done
    dsimp only at done
    split at done
    · cases done
    · cases done
      exact ⟨rfl, rfl⟩
  verified := by
    intro state presentation result after done
    obtain ⟨_, fresh, same⟩ := blind_verified done
    rw [same]
    exact ⟨fresh, rfl⟩
  refused := by
    intro state presentation error after done
    rw [blind_refused done]
  charged := by
    intro state credential presentation charge seed result after done
    obtain ⟨same, charges⟩ := blind_charged done
    refine ⟨by rw [same], fun next isNext => ?_⟩
    obtain ⟨covered, signed⟩ := charges next isNext
    change next.balance + charge = credential.balance
    rw [(blind_signed signed).1]
    omega
  built credential := ⟨rfl, rfl⟩
  settled := by
    intro state presentation amount result after done
    dsimp only at done
    split at done
    · cases done
    · rename_i token scheme verified
      cases done
      obtain ⟨_, fresh, same⟩ := blind_verified verified
      rw [same]
      exact ⟨rfl, fresh, rfl⟩
  unsettled := by
    intro state presentation error after done
    dsimp only at done
    split at done
    · rename_i error scheme refused
      cases done
      rw [blind_refused refused]
    · cases done

/-- The serial after this many charges. -/
def chainSerial (B : BlindFunctions) (secret : Felt252) : Nat → Felt252
  | 0 => genesisSerial B secret
  | depth + 1 => nextSerial B (chainSerial B secret depth)

def BlindCredential.message (credential : BlindCredential B) : Felt252 :=
  credentialMessage B credential.balance credential.serial

/-- What is hashed for a credential: its message, and the serials of its chain. -/
def hashInputs (held : Held (blindSignatureScheme B)) : List (String × List HashPart) :=
  (credDomain, [.balance held.credential.balance, .felt held.credential.serial]) ::
    (serialDomain, [.text "genesis", .felt held.deposit.secret]) ::
    (List.range held.depth).map fun depth =>
      (serialDomain, [.felt (chainSerial B held.deposit.secret depth)])

section Assumptions

variable (keys : Nat → B.Key) (world : World (blindSignatureScheme B))

/-- No two of the hashes of the run collide. -/
def CollisionFree : Prop :=
  ∀ first ∈ world.held.flatMap hashInputs, ∀ second ∈ world.held.flatMap hashInputs,
    B.hashToFelt first.1 first.2 = B.hashToFelt second.1 second.2 → first = second

/-- The instances of the run have different public keys. -/
def KeysApart : Prop :=
  ∀ held ∈ world.held, ∀ redemption ∈ world.redeemed,
    B.publicKey (keys held.issuer) = B.publicKey (keys redemption.scheme) →
      held.issuer = redemption.scheme

/-- The key of this instance has signed the message in the run. -/
def HasSigned (scheme : Nat) (message : Felt252) : Prop :=
  ∃ held ∈ world.held, B.publicKey (keys held.issuer) = B.publicKey (keys scheme) ∧
    held.credential.message = message

/-- The step accepts no forgery: a signature that passes is on a message that the key has
signed before. -/
def Unforged : Action (blindSignatureScheme B) → Prop
  | .verify scheme shown | .verifyWithdrawal scheme shown =>
      ∀ presented ∈ world.shown[shown]?,
        B.verify (B.publicKey (keys scheme)) (BlindCredential.message presented.presentation)
          presented.presentation.signature = true →
            HasSigned keys world scheme (BlindCredential.message presented.presentation)
  | _ => True

instance [DecidableEq B.PublicKey] (scheme : Nat) (message : Felt252) :
    Decidable (HasSigned keys world scheme message) :=
  inferInstanceAs (Decidable (∃ held ∈ world.held, _ ∧ _))

instance [DecidableEq B.PublicKey] :
    (action : Action (blindSignatureScheme B)) → Decidable (Unforged keys world action)
  | .verify scheme shown | .verifyWithdrawal scheme shown =>
      inferInstanceAs (Decidable (∀ presented ∈ world.shown[shown]?,
        B.verify (B.publicKey (keys scheme)) (BlindCredential.message presented.presentation)
          presented.presentation.signature = true →
            HasSigned keys world scheme (BlindCredential.message presented.presentation)))
  | .issue _ _ _ _ | .authenticate _ _ _ | .applyCharge _ _ _ | .buildWithdrawal _ =>
      isTrue trivial

instance : Decidable (CollisionFree world) :=
  inferInstanceAs (Decidable (∀ first ∈ world.held.flatMap hashInputs, _))

instance [DecidableEq B.PublicKey] : Decidable (KeysApart keys world) :=
  inferInstanceAs (Decidable (∀ held ∈ world.held, ∀ redemption ∈ world.redeemed, _ → _))

end Assumptions

variable {keys : Nat → B.Key} {world after : World (blindSignatureScheme B)}
  {action : Action (blindSignatureScheme B)}

theorem CollisionFree.mono (free : CollisionFree after) (grows : world.held ⊆ after.held) :
    CollisionFree world := by
  have inside : world.held.flatMap hashInputs ⊆ after.held.flatMap hashInputs := by
    intro input member
    obtain ⟨held, isHeld, same⟩ := List.mem_flatMap.mp member
    exact List.mem_flatMap.mpr ⟨held, grows isHeld, same⟩
  intro first isFirst second isSecond
  exact free first (inside isFirst) second (inside isSecond)

theorem KeysApart.mono (apart : KeysApart keys after) (held : world.held ⊆ after.held)
    (redeemed : world.redeemed ⊆ after.redeemed) : KeysApart keys world :=
  fun first isFirst second isSecond => apart first (held isFirst) second (redeemed isSecond)

theorem CollisionFree.eq (free : CollisionFree world) {first second : Held (blindSignatureScheme B)}
    (isFirst : first ∈ world.held) (isSecond : second ∈ world.held)
    {input other : String × List HashPart} (ofFirst : input ∈ hashInputs first)
    (ofSecond : other ∈ hashInputs second)
    (same : B.hashToFelt input.1 input.2 = B.hashToFelt other.1 other.2) : input = other :=
  free input (List.mem_flatMap.mpr ⟨first, isFirst, ofFirst⟩) other
    (List.mem_flatMap.mpr ⟨second, isSecond, ofSecond⟩) same

/-- Credentials with the same message have the same serial. -/
theorem CollisionFree.serial_eq (free : CollisionFree world)
    {first second : Held (blindSignatureScheme B)} (isFirst : first ∈ world.held)
    (isSecond : second ∈ world.held)
    (same : first.credential.message = second.credential.message) :
    first.credential.serial = second.credential.serial := by
  have inputs := free.eq isFirst isSecond List.mem_cons_self List.mem_cons_self same
  simp only [Prod.mk.injEq, List.cons.injEq, HashPart.felt.injEq] at inputs
  exact inputs.2.2.1

/-- Chains that meet have started with the same secret. -/
theorem CollisionFree.secret_eq (free : CollisionFree world)
    {first second : Held (blindSignatureScheme B)} (isFirst : first ∈ world.held)
    (isSecond : second ∈ world.held) {depth other : Nat} (below : depth ≤ first.depth)
    (otherBelow : other ≤ second.depth)
    (same : chainSerial B first.deposit.secret depth = chainSerial B second.deposit.secret other) :
    first.deposit.secret = second.deposit.secret := by
  have genesis (held : Held (blindSignatureScheme B)) :
      (serialDomain, [.text "genesis", .felt held.deposit.secret]) ∈ hashInputs held :=
    List.mem_cons_of_mem _ List.mem_cons_self
  have next {held : Held (blindSignatureScheme B)} {depth : Nat} (below : depth < held.depth) :
      (serialDomain, [.felt (chainSerial B held.deposit.secret depth)]) ∈ hashInputs held :=
    List.mem_cons_of_mem _ (List.mem_cons_of_mem _
      (List.mem_map.mpr ⟨depth, List.mem_range.mpr below, rfl⟩))
  induction depth generalizing other with
  | zero =>
      cases other with
      | zero =>
          have inputs := free.eq isFirst isSecond (genesis first) (genesis second) same
          simpa using inputs
      | succ other =>
          have inputs := free.eq isFirst isSecond (genesis first) (next otherBelow) same
          simp at inputs
  | succ depth ih =>
      cases other with
      | zero =>
          have inputs := free.eq isFirst isSecond (next below) (genesis second) same
          simp at inputs
      | succ other =>
          have inputs := free.eq isFirst isSecond (next below) (next otherBelow) same
          exact ih (Nat.le_of_succ_le below) (Nat.le_of_succ_le otherBelow) (by simpa using inputs)

/-- What is known in every run of blind-signature schemes. -/
structure BlindRun (keys : Nat → B.Key) (world : World (blindSignatureScheme B)) : Prop where
  sameKeys : ∀ scheme, (world.schemes scheme).key = keys scheme
  secrets : ∀ first ∈ world.deposits, ∀ second ∈ world.deposits, first.secret = second.secret →
    first = second
  serial : ∀ held ∈ world.held,
    held.credential.serial = chainSerial B held.deposit.secret held.depth
  shown : ∀ shown ∈ world.shown, shown.held ∈ world.held ∧ shown.presentation = shown.held.credential
  redeemed : ∀ redemption ∈ world.redeemed, redemption.shown ∈ world.shown
  own : Own world

theorem BlindRun.started (keys : Nat → B.Key) :
    BlindRun keys (World.started fun scheme => BlindSignatureScheme.new B (keys scheme)) where
  sameKeys _ := rfl
  secrets := by simp [World.started]
  serial := by simp [World.started]
  shown := by simp [World.started]
  redeemed := by simp [World.started]
  own := by constructor <;> simp [World.started]

theorem BlindRun.withScheme (run : BlindRun keys world) {scheme : Nat}
    {state : BlindSignatureScheme B} (same : state.key = (world.schemes scheme).key) :
    BlindRun keys (world.withScheme scheme state) := by
  refine { run with sameKeys := fun other => ?_, own := ⟨run.own.redeemed, run.own.issued⟩ }
  by_cases isScheme : other = scheme
  · rw [isScheme, World.withScheme_self, same, run.sameKeys]
  · rw [World.withScheme_other _ _ isScheme, run.sameKeys]

theorem BlindRun.add (run : BlindRun keys world) {held : Held (blindSignatureScheme B)}
    {deposits : List Deposit} (secrets : ∀ first ∈ deposits, ∀ second ∈ deposits,
      first.secret = second.secret → first = second)
    (serial : held.credential.serial = chainSerial B held.deposit.secret held.depth)
    (own : held.issuer = held.deposit.scheme) :
    BlindRun keys { world with deposits := deposits, held := held :: world.held } where
  sameKeys := run.sameKeys
  secrets := secrets
  serial := by
    intro other member
    rcases List.mem_cons.mp member with rfl | member
    · exact serial
    · exact run.serial other member
  shown shown member := (run.shown shown member).imp_left (List.mem_cons_of_mem _)
  redeemed := run.redeemed
  own := {
    redeemed := run.own.redeemed
    issued := by
      intro other member
      rcases List.mem_cons.mp member with rfl | member
      · exact own
      · exact run.own.issued other member }

/-- The deposits of a run keep their secrets apart when one is added. -/
theorem BlindRun.secrets_cons (run : BlindRun keys world) {deposit : Deposit}
    (unused : ∀ other ∈ world.deposits, other.secret ≠ deposit.secret) :
    ∀ first ∈ deposit :: world.deposits, ∀ second ∈ deposit :: world.deposits,
      first.secret = second.secret → first = second := by
  intro first isFirst second isSecond same
  rcases List.mem_cons.mp isFirst with rfl | earlierFirst <;>
    rcases List.mem_cons.mp isSecond with rfl | earlierSecond
  · rfl
  · exact absurd same.symm (unused second earlierSecond)
  · exact absurd same (unused first earlierFirst)
  · exact run.secrets first earlierFirst second earlierSecond same

/-- A presentation that an instance accepts is of a credential of its own. -/
theorem BlindRun.accepted (run : BlindRun keys world) (ledger : Ledger (blindLawful B) world)
    {scheme : Nat} {shown : Shown (blindSignatureScheme B)} {amount : Option Nat}
    {token : Felt252} {state : BlindSignatureScheme B} (member : shown ∈ world.shown)
    (verified : (world.schemes scheme).verify shown.presentation = (.ok token, state))
    (unforged : B.verify (B.publicKey (keys scheme)) (BlindCredential.message shown.presentation)
      shown.presentation.signature = true →
        HasSigned keys world scheme (BlindCredential.message shown.presentation))
    (apart : KeysApart keys { world.withScheme scheme state with
      redeemed := ⟨scheme, shown, amount⟩ :: world.redeemed })
    (free : CollisionFree world) :
    BlindRun keys { world.withScheme scheme state with
      redeemed := ⟨scheme, shown, amount⟩ :: world.redeemed } := by
  obtain ⟨accepted, _, same⟩ := blind_verified verified
  have moved : BlindRun keys (world.withScheme scheme state) :=
    run.withScheme (by rw [same])
  obtain ⟨isHeld, isCredential⟩ := run.shown shown member
  rw [run.sameKeys] at accepted
  obtain ⟨signed, isSigned, sameKey, sameMessage⟩ := unforged accepted
  have issuer : signed.issuer = scheme := apart signed isSigned _ List.mem_cons_self sameKey
  rw [isCredential] at sameMessage
  -- The message fixes the serial, and the serial the deposit.
  have serial := free.serial_eq isSigned isHeld sameMessage
  rw [run.serial signed isSigned, run.serial shown.held isHeld] at serial
  have deposit := run.secrets _ (ledger.deposited signed isSigned) _
    (ledger.deposited shown.held isHeld)
    (free.secret_eq isSigned isHeld le_rfl le_rfl serial)
  refine { moved with redeemed := ?_, own := ⟨?_, run.own.issued⟩ }
  · intro redemption isRedeemed
    rcases List.mem_cons.mp isRedeemed with rfl | isRedeemed
    · exact member
    · exact run.redeemed redemption isRedeemed
  · intro redemption isRedeemed
    rcases List.mem_cons.mp isRedeemed with rfl | isRedeemed
    · rw [← deposit, ← run.own.issued signed isSigned, issuer]
    · exact run.own.redeemed redemption isRedeemed

theorem BlindRun.step (run : BlindRun keys world) (ledger : Ledger (blindLawful B) world)
    (met : Unforged keys world action) (apart : KeysApart keys after)
    (free : CollisionFree world) (stepped : world.StepCase action after) :
    BlindRun keys after := by
  cases stepped with
  | idle => exact run
  | @failed action scheme state fails =>
      apply run.withScheme
      cases fails with
      | issue done =>
          obtain ⟨_, _, same⟩ := Option.map_eq_some_iff.mp done
          cases same
      | verify done => rw [blind_refused done]
      | applyCharge done => rw [(blind_charged done).1]
      | verifyWithdrawal done =>
          dsimp only at done
          split at done
          · rename_i refused
            cases done
            rw [blind_refused refused]
          · cases done
  | issued unused done =>
      obtain ⟨_, signed, same⟩ := Option.map_eq_some_iff.mp done
      cases same
      exact (run.withScheme rfl).add (run.secrets_cons unused) (blind_signed signed).2.1 rfl
  | shown member shows =>
      refine { run with shown := ?_, redeemed := ?_, own := ⟨run.own.redeemed, run.own.issued⟩ }
      · intro shown isShown
        rcases List.mem_cons.mp isShown with rfl | isShown
        · refine ⟨member, ?_⟩
          rcases shows with built | ⟨chargeCap, seed, token, shows⟩
          · exact built
          · dsimp only at shows
            split at shows
            · cases shows
            · cases shows
              rfl
        · exact run.shown shown isShown
      · intro redemption isRedeemed
        exact List.mem_cons_of_mem _ (run.redeemed redemption isRedeemed)
  | verified found done =>
      exact run.accepted ledger (List.mem_of_getElem? found) done (met _ found) apart free
  | @charged scheme index charge seed shown credential state found done =>
      obtain ⟨same, charges⟩ := blind_charged done
      obtain ⟨_, signed⟩ := charges _ rfl
      have isRedeemed := List.mem_of_getElem? found
      have isOwn : shown.held.deposit.scheme = scheme := run.own.redeemed _ isRedeemed
      have before := run.serial _ (run.shown _ (run.redeemed _ isRedeemed)).1
      apply (run.withScheme (by rw [same])).add run.secrets _ isOwn.symm
      rw [(blind_signed signed).2.1, before]
      rfl
  | settled found done =>
      dsimp only at done
      split at done
      · cases done
      · rename_i verified
        cases done
        exact run.accepted ledger (List.mem_of_getElem? found) verified (met _ found) apart free

theorem BlindRun.keyed (run : BlindRun keys world) : Keyed (blindLawful B) world := by
  intro first isFirst second isSecond sameDeposit sameDepth
  change first.credential.serial = second.credential.serial
  rw [run.serial first isFirst, run.serial second isSecond, sameDeposit, sameDepth]

end Blind

section Anchor

variable {F : AnchorFunctions}

theorem anchor_verified {scheme after : StateAnchorScheme F}
    {presentation : StateAnchorPresentation F} {token : Felt252}
    (done : scheme.verify presentation = (.ok token, after)) :
    presentation.nullifier ∉ scheme.spent ∧
      after = { scheme with spent := presentation.nullifier :: scheme.spent } := by
  unfold StateAnchorScheme.verify at done
  split at done
  · cases done
  · split at done
    · cases done
    · rename_i fresh
      cases done
      exact ⟨fresh, rfl⟩

theorem anchor_refused {scheme after : StateAnchorScheme F}
    {presentation : StateAnchorPresentation F} {error : AuthError}
    (done : scheme.verify presentation = (.error error, after)) : after = scheme := by
  unfold StateAnchorScheme.verify at done
  split at done
  · cases done
    rfl
  · split at done <;> cases done
    rfl

theorem anchor_charged {scheme after : StateAnchorScheme F}
    {credential : StateAnchorCredential F} {presentation : StateAnchorPresentation F}
    {charge : Nat} {result : Except AuthError (StateAnchorCredential F)}
    (done : scheme.applyCharge credential presentation charge = (result, after)) :
    after.spent = scheme.spent ∧
      ∀ next, result = .ok next → next.balance + charge = credential.balance := by
  unfold StateAnchorScheme.applyCharge at done
  split at done
  · rename_i covered
    dsimp only at done
    split at done
    · cases done
      refine ⟨rfl, ?_⟩
      rintro _ ⟨⟩
    · split at done
      · cases done
        refine ⟨rfl, ?_⟩
        rintro _ ⟨⟩
      · cases done
        refine ⟨rfl, ?_⟩
        rintro _ ⟨⟩
        exact Nat.sub_add_cancel covered
  · cases done
    refine ⟨rfl, ?_⟩
    rintro _ ⟨⟩

/-- Nullifiers are the spend tokens of state-anchor credentials. -/
def anchorLawful (F : AnchorFunctions) : Lawful (stateAnchorScheme F) where
  token credential := F.computeNullifier credential.secret credential.anchor
  shownToken := StateAnchorPresentation.nullifier
  shownBalance := StateAnchorPresentation.balance
  spent := StateAnchorScheme.spent
  issued := by
    intro state secret balance seed result after done
    cases done
    refine ⟨rfl, ?_⟩
    rintro _ ⟨⟩
    rfl
  authenticated := by
    intro credential chargeCap seed presentation shown done
    dsimp only at done
    split at done
    · cases done
    · cases done
      exact ⟨rfl, rfl⟩
  verified := by
    intro state presentation result after done
    obtain ⟨fresh, same⟩ := anchor_verified done
    rw [same]
    exact ⟨fresh, rfl⟩
  refused := by
    intro state presentation error after done
    rw [anchor_refused done]
  charged := by
    intro state credential presentation charge seed result after done
    exact anchor_charged (Option.some.inj done)
  built credential := ⟨rfl, rfl⟩
  settled := by
    intro state presentation amount result after done
    dsimp only at done
    split at done
    · cases done
    · rename_i token scheme verified
      cases done
      obtain ⟨fresh, same⟩ := anchor_verified verified
      rw [same]
      exact ⟨rfl, fresh, rfl⟩
  unsettled := by
    intro state presentation error after done
    dsimp only at done
    split at done
    · rename_i error scheme refused
      cases done
      rw [anchor_refused refused]
    · cases done

end Anchor

section Guarded

variable {S : CredentialScheme} {L : Lawful S} {world after : World S} {action : Action S}

/-- Presentations are given only to the instance that has issued their credential, and
every credential is charged once at most. -/
def Guarded (world : World S) : Action S → Prop
  | .verify scheme shown | .verifyWithdrawal scheme shown =>
      ∀ presented ∈ world.shown[shown]?, presented.held.deposit.scheme = scheme
  | .applyCharge redeemed _ _ =>
      ∀ redemption ∈ world.redeemed[redeemed]?, ∀ held ∈ world.held,
        held.deposit = redemption.shown.held.deposit →
          held.depth ≠ redemption.shown.held.depth + 1
  | _ => True

instance (world : World S) : (action : Action S) → Decidable (Guarded world action)
  | .verify scheme shown | .verifyWithdrawal scheme shown =>
      inferInstanceAs (Decidable
        (∀ presented ∈ world.shown[shown]?, presented.held.deposit.scheme = scheme))
  | .applyCharge redeemed _ _ =>
      inferInstanceAs (Decidable (∀ redemption ∈ world.redeemed[redeemed]?,
        ∀ held ∈ world.held, held.deposit = redemption.shown.held.deposit →
          held.depth ≠ redemption.shown.held.depth + 1))
  | .issue _ _ _ _ | .authenticate _ _ _ | .buildWithdrawal _ => isTrue trivial

/-- No two credentials from one deposit have as many charges. -/
def Single (world : World S) : Prop :=
  ∀ first ∈ world.held, ∀ second ∈ world.held, first.deposit = second.deposit →
    first.depth = second.depth → first = second

theorem Single.keyed (single : Single world) : Keyed L world := by
  intro first isFirst second isSecond sameDeposit sameDepth
  rw [single first isFirst second isSecond sameDeposit sameDepth]

theorem Single.add (single : Single world) {new : Held S}
    (isNew : ∀ held ∈ world.held, held.deposit = new.deposit → held.depth ≠ new.depth)
    {first second : Held S} (isFirst : first ∈ new :: world.held)
    (isSecond : second ∈ new :: world.held) (sameDeposit : first.deposit = second.deposit)
    (sameDepth : first.depth = second.depth) : first = second := by
  rcases List.mem_cons.mp isFirst with rfl | earlierFirst
  · rcases List.mem_cons.mp isSecond with rfl | earlierSecond
    · rfl
    · exact (isNew second earlierSecond sameDeposit.symm sameDepth.symm).elim
  · rcases List.mem_cons.mp isSecond with rfl | earlierSecond
    · exact (isNew first earlierFirst sameDeposit sameDepth).elim
    · exact single first earlierFirst second earlierSecond sameDeposit sameDepth

theorem Single.step (single : Single world) (ledger : Ledger L world) (met : Guarded world action)
    (stepped : world.StepCase action after) : Single after := by
  cases stepped with
  | issued unused done =>
      intro first isFirst second isSecond
      refine single.add (fun held member sameDeposit => ?_) isFirst isSecond
      have below := ledger.numbered _ (ledger.deposited held member)
      rw [sameDeposit] at below
      exact absurd below (Nat.lt_irrefl _)
  | charged found done =>
      intro first isFirst second isSecond
      exact single.add (fun held member => met _ found held member) isFirst isSecond
  | idle | failed _ | shown _ _ | verified _ _ | settled _ _ => exact single

theorem Own.step (own : Own world) (met : Guarded world action)
    (stepped : world.StepCase action after) : Own after where
  redeemed := by
    cases stepped with
    | verified found done | settled found done =>
        intro redemption member
        rcases List.mem_cons.mp member with rfl | member
        · exact met _ found
        · exact own.redeemed redemption member
    | idle | failed _ | shown _ _ | issued _ _ | charged _ _ => exact own.redeemed
  issued := by
    cases stepped with
    | issued unused done =>
        intro held member
        rcases List.mem_cons.mp member with rfl | member
        · rfl
        · exact own.issued held member
    | charged found done =>
        intro held member
        rcases List.mem_cons.mp member with rfl | member
        · exact (own.redeemed _ (List.mem_of_getElem? found)).symm
        · exact own.issued held member
    | idle | failed _ | shown _ _ | verified _ _ | settled _ _ => exact own.issued

end Guarded

section Conservation

variable {B : BlindFunctions} {F : AnchorFunctions} {keys : Nat → B.Key}

/-- An instance of the state-anchor scheme that has spent nothing. -/
def StateAnchorScheme.new (signer : F.Signer) (epoch : UInt32) (protocolVersion : UInt16)
    (chainId : UInt64) (contract : Felt252) : StateAnchorScheme F :=
  ⟨signer, epoch, protocolVersion, chainId, contract, []⟩

theorem blind_known {world : World (blindSignatureScheme B)}
    (reached : World.Reachable (Unforged keys)
      (World.started fun scheme => BlindSignatureScheme.new B (keys scheme)) world)
    (apart : KeysApart keys world) (free : CollisionFree world) :
    Ledger (blindLawful B) world ∧ BlindRun keys world := by
  induction reached with
  | start => exact ⟨.started _, .started keys⟩
  | step _ met stepped ih =>
      have stepCase := World.step_case stepped
      obtain ⟨held, redeemed⟩ := stepCase.grows
      have freeBefore := free.mono held
      obtain ⟨ledger, run⟩ := ih (apart.mono held redeemed) freeBefore
      exact ⟨ledger.step stepCase, run.step ledger met apart freeBefore stepCase⟩

/-- Blind signatures conserve what was issued in every run of instances with different keys
that shows no forgery and no collision, and state anchors in every run whose steps are
guarded. -/
theorem credentials_conserved (keys : Nat → B.Key) (anchors : Nat → StateAnchorScheme F) :
    (∀ world, World.Reachable (Unforged keys)
        (World.started (S := blindSignatureScheme B) fun scheme =>
          BlindSignatureScheme.new B (keys scheme)) world →
      KeysApart keys world → CollisionFree world → ∀ scheme, Conserved world scheme) ∧
    ∀ world, World.Reachable Guarded (World.started (S := stateAnchorScheme F) anchors) world →
      ∀ scheme, Conserved world scheme := by
  constructor
  · intro world reached apart free scheme
    obtain ⟨ledger, run⟩ := blind_known reached apart free
    exact ledger.conserved run.own run.keyed scheme
  · intro world reached scheme
    have known : Ledger (anchorLawful F) world ∧ Own world ∧ Single world := by
      induction reached with
      | start =>
          exact ⟨.started _, by constructor <;> simp [World.started],
            by simp [Single, World.started]⟩
      | step _ met stepped ih =>
          have stepCase := World.step_case stepped
          exact ⟨ih.1.step stepCase, ih.2.1.step met stepCase, ih.2.2.step ih.1 met stepCase⟩
    exact known.1.conserved known.2.1 known.2.2.keyed scheme

/-- Signatures that name their key and their message. -/
@[reducible]
def plainSignatures : BlindFunctions where
  Key := Nat
  PublicKey := Nat
  Signature := Nat × Felt252
  Seed := Unit
  publicKey key := key
  blindIssue key message _ := some (key, message)
  verify key message signature := signature == (key, message)
  hashToFelt _ parts := ⟨parts.foldl (fun value part => 1000 * value + match part with
    | .text _ => 1
    | .balance balance => balance + 2
    | .felt felt => felt.value + 3) 0⟩

/-- Every instance has a key of its own. -/
def plainKeys : Nat → plainSignatures.Key :=
  fun scheme => scheme

/-- A signer that counts its leaves and returns the message. -/
@[reducible]
def plainAnchors : AnchorFunctions where
  Signer := Nat
  XmssSignature := Felt252
  genesisAnchor := ⟨1⟩
  commit balance blinding := (⟨balance⟩, blinding)
  addBlinding first second := ⟨first.value + second.value⟩
  computeNullifier secret anchor := ⟨1000 * secret.value + anchor.value⟩
  computeBlindDelta _ _ leafIndex := ⟨leafIndex⟩
  computeNextAnchor _ nullifier _ _ leafIndex := ⟨10 * nullifier.value + leafIndex⟩
  computeStateMessage _ _ _ x y anchor := ⟨x.value + 10 * y.value + 100 * anchor.value⟩
  serverRng nullifier _ := nullifier
  nextIndex signer := signer
  rootFelt _ := ⟨9⟩
  sign signer message := (some (message, signer), signer + 1)
  withEpoch signature _ := signature
  xmssVerify _ message signature := signature == message

/-- New instances of the plain signer. -/
def plainAnchorSchemes (_ : Nat) : StateAnchorScheme plainAnchors :=
  .new 0 1 1 31337 ⟨7⟩

abbrev plainAnchorStart : World (stateAnchorScheme plainAnchors) :=
  World.started plainAnchorSchemes

/-- The world after these actions, if each of them meets the condition. -/
def World.run {S : CredentialScheme} (meets : World S → Action S → Prop)
    [∀ world action, Decidable (meets world action)] :
    World S → List (Action S) → Option (World S)
  | world, [] => some world
  | world, action :: actions =>
      if meets world action then
        (world.step action).bind fun after => after.run meets actions
      else none

theorem World.reachable_of_run {S : CredentialScheme} {meets : World S → Action S → Prop}
    [∀ world action, Decidable (meets world action)] {start world last : World S}
    {actions : List (Action S)} (reached : World.Reachable meets start world)
    (ran : world.run meets actions = some last) : World.Reachable meets start last := by
  induction actions generalizing world with
  | nil =>
      cases ran
      exact reached
  | cons action actions ih =>
      obtain ⟨met, ran⟩ := Option.ite_none_right_eq_some.mp ran
      obtain ⟨after, stepped, ran⟩ := Option.bind_eq_some_iff.mp ran
      exact ih (.step reached met stepped) ran

/-- One charge, and the withdrawal of what is left. -/
def chargeAndWithdraw {S : CredentialScheme} (seed : S.Seed) : List (Action S) :=
  [.issue 0 ⟨5⟩ 100 seed, .authenticate 0 10 seed, .verify 0 0, .applyCharge 0 10 seed,
    .buildWithdrawal 0, .verifyWithdrawal 0 0]

theorem credentials_conserved_afterCharge :
    (∃ world : World (blindSignatureScheme plainSignatures),
      (world.settled 0).map (fun redemption => redemption.amount) = [some 90] ∧
        Conserved world 0) ∧
    ∃ world : World (stateAnchorScheme plainAnchors),
      (world.settled 0).map (fun redemption => redemption.amount) = [some 90] ∧
        Conserved world 0 := by
  have blind : ∃ world ∈ (World.started (S := blindSignatureScheme plainSignatures)
      fun scheme => BlindSignatureScheme.new plainSignatures (plainKeys scheme)).run
        (Unforged plainKeys) (chargeAndWithdraw ()),
      (world.settled 0).map (fun redemption => redemption.amount) = [some 90] ∧
        KeysApart plainKeys world ∧ CollisionFree world := by
    decide
  have anchor : ∃ world ∈ plainAnchorStart.run Guarded (chargeAndWithdraw ⟨3⟩),
      (world.settled 0).map (fun redemption => redemption.amount) = [some 90] := by
    decide
  obtain ⟨blindWorld, blindRan, blindSettled, apart, free⟩ := blind
  obtain ⟨anchorWorld, anchorRan, anchorSettled⟩ := anchor
  have conserved := credentials_conserved (F := plainAnchors) plainKeys plainAnchorSchemes
  exact ⟨⟨blindWorld, blindSettled,
      conserved.1 blindWorld (World.reachable_of_run .start blindRan) apart free 0⟩,
    anchorWorld, anchorSettled,
      conserved.2 anchorWorld (World.reachable_of_run .start anchorRan) 0⟩

/-- One presentation is charged twice, and both successors are withdrawn. -/
def chargeTwice : List (Action (stateAnchorScheme plainAnchors)) :=
  [.issue 0 ⟨5⟩ 100 ⟨3⟩, .authenticate 0 10 ⟨3⟩, .verify 0 0, .applyCharge 0 10 ⟨3⟩,
    .applyCharge 0 20 ⟨3⟩, .buildWithdrawal 0, .verifyWithdrawal 0 0, .buildWithdrawal 1,
    .verifyWithdrawal 0 0]

/-- More is withdrawn than was issued, and a presentation of another instance is
accepted. -/
theorem state_anchors_unconserved :
    (∃ world : World (stateAnchorScheme plainAnchors),
      World.Reachable (fun _ _ => True) plainAnchorStart world ∧
        ((world.issuedBy 0).map Deposit.balance).sum <
          ((world.settled 0).map fun redemption => redemption.amount.getD 0).sum) ∧
    ∃ world : World (stateAnchorScheme plainAnchors),
      World.Reachable (fun _ _ => True) plainAnchorStart world ∧
        ∃ redemption ∈ world.redeemed, redemption.scheme = 0 ∧
          redemption.shown.held.deposit.scheme = 1 := by
  have twice : ∃ world ∈ plainAnchorStart.run (fun _ _ => True) chargeTwice,
      ((world.issuedBy 0).map Deposit.balance).sum <
        ((world.settled 0).map fun redemption => redemption.amount.getD 0).sum := by
    decide
  have foreign : ∃ world ∈ plainAnchorStart.run (fun _ _ => True)
      [.issue 1 ⟨5⟩ 100 ⟨3⟩, .authenticate 0 10 ⟨3⟩, .verify 0 0],
      ∃ redemption ∈ world.redeemed, redemption.scheme = 0 ∧
        redemption.shown.held.deposit.scheme = 1 := by
    decide
  obtain ⟨first, firstRan, exceeds⟩ := twice
  obtain ⟨second, secondRan, accepted⟩ := foreign
  exact ⟨⟨first, World.reachable_of_run .start firstRan, exceeds⟩,
    second, World.reachable_of_run .start secondRan, accepted⟩

end Conservation

end ZkApi.Auth
