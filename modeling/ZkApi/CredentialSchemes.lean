import Mathlib.Algebra.Order.BigOperators.Group.List
import Mathlib.Algebra.Order.Monoid.NatCast
import Mathlib.Algebra.Order.Ring.Nat
import Mathlib.Data.List.Pairwise
import Mathlib.Data.List.Perm.Subperm
import ZkApi.ProtocolTypes

/-!
# Credential schemes

The interface that both methods of authentication implement, and the runs of its
operations by any number of clients on any number of instances.  Of every
credential the run remembers the deposit that it comes from, how many charges
were applied on the way and what they sum up to.
-/

namespace ZkApi.Auth

inductive AuthError where
  | verificationFailed (message : String)
  | insufficientBalance (have_ need : Nat)
  | replay
  | crypto (message : String)
deriving DecidableEq

/-- The operations of a scheme.  Those that draw random values take a seed, and those
that can panic have no result then. -/
structure CredentialScheme where
  State : Type
  Credential : Type
  Presentation : Type
  Token : Type
  Seed : Type
  issue : State → Felt252 → Nat → Seed → Option (Except AuthError Credential × State)
  authenticate : Credential → Nat → Seed → Except AuthError (Presentation × Token)
  verify : State → Presentation → Except AuthError Token × State
  applyCharge : State → Credential → Presentation → Nat → Seed →
    Option (Except AuthError Credential × State)
  buildWithdrawal : Credential → Presentation
  verifyWithdrawal : State → Presentation → Except AuthError (Nat × Token) × State
  balance : Credential → Nat

section Runs

variable (S : CredentialScheme)

structure Deposit where
  id : Nat
  scheme : Nat
  secret : Felt252
  balance : Nat
deriving DecidableEq

/-- A credential, with the deposit it comes from, the charges applied to it and the instance
that has issued or re-issued it. -/
structure Held where
  credential : S.Credential
  deposit : Deposit
  depth : Nat
  charged : Nat
  issuer : Nat

structure Shown where
  presentation : S.Presentation
  held : Held S

/-- An accepted presentation; one that was accepted as a withdrawal settles an
amount. -/
structure Redemption where
  scheme : Nat
  shown : Shown S
  amount : Option Nat

structure World where
  schemes : Nat → S.State
  deposits : List Deposit
  held : List (Held S)
  shown : List (Shown S)
  redeemed : List (Redemption S)

/-- Credentials, presentations and accepted presentations are named by their place in
the lists of the world. -/
inductive Action where
  | issue (scheme : Nat) (secret : Felt252) (balance : Nat) (seed : S.Seed)
  | authenticate (held chargeCap : Nat) (seed : S.Seed)
  | verify (scheme shown : Nat)
  | applyCharge (redeemed charge : Nat) (seed : S.Seed)
  | buildWithdrawal (held : Nat)
  | verifyWithdrawal (scheme shown : Nat)

variable {S}

def World.withScheme (world : World S) (scheme : Nat) (state : S.State) : World S :=
  { world with schemes := Function.update world.schemes scheme state }

/-- The deposit that is added by an issuance. -/
def World.newDeposit (world : World S) (scheme : Nat) (secret : Felt252) (balance : Nat) :
    Deposit :=
  ⟨world.deposits.length, scheme, secret, balance⟩

theorem World.withScheme_self (world : World S) (scheme : Nat) (state : S.State) :
    (world.withScheme scheme state).schemes scheme = state :=
  Function.update_self _ _ _

theorem World.withScheme_other (world : World S) {scheme other : Nat} (state : S.State)
    (apart : other ≠ scheme) :
    (world.withScheme scheme state).schemes other = world.schemes other :=
  Function.update_of_ne apart _ _

/-- An issuance for a secret that was used before, and a charge on a presentation that
was not accepted by a verification, are no steps. -/
def World.step (world : World S) : Action S → Option (World S)
  | .issue scheme secret balance seed =>
      if ∀ deposit ∈ world.deposits, deposit.secret ≠ secret then
        (S.issue (world.schemes scheme) secret balance seed).map fun
          | (.error _, state) => world.withScheme scheme state
          | (.ok credential, state) =>
              let deposit := world.newDeposit scheme secret balance
              { world.withScheme scheme state with
                deposits := deposit :: world.deposits
                held := ⟨credential, deposit, 0, 0, scheme⟩ :: world.held }
      else none
  | .authenticate held chargeCap seed =>
      world.held[held]?.map fun held =>
        match S.authenticate held.credential chargeCap seed with
        | .error _ => world
        | .ok (presentation, _) => { world with shown := ⟨presentation, held⟩ :: world.shown }
  | .verify scheme shown =>
      world.shown[shown]?.map fun shown =>
        match S.verify (world.schemes scheme) shown.presentation with
        | (.error _, state) => world.withScheme scheme state
        | (.ok _, state) =>
            { world.withScheme scheme state with
              redeemed := ⟨scheme, shown, none⟩ :: world.redeemed }
  | .applyCharge redeemed charge seed =>
      world.redeemed[redeemed]?.bind fun
        | ⟨_, _, some _⟩ => none
        | ⟨scheme, ⟨presentation, held⟩, none⟩ =>
            (S.applyCharge (world.schemes scheme) held.credential presentation charge seed).map
              fun
                | (.error _, state) => world.withScheme scheme state
                | (.ok credential, state) =>
                    { world.withScheme scheme state with
                      held := ⟨credential, held.deposit, held.depth + 1,
                        held.charged + charge, scheme⟩ :: world.held }
  | .buildWithdrawal held =>
      world.held[held]?.map fun held =>
        { world with shown := ⟨S.buildWithdrawal held.credential, held⟩ :: world.shown }
  | .verifyWithdrawal scheme shown =>
      world.shown[shown]?.map fun shown =>
        match S.verifyWithdrawal (world.schemes scheme) shown.presentation with
        | (.error _, state) => world.withScheme scheme state
        | (.ok (amount, _), state) =>
            { world.withScheme scheme state with
              redeemed := ⟨scheme, shown, some amount⟩ :: world.redeemed }

/-- The worlds that are reached in steps that all meet a condition. -/
inductive World.Reachable (meets : World S → Action S → Prop) (start : World S) : World S → Prop
  | start : Reachable meets start start
  | step {world after : World S} {action : Action S} (reached : Reachable meets start world)
      (met : meets world action) (stepped : world.step action = some after) :
      Reachable meets start after

/-- Nothing has been issued by new instances. -/
def World.started (schemes : Nat → S.State) : World S :=
  ⟨schemes, [], [], [], []⟩

end Runs

section Lawful

/-- What the operations of a scheme do with spend tokens and balances. -/
structure Lawful (S : CredentialScheme) where
  token : S.Credential → S.Token
  shownToken : S.Presentation → S.Token
  shownBalance : S.Presentation → Nat
  spent : S.State → List S.Token
  issued {state secret balance seed result after} :
    S.issue state secret balance seed = some (result, after) → spent after = spent state ∧
      ∀ credential, result = .ok credential → S.balance credential = balance
  authenticated {credential chargeCap seed presentation shown} :
    S.authenticate credential chargeCap seed = .ok (presentation, shown) →
      shownToken presentation = token credential ∧
        shownBalance presentation = S.balance credential
  verified {state presentation result after} :
    S.verify state presentation = (.ok result, after) →
      shownToken presentation ∉ spent state ∧ spent after = shownToken presentation :: spent state
  refused {state presentation error after} :
    S.verify state presentation = (.error error, after) → spent after = spent state
  charged {state credential presentation charge seed result after} :
    S.applyCharge state credential presentation charge seed = some (result, after) →
      spent after = spent state ∧
        ∀ next, result = .ok next → S.balance next + charge = S.balance credential
  built (credential : S.Credential) :
    shownToken (S.buildWithdrawal credential) = token credential ∧
      shownBalance (S.buildWithdrawal credential) = S.balance credential
  settled {state presentation amount result after} :
    S.verifyWithdrawal state presentation = (.ok (amount, result), after) →
      amount = shownBalance presentation ∧ shownToken presentation ∉ spent state ∧
        spent after = shownToken presentation :: spent state
  unsettled {state presentation error after} :
    S.verifyWithdrawal state presentation = (.error error, after) → spent after = spent state

end Lawful

section Steps

variable {S : CredentialScheme}

/-- An operation has failed and has left this state. -/
inductive Fails (before after : S.State) : Prop
  | issue {secret : Felt252} {balance : Nat} {seed : S.Seed} {error : AuthError}
      (done : S.issue before secret balance seed = some (.error error, after))
  | verify {presentation : S.Presentation} {error : AuthError}
      (done : S.verify before presentation = (.error error, after))
  | applyCharge {credential : S.Credential} {presentation : S.Presentation} {charge : Nat}
      {seed : S.Seed} {error : AuthError}
      (done : S.applyCharge before credential presentation charge seed =
        some (.error error, after))
  | verifyWithdrawal {presentation : S.Presentation} {error : AuthError}
      (done : S.verifyWithdrawal before presentation = (.error error, after))

theorem Fails.spent {before after : S.State} (fails : Fails before after) (L : Lawful S) :
    L.spent after = L.spent before := by
  cases fails with
  | issue done => exact (L.issued done).1
  | verify done => exact L.refused done
  | applyCharge done => exact (L.charged done).1
  | verifyWithdrawal done => exact L.unsettled done

/-- What a step can do. -/
inductive World.StepCase (world : World S) : Action S → World S → Prop
  | idle {action : Action S} : StepCase world action world
  | failed {action : Action S} {scheme : Nat} {state : S.State}
      (fails : Fails (world.schemes scheme) state) :
      StepCase world action (world.withScheme scheme state)
  | issued {scheme : Nat} {secret : Felt252} {balance : Nat} {seed : S.Seed}
      {credential : S.Credential} {state : S.State}
      (unused : ∀ deposit ∈ world.deposits, deposit.secret ≠ secret)
      (done : S.issue (world.schemes scheme) secret balance seed =
        some (.ok credential, state)) :
      StepCase world (.issue scheme secret balance seed)
        { world.withScheme scheme state with
          deposits := world.newDeposit scheme secret balance :: world.deposits
          held := ⟨credential, world.newDeposit scheme secret balance, 0, 0, scheme⟩ ::
            world.held }
  | shown {action : Action S} {held : Held S} {presentation : S.Presentation}
      (member : held ∈ world.held)
      (shows : presentation = S.buildWithdrawal held.credential ∨ ∃ chargeCap seed token,
        S.authenticate held.credential chargeCap seed = .ok (presentation, token)) :
      StepCase world action { world with shown := ⟨presentation, held⟩ :: world.shown }
  | verified {scheme index : Nat} {shown : Shown S} {token : S.Token} {state : S.State}
      (found : world.shown[index]? = some shown)
      (done : S.verify (world.schemes scheme) shown.presentation = (.ok token, state)) :
      StepCase world (.verify scheme index)
        { world.withScheme scheme state with
          redeemed := ⟨scheme, shown, none⟩ :: world.redeemed }
  | charged {scheme index charge : Nat} {seed : S.Seed} {shown : Shown S}
      {credential : S.Credential} {state : S.State}
      (found : world.redeemed[index]? = some ⟨scheme, shown, none⟩)
      (done : S.applyCharge (world.schemes scheme) shown.held.credential shown.presentation
        charge seed = some (.ok credential, state)) :
      StepCase world (.applyCharge index charge seed)
        { world.withScheme scheme state with
          held := ⟨credential, shown.held.deposit, shown.held.depth + 1,
            shown.held.charged + charge, scheme⟩ :: world.held }
  | settled {scheme index amount : Nat} {shown : Shown S} {token : S.Token} {state : S.State}
      (found : world.shown[index]? = some shown)
      (done : S.verifyWithdrawal (world.schemes scheme) shown.presentation =
        (.ok (amount, token), state)) :
      StepCase world (.verifyWithdrawal scheme index)
        { world.withScheme scheme state with
          redeemed := ⟨scheme, shown, some amount⟩ :: world.redeemed }

theorem World.step_case {world after : World S} {action : Action S}
    (stepped : world.step action = some after) : world.StepCase action after := by
  cases action with
  | issue scheme secret balance seed =>
      obtain ⟨unused, stepped⟩ := Option.ite_none_right_eq_some.mp stepped
      obtain ⟨⟨result, state⟩, done, same⟩ := Option.map_eq_some_iff.mp stepped
      cases result with
      | error error =>
          cases same
          exact .failed (.issue done)
      | ok credential =>
          cases same
          exact .issued unused done
  | authenticate held chargeCap seed =>
      obtain ⟨held, found, same⟩ := Option.map_eq_some_iff.mp stepped
      split at same
      · cases same
        exact .idle
      · rename_i presentation token shown
        cases same
        exact .shown (List.mem_of_getElem? found) (Or.inr ⟨_, _, _, shown⟩)
  | verify scheme shown =>
      obtain ⟨shown, found, same⟩ := Option.map_eq_some_iff.mp stepped
      split at same
      · rename_i error state done
        cases same
        exact .failed (.verify done)
      · rename_i token state done
        cases same
        exact .verified found done
  | applyCharge redeemed charge seed =>
      obtain ⟨⟨scheme, shown, amount⟩, found, stepped⟩ := Option.bind_eq_some_iff.mp stepped
      cases amount with
      | some amount => cases stepped
      | none =>
          obtain ⟨⟨result, state⟩, done, same⟩ := Option.map_eq_some_iff.mp stepped
          cases result with
          | error error =>
              cases same
              exact .failed (.applyCharge done)
          | ok credential =>
              cases same
              exact .charged found done
  | buildWithdrawal held =>
      obtain ⟨held, found, same⟩ := Option.map_eq_some_iff.mp stepped
      cases same
      exact .shown (List.mem_of_getElem? found) (Or.inl rfl)
  | verifyWithdrawal scheme shown =>
      obtain ⟨shown, found, same⟩ := Option.map_eq_some_iff.mp stepped
      split at same
      · rename_i error state done
        cases same
        exact .failed (.verifyWithdrawal done)
      · rename_i amount token state done
        cases same
        exact .settled found done

/-- A step forgets no credential and no accepted presentation. -/
theorem World.StepCase.grows {world after : World S} {action : Action S}
    (stepped : world.StepCase action after) :
    world.held ⊆ after.held ∧ world.redeemed ⊆ after.redeemed := by
  cases stepped with
  | issued _ _ | charged _ _ => exact ⟨List.subset_cons_self _ _, List.Subset.refl _⟩
  | verified _ _ | settled _ _ => exact ⟨List.Subset.refl _, List.subset_cons_self _ _⟩
  | idle | failed _ | shown _ _ => exact ⟨List.Subset.refl _, List.Subset.refl _⟩

end Steps

section Ledger

variable {S : CredentialScheme} (L : Lawful S)

/-- What is known of every credential and of every accepted presentation. -/
structure Ledger (world : World S) : Prop where
  numbered : ∀ deposit ∈ world.deposits, deposit.id < world.deposits.length
  distinct : world.deposits.Nodup
  deposited : ∀ held ∈ world.held, held.deposit ∈ world.deposits
  balanced : ∀ held ∈ world.held,
    S.balance held.credential + held.charged = held.deposit.balance
  chained : ∀ held ∈ world.held, ∀ depth < held.depth, ∃ redemption ∈ world.redeemed,
    redemption.amount = none ∧ redemption.shown.held.deposit = held.deposit ∧
      redemption.shown.held.depth = depth
  shown : ∀ shown ∈ world.shown, shown.held ∈ world.held ∧
    L.shownToken shown.presentation = L.token shown.held.credential ∧
      L.shownBalance shown.presentation = S.balance shown.held.credential
  redeemed : ∀ redemption ∈ world.redeemed, redemption.shown ∈ world.shown ∧
    ∀ amount, redemption.amount = some amount →
      amount = S.balance redemption.shown.held.credential
  spent : ∀ redemption ∈ world.redeemed,
    L.token redemption.shown.held.credential ∈ L.spent (world.schemes redemption.scheme)
  once : world.redeemed.Pairwise fun first second => first.scheme = second.scheme →
    L.token first.shown.held.credential ≠ L.token second.shown.held.credential

variable {L} {world after : World S} {action : Action S}

theorem Ledger.started (schemes : Nat → S.State) : Ledger L (World.started schemes) := by
  constructor <;> simp [World.started]

/-- Spending more tokens keeps the ledger. -/
theorem Ledger.withScheme (ledger : Ledger L world) {scheme : Nat} {state : S.State}
    (grows : L.spent (world.schemes scheme) ⊆ L.spent state) :
    Ledger L (world.withScheme scheme state) := by
  refine { ledger with spent := fun redemption member => ?_ }
  have spent := ledger.spent redemption member
  by_cases same : redemption.scheme = scheme
  · rw [same] at spent ⊢
    rw [World.withScheme_self]
    exact grows spent
  · rw [World.withScheme_other _ _ same]
    exact spent

theorem Ledger.issued (ledger : Ledger L world) {deposit : Deposit} {credential : S.Credential}
    {issuer : Nat} (isNew : deposit.id = world.deposits.length) (amount : S.balance credential = deposit.balance) :
    Ledger L { world with
      deposits := deposit :: world.deposits
      held := ⟨credential, deposit, 0, 0, issuer⟩ :: world.held } where
  numbered := by
    intro other member
    rw [List.length_cons]
    rcases List.mem_cons.mp member with rfl | member
    · omega
    · have below := ledger.numbered other member
      omega
  distinct := by
    refine List.nodup_cons.mpr ⟨fun member => ?_, ledger.distinct⟩
    have below := ledger.numbered deposit member
    omega
  deposited := by
    intro held member
    rcases List.mem_cons.mp member with rfl | member
    · exact List.mem_cons_self
    · exact List.mem_cons_of_mem _ (ledger.deposited held member)
  balanced := by
    intro held member
    rcases List.mem_cons.mp member with rfl | member
    · exact amount
    · exact ledger.balanced held member
  chained := by
    intro held member depth below
    rcases List.mem_cons.mp member with rfl | member
    · exact absurd below (Nat.not_lt_zero depth)
    · exact ledger.chained held member depth below
  shown shown member := (ledger.shown shown member).imp_left (List.mem_cons_of_mem _)
  redeemed := ledger.redeemed
  spent := ledger.spent
  once := ledger.once

theorem Ledger.charged (ledger : Ledger L world) {scheme charge : Nat} {shown : Shown S}
    {credential : S.Credential} (member : ⟨scheme, shown, none⟩ ∈ world.redeemed)
    (amount : S.balance credential + charge = S.balance shown.held.credential) :
    Ledger L { world with
      held := ⟨credential, shown.held.deposit, shown.held.depth + 1,
        shown.held.charged + charge, scheme⟩ :: world.held } where
  numbered := ledger.numbered
  distinct := ledger.distinct
  deposited := by
    intro held isHeld
    rcases List.mem_cons.mp isHeld with rfl | isHeld
    · exact ledger.deposited shown.held (ledger.shown shown (ledger.redeemed _ member).1).1
    · exact ledger.deposited held isHeld
  balanced := by
    intro held isHeld
    rcases List.mem_cons.mp isHeld with rfl | isHeld
    · have before := ledger.balanced shown.held
        (ledger.shown shown (ledger.redeemed _ member).1).1
      dsimp only
      rw [← before, ← amount]
      omega
    · exact ledger.balanced held isHeld
  chained := by
    intro held isHeld depth below
    rcases List.mem_cons.mp isHeld with rfl | isHeld
    · rcases Nat.lt_succ_iff_lt_or_eq.mp below with earlier | rfl
      · exact ledger.chained shown.held (ledger.shown shown (ledger.redeemed _ member).1).1
          depth earlier
      · exact ⟨_, member, rfl, rfl, rfl⟩
    · exact ledger.chained held isHeld depth below
  shown other isShown := (ledger.shown other isShown).imp_left (List.mem_cons_of_mem _)
  redeemed := ledger.redeemed
  spent := ledger.spent
  once := ledger.once

theorem Ledger.presented (ledger : Ledger L world) {held : Held S}
    {presentation : S.Presentation} (member : held ∈ world.held)
    (token : L.shownToken presentation = L.token held.credential)
    (amount : L.shownBalance presentation = S.balance held.credential) :
    Ledger L { world with shown := ⟨presentation, held⟩ :: world.shown } where
  numbered := ledger.numbered
  distinct := ledger.distinct
  deposited := ledger.deposited
  balanced := ledger.balanced
  chained := ledger.chained
  shown := by
    intro shown isShown
    rcases List.mem_cons.mp isShown with rfl | isShown
    · exact ⟨member, token, amount⟩
    · exact ledger.shown shown isShown
  redeemed redemption isRedeemed :=
    (ledger.redeemed redemption isRedeemed).imp_left (List.mem_cons_of_mem _)
  spent := ledger.spent
  once := ledger.once

/-- An accepted presentation has spent a token that no other one has spent. -/
theorem Ledger.accepted (ledger : Ledger L world) {scheme : Nat} {shown : Shown S}
    {amount : Option Nat} {state : S.State} (member : shown ∈ world.shown)
    (settles : ∀ settled, amount = some settled → settled = L.shownBalance shown.presentation)
    (fresh : L.shownToken shown.presentation ∉ L.spent (world.schemes scheme))
    (spends : L.spent state =
      L.shownToken shown.presentation :: L.spent (world.schemes scheme)) :
    Ledger L { world.withScheme scheme state with
      redeemed := ⟨scheme, shown, amount⟩ :: world.redeemed } := by
  obtain ⟨isHeld, token, balance⟩ := ledger.shown shown member
  have moved : Ledger L (world.withScheme scheme state) := by
    apply ledger.withScheme
    rw [spends]
    exact List.subset_cons_self _ _
  rw [token] at fresh spends
  refine { moved with redeemed := ?_, spent := ?_, chained := ?_, once := ?_ }
  · intro held member depth below
    obtain ⟨redemption, accepted, facts⟩ := ledger.chained held member depth below
    exact ⟨redemption, List.mem_cons_of_mem _ accepted, facts⟩
  · intro redemption accepted
    rcases List.mem_cons.mp accepted with rfl | accepted
    · exact ⟨member, fun settled isSettled => (settles settled isSettled).trans balance⟩
    · exact ledger.redeemed redemption accepted
  · intro redemption accepted
    rcases List.mem_cons.mp accepted with rfl | accepted
    · change L.token shown.held.credential ∈ L.spent ((world.withScheme scheme state).schemes scheme)
      rw [World.withScheme_self, spends]
      exact List.mem_cons_self
    · exact moved.spent redemption accepted
  · refine List.pairwise_cons.mpr ⟨fun other accepted sameScheme sameToken => fresh ?_,
      ledger.once⟩
    have spent := ledger.spent other accepted
    rw [← sameScheme, ← sameToken] at spent
    exact spent

theorem Ledger.step (ledger : Ledger L world) (stepped : world.StepCase action after) :
    Ledger L after := by
  cases stepped with
  | idle => exact ledger
  | failed fails =>
      apply ledger.withScheme
      rw [fails.spent L]
      exact List.Subset.refl _
  | issued unused done =>
      obtain ⟨spent, balance⟩ := L.issued done
      have moved : Ledger L (world.withScheme _ _) :=
        ledger.withScheme (by rw [spent]; exact List.Subset.refl _)
      exact moved.issued rfl (balance _ rfl)
  | shown member shows =>
      rcases shows with rfl | ⟨chargeCap, seed, token, shows⟩
      · exact ledger.presented member (L.built _).1 (L.built _).2
      · exact ledger.presented member (L.authenticated shows).1 (L.authenticated shows).2
  | verified found done =>
      obtain ⟨fresh, spends⟩ := L.verified done
      exact ledger.accepted (List.mem_of_getElem? found) (by rintro _ ⟨⟩) fresh spends
  | charged found done =>
      obtain ⟨spent, balance⟩ := L.charged done
      have moved : Ledger L (world.withScheme _ _) :=
        ledger.withScheme (by rw [spent]; exact List.Subset.refl _)
      exact moved.charged (List.mem_of_getElem? found) (balance _ rfl)
  | settled found done =>
      obtain ⟨amount, fresh, spends⟩ := L.settled done
      refine ledger.accepted (List.mem_of_getElem? found) ?_ fresh spends
      rintro settled ⟨⟩
      exact amount

end Ledger

section Conservation

variable {S : CredentialScheme} {L : Lawful S} {world : World S} {scheme : Nat}

/-- The accepted withdrawals of an instance. -/
def World.settled (world : World S) (scheme : Nat) : List (Redemption S) :=
  world.redeemed.filter fun redemption => redemption.scheme == scheme && redemption.amount.isSome

/-- The deposits that an instance has issued credentials for. -/
def World.issuedBy (world : World S) (scheme : Nat) : List Deposit :=
  world.deposits.filter fun deposit => deposit.scheme == scheme

/-- What is accepted comes from a deposit with the instance that accepts it, and so every
credential is issued by the instance of its deposit. -/
structure Own (world : World S) : Prop where
  redeemed : ∀ redemption ∈ world.redeemed,
    redemption.shown.held.deposit.scheme = redemption.scheme
  issued : ∀ held ∈ world.held, held.issuer = held.deposit.scheme

/-- Credentials with as many charges from one deposit have one spend token. -/
def Keyed (L : Lawful S) (world : World S) : Prop :=
  ∀ first ∈ world.held, ∀ second ∈ world.held, first.deposit = second.deposit →
    first.depth = second.depth → L.token first.credential = L.token second.credential

/-- An instance accepts only what it has issued or re-issued, and settles at most one withdrawal
for every deposit.  Over any credentials of different deposits among which the
settled ones are, settlements and charges sum up to no more than was issued. -/
structure Conserved (world : World S) (scheme : Nat) : Prop where
  own : ∀ redemption ∈ world.redeemed, redemption.scheme = scheme →
    redemption.shown.held.issuer = scheme ∧ redemption.shown.held.deposit.scheme = scheme
  once : ((world.settled scheme).map fun redemption => redemption.shown.held.deposit).Nodup
  sums : ∀ chains : List (Held S), (chains.map Held.deposit).Nodup →
    (∀ held ∈ chains, held ∈ world.held ∧ held.deposit.scheme = scheme) →
    (∀ redemption ∈ world.settled scheme, redemption.shown.held ∈ chains) →
      ((world.settled scheme).map fun redemption => redemption.amount.getD 0).sum +
          (chains.map Held.charged).sum ≤
        ((world.issuedBy scheme).map Deposit.balance).sum

theorem sum_map_le_of_subset {α : Type} {first second : List α} (measure : α → Nat)
    (distinct : first.Nodup) (subset : first ⊆ second) :
    (first.map measure).sum ≤ (second.map measure).sum := by
  obtain ⟨middle, permuted, sublist⟩ := distinct.subperm subset
  rw [← (permuted.map measure).sum_eq]
  exact (sublist.map measure).sum_le_sum fun _ _ => Nat.zero_le _

theorem mem_settled {redemption : Redemption S} :
    redemption ∈ world.settled scheme ↔ redemption ∈ world.redeemed ∧
      redemption.scheme = scheme ∧ redemption.amount.isSome = true := by
  simp [World.settled]

/-- Two accepted presentations of which one is no withdrawal have different tokens. -/
theorem Ledger.token_ne (ledger : Ledger L world) {first second : Redemption S}
    (isFirst : first ∈ world.redeemed) (isSecond : second ∈ world.redeemed)
    (same : first.scheme = second.scheme) (apart : first ≠ second) :
    L.token first.shown.held.credential ≠ L.token second.shown.held.credential := by
  have symmetric : Std.Symm fun first second : Redemption S => first.scheme = second.scheme →
      L.token first.shown.held.credential ≠ L.token second.shown.held.credential :=
    ⟨fun _ _ differ sameScheme => (differ sameScheme.symm).symm⟩
  exact ledger.once.forall isFirst isSecond apart same

theorem Ledger.held_of_redeemed (ledger : Ledger L world) {redemption : Redemption S}
    (member : redemption ∈ world.redeemed) : redemption.shown.held ∈ world.held :=
  (ledger.shown _ (ledger.redeemed _ member).1).1

/-- A withdrawal ends the chain of its deposit. -/
theorem Ledger.depth_le (ledger : Ledger L world) (own : Own world) (keyed : Keyed L world)
    {first second : Redemption S} (isFirst : first ∈ world.redeemed)
    (isSecond : second ∈ world.redeemed) (withdrawn : first.amount.isSome = true)
    (sameDeposit : first.shown.held.deposit = second.shown.held.deposit) :
    second.shown.held.depth ≤ first.shown.held.depth := by
  by_contra deeper
  obtain ⟨passed, isPassed, verified, deposit, depth⟩ := ledger.chained _
    (ledger.held_of_redeemed isSecond) first.shown.held.depth (by omega)
  have sameScheme : passed.scheme = first.scheme := by
    rw [← own.redeemed passed isPassed, ← own.redeemed first isFirst, deposit, sameDeposit]
  have apart : passed ≠ first := by
    rintro rfl
    rw [verified] at withdrawn
    cases withdrawn
  exact ledger.token_ne isPassed isFirst sameScheme apart
    (keyed _ (ledger.held_of_redeemed isPassed) _ (ledger.held_of_redeemed isFirst)
      (deposit.trans sameDeposit.symm) depth)

theorem Ledger.settled_once (ledger : Ledger L world) (own : Own world)
    (keyed : Keyed L world) (scheme : Nat) :
    ((world.settled scheme).map fun redemption => redemption.shown.held.deposit).Nodup := by
  rw [List.Nodup, List.pairwise_map]
  refine (ledger.once.filter _).imp_of_mem fun {first second} isFirst isSecond differ same => ?_
  obtain ⟨isFirst, firstScheme, firstWithdrawn⟩ := mem_settled.mp isFirst
  obtain ⟨isSecond, secondScheme, secondWithdrawn⟩ := mem_settled.mp isSecond
  have sameDepth : first.shown.held.depth = second.shown.held.depth :=
    Nat.le_antisymm (ledger.depth_le own keyed isSecond isFirst secondWithdrawn same.symm)
      (ledger.depth_le own keyed isFirst isSecond firstWithdrawn same)
  exact differ (firstScheme.trans secondScheme.symm)
    (keyed _ (ledger.held_of_redeemed isFirst) _ (ledger.held_of_redeemed isSecond) same sameDepth)

theorem Ledger.conserved (ledger : Ledger L world) (own : Own world) (keyed : Keyed L world)
    (scheme : Nat) : Conserved world scheme where
  own := by
    intro redemption member same
    have fromScheme := (own.redeemed redemption member).trans same
    exact ⟨(own.issued _ (ledger.held_of_redeemed member)).trans fromScheme, fromScheme⟩
  once := ledger.settled_once own keyed scheme
  sums := by
    intro chains distinct members covers
    have settledHeld : ((world.settled scheme).map fun redemption =>
        redemption.shown.held).Nodup := by
      have once := ledger.settled_once own keyed scheme
      rw [List.Nodup, List.pairwise_map] at once ⊢
      exact once.imp fun differ same => differ (congrArg Held.deposit same)
    have amounts : ((world.settled scheme).map fun redemption => redemption.amount.getD 0).sum =
        (((world.settled scheme).map fun redemption => redemption.shown.held).map fun held =>
          S.balance held.credential).sum := by
      rw [List.map_map]
      congr 1
      apply List.map_congr_left
      intro redemption member
      obtain ⟨member, _, withdrawn⟩ := mem_settled.mp member
      obtain ⟨amount, isAmount⟩ := Option.isSome_iff_exists.mp withdrawn
      rw [isAmount]
      exact (ledger.redeemed redemption member).2 amount isAmount
    have settledLe : (((world.settled scheme).map fun redemption => redemption.shown.held).map
        fun held => S.balance held.credential).sum ≤
          (chains.map fun held => S.balance held.credential).sum := by
      apply sum_map_le_of_subset _ settledHeld
      intro held member
      obtain ⟨redemption, isSettled, rfl⟩ := List.mem_map.mp member
      exact covers redemption isSettled
    have balanced : (chains.map fun held => S.balance held.credential).sum +
        (chains.map Held.charged).sum = ((chains.map Held.deposit).map Deposit.balance).sum := by
      rw [← List.sum_map_add, List.map_map]
      congr 1
      apply List.map_congr_left
      intro held member
      exact ledger.balanced held (members held member).1
    have issuedLe : ((chains.map Held.deposit).map Deposit.balance).sum ≤
        ((world.issuedBy scheme).map Deposit.balance).sum := by
      apply sum_map_le_of_subset _ distinct
      intro deposit member
      obtain ⟨held, isChain, rfl⟩ := List.mem_map.mp member
      obtain ⟨isHeld, same⟩ := members held isChain
      exact List.mem_filter.mpr ⟨ledger.deposited held isHeld, by simpa using same⟩
    omega

end Conservation

end ZkApi.Auth
