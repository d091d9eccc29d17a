import Mathlib.Algebra.Group.Nat.Defs

/-!
# Dollars and credits

One credit is one micro-dollar.  Dollar amounts are IEEE doubles, credits are
128-bit integers.
-/

namespace ZkApi.Pricing

/-- `CREDITS_PER_USD`. -/
def creditsPerUsd : Float := 1000000.0

/-- `amount.ceil() as u128`: the cast saturates, and everything that is not
positive becomes zero. -/
def ceilAsU128 (amount : Float) : Nat :=
  match amount.toModel.unpack with
  | .finite .positive mantissa exponent _ =>
      let ceiling :=
        if 0 ≤ exponent then mantissa * 2 ^ exponent.toNat
        else (mantissa + 2 ^ (-exponent).toNat - 1) / 2 ^ (-exponent).toNat
      min ceiling (2 ^ 128 - 1)
  | .infinity .positive => 2 ^ 128 - 1
  | _ => 0

def usdToCredits (costUsd : Float) : Nat :=
  if !costUsd.isFinite || costUsd ≤ 0.0 then 0
  else
    let credits := ceilAsU128 (costUsd * creditsPerUsd)
    if credits < 1 then 1 else credits

def creditsToUsd (credits : Nat) : Float :=
  Float.ofNat credits / creditsPerUsd

/-- Positive spend is never free. -/
theorem one_le_usdToCredits {costUsd : Float} (finite : costUsd.isFinite = true)
    (positive : ¬ costUsd ≤ 0.0) : 1 ≤ usdToCredits costUsd := by
  unfold usdToCredits
  rw [if_neg (by simp [finite, positive])]
  dsimp only
  split <;> omega

example : usdToCredits 0.0000051 = 6 ∧ usdToCredits 0.000010 = 10 ∧
    usdToCredits 0.0000001 = 1 ∧ usdToCredits 0.0 = 0 ∧ usdToCredits (-1.0) = 0 := by
  decide +kernel

end ZkApi.Pricing
