import Mathlib.Tactic.Common

/-!
# Bisection

A loop that looks for a large number that is accepted, between one that is and one that may not
be. Whatever is accepted, what it ends with is. Where less than an accepted number is always
accepted, it ends with the largest one (`le_bisect`).
-/

namespace SimplexAgent.Verified

/-- Halve the distance from `low` to `high` until there is none. -/
def bisect (accepts : Nat → Bool) : Nat → Nat → Nat → Nat
  | 0, low, _ => low
  | fuel + 1, low, high =>
    if low < high then
      if accepts ((low + high + 1) / 2) then bisect accepts fuel ((low + high + 1) / 2) high
      else bisect accepts fuel low ((low + high + 1) / 2 - 1)
    else low

theorem bisect_accepts (accepts : Nat → Bool) (fuel : Nat) :
    ∀ low high, accepts low = true → accepts (bisect accepts fuel low high) = true := by
  induction fuel with
  | zero => exact fun low high h => h
  | succ fuel ih =>
    intro low high h
    rw [bisect]
    by_cases hMore : low < high
    · rw [if_pos hMore]
      by_cases hMiddle : accepts ((low + high + 1) / 2) = true
      · rw [if_pos hMiddle]
        exact ih _ _ hMiddle
      · rw [if_neg hMiddle]
        exact ih _ _ h
    · rw [if_neg hMore]
      exact h

theorem le_bisect {accepts : Nat → Bool}
    (hDown : ∀ m n, m ≤ n → accepts n = true → accepts m = true) {k : Nat}
    (hAccept : accepts k = true) (fuel : Nat) :
    ∀ low high, high ≤ low + fuel → k ≤ high → k ≤ bisect accepts fuel low high := by
  induction fuel with
  | zero => exact fun low high hFuel hHigh => Nat.le_trans hHigh hFuel
  | succ fuel ih =>
    intro low high hFuel hHigh
    rw [bisect]
    by_cases hMore : low < high
    · rw [if_pos hMore]
      by_cases hMiddle : accepts ((low + high + 1) / 2) = true
      · rw [if_pos hMiddle]
        exact ih _ _ (by omega) hHigh
      · have hBelow : k < (low + high + 1) / 2 := by
          by_contra hAbove
          exact hMiddle (hDown _ k (by omega) hAccept)
        rw [if_neg hMiddle]
        exact ih _ _ (by omega) (by omega)
    · rw [if_neg hMore]
      omega

end SimplexAgent.Verified
