import Mathlib.Order.Monotone.Basic
import Mathlib.Tactic.Common

/-!
# Loops with a measure

A loop that takes something away as long as a value does not fit. It ends because each move
makes a measure smaller, so a measure is enough fuel (`shrink_fits`); what each move keeps,
the loop keeps (`shrink_keeps`).

A loop that replaces a number until nothing changes any more. Of a monotone function it goes up
or down all the way from wherever it starts, so it ends where only small numbers are raised
(`settle_total`).
-/

namespace SimplexAgent.Verified

variable {α : Type*} {fits : α → Bool} {move : α → α}

/-- Move on while the value does not fit. -/
def shrink (fits : α → Bool) (move : α → α) : Nat → α → α
  | 0, value => value
  | fuel + 1, value => if fits value then value else shrink fits move fuel (move value)

theorem shrink_fits (weight : α → Nat)
    (hLess : ∀ value, fits value = false → weight (move value) < weight value) :
    ∀ (fuel : Nat) (value : α), weight value < fuel → fits (shrink fits move fuel value) = true := by
  intro fuel
  induction fuel with
  | zero => exact fun value h => absurd h (Nat.not_lt_zero _)
  | succ fuel ih =>
    intro value h
    rw [shrink]
    by_cases hFits : fits value = true
    · rw [if_pos hFits]
      exact hFits
    · rw [if_neg hFits]
      have hMove := hLess value (Bool.not_eq_true _ ▸ hFits)
      exact ih (move value) (by omega)

theorem shrink_keeps (P : α → Prop)
    (hKeep : ∀ value, P value → fits value = false → P (move value)) :
    ∀ (fuel : Nat) (value : α), P value → P (shrink fits move fuel value) := by
  intro fuel
  induction fuel with
  | zero => exact fun value h => h
  | succ fuel ih =>
    intro value h
    rw [shrink]
    by_cases hFits : fits value = true
    · rw [if_pos hFits]
      exact h
    · rw [if_neg hFits]
      exact ih (move value) (hKeep value h (Bool.not_eq_true _ ▸ hFits))

/-! ## Until nothing changes -/

/-- Apply a function until it changes nothing. -/
def settle (f : Nat → Nat) : Nat → Nat → Option Nat
  | 0, _ => none
  | fuel + 1, n => if f n = n then some n else settle f fuel (f n)

variable {f : Nat → Nat}

theorem settle_of_measure (measure : Nat → Nat) {Moving : Nat → Prop}
    (hStep : ∀ n, Moving n → f n ≠ n → Moving (f n) ∧ measure (f n) < measure n) (n : Nat)
    (h : Moving n) : ∃ m, f m = m ∧ ∀ fuel, measure n < fuel → settle f fuel n = some m := by
  induction hSize : measure n using Nat.strong_induction_on generalizing n with
  | _ size ih =>
    by_cases hSame : f n = n
    · refine ⟨n, hSame, fun fuel hFuel => ?_⟩
      obtain ⟨fuel, rfl⟩ : ∃ k, fuel = k + 1 := ⟨fuel - 1, by omega⟩
      rw [settle, if_pos hSame]
    · obtain ⟨hNext, hLess⟩ := hStep n h hSame
      obtain ⟨m, hFixed, hRest⟩ := ih _ (hSize ▸ hLess) (f n) hNext rfl
      refine ⟨m, hFixed, fun fuel hFuel => ?_⟩
      obtain ⟨fuel, rfl⟩ : ∃ k, fuel = k + 1 := ⟨fuel - 1, by omega⟩
      rw [settle, if_neg hSame]
      exact hRest fuel (by omega)

/-- From anywhere, the loop ends at a number that is left as it is. -/
theorem settle_total {bound : Nat} (hMono : Monotone f) (hBound : ∀ n, n < f n → n < bound)
    (n : Nat) : ∃ m, f m = m ∧ ∀ fuel, bound + n < fuel → settle f fuel n = some m := by
  rcases Nat.le_total n (f n) with hUp | hDown
  · obtain ⟨m, hFixed, hRun⟩ := settle_of_measure (fun n => bound - n)
      (fun n (hUp : n ≤ f n) hMoves => ⟨hMono hUp, by have := hBound n (by omega); omega⟩) n hUp
    exact ⟨m, hFixed, fun fuel hFuel => hRun fuel (by omega)⟩
  · obtain ⟨m, hFixed, hRun⟩ := settle_of_measure id
      (fun n (hDown : f n ≤ n) hMoves => ⟨hMono hDown, Nat.lt_of_le_of_ne hDown hMoves⟩) n hDown
    exact ⟨m, hFixed, fun fuel hFuel => hRun fuel (show n < fuel by omega)⟩

end SimplexAgent.Verified
