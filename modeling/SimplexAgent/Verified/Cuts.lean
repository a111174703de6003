import Mathlib

/-!
# Cutting a range at increasing places

A strictly increasing list of places that begins with 0 cuts the numbers below some size into
pieces, the last of which may be empty. `upperBound starts x` counts the places up to `x`, so
the piece of `x` is the one before it. `lt_upperBound_iff` says which places are counted, and
everything about pieces is read off it: a number is found in the one piece that begins at or
before it and ends after it, and the lengths of the pieces add up to the size.
-/

namespace SimplexAgent.Verified.Cuts

/-- Places that cut the numbers below `size`. -/
structure Cutting (starts : List Nat) (size : Nat) : Prop where
  increasing : starts.Pairwise (· < ·)
  first : starts[0]? = some 0
  inside : ∀ start ∈ starts, start ≤ size

/-- The number of places up to `x`: the index of the first one above it. -/
def upperBound (starts : List Nat) (x : Nat) : Nat := (starts.takeWhile (· ≤ x)).length

theorem upperBound_nil (x : Nat) : upperBound [] x = 0 := rfl

theorem upperBound_cons_of_le {start x : Nat} (rest : List Nat) (h : start ≤ x) :
    upperBound (start :: rest) x = upperBound rest x + 1 := by
  simp [upperBound, h]

theorem upperBound_cons_of_lt {start x : Nat} (rest : List Nat) (h : x < start) :
    upperBound (start :: rest) x = 0 := by
  simp [upperBound, h]

/-- In increasing places, the ones up to `x` are those below the bound. -/
theorem lt_upperBound_iff {starts : List Nat} (h : starts.Pairwise (· < ·)) (x i : Nat) :
    i < upperBound starts x ↔ ∃ start, starts[i]? = some start ∧ start ≤ x := by
  induction starts generalizing i with
  | nil => simp [upperBound_nil]
  | cons start rest ih =>
    obtain ⟨hFirst, hRest⟩ := List.pairwise_cons.mp h
    by_cases hLe : start ≤ x
    · rw [upperBound_cons_of_le rest hLe]
      cases i with
      | zero => simp [hLe]
      | succ i =>
        rw [List.getElem?_cons_succ, ← ih hRest i]
        omega
    · rw [upperBound_cons_of_lt rest (Nat.not_le.mp hLe)]
      constructor
      · intro hNone
        cases hNone
      · rintro ⟨later, hLater, hBelow⟩
        cases i with
        | zero =>
          rw [List.getElem?_cons_zero, Option.some.injEq] at hLater
          omega
        | succ i =>
          have hAfter := hFirst later (List.mem_of_getElem? hLater)
          omega

namespace Cutting

variable {starts : List Nat} {size : Nat}

section

variable (h : Cutting starts size)
include h

/-- Every number is in a piece. -/
theorem upperBound_pos (x : Nat) : 0 < upperBound starts x :=
  (lt_upperBound_iff h.increasing x 0).mpr ⟨0, h.first, Nat.zero_le x⟩

/-- The piece of `x` begins at or before it. -/
theorem start_le (x : Nat) :
    ∃ start, starts[upperBound starts x - 1]? = some start ∧ start ≤ x := by
  have hPos := h.upperBound_pos x
  exact (lt_upperBound_iff h.increasing x _).mp (by omega)

theorem lt_next {x next : Nat} (hNext : starts[upperBound starts x]? = some next) : x < next := by
  by_contra hLe
  have hBelow := (lt_upperBound_iff h.increasing x _).mpr ⟨next, hNext, Nat.not_lt.mp hLe⟩
  exact Nat.lt_irrefl _ hBelow

/-- The piece that begins at or before `x` and is the last one or ends after it. -/
theorem upperBound_eq {x line start : Nat} (hStart : starts[line]? = some start) (hLe : start ≤ x)
    (hNext : ∀ next, starts[line + 1]? = some next → x < next) :
    upperBound starts x = line + 1 := by
  have hBelow := (lt_upperBound_iff h.increasing x line).mpr ⟨start, hStart, hLe⟩
  have hNot : ¬line + 1 < upperBound starts x := by
    rw [lt_upperBound_iff h.increasing]
    rintro ⟨next, hSome, hAfter⟩
    have := hNext next hSome
    omega
  omega

theorem start_lt_next {line start next : Nat} (hStart : starts[line]? = some start)
    (hNext : starts[line + 1]? = some next) :
    start < next := by
  obtain ⟨hLine, rfl⟩ := List.getElem?_eq_some_iff.mp hStart
  obtain ⟨hAfter, rfl⟩ := List.getElem?_eq_some_iff.mp hNext
  exact List.pairwise_iff_getElem.mp h.increasing line (line + 1) hLine hAfter
    (Nat.lt_succ_self line)

end

def pieceEnd (starts : List Nat) (size line : Nat) : Nat := (starts[line + 1]?).getD size

theorem start_le_pieceEnd (h : Cutting starts size) {line start : Nat}
    (hStart : starts[line]? = some start) : start ≤ pieceEnd starts size line := by
  unfold pieceEnd
  cases hNext : starts[line + 1]? with
  | none => exact h.inside start (List.mem_of_getElem? hStart)
  | some next => exact Nat.le_of_lt (h.start_lt_next hStart hNext)

theorem sum_lengths (h : Cutting starts size) (count : Nat) (hCount : count ≤ starts.length) :
    ((List.range count).map fun line =>
        pieceEnd starts size line - starts.getD line 0).sum = starts.getD count size := by
  induction count with
  | zero =>
    have hFirst : starts.getD 0 size = 0 := by rw [List.getD_eq_getElem?_getD, h.first]; rfl
    rw [List.range_zero, List.map_nil, List.sum_nil, hFirst]
  | succ count ih =>
    have hStart : starts[count]? = some starts[count] := List.getElem?_eq_getElem hCount
    have hLe := h.start_le_pieceEnd hStart
    rw [List.range_succ, List.map_append, List.sum_append, ih (Nat.le_of_succ_le hCount),
      List.map_singleton, List.sum_singleton, List.getD_eq_getElem?_getD,
      List.getD_eq_getElem?_getD, List.getD_eq_getElem?_getD, hStart, Option.getD_some,
      Option.getD_some, Nat.add_sub_cancel' hLe]
    rfl

end Cutting

end SimplexAgent.Verified.Cuts
