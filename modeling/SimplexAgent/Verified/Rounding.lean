import Mathlib.Data.Rat.Floor

/-!
# Rounding to doubles

The double nearest to a rational number, and of two the one whose last place is even. An integer
below `2 ^ 53` is itself (`roundMagnitude_safe`); a larger one stays an integer that is at least
that large (`roundMagnitude_large`).
-/

namespace SimplexAgent.Verified.Rounding

/-- `q * b ^ e`. -/
def scale (b : Nat) (q : Rat) (e : Int) : Rat :=
  if 0 ≤ e then q * (b ^ e.toNat : Nat) else q / (b ^ (-e).toNat : Nat)

inductive Double where
  | finite (value : Rat)
  | infinite (negative : Bool)

def roundHalfEven (q : Rat) : Int :=
  let low := q.floor
  if q - low < 1 / 2 then low
  else if 1 / 2 < q - low then low + 1
  else if low % 2 = 0 then low
  else low + 1

/-- The binary exponent of a positive number. -/
def floorLog2 (q : Rat) : Int :=
  let guess : Int := q.num.natAbs.log2 - q.den.log2
  if q < scale 2 1 guess then guess - 1 else guess

def lastPlace (q : Rat) : Int := max (-1074) (floorLog2 q - 52)

def roundMagnitude (q : Rat) : Rat :=
  scale 2 (roundHalfEven (scale 2 q (-lastPlace q))) (lastPlace q)

/-- What is rounded up to infinity. -/
@[irreducible] def overflow : Nat := 2 ^ 1024

def toDouble (q : Rat) : Double :=
  let magnitude := roundMagnitude q.abs
  if overflow ≤ magnitude then .infinite (q < 0)
  else .finite (if q < 0 then -magnitude else magnitude)

/-! ## Rounding integers -/

theorem roundHalfEven_intCast (n : Int) : roundHalfEven n = n := by
  have hLow : (n : Rat).floor = n := Rat.floor_intCast n
  unfold roundHalfEven
  simp only [hLow, sub_self]
  rw [if_pos (by norm_num)]

theorem roundHalfEven_bounds (q : Rat) :
    q.floor ≤ roundHalfEven q ∧ roundHalfEven q ≤ q.floor + 1 := by
  unfold roundHalfEven
  dsimp only
  split
  · omega
  · split
    · omega
    · split
      · omega
      · omega

theorem lt_overflow : 2 ^ 64 < overflow := by
  unfold overflow
  exact Nat.pow_lt_pow_right (by decide) (by decide)

theorem scale_natCast (b n k : Nat) : scale b n k = ((n * b ^ k : Nat) : Rat) := by
  rw [scale, if_pos (Int.natCast_nonneg _), Int.toNat_natCast, ← Nat.cast_mul]

theorem scale_neg (b : Nat) (q : Rat) (k : Nat) : scale b q (-k : Int) = q / (b ^ k : Nat) := by
  rw [scale]
  split
  · have hZero : k = 0 := by omega
    subst hZero
    simp
  · simp

theorem floorLog2_natCast {n : Nat} (h : n ≠ 0) : floorLog2 n = n.log2 := by
  have hOne : Nat.log2 1 = 0 := by decide
  have hPower : scale 2 1 (n.log2 : Int) = ((2 ^ n.log2 : Nat) : Rat) := by
    have hScale := scale_natCast 2 1 n.log2
    rwa [Nat.cast_one, one_mul] at hScale
  have hLe : ((2 ^ n.log2 : Nat) : Rat) ≤ n := Nat.cast_le.mpr (Nat.log2_self_le h)
  unfold floorLog2
  simp only [Rat.num_natCast, Rat.den_natCast, Int.natAbs_natCast, hOne, Nat.cast_zero, sub_zero,
    hPower]
  exact if_neg (not_lt.mpr hLe)

theorem roundMagnitude_safe {n : Nat} (h : n < 2 ^ 53) : roundMagnitude n = n := by
  have hPlace : ∃ k : Nat, lastPlace n = -k := by
    by_cases hZero : n = 0
    · subst hZero
      refine ⟨53, ?_⟩
      have hOne : Nat.log2 1 = 0 := by decide
      have hLog : floorLog2 ((0 : Nat) : Rat) = -1 := by
        simp [floorLog2, scale, hOne]
      rw [lastPlace, hLog]
      rfl
    · have hLog : n.log2 < 53 := (Nat.log2_lt hZero).mpr h
      refine ⟨52 - n.log2, ?_⟩
      rw [lastPlace, floorLog2_natCast hZero]
      omega
  obtain ⟨k, hPlace⟩ := hPlace
  rw [roundMagnitude, hPlace, neg_neg, scale_natCast, scale_neg]
  have hRound := roundHalfEven_intCast ((n * 2 ^ k : Nat) : Int)
  rw [Int.cast_natCast] at hRound
  rw [hRound, Int.cast_natCast, Nat.cast_mul, mul_div_assoc, div_self, mul_one]
  exact Nat.cast_ne_zero.mpr (by positivity)

theorem roundMagnitude_large {n : Nat} (hLarge : 2 ^ 53 ≤ n) (hBound : n < 2 ^ 64) :
    ∃ m : Nat, roundMagnitude n = m ∧ 2 ^ 53 ≤ m ∧ m ≤ 2 ^ 64 := by
  have hZero : n ≠ 0 := by
    rintro rfl
    exact absurd hLarge (by norm_num)
  have hLow : 53 ≤ n.log2 := (Nat.le_log2 hZero).mpr hLarge
  have hHigh : n.log2 < 64 := (Nat.log2_lt hZero).mpr hBound
  obtain ⟨k, hk⟩ : ∃ k, n.log2 = 52 + k := ⟨n.log2 - 52, by omega⟩
  have hPlace : lastPlace n = (k : Int) := by
    rw [lastPlace, floorLog2_natCast hZero]
    omega
  have hSelf : 2 ^ 52 * 2 ^ k ≤ n := by
    rw [← pow_add, ← hk]
    exact Nat.log2_self_le hZero
  have hLess : n < 2 ^ 53 * 2 ^ k := by
    have hLt : n < 2 ^ (n.log2 + 1) := Nat.lt_log2_self
    rwa [hk, show 52 + k + 1 = 53 + k by omega, pow_add] at hLt
  have hFloor : ((n : Rat) / ((2 ^ k : Nat) : Rat)).floor = ((n / 2 ^ k : Nat) : Int) := by
    have hFloor : ((n : Rat) / ((2 ^ k : Nat) : Rat)).floor = (n : Int) / ((2 ^ k : Nat) : Int) :=
      Rat.floor_natCast_div_natCast n (2 ^ k)
    rw [hFloor, Int.natCast_ediv]
  have hQuotient : 2 ^ 52 ≤ n / 2 ^ k ∧ n / 2 ^ k < 2 ^ 53 :=
    ⟨(Nat.le_div_iff_mul_le (by positivity)).mpr hSelf, (Nat.div_lt_iff_lt_mul (by positivity)).mpr
      hLess⟩
  obtain ⟨hDown, hUp⟩ := roundHalfEven_bounds ((n : Rat) / ((2 ^ k : Nat) : Rat))
  rw [hFloor] at hDown hUp
  obtain ⟨r, hr⟩ := Int.eq_ofNat_of_zero_le (le_trans (Int.natCast_nonneg _) hDown)
  rw [hr] at hDown hUp
  have hRange : 2 ^ 52 ≤ r ∧ r ≤ 2 ^ 53 := by omega
  refine ⟨r * 2 ^ k, ?_, ?_, ?_⟩
  · rw [roundMagnitude, hPlace, scale_neg, hr, Int.cast_natCast, scale_natCast]
  · calc 2 ^ 53 = 2 ^ 52 * 2 ^ 1 := by norm_num
      _ ≤ r * 2 ^ k := Nat.mul_le_mul hRange.1 (Nat.pow_le_pow_right (by norm_num) (by omega))
  · calc r * 2 ^ k ≤ 2 ^ 53 * 2 ^ 11 :=
          Nat.mul_le_mul hRange.2 (Nat.pow_le_pow_right (by norm_num) (by omega))
      _ = 2 ^ 64 := by norm_num

theorem toDouble_natCast {n m : Nat} (hRound : roundMagnitude n = m) (hBound : m ≤ 2 ^ 64) :
    toDouble n = .finite m := by
  have hFinite : ¬((overflow : Rat) ≤ (m : Rat)) := by
    rw [Nat.cast_le]
    exact Nat.not_le.mpr (Nat.lt_of_le_of_lt hBound lt_overflow)
  have hNot : ¬((n : Rat) < 0) := not_lt.mpr (Nat.cast_nonneg n)
  have hAbs : (n : Rat).abs = n := by
    rw [Rat.abs_of_nonneg (Nat.cast_nonneg n)]
  unfold toDouble
  simp only [hAbs, hRound, if_neg hFinite, if_neg hNot]

end SimplexAgent.Verified.Rounding
