import SimplexAgent.Dataclass.Json

/-!
# Retries: the verdict and the backoff

`endpoint::retry_policy`, together with the way its parameters come about. The host
reads the `retry` mapping of a provider and hands a checked copy to the model
(`load/configuration.cpp`); the model reads that copy again, more leniently, and
constructs the policy from it.

Durations are signed 64-bit counts of milliseconds, with the wrapping arithmetic of
the machine, so that a value stated over the integers is a value computed without
overflow. The timer takes nanoseconds.
-/

namespace SimplexAgent.Endpoint

open Dataclass Verified.Tables

/-! ## Configuration -/

/-- `number`: a non-negative integer that fits `int`. -/
def number (parent : Json) (key : String) (fallback : Nat) (zero : Bool) : Except String Nat :=
  match parent.find? key with
  | none => .ok fallback
  | some (.integer v) =>
    if v.value < 0 then .error (key ++ " must be a nonnegative integer")
    else if (zero = false ∧ v.value = 0) ∨ 2147483647 < v.value then
      .error (key ++ " is out of range")
    else .ok v.value.toNat
  | some _ => .error (key ++ " must be a nonnegative integer")

def sizeJson (n : Nat) : Json := Json.uint (UInt64.ofNat n)

/-- What the host accepts under `retry`. -/
structure RetrySettings where
  maxAttempts : Nat
  initial : Nat
  maximum : Nat

/-- The part of `parse_model` that reads `retry`. -/
def parseRetry (retry : Json) : Except String RetrySettings := do
  let initial ← number retry "initial_backoff_ms" 500 false
  let maximum ← number retry "max_backoff_ms" 120000 false
  if maximum < initial then throw "model backoff maximum is below initial"
  let maxAttempts ← number retry "max_attempts" 3 true
  return { maxAttempts := maxAttempts, initial := initial, maximum := maximum }

/-- The mapping the model is configured with. -/
def RetrySettings.toJson (s : RetrySettings) : Json :=
  Json.object
    [("max_attempts", sizeJson s.maxAttempts), ("initial_backoff_ms", sizeJson s.initial),
     ("max_backoff_ms", sizeJson s.maximum)]

/-- `read_milliseconds`. -/
def readMilliseconds (retry : Json) (key : String) (fallback : Int64) : Int64 :=
  match retry.find? key with
  | some (.integer v) =>
    let value := Int64.ofInt v.value
    if value < 0 then fallback else value
  | _ => fallback

/-- The retry budget that `build` reads. -/
def readAttempts (retry : Json) (fallback : UInt32) : UInt32 :=
  match retry.find? "max_attempts" with
  | some (.integer v) =>
    let value := Int64.ofInt v.value
    if 0 < value then UInt32.ofNat (value.toInt % 4294967296).toNat else 0
  | _ => fallback

structure RetryPolicy where
  initialBackoff : Int64
  maxBackoff : Int64
  maxRetryAttempts : UInt32

namespace RetryPolicy

def construct (initialBackoff maxBackoff : Int64) (maxRetryAttempts : UInt32) :
    RetryPolicy where
  initialBackoff := initialBackoff
  maxBackoff := if initialBackoff < maxBackoff then maxBackoff else initialBackoff
  maxRetryAttempts := maxRetryAttempts

/-- The policy of a model whose configuration holds this mapping under `retry`. -/
def configured (retry : Json) : RetryPolicy :=
  construct (readMilliseconds retry "initial_backoff_ms" 500)
    (readMilliseconds retry "max_backoff_ms" 120000) (readAttempts retry 3)

/-! ## Backoff -/

/-- The second half of `_sleep`: double, up to the ceiling. -/
def advance (p : RetryPolicy) (backoff : Int64) : Int64 :=
  if backoff ≤ p.maxBackoff / 2 then backoff * 2 else p.maxBackoff

/-- The backoff before retry `k`. -/
def backoffAt (p : RetryPolicy) : Nat → Int64
  | 0 => p.initialBackoff
  | k + 1 => p.advance (p.backoffAt k)

end RetryPolicy

/-- What `expires_after` makes of a duration: nanoseconds. -/
def expiresAfter (backoff : Int64) : Int64 := backoff * 1000000

/-! ## The verdict -/

inductive Stage where
  | createRequest
  | connect
  | write
  | read
  | handleResponse
  | unknown
  deriving DecidableEq

inductive ErrorCode where
  | none
  /-- The resolver's category. -/
  | hostNotFoundTryAgain
  | netdb (value : Int)
  | connectionRefused
  | connectionReset
  | timedOut
  /-- The connect timeout of the stream. -/
  | streamTimeout
  /-- The category of the TLS stream. -/
  | streamTruncated
  | tlsStream (value : Int)
  | system (value : Int)
  deriving DecidableEq

structure HttpRequestException where
  stage : Stage
  message : String
  errorCode : ErrorCode := .none
  /-- The status of the response, zero when there is none. -/
  status : Nat := 0

/-- `_recoverable`. -/
def recoverable (failure : HttpRequestException) : Bool :=
  if failure.status ≠ 0 then
    failure.status = 429 ∨ failure.status = 408 ∨ (500 ≤ failure.status ∧ failure.status ≤ 599)
  else match failure.stage with
    | .connect => match failure.errorCode with
        | .hostNotFoundTryAgain | .connectionRefused | .connectionReset | .timedOut
        | .streamTimeout | .streamTruncated => true
        | .none | .netdb _ | .tlsStream _ | .system _ => false
    | .write | .read | .handleResponse => true
    | .createRequest | .unknown => false

/-! ## Configured values -/

theorem number_bounds {parent : Json} {key : String} {fallback n : Nat} {zero : Bool}
    (hFallback : fallback ≤ 2147483647) (h : number parent key fallback zero = .ok n) :
    n ≤ 2147483647 := by
  unfold number at h
  split at h
  · cases h
    exact hFallback
  · split_ifs at h with hNegative hRange
    cases h
    omega
  · cases h

theorem parseRetry_bounds {retry : Json} {s : RetrySettings} (h : parseRetry retry = .ok s) :
    s.maxAttempts ≤ 2147483647 ∧ s.initial ≤ s.maximum ∧ s.maximum ≤ 2147483647 := by
  obtain ⟨initial, hInitial, h⟩ := bind_ok h
  obtain ⟨maximum, hMaximum, h⟩ := bind_ok h
  dsimp only at h
  split_ifs at h with hOrder
  · cases h
  · obtain ⟨maxAttempts, hAttempts, h⟩ := bind_ok h
    cases h
    exact ⟨number_bounds (by decide) hAttempts, Nat.le_of_not_lt hOrder,
      number_bounds (by decide) hMaximum⟩

theorem toInt_ofInt_size {n : Nat} (h : n ≤ 2147483647) :
    (Int64.ofInt (UInt64.ofNat n).toNat).toInt = n := by
  rw [UInt64.toNat_ofNat_of_lt' (by show n < 18446744073709551616; omega), Int64.toInt_ofInt]
  have hSize : Int64.size = 18446744073709551616 := rfl
  exact Int.bmod_eq_of_le (by omega) (by omega)

theorem readMilliseconds_size {retry : Json} {key : String} {fallback : Int64} {n : Nat}
    (hFind : retry.find? key = some (sizeJson n)) (h : n ≤ 2147483647) :
    (readMilliseconds retry key fallback).toInt = n := by
  have hValue := toInt_ofInt_size h
  have hNonneg : ¬Int64.ofInt (UInt64.ofNat n).toNat < 0 := by
    rw [Int64.lt_iff_toInt_lt, hValue]
    simp
  simp only [readMilliseconds, hFind, sizeJson, Json.uint]
  rw [if_neg hNonneg, hValue]

theorem readAttempts_size {retry : Json} {fallback : UInt32} {n : Nat}
    (hFind : retry.find? "max_attempts" = some (sizeJson n)) (h : n ≤ 2147483647) :
    (readAttempts retry fallback).toNat = n := by
  have hValue := toInt_ofInt_size h
  simp only [readAttempts, hFind, sizeJson, Json.uint, Int64.lt_iff_toInt_lt, hValue]
  split_ifs with hPositive
  · rw [show ((n : Int) % 4294967296).toNat = n by omega]
    exact UInt32.toNat_ofNat_of_lt' (by show n < 4294967296; omega)
  · have hZero : n = 0 := by simpa using hPositive
    rw [hZero]
    rfl

theorem configured_settings {retry : Json} {s : RetrySettings} (h : parseRetry retry = .ok s) :
    (RetryPolicy.configured s.toJson).initialBackoff.toInt = s.initial ∧
      (RetryPolicy.configured s.toJson).maxBackoff.toInt = s.maximum ∧
      (RetryPolicy.configured s.toJson).maxRetryAttempts.toNat = s.maxAttempts := by
  obtain ⟨hAttempts, hOrder, hMaximum⟩ := parseRetry_bounds h
  have hInitial : (readMilliseconds s.toJson "initial_backoff_ms" 500).toInt = s.initial :=
    readMilliseconds_size (by simp [RetrySettings.toJson]) (by omega)
  have hCeiling : (readMilliseconds s.toJson "max_backoff_ms" 120000).toInt = s.maximum :=
    readMilliseconds_size (by simp [RetrySettings.toJson]) hMaximum
  refine ⟨hInitial, ?_, readAttempts_size (by simp [RetrySettings.toJson]) hAttempts⟩
  simp only [RetryPolicy.configured, RetryPolicy.construct]
  split_ifs with hLess
  · exact hCeiling
  · rw [Int64.lt_iff_toInt_lt, hInitial, hCeiling] at hLess
    rw [hInitial]
    omega

/-! ## The delays -/

namespace RetryPolicy

theorem toInt_half {m : Int64} (hNonneg : 0 ≤ m.toInt) : (m / 2).toInt = m.toInt / 2 := by
  have hTwo : (2 : Int64).toInt = 2 := rfl
  have hLess := m.toInt_lt
  rw [Int64.toInt_div, hTwo, Int.tdiv_eq_ediv_of_nonneg hNonneg]
  exact Int.bmod_eq_of_le (by omega) (by omega)

theorem toInt_double {b : Int64} {m : Int} (hNonneg : 0 ≤ b.toInt) (hHalf : b.toInt ≤ m / 2)
    (hBound : m < 2 ^ 63) : (b * 2).toInt = b.toInt * 2 := by
  have hTwo : (2 : Int64).toInt = 2 := rfl
  rw [Int64.toInt_mul, hTwo]
  exact Int.bmod_eq_of_le (by omega) (by omega)

theorem toInt_advance (p : RetryPolicy) {b : Int64} (hNonneg : 0 ≤ b.toInt)
    (hCeiling : 0 ≤ p.maxBackoff.toInt) :
    (p.advance b).toInt = min (b.toInt * 2) p.maxBackoff.toInt := by
  have hHalf := toInt_half hCeiling
  unfold advance
  split_ifs with hLe
  · rw [Int64.le_iff_toInt_le, hHalf] at hLe
    rw [toInt_double hNonneg hLe p.maxBackoff.toInt_lt]
    omega
  · rw [Int64.le_iff_toInt_le, hHalf] at hLe
    omega

/-- The backoff before retry `k` doubles up to the ceiling and does not overflow. -/
theorem toInt_backoffAt (p : RetryPolicy) (hNonneg : 0 ≤ p.initialBackoff.toInt)
    (hOrder : p.initialBackoff.toInt ≤ p.maxBackoff.toInt) (k : Nat) :
    (p.backoffAt k).toInt = min (p.initialBackoff.toInt * 2 ^ k) p.maxBackoff.toInt := by
  induction k with
  | zero =>
    rw [backoffAt, Int.pow_zero, Int.mul_one]
    omega
  | succ k ih =>
    have hPower : 0 ≤ p.initialBackoff.toInt * 2 ^ k := Int.mul_nonneg hNonneg (Int.pow_nonneg (by decide))
    rw [backoffAt, toInt_advance p (by omega) (by omega), ih, Int.pow_succ, ← Int.mul_assoc]
    omega

end RetryPolicy

/-- The timer is set without overflow, too. -/
theorem toInt_expiresAfter {b : Int64} (hNonneg : 0 ≤ b.toInt) (h : b.toInt ≤ 2147483647) :
    (expiresAfter b).toInt = b.toInt * 1000000 := by
  have hScale : (1000000 : Int64).toInt = 1000000 := rfl
  rw [expiresAfter, Int64.toInt_mul, hScale]
  exact Int.bmod_eq_of_le (by omega) (by omega)

end SimplexAgent.Endpoint
