import SimplexAgent.Hub.JsValue
import SimplexAgent.Verified.Shrink

/-!
# The size of an envelope in the envelope

`measureEnvelope` of `protocol/events.ts`. The member `bytes` holds the number of bytes of the
JSON text that it is itself part of, and the loop writes it until it is right. From the first
write on the size depends on the number by its digits only, which is monotone, so the numbers go
one way only and end at one that names its own text (`measureEnvelope_measures`).
-/

namespace SimplexAgent.Hub.Js

open Verified

/-- What the member `bytes` may hold: nothing, or any value. NaN and the infinities are written as
`null`. -/
inductive Size where
  | absent
  | undefined
  | notFinite
  | value (value : Value Number)

/-- The members of an envelope, in their order: those before `bytes` and those after it. -/
structure SizedEnvelope where
  before : List (Text × Value Number)
  size : Size
  after : List (Text × Value Number)

namespace SizedEnvelope

/-- The members that `JSON.stringify` writes. -/
def members (envelope : SizedEnvelope) : List (Text × Value Number) :=
  envelope.before ++ (match envelope.size with
    | .absent | .undefined => []
    | .notFinite => [(text "bytes", .null)]
    | .value value => [(text "bytes", value)]) ++ envelope.after

/-- `Buffer.byteLength(JSON.stringify(envelope))`. -/
def byteLength (envelope : SizedEnvelope) : Nat := (Value.obj envelope.members).bytes

/-- `envelope.bytes === size`. -/
def Holds (envelope : SizedEnvelope) (size : Nat) : Prop :=
  match envelope.size with
  | .value (.num number) => number.value = size
  | _ => False

instance (envelope : SizedEnvelope) (size : Nat) : Decidable (envelope.Holds size) := by
  unfold Holds
  split <;> infer_instance

/-- `envelope.bytes = size`. A new member comes last. -/
def setBytes (envelope : SizedEnvelope) (size : Nat) : SizedEnvelope :=
  match envelope.size with
  | .absent => ⟨envelope.before ++ envelope.after, .value (.num (.safe size)), []⟩
  | _ => { envelope with size := .value (.num (.safe size)) }

end SizedEnvelope

/-- The loop of `measureEnvelope`, with the size and the envelope that it ends with. -/
def measureLoop : Nat → SizedEnvelope → Nat → Option (Nat × SizedEnvelope)
  | 0, _, _ => none
  | fuel + 1, envelope, size =>
    if envelope.Holds size then some (size, envelope)
    else measureLoop fuel (envelope.setBytes size) (envelope.setBytes size).byteLength

/-- `measureEnvelope`. -/
def measureEnvelope (fuel : Nat) (envelope : SizedEnvelope) : Option (Nat × SizedEnvelope) :=
  measureLoop fuel envelope envelope.byteLength

namespace SizedEnvelope

@[simp] theorem setBytes_setBytes (envelope : SizedEnvelope) (n m : Nat) :
    (envelope.setBytes n).setBytes m = envelope.setBytes m := by
  obtain ⟨before, size, after⟩ := envelope
  cases size <;> rfl

@[simp] theorem others_setBytes (envelope : SizedEnvelope) (n : Nat) :
    (envelope.setBytes n).before ++ (envelope.setBytes n).after =
      envelope.before ++ envelope.after := by
  obtain ⟨before, size, after⟩ := envelope
  cases size <;> simp [setBytes]

theorem holds_setBytes (envelope : SizedEnvelope) (n m : Nat) :
    (envelope.setBytes n).Holds m ↔ m = n := by
  have hSize : (envelope.setBytes n).size = .value (.num (.safe n)) := by
    obtain ⟨before, size, after⟩ := envelope
    cases size <;> rfl
  rw [Holds, hSize]
  show ((n : Rat) = (m : Rat)) ↔ m = n
  rw [Rat.natCast_inj]
  exact eq_comm

/-- The bytes beside the digits of the number. -/
def frame (envelope : SizedEnvelope) : Nat :=
  2 + (envelope.before ++ envelope.after).length + textBytes (text "bytes") + 1 +
    ((envelope.before ++ envelope.after).map fun member => memberBytes member.1 member.2.bytes).sum

theorem byteLength_setBytes (envelope : SizedEnvelope) (n : Nat) :
    (envelope.setBytes n).byteLength = envelope.frame + (Number.safe n).bytes := by
  have hMembers : ∃ before after, before ++ after = envelope.before ++ envelope.after ∧
      (envelope.setBytes n).members = before ++ (text "bytes", .num (.safe n)) :: after := by
    obtain ⟨before, size, after⟩ := envelope
    cases size
    case absent => exact ⟨before ++ after, [], by simp, by simp [members, setBytes]⟩
    all_goals exact ⟨before, after, rfl, by simp [members, setBytes]⟩
  obtain ⟨before, after, hOthers, hMembers⟩ := hMembers
  rw [byteLength, Value.bytes_obj, hMembers, frame, ← hOthers]
  simp only [listBytes, memberBytes, Value.bytes, List.map_append, List.map_cons, List.sum_append,
    List.sum_cons, List.length_append, List.length_cons, List.length_map]
  omega

theorem byteLength_mono (envelope : SizedEnvelope) :
    Monotone fun n => (envelope.setBytes n).byteLength := by
  intro n m hLe
  simp only [byteLength_setBytes]
  exact Nat.add_le_add_left (safe_bytes_le hLe) _

theorem safe_bytes_half (n : Nat) : (Number.safe n).bytes ≤ n / 2 + 1 := by
  have hPower : ∀ m, 2 * m ≤ 10 ^ m := by
    intro m
    induction m with
    | zero => exact Nat.zero_le _
    | succ m ih =>
      have hPositive := Nat.one_le_pow m 10 (by decide)
      rw [Nat.pow_succ]
      omega
  refine (Nat.length_toDigits_le_iff (by decide) (Nat.succ_pos _)).mpr ?_
  have hHalf := hPower (n / 2 + 1)
  omega

theorem lt_of_lt_byteLength {envelope : SizedEnvelope} {n : Nat}
    (h : n < (envelope.setBytes n).byteLength) : n < 2 * envelope.frame + 2 := by
  rw [byteLength_setBytes] at h
  have hDigits := safe_bytes_half n
  omega

end SizedEnvelope

theorem measureLoop_setBytes (envelope : SizedEnvelope) (fuel : Nat) :
    ∀ n, measureLoop fuel (envelope.setBytes n) (envelope.setBytes n).byteLength =
      (settle (fun n => (envelope.setBytes n).byteLength) fuel n).map
        fun m => (m, envelope.setBytes m) := by
  induction fuel with
  | zero => exact fun n => rfl
  | succ fuel ih =>
    intro n
    rw [measureLoop, settle]
    by_cases hSame : (envelope.setBytes n).byteLength = n
    · rw [if_pos ((envelope.holds_setBytes _ _).mpr hSame), if_pos hSame, hSame]
      rfl
    · rw [if_neg fun hHolds => hSame ((envelope.holds_setBytes _ _).mp hHolds), if_neg hSame,
        SizedEnvelope.setBytes_setBytes]
      exact ih _

/-- The loop ends, whatever was there before. The envelope has its other members still, and
`bytes` is the number of bytes of its text, which is what is returned. -/
theorem measureEnvelope_measures (envelope : SizedEnvelope) : ∃ steps size measured,
    (∀ fuel, steps ≤ fuel → measureEnvelope fuel envelope = some (size, measured)) ∧
      measured.Holds size ∧ measured.byteLength = size ∧
      measured.before ++ measured.after = envelope.before ++ envelope.after := by
  by_cases hHolds : envelope.Holds envelope.byteLength
  · refine ⟨1, envelope.byteLength, envelope, fun fuel hFuel => ?_, hHolds, rfl, rfl⟩
    obtain ⟨fuel, rfl⟩ : ∃ k, fuel = k + 1 := ⟨fuel - 1, by omega⟩
    rw [measureEnvelope, measureLoop, if_pos hHolds]
  · obtain ⟨m, hFixed, hRun⟩ := settle_total envelope.byteLength_mono
      (fun _ => SizedEnvelope.lt_of_lt_byteLength) envelope.byteLength
    refine ⟨2 * envelope.frame + 2 + envelope.byteLength + 2, m, envelope.setBytes m,
      fun fuel hFuel => ?_, (envelope.holds_setBytes m m).mpr rfl, hFixed,
      envelope.others_setBytes m⟩
    obtain ⟨fuel, rfl⟩ : ∃ k, fuel = k + 1 := ⟨fuel - 1, by omega⟩
    rw [measureEnvelope, measureLoop, if_neg hHolds, measureLoop_setBytes, hRun fuel (by omega)]
    rfl

end SimplexAgent.Hub.Js
