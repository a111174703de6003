import SimplexAgent.Hub.JsValue
import SimplexAgent.Verified.Utf8Decode

/-!
# The reason in a close frame

`truncateReason` and `close` of `worker/connection.ts`. A close frame carries 123 bytes, and a
longer reason is cut at byte 120 and decoded again before the ellipsis is added. What is left of
a character there becomes a replacement character of three bytes, so the result has room exactly
where the cut leaves no byte of a character or three of them (`truncateReason_iff`).
-/

namespace SimplexAgent.Hub.Js

open Verified

def maxCloseReasonBytes : Nat := 123

/-- `truncateReason`. -/
def truncateReason (reason : Text) : Text :=
  let bytes := Utf8.encode (Utf16.chars reason)
  if bytes.length ≤ maxCloseReasonBytes then reason
  else Utf16.encode (Utf8Decode.decode (bytes.take (maxCloseReasonBytes - 3))) ++ text "..."

inductive ReadyState where
  | connecting
  | open
  | closing
  | closed
  deriving DecidableEq

/-- What `close` reads and writes of a connection. -/
structure WorkerConnection where
  readyState : ReadyState
  closeReason : Option Text

inductive Closing where
  | none
  | handshake (code : Nat) (reason : Text)
  | terminated

/-- `close`. `throws` is whether the library's `close` throws. -/
def WorkerConnection.close (throws : Nat → Text → Bool) (connection : WorkerConnection)
    (code : Nat) (reason : Text) : WorkerConnection × Closing :=
  if connection.readyState = .closed then (connection, .none)
  else
    let connection := { connection with closeReason := some (connection.closeReason.getD reason) }
    if throws code (truncateReason reason) then (connection, .terminated)
    else (connection, .handshake code (truncateReason reason))

/-- What a shortened reason has to be, and that closing with it does not fail. `front` is about
the texts that an encoder makes of the strings, `units` about the strings themselves. -/
structure ClosesWith (throws : Nat → Text → Bool) (connection : WorkerConnection) (code : Nat)
    (reason : Text) : Prop where
  bytes : Utf16.byteLength (truncateReason reason) ≤ 123
  front : Utf8.takeBytes 120 (Utf16.chars reason) <+: Utf16.chars (truncateReason reason)
  units : Utf16.WellFormed reason → Utf16.takeBytes 120 reason <+: reason ∧
    Utf16.takeBytes 120 reason <+: truncateReason reason
  closes : (connection.close throws code reason).2 ≠ .terminated

/-- The reason fits, or of the character at byte 120 no byte is kept or three are. -/
def CutsWell (reason : Text) : Prop :=
  Utf16.byteLength reason ≤ 123 ∨ Utf16.byteLength (Utf16.takeBytes 120 reason) = 120 ∨
    Utf16.byteLength (Utf16.takeBytes 120 reason) = 117

/-! ## The result -/

variable {reason : Text}

theorem truncateReason_short (h : Utf16.byteLength reason ≤ 123) :
    truncateReason reason = reason := if_pos h

theorem truncateReason_long (h : ¬Utf16.byteLength reason ≤ 123) :
    truncateReason reason = Utf16.encode (Utf8.takeBytes 120 (Utf16.chars reason) ++
      ((if Utf16.byteLength (Utf16.takeBytes 120 reason) = 120 then [] else ['\ufffd']) ++
        "...".toList)) := by
  have hLength : 120 ≤ (Utf8.encode (Utf16.chars reason)).length := by
    rw [Utf16.byteLength] at h
    omega
  have hCut := Utf8Decode.decode_take _ hLength
  refine (if_neg h).trans ?_
  show Utf16.encode (Utf8Decode.decode (List.take 120 _)) ++ _ = _
  rw [hCut, Utf16.byteLength, Utf16.takeBytes, Utf16.chars_encode, text, Utf16.encode,
    Utf16.encode, ← List.flatMap_append, List.append_assoc]
  rfl

theorem byteLength_truncateReason (h : ¬Utf16.byteLength reason ≤ 123) :
    Utf16.byteLength (truncateReason reason) = Utf16.byteLength (Utf16.takeBytes 120 reason) +
      ((if Utf16.byteLength (Utf16.takeBytes 120 reason) = 120 then 0 else 3) + 3) := by
  have hMark : ∀ b : Prop, [Decidable b] → (Utf8.encode ((if b then [] else ['\ufffd']) ++
      "...".toList)).length = (if b then 0 else 3) + 3 := by
    intro b _
    split_ifs
    · decide
    · decide
  rw [truncateReason_long h, Utf16.byteLength, Utf16.chars_encode, Utf8.encode_append,
    List.length_append, hMark]
  congr 1
  rw [Utf16.byteLength, Utf16.takeBytes, Utf16.chars_encode]

theorem truncateReason_front :
    Utf8.takeBytes 120 (Utf16.chars reason) <+: Utf16.chars (truncateReason reason) := by
  by_cases h : Utf16.byteLength reason ≤ 123
  · rw [truncateReason_short h]
    exact Utf8.takeBytes_isPrefix _ _
  · rw [truncateReason_long h, Utf16.chars_encode]
    exact List.prefix_append _ _

theorem takeBytes_reason (h : Utf16.WellFormed reason) : Utf16.takeBytes 120 reason <+: reason := by
  obtain ⟨back, hBack⟩ := Utf8.takeBytes_isPrefix (Utf16.chars reason) 120
  refine ⟨Utf16.encode back, ?_⟩
  rw [Utf16.takeBytes, Utf16.encode, Utf16.encode, ← List.flatMap_append, hBack]
  exact (Utf16.wellFormed_iff reason).mp h

theorem truncateReason_units (h : Utf16.WellFormed reason) :
    Utf16.takeBytes 120 reason <+: truncateReason reason := by
  by_cases hShort : Utf16.byteLength reason ≤ 123
  · rw [truncateReason_short hShort]
    exact takeBytes_reason h
  · rw [truncateReason_long hShort, Utf16.takeBytes, Utf16.encode, Utf16.encode,
      List.flatMap_append]
    exact List.prefix_append _ _

theorem byteLength_truncateReason_iff (reason : Text) :
    Utf16.byteLength (truncateReason reason) ≤ 123 ↔ CutsWell reason := by
  by_cases hShort : Utf16.byteLength reason ≤ 123
  · rw [truncateReason_short hShort]
    exact ⟨.inl, fun _ => hShort⟩
  · have hKept := Utf16.byteLength_takeBytes_le 120 reason
    have hLost : 120 ≤ Utf16.byteLength (Utf16.takeBytes 120 reason) + 3 := by
      rw [Utf16.byteLength, Utf16.takeBytes, Utf16.chars_encode]
      refine Utf8.le_takeBytes_length ?_
      rw [Utf16.byteLength] at hShort
      omega
    rw [byteLength_truncateReason hShort, CutsWell]
    split_ifs with hWhole
    · omega
    · omega

variable {throws : Nat → Text → Bool}

theorem close_ne_terminated {code : Nat}
    (hThrows : ∀ data, throws code data = true → 123 < Utf16.byteLength data)
    (hBytes : Utf16.byteLength (truncateReason reason) ≤ 123) (connection : WorkerConnection) :
    (connection.close throws code reason).2 ≠ .terminated := by
  have hTakes : throws code (truncateReason reason) = false := by
    rw [← Bool.not_eq_true]
    intro hThrow
    have hLong := hThrows _ hThrow
    omega
  unfold WorkerConnection.close
  by_cases hClosed : connection.readyState = .closed
  · rw [if_pos hClosed]
    nofun
  · rw [if_neg hClosed]
    dsimp only
    rw [hTakes, if_neg Bool.false_ne_true]
    nofun

/-- Of a library that throws for nothing but more than 123 bytes, a reason meets what closing
needs exactly where its cut is a good one. -/
theorem truncateReason_iff {code : Nat}
    (hThrows : ∀ data, throws code data = true → 123 < Utf16.byteLength data)
    (connection : WorkerConnection) (reason : Text) :
    ClosesWith throws connection code reason ↔ CutsWell reason := by
  rw [← byteLength_truncateReason_iff]
  constructor
  · intro h
    exact h.bytes
  · intro hBytes
    exact ⟨hBytes, truncateReason_front,
      fun hText => ⟨takeBytes_reason hText, truncateReason_units hText⟩,
      close_ne_terminated hThrows hBytes connection⟩

/-- What the library refuses: a reason of more than 123 bytes. -/
def tooLong (_ : Nat) (data : Text) : Bool := 123 < Utf16.byteLength data

def openConnection : WorkerConnection := ⟨.open, none⟩

/-- 119 letters and then characters of two bytes: one byte of a character is kept. -/
def cutInside : Text := Utf16.encode (List.replicate 119 'a' ++ List.replicate 3 'é')

/-- 117 letters and then characters of four bytes: three bytes of a character are kept. -/
def cutAtThree : Text := Utf16.encode (List.replicate 117 'a' ++ List.replicate 2 '😀')

theorem truncateReason_iff_cutAtThree : 123 < Utf16.byteLength cutAtThree ∧
    ClosesWith tooLong openConnection 1000 cutAtThree :=
  ⟨by decide +kernel, (truncateReason_iff (fun _ h => of_decide_eq_true h) openConnection _).mpr
    (.inr (.inr (by decide +kernel)))⟩

/-- The result takes 125 bytes, and closing ends without a handshake. -/
theorem cutInside_terminates : ¬ClosesWith tooLong openConnection 1000 cutInside ∧
    Utf16.byteLength (truncateReason cutInside) = 125 ∧
    (openConnection.close tooLong 1000 cutInside).2 = .terminated := by
  have hBytes : Utf16.byteLength (truncateReason cutInside) = 125 := by decide +kernel
  have hThrows : tooLong 1000 (truncateReason cutInside) = true := by
    rw [tooLong, hBytes]
    rfl
  refine ⟨fun h => absurd h.bytes (by rw [hBytes]; decide), hBytes, ?_⟩
  rw [WorkerConnection.close, if_neg (by decide)]
  dsimp only
  rw [if_pos hThrows]

end SimplexAgent.Hub.Js
