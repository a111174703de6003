import SimplexAgent.Core.Compact
import SimplexAgent.Verified.Bisect
import SimplexAgent.Verified.Utf8Decode

/-!
# Prefixes for a display

`prefix` and `encoded_prefix` of `display.cpp`, on the bytes of a string. The prefix is shortest
in bytes, but what it may take is counted in the bytes of its JSON, where a character takes its
own bytes, two, or six.

A prefix of a byte count is the text of the characters that fit (`prefixBytes_encode`), so a
larger count gives a longer text. Whatever prefix fits the maximum is one that the bisection
looks at, as its bytes are no more than those of its JSON without the quotes
(`encodedPrefix_longest`).
-/

namespace SimplexAgent.Core.Display

open Verified

/-- `prefix`. -/
def prefixBytes (text : List UInt8) (count : Nat) : List UInt8 :=
  text.take (cutBack text (min text.length count))

/-- A character in a JSON string. -/
def escape (c : Char) : List Char :=
  match c.toNat with
  | 8 => ['\\', 'b']
  | 9 => ['\\', 't']
  | 10 => ['\\', 'n']
  | 12 => ['\\', 'f']
  | 13 => ['\\', 'r']
  | 34 => ['\\', c]
  | 92 => ['\\', c]
  | n => if n < 32 then ['\\', 'u', '0', '0', Nat.digitChar (n / 16), Nat.digitChar (n % 16)] else [c]

def quote (text : List Char) : List Char := '"' :: text.flatMap escape ++ ['"']

/-- `Json(text).dump()`, which throws for bytes that are no UTF-8. -/
def dump (bytes : List UInt8) : Option (List UInt8) :=
  let text := Utf8Decode.decode bytes
  if Utf8.encode text = bytes then some (Utf8.encode (quote text)) else none

/-- The loop of `encoded_prefix`. -/
def search (fits : Nat → Option Bool) : Nat → Nat → Nat → Option Nat
  | 0, low, _ => some low
  | fuel + 1, low, high =>
    if low < high then do
      let middle := low + (high - low + 1) / 2
      if ← fits middle then search fits fuel middle high
      else search fits fuel low (middle - 1)
    else some low

def fits (text : List UInt8) (maximum count : Nat) : Option Bool :=
  (dump (prefixBytes text count)).map fun json => decide (json.length ≤ maximum)

/-- `encoded_prefix`. -/
def encodedPrefix (text : List UInt8) (maximum : Nat) : Option (List UInt8) := do
  let high := min text.length (maximum - 2)
  if ← fits text maximum high then return prefixBytes text high
  let low ← search (fits text maximum) high 0 high
  return prefixBytes text low

/-! ## Prefixes of a text -/

variable {text : List Char}

theorem prefixBytes_encode (text : List Char) (count : Nat) :
    prefixBytes (Utf8.encode text) count = Utf8.encode (Utf8.takeBytes count text) := by
  rw [prefixBytes, take_cutBack (Nat.min_le_left _ _)]
  rcases Nat.le_total (Utf8.encode text).length count with hAll | hSome
  · rw [Nat.min_eq_left hAll, Utf8.takeBytes_of_le (Nat.le_refl _), Utf8.takeBytes_of_le hAll]
  · rw [Nat.min_eq_right hSome]

theorem isPrefix_kept {part : List Char} (hPart : part <+: text) {count : Nat}
    (hRoom : (Utf8.encode part).length ≤ count) : part <+: Utf8.takeBytes count text := by
  obtain ⟨after, rfl⟩ := hPart
  exact Utf8.isPrefix_takeBytes after hRoom

theorem kept_mono (text : List Char) {m n : Nat} (h : m ≤ n) :
    Utf8.takeBytes m text <+: Utf8.takeBytes n text :=
  isPrefix_kept (Utf8.takeBytes_isPrefix text m) ((Utf8.takeBytes_length text m).trans h)

/-- Its own number of bytes keeps a beginning and nothing else. -/
theorem kept_length {part : List Char} (hPart : part <+: text) :
    Utf8.takeBytes (Utf8.encode part).length text = part := by
  obtain ⟨after, rfl⟩ := hPart
  rw [Utf8.takeBytes_append_of_le after (Nat.le_refl _), Nat.sub_self, Utf8.takeBytes_zero,
    List.append_nil]

/-! ## The size of the JSON -/

theorem escape_cases (c : Char) :
    escape c = [c] ∨ ((String.utf8EncodeChar c).length = 1 ∧ 0 < (escape c).length) := by
  have hAscii : c.toNat < 128 → (String.utf8EncodeChar c).length = 1 := by
    intro h
    rw [String.length_utf8EncodeChar, Char.utf8Size_eq_one_iff]
    exact UInt32.le_iff_toNat_le.mpr (Nat.le_of_lt_succ h)
  unfold escape
  split
  case h_8 =>
    split
    · exact .inr ⟨hAscii (by omega), Nat.succ_pos _⟩
    · exact .inl rfl
  all_goals exact .inr ⟨hAscii (by omega), Nat.succ_pos _⟩

theorem encode_escape (c : Char) :
    (String.utf8EncodeChar c).length ≤ (Utf8.encode (escape c)).length := by
  rcases escape_cases c with hSame | ⟨hOne, hSome⟩
  · rw [hSame, Utf8.encode_cons, Utf8.encode_nil, List.append_nil]
  · have hLength := Utf8.length_le_encode (escape c)
    omega

def jsonBytes (text : List Char) : Nat := (Utf8.encode (quote text)).length

theorem jsonBytes_eq (text : List Char) :
    jsonBytes text = 2 + (Utf8.encode (text.flatMap escape)).length := by
  have hQuote : (String.utf8EncodeChar '"').length = 1 := by decide
  rw [jsonBytes, quote, List.cons_append, Utf8.encode_cons, Utf8.encode_append, Utf8.encode_cons,
    Utf8.encode_nil]
  simp only [List.length_append, hQuote, List.length_nil]
  omega

theorem encode_le_jsonBytes (text : List Char) :
    2 + (Utf8.encode text).length ≤ jsonBytes text := by
  rw [jsonBytes_eq]
  apply Nat.add_le_add_left
  induction text with
  | nil => exact Nat.le_refl _
  | cons c rest ih =>
    have hChar := encode_escape c
    rw [List.flatMap_cons, Utf8.encode_append, Utf8.encode_cons, List.length_append,
      List.length_append]
    omega

theorem jsonBytes_mono {a b : List Char} (h : a <+: b) : jsonBytes a ≤ jsonBytes b := by
  obtain ⟨after, rfl⟩ := h
  rw [jsonBytes_eq, jsonBytes_eq, List.flatMap_append, Utf8.encode_append, List.length_append]
  omega

theorem dump_encode (text : List Char) :
    dump (Utf8.encode text) = some (Utf8.encode (quote text)) := by
  rw [dump, Utf8Decode.decode_encode, if_pos rfl]

theorem fits_encode (text : List Char) (maximum count : Nat) :
    fits (Utf8.encode text) maximum count =
      some (decide (jsonBytes (Utf8.takeBytes count text) ≤ maximum)) := by
  rw [fits, prefixBytes_encode, dump_encode]
  rfl

/-! ## The search -/

theorem search_eq {fits : Nat → Option Bool} {accepts : Nat → Bool}
    (h : ∀ n, fits n = some (accepts n)) (fuel : Nat) :
    ∀ low high, search fits fuel low high = some (bisect accepts fuel low high) := by
  induction fuel with
  | zero => exact fun low high => rfl
  | succ fuel ih =>
    intro low high
    rw [search, bisect]
    by_cases hMore : low < high
    · have hMiddle : low + (high - low + 1) / 2 = (low + high + 1) / 2 := by omega
      rw [if_pos hMore, if_pos hMore]
      simp only [hMiddle, h, Option.bind_eq_bind, Option.bind_some, ih]
      split <;> rfl
    · rw [if_neg hMore, if_neg hMore]

structure Longest (text part : List Char) (maximum : Nat) : Prop where
  isPrefix : part <+: text
  fits : jsonBytes part ≤ maximum
  longest : ∀ other, other <+: text → jsonBytes other ≤ maximum → other <+: part

/-- For a text the result is its longest beginning whose JSON fits, and nothing is thrown. -/
theorem encodedPrefix_longest (text : List Char) (maximum : Nat) (h : 2 ≤ maximum) :
    ∃ part, encodedPrefix (Utf8.encode text) maximum = some (Utf8.encode part) ∧
      Longest text part maximum := by
  generalize hHigh : min (Utf8.encode text).length (maximum - 2) = high
  have hFits := fits_encode text maximum
  -- A beginning whose JSON fits has no more bytes than the search looks at.
  have hRoom : ∀ other, other <+: text → jsonBytes other ≤ maximum →
      (Utf8.encode other).length ≤ high := by
    rintro other ⟨after, rfl⟩ hOther
    have hBytes := encode_le_jsonBytes other
    rw [Utf8.encode_append, List.length_append] at hHigh
    omega
  unfold encodedPrefix
  simp only [hHigh, hFits, Option.bind_eq_bind, Option.bind_some, search_eq hFits]
  split
  · rename_i hWhole
    refine ⟨Utf8.takeBytes high text, by rw [prefixBytes_encode]; rfl, Utf8.takeBytes_isPrefix _ _,
      of_decide_eq_true hWhole, fun other hOther hSize => ?_⟩
    exact isPrefix_kept hOther (hRoom other hOther hSize)
  · generalize hAccepts : (fun n => decide (jsonBytes (Utf8.takeBytes n text) ≤ maximum)) = accepts
    have hDown : ∀ m n, m ≤ n → accepts n = true → accepts m = true := by
      rw [← hAccepts]
      intro m n hLe hAccept
      exact decide_eq_true ((jsonBytes_mono (kept_mono text hLe)).trans (of_decide_eq_true hAccept))
    have hZero : accepts 0 = true := by
      rw [← hAccepts]
      refine decide_eq_true ?_
      rw [Utf8.takeBytes_zero]
      exact h
    refine ⟨Utf8.takeBytes (bisect accepts high 0 high) text, by rw [prefixBytes_encode]; rfl,
      Utf8.takeBytes_isPrefix _ _, ?_, fun other hOther hSize => ?_⟩
    · have hResult := bisect_accepts accepts high 0 high hZero
      rw [← hAccepts] at hResult ⊢
      exact of_decide_eq_true hResult
    · have hBytes := hRoom other hOther hSize
      refine isPrefix_kept hOther (le_bisect hDown ?_ high 0 high (by omega) hBytes)
      rw [← hAccepts]
      refine decide_eq_true ?_
      rw [kept_length hOther]
      exact hSize

/-- A line feed takes two bytes and another control character six. -/
theorem encodedPrefix_longest_escapes :
    2 ≤ 11 ∧ ∃ part, encodedPrefix (Utf8.encode "\nab\x01c".toList) 11 = some (Utf8.encode part) ∧
      Longest "\nab\x01c".toList part 11 :=
  ⟨by decide, encodedPrefix_longest _ 11 (by decide)⟩

example : encodedPrefix (Utf8.encode "\nab\x01c".toList) 11 = some (Utf8.encode "\nab".toList) := by
  decide +kernel

end SimplexAgent.Core.Display
