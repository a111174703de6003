import SimplexAgent.Verified.Utf8

/-!
# Decoding bytes as UTF-8

The decoder of web platforms: one byte at a time, with a replacement character for every longest
beginning of a character that is not continued. On the bytes of a text it gives the text
(`decode_encode`), and where a text is cut inside a character, one replacement character for what
is left of it (`decode_cut`).
-/

namespace SimplexAgent.Verified.Utf8Decode

open Utf8

/-- A character of which `needed` bytes are missing, the next one between `lower` and `upper`. -/
structure Pending where
  code : Nat
  needed : Nat
  lower : Nat
  upper : Nat
  deriving DecidableEq

/-- A byte at the start of a character. -/
def first (b : Nat) : List Char × Option Pending :=
  if b < 0x80 then ([Char.ofNat b], none)
  else if 0xc2 ≤ b ∧ b ≤ 0xdf then ([], some ⟨b - 0xc0, 1, 0x80, 0xbf⟩)
  else if 0xe0 ≤ b ∧ b ≤ 0xef then
    ([], some ⟨b - 0xe0, 2, if b = 0xe0 then 0xa0 else 0x80, if b = 0xed then 0x9f else 0xbf⟩)
  else if 0xf0 ≤ b ∧ b ≤ 0xf4 then
    ([], some ⟨b - 0xf0, 3, if b = 0xf0 then 0x90 else 0x80, if b = 0xf4 then 0x8f else 0xbf⟩)
  else (['\ufffd'], none)

/-- A byte inside a character. One that cannot stand there starts another character. -/
def next (p : Pending) (b : Nat) : List Char × Option Pending :=
  if p.lower ≤ b ∧ b ≤ p.upper then
    if p.needed = 1 then ([Char.ofNat (p.code * 64 + (b - 0x80))], none)
    else ([], some ⟨p.code * 64 + (b - 0x80), p.needed - 1, 0x80, 0xbf⟩)
  else ('\ufffd' :: (first b).1, (first b).2)

def step (p : Option Pending) (b : UInt8) : List Char × Option Pending :=
  match p with
  | none => first b.toNat
  | some p => next p b.toNat

/-- The characters that some bytes complete, and what is pending after them. -/
def feed (p : Option Pending) : List UInt8 → List Char × Option Pending
  | [] => ([], p)
  | b :: rest => ((step p b).1 ++ (feed (step p b).2 rest).1, (feed (step p b).2 rest).2)

/-- The end of the bytes. -/
def finish (p : Option Pending) : List Char := if p.isSome then ['\ufffd'] else []

def decode (bytes : List UInt8) : List Char := (feed none bytes).1 ++ finish (feed none bytes).2

theorem feed_append (p : Option Pending) (a b : List UInt8) :
    feed p (a ++ b) = ((feed p a).1 ++ (feed (feed p a).2 b).1, (feed (feed p a).2 b).2) := by
  induction a generalizing p with
  | nil => rfl
  | cons byte rest ih => rw [List.cons_append, feed, ih, feed, List.append_assoc]

/-! ## Characters -/

theorem first_ascii {n : Nat} (h : n < 0x80) : first n = ([Char.ofNat n], none) := if_pos h

theorem first_two {n : Nat} (hLow : 2 ≤ n) (hHigh : n < 0x20) :
    first (n + 0xc0) = ([], some ⟨n, 1, 0x80, 0xbf⟩) := by
  rw [first, if_neg (by omega), if_pos (by omega), Nat.add_sub_cancel]

theorem first_three {n : Nat} (h : n < 0x10) : ∃ lower upper,
    first (n + 0xe0) = ([], some ⟨n, 2, lower, upper⟩) ∧
      lower = (if n = 0 then 0xa0 else 0x80) ∧ upper = if n = 0xd then 0x9f else 0xbf := by
  rw [first, if_neg (by omega), if_neg (by omega), if_pos (by omega), Nat.add_sub_cancel]
  exact ⟨_, _, rfl, if_congr (by omega) rfl rfl, if_congr (by omega) rfl rfl⟩

theorem first_four {n : Nat} (h : n < 5) : ∃ lower upper,
    first (n + 0xf0) = ([], some ⟨n, 3, lower, upper⟩) ∧
      lower = (if n = 0 then 0x90 else 0x80) ∧ upper = if n = 4 then 0x8f else 0xbf := by
  rw [first, if_neg (by omega), if_neg (by omega), if_neg (by omega), if_pos (by omega),
    Nat.add_sub_cancel]
  exact ⟨_, _, rfl, if_congr (by omega) rfl rfl, if_congr (by omega) rfl rfl⟩

theorem next_more {code needed lower upper n : Nat} (h : lower ≤ n + 0x80 ∧ n + 0x80 ≤ upper)
    (hMore : needed ≠ 0) : next ⟨code, needed + 1, lower, upper⟩ (n + 0x80) =
      ([], some ⟨code * 64 + n, needed, 0x80, 0xbf⟩) := by
  rw [next, if_pos h, if_neg (by simpa using hMore), Nat.add_sub_cancel, Nat.add_sub_cancel]

theorem next_last {code lower upper n : Nat} (h : lower ≤ n + 0x80 ∧ n + 0x80 ≤ upper) :
    next ⟨code, 1, lower, upper⟩ (n + 0x80) = ([Char.ofNat (code * 64 + n)], none) := by
  rw [next, if_pos h, if_pos rfl, Nat.add_sub_cancel]

/-- The bytes make one character, with the last of them and not before. -/
inductive Spells : Option Pending → List UInt8 → Char → Prop
  | last {p : Option Pending} {b : UInt8} {c : Char} (h : step p b = ([c], none)) :
      Spells p [b] c
  | more {p : Option Pending} {q : Pending} {b : UInt8} {rest : List UInt8} {c : Char}
      (h : step p b = ([], some q)) (hRest : Spells (some q) rest c) : Spells p (b :: rest) c

theorem Spells.feed {p : Option Pending} {bytes : List UInt8} {c : Char}
    (h : Spells p bytes c) : feed p bytes = ([c], none) := by
  induction h with
  | last h => rw [Utf8Decode.feed, h, Utf8Decode.feed, List.append_nil]
  | more h hRest ih => rw [Utf8Decode.feed, h, ih, List.nil_append]

theorem Spells.feed_cut {p : Option Pending} {bytes : List UInt8} {c : Char}
    (h : Spells p bytes c) : ∀ {part more : List UInt8}, bytes = part ++ more → more ≠ [] →
      (Utf8Decode.feed p part).1 = [] ∧ ((Utf8Decode.feed p part).2.isSome = true ∨ part = []) := by
  induction h with
  | last h =>
    intro part more hBytes hMore
    cases part with
    | nil => exact ⟨rfl, .inr rfl⟩
    | cons b rest =>
      rw [List.cons_append, List.cons.injEq] at hBytes
      exact absurd (List.append_eq_nil_iff.mp hBytes.2.symm).2 hMore
  | @more p q b rest c h hRest ih =>
    intro part more hBytes hMore
    cases part with
    | nil => exact ⟨rfl, .inr rfl⟩
    | cons b' part =>
      rw [List.cons_append, List.cons.injEq] at hBytes
      obtain ⟨rfl, hBytes⟩ := hBytes
      obtain ⟨hNone, hPending⟩ := ih hBytes hMore
      rw [Utf8Decode.feed, h]
      refine ⟨by rw [hNone, List.nil_append], .inl ?_⟩
      rcases hPending with hSome | rfl
      · exact hSome
      · rfl

theorem step_byte (p : Option Pending) (n : Nat) (h : n < 256) :
    step p (UInt8.ofNat n) = match p with | none => first n | some p => next p n := by
  have hByte : (UInt8.ofNat n).toNat = n := by
    rw [UInt8.toNat_ofNat']
    omega
  cases p with
  | none | some p => rw [step, hByte]

theorem spells_encodeChar (c : Char) : Spells none (String.utf8EncodeChar c) c := by
  have hScalar : c.val.toNat < 0xd800 ∨ (0xdfff < c.val.toNat ∧ c.val.toNat < 0x110000) := c.valid
  have hValue : Char.ofNat c.val.toNat = c := Char.ofNat_toNat c
  unfold String.utf8EncodeChar
  dsimp only
  generalize c.val.toNat = v at hScalar hValue
  split_ifs with hOne hTwo hThree
  · refine .last ?_
    rw [step_byte _ _ (by omega), ← hValue]
    exact first_ascii (by omega)
  · refine .more (q := _) ((step_byte _ _ (by omega)).trans (first_two (by omega) (by omega)))
      (.last ?_)
    rw [step_byte _ _ (by omega), ← hValue]
    refine (next_last (by omega)).trans ?_
    rw [show v / 64 % 32 * 64 + v % 64 = v by omega]
  · obtain ⟨lower, upper, hFirst, hLower, hUpper⟩ := first_three (n := v / 4096 % 16) (by omega)
    refine .more ((step_byte _ _ (by omega)).trans hFirst) (.more
      ((step_byte _ _ (by omega)).trans (next_more ?_ (by decide))) (.last ?_))
    · rw [hLower, hUpper]
      split_ifs <;> omega
    · rw [step_byte _ _ (by omega), ← hValue]
      refine (next_last (by omega)).trans ?_
      rw [show (v / 4096 % 16 * 64 + v / 64 % 64) * 64 + v % 64 = v by omega]
  · obtain ⟨lower, upper, hFirst, hLower, hUpper⟩ := first_four (n := v / 262144 % 8) (by omega)
    refine .more ((step_byte _ _ (by omega)).trans hFirst) (.more
      ((step_byte _ _ (by omega)).trans (next_more ?_ (by decide))) (.more
      ((step_byte _ _ (by omega)).trans (next_more (by omega) (by decide))) (.last ?_)))
    · rw [hLower, hUpper]
      split_ifs <;> omega
    · rw [step_byte _ _ (by omega), ← hValue]
      refine (next_last (by omega)).trans ?_
      rw [show ((v / 262144 % 8 * 64 + v / 4096 % 64) * 64 + v / 64 % 64) * 64 + v % 64 = v by
        omega]

/-! ## Texts -/

theorem feed_encode (text : List Char) : feed none (encode text) = (text, none) := by
  induction text with
  | nil => rfl
  | cons c rest ih =>
    rw [encode_cons, feed_append, (spells_encodeChar c).feed, ih]
    rfl

theorem decode_encode (text : List Char) : decode (encode text) = text := by
  rw [decode, feed_encode]
  exact List.append_nil text

theorem decode_cut (text : List Char) {c : Char} {part more : List UInt8}
    (hChar : String.utf8EncodeChar c = part ++ more) (hPart : part ≠ []) (hMore : more ≠ []) :
    decode (encode text ++ part) = text ++ ['\ufffd'] := by
  obtain ⟨hNone, hPending⟩ := (spells_encodeChar c).feed_cut hChar hMore
  have hSome := hPending.resolve_right hPart
  rw [decode, feed_append, feed_encode, hNone, finish, if_pos hSome, List.append_nil]

theorem decode_take (text : List Char) {n : Nat} (h : n ≤ (encode text).length) :
    decode ((encode text).take n) = takeBytes n text ++
      if (encode (takeBytes n text)).length = n then [] else ['\ufffd'] := by
  obtain ⟨part, hTake, hPart⟩ := take_encode text n
  have hLength := congrArg List.length hTake
  rw [List.length_take, Nat.min_eq_left h, List.length_append] at hLength
  rcases hPart with rfl | ⟨hNonempty, c, more, hChar, hMore⟩
  · rw [List.length_nil, Nat.add_zero] at hLength
    rw [if_pos hLength.symm, hTake, List.append_nil, List.append_nil]
    exact decode_encode _
  · have hPositive := List.length_pos_of_ne_nil hNonempty
    rw [if_neg (by omega), hTake]
    exact decode_cut _ hChar hNonempty hMore

end SimplexAgent.Verified.Utf8Decode
