import SimplexAgent.Verified.Utf8

/-!
# Strings of code units

A string of UTF-16 code units need not be a text: a surrogate may stand alone. `points` reads
such a string, and `units` writes what was read again (`units_points`). `chars` is the text that
an encoder makes of it, with a replacement character for every lone surrogate, and
`wellFormed_iff` says when that is the string itself.
-/

namespace SimplexAgent.Verified.Utf16

def isHigh (u : UInt16) : Bool := 0xd800 ≤ u.toNat && u.toNat < 0xdc00

def isLow (u : UInt16) : Bool := 0xdc00 ≤ u.toNat && u.toNat < 0xe000

/-- What a string is made of: characters, and surrogates without their counterpart. -/
inductive Point where
  | scalar (c : Char)
  | lone (u : UInt16)
  deriving DecidableEq

/-- A code unit that is not half of a pair. -/
def single (u : UInt16) : Point :=
  if isHigh u || isLow u then .lone u else .scalar (Char.ofNat u.toNat)

def pair (u v : UInt16) : Char :=
  Char.ofNat (0x10000 + (u.toNat - 0xd800) * 0x400 + (v.toNat - 0xdc00))

/-- Reading from the front. -/
def points : List UInt16 → List Point
  | [] => []
  | [u] => [single u]
  | u :: v :: rest =>
    if isHigh u && isLow v then .scalar (pair u v) :: points rest
    else single u :: points (v :: rest)

def encodeChar (c : Char) : List UInt16 :=
  if c.toNat < 0x10000 then [UInt16.ofNat c.toNat]
  else [UInt16.ofNat (0xd800 + (c.toNat - 0x10000) / 0x400),
    UInt16.ofNat (0xdc00 + (c.toNat - 0x10000) % 0x400)]

def encode (text : List Char) : List UInt16 := text.flatMap encodeChar

namespace Point

def units : Point → List UInt16
  | scalar c => encodeChar c
  | lone u => [u]

/-- A lone surrogate is replaced. -/
def char : Point → Char
  | scalar c => c
  | lone _ => '\ufffd'

end Point

/-- The text that an encoder takes a string for. -/
def chars (s : List UInt16) : List Char := (points s).map Point.char

/-- No surrogate stands alone. -/
def WellFormed (s : List UInt16) : Prop := ∀ u, Point.lone u ∉ points s

/-! ## Characters -/

theorem toNat_scalar (c : Char) : c.toNat < 0xd800 ∨ (0xdfff < c.toNat ∧ c.toNat < 0x110000) :=
  c.valid

theorem toNat_charOf {n : Nat} (h : n.isValidChar) : (Char.ofNat n).toNat = n := by
  rw [Char.ofNat, dif_pos h]
  rfl

theorem encodeChar_single {u : UInt16} (h : (isHigh u || isLow u) = false) :
    encodeChar (Char.ofNat u.toNat) = [u] := by
  have hUnit := u.toNat_lt
  simp only [isHigh, isLow, Bool.or_eq_false_iff, Bool.and_eq_false_iff, decide_eq_false_iff_not,
    Nat.not_le, Nat.not_lt] at h
  have hValid : u.toNat.isValidChar := by
    rw [Nat.isValidChar]
    omega
  rw [encodeChar, toNat_charOf hValid, if_pos (by omega), UInt16.ofNat_toNat]

theorem encodeChar_pair {u v : UInt16} (h : (isHigh u && isLow v) = true) :
    encodeChar (pair u v) = [u, v] := by
  simp only [isHigh, isLow, Bool.and_eq_true, decide_eq_true_eq] at h
  obtain ⟨⟨hLow, hHigh⟩, hLow', hHigh'⟩ := h
  have hValid : (0x10000 + (u.toNat - 0xd800) * 0x400 + (v.toNat - 0xdc00)).isValidChar := by
    rw [Nat.isValidChar]
    omega
  have hFirst : 0xd800 + (0x10000 + (u.toNat - 0xd800) * 0x400 + (v.toNat - 0xdc00) - 0x10000) /
      0x400 = u.toNat := by omega
  have hSecond : 0xdc00 + (0x10000 + (u.toNat - 0xd800) * 0x400 + (v.toNat - 0xdc00) - 0x10000) %
      0x400 = v.toNat := by omega
  rw [encodeChar, pair, toNat_charOf hValid, if_neg (by omega), hFirst, hSecond,
    UInt16.ofNat_toNat, UInt16.ofNat_toNat]

theorem points_encodeChar (c : Char) (rest : List UInt16) :
    points (encodeChar c ++ rest) = .scalar c :: points rest := by
  have hScalar := toNat_scalar c
  by_cases hSmall : c.toNat < 0x10000
  · have hUnit : (UInt16.ofNat c.toNat).toNat = c.toNat := by
      rw [UInt16.toNat_ofNat']
      omega
    have hHigh : isHigh (UInt16.ofNat c.toNat) = false := by
      simp only [isHigh, hUnit, Bool.and_eq_false_iff, decide_eq_false_iff_not]
      omega
    have hLow : isLow (UInt16.ofNat c.toNat) = false := by
      simp only [isLow, hUnit, Bool.and_eq_false_iff, decide_eq_false_iff_not]
      omega
    have hSingle : single (UInt16.ofNat c.toNat) = .scalar c := by
      rw [single, hHigh, hLow, hUnit, Bool.false_or, if_neg Bool.false_ne_true, Char.ofNat_toNat]
    rw [encodeChar, if_pos hSmall, List.singleton_append]
    cases rest with
    | nil => exact congrArg (· :: []) hSingle
    | cons v rest => rw [points, hHigh, Bool.false_and, if_neg Bool.false_ne_true, hSingle]
  · have hFirst : (UInt16.ofNat (0xd800 + (c.toNat - 0x10000) / 0x400)).toNat =
        0xd800 + (c.toNat - 0x10000) / 0x400 := by
      rw [UInt16.toNat_ofNat']
      omega
    have hSecond : (UInt16.ofNat (0xdc00 + (c.toNat - 0x10000) % 0x400)).toNat =
        0xdc00 + (c.toNat - 0x10000) % 0x400 := by
      rw [UInt16.toNat_ofNat']
      omega
    have hPair : (isHigh (UInt16.ofNat (0xd800 + (c.toNat - 0x10000) / 0x400)) &&
        isLow (UInt16.ofNat (0xdc00 + (c.toNat - 0x10000) % 0x400))) = true := by
      simp only [isHigh, isLow, hFirst, hSecond, Bool.and_eq_true, decide_eq_true_eq]
      omega
    rw [encodeChar, if_neg hSmall, List.cons_append, List.singleton_append, points, if_pos hPair,
      pair, hFirst, hSecond]
    have hValue : 0x10000 + (0xd800 + (c.toNat - 0x10000) / 0x400 - 0xd800) * 0x400 +
        (0xdc00 + (c.toNat - 0x10000) % 0x400 - 0xdc00) = c.toNat := by omega
    rw [hValue, Char.ofNat_toNat]

/-! ## Strings -/

theorem units_single (u : UInt16) : (single u).units = [u] := by
  unfold single
  by_cases h : (isHigh u || isLow u) = true
  · rw [if_pos h]
    rfl
  · rw [if_neg h]
    exact encodeChar_single (Bool.not_eq_true _ ▸ h)

/-- Writing undoes reading. -/
theorem units_points (s : List UInt16) : (points s).flatMap Point.units = s := by
  induction s using points.induct with
  | case1 => rfl
  | case2 u =>
    rw [points, List.flatMap_singleton]
    exact units_single u
  | case3 u v rest hPair ih =>
    rw [points, if_pos hPair, List.flatMap_cons, ih]
    show encodeChar (pair u v) ++ rest = _
    rw [encodeChar_pair hPair]
    rfl
  | case4 u v rest hPair ih =>
    rw [points, if_neg hPair, List.flatMap_cons, ih, units_single]
    rfl

theorem points_encode (text : List Char) : points (encode text) = text.map .scalar := by
  induction text with
  | nil => rfl
  | cons c rest ih =>
    rw [encode, List.flatMap_cons, points_encodeChar]
    exact congrArg _ ih

@[simp] theorem chars_encode (text : List Char) : chars (encode text) = text := by
  rw [chars, points_encode, List.map_map]
  exact List.map_id text

theorem wellFormed_encode (text : List Char) : WellFormed (encode text) := by
  intro u hMem
  rw [points_encode] at hMem
  obtain ⟨c, -, hChar⟩ := List.mem_map.mp hMem
  cases hChar

/-- The strings that are texts. -/
theorem wellFormed_iff (s : List UInt16) : WellFormed s ↔ encode (chars s) = s := by
  constructor
  · intro h
    conv => rhs; rw [← units_points s]
    rw [encode, chars, List.flatMap_map]
    apply List.flatMap_congr
    intro p hMem
    cases p with
    | scalar c => rfl
    | lone u => exact absurd hMem (h u)
  · intro h
    rw [← h]
    exact wellFormed_encode _

/-! ## Bytes -/

def byteLength (s : List UInt16) : Nat := (Utf8.encode (chars s)).length

/-- The longest beginning of whole characters with at most so many bytes. -/
def takeBytes (n : Nat) (s : List UInt16) : List UInt16 := encode (Utf8.takeBytes n (chars s))

theorem byteLength_pos {s : List UInt16} (h : s ≠ []) : 0 < byteLength s := by
  rw [byteLength]
  cases hChars : chars s with
  | nil =>
    rw [chars, List.map_eq_nil_iff] at hChars
    have hUnits := units_points s
    rw [hChars] at hUnits
    exact absurd hUnits.symm h
  | cons c rest =>
    rw [Utf8.encode_cons, List.length_append, String.length_utf8EncodeChar]
    have hSize := c.utf8Size_pos
    omega

theorem byteLength_takeBytes_le (n : Nat) (s : List UInt16) : byteLength (takeBytes n s) ≤ n := by
  rw [byteLength, takeBytes, chars_encode]
  exact Utf8.takeBytes_length _ _

theorem chars_takeBytes (n : Nat) (s : List UInt16) : chars (takeBytes n s) <+: chars s := by
  rw [takeBytes, chars_encode]
  exact Utf8.takeBytes_isPrefix _ _

end SimplexAgent.Verified.Utf16
