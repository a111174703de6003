import SimplexAgent.Verified.Utf8

/-!
# The display of bytes as UTF-8

Bytes that need not be text: each encoded character stands for itself, and each byte
that begins none is shown as the replacement character. `WellFormed` is the table of
byte sequences that encode a character, and `wellFormed_iff` says that it is exactly
what the encoding of Lean's characters produces.
-/

namespace SimplexAgent.Verified.Utf8Display

/-! ## Encoded characters -/

def isTail (b : UInt8) : Prop := 0x80 ≤ b ∧ b ≤ 0xbf

instance (b : UInt8) : Decidable (isTail b) := inferInstanceAs (Decidable (_ ∧ _))

/-- The bytes of one character: no longer than needed, no surrogate, nothing above
`U+10FFFF`. -/
def WellFormed : List UInt8 → Prop
  | [a] => a < 0x80
  | [a, b] => (0xc2 ≤ a ∧ a ≤ 0xdf) ∧ isTail b
  | [a, b, c] => (0xe0 ≤ a ∧ a ≤ 0xef) ∧ (isTail b ∧ isTail c) ∧
      (a = 0xe0 → 0xa0 ≤ b) ∧ (a = 0xed → b ≤ 0x9f)
  | [a, b, c, d] => (0xf0 ≤ a ∧ a ≤ 0xf4) ∧ (isTail b ∧ isTail c ∧ isTail d) ∧
      (a = 0xf0 → 0x90 ≤ b) ∧ (a = 0xf4 → b ≤ 0x8f)
  | _ => False

theorem toNat_val_lt (c : Char) : c.val.toNat < 0xd800 ∨
    (0xdfff < c.val.toNat ∧ c.val.toNat < 0x110000) := c.valid

theorem wellFormed_encode (c : Char) : WellFormed (String.utf8EncodeChar c) := by
  have hScalar := toNat_val_lt c
  unfold String.utf8EncodeChar
  dsimp only
  generalize c.val.toNat = v at hScalar
  split_ifs with hOne hTwo hThree
  · simp only [WellFormed, UInt8.lt_iff_toNat_lt, UInt8.toNat_ofNat', UInt8.reduceToNat]
    omega
  · simp only [WellFormed, isTail, UInt8.le_iff_toNat_le, UInt8.toNat_ofNat', UInt8.reduceToNat]
    omega
  · simp only [WellFormed, isTail, UInt8.le_iff_toNat_le, ← UInt8.toNat_inj, UInt8.toNat_ofNat',
      UInt8.reduceToNat]
    omega
  · simp only [WellFormed, isTail, UInt8.le_iff_toNat_le, ← UInt8.toNat_inj, UInt8.toNat_ofNat',
      UInt8.reduceToNat]
    omega

theorem exists_char (v : Nat) (h : v < 0xd800 ∨ (0xdfff < v ∧ v < 0x110000)) :
    ∃ c : Char, c.val.toNat = v := by
  refine ⟨Char.ofNatAux v h, ?_⟩
  show (UInt32.ofNatLT v _).toNat = v
  exact UInt32.toNat_ofNatLT

theorem encode_of_wellFormed (bytes : List UInt8) (h : WellFormed bytes) :
    ∃ c, String.utf8EncodeChar c = bytes := by
  unfold WellFormed at h
  split at h
  next a =>
    simp only [UInt8.lt_iff_toNat_lt, UInt8.reduceToNat] at h
    obtain ⟨c, hc⟩ := exists_char a.toNat (by omega)
    refine ⟨c, ?_⟩
    unfold String.utf8EncodeChar
    dsimp only
    rw [hc, if_pos (by omega), UInt8.ofNat_toNat]
  next a b =>
    simp only [isTail, UInt8.le_iff_toNat_le, UInt8.reduceToNat] at h
    obtain ⟨c, hc⟩ := exists_char ((a.toNat - 192) * 64 + (b.toNat - 128)) (by omega)
    refine ⟨c, ?_⟩
    unfold String.utf8EncodeChar
    dsimp only
    rw [hc, if_neg (by omega), if_pos (by omega)]
    simp only [List.cons.injEq, ← UInt8.toNat_inj, UInt8.toNat_ofNat', and_true]
    omega
  next a b d =>
    simp only [isTail, UInt8.le_iff_toNat_le, ← UInt8.toNat_inj, UInt8.reduceToNat] at h
    obtain ⟨c, hc⟩ := exists_char
      ((a.toNat - 224) * 4096 + (b.toNat - 128) * 64 + (d.toNat - 128)) (by omega)
    refine ⟨c, ?_⟩
    unfold String.utf8EncodeChar
    dsimp only
    rw [hc, if_neg (by omega), if_neg (by omega), if_pos (by omega)]
    simp only [List.cons.injEq, ← UInt8.toNat_inj, UInt8.toNat_ofNat', and_true]
    omega
  next a b d e =>
    simp only [isTail, UInt8.le_iff_toNat_le, ← UInt8.toNat_inj, UInt8.reduceToNat] at h
    obtain ⟨c, hc⟩ := exists_char ((a.toNat - 240) * 262144 + (b.toNat - 128) * 4096 +
      (d.toNat - 128) * 64 + (e.toNat - 128)) (by omega)
    refine ⟨c, ?_⟩
    unfold String.utf8EncodeChar
    dsimp only
    rw [hc, if_neg (by omega), if_neg (by omega), if_neg (by omega)]
    simp only [List.cons.injEq, ← UInt8.toNat_inj, UInt8.toNat_ofNat', and_true]
    omega
  next => cases h

theorem wellFormed_iff (bytes : List UInt8) :
    WellFormed bytes ↔ ∃ c, String.utf8EncodeChar c = bytes := by
  constructor
  · exact encode_of_wellFormed bytes
  · rintro ⟨c, rfl⟩
    exact wellFormed_encode c

/-- No character is the beginning of another one. -/
theorem wellFormed_unique {u v : List UInt8} (hU : WellFormed u) (hV : WellFormed v)
    (h : u <+: v) : u = v := by
  obtain ⟨w, rfl⟩ := h
  cases w with
  | nil => rw [List.append_nil]
  | cons e w =>
    exfalso
    unfold WellFormed at hU
    split at hU
    next a =>
      simp only [UInt8.lt_iff_toNat_lt, UInt8.reduceToNat] at hU
      unfold WellFormed at hV
      split at hV <;> simp_all [UInt8.le_iff_toNat_le] <;> omega
    next a b =>
      unfold WellFormed at hV
      split at hV <;> simp_all [UInt8.le_iff_toNat_le] <;> omega
    next a b d =>
      unfold WellFormed at hV
      split at hV <;> simp_all [UInt8.le_iff_toNat_le]
      omega
    next a b d f =>
      unfold WellFormed at hV
      split at hV <;> simp_all
    next => cases hU

/-! ## The display -/

/-- `U+FFFD`. -/
def replacement : List UInt8 := [0xef, 0xbf, 0xbd]

/-- `out` is what `bytes` look like. -/
inductive Displays : List UInt8 → List UInt8 → Prop
  | nil : Displays [] []
  | char (c : Char) {bytes out : List UInt8} (h : Displays bytes out) :
      Displays (String.utf8EncodeChar c ++ bytes) (String.utf8EncodeChar c ++ out)
  | invalid (b : UInt8) {bytes out : List UInt8}
      (hNone : ∀ c, ¬String.utf8EncodeChar c <+: b :: bytes) (h : Displays bytes out) :
      Displays (b :: bytes) (replacement ++ out)

theorem encode_ne_nil (c : Char) : String.utf8EncodeChar c ≠ [] := by
  intro hNil
  have h := wellFormed_encode c
  rw [hNil] at h
  cases h

theorem encode_unique_front {c d : Char} {bytes : List UInt8}
    (hC : String.utf8EncodeChar c <+: bytes) (hD : String.utf8EncodeChar d <+: bytes) :
    String.utf8EncodeChar c = String.utf8EncodeChar d := by
  rcases List.prefix_or_prefix_of_prefix hC hD with hLe | hLe
  · exact wellFormed_unique (wellFormed_encode c) (wellFormed_encode d) hLe
  · exact (wellFormed_unique (wellFormed_encode d) (wellFormed_encode c) hLe).symm

theorem displays_unique {bytes out out' : List UInt8} (h : Displays bytes out)
    (h' : Displays bytes out') : out = out' := by
  induction h generalizing out' with
  | nil =>
    generalize hBytes : ([] : List UInt8) = bytes at h'
    cases h' with
    | nil => rfl
    | char c => exact absurd (List.append_eq_nil_iff.mp hBytes.symm).1 (encode_ne_nil c)
    | invalid => cases hBytes
  | @char c bytes out h ih =>
    generalize hBytes : String.utf8EncodeChar c ++ bytes = all at h'
    cases h' with
    | nil => exact absurd (List.append_eq_nil_iff.mp hBytes).1 (encode_ne_nil c)
    | @char d bytes' out' h' =>
      have hSame : String.utf8EncodeChar c = String.utf8EncodeChar d :=
        encode_unique_front ⟨bytes, hBytes⟩ (List.prefix_append _ bytes')
      rw [hSame, List.append_cancel_left_eq] at hBytes
      subst hBytes
      rw [hSame, ih h']
    | invalid b hNone => exact absurd ⟨bytes, hBytes⟩ (hNone c)
  | @invalid b bytes out hNone h ih =>
    generalize hBytes : b :: bytes = all at h'
    cases h' with
    | nil => cases hBytes
    | @char d bytes' => exact absurd ⟨bytes', hBytes.symm⟩ (hNone d)
    | invalid b' hNone' h' =>
      cases hBytes
      rw [ih h']

theorem encode_replacement : String.utf8EncodeChar '\uFFFD' = replacement := by decide

theorem displays_text {bytes out : List UInt8} (h : Displays bytes out) :
    ∃ text : List Char, out = text.flatMap String.utf8EncodeChar := by
  induction h with
  | nil => exact ⟨[], rfl⟩
  | char c _ ih =>
    obtain ⟨text, rfl⟩ := ih
    exact ⟨c :: text, rfl⟩
  | invalid b _ _ ih =>
    obtain ⟨text, rfl⟩ := ih
    refine ⟨'\uFFFD' :: text, ?_⟩
    rw [List.flatMap_cons, encode_replacement]

/-- What the first of the bytes is displayed as, with those that belong to it. -/
inductive Begins : List UInt8 → List UInt8 → Prop
  | char (c : Char) (rest : List UInt8) :
      Begins (String.utf8EncodeChar c ++ rest) (String.utf8EncodeChar c)
  | invalid (b : UInt8) {rest : List UInt8}
      (hNone : ∀ c, ¬String.utf8EncodeChar c <+: b :: rest) : Begins (b :: rest) replacement

/-! ## Text at the front -/

theorem encode_suffix {front text : List Char} {bytes : List UInt8}
    (h : Utf8.encode text = Utf8.encode front ++ bytes) : ∃ back, bytes = Utf8.encode back := by
  induction front generalizing text with
  | nil => exact ⟨text, h.symm⟩
  | cons c front ih =>
    cases text with
    | nil =>
      rw [Utf8.encode_nil, Utf8.encode_cons, List.append_assoc] at h
      exact absurd (List.append_eq_nil_iff.mp h.symm).1 (encode_ne_nil c)
    | cons d text =>
      rw [Utf8.encode_cons, Utf8.encode_cons, List.append_assoc] at h
      have hD : String.utf8EncodeChar d <+: String.utf8EncodeChar d ++ Utf8.encode text :=
        List.prefix_append _ _
      rw [encode_unique_front hD ⟨_, h.symm⟩, List.append_cancel_left_eq] at h
      exact ih h

theorem encode_front_unique {text text' : List Char} {tail tail' : List UInt8}
    (hNone : ∀ c, ¬String.utf8EncodeChar c <+: tail)
    (hNone' : ∀ c, ¬String.utf8EncodeChar c <+: tail')
    (h : Utf8.encode text ++ tail = Utf8.encode text' ++ tail') :
    Utf8.encode text = Utf8.encode text' ∧ tail = tail' := by
  induction text generalizing text' with
  | nil =>
    cases text' with
    | nil => exact ⟨rfl, h⟩
    | cons d text' =>
      rw [Utf8.encode_nil, List.nil_append, Utf8.encode_cons, List.append_assoc] at h
      exact absurd ⟨_, h.symm⟩ (hNone d)
  | cons c text ih =>
    cases text' with
    | nil =>
      rw [Utf8.encode_nil, List.nil_append, Utf8.encode_cons, List.append_assoc] at h
      exact absurd ⟨_, h⟩ (hNone' c)
    | cons d text' =>
      rw [Utf8.encode_cons, Utf8.encode_cons, List.append_assoc, List.append_assoc] at h
      have hC : String.utf8EncodeChar c <+:
          String.utf8EncodeChar c ++ (Utf8.encode text ++ tail) := List.prefix_append _ _
      have hSame := encode_unique_front hC ⟨_, h.symm⟩
      rw [hSame, List.append_cancel_left_eq] at h
      obtain ⟨hText, hTail⟩ := ih h
      rw [Utf8.encode_cons, Utf8.encode_cons, hSame, hText]
      exact ⟨rfl, hTail⟩

def CutChar (bytes : List UInt8) : Prop :=
  ∃ c more, more ≠ [] ∧ String.utf8EncodeChar c = bytes ++ more

theorem cutChar_of_encode {text front : List Char} {tail after : List UInt8}
    (h : Utf8.encode text = Utf8.encode front ++ (tail ++ after)) (hMore : tail ≠ [])
    (hNone : ∀ c, ¬String.utf8EncodeChar c <+: tail) : CutChar tail ∧ after ≠ [] := by
  obtain ⟨back, hBack⟩ := encode_suffix h
  cases back with
  | nil => exact absurd (List.append_eq_nil_iff.mp hBack).1 hMore
  | cons c back =>
    rw [Utf8.encode_cons] at hBack
    have hTail : tail <+: String.utf8EncodeChar c ++ Utf8.encode back := ⟨after, hBack⟩
    rcases List.prefix_or_prefix_of_prefix hTail (List.prefix_append _ _) with hLe | hLe
    · obtain ⟨more, hChar⟩ := hLe
      have hProper : more ≠ [] := by
        intro hNil
        rw [hNil, List.append_nil] at hChar
        exact hNone c ⟨[], by rw [List.append_nil, hChar]⟩
      refine ⟨⟨c, more, hProper, hChar.symm⟩, ?_⟩
      intro hNil
      rw [← hChar, List.append_assoc, List.append_cancel_left_eq, hNil] at hBack
      exact hProper (List.append_eq_nil_iff.mp hBack.symm).1
    · exact absurd hLe (hNone c)

end SimplexAgent.Verified.Utf8Display
