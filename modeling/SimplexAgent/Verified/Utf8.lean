import Mathlib.Data.List.Basic

/-!
# Cutting encoded text

The UTF-8 bytes of a text, and the positions between its characters. A cut at a
byte position is clean when the byte after it is no continuation byte, and after
a line feed (`aligned_of_not_continuation`, `aligned_after_newline`); a clean cut
leaves whole characters on both sides (`takeBytes_aligned`).
-/

namespace SimplexAgent.Verified.Utf8

def encode (text : List Char) : List UInt8 := text.flatMap String.utf8EncodeChar

@[simp] theorem encode_nil : encode [] = [] := rfl

@[simp] theorem encode_cons (c : Char) (text : List Char) :
    encode (c :: text) = String.utf8EncodeChar c ++ encode text := rfl

theorem encode_append (a b : List Char) : encode (a ++ b) = encode a ++ encode b :=
  List.flatMap_append

theorem encode_injective {a b : List Char} (h : encode a = encode b) : a = b := by
  have hBytes : (String.ofList a).toByteArray = (String.ofList b).toByteArray := by
    rw [String.toByteArray_ofList, String.toByteArray_ofList]
    exact congrArg List.toByteArray h
  have hText := String.toByteArray_inj.mp hBytes
  rw [← String.toList_ofList (l := a), hText, String.toList_ofList]

/-- The test for a byte inside a character. -/
def isContinuation (byte : UInt8) : Bool := byte &&& 0xc0 == 0x80

/-- A continuation byte is one between `0x80` and `0xbf`. -/
theorem isContinuation_ofNat (n : Nat) (h : n < 64) :
    isContinuation (UInt8.ofNat (n + 0x80)) = true := by
  have hAll : ∀ k, k < 64 → isContinuation (UInt8.ofNat (k + 0x80)) = true := by decide
  exact hAll n h

theorem encodeChar_cases (c : Char) : (∃ byte, String.utf8EncodeChar c = [byte]) ∨
    ∃ first rest, String.utf8EncodeChar c = first :: rest ∧ 128 ≤ first.toNat ∧
      ∀ byte ∈ rest, isContinuation byte = true ∧ 128 ≤ byte.toNat := by
  have hLarge : ∀ n, n < 64 → 128 ≤ (UInt8.ofNat (n + 0x80)).toNat := by
    intro n hn
    rw [UInt8.toNat_ofNat']
    omega
  unfold String.utf8EncodeChar
  dsimp only
  split
  · exact Or.inl ⟨_, rfl⟩
  · split
    · refine Or.inr ⟨_, _, rfl, ?_, ?_⟩
      · rw [UInt8.toNat_ofNat']
        omega
      · intro byte hMem
        rw [List.mem_singleton.mp hMem]
        exact ⟨isContinuation_ofNat _ (Nat.mod_lt _ (by decide)), hLarge _ (Nat.mod_lt _ (by decide))⟩
    · split
      · refine Or.inr ⟨_, _, rfl, ?_, ?_⟩
        · rw [UInt8.toNat_ofNat']
          omega
        · intro byte hMem
          simp only [List.mem_cons, List.not_mem_nil, or_false] at hMem
          rcases hMem with rfl | rfl
          · exact ⟨isContinuation_ofNat _ (Nat.mod_lt _ (by decide)),
              hLarge _ (Nat.mod_lt _ (by decide))⟩
          · exact ⟨isContinuation_ofNat _ (Nat.mod_lt _ (by decide)),
              hLarge _ (Nat.mod_lt _ (by decide))⟩
      · refine Or.inr ⟨_, _, rfl, ?_, ?_⟩
        · rw [UInt8.toNat_ofNat']
          omega
        · intro byte hMem
          simp only [List.mem_cons, List.not_mem_nil, or_false] at hMem
          rcases hMem with rfl | rfl | rfl
          · exact ⟨isContinuation_ofNat _ (Nat.mod_lt _ (by decide)),
              hLarge _ (Nat.mod_lt _ (by decide))⟩
          · exact ⟨isContinuation_ofNat _ (Nat.mod_lt _ (by decide)),
              hLarge _ (Nat.mod_lt _ (by decide))⟩
          · exact ⟨isContinuation_ofNat _ (Nat.mod_lt _ (by decide)),
              hLarge _ (Nat.mod_lt _ (by decide))⟩

theorem isContinuation_iff (byte : UInt8) :
    isContinuation byte = true ↔ 0x80 ≤ byte.toNat ∧ byte.toNat < 0xc0 := by
  have hAll : ∀ n : Fin 256, isContinuation (UInt8.ofNat n) = true ↔
      0x80 ≤ n.val ∧ n.val < 0xc0 := by decide +kernel
  have hByte := hAll ⟨byte.toNat, byte.toNat_lt⟩
  simpa using hByte

theorem encodeChar_start (c : Char) : ∃ first rest, String.utf8EncodeChar c = first :: rest ∧
    isContinuation first = false ∧ rest.length ≤ 3 := by
  have hScalar : c.val.toNat < 0xd800 ∨ (0xdfff < c.val.toNat ∧ c.val.toNat < 0x110000) := c.valid
  have hLead : ∀ n, n < 256 → (n < 0x80 ∨ 0xc0 ≤ n) → isContinuation (UInt8.ofNat n) = false := by
    intro n hn hOutside
    rw [← Bool.not_eq_true, isContinuation_iff, UInt8.toNat_ofNat']
    omega
  unfold String.utf8EncodeChar
  dsimp only
  generalize c.val.toNat = v at hScalar
  split
  · exact ⟨_, _, rfl, hLead _ (by omega) (by omega), by simp⟩
  · split
    · exact ⟨_, _, rfl, hLead _ (by omega) (by omega), by simp⟩
    · split
      · exact ⟨_, _, rfl, hLead _ (by omega) (by omega), by simp⟩
      · exact ⟨_, _, rfl, hLead _ (by omega) (by omega), by simp⟩

theorem countP_encode (text : List Char) :
    ((encode text).countP fun byte => !isContinuation byte) = text.length := by
  induction text with
  | nil => rfl
  | cons c rest ih =>
    have hChar : ((String.utf8EncodeChar c).countP fun byte => !isContinuation byte) = 1 := by
      obtain ⟨first, more, hBytes, hFirst, -⟩ := encodeChar_start c
      rw [hBytes, List.countP_cons_of_pos (by rw [hFirst]; rfl), List.countP_eq_zero.mpr]
      intro byte hByte
      rcases encodeChar_cases c with ⟨single, hSingle⟩ | ⟨head, tail, hCons, -, hTail⟩
      · rw [hBytes, List.cons.injEq] at hSingle
        rw [hSingle.2] at hByte
        exact absurd hByte List.not_mem_nil
      · rw [hBytes, List.cons.injEq] at hCons
        rw [(hTail byte (hCons.2 ▸ hByte)).1]
        exact Bool.false_ne_true
    rw [encode_cons, List.countP_append, ih, hChar, List.length_cons, Nat.add_comm]

theorem length_le_encode (text : List Char) : text.length ≤ (encode text).length := by
  rw [← countP_encode text]
  exact List.countP_le_length

theorem encode_start (text : List Char) :
    ∀ byte, (encode text)[0]? = some byte → isContinuation byte = false := by
  cases text with
  | nil => simp
  | cons c rest =>
    obtain ⟨first, more, hChar, hFirst, -⟩ := encodeChar_start c
    intro byte hByte
    rw [encode_cons, hChar, List.cons_append, List.getElem?_cons_zero, Option.some.injEq] at hByte
    rwa [← hByte]

/-! ## Positions between characters -/

variable {text : List Char}

/-- The bytes up to a position are those of whole characters. -/
def Aligned (text : List Char) (n : Nat) : Prop :=
  ∃ before after, text = before ++ after ∧ (encode before).length = n

theorem aligned_zero (text : List Char) : Aligned text 0 := ⟨[], text, rfl, rfl⟩

theorem Aligned.cons {n : Nat} (c : Char) (h : Aligned text n) :
    Aligned (c :: text) ((String.utf8EncodeChar c).length + n) := by
  obtain ⟨before, after, hText, hLength⟩ := h
  refine ⟨c :: before, after, by rw [hText]; rfl, ?_⟩
  rw [encode_cons, List.length_append, hLength]

theorem Aligned.start {n : Nat} (h : Aligned text n) :
    ∀ byte, (encode text)[n]? = some byte → isContinuation byte = false := by
  obtain ⟨before, after, rfl, rfl⟩ := h
  intro byte hByte
  rw [encode_append, List.getElem?_append_right (Nat.le_refl _), Nat.sub_self] at hByte
  exact encode_start after byte hByte

theorem aligned_of_not_continuation : ∀ {n : Nat}, n ≤ (encode text).length →
      (∀ byte, (encode text)[n]? = some byte → isContinuation byte = false) →
      Aligned text n := by
  induction text with
  | nil =>
    intro n hLength _
    have hZero : n = 0 := by simpa using hLength
    rw [hZero]
    exact aligned_zero []
  | cons c rest ih =>
    intro n hLength hByte
    rw [encode_cons] at hLength hByte
    by_cases hZero : n = 0
    · rw [hZero]
      exact aligned_zero _
    · have hPast : (String.utf8EncodeChar c).length ≤ n := by
        by_contra hInside
        have hIn : n < (String.utf8EncodeChar c).length := by omega
        rw [List.getElem?_append_left hIn] at hByte
        rcases encodeChar_cases c with ⟨byte, hOne⟩ | ⟨first, more, hMany, -, hMore⟩
        · rw [hOne, List.length_singleton] at hIn
          omega
        · obtain ⟨k, rfl⟩ : ∃ k, n = k + 1 := ⟨n - 1, by omega⟩
          rw [hMany, List.length_cons] at hIn
          rw [hMany, List.getElem?_cons_succ] at hByte
          have hFound : more[k]? = some more[k] := List.getElem?_eq_getElem (by omega)
          have hClaim := hByte _ hFound
          rw [(hMore _ (List.getElem_mem _)).1] at hClaim
          cases hClaim
      have hRest : Aligned rest (n - (String.utf8EncodeChar c).length) := by
        apply ih
        · rw [List.length_append] at hLength
          omega
        · intro byte hFound
          apply hByte
          rw [List.getElem?_append_right hPast]
          exact hFound
      have hWhole := hRest.cons c
      rwa [Nat.add_sub_cancel' hPast] at hWhole

theorem exists_next_position {n : Nat} (h : Aligned text n) (hInside : n < (encode text).length) :
    ∃ m, n < m ∧ m ≤ n + 4 ∧ m ≤ (encode text).length ∧
      ∀ byte, (encode text)[m]? = some byte → isContinuation byte = false := by
  obtain ⟨before, after, rfl, rfl⟩ := h
  cases after with
  | nil => simp at hInside
  | cons c rest =>
    obtain ⟨first, more, hChar, -, hLength⟩ := encodeChar_start c
    have hSplit : encode (before ++ c :: rest) =
        (encode before ++ String.utf8EncodeChar c) ++ encode rest := by
      rw [encode_append, encode_cons, List.append_assoc]
    have hEnd : (encode before ++ String.utf8EncodeChar c).length =
        (encode before).length + more.length + 1 := by
      rw [hChar, List.length_append, List.length_cons]
      omega
    refine ⟨(encode before ++ String.utf8EncodeChar c).length, by omega, by omega, ?_, ?_⟩
    · rw [hSplit]
      simp only [List.length_append]
      omega
    · intro byte hByte
      rw [hSplit, List.getElem?_append_right (Nat.le_refl _), Nat.sub_self] at hByte
      exact encode_start rest byte hByte

theorem aligned_after_newline :
    ∀ {n : Nat}, (encode text)[n]? = some 10 → Aligned text (n + 1) := by
  induction text with
  | nil =>
    intro n hByte
    cases hByte
  | cons c rest ih =>
    intro n hByte
    rw [encode_cons] at hByte
    by_cases hIn : n < (String.utf8EncodeChar c).length
    · rw [List.getElem?_append_left hIn] at hByte
      rcases encodeChar_cases c with ⟨byte, hOne⟩ | ⟨first, more, hMany, hFirst, hMore⟩
      · rw [hOne, List.length_singleton] at hIn
        have hZero : n = 0 := by omega
        have hChar := (aligned_zero rest).cons c
        rw [hOne] at hChar
        rw [hZero]
        exact hChar
      · rw [hMany] at hByte
        have hMem := List.mem_of_getElem? hByte
        have hLarge : 128 ≤ (10 : UInt8).toNat := by
          rcases List.mem_cons.mp hMem with hHead | hTail
          · rw [hHead]
            exact hFirst
          · exact (hMore _ hTail).2
        exact absurd hLarge (by decide)
    · rw [List.getElem?_append_right (by omega)] at hByte
      have hRest := (ih hByte).cons c
      rwa [show (String.utf8EncodeChar c).length + (n - (String.utf8EncodeChar c).length + 1) =
        n + 1 by omega] at hRest

/-! ## Cutting -/

def takeBytes (n : Nat) : List Char → List Char
  | [] => []
  | c :: rest =>
    if (String.utf8EncodeChar c).length ≤ n then
      c :: takeBytes (n - (String.utf8EncodeChar c).length) rest
    else []

theorem takeBytes_isPrefix (text : List Char) : ∀ n, takeBytes n text <+: text := by
  induction text with
  | nil => exact fun _ => List.prefix_rfl
  | cons c rest ih =>
    intro n
    rw [takeBytes]
    by_cases h : (String.utf8EncodeChar c).length ≤ n
    · rw [if_pos h]
      exact List.cons_prefix_cons.mpr ⟨rfl, ih _⟩
    · rw [if_neg h]
      exact List.nil_prefix

theorem takeBytes_length (text : List Char) : ∀ n, (encode (takeBytes n text)).length ≤ n := by
  induction text with
  | nil => exact fun n => Nat.zero_le n
  | cons c rest ih =>
    intro n
    rw [takeBytes]
    by_cases h : (String.utf8EncodeChar c).length ≤ n
    · rw [if_pos h, encode_cons, List.length_append]
      have hRest := ih (n - (String.utf8EncodeChar c).length)
      omega
    · rw [if_neg h]
      exact Nat.zero_le n

/-- What fits as a whole is kept. -/
theorem takeBytes_append_of_le {before : List Char} (after : List Char) {n : Nat}
    (h : (encode before).length ≤ n) :
    takeBytes n (before ++ after) = before ++ takeBytes (n - (encode before).length) after := by
  induction before generalizing n with
  | nil => rfl
  | cons c rest ih =>
    rw [encode_cons, List.length_append] at h
    rw [List.cons_append, takeBytes, if_pos (by omega), ih (by omega), encode_cons,
      List.length_append, Nat.sub_sub, List.cons_append]

theorem takeBytes_of_le {text : List Char} {n : Nat} (h : (encode text).length ≤ n) :
    takeBytes n text = text := by
  have hWhole := takeBytes_append_of_le [] h
  rw [List.append_nil] at hWhole
  rw [hWhole, takeBytes, List.append_nil]

theorem isPrefix_takeBytes {before : List Char} (after : List Char) {n : Nat}
    (h : (encode before).length ≤ n) : before <+: takeBytes n (before ++ after) := by
  rw [takeBytes_append_of_le after h]
  exact List.prefix_append _ _

/-- Nothing is kept behind what does not fit. -/
theorem takeBytes_append_of_lt {before : List Char} (after : List Char) {n : Nat}
    (h : n < (encode before).length) : takeBytes n (before ++ after) = takeBytes n before := by
  induction before generalizing n with
  | nil => exact absurd h (Nat.not_lt_zero n)
  | cons c rest ih =>
    rw [encode_cons, List.length_append] at h
    rw [List.cons_append, takeBytes, takeBytes]
    by_cases hFits : (String.utf8EncodeChar c).length ≤ n
    · rw [if_pos hFits, if_pos hFits, ih (by omega)]
    · rw [if_neg hFits, if_neg hFits]

theorem takeBytes_zero (text : List Char) : takeBytes 0 text = [] := by
  cases text with
  | nil => rfl
  | cons c rest =>
    have hPositive : 0 < (String.utf8EncodeChar c).length := by
      rcases encodeChar_cases c with ⟨byte, hOne⟩ | ⟨first, more, hMany, -⟩
      · rw [hOne]
        exact Nat.one_pos
      · rw [hMany]
        exact Nat.succ_pos _
    rw [takeBytes, if_neg (by omega)]

theorem takeBytes_aligned {n : Nat} (h : Aligned text n) :
    (∃ after, text = takeBytes n text ++ after) ∧
      encode (takeBytes n text) = (encode text).take n := by
  obtain ⟨before, after, rfl, rfl⟩ := h
  rw [takeBytes_append_of_le after (Nat.le_refl _), Nat.sub_self, takeBytes_zero, List.append_nil, encode_append]
  exact ⟨⟨after, rfl⟩, (List.take_left' rfl).symm⟩

theorem take_encode (text : List Char) (n : Nat) :
    ∃ part, (encode text).take n = encode (takeBytes n text) ++ part ∧ (part = [] ∨ part ≠ [] ∧
        ∃ c more, String.utf8EncodeChar c = part ++ more ∧ more ≠ []) := by
  induction text generalizing n with
  | nil => exact ⟨[], by rw [encode_nil, List.take_nil]; rfl, .inl rfl⟩
  | cons c rest ih =>
    rw [takeBytes]
    by_cases hFits : (String.utf8EncodeChar c).length ≤ n
    · obtain ⟨part, hTake, hPart⟩ := ih (n - (String.utf8EncodeChar c).length)
      refine ⟨part, ?_, hPart⟩
      rw [if_pos hFits, encode_cons, encode_cons, List.take_append, List.take_of_length_le hFits,
        hTake, List.append_assoc]
    · rw [if_neg hFits]
      have hCut : (encode (c :: rest)).take n = (String.utf8EncodeChar c).take n := by
        rw [encode_cons, List.take_append_of_le_length (by omega)]
      refine ⟨(String.utf8EncodeChar c).take n, hCut, ?_⟩
      by_cases hNone : (String.utf8EncodeChar c).take n = []
      · exact .inl hNone
      · refine .inr ⟨hNone, c, (String.utf8EncodeChar c).drop n,
          (List.take_append_drop n _).symm, ?_⟩
        rw [Ne, List.drop_eq_nil_iff]
        exact hFits

theorem le_takeBytes_length {n : Nat} (h : n ≤ (encode text).length) :
    n ≤ (encode (takeBytes n text)).length + 3 := by
  obtain ⟨part, hTake, hPart⟩ := take_encode text n
  have hLength := congrArg List.length hTake
  rw [List.length_take, Nat.min_eq_left h, List.length_append] at hLength
  rcases hPart with rfl | ⟨-, c, more, hChar, hMore⟩
  · rw [List.length_nil] at hLength
    omega
  · obtain ⟨first, rest, hBytes, -, hRest⟩ := encodeChar_start c
    have hSize := congrArg List.length (hBytes.symm.trans hChar)
    have hPositive := List.length_pos_of_ne_nil hMore
    rw [List.length_cons, List.length_append] at hSize
    omega

end SimplexAgent.Verified.Utf8
