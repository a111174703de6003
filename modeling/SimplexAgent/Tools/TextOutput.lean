import SimplexAgent.Verified.Utf8Display

/-!
# Raw output as text

`text_prefix` of the process toolset: as much of the raw bytes as can be shown, with
the number of bytes that it stands for. While more bytes may come, the beginning of a
character at the end is left for later. `textPrefix_append` says that a later call on
the rest continues as one call on all the bytes would have, and `textPrefix_displays`
that the final text is the display of the bytes as UTF-8.
-/

namespace SimplexAgent.Tools

open Verified

/-- `TextPrefix`: the text, and the number of source bytes it represents. -/
structure TextPrefix where
  text : List UInt8 := []
  consumed : Nat := 0
  deriving DecidableEq

namespace TextPrefix

/-- One more turn of the loop, in front. -/
def push (text : List UInt8) (consumed : Nat) (rest : TextPrefix) : TextPrefix :=
  { text := text ++ rest.text, consumed := consumed + rest.consumed }

@[simp] theorem push_text (text : List UInt8) (consumed : Nat) (rest : TextPrefix) :
    (push text consumed rest).text = text ++ rest.text := rfl

@[simp] theorem push_consumed (text : List UInt8) (consumed : Nat) (rest : TextPrefix) :
    (push text consumed rest).consumed = consumed + rest.consumed := rfl

end TextPrefix

theorem TextPrefix.push_push (a b : List UInt8) (m n : Nat) (rest : TextPrefix) :
    push a m (push b n rest) = push (a ++ b) (m + n) rest := by
  simp only [push, List.append_assoc, Nat.add_assoc]

def sequenceLength (first : UInt8) : Nat :=
  if first < 0x80 then 1
  else if 0xc2 ≤ first ∧ first ≤ 0xdf then 2
  else if 0xe0 ≤ first ∧ first ≤ 0xef then 3
  else if 0xf0 ≤ first ∧ first ≤ 0xf4 then 4
  else 0

/-- The test on the byte at index `i` of a sequence. -/
def follows (first : UInt8) (i : Nat) (next : UInt8) : Bool :=
  (0x80 ≤ next && next ≤ 0xbf) &&
    !(i == 1 && ((first == 0xe0 && next < 0xa0) || (first == 0xed && next > 0x9f) ||
      (first == 0xf0 && next < 0x90) || (first == 0xf4 && next > 0x8f)))

/-- The loop over the bytes after the first one, as far as there are any. -/
def validFrom (first : UInt8) (i : Nat) : Nat → List UInt8 → Bool
  | 0, _ => true
  | _ + 1, [] => true
  | n + 1, next :: rest => follows first i next && validFrom first (i + 1) n rest

/-- `valid`, at the end of that loop. -/
def isValid (first : UInt8) (rest : List UInt8) : Bool :=
  sequenceLength first != 0 && validFrom first 1 (sequenceLength first - 1) rest

/-- `text_prefix`. -/
def textPrefix (raw : List UInt8) (final : Bool) : TextPrefix :=
  match raw with
  | [] => {}
  | first :: rest =>
    let length := sequenceLength first
    if isValid first rest = true ∧ rest.length + 1 < length ∧ final = false then {}
    else if isValid first rest = false ∨ rest.length + 1 < length then
      .push Utf8Display.replacement 1 (textPrefix rest final)
    else .push ((first :: rest).take length) length (textPrefix (rest.drop (length - 1)) final)
termination_by raw.length
decreasing_by
  · exact Nat.lt_succ_self _
  · rw [List.length_drop, List.length_cons]
    omega

/-! ## One turn of the loop -/

variable {rest : List UInt8} {first : UInt8}

@[simp] theorem textPrefix_nil (final : Bool) : textPrefix [] final = {} := by
  rw [textPrefix.eq_def]

/-- The beginning of a character is left for later. -/
theorem textPrefix_wait (hValid : isValid first rest = true)
    (hShort : rest.length + 1 < sequenceLength first) : textPrefix (first :: rest) false = {} := by
  rw [textPrefix.eq_def]
  exact if_pos ⟨hValid, hShort, rfl⟩

theorem textPrefix_replace {final : Bool}
    (h : isValid first rest = false ∨ (rest.length + 1 < sequenceLength first ∧ final = true)) :
    textPrefix (first :: rest) final = .push Utf8Display.replacement 1 (textPrefix rest final) := by
  rw [textPrefix.eq_def]
  dsimp only
  have hNoWait : ¬(isValid first rest = true ∧ rest.length + 1 < sequenceLength first ∧
      final = false) := by
    rintro ⟨hValid, -, hFinal⟩
    rcases h with hInvalid | ⟨-, hEnd⟩
    · rw [hValid] at hInvalid
      cases hInvalid
    · rw [hEnd] at hFinal
      cases hFinal
  rw [if_neg hNoWait, if_pos (h.imp_right And.left)]

/-- A character is copied. -/
theorem textPrefix_copy (final : Bool) (hValid : isValid first rest = true)
    (hLong : sequenceLength first ≤ rest.length + 1) : textPrefix (first :: rest) final =
      .push ((first :: rest).take (sequenceLength first)) (sequenceLength first)
        (textPrefix (rest.drop (sequenceLength first - 1)) final) := by
  rw [textPrefix.eq_def]
  dsimp only
  have hNotShort : ¬rest.length + 1 < sequenceLength first := Nat.not_lt.mpr hLong
  rw [if_neg fun h => hNotShort h.2.1, if_neg]
  rintro (hInvalid | hShort)
  · rw [hValid] at hInvalid
    cases hInvalid
  · exact hNotShort hShort

/-! ## Continuing -/

theorem sequenceLength_pos (h : isValid first rest = true) : 0 < sequenceLength first := by
  simp only [isValid, Bool.and_eq_true, bne_iff_ne] at h
  omega

theorem validFrom_append (first : UInt8) (i n : Nat) (rest more : List UInt8)
    (h : validFrom first i n rest = false) : validFrom first i n (rest ++ more) = false := by
  induction n generalizing i rest with
  | zero => cases h
  | succ n ih =>
    cases rest with
    | nil => cases h
    | cons next rest =>
      simp only [List.cons_append, validFrom, Bool.and_eq_false_iff] at h ⊢
      exact h.imp_right (ih (i + 1) rest)

theorem isValid_append (more : List UInt8) (h : isValid first rest = false) :
    isValid first (rest ++ more) = false := by
  simp only [isValid, Bool.and_eq_false_iff] at h ⊢
  exact h.imp_right (validFrom_append first 1 _ rest more)

/-- Nor can they change a sequence that is all there. -/
theorem validFrom_append_of_length (first : UInt8) (i n : Nat) (rest more : List UInt8)
    (h : n ≤ rest.length) : validFrom first i n (rest ++ more) = validFrom first i n rest := by
  induction n generalizing i rest with
  | zero => rfl
  | succ n ih =>
    cases rest with
    | nil => cases h
    | cons next rest =>
      rw [List.cons_append, validFrom, validFrom, ih (i + 1) rest (Nat.le_of_succ_le_succ h)]

/-- A call on bytes that may go on, and then one on what it left, read the bytes as one call
would. -/
theorem textPrefix_append (raw more : List UInt8) (final : Bool) : textPrefix (raw ++ more) final =
      .push (textPrefix raw false).text (textPrefix raw false).consumed
        (textPrefix ((raw ++ more).drop (textPrefix raw false).consumed) final) := by
  induction hSize : raw.length using Nat.strongRecOn generalizing raw with
  | _ n ih =>
    cases raw with
    | nil => simp [TextPrefix.push]
    | cons first rest =>
      have hLess : rest.length < n := by rw [← hSize]; exact Nat.lt_succ_self _
      by_cases hValid : isValid first rest = true
      · by_cases hShort : rest.length + 1 < sequenceLength first
        · rw [textPrefix_wait hValid hShort]
          simp [TextPrefix.push]
        · have hLong : sequenceLength first ≤ rest.length + 1 := Nat.not_lt.mp hShort
          have hPos := sequenceLength_pos hValid
          have hMore : isValid first (rest ++ more) = true := by
            unfold isValid at hValid ⊢
            rwa [validFrom_append_of_length _ _ _ _ _ (by omega)]
          rw [textPrefix_copy false hValid hLong, List.cons_append, textPrefix_copy final hMore
            (by rw [List.length_append]; omega), List.drop_append_of_le_length (by omega),
            ih _ (by rw [List.length_drop]; omega) _ rfl, TextPrefix.push_push]
          have hDrop (m : Nat) : (first :: (rest ++ more)).drop (sequenceLength first + m) =
              (rest.drop (sequenceLength first - 1) ++ more).drop m := by
            rw [← List.drop_drop, ← List.drop_append_of_le_length (by omega)]
            conv_lhs => rw [← Nat.sub_add_cancel hPos, List.drop_succ_cons]
          have hTake : (first :: (rest ++ more)).take (sequenceLength first) =
              (first :: rest).take (sequenceLength first) := by
            rw [← List.cons_append]
            exact List.take_append_of_le_length hLong
          rw [TextPrefix.push_text, TextPrefix.push_consumed, hDrop, hTake]
      · have hInvalid : isValid first rest = false := by simpa using hValid
        rw [textPrefix_replace (.inl hInvalid), List.cons_append,
          textPrefix_replace (.inl (isValid_append more hInvalid)), ih _ hLess rest rfl,
          TextPrefix.push_push]
        rw [TextPrefix.push_text, TextPrefix.push_consumed, Nat.add_comm 1, List.drop_succ_cons]

theorem textPrefix_consumed_final (raw : List UInt8) :
    (textPrefix raw true).consumed = raw.length := by
  induction hSize : raw.length using Nat.strongRecOn generalizing raw with
  | _ n ih =>
    cases raw with
    | nil => simp [← hSize]
    | cons first rest =>
      rw [List.length_cons] at hSize
      by_cases hReplace : isValid first rest = false ∨
          (rest.length + 1 < sequenceLength first ∧ true = true)
      · rw [textPrefix_replace hReplace, TextPrefix.push_consumed, ih _ (by omega) rest rfl]
        omega
      · obtain ⟨hInvalid, hShort⟩ := not_or.mp hReplace
        have hValid : isValid first rest = true := by simpa using hInvalid
        have hLong : sequenceLength first ≤ rest.length + 1 := by
          simpa using hShort
        have hPos := sequenceLength_pos hValid
        rw [textPrefix_copy true hValid hLong, TextPrefix.push_consumed,
          ih _ (by rw [List.length_drop]; omega) _ rfl, List.length_drop]
        omega

theorem textPrefix_consumed_le (raw : List UInt8) (final : Bool) :
    (textPrefix raw final).consumed ≤ raw.length := by
  cases final with
  | true => exact Nat.le_of_eq (textPrefix_consumed_final raw)
  | false =>
    have hAll := congrArg TextPrefix.consumed (textPrefix_append raw [] true)
    rw [List.append_nil, textPrefix_consumed_final, TextPrefix.push_consumed] at hAll
    omega

theorem sequenceLength_le (first : UInt8) : sequenceLength first ≤ 4 := by
  unfold sequenceLength
  split_ifs <;> decide

/-- Less than a character is left for later. -/
theorem textPrefix_pending (raw : List UInt8) (final : Bool) :
    raw.length < (textPrefix raw final).consumed + 4 := by
  induction hSize : raw.length using Nat.strongRecOn generalizing raw with
  | _ n ih =>
    cases raw with
    | nil => simp [← hSize]
    | cons first rest =>
      rw [List.length_cons] at hSize
      have hLe := sequenceLength_le first
      by_cases hReplace : isValid first rest = false ∨
          (rest.length + 1 < sequenceLength first ∧ final = true)
      · have hRest := ih _ (by omega) rest rfl
        rw [textPrefix_replace hReplace, TextPrefix.push_consumed]
        omega
      · obtain ⟨hInvalid, hShort⟩ := not_or.mp hReplace
        have hValid : isValid first rest = true := by simpa using hInvalid
        by_cases hWait : rest.length + 1 < sequenceLength first
        · omega
        · have hPos := sequenceLength_pos hValid
          have hRest := ih _ (by rw [List.length_drop]; omega)
            (rest.drop (sequenceLength first - 1)) rfl
          rw [List.length_drop] at hRest
          rw [textPrefix_copy final hValid (Nat.not_lt.mp hWait), TextPrefix.push_consumed]
          omega

/-! ## The display -/

theorem sequenceLength_cases (first : UInt8) : (sequenceLength first = 1 ∧ first < 0x80) ∨
    (sequenceLength first = 2 ∧ 0xc2 ≤ first ∧ first ≤ 0xdf) ∨
    (sequenceLength first = 3 ∧ 0xe0 ≤ first ∧ first ≤ 0xef) ∨
    (sequenceLength first = 4 ∧ 0xf0 ≤ first ∧ first ≤ 0xf4) ∨ sequenceLength first = 0 := by
  unfold sequenceLength
  split_ifs <;> simp_all

/-- What the loop accepts is the table of encoded characters. -/
theorem isValid_iff (first : UInt8) (rest : List UInt8)
    (h : sequenceLength first ≤ rest.length + 1) : isValid first rest = true ↔
      Utf8Display.WellFormed ((first :: rest).take (sequenceLength first)) := by
  rcases sequenceLength_cases first with ⟨hLength, hFirst⟩ | ⟨hLength, hFirst⟩ |
    ⟨hLength, hFirst⟩ | ⟨hLength, hFirst⟩ | hLength
  · rw [isValid, hLength]
    simp [validFrom, Utf8Display.WellFormed, hFirst]
  · rw [hLength] at h
    obtain ⟨b, rest, rfl⟩ := List.exists_cons_of_length_pos (show 0 < rest.length by omega)
    rw [isValid, hLength]
    simp [validFrom, follows, Utf8Display.WellFormed, Utf8Display.isTail, hFirst]
    simp only [UInt8.le_iff_toNat_le, ← UInt8.toNat_inj, UInt8.reduceToNat] at hFirst ⊢
    omega
  · rw [hLength] at h
    obtain ⟨b, rest, rfl⟩ := List.exists_cons_of_length_pos (show 0 < rest.length by omega)
    rw [List.length_cons] at h
    obtain ⟨c, rest, rfl⟩ := List.exists_cons_of_length_pos (show 0 < rest.length by omega)
    rw [isValid, hLength]
    simp [validFrom, follows, Utf8Display.WellFormed, Utf8Display.isTail, hFirst]
    simp only [UInt8.le_iff_toNat_le, ← UInt8.toNat_inj, UInt8.reduceToNat] at hFirst ⊢
    omega
  · rw [hLength] at h
    obtain ⟨b, rest, rfl⟩ := List.exists_cons_of_length_pos (show 0 < rest.length by omega)
    rw [List.length_cons] at h
    obtain ⟨c, rest, rfl⟩ := List.exists_cons_of_length_pos (show 0 < rest.length by omega)
    rw [List.length_cons] at h
    obtain ⟨d, rest, rfl⟩ := List.exists_cons_of_length_pos (show 0 < rest.length by omega)
    rw [isValid, hLength]
    simp [validFrom, follows, Utf8Display.WellFormed, Utf8Display.isTail, hFirst]
    simp only [UInt8.le_iff_toNat_le, ← UInt8.toNat_inj, UInt8.reduceToNat] at hFirst ⊢
    omega
  · rw [isValid, hLength]
    simp [Utf8Display.WellFormed]

theorem sequenceLength_wellFormed {more : List UInt8} (h : Utf8Display.WellFormed (first :: more)) :
    sequenceLength first = more.length + 1 := by
  unfold Utf8Display.WellFormed at h
  unfold sequenceLength
  split at h
  next hBytes =>
    cases hBytes
    rw [if_pos h]
    rfl
  next hBytes =>
    cases hBytes
    simp only [UInt8.le_iff_toNat_le, UInt8.lt_iff_toNat_lt, UInt8.reduceToNat] at h ⊢
    rw [if_neg (by omega), if_pos h.1]
    rfl
  next hBytes =>
    cases hBytes
    simp only [UInt8.le_iff_toNat_le, UInt8.lt_iff_toNat_lt, UInt8.reduceToNat] at h ⊢
    rw [if_neg (by omega), if_neg (by omega), if_pos h.1]
    rfl
  next hBytes =>
    cases hBytes
    simp only [UInt8.le_iff_toNat_le, UInt8.lt_iff_toNat_lt, UInt8.reduceToNat] at h ⊢
    rw [if_neg (by omega), if_neg (by omega), if_neg (by omega), if_pos h.1]
    rfl
  next => cases h

theorem no_char_of_replace (h : isValid first rest = false ∨ rest.length + 1 < sequenceLength first)
    (c : Char) : ¬String.utf8EncodeChar c <+: first :: rest := by
  rintro ⟨after, hAfter⟩
  have hWell := Utf8Display.wellFormed_encode c
  cases hBytes : String.utf8EncodeChar c with
  | nil => exact Utf8Display.encode_ne_nil c hBytes
  | cons a more =>
    rw [hBytes] at hWell hAfter
    rw [List.cons_append] at hAfter
    obtain ⟨rfl, rfl⟩ := List.cons.inj hAfter
    have hLength := sequenceLength_wellFormed hWell
    rcases h with hInvalid | hShort
    · have hTake : (a :: (more ++ after)).take (sequenceLength a) = a :: more := by
        rw [hLength, List.take_succ_cons, List.take_left]
      have hIff := isValid_iff a (more ++ after) (by rw [List.length_append]; omega)
      rw [hTake, hInvalid] at hIff
      exact Bool.false_ne_true (hIff.mpr hWell)
    · rw [List.length_append] at hShort
      omega

theorem textPrefix_displays (raw : List UInt8) :
    Utf8Display.Displays raw (textPrefix raw true).text := by
  induction hSize : raw.length using Nat.strongRecOn generalizing raw with
  | _ n ih =>
    cases raw with
    | nil =>
      rw [textPrefix_nil]
      exact .nil
    | cons first rest =>
      rw [List.length_cons] at hSize
      by_cases hReplace : isValid first rest = false ∨ rest.length + 1 < sequenceLength first
      · rw [textPrefix_replace (hReplace.imp_right fun hShort => ⟨hShort, rfl⟩)]
        exact .invalid first (no_char_of_replace hReplace) (ih _ (by omega) rest rfl)
      · obtain ⟨hInvalid, hShort⟩ := not_or.mp hReplace
        have hValid : isValid first rest = true := by simpa using hInvalid
        have hLong : sequenceLength first ≤ rest.length + 1 := Nat.not_lt.mp hShort
        have hPos := sequenceLength_pos hValid
        obtain ⟨c, hc⟩ := (Utf8Display.wellFormed_iff _).mp
          ((isValid_iff first rest hLong).mp hValid)
        have hDisplay := Utf8Display.Displays.char c
          (ih _ (by rw [List.length_drop]; omega) (rest.drop (sequenceLength first - 1)) rfl)
        have hAll : (first :: rest).take (sequenceLength first) ++
            rest.drop (sequenceLength first - 1) = first :: rest := by
          obtain ⟨j, hj⟩ : ∃ j, sequenceLength first = j + 1 :=
            ⟨_, (Nat.sub_add_cancel hPos).symm⟩
          rw [hj, Nat.add_sub_cancel, List.take_succ_cons, List.cons_append, List.take_append_drop]
        rw [hc, hAll] at hDisplay
        rw [textPrefix_copy true hValid hLong]
        exact hDisplay

end SimplexAgent.Tools
