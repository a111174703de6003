import SimplexAgent.Tools.TextOutput

/-!
# The display of source bytes within a budget

`DisplayWriter` of `textedit/display.hpp`: each encoded character of the source is kept, each
other byte becomes `U+FFFD`, and the first of them that does not fit into the byte budget ends
the output. The test for an encoded character is the one of the process toolset, so what it
accepts is known from there; here it is connected to the writer's own form of it, which the
probe for UTF-8 text shares.

`append_spec` says what one call does to any writer, and `append_new` what it does to a new one.
-/

namespace SimplexAgent.Textedit

open Verified

/-! ## The test for a character -/

variable {first : UInt8}

/-- The width that a first byte from `0x80` on announces, if it can be one. -/
def leadWidth (first : UInt8) : Option Nat :=
  if 0xc2 ≤ first ∧ first ≤ 0xdf then some 2
  else if 0xe0 ≤ first ∧ first ≤ 0xef then some 3
  else if 0xf0 ≤ first ∧ first ≤ 0xf4 then some 4
  else none

/-- The byte at `index` cannot follow this first byte. -/
def breaksScalar (first : UInt8) (index : Nat) (byte : UInt8) : Bool :=
  byte < 0x80 || byte > 0xbf || (index == 1 && first == 0xe0 && byte < 0xa0) ||
    (index == 1 && first == 0xed && byte > 0x9f) ||
    (index == 1 && first == 0xf0 && byte < 0x90) ||
    (index == 1 && first == 0xf4 && byte > 0x8f)

/-- The loop over the bytes after the first one, as far as there are any. -/
def continues (first : UInt8) (index : Nat) : Nat → List UInt8 → Bool
  | 0, _ => true
  | _ + 1, [] => true
  | n + 1, byte :: rest => !breaksScalar first index byte && continues first (index + 1) n rest

/-- `valid`: a character is encoded here, in full. -/
def validScalar (first : UInt8) (rest : List UInt8) : Bool :=
  first < 0x80 ||
    match leadWidth first with
    | some width => width ≤ rest.length + 1 && continues first 1 (width - 1) rest
    | none => false

/-- `width`, which is 1 unless the first byte announces more. -/
def scalarWidth (first : UInt8) : Nat := (leadWidth first).getD 1

theorem breaksScalar_eq (first : UInt8) (index : Nat) (byte : UInt8) :
    breaksScalar first index byte = !Tools.follows first index byte := by
  unfold breaksScalar Tools.follows
  rw [Bool.eq_iff_iff]
  simp only [Bool.or_eq_true, Bool.and_eq_true, Bool.not_eq_true', Bool.and_eq_false_iff,
    decide_eq_true_eq, decide_eq_false_iff_not, Bool.not_eq_false', UInt8.not_le, gt_iff_lt]
  tauto

theorem continues_eq (first : UInt8) (index n : Nat) (rest : List UInt8) :
    continues first index n rest = Tools.validFrom first index n rest := by
  induction n generalizing index rest with
  | zero => rfl
  | succ n ih =>
    cases rest with
    | nil => rfl
    | cons byte rest => rw [continues, Tools.validFrom, breaksScalar_eq, Bool.not_not, ih]

theorem sequenceLength_eq (first : UInt8) :
    Tools.sequenceLength first = if first < 0x80 then 1 else (leadWidth first).getD 0 := by
  unfold Tools.sequenceLength leadWidth
  split_ifs <;> rfl

theorem leadWidth_ascii (h : first < 0x80) : leadWidth first = none := by
  unfold leadWidth
  simp only [UInt8.lt_iff_toNat_lt, UInt8.le_iff_toNat_le, UInt8.reduceToNat] at h ⊢
  rw [if_neg (by omega), if_neg (by omega), if_neg (by omega)]

theorem leadWidth_pos {width : Nat} (h : leadWidth first = some width) : 1 < width := by
  unfold leadWidth at h
  split_ifs at h <;> (cases h; decide)

theorem validScalar_iff (first : UInt8) (rest : List UInt8) :
    validScalar first rest = true ↔ Tools.isValid first rest = true ∧
      Tools.sequenceLength first ≤ rest.length + 1 := by
  unfold validScalar Tools.isValid
  by_cases hAscii : first < 0x80
  · rw [sequenceLength_eq, if_pos hAscii]
    simp [hAscii, Tools.validFrom]
  · rw [sequenceLength_eq, if_neg hAscii]
    cases hLead : leadWidth first with
    | none => simp [hAscii]
    | some width =>
      have hPos := leadWidth_pos hLead
      have hNonzero : width ≠ 0 := by omega
      simp [hAscii, continues_eq, hNonzero, and_comm]

theorem scalarWidth_eq {rest : List UInt8} (h : validScalar first rest = true) :
    scalarWidth first = Tools.sequenceLength first := by
  rw [sequenceLength_eq, scalarWidth]
  by_cases hAscii : first < 0x80
  · rw [if_pos hAscii, leadWidth_ascii hAscii]
    rfl
  · rw [if_neg hAscii]
    cases hLead : leadWidth first with
    | none => simp [validScalar, hAscii, hLead] at h
    | some width => rfl

theorem exists_char_of_validScalar {rest : List UInt8} (h : validScalar first rest = true) : ∃ c,
      (first :: rest).take (scalarWidth first) = String.utf8EncodeChar c ∧
      (String.utf8EncodeChar c).length = scalarWidth first := by
  obtain ⟨hValid, hLong⟩ := (validScalar_iff first rest).mp h
  obtain ⟨c, hc⟩ := (Utf8Display.wellFormed_iff _).mp ((Tools.isValid_iff first rest hLong).mp hValid)
  rw [scalarWidth_eq h]
  refine ⟨c, hc.symm, ?_⟩
  rw [hc, List.length_take, List.length_cons, Nat.min_eq_left hLong]

/-- Where it fails, none begins. -/
theorem no_char_of_not_validScalar {rest : List UInt8} (h : validScalar first rest = false)
    (c : Char) : ¬String.utf8EncodeChar c <+: first :: rest := by
  apply Tools.no_char_of_replace
  by_cases hValid : Tools.isValid first rest = true
  · right
    by_contra hLong
    have hAccepted := (validScalar_iff first rest).mpr ⟨hValid, Nat.not_lt.mp hLong⟩
    rw [h] at hAccepted
    cases hAccepted
  · left
    simpa using hValid

/-! ## The writer -/

/-- `DisplayWriter`. -/
structure DisplayWriter where
  budget : Nat
  output : List UInt8 := []
  consumed : Nat := 0
  truncated : Bool := false
  replaced : Bool := false
  deriving DecidableEq

namespace DisplayWriter

/-- `append`. -/
def append (writer : DisplayWriter) (source : List UInt8) : DisplayWriter :=
  match source with
  | [] => writer
  | first :: rest =>
    if validScalar first rest = true then
      if writer.budget - writer.output.length < scalarWidth first then
        { writer with truncated := true }
      else
        append { writer with
          output := writer.output ++ (first :: rest).take (scalarWidth first)
          consumed := writer.consumed + scalarWidth first }
          (rest.drop (scalarWidth first - 1))
    else if writer.budget - writer.output.length < 3 then { writer with truncated := true }
    else
      append { writer with
        output := writer.output ++ Utf8Display.replacement
        replaced := true
        consumed := writer.consumed + 1 } rest
termination_by source.length
decreasing_by
  · rw [List.length_drop, List.length_cons]
    omega
  · exact Nat.lt_succ_self _

theorem append_nil (writer : DisplayWriter) : writer.append [] = writer := by
  rw [append.eq_def]

variable {writer : DisplayWriter}

theorem append_full {first : UInt8} {rest : List UInt8}
    (h : writer.budget - writer.output.length < if validScalar first rest = true then scalarWidth first else 3) :
    writer.append (first :: rest) = { writer with truncated := true } := by
  rw [append.eq_def]
  dsimp only
  split
  · rename_i hValid
    rw [if_pos hValid] at h
    rw [if_pos h]
  · rename_i hInvalid
    rw [if_neg hInvalid] at h
    rw [if_pos h]

theorem append_char {c : Char} (rest : List UInt8)
    (hFits : writer.output.length + (String.utf8EncodeChar c).length ≤ writer.budget) :
    writer.append (String.utf8EncodeChar c ++ rest) =
      append { writer with
        output := writer.output ++ String.utf8EncodeChar c
        consumed := writer.consumed + (String.utf8EncodeChar c).length } rest := by
  cases hBytes : String.utf8EncodeChar c with
  | nil => exact absurd hBytes (Utf8Display.encode_ne_nil c)
  | cons first more =>
    have hFirst : String.utf8EncodeChar c <+: first :: (more ++ rest) := by
      rw [hBytes]
      exact List.prefix_append (first :: more) rest
    have hValid : validScalar first (more ++ rest) = true := by
      cases hTest : validScalar first (more ++ rest) with
      | true => rfl
      | false => exact absurd hFirst (no_char_of_not_validScalar hTest c)
    obtain ⟨d, hTake, hLength⟩ := exists_char_of_validScalar hValid
    have hAccepted : String.utf8EncodeChar d <+: first :: (more ++ rest) := by
      rw [← hTake]
      exact List.take_prefix _ _
    have hSame := Utf8Display.encode_unique_front hFirst hAccepted
    have hWidth : scalarWidth first = more.length + 1 := by
      rw [← hLength, ← hSame, hBytes, List.length_cons]
    rw [hBytes] at hFits
    rw [List.length_cons] at hFits
    rw [List.cons_append, append.eq_def]
    dsimp only
    rw [if_pos hValid, if_neg (by omega), hTake, ← hSame, hBytes, hWidth, Nat.add_sub_cancel,
      List.drop_left, List.length_cons]

theorem append_invalid {first : UInt8} {rest : List UInt8} (hNone : validScalar first rest = false)
    (hFits : writer.output.length + 3 ≤ writer.budget) : writer.append (first :: rest) =
      append { writer with
        output := writer.output ++ Utf8Display.replacement
        replaced := true
        consumed := writer.consumed + 1 } rest := by
  conv_lhs => rw [append.eq_def]
  dsimp only
  rw [if_neg (by rw [hNone]; decide), if_neg (by omega)]

/-- What one call does: the display of the bytes up to some point follows the output, and
nothing more would fit if the source goes on there. -/
structure Appended (writer : DisplayWriter) (source : List UInt8) (after : DisplayWriter)
    (shown : List UInt8) (count : Nat) : Prop where
  budget : after.budget = writer.budget
  output : after.output = writer.output ++ shown
  consumed : after.consumed = writer.consumed + count
  inside : count ≤ source.length
  displays : Utf8Display.Displays (source.take count) shown
  fits : after.output.length ≤ writer.budget
  truncated : after.truncated = (writer.truncated || decide (count < source.length))
  full : count < source.length → ∃ unit, Utf8Display.Begins (source.drop count) unit ∧
    writer.budget < after.output.length + unit.length

theorem append_spec (writer : DisplayWriter) (h : writer.output.length ≤ writer.budget)
    (source : List UInt8) :
    ∃ shown count, Appended writer source (writer.append source) shown count := by
  induction hSize : source.length using Nat.strongRecOn generalizing writer source with
  | _ n ih =>
    have hStop : ∀ {unit : List UInt8}, source ≠ [] → Utf8Display.Begins source unit →
        writer.budget < writer.output.length + unit.length →
        Appended writer source { writer with truncated := true } [] 0 := by
      intro unit hMore hBegins hFull
      have hLength := List.length_pos_iff.mpr hMore
      refine ⟨rfl, by simp, rfl, Nat.zero_le _, .nil, h, ?_, ?_⟩
      · simp [hLength]
      · intro _
        exact ⟨unit, hBegins, hFull⟩
    cases source with
    | nil =>
      rw [append_nil]
      exact ⟨[], 0, rfl, by simp, rfl, Nat.le_refl 0, .nil, h, by simp, by simp⟩
    | cons first rest =>
      rw [List.length_cons] at hSize
      by_cases hValid : validScalar first rest = true
      · obtain ⟨c, hTake, hLength⟩ := exists_char_of_validScalar hValid
        have hSource : first :: rest =
            String.utf8EncodeChar c ++ (first :: rest).drop (scalarWidth first) := by
          rw [← hTake, List.take_append_drop]
        have hPos : 0 < (String.utf8EncodeChar c).length :=
          List.length_pos_iff.mpr (Utf8Display.encode_ne_nil c)
        generalize (first :: rest).drop (scalarWidth first) = tail at hSource
        by_cases hFits : writer.output.length + (String.utf8EncodeChar c).length ≤ writer.budget
        · have hLengths := congrArg List.length hSource
          rw [List.length_cons, List.length_append] at hLengths
          obtain ⟨shown, count, hTail⟩ := ih tail.length (by omega)
            { writer with
              output := writer.output ++ String.utf8EncodeChar c
              consumed := writer.consumed + (String.utf8EncodeChar c).length }
            (by rw [List.length_append]; exact hFits) tail rfl
          rw [hSource, append_char tail hFits]
          refine ⟨String.utf8EncodeChar c ++ shown, (String.utf8EncodeChar c).length + count,
            hTail.budget, ?_, ?_, ?_, ?_, hTail.fits, ?_, ?_⟩
          · rw [hTail.output, List.append_assoc]
          · rw [hTail.consumed, Nat.add_assoc]
          · rw [List.length_append]
            exact Nat.add_le_add_left hTail.inside _
          · rw [List.take_length_add_append]
            exact .char c hTail.displays
          · rw [hTail.truncated, List.length_append]
            simp
          · rw [List.length_append, List.drop_length_add_append]
            intro hMore
            exact hTail.full (by omega)
        · have hStuck : writer.budget - writer.output.length < scalarWidth first := by omega
          rw [append_full (by rw [if_pos hValid]; exact hStuck)]
          have hBegins : Utf8Display.Begins (first :: rest) (String.utf8EncodeChar c) := by
            rw [hSource]
            exact .char c tail
          exact ⟨[], 0, hStop (by simp) hBegins (by omega)⟩
      · have hInvalid : validScalar first rest = false := by simpa using hValid
        have hNone := no_char_of_not_validScalar hInvalid
        by_cases hFits : writer.output.length + 3 ≤ writer.budget
        · obtain ⟨shown, count, hTail⟩ := ih rest.length (by omega)
            { writer with
              output := writer.output ++ Utf8Display.replacement
              replaced := true
              consumed := writer.consumed + 1 }
            (by rw [List.length_append]; exact hFits) rest rfl
          rw [append_invalid hInvalid hFits]
          refine ⟨Utf8Display.replacement ++ shown, 1 + count, hTail.budget, ?_, ?_, ?_, ?_,
            hTail.fits, ?_, ?_⟩
          · rw [hTail.output, List.append_assoc]
          · rw [hTail.consumed, Nat.add_assoc]
          · rw [List.length_cons]
            have := hTail.inside
            omega
          · rw [Nat.add_comm, List.take_succ_cons]
            refine .invalid first ?_ hTail.displays
            intro c hBegins
            refine hNone c (hBegins.trans ?_)
            exact List.cons_prefix_cons.mpr ⟨rfl, List.take_prefix _ _⟩
          · rw [hTail.truncated, List.length_cons, Nat.add_comm 1]
            simp
          · rw [List.length_cons, Nat.add_comm 1, List.drop_succ_cons]
            intro hMore
            exact hTail.full (by omega)
        · have hStuck : writer.budget - writer.output.length < 3 := by omega
          rw [append_full (by rw [if_neg hValid]; exact hStuck)]
          exact ⟨[], 0, hStop (by simp) (.invalid first hNone) (by
            show _ < _ + 3
            omega)⟩

theorem append_encode (text : List Char) (writer : DisplayWriter)
    (h : writer.output.length + (Utf8.encode text).length ≤ writer.budget) :
    writer.append (Utf8.encode text) = { writer with
      output := writer.output ++ Utf8.encode text
      consumed := writer.consumed + (Utf8.encode text).length } := by
  induction text generalizing writer with
  | nil => rw [Utf8.encode_nil, append_nil, List.append_nil]; rfl
  | cons c text ih =>
    rw [Utf8.encode_cons, List.length_append] at h
    rw [Utf8.encode_cons, append_char _ (by omega), ih _ (by
      show (writer.output ++ String.utf8EncodeChar c).length + _ ≤ writer.budget
      rw [List.length_append]
      omega)]
    rw [List.append_assoc, List.length_append, Nat.add_assoc]

/-- One call on a new writer: valid text within the budget, the display of exactly the bytes
that were consumed, with nothing left out that would have fitted; and text that fits is
displayed as it is. -/
theorem append_new (budget : Nat) (source : List UInt8) :
    (∃ text, (append { budget } source).output = Utf8.encode text) ∧
    (append { budget } source).output.length ≤ budget ∧
    (append { budget } source).consumed ≤ source.length ∧
    Utf8Display.Displays (source.take (append { budget } source).consumed)
      (append { budget } source).output ∧
    ((append { budget } source).truncated = true ↔
      (append { budget } source).consumed < source.length) ∧
    ((append { budget } source).truncated = true → ∃ unit,
      Utf8Display.Begins (source.drop (append { budget } source).consumed) unit ∧
        budget < (append { budget } source).output.length + unit.length) ∧
    ∀ text, source = Utf8.encode text → source.length ≤ budget →
      append { budget } source = { budget, output := source, consumed := source.length } := by
  obtain ⟨shown, count, h⟩ := append_spec { budget } (Nat.zero_le budget) source
  have hShown : (append { budget } source).output = shown := by rw [h.output]; rfl
  have hCount : (append { budget } source).consumed = count := by rw [h.consumed]; simp
  have hTruncated : (append { budget } source).truncated = true ↔ count < source.length := by
    rw [h.truncated]
    simp
  rw [hCount, hTruncated]
  refine ⟨?_, h.fits, h.inside, ?_, Iff.rfl, h.full, ?_⟩
  · obtain ⟨text, hText⟩ := Utf8Display.displays_text h.displays
    exact ⟨text, hShown.trans hText⟩
  · rw [hShown]
    exact h.displays
  · intro text hText hFits
    rw [hText] at hFits ⊢
    rw [append_encode text { budget } (by simpa using hFits)]
    simp

end DisplayWriter

end SimplexAgent.Textedit
