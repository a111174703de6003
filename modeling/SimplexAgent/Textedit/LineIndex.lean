import SimplexAgent.Verified.Cuts

/-!
# Lines of a text

`textedit/line_break.hpp`, `textedit/line_index.cpp` and `position_of` of `textedit/edit.cpp`:
the scanners that recognise line terminators, the index that keeps where lines start, and the
search for the position of a byte that reads the text again.

The starts cut the offsets of the text into lines, so what the index answers is known from the
general facts about such cuts; `positionOfFrom_spec` says what the other scanner has counted
when it stops, in the same terms. `probeBreak_eq` connects the probe at a place of a window to
the width of the terminator there.
-/

namespace SimplexAgent.Textedit

open Verified.Cuts

/-! ## Terminators -/

/-- `line_break_width`: the width of the terminator at the front, or zero. -/
def lineBreakWidth : List UInt8 → Nat
  | [] => 0
  | first :: rest =>
    if first = 0x0d then if rest.head? = some 0x0a then 2 else 1
    else if first = 0x0a ∨ first = 0x0b ∨ first = 0x0c then 1
    else if [0xc2, 0x85].isPrefixOf (first :: rest) then 2
    else if [0xe2, 0x80, 0xa8].isPrefixOf (first :: rest) ∨
      [0xe2, 0x80, 0xa9].isPrefixOf (first :: rest) then 3
    else 0

theorem lineBreakWidth_le (text : List UInt8) : lineBreakWidth text ≤ text.length := by
  unfold lineBreakWidth
  split
  · exact Nat.le_refl 0
  · rename_i first rest
    rw [List.length_cons]
    split_ifs with hReturn hFeed hSimple hNext hSeparator
    · cases rest with
      | nil => simp at hFeed
      | cons second rest => simp
    · omega
    · omega
    · have := (List.isPrefixOf_iff_prefix.mp hNext).length_le
      simpa using this
    · rcases hSeparator with hLine | hParagraph
      · have := (List.isPrefixOf_iff_prefix.mp hLine).length_le
        simpa using this
      · have := (List.isPrefixOf_iff_prefix.mp hParagraph).length_le
        simpa using this
    · omega

/-- `BreakProbe`. -/
structure BreakProbe where
  width : Nat := 0
  incomplete : Bool := false
  deriving DecidableEq

/-- `probe_break` at a place of a window, given the bytes from there on. -/
def probeBreak : List UInt8 → BreakProbe
  | [] => {}
  | first :: rest =>
    if first = 0x0d then
      match rest with
      | [] => { incomplete := true }
      | second :: _ => { width := if second = 0x0a then 2 else 1 }
    else if first = 0x0a ∨ first = 0x0b ∨ first = 0x0c then { width := 1 }
    else if first = 0xc2 then
      match rest with
      | [] => { incomplete := true }
      | second :: _ => { width := if second = 0x85 then 2 else 0 }
    else if first = 0xe2 then
      match rest with
      | [] => { incomplete := true }
      | second :: rest =>
        if second ≠ 0x80 then {}
        else
          match rest with
          | [] => { incomplete := true }
          | third :: _ => { width := if third = 0xa8 ∨ third = 0xa9 then 3 else 0 }
    else {}

theorem probeBreak_eq {window : List UInt8} (h : (probeBreak window).incomplete = false)
    (after : List UInt8) (hMore : window ≠ []) :
    lineBreakWidth (window ++ after) = (probeBreak window).width := by
  obtain ⟨first, rest, rfl⟩ := List.exists_cons_of_ne_nil hMore
  rw [List.cons_append]
  unfold probeBreak at h ⊢
  unfold lineBreakWidth
  dsimp only at h ⊢
  by_cases hReturn : first = 0x0d
  · rw [if_pos hReturn] at h ⊢
    rw [if_pos hReturn]
    cases rest with
    | nil => cases h
    | cons second rest => simp
  rw [if_neg hReturn] at h ⊢
  rw [if_neg hReturn]
  by_cases hSimple : first = 0x0a ∨ first = 0x0b ∨ first = 0x0c
  · rw [if_pos hSimple, if_pos hSimple]
  rw [if_neg hSimple] at h ⊢
  rw [if_neg hSimple]
  by_cases hNext : first = 0xc2
  · rw [if_pos hNext] at h ⊢
    cases rest with
    | nil => cases h
    | cons second rest => simp [hNext, List.isPrefixOf, eq_comm (b := second)]
  rw [if_neg hNext] at h ⊢
  have hNotNext : ¬[0xc2, 0x85].isPrefixOf (first :: (rest ++ after)) = true := by
    simp [List.isPrefixOf, Ne.symm hNext]
  rw [if_neg hNotNext]
  by_cases hSeparator : first = 0xe2
  · rw [if_pos hSeparator] at h ⊢
    cases rest with
    | nil => cases h
    | cons second rest =>
      dsimp only at h ⊢
      by_cases hSecond : second = 0x80
      · rw [if_neg (not_not_intro hSecond)] at h ⊢
        cases rest with
        | nil => cases h
        | cons third rest => simp [hSeparator, hSecond, List.isPrefixOf, eq_comm (b := third)]
      · rw [if_pos hSecond]
        simp [List.isPrefixOf, Ne.symm hSecond]
  · rw [if_neg hSeparator]
    simp [List.isPrefixOf, Ne.symm hSeparator]

/-- **The probe answers as soon as the window decides**: exactly then no bytes behind the window
change the width of the terminator, and its answer is that width. -/
theorem probeBreak_waits (first : UInt8) (rest : List UInt8) :
    ((probeBreak (first :: rest)).incomplete = false ↔
      ∃ width, ∀ after, lineBreakWidth (first :: rest ++ after) = width) ∧
    ∀ width, (∀ after, lineBreakWidth (first :: rest ++ after) = width) →
      probeBreak (first :: rest) = ⟨width, false⟩ := by
  have hDecided : ∀ width, (∀ after, lineBreakWidth (first :: rest ++ after) = width) →
      (probeBreak (first :: rest)).incomplete = false := by
    intro width h
    -- Where it waits, the window alone and one continuation differ.
    have hSame : ∀ after, lineBreakWidth (first :: rest ++ []) =
        lineBreakWidth (first :: rest ++ after) := fun after => (h []).trans (h after).symm
    unfold probeBreak
    by_cases hReturn : first = 0x0d
    · subst hReturn
      cases rest with
      | nil => exact absurd (hSame [0x0a]) (by decide)
      | cons second rest => rfl
    by_cases hNext : first = 0xc2
    · subst hNext
      cases rest with
      | nil => exact absurd (hSame [0x85]) (by decide)
      | cons second rest => rfl
    by_cases hSeparator : first = 0xe2
    · subst hSeparator
      match rest with
      | [] => exact absurd (hSame [0x80, 0xa8]) (by decide)
      | [second] =>
        by_cases hSecond : second = 0x80
        · subst hSecond
          exact absurd (hSame [0xa8]) (by decide)
        · simp [hSecond]
      | second :: third :: rest => simp; split <;> rfl
    dsimp only
    rw [if_neg hReturn, if_neg hNext, if_neg hSeparator]
    split <;> rfl
  have hAnswer : (probeBreak (first :: rest)).incomplete = false →
      ∀ after, lineBreakWidth (first :: rest ++ after) = (probeBreak (first :: rest)).width :=
    fun h after => probeBreak_eq h after (List.cons_ne_nil _ _)
  refine ⟨⟨fun h => ⟨_, hAnswer h⟩, fun ⟨width, h⟩ => hDecided width h⟩, fun width h => ?_⟩
  have hDone := hDecided width h
  have hWidth := (hAnswer hDone []).symm.trans (h [])
  cases hProbe : probeBreak (first :: rest) with
  | mk answer incomplete =>
    rw [hProbe] at hDone hWidth
    subst hDone hWidth
    rfl

/-- The loop of `count_lines`, with the lines so far. -/
def countLinesFrom (lines : Nat) (text : List UInt8) : Nat :=
  match text with
  | [] => lines
  | first :: rest =>
    if lineBreakWidth (first :: rest) = 0 then countLinesFrom lines rest
    else countLinesFrom (lines + 1) (rest.drop (lineBreakWidth (first :: rest) - 1))
termination_by text.length
decreasing_by
  · exact Nat.lt_succ_self _
  · rw [List.length_drop, List.length_cons]
    omega

/-- `count_lines`. -/
def countLines (text : List UInt8) : Nat := countLinesFrom 1 text

/-! ## The index -/

structure TextPosition where
  line : Nat
  column : Nat
  deriving DecidableEq

/-- `LineIndex`. -/
structure LineIndex where
  byteCount : Nat
  lineStarts : List Nat

def lineStartsFrom (offset : Nat) (text : List UInt8) : List Nat :=
  match text with
  | [] => []
  | first :: rest =>
    if lineBreakWidth (first :: rest) = 0 then lineStartsFrom (offset + 1) rest
    else (offset + lineBreakWidth (first :: rest)) ::
      lineStartsFrom (offset + lineBreakWidth (first :: rest))
        (rest.drop (lineBreakWidth (first :: rest) - 1))
termination_by text.length
decreasing_by
  · exact Nat.lt_succ_self _
  · rw [List.length_drop, List.length_cons]
    omega

namespace LineIndex

/-- The constructor. -/
def ofText (text : List UInt8) : LineIndex where
  byteCount := text.length
  lineStarts := 0 :: lineStartsFrom 0 text

/-- `line_count`. -/
def lineCount (index : LineIndex) : Nat := index.lineStarts.length

/-- `line_start`; `none` is the exception of `at`, as in what follows. -/
def lineStart (index : LineIndex) (line : Nat) : Option Nat := index.lineStarts[line]?

/-- `line_byte_count`. -/
def lineByteCount (index : LineIndex) (line : Nat) : Option Nat :=
  match index.lineStart line with
  | none => none
  | some start =>
    if line = index.lineStarts.length - 1 then some (index.byteCount - start)
    else some (index.lineStarts.getD (line + 1) 0 - start)

/-- `position_at`. -/
def positionAt (index : LineIndex) (offset : Nat) : Option TextPosition :=
  if index.byteCount < offset ∨ index.lineStarts = [] then none
  else
    let line := upperBound index.lineStarts offset - 1
    some { line := line, column := offset - index.lineStarts.getD line 0 }

/-- `offset_at`. -/
def offsetAt (index : LineIndex) (position : TextPosition) : Option Nat :=
  match index.lineByteCount position.line with
  | none => none
  | some count =>
    if count < position.column ∨
        (position.column = count ∧ position.line ≠ index.lineStarts.length - 1) then none
    else some (index.lineStarts.getD position.line 0 + position.column)

end LineIndex

/-! ## The position of a byte in the text -/

/-- The loop of `position_of` on the text that is left. -/
def positionOfFrom (text : List UInt8) (offset line start byte : Nat) : TextPosition :=
  match text with
  | [] => { line := line, column := byte - start }
  | first :: rest =>
    if offset < byte then
      let width := lineBreakWidth (first :: rest)
      if width = 0 then positionOfFrom rest (offset + 1) line start byte
      else if offset + width ≤ byte then
        positionOfFrom (rest.drop (width - 1)) (offset + width) (line + 1) (offset + width) byte
      else { line := line, column := byte - start }
    else { line := line, column := byte - start }
termination_by text.length
decreasing_by
  · exact Nat.lt_succ_self _
  · rw [List.length_drop, List.length_cons]
    omega

/-- `position_of`. -/
def positionOf (text : List UInt8) (byte : Nat) : TextPosition := positionOfFrom text 0 0 0 byte

/-! ## The starts cut the text -/

theorem lineStartsFrom_spec (offset : Nat) (text : List UInt8) :
    (lineStartsFrom offset text).Pairwise (· < ·) ∧
      ∀ start ∈ lineStartsFrom offset text, offset < start ∧ start ≤ offset + text.length := by
  induction hSize : text.length using Nat.strongRecOn generalizing offset text with
  | _ n ih =>
    cases text with
    | nil => simp [lineStartsFrom]
    | cons first rest =>
      rw [List.length_cons] at hSize
      have hWidth := lineBreakWidth_le (first :: rest)
      rw [List.length_cons] at hWidth
      rw [lineStartsFrom]
      generalize lineBreakWidth (first :: rest) = width at hWidth
      split
      · obtain ⟨hOrder, hInside⟩ := ih _ (by omega) (offset + 1) rest rfl
        refine ⟨hOrder, ?_⟩
        intro start hMem
        have := hInside start hMem
        omega
      · obtain ⟨hOrder, hInside⟩ := ih _ (by rw [List.length_drop]; omega) (offset + width)
          (rest.drop (width - 1)) rfl
        rw [List.length_drop] at hInside
        refine ⟨List.pairwise_cons.mpr ⟨fun start hMem => (hInside start hMem).1, hOrder⟩, ?_⟩
        intro start hMem
        rcases List.mem_cons.mp hMem with rfl | hLater
        · omega
        · have := hInside start hLater
          omega

theorem cutting_ofText (text : List UInt8) :
    Cutting (LineIndex.ofText text).lineStarts text.length := by
  obtain ⟨hOrder, hInside⟩ := lineStartsFrom_spec 0 text
  refine ⟨?_, rfl, ?_⟩
  · exact List.pairwise_cons.mpr ⟨fun start hMem => (hInside start hMem).1, hOrder⟩
  · intro start hMem
    rcases List.mem_cons.mp hMem with rfl | hLater
    · exact Nat.zero_le _
    · have := hInside start hLater
      omega

theorem countLinesFrom_eq (lines offset : Nat) (text : List UInt8) :
    countLinesFrom lines text = lines + (lineStartsFrom offset text).length := by
  induction hSize : text.length using Nat.strongRecOn generalizing lines offset text with
  | _ n ih =>
    cases text with
    | nil => simp [countLinesFrom, lineStartsFrom]
    | cons first rest =>
      rw [List.length_cons] at hSize
      rw [countLinesFrom, lineStartsFrom]
      generalize lineBreakWidth (first :: rest) = width
      split
      · exact ih _ (by omega) lines (offset + 1) rest rfl
      · rw [ih _ (by rw [List.length_drop]; omega) (lines + 1) (offset + width)
          (rest.drop (width - 1)) rfl, List.length_cons]
        omega

theorem positionOfFrom_spec (text : List UInt8) (offset line start byte : Nat)
    (hAfter : offset ≤ byte) (hInside : byte ≤ offset + text.length) :
    positionOfFrom text offset line start byte =
      { line := line + upperBound (lineStartsFrom offset text) byte
        column := byte - (start :: lineStartsFrom offset text).getD
          (upperBound (lineStartsFrom offset text) byte) 0 } := by
  induction hSize : text.length using Nat.strongRecOn generalizing offset line start text with
  | _ n ih =>
    have hStop : (∀ later ∈ lineStartsFrom offset text, byte < later) →
        upperBound (lineStartsFrom offset text) byte = 0 := by
      intro hLater
      cases hStarts : lineStartsFrom offset text with
      | nil => rfl
      | cons later rest =>
        exact upperBound_cons_of_lt rest (hLater later (by rw [hStarts]; exact List.mem_cons_self))
    cases text with
    | nil => simp [positionOfFrom, lineStartsFrom, upperBound_nil]
    | cons first rest =>
      rw [List.length_cons] at hSize hInside
      have hSpec := lineStartsFrom_spec offset (first :: rest)
      have hWidth := lineBreakWidth_le (first :: rest)
      rw [List.length_cons] at hWidth
      rw [positionOfFrom]
      dsimp only
      by_cases hBefore : offset < byte
      · rw [if_pos hBefore]
        by_cases hNone : lineBreakWidth (first :: rest) = 0
        · rw [if_pos hNone, lineStartsFrom, if_pos hNone]
          exact ih _ (by omega) rest (offset + 1) line start (by omega) (by omega) rfl
        · rw [if_neg hNone]
          by_cases hFits : offset + lineBreakWidth (first :: rest) ≤ byte
          · rw [if_pos hFits, lineStartsFrom, if_neg hNone, upperBound_cons_of_le _ hFits,
              ih _ (by rw [List.length_drop]; omega) _ _ _ _ hFits
                (by rw [List.length_drop]; omega) rfl, List.getD_cons_succ]
            simp only [TextPosition.mk.injEq, and_true]
            omega
          · rw [if_neg hFits, lineStartsFrom, if_neg hNone,
              upperBound_cons_of_lt _ (Nat.not_le.mp hFits)]
            rfl
      · rw [if_neg hBefore, hStop]
        · rfl
        · intro later hMem
          have := hSpec.2 later hMem
          omega

/-! ## Positions and offsets -/

namespace LineIndex

theorem lineByteCount_eq (text : List UInt8) {line start : Nat}
    (hStart : (ofText text).lineStarts[line]? = some start) : (ofText text).lineByteCount line =
      some (Cutting.pieceEnd (ofText text).lineStarts text.length line - start) := by
  have hLine := (List.getElem?_eq_some_iff.mp hStart).1
  unfold lineByteCount lineStart Cutting.pieceEnd
  rw [hStart]
  dsimp only
  by_cases hLast : line = (ofText text).lineStarts.length - 1
  · have hNext : (ofText text).lineStarts[line + 1]? = none := by
      rw [List.getElem?_eq_none_iff]
      omega
    rw [if_pos hLast, hNext]
    rfl
  · have hNext : line + 1 < (ofText text).lineStarts.length := by omega
    rw [if_neg hLast, List.getD_eq_getElem?_getD, List.getElem?_eq_getElem hNext]
    rfl

theorem positionAt_eq (text : List UInt8) {offset : Nat} (h : offset ≤ text.length) :
    (ofText text).positionAt offset = some
      { line := upperBound (ofText text).lineStarts offset - 1
        column := offset - (ofText text).lineStarts.getD
          (upperBound (ofText text).lineStarts offset - 1) 0 } := by
  unfold positionAt
  rw [if_neg]
  rintro (hAfter | hEmpty)
  · exact absurd h (Nat.not_le.mpr hAfter)
  · cases hEmpty

theorem offsetAt_of_positionAt (text : List UInt8) {offset : Nat} (h : offset ≤ text.length) :
    ∃ position, (ofText text).positionAt offset = some position ∧
      (ofText text).offsetAt position = some offset := by
  have hCuts := cutting_ofText text
  obtain ⟨start, hStart, hLe⟩ := hCuts.start_le offset
  have hPos := hCuts.upperBound_pos offset
  refine ⟨_, positionAt_eq text h, ?_⟩
  unfold offsetAt
  dsimp only
  rw [lineByteCount_eq text hStart, List.getD_eq_getElem?_getD, hStart, Option.getD_some]
  dsimp only
  rw [if_neg]
  · rw [Nat.add_sub_cancel' hLe]
  have hLine := (List.getElem?_eq_some_iff.mp hStart).1
  unfold Cutting.pieceEnd
  rw [Nat.sub_add_cancel hPos]
  cases hNext : (ofText text).lineStarts[upperBound (ofText text).lineStarts offset]? with
  | none =>
    rw [List.getElem?_eq_none_iff] at hNext
    rw [Option.getD_none]
    omega
  | some next =>
    have hAfter := hCuts.lt_next hNext
    rw [Option.getD_some]
    omega

theorem positionAt_of_offsetAt (text : List UInt8) {position : TextPosition} {offset : Nat}
    (h : (ofText text).offsetAt position = some offset) :
    offset ≤ text.length ∧ (ofText text).positionAt offset = some position := by
  have hCuts := cutting_ofText text
  unfold offsetAt at h
  cases hStart : (ofText text).lineStarts[position.line]? with
  | none =>
    unfold lineByteCount lineStart at h
    rw [hStart] at h
    cases h
  | some start =>
    have hLe := hCuts.start_le_pieceEnd hStart
    rw [lineByteCount_eq text hStart] at h
    dsimp only at h
    split at h
    · cases h
    rename_i hColumn
    rw [List.getD_eq_getElem?_getD, hStart, Option.getD_some, Option.some.injEq] at h
    have hLine := (List.getElem?_eq_some_iff.mp hStart).1
    have hEnd : Cutting.pieceEnd (ofText text).lineStarts text.length position.line ≤
        text.length := by
      unfold Cutting.pieceEnd
      cases hNext : (ofText text).lineStarts[position.line + 1]? with
      | none => exact Nat.le_refl _
      | some next => exact hCuts.inside next (List.mem_of_getElem? hNext)
    have hOffset : offset ≤ text.length := by omega
    have hBound : upperBound (ofText text).lineStarts offset = position.line + 1 := by
      apply hCuts.upperBound_eq hStart (by omega)
      intro next hNext
      have hNotLast := (List.getElem?_eq_some_iff.mp hNext).1
      unfold Cutting.pieceEnd at hColumn
      rw [hNext, Option.getD_some] at hColumn
      omega
    refine ⟨hOffset, ?_⟩
    rw [positionAt_eq text hOffset, hBound, Nat.add_sub_cancel, List.getD_eq_getElem?_getD, hStart,
      Option.getD_some, ← h, Nat.add_sub_cancel_left]

theorem positionAt_eq_positionOf (text : List UInt8) {offset : Nat} (h : offset ≤ text.length) :
    (ofText text).positionAt offset = some (positionOf text offset) := by
  have hStarts : (ofText text).lineStarts = 0 :: lineStartsFrom 0 text := rfl
  rw [positionAt_eq text h, positionOf, positionOfFrom_spec text 0 0 0 offset (Nat.zero_le _)
    (by omega), hStarts, upperBound_cons_of_le _ (Nat.zero_le offset), Nat.add_sub_cancel,
    Nat.zero_add]

/-- Positions and offsets correspond one to one, the lines make up the text, and the other
scanners of the module agree with the index. -/
theorem ofText_exact (text : List UInt8) : (∀ offset, offset ≤ text.length → ∃ position,
      (ofText text).positionAt offset = some position ∧
        (ofText text).offsetAt position = some offset) ∧
    (∀ position offset, (ofText text).offsetAt position = some offset →
      offset ≤ text.length ∧ (ofText text).positionAt offset = some position) ∧
    (∀ offset, text.length < offset → (ofText text).positionAt offset = none) ∧
    (∀ line, ((ofText text).lineByteCount line).isSome = true ↔ line < (ofText text).lineCount) ∧
    ((List.range (ofText text).lineCount).map fun line =>
      ((ofText text).lineByteCount line).getD 0).sum = text.length ∧
    (ofText text).lineStarts.Pairwise (· < ·) ∧ (∀ offset, offset ≤ text.length →
      (ofText text).positionAt offset = some (positionOf text offset)) ∧
    (ofText text).lineCount = countLines text := by
  have hCuts := cutting_ofText text
  refine ⟨fun offset => offsetAt_of_positionAt text, fun position offset =>
    positionAt_of_offsetAt text, ?_, ?_, ?_, hCuts.increasing, fun offset =>
    positionAt_eq_positionOf text, ?_⟩
  · intro offset hAfter
    unfold positionAt
    exact if_pos (Or.inl hAfter)
  · intro line
    unfold lineCount
    cases hStart : (ofText text).lineStarts[line]? with
    | none =>
      rw [List.getElem?_eq_none_iff] at hStart
      unfold lineByteCount lineStart
      rw [List.getElem?_eq_none_iff.mpr hStart]
      simpa using hStart
    | some start =>
      rw [lineByteCount_eq text hStart]
      simpa using (List.getElem?_eq_some_iff.mp hStart).1
  · have hSum := hCuts.sum_lengths (ofText text).lineCount (Nat.le_refl _)
    have hAll : (ofText text).lineStarts.getD (ofText text).lineCount text.length =
        text.length := by
      unfold lineCount
      rw [List.getD_eq_getElem?_getD, List.getElem?_eq_none_iff.mpr (Nat.le_refl _)]
      rfl
    rw [hAll] at hSum
    rw [← hSum]
    apply congrArg
    apply List.map_congr_left
    intro line hLine
    have hStart := List.getElem?_eq_getElem (List.mem_range.mp hLine)
    rw [lineByteCount_eq text hStart, List.getD_eq_getElem?_getD, hStart]
    rfl
  · rw [countLines, countLinesFrom_eq 1 0 text]
    exact Nat.add_comm _ _

end LineIndex

end SimplexAgent.Textedit
