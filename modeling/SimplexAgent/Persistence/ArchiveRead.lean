import SimplexAgent.Persistence.ArchiveIndex

/-!
# Reading archived text by pages

`SqliteArchiveReader::read` of `sqlite_archive_query.cpp`, from the row of a source on. Each page
sees at most three bytes before its offset and four after its budget. Whether a position is inside
a valid character depends on no more than that (`boundaryBefore_window`), so a page ends where the
next one may begin.
-/

namespace SimplexAgent.Persistence.ArchiveRead

open ArchiveIndex

/-- `boundary_before`. -/
def boundaryBefore (text : List UInt8) (cut : Nat) : Nat :=
  ((List.range' (cut - 3) (cut - (cut - 3))).find? fun i =>
    decide (cut < i + scalarSize (text.drop i))).getD cut

/-- The body of a source, of a size that the store can hold. -/
structure ArchivedBody where
  bytes : List UInt8
  size : bytes.length < 2 ^ 31

/-- A short text and a byte that is none. -/
def noteBody : ArchivedBody := ⟨Verified.Utf8.encode "see note é".toList ++ [0xff], by decide +kernel⟩

/-- The bytes that one page may have. -/
abbrev Budget := { bytes : Nat // 4 ≤ bytes ∧ bytes ≤ 65536 }

inductive ArchiveQueryError where
  | invalid (message : String)
  deriving DecidableEq

def insideScalar : ArchiveQueryError := .invalid "archive read offset is inside a UTF-8 scalar"

structure ArchiveExcerpt where
  text : List UInt8
  startByte : Nat
  endByte : Nat
  totalBytes : Nat
  hasMore : Bool

/-- `read`. -/
def read (body : ArchivedBody) (offset bytes : Nat) : Except ArchiveQueryError ArchiveExcerpt :=
  if bytes < 4 ∨ 65536 < bytes ∨ 2 ^ 63 - 2 < offset then
    .error (.invalid "archive read requires 4..65536 bytes and an addressable offset")
  else
    let front := min offset 3
    let fetched := (body.bytes.drop (offset - front)).take (front + bytes + 4)
    if body.bytes.length < offset then .error (.invalid "archive read offset exceeds source size")
    else if boundaryBefore fetched front ≠ front then .error insideScalar
    else
      let stop := boundaryBefore fetched (min fetched.length (front + bytes))
      let text := (fetched.drop front).take (stop - front)
      .ok ⟨text, offset, offset + text.length, body.bytes.length,
        offset + text.length < body.bytes.length⟩

/-- Reading from an offset and following `end_byte`, as long as there is more. -/
def follow (body : ArchivedBody) : Nat → List Budget → Except ArchiveQueryError (List ArchiveExcerpt)
  | _, [] => .ok []
  | offset, budget :: rest => do
    let page ← read body offset budget.val
    if page.hasMore then return page :: (← follow body page.endByte rest)
    else return [page]

/-! ## Positions inside characters -/

/-- A position strictly inside a valid character. -/
def Inside (text : List UInt8) (k : Nat) : Prop :=
  ∃ start, start < k ∧ k < start + scalarSize (text.drop start)

theorem scalarSize_le (bytes : List UInt8) : scalarSize bytes ≤ 4 := by
  by_cases h : scalarSize bytes = 0
  · omega
  · obtain ⟨-, -, more, -, -, -, hSize, -, -, hShort⟩ := scalar_bytes h
    omega

theorem scalarSize_take {bytes : List UInt8} {n : Nat} (h : scalarSize bytes ≤ n) :
    scalarSize (bytes.take n) = scalarSize bytes := by
  by_cases hNone : scalarSize bytes = 0
  · rw [hNone]
    by_contra hSome
    obtain ⟨c, first, more, rest, hBytes, hChar, -⟩ := scalar_bytes hSome
    rw [← List.take_append_drop n bytes, hBytes, ← List.cons_append, ← hChar, List.append_assoc,
      scalarSize_encode, hChar] at hNone
    cases hNone
  · obtain ⟨c, first, more, rest, hBytes, hChar, hSize, -⟩ := scalar_bytes hNone
    have hLength : (String.utf8EncodeChar c).length ≤ n := by
      rw [hChar, List.length_cons]
      omega
    rw [hBytes, ← List.cons_append, ← hChar, List.take_append, List.take_of_length_le hLength,
      scalarSize_encode, scalarSize_encode]

theorem not_inside_start {text : List UInt8} {k : Nat} (h : scalarSize (text.drop k) ≠ 0) :
    ¬Inside text k := by
  rintro ⟨start, hBefore, hAfter⟩
  obtain ⟨-, first, more, rest, hBytes, -, -, hFirst, -⟩ := scalar_bytes h
  obtain ⟨-, head, tail, rest', hWhole, -, hSize, -, hTail, -⟩ :=
    scalar_bytes (show scalarSize (text.drop start) ≠ 0 by omega)
  have hByte : (text.drop start)[k - start]? = some first := by
    rw [List.getElem?_drop, Nat.add_sub_cancel' (Nat.le_of_lt hBefore),
      show k = k + 0 from rfl, ← List.getElem?_drop, hBytes]
    rfl
  obtain ⟨i, hi⟩ : ∃ i, k - start = i + 1 := ⟨k - start - 1, by omega⟩
  rw [hWhole, hi, List.getElem?_cons_succ, List.getElem?_append_left (by omega)] at hByte
  rw [hTail first (List.mem_of_getElem? hByte)] at hFirst
  cases hFirst

theorem inside_le {text : List UInt8} {k : Nat} (h : Inside text k) : k < text.length := by
  obtain ⟨start, hBefore, hAfter⟩ := h
  have hLength := scalarSize_le_length (text.drop start)
  rw [List.length_drop] at hLength
  omega

theorem boundaryBefore_spec (text : List UInt8) (cut : Nat) :
    (∃ i, i < cut ∧ cut < i + scalarSize (text.drop i) ∧ boundaryBefore text cut = i) ∨
      ¬Inside text cut ∧ boundaryBefore text cut = cut := by
  rw [boundaryBefore]
  cases hFound : (List.range' (cut - 3) (cut - (cut - 3))).find? fun i =>
      decide (cut < i + scalarSize (text.drop i)) with
  | some i =>
    have hMem := List.mem_range'_1.mp (List.mem_of_find?_eq_some hFound)
    exact .inl ⟨i, by omega, of_decide_eq_true (List.find?_some hFound :), rfl⟩
  | none =>
    refine .inr ⟨?_, rfl⟩
    rintro ⟨start, hBefore, hAfter⟩
    have hSize := scalarSize_le (text.drop start)
    have hNot := List.find?_eq_none.mp hFound start (List.mem_range'_1.mpr (by omega))
    exact hNot (decide_eq_true hAfter)

theorem boundaryBefore_window {text : List UInt8} {start size cut : Nat}
    (hAfter : cut + 3 ≤ size ∨ text.length ≤ start + size) (hBefore : start = 0 ∨ 3 ≤ cut) :
    (∃ i, i < start + cut ∧ start + cut < i + scalarSize (text.drop i) ∧
        start + boundaryBefore ((text.drop start).take size) cut = i) ∨
      ¬Inside text (start + cut) ∧ boundaryBefore ((text.drop start).take size) cut = cut := by
  have hSame : ∀ i, i < cut → scalarSize (((text.drop start).take size).drop i) =
      scalarSize (text.drop (start + i)) := by
    intro i hi
    rw [List.drop_take, List.drop_drop]
    apply scalarSize_take
    rcases hAfter with hRoom | hEnd
    · have hSize := scalarSize_le (text.drop (start + i))
      omega
    · by_cases hNone : scalarSize (text.drop (start + i)) = 0
      · omega
      · have hLength := scalarSize_le_length (text.drop (start + i))
        rw [List.length_drop] at hLength
        omega
  rcases boundaryBefore_spec ((text.drop start).take size) cut with
    ⟨i, hLess, hInside, hResult⟩ | ⟨hNot, hResult⟩
  · rw [hSame i hLess] at hInside
    exact .inl ⟨start + i, by omega, by omega, by rw [hResult]⟩
  · refine .inr ⟨?_, hResult⟩
    rintro ⟨i, hLess, hInside⟩
    have hSize := scalarSize_le (text.drop i)
    obtain ⟨j, rfl⟩ : ∃ j, i = start + j := ⟨i - start, by omega⟩
    exact hNot ⟨j, by omega, by rw [hSame j (by omega)]; omega⟩

/-! ## Pages -/

structure PageOf (body : ArchivedBody) (offset : Nat) (page : ArchiveExcerpt) : Prop where
  startByte : page.startByte = offset
  text : page.text = (body.bytes.drop offset).take (page.endByte - offset)
  forward : offset ≤ page.endByte ∧ page.endByte ≤ body.bytes.length
  boundary : ¬Inside body.bytes page.endByte
  hasMore : page.hasMore = true ↔ page.endByte < body.bytes.length
  advances : page.hasMore = true → offset < page.endByte

variable {body : ArchivedBody} {offset : Nat}

theorem front_window (budget : Budget) :
    (∃ i, i < offset ∧ offset < i + scalarSize (body.bytes.drop i) ∧
        offset - min offset 3 + boundaryBefore ((body.bytes.drop (offset - min offset 3)).take
          (min offset 3 + budget.val + 4)) (min offset 3) = i) ∨
      ¬Inside body.bytes offset ∧ boundaryBefore ((body.bytes.drop (offset - min offset 3)).take
        (min offset 3 + budget.val + 4)) (min offset 3) = min offset 3 := by
  have hWindow := @boundaryBefore_window body.bytes (offset - min offset 3)
    (min offset 3 + budget.val + 4) (min offset 3) (.inl (by omega)) (by omega)
  rwa [Nat.sub_add_cancel (Nat.min_le_left _ _)] at hWindow

theorem read_inside (body : ArchivedBody) (offset : Nat) (budget : Budget) :
    read body offset budget.val = .error insideScalar ↔ Inside body.bytes offset := by
  have hSize := body.size
  have hBudget := budget.property
  rw [read]
  by_cases hFar : body.bytes.length < offset
  · have hOutside : ¬Inside body.bytes offset := fun h => by
      have hLess := inside_le h
      omega
    refine iff_of_false ?_ hOutside
    split_ifs
    · simp [insideScalar]
    · simp [insideScalar]
  · rw [if_neg (by omega)]
    dsimp only
    rw [if_neg hFar]
    rcases @front_window body offset budget with
      ⟨i, hLess, hInside, hResult⟩ | ⟨hNot, hResult⟩
    · rw [if_pos (by omega)]
      exact iff_of_true rfl ⟨i, hLess, hInside⟩
    · rw [if_neg (by rw [hResult]; simp)]
      exact iff_of_false nofun hNot

theorem read_page (budget : Budget) (hOffset : offset ≤ body.bytes.length)
    (hStart : ¬Inside body.bytes offset) :
    ∃ page, read body offset budget.val = .ok page ∧ PageOf body offset page := by
  have hSize := body.size
  have hBudget := budget.property
  have hFront : min offset 3 ≤ offset := Nat.min_le_left _ _
  rcases @front_window body offset budget with
    ⟨i, hLess, hInside, -⟩ | ⟨-, hResult⟩
  · exact absurd ⟨i, hLess, hInside⟩ hStart
  rw [read, if_neg (by omega)]
  dsimp only
  rw [if_neg (by omega), if_neg (by rw [hResult]; simp)]
  generalize hFetched : (body.bytes.drop (offset - min offset 3)).take
    (min offset 3 + budget.val + 4) = fetched
  have hLength : fetched.length = min (min offset 3 + budget.val + 4)
      (body.bytes.length - (offset - min offset 3)) := by
    rw [← hFetched, List.length_take, List.length_drop]
  generalize hCut : min fetched.length (min offset 3 + budget.val) = cut
  have hWindow := @boundaryBefore_window body.bytes (offset - min offset 3)
    (min offset 3 + budget.val + 4) cut (by omega) (by omega)
  rw [hFetched] at hWindow
  -- The end of the page: not before its start, and a boundary.
  have hStop : min offset 3 ≤ boundaryBefore fetched cut ∧ boundaryBefore fetched cut ≤ cut ∧
      ¬Inside body.bytes (offset - min offset 3 + boundaryBefore fetched cut) ∧
      (offset - min offset 3 + cut < body.bytes.length →
        min offset 3 < boundaryBefore fetched cut) ∧
      (body.bytes.length ≤ offset - min offset 3 + cut → boundaryBefore fetched cut = cut) := by
    rcases hWindow with ⟨i, hLess, hInside, hIs⟩ | ⟨hNot, hIs⟩
    · have hHere := not_inside_start (show scalarSize (body.bytes.drop i) ≠ 0 by omega)
      have hShort := scalarSize_le (body.bytes.drop i)
      have hEnd := inside_le ⟨i, hLess, hInside⟩
      have hLow : offset ≤ i := by
        by_contra hBefore
        exact hStart ⟨i, by omega, by omega⟩
      refine ⟨by omega, by omega, hIs ▸ hHere, fun _ => by omega, fun _ => by omega⟩
    · rw [hIs]
      exact ⟨by omega, by omega, hNot, fun _ => by omega, fun _ => rfl⟩
  clear hWindow
  obtain ⟨hLow, hHigh, hBoundary, hMore, hWhole⟩ := hStop
  generalize boundaryBefore fetched cut = stop at *
  have hText : (fetched.drop (min offset 3)).take (stop - min offset 3) =
      (body.bytes.drop offset).take (stop - min offset 3) := by
    rw [← hFetched, List.drop_take, List.drop_drop, Nat.sub_add_cancel hFront, List.take_take,
      Nat.min_eq_left (by omega)]
  have hCount : ((body.bytes.drop offset).take (stop - min offset 3)).length =
      stop - min offset 3 := by
    rw [List.length_take, List.length_drop]
    omega
  rw [hText, hCount]
  refine ⟨_, rfl, rfl, ?_, ⟨by dsimp only; omega, by dsimp only; omega⟩, ?_, ?_, ?_⟩
  · dsimp only
    rw [Nat.add_sub_cancel_left]
  · rwa [show offset + (stop - min offset 3) = offset - min offset 3 + stop by omega]
  · exact decide_eq_true_iff
  · intro h
    have hLess := of_decide_eq_true h
    dsimp only
    omega

/-- **Reading from a boundary.** Every cursor is accepted, and the pages are what follows. -/
theorem follow_pages (body : ArchivedBody) (budgets : List Budget) :
    ∀ offset, offset ≤ body.bytes.length → ¬Inside body.bytes offset →
      ∃ pages, follow body offset budgets = .ok pages ∧
        (∀ page ∈ pages, ¬Inside body.bytes page.startByte ∧ PageOf body page.startByte page) ∧
        pages.flatMap (·.text) <+: body.bytes.drop offset ∧
        ((∃ page ∈ pages, page.hasMore = false) → pages.flatMap (·.text) = body.bytes.drop offset) ∧
        (body.bytes.length < offset + budgets.length → ∃ page ∈ pages, page.hasMore = false) := by
  induction budgets with
  | nil =>
    intro offset hOffset hStart
    refine ⟨[], rfl, by simp, List.nil_prefix, by simp, fun h => ?_⟩
    rw [List.length_nil] at h
    omega
  | cons budget rest ih =>
    intro offset hOffset hStart
    obtain ⟨page, hRead, hPage⟩ := read_page budget hOffset hStart
    have hSelf : ¬Inside body.bytes page.startByte ∧ PageOf body page.startByte page := by
      rw [hPage.startByte]
      exact ⟨hStart, hPage⟩
    have hNext := hPage.forward
    rw [follow, hRead]
    cases hMore : page.hasMore with
    | true =>
      have hAdvances := hPage.advances hMore
      obtain ⟨pages, hPages, hEach, hPrefix, hAll, hEnough⟩ :=
        ih page.endByte hNext.2 hPage.boundary
      have hSplit : page.text ++ body.bytes.drop page.endByte = body.bytes.drop offset := by
        rw [hPage.text]
        have hDrop : body.bytes.drop page.endByte =
            (body.bytes.drop offset).drop (page.endByte - offset) := by
          rw [List.drop_drop, Nat.add_sub_cancel' hNext.1]
        rw [hDrop, List.take_append_drop]
      refine ⟨page :: pages, ?_, ?_, ?_, ?_, ?_⟩
      · show (if page.hasMore = true then _ else _) = _
        rw [if_pos hMore, hPages]
        rfl
      · exact List.forall_mem_cons.mpr ⟨hSelf, hEach⟩
      · rw [List.flatMap_cons, ← hSplit, List.prefix_append_right_inj]
        exact hPrefix
      · rintro ⟨last, hMem, hLast⟩
        have hLater : last ∈ pages := by
          rcases List.mem_cons.mp hMem with rfl | hMem
          · rw [hMore] at hLast
            cases hLast
          · exact hMem
        rw [List.flatMap_cons, hAll ⟨last, hLater, hLast⟩, hSplit]
      · intro h
        rw [List.length_cons] at h
        obtain ⟨last, hMem, hLast⟩ := hEnough (by omega)
        exact ⟨last, List.mem_cons_of_mem _ hMem, hLast⟩
    | false =>
      have hEnd : page.endByte = body.bytes.length := by
        have hNot : ¬page.endByte < body.bytes.length := by
          rw [← hPage.hasMore, hMore]
          exact Bool.false_ne_true
        omega
      have hWhole : page.text = body.bytes.drop offset := by
        rw [hPage.text, hEnd]
        exact List.take_of_length_le (by rw [List.length_drop])
      refine ⟨[page], ?_, ?_, ?_, ?_, fun _ => ⟨page, List.mem_singleton_self _, hMore⟩⟩
      · show (if page.hasMore = true then _ else _) = _
        rw [if_neg (by rw [hMore]; exact Bool.false_ne_true)]
        rfl
      · exact List.forall_mem_cons.mpr ⟨hSelf, by simp⟩
      · simp [hWhole]
      · simp [hWhole]

/--
**Pages of archived text.** For every source and every sequence of budgets, reading from offset 0
and following the cursors never fails: no page begins or ends inside a valid character, a page
with more to come advances, and the pages are a beginning of the source, all of it once a page has
no more, which a budget for each byte and one more is enough for. An offset is refused as inside a
character exactly where it is.
-/
theorem read_laws (body : ArchivedBody) (budgets : List Budget) :
    (∃ pages, follow body 0 budgets = .ok pages ∧
      (∀ page ∈ pages, ¬Inside body.bytes page.startByte ∧ PageOf body page.startByte page) ∧
      pages.flatMap (·.text) <+: body.bytes ∧
      ((∃ page ∈ pages, page.hasMore = false) → pages.flatMap (·.text) = body.bytes) ∧
      (body.bytes.length < budgets.length → ∃ page ∈ pages, page.hasMore = false)) ∧
    ∀ offset (budget : Budget),
      read body offset budget.val = .error insideScalar ↔ Inside body.bytes offset := by
  have hStart : ¬Inside body.bytes 0 := by
    rintro ⟨start, hBefore, -⟩
    omega
  have hPages := follow_pages body budgets 0 (Nat.zero_le _) hStart
  rw [List.drop_zero, Nat.zero_add] at hPages
  exact ⟨hPages, read_inside body⟩

end SimplexAgent.Persistence.ArchiveRead
