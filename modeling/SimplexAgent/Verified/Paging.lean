import Mathlib.Data.List.Basic

/-!
# Reading parts by pages

A list of parts is read through a cursor, a part and an offset in it. Each page takes
what follows the cursor up to a cut in the same part. A page that ends its part moves the
cursor to the start of the next one, the page that ends the last part ends the reading.

`Reading` is the sequence of pages from a cursor to the end, whatever the cuts are. The
pages of one part put together are what the part has from the cursor on
(`Reading.received`), every part takes a page, an empty one too (`Reading.visited`), and
the cursors of the pages ascend (`Reading.ascending`).
-/

namespace SimplexAgent.Verified.Paging

variable {α : Type}

/-- One page: the cursor it was asked for and the items it holds. -/
structure Chunk (α : Type) where
  part : Nat
  offset : Nat
  items : List α

/-- The pages from a cursor to the end of the last part. -/
inductive Reading (parts : List (List α)) : Nat → Nat → List (Chunk α) → Prop
  | last {part offset : Nat} {whole : List α} (hPart : parts[part]? = some whole)
      (hLast : part + 1 = parts.length) (hOffset : offset ≤ whole.length) :
      Reading parts part offset [⟨part, offset, whole.drop offset⟩]
  | next {part offset : Nat} {whole : List α} {rest : List (Chunk α)}
      (hPart : parts[part]? = some whole) (hOffset : offset ≤ whole.length)
      (hRest : Reading parts (part + 1) 0 rest) :
      Reading parts part offset (⟨part, offset, whole.drop offset⟩ :: rest)
  | more {part offset cut : Nat} {whole : List α} {rest : List (Chunk α)}
      (hPart : parts[part]? = some whole) (hCut : offset < cut)
      (hRest : Reading parts part cut rest) :
      Reading parts part offset (⟨part, offset, (whole.drop offset).take (cut - offset)⟩ :: rest)

/-- What the pages hold of one part. -/
def received (chunks : List (Chunk α)) (part : Nat) : List α :=
  (chunks.filter (·.part = part)).flatMap (·.items)

/-- The order of cursors. -/
def Before (a b : Chunk α) : Prop := a.part < b.part ∨ a.part = b.part ∧ a.offset < b.offset

@[simp] theorem received_nil (part : Nat) : received ([] : List (Chunk α)) part = [] := rfl

theorem received_cons (chunk : Chunk α) (rest : List (Chunk α)) (part : Nat) :
    received (chunk :: rest) part =
      if chunk.part = part then chunk.items ++ received rest part else received rest part := by
  by_cases h : chunk.part = part
  · simp [received, h]
  · simp [received, h]

theorem drop_take_drop (whole : List α) {offset cut : Nat} (hCut : offset ≤ cut) :
    (whole.drop offset).take (cut - offset) ++ whole.drop cut = whole.drop offset := by
  have hDrop : whole.drop cut = (whole.drop offset).drop (cut - offset) := by
    rw [List.drop_drop, Nat.add_sub_cancel' hCut]
  rw [hDrop, List.take_append_drop]

namespace Reading

variable {parts : List (List α)} {part offset : Nat} {chunks : List (Chunk α)}

section

variable (h : Reading parts part offset chunks)
include h

theorem cursors :
    ∀ chunk ∈ chunks, part < chunk.part ∨ part = chunk.part ∧ offset ≤ chunk.offset := by
  induction h with
  | last hPart hLast hOffset => simp
  | next hPart hOffset hRest ih | more hPart hCut hRest ih =>
    intro chunk hMem
    rcases List.mem_cons.mp hMem with rfl | hMem
    · exact .inr ⟨rfl, Nat.le_refl _⟩
    · have hLater := ih chunk hMem
      omega

theorem ascending : chunks.Pairwise Before := by
  induction h with
  | last hPart hLast hOffset => exact List.pairwise_singleton _ _
  | next hPart hOffset hRest ih =>
    refine List.Pairwise.cons (fun chunk hMem => ?_) ih
    have hLater := cursors hRest chunk hMem
    exact .inl (by dsimp only; omega)
  | more hPart hCut hRest ih =>
    refine List.Pairwise.cons (fun chunk hMem => ?_) ih
    have hLater := cursors hRest chunk hMem
    unfold Before
    dsimp only
    omega

theorem received {whole : List α} (later : Nat) (hWhole : parts[later]? = some whole)
    (hLater : part ≤ later) :
    Paging.received chunks later = if part = later then whole.drop offset else whole := by
  induction h with
  | @last part offset here hPart hLast hOffset =>
    have hBound := (List.getElem?_eq_some_iff.mp hWhole).1
    have hSame : part = later := by omega
    subst hSame
    rw [hPart, Option.some.injEq] at hWhole
    simp [received_cons, hWhole]
  | @next part offset here rest hPart hOffset hRest ih =>
    rw [received_cons]
    by_cases hSame : part = later
    · subst hSame
      rw [hPart, Option.some.injEq] at hWhole
      have hNone : Paging.received rest part = [] := by
        have hFilter : rest.filter (·.part = part) = [] := by
          apply List.filter_eq_nil_iff.mpr
          intro chunk hMem
          have hAfter := cursors hRest chunk hMem
          simp only [decide_eq_true_eq]
          omega
        rw [Paging.received, hFilter, List.flatMap_nil]
      rw [if_pos rfl, if_pos rfl, hNone, List.append_nil, hWhole]
    · rw [if_neg hSame, if_neg hSame, ih (by omega)]
      split
      · exact List.drop_zero
      · rfl
  | @more part offset cut here rest hPart hCut hRest ih =>
    rw [received_cons, ih hLater]
    by_cases hSame : part = later
    · subst hSame
      rw [hPart, Option.some.injEq] at hWhole
      rw [if_pos rfl, if_pos rfl, if_pos rfl, hWhole, drop_take_drop _ (Nat.le_of_lt hCut)]
    · rw [if_neg hSame, if_neg hSame, if_neg hSame]

theorem visited {later : Nat} (hLater : part ≤ later) (hBound : later < parts.length) :
    ∃ chunk ∈ chunks, chunk.part = later := by
  induction h with
  | @last part offset here hPart hLast hOffset =>
    have hSame : part = later := by omega
    exact ⟨_, List.mem_cons_self, hSame⟩
  | @next part offset here rest hPart hOffset hRest ih =>
    by_cases hSame : part = later
    · exact ⟨_, List.mem_cons_self, hSame⟩
    · obtain ⟨chunk, hMem, hChunk⟩ := ih (by omega)
      exact ⟨chunk, List.mem_cons_of_mem _ hMem, hChunk⟩
  | more hPart hCut hRest ih =>
    obtain ⟨chunk, hMem, hChunk⟩ := ih hLater
    exact ⟨chunk, List.mem_cons_of_mem _ hMem, hChunk⟩

end

end Reading

theorem cursor_induction {parts : List (List α)} {motive : Nat → Nat → Prop}
    (hStep : ∀ part offset whole, parts[part]? = some whole → offset ≤ whole.length →
      (part + 1 < parts.length → motive (part + 1) 0) →
      (∀ cut, offset < cut → cut < whole.length → motive part cut) → motive part offset)
    (part offset : Nat) (whole : List α) (hPart : parts[part]? = some whole)
    (hOffset : offset ≤ whole.length) : motive part offset := by
  obtain ⟨later, hLater⟩ : ∃ later, parts.length - part = later := ⟨_, rfl⟩
  induction later generalizing part offset whole with
  | zero =>
    have hBound := (List.getElem?_eq_some_iff.mp hPart).1
    omega
  | succ later ihPart =>
    obtain ⟨left, hLeft⟩ : ∃ left, whole.length - offset = left := ⟨_, rfl⟩
    induction left using Nat.strongRecOn generalizing offset with
    | _ left ihOffset =>
      apply hStep part offset whole hPart hOffset
      · intro hBound
        exact ihPart (part + 1) 0 parts[part + 1] (List.getElem?_eq_getElem hBound)
          (Nat.zero_le _) (by omega)
      · intro cut hCut hEnd
        exact ihOffset (whole.length - cut) (by omega) cut (Nat.le_of_lt hEnd) rfl

end SimplexAgent.Verified.Paging
