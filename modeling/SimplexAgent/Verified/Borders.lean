import Mathlib.Data.List.Basic

/-!
# Borders of a pattern

A border of a front part of a pattern is a shorter front part that it ends with. A search that
reads its text once keeps the length of the front part it ends with at present; when the next
element does not continue it, a table of borders tells which shorter one to try.
-/

namespace SimplexAgent.Verified.Borders

variable {α : Type}

/-- The entries are borders of the front parts that end at their position. -/
def IsTable (pattern : List α) (table : List Nat) : Prop :=
  ∀ i k, table[i]? = some k → k ≤ i ∧ pattern.take k <:+ pattern.take (i + 1)

variable {pattern : List α} {table : List Nat}
variable {text : List α} {offset : Nat} {next : α}

theorem IsTable.entry (h : IsTable pattern table) {q : Nat} (hZero : q ≠ 0)
    (hLong : q ≤ table.length) :
    table.getD (q - 1) 0 < q ∧ pattern.take (table.getD (q - 1) 0) <:+ pattern.take q := by
  have hSome : table[q - 1]? = some (table.getD (q - 1) 0) := by
    rw [List.getD_eq_getElem?_getD, List.getElem?_eq_getElem (by omega)]
    rfl
  obtain ⟨hLe, hBorder⟩ := h (q - 1) _ hSome
  rw [Nat.sub_add_cancel (by omega)] at hBorder
  exact ⟨by omega, hBorder⟩

theorem take_succ_of_getElem? {k : Nat} (h : pattern[k]? = some next) :
    pattern.take (k + 1) = pattern.take k ++ [next] := by
  rw [List.take_add_one, h]
  rfl

theorem suffix_snoc {xs ys : List α} (h : xs <:+ ys) (next : α) : xs ++ [next] <:+ ys ++ [next] := by
  obtain ⟨front, rfl⟩ := h
  exact ⟨front, by rw [List.append_assoc]⟩

variable [DecidableEq α]

/-- Give up what the next element does not continue. The table only leads to something shorter;
that is asked here because the recursion ends by it. -/
def fallback (pattern : List α) (table : List Nat) (next : α) (q : Nat) : Nat :=
  if q = 0 then 0
  else if pattern[q]? = some next then q
  else if _hShorter : table.getD (q - 1) 0 < q then
    fallback pattern table next (table.getD (q - 1) 0)
  else q
termination_by q

/-- How much of the pattern is matched with one more element. -/
def advance (pattern : List α) (table : List Nat) (next : α) (q : Nat) : Nat :=
  if pattern[fallback pattern table next q]? = some next then
    fallback pattern table next q + 1
  else fallback pattern table next q

/-- One more entry of the table, which is found by means of those before it. -/
def extend (pattern : List α) (built : List Nat × Nat) (next : α) : List Nat × Nat :=
  (built.1 ++ [advance pattern built.1 next built.2], advance pattern built.1 next built.2)

def borderTable (pattern : List α) : List Nat :=
  match pattern with
  | [] => []
  | first :: rest => (rest.foldl (extend (first :: rest)) ([0], 0)).1

/-- What is left is a border, and the next element continues it unless it is empty. -/
theorem fallback_spec (h : IsTable pattern table) (next : α) (q : Nat) (hLong : q ≤ table.length) :
    fallback pattern table next q ≤ q ∧
      pattern.take (fallback pattern table next q) <:+ pattern.take q ∧
      (pattern[fallback pattern table next q]? = some next ∨
        fallback pattern table next q = 0) := by
  induction q using Nat.strongRecOn with
  | _ q ih =>
    rw [fallback]
    split
    · exact ⟨Nat.zero_le _, by rw [List.take_zero]; exact List.nil_suffix, Or.inr rfl⟩
    · rename_i hZero
      obtain ⟨hShorter, hBorder⟩ := h.entry hZero hLong
      split
      · exact ⟨Nat.le_refl q, List.suffix_refl _, Or.inl ‹_›⟩
      · obtain ⟨hLe, hSuffix, hNext⟩ := ih _ hShorter (by omega)
        exact ⟨by omega, hSuffix.trans hBorder, hNext⟩

/-- What is matched then is the end of what was matched and the element. -/
theorem advance_spec (h : IsTable pattern table) (next : α) {q : Nat} (hLong : q ≤ table.length) :
    advance pattern table next q ≤ q + 1 ∧
      pattern.take (advance pattern table next q) <:+ pattern.take q ++ [next] := by
  obtain ⟨hLe, hSuffix, hNext⟩ := fallback_spec h next q hLong
  unfold advance
  split
  · rename_i hMatch
    rw [take_succ_of_getElem? hMatch]
    exact ⟨by omega, suffix_snoc hSuffix next⟩
  · rename_i hMismatch
    cases hNext with
    | inl hMatch => exact absurd hMatch hMismatch
    | inr hZero =>
      rw [hZero, List.take_zero]
      exact ⟨Nat.zero_le _, List.nil_suffix⟩

/-! ## The longest borders -/

/-- No border of a front part is longer than its entry, the front part itself apart. -/
def IsLongest (pattern : List α) (table : List Nat) : Prop :=
  ∀ i k, table[i]? = some k → ∀ j, j ≤ i → pattern.take j <:+ pattern.take (i + 1) → j ≤ k

omit [DecidableEq α] in
theorem suffix_of_snoc {xs ys : List α} {a b : α} (h : xs ++ [a] <:+ ys ++ [b]) :
    xs <:+ ys ∧ a = b := by
  obtain ⟨front, hFront⟩ := h
  rw [← List.append_assoc] at hFront
  obtain ⟨hInit, hLast⟩ := List.append_inj' hFront rfl
  exact ⟨⟨front, hInit⟩, List.singleton_inj.mp hLast⟩

omit [DecidableEq α] in
/-- Of two front parts that something ends with, the longer one ends with the shorter one. -/
theorem take_suffix_take {seen : List α} {j k : Nat} (hj : pattern.take j <:+ seen)
    (hk : pattern.take k <:+ seen) (hLe : j ≤ k) : pattern.take j <:+ pattern.take k := by
  apply List.suffix_of_suffix_length_le hj hk
  rw [List.length_take, List.length_take]
  omega

theorem le_fallback (h : IsTable pattern table) (hLongest : IsLongest pattern table) {j q : Nat}
    (hLong : q ≤ table.length) (hLe : j ≤ q) (hBorder : pattern.take j <:+ pattern.take q)
    (hNext : pattern[j]? = some next) : j ≤ fallback pattern table next q := by
  induction q using Nat.strongRecOn with
  | _ q ih =>
    rw [fallback]
    split
    · omega
    · rename_i hZero
      obtain ⟨hShorter, hEntry⟩ := h.entry hZero hLong
      split
      · exact hLe
      · rename_i hMismatch
        have hOther : j ≠ q := by
          intro hSame
          rw [← hSame] at hMismatch
          exact hMismatch hNext
        have hSome : table[q - 1]? = some (table.getD (q - 1) 0) := by
          rw [List.getD_eq_getElem?_getD, List.getElem?_eq_getElem (by omega)]
          rfl
        have hPrevious : j ≤ table.getD (q - 1) 0 := by
          apply hLongest (q - 1) _ hSome j (by omega)
          rw [Nat.sub_add_cancel (by omega)]
          exact hBorder
        exact ih _ hShorter (by omega) hPrevious (take_suffix_take hBorder hEntry hPrevious)

theorem le_advance (h : IsTable pattern table) (hLongest : IsLongest pattern table) {seen : List α}
    {q : Nat} (bound : Nat) (hLong : q ≤ table.length) (hMatched : pattern.take q <:+ seen)
    (hMax : ∀ k, k ≤ bound → k ≤ pattern.length → pattern.take k <:+ seen → k ≤ q) {k : Nat}
    (hBound : k ≤ bound + 1) (hInside : k ≤ pattern.length)
    (hk : pattern.take k <:+ seen ++ [next]) : k ≤ advance pattern table next q := by
  cases k with
  | zero => exact Nat.zero_le _
  | succ k =>
    have hSome : pattern[k]? = some pattern[k] := List.getElem?_eq_getElem hInside
    rw [take_succ_of_getElem? hSome] at hk
    obtain ⟨hFront, hNext⟩ := suffix_of_snoc hk
    rw [hNext] at hSome
    have hLe := hMax k (by omega) (by omega) hFront
    have hKept := le_fallback h hLongest hLong hLe (take_suffix_take hFront hMatched hLe) hSome
    unfold advance
    split
    · omega
    · rename_i hMismatch
      obtain ⟨-, -, hMatch | hZero⟩ := fallback_spec h next q hLong
      · exact absurd hMatch hMismatch
      · have hFirst : k = 0 := by omega
        rw [hZero, ← hFirst] at hMismatch
        exact absurd hSome hMismatch

/-! ## Building the table -/

/-- A part of the table, with its last entry. -/
structure Built (pattern : List α) (built : List Nat × Nat) : Prop where
  table : IsTable pattern built.1
  longest : IsLongest pattern built.1
  last : built.2 < built.1.length
  border : pattern.take built.2 <:+ pattern.take built.1.length
  maximal : ∀ k, k < built.1.length → pattern.take k <:+ pattern.take built.1.length → k ≤ built.2

theorem length_extend (built : List Nat × Nat) (next : α) :
    (extend pattern built next).1.length = built.1.length + 1 := by
  rw [extend, List.length_append]
  rfl

/-- An entry of a longer part is one of the shorter part or the new one. -/
theorem getElem?_extend {built : List Nat × Nat} {i k : Nat}
    (h : (extend pattern built next).1[i]? = some k) : built.1[i]? = some k ∨
      (i = built.1.length ∧ k = advance pattern built.1 next built.2) := by
  rw [extend] at h
  by_cases hOld : i < built.1.length
  · rw [List.getElem?_append_left hOld] at h
    exact Or.inl h
  · rw [List.getElem?_append_right (by omega)] at h
    have hIndex : i = built.1.length := by
      by_contra hOther
      rw [List.getElem?_eq_none (by simp only [List.length_singleton]; omega)] at h
      cases h
    subst hIndex
    rw [Nat.sub_self] at h
    cases h
    exact Or.inr ⟨rfl, rfl⟩

theorem Built.extend {built : List Nat × Nat} (h : Built pattern built)
    (hNext : pattern[built.1.length]? = some next) : Built pattern (extend pattern built next) := by
  have hInside := (List.getElem?_eq_some_iff.mp hNext).1
  have hLast := h.last
  obtain ⟨hLe, hSuffix⟩ := advance_spec h.table next (Nat.le_of_lt h.last)
  have hEntry : pattern.take (advance pattern built.1 next built.2) <:+
      pattern.take (built.1.length + 1) := by
    rw [take_succ_of_getElem? hNext]
    exact hSuffix.trans (suffix_snoc h.border next)
  have hMax : ∀ k, k ≤ built.1.length → pattern.take k <:+ pattern.take (built.1.length + 1) →
      k ≤ advance pattern built.1 next built.2 := by
    intro k hk hSuffix
    rw [take_succ_of_getElem? hNext] at hSuffix
    refine le_advance h.table h.longest (k - 1) (Nat.le_of_lt h.last) h.border ?_
      (by omega) (by omega) hSuffix
    intro j hj _ hBorder
    exact h.maximal j (by omega) hBorder
  refine ⟨?_, ?_, ?_, ?_, ?_⟩
  · intro i k hk
    rcases getElem?_extend hk with hOld | ⟨rfl, rfl⟩
    · exact h.table i k hOld
    · exact ⟨by omega, hEntry⟩
  · intro i k hk j hj hBorder
    rcases getElem?_extend hk with hOld | ⟨rfl, rfl⟩
    · exact h.longest i k hOld j hj hBorder
    · exact hMax j hj hBorder
  · rw [length_extend]
    show advance pattern built.1 next built.2 < built.1.length + 1
    omega
  · rw [length_extend]
    exact hEntry
  · rw [length_extend]
    intro k hk hBorder
    exact hMax k (by omega) hBorder

theorem foldl_extend (rest : List α) (built : List Nat × Nat) (h : Built pattern built)
    (hRest : pattern.drop built.1.length = rest) :
    Built pattern (rest.foldl (Borders.extend pattern) built) ∧
      (rest.foldl (Borders.extend pattern) built).1.length = built.1.length + rest.length := by
  induction rest generalizing built with
  | nil => exact ⟨h, rfl⟩
  | cons next rest ih =>
    have hNext : pattern[built.1.length]? = some next := by
      rw [← List.head?_drop, hRest]
      rfl
    have hRest' : pattern.drop (Borders.extend pattern built next).1.length = rest := by
      rw [length_extend, ← List.drop_drop, hRest, List.drop_one, List.tail_cons]
    obtain ⟨hDone, hTotal⟩ := ih _ (h.extend hNext) hRest'
    refine ⟨hDone, ?_⟩
    rw [List.foldl_cons, hTotal, length_extend, List.length_cons]
    omega

omit [DecidableEq α] in
/-- The table begins with a zero. -/
theorem built_first (first : α) (rest : List α) : Built (first :: rest) ([0], 0) := by
  refine ⟨?_, ?_, Nat.zero_lt_one, List.nil_suffix, fun k hk _ => by simpa using hk⟩
  · intro i k hk
    cases i with
    | zero =>
      cases hk
      exact ⟨Nat.le_refl 0, List.nil_suffix⟩
    | succ i => simp at hk
  · intro i k hk j hj _
    cases i with
    | zero => omega
    | succ i => simp at hk

theorem built_borderTable (first : α) (rest : List α) :
    ∃ last, Built (first :: rest) (borderTable (first :: rest), last) ∧
      (borderTable (first :: rest)).length = (first :: rest).length := by
  obtain ⟨hBuilt, hLength⟩ := foldl_extend rest ([0], 0) (built_first first rest) rfl
  refine ⟨_, hBuilt, ?_⟩
  rw [borderTable, hLength]
  simp only [List.length_cons, List.length_nil]
  omega

theorem isTable_borderTable (pattern : List α) :
    IsTable pattern (borderTable pattern) ∧ (borderTable pattern).length = pattern.length := by
  cases pattern with
  | nil => exact ⟨fun i k h => by simp [borderTable] at h, rfl⟩
  | cons first rest =>
    obtain ⟨last, hBuilt, hLength⟩ := built_borderTable first rest
    exact ⟨hBuilt.table, hLength⟩

theorem isLongest_borderTable (pattern : List α) : IsLongest pattern (borderTable pattern) := by
  cases pattern with
  | nil => exact fun i k h => by simp [borderTable] at h
  | cons first rest =>
    obtain ⟨last, hBuilt, -⟩ := built_borderTable first rest
    exact hBuilt.longest

/-! ## Occurrences -/

omit [DecidableEq α]

def OccursAt (pattern text : List α) (offset : Nat) : Prop := pattern <+: text.drop offset

theorem OccursAt.inside (h : OccursAt pattern text offset) (hMore : pattern ≠ []) :
    offset + pattern.length ≤ text.length := by
  have hLength := h.length_le
  rw [List.length_drop] at hLength
  have hPos := List.length_pos_iff.mpr hMore
  omega

theorem OccursAt.append (h : OccursAt pattern text offset) (hMore : pattern ≠ []) (after : List α) :
    OccursAt pattern (text ++ after) offset := by
  have hInside := h.inside hMore
  unfold OccursAt
  rw [List.drop_append_of_le_length (by omega)]
  exact h.trans (List.prefix_append _ _)

theorem OccursAt.of_append {text after : List α} (h : OccursAt pattern (text ++ after) offset)
    (hInside : offset + pattern.length ≤ text.length) : OccursAt pattern text offset := by
  unfold OccursAt at h
  rw [List.drop_append_of_le_length (by omega)] at h
  apply List.prefix_of_prefix_length_le h (List.prefix_append _ _)
  rw [List.length_drop]
  omega

theorem occursAt_of_suffix (h : pattern <:+ text) :
    OccursAt pattern text (text.length - pattern.length) := by
  have hEnd := List.suffix_iff_eq_drop.mp h
  exact ⟨[], by rw [List.append_nil, ← hEnd]⟩

theorem OccursAt.suffix (h : OccursAt pattern text offset)
    (hEnd : offset + pattern.length = text.length) : pattern <:+ text := by
  have hWhole : pattern = text.drop offset := by
    apply h.eq_of_length
    rw [List.length_drop]
    omega
  rw [hWhole]
  exact List.drop_suffix _ _

theorem occursAt_snoc (hMore : pattern ≠ []) (h : OccursAt pattern (text ++ [next]) offset) :
    OccursAt pattern text offset ∨
      (offset + pattern.length = text.length + 1 ∧ pattern <:+ text ++ [next]) := by
  have hInside := h.inside hMore
  rw [List.length_append, List.length_singleton] at hInside
  by_cases hOld : offset + pattern.length ≤ text.length
  · exact Or.inl (h.of_append hOld)
  · refine Or.inr ⟨by omega, h.suffix ?_⟩
    rw [List.length_append, List.length_singleton]
    omega

end SimplexAgent.Verified.Borders
