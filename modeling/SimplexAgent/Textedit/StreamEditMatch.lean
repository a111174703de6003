import SimplexAgent.Textedit.StreamEditScan

/-!
# What the streaming matcher finds

The matcher against the occurrences of its pattern: `Tracked` says what it knows after some
bytes, and `step_tracked` that one more byte keeps that. The length it has matched is the
longest front part of the pattern, short of the whole, that the bytes end with; so an
occurrence ends with the next byte exactly if the matcher reaches the whole pattern.

The table is written as the loop of `kmp_prefix` here, and `kmpPrefix_eq` says that the table of
borders the matcher is modelled with is the same.
-/

namespace SimplexAgent.Textedit

open Verified.Borders

/-! ## The table -/

/-- The loop of `kmp_prefix`. That the table leads to something shorter is asked here because
the recursion ends by it. -/
def kmpPrefixLoop (pattern : List UInt8) (index length : Nat) (table : List Nat) : List Nat :=
  if index < pattern.length then
    if pattern[index]? = pattern[length]? then
      kmpPrefixLoop pattern (index + 1) (length + 1) (table.set index (length + 1))
    else if length ≠ 0 then
      if _hShorter : table.getD (length - 1) 0 < length then
        kmpPrefixLoop pattern index (table.getD (length - 1) 0) table
      else table
    else kmpPrefixLoop pattern (index + 1) 0 (table.set index 0)
  else table
termination_by (pattern.length - index, length)

/-- `kmp_prefix`. -/
def kmpPrefix (pattern : List UInt8) : List Nat :=
  kmpPrefixLoop pattern 1 0 (List.replicate pattern.length 0)

theorem kmpPrefixLoop_entry {pattern : List UInt8} {built zeros : List Nat} {next : UInt8}
    {length : Nat} (hTable : IsTable pattern built) (hNext : pattern[built.length]? = some next)
    (hLength : length < built.length) : kmpPrefixLoop pattern built.length length (built ++ zeros) =
      kmpPrefixLoop pattern (built.length + 1) (advance pattern built next length)
        ((built ++ zeros).set built.length (advance pattern built next length)) := by
  have hIndex := (List.getElem?_eq_some_iff.mp hNext).1
  induction length using Nat.strongRecOn with
  | _ length ih =>
    conv_lhs => rw [kmpPrefixLoop]
    rw [if_pos hIndex, hNext]
    by_cases hMatch : pattern[length]? = some next
    · have hAdvance : advance pattern built next length = length + 1 := by
        have hKept : fallback pattern built next length = length := by
          rw [fallback, if_pos hMatch]
          split
          · omega
          · rfl
        rw [advance, hKept, if_pos hMatch]
      rw [if_pos hMatch.symm, hAdvance]
    · rw [if_neg fun hSame => hMatch hSame.symm]
      by_cases hZero : length = 0
      · have hAdvance : advance pattern built next length = 0 := by
          have hKept : fallback pattern built next length = length := by
            rw [fallback, if_pos hZero]
            exact hZero.symm
          rw [advance, hKept, if_neg hMatch]
          exact hZero
        rw [if_neg (not_not_intro hZero), hAdvance]
      · have hEntry : (built ++ zeros).getD (length - 1) 0 = built.getD (length - 1) 0 := by
          rw [List.getD_eq_getElem?_getD, List.getElem?_append_left (by omega),
            ← List.getD_eq_getElem?_getD]
        obtain ⟨hShorter, -⟩ := hTable.entry hZero (Nat.le_of_lt hLength)
        have hFall : fallback pattern built next length =
            fallback pattern built next (built.getD (length - 1) 0) := by
          conv_lhs => rw [fallback]
          rw [if_neg hZero, if_neg hMatch, dif_pos hShorter]
        have hAdvance : advance pattern built next length =
            advance pattern built next (built.getD (length - 1) 0) := by
          rw [advance, hFall]
          rfl
        rw [if_pos hZero, hEntry, dif_pos hShorter, hAdvance]
        exact ih _ hShorter (by omega)

theorem kmpPrefixLoop_eq {pattern : List UInt8} (rest : List UInt8) (built : List Nat × Nat)
    (h : Built pattern built) (hRest : pattern.drop built.1.length = rest) :
    kmpPrefixLoop pattern built.1.length built.2
      (built.1 ++ List.replicate rest.length 0) = (rest.foldl (extend pattern) built).1 := by
  induction rest generalizing built with
  | nil =>
    have hEnd : pattern.length ≤ built.1.length := List.drop_eq_nil_iff.mp hRest
    rw [kmpPrefixLoop, if_neg (Nat.not_lt.mpr hEnd)]
    exact List.append_nil _
  | cons next rest ih =>
    have hNext : pattern[built.1.length]? = some next := by
      rw [← List.head?_drop, hRest]
      rfl
    have hRest' : pattern.drop (extend pattern built next).1.length = rest := by
      rw [length_extend, ← List.drop_drop, hRest, List.drop_one, List.tail_cons]
    have hSet : (built.1 ++ List.replicate (next :: rest).length 0).set built.1.length
        (advance pattern built.1 next built.2) =
          (extend pattern built next).1 ++ List.replicate rest.length 0 := by
      rw [List.length_cons, List.replicate_succ, List.set_append_right _ _ (Nat.le_refl _),
        Nat.sub_self, List.set_cons_zero]
      exact List.append_cons _ _ _
    rw [kmpPrefixLoop_entry h.table hNext h.last, hSet, ← length_extend built next]
    exact ih _ (h.extend hNext) hRest'

theorem kmpPrefix_eq (pattern : List UInt8) : kmpPrefix pattern = borderTable pattern := by
  cases pattern with
  | nil =>
    unfold kmpPrefix
    rw [kmpPrefixLoop, if_neg (by simp)]
    rfl
  | cons first rest => exact kmpPrefixLoop_eq rest ([0], 0) (built_first first rest) rfl

/-- **The table of a pattern**: each entry is the length of the longest proper border of the front
part that ends there. -/
theorem kmpPrefix_borders (pattern : List UInt8) : (kmpPrefix pattern).length = pattern.length ∧
    ∀ i k, (kmpPrefix pattern)[i]? = some k → (k ≤ i ∧ pattern.take k <:+ pattern.take (i + 1)) ∧
      ∀ j, j ≤ i → pattern.take j <:+ pattern.take (i + 1) → j ≤ k := by
  obtain ⟨hTable, hLength⟩ := isTable_borderTable pattern
  rw [kmpPrefix_eq]
  exact ⟨hLength, fun i k h => ⟨hTable i k h, isLongest_borderTable pattern i k h⟩⟩

/-! ## What is matched -/

namespace StreamingMatcher

variable {old new : List UInt8} {m : StreamingMatcher}
variable {seen : List UInt8} {made : List WriterCall}

theorem giveUp_q (m : StreamingMatcher) (byte : UInt8) :
    (m.giveUp byte).q = fallback m.pattern m.kmpPrefix byte m.q := by
  generalize hq : m.q = q
  induction q using Nat.strongRecOn generalizing m with
  | _ q ih =>
    rw [giveUp, fallback, hq]
    split
    · rename_i hZero
      exact hq.trans hZero
    split
    · exact hq
    split
    · rename_i hShorter
      rw [ih _ hShorter _ rfl, drop_eq]
    · exact hq

theorem search_q (m : StreamingMatcher) (byte : UInt8) :
    (m.search byte).q = advance m.pattern m.kmpPrefix byte m.q := by
  unfold search advance
  rw [giveUp_q]
  split
  · rw [← giveUp_q]
  · rw [← giveUp_q]

theorem advance_whole {q : Nat} (hPartly : q < old.length) (hMatched : old.take q <:+ seen)
    (hMax : ∀ k, k < old.length → old.take k <:+ seen → k ≤ q) (byte : UInt8) :
    old.take (advance old (borderTable old) byte q) <:+ seen ++ [byte] ∧
      (∀ k, k ≤ old.length → old.take k <:+ seen ++ [byte] →
        k ≤ advance old (borderTable old) byte q) ∧
      (advance old (borderTable old) byte q = old.length ↔ old <:+ seen ++ [byte]) := by
  obtain ⟨hTable, hLength⟩ := isTable_borderTable old
  obtain ⟨hLe, hSuffix⟩ := advance_spec hTable byte (q := q) (by omega)
  have hEnds := hSuffix.trans (suffix_snoc hMatched byte)
  have hLongest : ∀ k, k ≤ old.length → old.take k <:+ seen ++ [byte] →
      k ≤ advance old (borderTable old) byte q := by
    intro k hk hBorder
    exact le_advance hTable (isLongest_borderTable old) (old.length - 1) (by omega) hMatched
      (fun j hj _ hSuffix => hMax j (by omega) hSuffix) (by omega) hk hBorder
  refine ⟨hEnds, hLongest, ?_, ?_⟩
  · intro hWhole
    rw [hWhole, List.take_length] at hEnds
    exact hEnds
  · intro hOccurs
    have hAll := hLongest old.length (Nat.le_refl _) (by rw [List.take_length]; exact hOccurs)
    omega

def calls (m : StreamingMatcher) (offset : Nat) : List UInt8 → List WriterCall
  | [] => []
  | byte :: rest => (m.step byte offset).2 ++ calls (m.step byte offset).1 (offset + 1) rest

/-- What a matcher knows after these bytes, and the calls it has made. -/
structure Tracked (old new seen : List UInt8) (m : StreamingMatcher) (made : List WriterCall) :
    Prop where
  searched : Searched old new seen.length m
  matched : m.ambiguous = false → old.take m.q <:+ seen
  maximal : m.ambiguous = false → ∀ k, k < old.length → old.take k <:+ seen → k ≤ m.q
  nothing : m.found = false → (∀ i, ¬OccursAt old seen i) ∧ made = []
  first : m.found = true → OccursAt old seen m.matchByte ∧
    ∀ i, i < m.matchByte → ¬OccursAt old seen i
  only : m.found = true → m.ambiguous = false → (∀ i, m.matchByte < i → ¬OccursAt old seen i) ∧
    made = .begin m.matchByte new ::
      (seen.drop (m.matchByte + old.length)).map WriterCall.appendByte
  second : m.ambiguous = true → m.found = true ∧ m.matchByte < m.secondMatchByte ∧
    OccursAt old seen m.secondMatchByte ∧
    ∀ i, m.matchByte < i → i < m.secondMatchByte → ¬OccursAt old seen i

theorem tracked_new (new : List UInt8) (h : old ≠ []) : Tracked old new [] (StreamingMatcher.new old new) [] where
  searched := searched_new (fun hZero => h (List.length_eq_zero_iff.mp hZero))
  matched _ := List.nil_suffix
  maximal _ k hk hBorder := by
    have hLength := hBorder.length_le
    rw [List.length_take, List.length_nil] at hLength
    omega
  nothing _ := by
    refine ⟨fun i hOccurs => ?_, rfl⟩
    have hInside := hOccurs.inside h
    have hPos := List.length_pos_iff.mpr h
    rw [List.length_nil] at hInside
    omega
  first hFound := by cases hFound
  only hFound := by cases hFound
  second hAmbiguous := by cases hAmbiguous

section

variable (h : old ≠ [])
include h

theorem not_occursAt_snoc {byte : UInt8} {i : Nat} (hNone : ¬OccursAt old seen i)
    (hEnd : i + old.length = seen.length + 1 → ¬old <:+ seen ++ [byte]) :
    ¬OccursAt old (seen ++ [byte]) i := by
  intro hOccurs
  rcases occursAt_snoc h hOccurs with hOld | ⟨hLast, hSuffix⟩
  · exact hNone hOld
  · exact hEnd hLast hSuffix

theorem Tracked.first_snoc (hTracked : Tracked old new seen m made) (hFound : m.found = true)
    (byte : UInt8) : OccursAt old (seen ++ [byte]) m.matchByte ∧
      ∀ i, i < m.matchByte → ¬OccursAt old (seen ++ [byte]) i := by
  obtain ⟨hOccurs, hFirst⟩ := hTracked.first hFound
  obtain ⟨hEnd, -⟩ := hTracked.searched.after hFound
  refine ⟨hOccurs.append h _, fun i hi => not_occursAt_snoc h (hFirst i hi) ?_⟩
  intro hLast
  omega

theorem Tracked.stopped (hTracked : Tracked old new seen m made) (hStopped : m.stopped = true)
    (byte : UInt8) : Tracked old new (seen ++ [byte]) m made := by
  have hAmbiguous := hTracked.searched.stopped.symm.trans hStopped
  obtain ⟨hFound, hOrder, hOccurs, hBetween⟩ := hTracked.second hAmbiguous
  have hEnd := hOccurs.inside h
  have hSearched := (step_spec hTracked.searched byte).1
  rw [step, if_pos hStopped] at hSearched
  refine ⟨?_, ?_, ?_, ?_, ?_, ?_, ?_⟩
  · rw [List.length_append, List.length_singleton]
    exact hSearched
  · intro hUnique
    rw [hAmbiguous] at hUnique
    cases hUnique
  · intro hUnique
    rw [hAmbiguous] at hUnique
    cases hUnique
  · intro hBefore
    rw [hFound] at hBefore
    cases hBefore
  · intro _
    exact hTracked.first_snoc h hFound byte
  · intro _ hUnique
    rw [hAmbiguous] at hUnique
    cases hUnique
  · intro _
    refine ⟨hFound, hOrder, hOccurs.append h _, fun i hAfter hBefore => ?_⟩
    apply not_occursAt_snoc h (hBetween i hAfter hBefore)
    intro hLast
    omega

theorem Tracked.search (hTracked : Tracked old new seen m made) (hActive : m.stopped = false)
    (hBefore : m.found = false) (byte : UInt8) :
    Tracked old new (seen ++ [byte]) (m.step byte seen.length).1
      (made ++ (m.step byte seen.length).2) := by
  have hUnique : m.ambiguous = false := hTracked.searched.stopped.symm.trans hActive
  have hPos := List.length_pos_iff.mpr h
  obtain ⟨hNone, hMade⟩ := hTracked.nothing hBefore
  have hNext := advance_whole hTracked.searched.partly (hTracked.matched hUnique)
    (hTracked.maximal hUnique) byte
  obtain ⟨hOf, hLe, -, -, hNotFound, hNotAmbiguous, -⟩ :=
    search_spec hTracked.searched hBefore byte
  have hSearched := (step_spec hTracked.searched byte).1
  have hq := search_q m byte
  rw [hTracked.searched.pattern, hTracked.searched.kmpPrefix] at hq
  rw [← hq] at hNext
  obtain ⟨hMatched, hMax, hWhole⟩ := hNext
  rw [step, if_neg (by rw [hActive]; decide), if_pos hBefore, hTracked.searched.pattern]
    at hSearched ⊢
  rw [hMade, List.nil_append]
  by_cases hFull : (m.search byte).q = old.length
  · rw [if_pos hFull] at hSearched ⊢
    have hSuffix := hWhole.mp hFull
    have hLong := hSuffix.length_le
    rw [List.length_append, List.length_singleton] at hLong
    unfold complete at hSearched ⊢
    rw [if_pos hNotFound, hOf.pattern, hOf.replacement, hOf.kmpPrefix] at hSearched ⊢
    obtain ⟨hTable, hLength⟩ := isTable_borderTable old
    obtain ⟨hShorter, hBorder⟩ := hTable.entry (q := old.length) (by omega) (by omega)
    rw [List.take_length] at hBorder
    have hStart : seen.length + 1 - old.length + old.length = seen.length + 1 := by omega
    refine ⟨?_, ?_, ?_, ?_, ?_, ?_, ?_⟩
    · rw [List.length_append, List.length_singleton]
      exact hSearched
    · intro _
      exact hBorder.trans hSuffix
    · intro _ k hk hTake
      have hWithin : old.take k <:+ old.take (old.length - 1 + 1) := by
        rw [Nat.sub_add_cancel hPos, List.take_length]
        apply List.suffix_of_suffix_length_le hTake hSuffix
        rw [List.length_take]
        omega
      have hSome : (borderTable old)[old.length - 1]? =
          some ((borderTable old).getD (old.length - 1) 0) := by
        rw [List.getD_eq_getElem?_getD, List.getElem?_eq_getElem (by omega)]
        rfl
      exact isLongest_borderTable old _ _ hSome k (by omega) hWithin
    · intro hAgain
      cases hAgain
    · intro _
      have hOccurs := occursAt_of_suffix hSuffix
      rw [List.length_append, List.length_singleton] at hOccurs
      refine ⟨hOccurs, fun i hi => not_occursAt_snoc h (hNone i) ?_⟩
      intro hLast
      have hi' : i < seen.length + 1 - old.length := hi
      omega
    · intro _ _
      refine ⟨fun i hi => not_occursAt_snoc h (hNone i) ?_, ?_⟩
      · intro hLast
        have hi' : seen.length + 1 - old.length < i := hi
        omega
      · show _ = _ :: ((seen ++ [byte]).drop (seen.length + 1 - old.length + old.length)).map _
        have hDrop : (seen ++ [byte]).drop (seen.length + 1) = [] :=
          List.drop_eq_nil_of_le (by simp)
        rw [hStart, hDrop]
        rfl
    · intro hAmbiguous
      have hStill : (m.search byte).ambiguous = true := hAmbiguous
      rw [hNotAmbiguous] at hStill
      cases hStill
  · rw [if_neg hFull] at hSearched ⊢
    have hNoEnd : ¬old <:+ seen ++ [byte] := fun hSuffix => hFull (hWhole.mpr hSuffix)
    refine ⟨?_, fun _ => hMatched, fun _ k hk => hMax k (Nat.le_of_lt hk), ?_, ?_, ?_, ?_⟩
    · rw [List.length_append, List.length_singleton]
      exact hSearched
    · intro _
      exact ⟨fun i => not_occursAt_snoc h (hNone i) fun _ => hNoEnd, rfl⟩
    · intro hFound
      rw [hNotFound] at hFound
      cases hFound
    · intro hFound
      rw [hNotFound] at hFound
      cases hFound
    · intro hAmbiguous
      rw [hNotAmbiguous] at hAmbiguous
      cases hAmbiguous

theorem Tracked.searchOn (hTracked : Tracked old new seen m made) (hActive : m.stopped = false)
    (hFound : m.found = true) (byte : UInt8) :
    Tracked old new (seen ++ [byte]) (m.step byte seen.length).1
      (made ++ (m.step byte seen.length).2) := by
  have hUnique : m.ambiguous = false := hTracked.searched.stopped.symm.trans hActive
  have hPos := List.length_pos_iff.mpr h
  obtain ⟨hOnly, hMade⟩ := hTracked.only hFound hUnique
  obtain ⟨hEnd, -⟩ := hTracked.searched.after hFound
  have hFirst := hTracked.first_snoc h hFound byte
  have hNext := advance_whole hTracked.searched.partly (hTracked.matched hUnique)
    (hTracked.maximal hUnique) byte
  have hSearched := (step_spec hTracked.searched byte).1
  have hq : (m.searchOn byte).q = advance old (borderTable old) byte m.q := by
    rw [StreamingMatcher.searchOn, hTracked.searched.pattern, hTracked.searched.kmpPrefix]
  rw [← hq] at hNext
  obtain ⟨hMatched, hMax, hWhole⟩ := hNext
  rw [step, if_neg (by rw [hActive]; decide), if_neg (by rw [hFound]; decide),
    hTracked.searched.pattern] at hSearched ⊢
  by_cases hFull : (m.searchOn byte).q = old.length
  · rw [if_pos hFull] at hSearched ⊢
    have hSuffix := hWhole.mp hFull
    have hLong := hSuffix.length_le
    rw [List.length_append, List.length_singleton] at hLong
    have hFoundOn : (m.searchOn byte).found = true := hFound
    have hPattern : (m.searchOn byte).pattern = old := hTracked.searched.pattern
    unfold complete at hSearched ⊢
    rw [if_neg (by rw [hFoundOn]; decide), hPattern] at hSearched ⊢
    have hOccurs := occursAt_of_suffix hSuffix
    rw [List.length_append, List.length_singleton] at hOccurs
    refine ⟨?_, ?_, ?_, ?_, fun _ => hFirst, ?_, ?_⟩
    · rw [List.length_append, List.length_singleton]
      exact hSearched
    · intro hActive
      cases hActive
    · intro hActive
      cases hActive
    · intro hBefore
      have hStill : m.found = false := hBefore
      rw [hFound] at hStill
      cases hStill
    · intro _ hActive
      cases hActive
    · intro _
      refine ⟨hFound, ?_, hOccurs, fun i hAfter hBefore => ?_⟩
      · show m.matchByte < seen.length + 1 - old.length
        omega
      · apply not_occursAt_snoc h (hOnly i hAfter)
        intro hLast
        have hBefore' : i < seen.length + 1 - old.length := hBefore
        omega
  · rw [if_neg hFull] at hSearched ⊢
    have hNoEnd : ¬old <:+ seen ++ [byte] := fun hSuffix => hFull (hWhole.mpr hSuffix)
    refine ⟨?_, fun _ => hMatched, fun _ k hk => hMax k (Nat.le_of_lt hk), ?_, fun _ => hFirst, ?_,
      ?_⟩
    · rw [List.length_append, List.length_singleton]
      exact hSearched
    · intro hBefore
      have hStill : m.found = false := hBefore
      rw [hFound] at hStill
      cases hStill
    · intro _ _
      refine ⟨fun i hAfter => not_occursAt_snoc h (hOnly i hAfter) fun _ => hNoEnd, ?_⟩
      show made ++ [.appendByte byte] = _ :: ((seen ++ [byte]).drop (m.matchByte + old.length)).map _
      rw [hMade, List.drop_append_of_le_length hEnd, List.map_append, List.cons_append]
      rfl
    · intro hAmbiguous
      have hStill : m.ambiguous = true := hAmbiguous
      rw [hUnique] at hStill
      cases hStill

theorem step_tracked (hTracked : Tracked old new seen m made) (byte : UInt8) :
    Tracked old new (seen ++ [byte]) (m.step byte seen.length).1
      (made ++ (m.step byte seen.length).2) := by
  by_cases hStopped : m.stopped = true
  · have hStep : m.step byte seen.length = (m, []) := by rw [step, if_pos hStopped]
    rw [hStep, List.append_nil]
    exact hTracked.stopped h hStopped byte
  · have hActive : m.stopped = false := by simpa using hStopped
    by_cases hFound : m.found = true
    · exact hTracked.searchOn h hActive hFound byte
    · exact hTracked.search h hActive (by simpa using hFound) byte

theorem feed_tracked (hTracked : Tracked old new seen m made) (bytes : List UInt8) :
    Tracked old new (seen ++ bytes) (m.feed seen.length bytes)
      (made ++ m.calls seen.length bytes) := by
  induction bytes generalizing m seen made with
  | nil =>
    rw [calls, List.append_nil, List.append_nil]
    exact hTracked
  | cons byte rest ih =>
    have hRest := ih (step_tracked h hTracked byte)
    rw [List.append_assoc, List.append_assoc, List.length_append, List.length_singleton] at hRest
    exact hRest

end

/-! ## What it finds -/

def handed (source : List UInt8) : List WriterCall → List UInt8
  | [] => []
  | .begin prefixBytes replacement :: rest =>
    source.take prefixBytes ++ replacement ++ handed source rest
  | .appendByte byte :: rest => byte :: handed source rest
  | .enable _ :: rest => handed source rest

theorem handed_appendByte (source bytes : List UInt8) :
    handed source (bytes.map WriterCall.appendByte) = bytes := by
  induction bytes with
  | nil => rfl
  | cons byte rest ih => rw [List.map_cons, handed, ih]

/-- A matcher that was fed a source: whether and where its pattern occurs first, where next,
and, if it occurs once, what was handed to the candidate. -/
theorem feed_finds (first : UInt8) (rest new source : List UInt8) :
    let old := first :: rest
    let m := (StreamingMatcher.new old new).feed 0 source
    (m.found = true ↔ ∃ i, OccursAt old source i) ∧
    (m.found = true → OccursAt old source m.matchByte ∧
      (∀ i, i < m.matchByte → ¬OccursAt old source i) ∧ m.span = old) ∧
    (m.ambiguous = true ↔ ∃ i j, i < j ∧ OccursAt old source i ∧ OccursAt old source j) ∧
    (m.ambiguous = true → OccursAt old source m.secondMatchByte ∧ m.matchByte < m.secondMatchByte ∧
      ∀ i, m.matchByte < i → i < m.secondMatchByte → ¬OccursAt old source i) ∧
    (m.found = true → m.ambiguous = false →
      handed source ((StreamingMatcher.new old new).calls 0 source) =
        source.take m.matchByte ++ new ++ source.drop (m.matchByte + old.length)) := by
  dsimp only
  generalize hOld : first :: rest = old
  have hMore : old ≠ [] := by rw [← hOld]; simp
  have hTracked := feed_tracked hMore (tracked_new new hMore) source
  rw [List.nil_append, List.nil_append, List.length_nil] at hTracked
  generalize (StreamingMatcher.new old new).feed 0 source = m at hTracked
  generalize (StreamingMatcher.new old new).calls 0 source = made at hTracked
  refine ⟨⟨?_, ?_⟩, ?_, ⟨?_, ?_⟩, ?_, ?_⟩
  · intro hFound
    exact ⟨_, (hTracked.first hFound).1⟩
  · intro ⟨i, hOccurs⟩
    by_contra hNotFound
    exact (hTracked.nothing (by simpa using hNotFound)).1 i hOccurs
  · intro hFound
    obtain ⟨hOccurs, hBefore⟩ := hTracked.first hFound
    exact ⟨hOccurs, hBefore, (hTracked.searched.after hFound).2⟩
  · intro hAmbiguous
    obtain ⟨hFound, hOrder, hOccurs, -⟩ := hTracked.second hAmbiguous
    exact ⟨_, _, hOrder, (hTracked.first hFound).1, hOccurs⟩
  · intro ⟨i, j, hOrder, hI, hJ⟩
    by_contra hNotAmbiguous
    have hUnique : m.ambiguous = false := by simpa using hNotAmbiguous
    have hFound : m.found = true := by
      by_contra hNotFound
      exact (hTracked.nothing (by simpa using hNotFound)).1 i hI
    obtain ⟨-, hBefore⟩ := hTracked.first hFound
    obtain ⟨hAfter, -⟩ := hTracked.only hFound hUnique
    have hStart : m.matchByte ≤ i := Nat.not_lt.mp fun hLess => hBefore i hLess hI
    exact hAfter j (Nat.lt_of_le_of_lt hStart hOrder) hJ
  · intro hAmbiguous
    obtain ⟨-, hOrder, hOccurs, hBetween⟩ := hTracked.second hAmbiguous
    exact ⟨hOccurs, hOrder, hBetween⟩
  · intro hFound hUnique
    rw [(hTracked.only hFound hUnique).2, handed, handed_appendByte]

end StreamingMatcher

end SimplexAgent.Textedit
