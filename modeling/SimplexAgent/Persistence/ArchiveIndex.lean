import SimplexAgent.Core.CompactBudget
import SimplexAgent.Tools.TextOutput

/-!
# The index of archived text

`index_archive` of `sqlite_archive_index.cpp`. A source is any string of bytes. Its search
projection has a blank for every byte that is NUL or inside no valid character, and is cut into
chunks that overlap.

The projection is the encoding of a text (`searchable_text`), so a cut that is moved back off the
continuation bytes moves by three bytes at most, and the chunks make progress and overlap by at
least 1024 bytes (`chunksFrom_spec`).
-/

namespace SimplexAgent.Persistence.ArchiveIndex

open Verified SimplexAgent.Core
open Utf8 (encode encode_append encode_cons Aligned isContinuation)

def chunkBytes : Nat := 4096

def overlapBytes : Nat := 256 * 4

/-- The second bytes that make a character too long, a surrogate or too large. -/
def refused (first second : UInt8) : Bool :=
  (first = 0xe0 && second < 0xa0) || (first = 0xed && 0xa0 ≤ second) ||
    (first = 0xf0 && second < 0x90) || (first = 0xf4 && 0x90 ≤ second)

/-- The bytes of a character by its first one. -/
def leadSize (first : UInt8) : Nat :=
  if first < 0x80 then 1
  else if 0xc2 ≤ first ∧ first ≤ 0xdf then 2
  else if 0xe0 ≤ first ∧ first ≤ 0xef then 3
  else if 0xf0 ≤ first ∧ first ≤ 0xf4 then 4
  else 0

/-- `scalar_size`, of the bytes from an offset on. -/
def scalarSize : List UInt8 → Nat
  | [] => 0
  | first :: rest =>
    if leadSize first = 0 ∨ rest.length + 1 < leadSize first then 0
    else if (rest.take (leadSize first - 1)).any fun byte => !isContinuation byte then 0
    else if 1 < leadSize first ∧ refused first (rest.headD 0) = true then 0
    else leadSize first

/-- The loop of `searchable`, that many bytes before the end of a character. -/
def searchableFrom : Nat → List UInt8 → List UInt8
  | _, [] => []
  | skip + 1, byte :: rest => byte :: searchableFrom skip rest
  | 0, byte :: rest =>
    if scalarSize (byte :: rest) = 0 ∨ byte = 0 then 32 :: searchableFrom 0 rest
    else byte :: searchableFrom (scalarSize (byte :: rest) - 1) rest

/-- `searchable`. -/
def searchable (text : List UInt8) : List UInt8 := searchableFrom 0 text

/-- Decrement while the byte there continues a character. Below zero the source would wrap. -/
def stepBack (text : List UInt8) : Nat → Option Nat
  | 0 => if (text[0]?).any isContinuation then none else some 0
  | n + 1 => if (text[n + 1]?).any isContinuation then stepBack text n else some (n + 1)

def chunkEnd (text : List UInt8) (start : Nat) : Option Nat := do
  let cut ← stepBack text (min (start + chunkBytes) text.length)
  if cut = text.length then return cut
  else if cut = 0 then none
  else
    match rfindNewline text (cut - 1) with
    | some newline => return if start + chunkBytes / 2 ≤ newline then newline + 1 else cut
    | none => return cut

structure Chunk where
  start : Nat
  stop : Nat
  deriving DecidableEq

/-- The loop over one text. Without fuel, and where the source would wrap, there is no result. -/
def chunksFrom (text : List UInt8) : Nat → Nat → Option (List Chunk)
  | 0, _ => none
  | fuel + 1, start =>
    if start < text.length then do
      let stop ← chunkEnd text start
      if stop = text.length then return [⟨start, stop⟩]
      else if stop < overlapBytes then none
      else
        let next ← stepBack text (stop - overlapBytes)
        let rest ← chunksFrom text fuel next
        return ⟨start, stop⟩ :: rest
    else some []

/-- A row of `archive_text_sources`. -/
structure Source where
  sourceId : String
  turnIndex : Option Int
  stepIndex : Option Int
  kind : String
  body : List UInt8

/-- A row of `archive_chunks`. -/
structure ChunkRow where
  archiveId : String
  sourceId : String
  turnIndex : Option Int
  stepIndex : Option Int
  kind : String
  startByte : Nat
  endByte : Nat
  sourceBytes : Nat
  body : List UInt8

def chunkRow (archiveId : String) (source : Source) (chunk : Chunk) : ChunkRow :=
  ⟨archiveId, source.sourceId, source.turnIndex, source.stepIndex, source.kind, chunk.start,
    chunk.stop, (searchable source.body).length,
    ((searchable source.body).drop chunk.start).take (chunk.stop - chunk.start)⟩

/-- `index_archive`: the rows that it inserts. -/
def indexArchive (archiveId : String) (sources : List Source) : Option (List ChunkRow) := do
  let rows ← sources.mapM fun source =>
    (chunksFrom (searchable source.body) ((searchable source.body).length + 1) 0).map fun chunks =>
      chunks.map (chunkRow archiveId source)
  return rows.flatten

/-! ## Characters in bytes -/

theorem follows_second (first byte : UInt8) :
    Tools.follows first 1 byte = (isContinuation byte && !refused first byte) := by
  rw [Tools.follows, refused, Bool.eq_iff_iff]
  simp only [Bool.and_eq_true, Utf8.isContinuation_iff, Bool.not_eq_true', ← Bool.not_eq_true,
    Bool.or_eq_true, decide_eq_true_eq, beq_iff_eq, gt_iff_lt, UInt8.lt_iff_toNat_lt,
    UInt8.le_iff_toNat_le, UInt8.reduceToNat, ← UInt8.toNat_inj, true_and]
  omega

theorem follows_later (first byte : UInt8) {index : Nat} (h : 1 < index) :
    Tools.follows first index byte = isContinuation byte := by
  rw [Tools.follows, Bool.eq_iff_iff, Utf8.isContinuation_iff]
  simp only [Bool.and_eq_true, Bool.not_eq_true', decide_eq_true_eq, beq_eq_false_iff_ne.mpr
    (show index ≠ 1 by omega), Bool.false_and, and_true, UInt8.le_iff_toNat_le, UInt8.reduceToNat]
  omega

theorem validFrom_later (first : UInt8) (n : Nat) : ∀ index rest, 1 < index →
    Tools.validFrom first index n rest =
      !(rest.take n).any fun byte => !isContinuation byte := by
  induction n with
  | zero => exact fun _ _ _ => rfl
  | succ n ih =>
    intro index rest hIndex
    cases rest with
    | nil => rfl
    | cons byte rest =>
      rw [Tools.validFrom, follows_later first byte hIndex, ih _ _ (by omega),
        List.take_succ_cons, List.any_cons, Bool.not_or, Bool.not_not]

theorem scalarSize_eq (first : UInt8) (rest : List UInt8) : scalarSize (first :: rest) =
    if Tools.isValid first rest = true ∧ leadSize first ≤ rest.length + 1 then leadSize first
    else 0 := by
  have hLead : Tools.sequenceLength first = leadSize first := rfl
  rw [scalarSize, Tools.isValid, hLead]
  by_cases hNone : leadSize first = 0 ∨ rest.length + 1 < leadSize first
  · rw [if_pos hNone, if_neg]
    rintro ⟨hValid, hLong⟩
    rw [Bool.and_eq_true, bne_iff_ne] at hValid
    omega
  · rw [if_neg hNone]
    obtain ⟨hSome, hLong⟩ := not_or.mp hNone
    rcases hSize : leadSize first with - | - | n
    · exact absurd hSize hSome
    · simp [Tools.validFrom]
    · cases rest with
      | nil => simp [hSize] at hLong
      | cons byte rest =>
        simp only [Nat.add_sub_cancel, Tools.validFrom, follows_second,
          validFrom_later first n 2 rest (by decide), List.take_succ_cons, List.any_cons,
          List.headD_cons]
        generalize ((rest.take n).any fun byte => !isContinuation byte) = broken
        have hRoom : n ≤ rest.length := by
          rw [hSize, List.length_cons] at hLong
          omega
        by_cases hByte : isContinuation byte = true <;>
          by_cases hRefused : refused first byte = true <;>
            cases broken <;> simp [hByte, hRefused, hRoom]

theorem scalarSize_le_length (bytes : List UInt8) : scalarSize bytes ≤ bytes.length := by
  cases bytes with
  | nil => exact Nat.le_refl 0
  | cons first rest =>
    rw [scalarSize_eq]
    split_ifs with h
    · exact h.2
    · exact Nat.zero_le _

theorem scalar_bytes {bytes : List UInt8} (h : scalarSize bytes ≠ 0) :
    ∃ c first more rest, bytes = first :: (more ++ rest) ∧
      String.utf8EncodeChar c = first :: more ∧ scalarSize bytes = more.length + 1 ∧
      isContinuation first = false ∧ (∀ byte ∈ more, isContinuation byte = true) ∧
      more.length ≤ 3 := by
  cases bytes with
  | nil => exact absurd rfl h
  | cons head tail =>
    rw [scalarSize_eq] at h ⊢
    have hValid := (ite_ne_right_iff.mp h).1
    rw [if_pos hValid]
    obtain ⟨c, hChar⟩ := (Utf8Display.wellFormed_iff _).mp
      ((Tools.isValid_iff head tail hValid.2).mp hValid.1)
    obtain ⟨first, more, hBytes, hFirst, hShort⟩ := Utf8.encodeChar_start c
    have hSize := congrArg List.length (hBytes.symm.trans hChar)
    rw [List.length_cons, List.length_take_of_le hValid.2] at hSize
    refine ⟨c, first, more, (head :: tail).drop (leadSize head), ?_, hBytes, hSize.symm, hFirst,
      ?_, hShort⟩
    · rw [← List.cons_append, ← hBytes, hChar]
      exact (List.take_append_drop _ _).symm
    · intro byte hMem
      rcases Utf8.encodeChar_cases c with ⟨single, hSingle⟩ | ⟨lead, others, hCons, -, hTail⟩
      · rw [hBytes, List.cons.injEq] at hSingle
        rw [hSingle.2] at hMem
        exact absurd hMem List.not_mem_nil
      · rw [hBytes, List.cons.injEq] at hCons
        exact (hTail byte (hCons.2 ▸ hMem)).1

theorem scalarSize_encode (c : Char) (rest : List UInt8) :
    scalarSize (String.utf8EncodeChar c ++ rest) = (String.utf8EncodeChar c).length := by
  have hWellFormed := Utf8Display.wellFormed_encode c
  cases hBytes : String.utf8EncodeChar c with
  | nil => exact absurd hBytes (Utf8Display.encode_ne_nil c)
  | cons first more =>
    have hFront : String.utf8EncodeChar c <+: first :: (more ++ rest) :=
      hBytes ▸ List.prefix_append (first :: more) rest
    have hAccepted : Tools.isValid first (more ++ rest) = true ∧
        leadSize first ≤ (more ++ rest).length + 1 := by
      by_contra hReplaced
      refine Tools.no_char_of_replace ?_ c hFront
      rwa [not_and_or, Bool.not_eq_true, Nat.not_le] at hReplaced
    rw [hBytes] at hWellFormed
    rw [List.cons_append, scalarSize_eq, if_pos hAccepted]
    exact Tools.sequenceLength_wellFormed hWellFormed

/-- A byte inside a valid character. -/
def InScalar (text : List UInt8) (i : Nat) : Prop :=
  ∃ start, start ≤ i ∧ i < start + scalarSize (text.drop start)

/-! ## The search projection -/

theorem length_searchableFrom (bytes : List UInt8) :
    ∀ skip, (searchableFrom skip bytes).length = bytes.length := by
  induction bytes with
  | nil => exact fun skip => by cases skip <;> rfl
  | cons byte rest ih =>
    intro skip
    cases skip with
    | zero =>
      rw [searchableFrom]
      split <;> rw [List.length_cons, ih, List.length_cons]
    | succ skip => rw [searchableFrom, List.length_cons, ih, List.length_cons]

theorem searchableFrom_skip (bytes : List UInt8) :
    ∀ {skip k : Nat}, k < skip → (searchableFrom skip bytes)[k]? = bytes[k]? := by
  induction bytes with
  | nil => exact fun {skip k} _ => by cases skip <;> rfl
  | cons byte rest ih =>
    intro skip k hLess
    cases skip with
    | zero => omega
    | succ skip =>
      cases k with
      | zero => rfl
      | succ k => exact ih (Nat.lt_of_succ_lt_succ hLess)

theorem searchableFrom_text (bytes : List UInt8) : ∀ skip, ∃ text : List Char,
    searchableFrom skip bytes = bytes.take skip ++ encode text ∧ '\x00' ∉ text := by
  induction bytes with
  | nil => exact fun skip => ⟨[], by cases skip <;> rfl, List.not_mem_nil⟩
  | cons byte rest ih =>
    intro skip
    cases skip with
    | succ skip =>
      obtain ⟨text, hText, hNul⟩ := ih skip
      exact ⟨text, by rw [searchableFrom, hText]; rfl, hNul⟩
    | zero =>
      rw [searchableFrom]
      by_cases hBad : scalarSize (byte :: rest) = 0 ∨ byte = 0
      · obtain ⟨text, hText, hNul⟩ := ih 0
        refine ⟨' ' :: text, ?_, by simp [hNul]⟩
        rw [if_pos hBad, hText, encode_cons]
        rfl
      · obtain ⟨hValid, hByte⟩ := not_or.mp hBad
        obtain ⟨text, hText, hNul⟩ := ih (scalarSize (byte :: rest) - 1)
        obtain ⟨c, first, more, after, hBytes, hChar, hSize, -⟩ := scalar_bytes hValid
        obtain ⟨rfl, rfl⟩ := List.cons.inj hBytes
        refine ⟨c :: text, ?_, ?_⟩
        · rw [if_neg hBad, hText, hSize, Nat.add_sub_cancel, List.take_left' rfl,
            encode_cons, hChar]
          rfl
        · rw [List.mem_cons, not_or]
          refine ⟨?_, hNul⟩
          rintro rfl
          have hZero : String.utf8EncodeChar '\x00' = [0] := by decide
          rw [hZero, List.cons.injEq] at hChar
          exact hByte hChar.1.symm

/-- A byte inside a valid character is kept, unless it is NUL. -/
theorem searchableFrom_keeps (bytes : List UInt8) :
    ∀ skip, (∀ byte ∈ bytes.take skip, isContinuation byte = true) →
      ∀ i start, start ≤ i → i < start + scalarSize (bytes.drop start) →
        (searchableFrom skip bytes)[i]? = bytes[i]?.map fun byte => if byte = 0 then 32 else byte := by
  induction bytes with
  | nil =>
    intro skip _ i start hLe hLess
    rw [List.drop_nil, scalarSize] at hLess
    omega
  | cons byte rest ih =>
    intro skip hSkip i start hLe hLess
    cases skip with
    | succ skip =>
      -- A character does not begin inside another one.
      cases start with
      | zero =>
        obtain ⟨c, first, more, after, hBytes, -, -, hFirst, -⟩ :=
          scalar_bytes (show scalarSize (byte :: rest) ≠ 0 by rw [List.drop_zero] at hLess; omega)
        obtain ⟨rfl, -⟩ := List.cons.inj hBytes
        rw [hSkip byte List.mem_cons_self] at hFirst
        cases hFirst
      | succ start =>
        obtain ⟨i, rfl⟩ : ∃ k, i = k + 1 := ⟨i - 1, by omega⟩
        exact ih skip (fun b hMem => hSkip b (List.mem_cons_of_mem _ hMem)) i start (by omega)
          (by rw [List.drop_succ_cons] at hLess; omega)
    | zero =>
      rw [searchableFrom]
      by_cases hBad : scalarSize (byte :: rest) = 0 ∨ byte = 0
      · rw [if_pos hBad]
        cases start with
        | zero =>
          rw [List.drop_zero] at hLess
          have hByte : byte = 0 := hBad.resolve_left (by omega)
          subst hByte
          have hOne : scalarSize (0 :: rest) = 1 := by simp [scalarSize, leadSize]
          obtain rfl : i = 0 := by omega
          rfl
        | succ start =>
          obtain ⟨i, rfl⟩ : ∃ k, i = k + 1 := ⟨i - 1, by omega⟩
          exact ih 0 (by simp) i start (by omega)
            (by rw [List.drop_succ_cons] at hLess; omega)
      · obtain ⟨hValid, hByte⟩ := not_or.mp hBad
        obtain ⟨c, first, more, after, hBytes, -, hSize, -, hMore, -⟩ := scalar_bytes hValid
        obtain ⟨rfl, rfl⟩ := List.cons.inj hBytes
        rw [if_neg hBad, hSize, Nat.add_sub_cancel]
        cases i with
        | zero => simp [hByte]
        | succ i =>
          rw [List.getElem?_cons_succ, List.getElem?_cons_succ]
          cases start with
          | zero =>
            rw [List.drop_zero, hSize] at hLess
            have hIn : i < more.length := by omega
            rw [searchableFrom_skip _ hIn, List.getElem?_append_left hIn,
              List.getElem?_eq_getElem hIn, Option.map_some]
            have hContinues := hMore _ (List.getElem_mem hIn)
            rw [if_neg]
            intro hZero
            rw [hZero] at hContinues
            exact absurd hContinues (by decide)
          | succ start =>
            refine ih more.length ?_ i start (by omega)
              (by rw [List.drop_succ_cons] at hLess; omega)
            rw [List.take_left' rfl]
            exact hMore

/-! ## Chunks of a text -/

variable {text : List Char}

theorem stepBack_text {n : Nat} (h : n ≤ (encode text).length) : ∃ cut,
    stepBack (encode text) n = some cut ∧ Aligned text cut ∧ cut ≤ n ∧ n ≤ cut + 3 ∧
      (n = (encode text).length → cut = n) := by
  have hCut : ∀ m, stepBack (encode text) m = some (cutBack (encode text) m) := by
    intro m
    induction m with
    | zero =>
      rw [stepBack, if_neg]
      · rfl
      · intro hInside
        obtain ⟨byte, hByte, hMore⟩ := Option.any_eq_true .. |>.mp hInside
        rw [Utf8.encode_start text byte hByte] at hMore
        cases hMore
    | succ m ih =>
      rw [stepBack, cutBack]
      split
      · exact ih
      · rfl
  have hKept : Aligned text (encode (Utf8.takeBytes n text)).length := by
    obtain ⟨after, hAfter⟩ := Utf8.takeBytes_isPrefix text n
    exact ⟨_, after, hAfter.symm, rfl⟩
  have hNear := le_cutBack hKept.start n (Utf8.takeBytes_length text n)
  have hLost := Utf8.le_takeBytes_length h
  have hLe := cutBack_le (encode text) n
  refine ⟨_, hCut n, cutBack_aligned text h, hLe, by omega, fun hEnd => ?_⟩
  have hWhole : Aligned text n := ⟨text, [], (List.append_nil _).symm, hEnd.symm⟩
  exact Nat.le_antisymm hLe (le_cutBack hWhole.start n (Nat.le_refl _))

theorem chunkEnd_text {start : Nat} (h : start < (encode text).length) : ∃ stop,
    chunkEnd (encode text) start = some stop ∧ Aligned text stop ∧ start < stop ∧
      stop ≤ start + chunkBytes ∧
      (stop = (encode text).length ∨ start + 2048 < stop ∧ stop < (encode text).length) := by
  obtain ⟨cut, hCut, hAligned, hLe, hNear, hEnd⟩ := stepBack_text
    (Nat.min_le_right (start + chunkBytes) (encode text).length)
  rw [chunkEnd, hCut]
  simp only [Option.bind_eq_bind, Option.bind_some, chunkBytes] at *
  by_cases hLast : cut = (encode text).length
  · rw [if_pos hLast]
    exact ⟨cut, rfl, hAligned, by omega, by omega, .inl hLast⟩
  · have hLong : start + 4093 ≤ cut := by omega
    rw [if_neg hLast, if_neg (by omega)]
    cases hLine : rfindNewline (encode text) (cut - 1) with
    | none => exact ⟨cut, rfl, hAligned, by omega, by omega, .inr (by omega)⟩
    | some newline =>
      dsimp only
      have hNewline := rfindNewline_le hLine
      by_cases hHalf : start + 4096 / 2 ≤ newline
      · refine ⟨newline + 1, congrArg some (if_pos hHalf),
          Utf8.aligned_after_newline (rfindNewline_some hLine), ?_, ?_, .inr ?_⟩ <;> omega
      · exact ⟨cut, congrArg some (if_neg hHalf), hAligned, by omega, by omega, .inr (by omega)⟩

structure Chunked (text : List Char) (start : Nat) (chunks : List Chunk) : Prop where
  bounds : ∀ chunk ∈ chunks, Aligned text chunk.start ∧ Aligned text chunk.stop ∧
    chunk.start < chunk.stop ∧ chunk.stop ≤ chunk.start + 4096
  later : ∀ chunk ∈ chunks, start ≤ chunk.start
  ascending : chunks.Pairwise (·.start < ·.start)
  overlap : start < (encode text).length → ∀ i n, start ≤ i → n ≤ 1024 →
    i + n ≤ (encode text).length → ∃ chunk ∈ chunks, chunk.start ≤ i ∧ i + n ≤ chunk.stop

/-- From every boundary the loop ends. -/
theorem chunksFrom_spec (fuel : Nat) : ∀ start, Aligned text start →
    (encode text).length < start + fuel →
      ∃ chunks, chunksFrom (encode text) fuel start = some chunks ∧
        Chunked text start chunks := by
  induction fuel with
  | zero =>
    intro start hStart hFuel
    obtain ⟨before, after, rfl, rfl⟩ := hStart
    rw [encode_append, List.length_append] at hFuel
    omega
  | succ fuel ih =>
    intro start hStart hFuel
    rw [chunksFrom]
    by_cases hMore : start < (encode text).length
    · obtain ⟨stop, hStop, hAligned, hForward, hSize, hLong⟩ := chunkEnd_text hMore
      rw [if_pos hMore, hStop]
      simp only [Option.bind_eq_bind, Option.bind_some]
      by_cases hLast : stop = (encode text).length
      · rw [if_pos hLast]
        refine ⟨_, rfl, ?_, ?_, List.pairwise_singleton _ _, ?_⟩
        · intro chunk hMem
          rw [List.mem_singleton.mp hMem]
          exact ⟨hStart, hAligned, hForward, hSize⟩
        · intro chunk hMem
          rw [List.mem_singleton.mp hMem]
        · exact fun _ i n hLow _ hHigh => ⟨_, List.mem_singleton_self _, hLow, hLast ▸ hHigh⟩
      · have hRoom := hLong.resolve_left hLast
        obtain ⟨next, hNext, hNextAligned, hBack, hNear, -⟩ :=
          stepBack_text (show stop - overlapBytes ≤ (encode text).length by omega)
        obtain ⟨rest, hRest, hChunked⟩ := ih next hNextAligned
          (by simp only [overlapBytes] at *; omega)
        rw [if_neg hLast, if_neg (by simp only [overlapBytes]; omega), hNext]
        simp only [Option.bind_some, hRest]
        simp only [overlapBytes] at hBack hNear
        refine ⟨_, rfl, ?_, ?_, List.Pairwise.cons ?_ hChunked.ascending, ?_⟩
        · intro chunk hMem
          rcases List.mem_cons.mp hMem with rfl | hMem
          · exact ⟨hStart, hAligned, hForward, hSize⟩
          · exact hChunked.bounds chunk hMem
        · intro chunk hMem
          rcases List.mem_cons.mp hMem with rfl | hMem
          · exact Nat.le_refl _
          · have hLater := hChunked.later chunk hMem
            omega
        · intro chunk hMem
          have hLater := hChunked.later chunk hMem
          dsimp only
          omega
        · intro _ i n hLow hShort hHigh
          -- What does not end in this chunk begins after the start of the next one.
          by_cases hHere : i + n ≤ stop
          · exact ⟨_, List.mem_cons_self, hLow, hHere⟩
          · obtain ⟨chunk, hMem, hChunk⟩ :=
              hChunked.overlap (by omega) i n (by omega) hShort hHigh
            exact ⟨chunk, List.mem_cons_of_mem _ hMem, hChunk⟩
    · rw [if_neg hMore]
      exact ⟨[], rfl, by simp, by simp, List.Pairwise.nil, fun h => absurd h hMore⟩

/-! ## The rows of a source -/

/-- What is indexed of a source. `substrings` leaves out the source without bytes only. -/
structure Indexed (archiveId : String) (source : Source) (rows : List ChunkRow) : Prop where
  length : (searchable source.body).length = source.body.length
  kept : ∀ i, InScalar source.body i → (searchable source.body)[i]? =
    source.body[i]?.map fun byte => if byte = 0 then 32 else byte
  bounds : ∃ text, searchable source.body = encode text ∧ '\x00' ∉ text ∧
    ∀ row ∈ rows, row = chunkRow archiveId source ⟨row.startByte, row.endByte⟩ ∧
      Aligned text row.startByte ∧ Aligned text row.endByte ∧
      row.startByte < row.endByte ∧ row.body.length ≤ 4096 ∧
      ∃ part, row.body = encode part ∧ '\x00' ∉ part
  ascending : rows.Pairwise (·.startByte < ·.startByte)
  covers : ∀ i, i < source.body.length → ∃ row ∈ rows, row.startByte ≤ i ∧ i < row.endByte
  substrings : source.body ≠ [] → ∀ i n, n ≤ 1024 → i + n ≤ source.body.length →
    ∃ row ∈ rows, row.startByte ≤ i ∧ i + n ≤ row.endByte
  queries : ∀ query : List Char, query ≠ [] → '\x00' ∉ query → (encode query).length ≤ 256 →
    encode query <:+: source.body → ∃ row ∈ rows, encode query <:+: row.body

theorem isInfix_drop_take {a l b : List UInt8} {start stop : Nat} (hStart : start ≤ a.length)
    (hStop : a.length + l.length ≤ stop) :
    l <:+: ((a ++ (l ++ b)).drop start).take (stop - start) := by
  have hDrop : (a ++ (l ++ b)).drop start = (a.drop start ++ l) ++ b := by
    rw [List.drop_append_of_le_length hStart, List.append_assoc]
  have hLength : (a.drop start ++ l).length ≤ stop - start := by
    rw [List.length_append, List.length_drop]
    omega
  rw [hDrop, List.take_append, List.take_of_length_le hLength]
  exact ⟨a.drop start, _, rfl⟩

theorem inScalar_encode (query : List Char) (rest : List UInt8) :
    ∀ k, k < (encode query).length → ∃ start, start ≤ k ∧
      k < start + scalarSize ((encode query ++ rest).drop start) := by
  induction query with
  | nil => exact fun k h => absurd h (Nat.not_lt_zero k)
  | cons c query ih =>
    intro k h
    rw [encode_cons, List.append_assoc]
    rw [encode_cons, List.length_append] at h
    by_cases hHere : k < (String.utf8EncodeChar c).length
    · refine ⟨0, Nat.zero_le k, ?_⟩
      rw [List.drop_zero, scalarSize_encode]
      omega
    · obtain ⟨start, hLe, hLess⟩ := ih (k - (String.utf8EncodeChar c).length) (by omega)
      refine ⟨(String.utf8EncodeChar c).length + start, by omega, ?_⟩
      rw [List.drop_append, List.drop_eq_nil_of_le (by omega), Nat.add_sub_cancel_left,
        List.nil_append]
      omega

theorem zero_not_mem_encode {query : List Char} (hNul : '\x00' ∉ query) :
    (0 : UInt8) ∉ encode query := by
  intro hMem
  obtain ⟨c, hChar, hByte⟩ := List.mem_flatMap.mp hMem
  obtain rfl : c = '\x00' := Dataclass.eq_of_mem_encodeChar hByte (by decide) rfl
  exact hNul hChar

theorem searchable_query {query : List Char} (hNul : '\x00' ∉ query) (a b : List UInt8) :
    ∃ a' b', searchable (a ++ (encode query ++ b)) = a' ++ (encode query ++ b') ∧
      a'.length = a.length := by
  generalize hSource : a ++ (encode query ++ b) = source
  have hLength : (searchable source).length = source.length := length_searchableFrom source 0
  have hSame : ((searchable source).drop a.length).take (encode query).length =
      encode query := by
    apply List.ext_getElem?
    intro k
    by_cases hIn : k < (encode query).length
    · obtain ⟨start, hLe, hLess⟩ := inScalar_encode query b k hIn
      have hKept := searchableFrom_keeps source 0 (by simp) (a.length + k) (a.length + start)
        (by omega) (by
          rw [← hSource, List.drop_append, List.drop_eq_nil_of_le (by omega),
            Nat.add_sub_cancel_left, List.nil_append]
          omega)
      rw [List.getElem?_take_of_lt hIn, List.getElem?_drop, searchable, hKept, ← hSource,
        List.getElem?_append_right (Nat.le_add_right _ _), Nat.add_sub_cancel_left,
        List.getElem?_append_left hIn, List.getElem?_eq_getElem hIn, Option.map_some, if_neg]
      intro hZero
      exact zero_not_mem_encode hNul (hZero ▸ List.getElem_mem hIn)
    · rw [List.getElem?_eq_none (by rw [List.length_take]; omega), List.getElem?_eq_none (by omega)]
  refine ⟨(searchable source).take a.length,
    ((searchable source).drop a.length).drop (encode query).length, ?_, ?_⟩
  · have hBack := List.take_append_drop (encode query).length ((searchable source).drop a.length)
    rw [hSame] at hBack
    rw [hBack, List.take_append_drop]
  · rw [List.length_take, hLength, ← hSource, List.length_append]
    omega

theorem searchable_text {text : List Char} (hNul : '\x00' ∉ text) :
    searchable (encode text) = encode text := by
  obtain ⟨front, back, hIs, hFront⟩ := searchable_query hNul [] []
  obtain rfl := List.eq_nil_of_length_eq_zero hFront
  rw [List.nil_append, List.nil_append, List.append_nil] at hIs
  have hLength : (searchable (encode text)).length = (encode text).length :=
    length_searchableFrom _ 0
  rw [hIs, List.length_append, Nat.add_eq_left] at hLength
  rw [hIs, List.eq_nil_of_length_eq_zero hLength, List.append_nil]

/-- **What is indexed as it is**: exactly the texts without NUL, and every projection. -/
theorem searchable_fixed (bytes : List UInt8) : (searchable bytes = bytes ↔
    ∃ text, bytes = encode text ∧ '\x00' ∉ text) ∧
      searchable (searchable bytes) = searchable bytes := by
  obtain ⟨text, hText, hNul⟩ := searchableFrom_text bytes 0
  replace hText : searchable bytes = encode text := hText
  refine ⟨⟨fun h => ⟨text, h ▸ hText, hNul⟩, ?_⟩, ?_⟩
  · rintro ⟨text, rfl, hNul⟩
    exact searchable_text hNul
  · rw [hText, searchable_text hNul]

theorem exists_part {start stop : Nat} (hStart : Aligned text start)
    (hStop : Aligned text stop) (h : start ≤ stop) : ∃ before part after,
    text = before ++ (part ++ after) ∧ (encode before).length = start ∧
      start + (encode part).length = stop ∧
      ((encode text).drop start).take (stop - start) = encode part := by
  obtain ⟨before, rest, hBefore, rfl⟩ := hStart
  obtain ⟨front, after, hFront, rfl⟩ := hStop
  obtain ⟨part, rfl⟩ : before <+: front := by
    rcases List.prefix_or_prefix_of_prefix ⟨rest, hBefore.symm⟩ ⟨after, hFront.symm⟩ with
      hPart | ⟨more, rfl⟩
    · exact hPart
    · have hMore := Utf8.length_le_encode more
      rw [encode_append, List.length_append] at h
      rw [List.eq_nil_of_length_eq_zero (show more.length = 0 by omega), List.append_nil]
  rw [List.append_assoc] at hFront
  refine ⟨before, part, after, hFront, rfl, ?_, ?_⟩
  · rw [encode_append, List.length_append]
  · rw [hFront, encode_append, encode_append, encode_append, List.drop_left' rfl,
      List.length_append, Nat.add_sub_cancel_left, List.take_left' rfl]

theorem indexed_chunks (archiveId : String) (source : Source) : ∃ chunks,
    chunksFrom (searchable source.body) ((searchable source.body).length + 1) 0 = some chunks ∧
      Indexed archiveId source (chunks.map (chunkRow archiveId source)) := by
  have hLength : (searchable source.body).length = source.body.length :=
    length_searchableFrom source.body 0
  obtain ⟨text, hText, hNul⟩ := searchableFrom_text source.body 0
  replace hText : searchable source.body = encode text := hText
  obtain ⟨chunks, hChunks, hChunked⟩ := chunksFrom_spec ((encode text).length + 1) 0
    (Utf8.aligned_zero text) (by omega)
  have hBytes : (encode text).length = source.body.length := hText ▸ hLength
  have hSome : source.body ≠ [] → 0 < (encode text).length := fun h =>
    hBytes ▸ List.length_pos_of_ne_nil h
  -- What lies within a chunk lies within its row.
  have hRow : ∀ i n, source.body ≠ [] → n ≤ 1024 → i + n ≤ source.body.length →
      ∃ row ∈ chunks.map (chunkRow archiveId source), row.startByte ≤ i ∧ i + n ≤ row.endByte := by
    intro i n hBody hShort hHigh
    obtain ⟨chunk, hMem, hIn⟩ := hChunked.overlap (hSome hBody) i n (Nat.zero_le i) hShort
      (hBytes ▸ hHigh)
    exact ⟨_, List.mem_map_of_mem hMem, hIn⟩
  have hNonempty : ∀ {i}, i < source.body.length → source.body ≠ [] := by
    intro i hIn hNil
    rw [hNil] at hIn
    exact absurd hIn (Nat.not_lt_zero i)
  refine ⟨chunks, hText ▸ hChunks, hLength, ?_, ⟨text, hText, hNul, ?_⟩, ?_, ?_, ?_, ?_⟩
  · rintro i ⟨start, hLe, hLess⟩
    exact searchableFrom_keeps source.body 0 (by simp) i start hLe hLess
  · intro row hMem
    obtain ⟨chunk, hChunk, rfl⟩ := List.mem_map.mp hMem
    obtain ⟨hStart, hStop, hForward, hSize⟩ := hChunked.bounds chunk hChunk
    obtain ⟨before, part, after, hSplit, -, -, hPart⟩ := exists_part hStart hStop hForward.le
    refine ⟨rfl, hStart, hStop, hForward, ?_, part, ?_, fun hMem => hNul ?_⟩
    · rw [chunkRow, List.length_take]
      omega
    · rw [chunkRow, hText, hPart]
    · rw [hSplit]
      exact List.mem_append_right _ (List.mem_append_left _ hMem)
  · rw [List.pairwise_map]
    exact hChunked.ascending
  · intro i hIn
    exact hRow i 1 (hNonempty hIn) (by decide) hIn
  · exact fun hBody i n => hRow i n hBody
  · rintro query hQuery hQueryNul hShort ⟨a, b, hBody⟩
    rw [List.append_assoc] at hBody
    obtain ⟨a', b', hSearch, hAt⟩ := searchable_query hQueryNul a b
    have hEnd := congrArg List.length hBody
    simp only [List.length_append] at hEnd
    have hPositive : 0 < (encode query).length :=
      Nat.lt_of_lt_of_le (List.length_pos_of_ne_nil hQuery) (Utf8.length_le_encode query)
    obtain ⟨row, hMem, hLow, hHigh⟩ := hRow a.length (encode query).length
      (hNonempty (i := a.length) (by omega)) (by omega) (by omega)
    refine ⟨row, hMem, ?_⟩
    obtain ⟨chunk, -, rfl⟩ := List.mem_map.mp hMem
    rw [chunkRow, ← hBody, hSearch]
    exact isInfix_drop_take (hAt.symm ▸ hLow) (hAt.symm ▸ hHigh)

/-- Indexing ends for every list of sources, with the rows of each. -/
theorem indexArchive_indexes (archiveId : String) (sources : List Source) : ∃ blocks,
    indexArchive archiveId sources = some blocks.flatten ∧
      List.Forall₂ (Indexed archiveId) sources blocks := by
  have hBlocks : ∃ blocks, (sources.mapM fun source =>
      (chunksFrom (searchable source.body) ((searchable source.body).length + 1) 0).map fun chunks =>
        chunks.map (chunkRow archiveId source)) = some blocks ∧
      List.Forall₂ (Indexed archiveId) sources blocks := by
    induction sources with
    | nil => exact ⟨[], rfl, .nil⟩
    | cons source rest ih =>
      obtain ⟨blocks, hRest, hAll⟩ := ih
      obtain ⟨chunks, hChunks, hIndexed⟩ := indexed_chunks archiveId source
      refine ⟨_ :: blocks, ?_, .cons hIndexed hAll⟩
      rw [List.mapM_cons, hChunks, hRest]
      rfl
  obtain ⟨blocks, hRows, hAll⟩ := hBlocks
  exact ⟨blocks, by rw [indexArchive, hRows]; rfl, hAll⟩

end SimplexAgent.Persistence.ArchiveIndex
