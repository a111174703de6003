import SimplexAgent.Fileio.StagedReplace
import SimplexAgent.Verified.Borders

/-!
# The scan of a streaming edit

`textedit/stream_edit_scan.hpp`: a matcher that sees the bytes of a file one after the other,
and the buffered writer of the candidate it calls. The matcher keeps the bytes that may still
belong to a match; once there is one, the writer gets the prefix copied from the file, the
replacement, and every byte that follows.

The matcher is a function from its state to its state and the calls it makes, in their order;
no call has an answer it would look at.
-/

namespace SimplexAgent.Textedit

open Verified.Interruptible Verified.Borders Fileio

/-! ## The writer -/

/-- `CandidateWriter`; the replacement it writes to is part of the state of the operation. -/
structure CandidateWriter where
  limit : Nat
  written : Nat
  buffer : List UInt8
  enabled : Bool

/-- `kFlushBytes`. -/
def flushBytes : Nat := 64 * 1024

namespace CandidateWriter

/-- `flush`. -/
def flush (writer : CandidateWriter) : Work CandidateWriter :=
  if writer.buffer.length ≠ 0 then do
    write writer.buffer
    pure { writer with buffer := [] }
  else pure writer

/-- What does not fit into the buffer: the buffer goes first, and bytes that would fill it go
directly. -/
def spill (writer : CandidateWriter) (bytes : List UInt8) : Work CandidateWriter := do
  let writer ← writer.flush
  if flushBytes ≤ bytes.length then do
    write bytes
    pure writer
  else pure { writer with buffer := writer.buffer ++ bytes }

/-- `append`. -/
def append (writer : CandidateWriter) (bytes : List UInt8) : Work CandidateWriter :=
  if writer.enabled = false then pure writer
  else if writer.limit - writer.written < bytes.length then
    Prog.raise (.lengthError "edited text exceeds the configured byte limit")
  else if writer.buffer.length + bytes.length < flushBytes then
    pure { writer with
      written := writer.written + bytes.length
      buffer := writer.buffer ++ bytes }
  else spill { writer with written := writer.written + bytes.length } bytes

/-- `begin`, with what the copies and reads of the prefix return. -/
def begin (kernel reads : List SourceReply) (writer : CandidateWriter) (prefixBytes : Nat)
    (replacement : List UInt8) : Work CandidateWriter :=
  if writer.enabled = false then pure writer
  else if writer.limit < prefixBytes then
    Prog.raise (.lengthError "edited text exceeds the configured byte limit")
  else do
    copyPrefix kernel reads prefixBytes
    append { writer with written := prefixBytes } replacement

end CandidateWriter

/-! ## The matcher -/

inductive WriterCall where
  | begin (prefixBytes : Nat) (replacement : List UInt8)
  | appendByte (byte : UInt8)
  | enable (value : Bool)

/-- `StreamingMatcher`. -/
structure StreamingMatcher where
  pattern : List UInt8
  replacement : List UInt8
  /-- `kmp_prefix` of the pattern. -/
  kmpPrefix : List Nat
  pending : List UInt8
  span : List UInt8
  begin : Nat
  q : Nat
  matchByte : Nat
  secondMatchByte : Nat
  found : Bool
  ambiguous : Bool
  stopped : Bool

namespace StreamingMatcher

/-- The constructor. The table of `kmp_prefix` is that of the borders: a turn of its loop falls
back to a shorter one or sets an entry. -/
def new (pattern replacement : List UInt8) : StreamingMatcher where
  pattern := pattern
  replacement := replacement
  kmpPrefix := borderTable pattern
  pending := []
  span := []
  begin := 0
  q := 0
  matchByte := 0
  secondMatchByte := 0
  found := false
  ambiguous := false
  stopped := false

/-- `drop`. -/
def drop (m : StreamingMatcher) (count : Nat) : StreamingMatcher :=
  if 4096 < m.begin + count ∧ m.pending.length < (m.begin + count) * 2 then
    { m with pending := m.pending.drop (m.begin + count), begin := 0 }
  else { m with begin := m.begin + count }

/-- The loop that gives up what the byte does not continue, and drops it. That the table leads
to something shorter is asked here because the recursion ends by it. -/
def giveUp (m : StreamingMatcher) (byte : UInt8) : StreamingMatcher :=
  if m.q = 0 then m
  else if m.pattern[m.q]? = some byte then m
  else if _hShorter : m.kmpPrefix.getD (m.q - 1) 0 < m.q then
    giveUp { m.drop (m.q - m.kmpPrefix.getD (m.q - 1) 0) with
      q := m.kmpPrefix.getD (m.q - 1) 0 } byte
  else m
termination_by m.q

def search (m : StreamingMatcher) (byte : UInt8) : StreamingMatcher :=
  if m.pattern[(m.giveUp byte).q]? = some byte then
    { m.giveUp byte with
      pending := (m.giveUp byte).pending ++ [byte]
      q := (m.giveUp byte).q + 1 }
  else m.giveUp byte

def searchOn (m : StreamingMatcher) (byte : UInt8) : StreamingMatcher :=
  { m with q := advance m.pattern m.kmpPrefix byte m.q }

/-- `complete`. -/
def complete (m : StreamingMatcher) (offset : Nat) : StreamingMatcher × List WriterCall :=
  if m.found = false then
    ({ m with
        found := true
        matchByte := offset + 1 - m.pattern.length
        span := (m.pending.drop m.begin).take m.pattern.length
        pending := []
        begin := 0
        q := m.kmpPrefix.getD (m.pattern.length - 1) 0 },
      [.begin (offset + 1 - m.pattern.length) m.replacement])
  else
    ({ m with
        ambiguous := true
        secondMatchByte := offset + 1 - m.pattern.length
        q := 0
        stopped := true },
      [.enable false])

/-- `step`. -/
def step (m : StreamingMatcher) (byte : UInt8) (offset : Nat) :
    StreamingMatcher × List WriterCall :=
  if m.stopped = true then (m, [])
  else if m.found = false then
    if (m.search byte).q = m.pattern.length then (m.search byte).complete offset
    else (m.search byte, [])
  else if (m.searchOn byte).q = m.pattern.length then
    (((m.searchOn byte).complete offset).1,
      .appendByte byte :: ((m.searchOn byte).complete offset).2)
  else (m.searchOn byte, [.appendByte byte])

/-- The matcher after some bytes, from an offset on. -/
def feed (m : StreamingMatcher) (offset : Nat) : List UInt8 → StreamingMatcher
  | [] => m
  | byte :: rest => feed (m.step byte offset).1 (offset + 1) rest

end StreamingMatcher

/-! ## What the matcher keeps -/

namespace StreamingMatcher

def Pending (m : StreamingMatcher) (bytes : List UInt8) : Prop :=
  m.begin ≤ m.pending.length ∧ m.pending.drop m.begin = bytes

structure Of (old new : List UInt8) (m : StreamingMatcher) : Prop where
  pattern : m.pattern = old
  replacement : m.replacement = new
  kmpPrefix : m.kmpPrefix = borderTable old

/-- The matcher after so many bytes. Before the first match, the pending bytes are the matched
front part of the pattern. -/
structure Searched (old new : List UInt8) (count : Nat) (m : StreamingMatcher) : Prop
    extends Of old new m where
  partly : m.q < old.length
  before : m.found = false → m.q ≤ count ∧ m.Pending (old.take m.q) ∧ m.ambiguous = false
  after : m.found = true → m.matchByte + old.length ≤ count ∧ m.span = old
  stopped : m.stopped = m.ambiguous

variable {old new : List UInt8} {m : StreamingMatcher}

theorem searched_new (h : old.length ≠ 0) : Searched old new 0 (StreamingMatcher.new old new) where
  pattern := rfl
  replacement := rfl
  kmpPrefix := rfl
  partly := Nat.pos_of_ne_zero h
  before _ := ⟨Nat.le_refl 0, ⟨Nat.le_refl 0, rfl⟩, rfl⟩
  after hFound := by cases hFound
  stopped := rfl

theorem drop_eq (m : StreamingMatcher) (count : Nat) :
    m.drop count = { m with pending := (m.drop count).pending, begin := (m.drop count).begin } := by
  unfold drop
  split <;> rfl

theorem Pending.drop {bytes : List UInt8} (h : m.Pending bytes) {count : Nat}
    (hCount : count ≤ bytes.length) : (m.drop count).Pending (bytes.drop count) := by
  obtain ⟨hInside, hBytes⟩ := h
  have hLength : bytes.length = m.pending.length - m.begin := by rw [← hBytes, List.length_drop]
  unfold StreamingMatcher.drop
  split
  · refine ⟨Nat.zero_le _, ?_⟩
    show (m.pending.drop (m.begin + count)).drop 0 = bytes.drop count
    rw [List.drop_zero, ← hBytes, List.drop_drop]
  · refine ⟨?_, ?_⟩
    · show m.begin + count ≤ m.pending.length
      omega
    · rw [← hBytes, List.drop_drop]

theorem giveUp_spec (h : Of old new m) (hPartly : m.q < old.length)
    (hPending : m.Pending (old.take m.q)) (byte : UInt8) :
    (m.giveUp byte).q ≤ m.q ∧ (m.giveUp byte).Pending (old.take (m.giveUp byte).q) ∧
      m.giveUp byte = { m with
        pending := (m.giveUp byte).pending
        begin := (m.giveUp byte).begin
        q := (m.giveUp byte).q } := by
  generalize hq : m.q = q
  induction q using Nat.strongRecOn generalizing m with
  | _ q ih =>
    rw [giveUp]
    split
    · exact ⟨Nat.le_of_eq hq, hPending, rfl⟩
    split
    · exact ⟨Nat.le_of_eq hq, hPending, rfl⟩
    rename_i hZero _
    obtain ⟨hTable, hLength⟩ := isTable_borderTable old
    obtain ⟨hShorter, hBorder⟩ := hTable.entry (q := m.q) hZero (by omega)
    rw [← h.kmpPrefix] at hShorter hBorder
    rw [dif_pos hShorter]
    generalize hNext : m.kmpPrefix.getD (m.q - 1) 0 = next at hShorter hBorder ⊢
    have hBorder' : old.take next = (old.take m.q).drop (m.q - next) := by
      rw [List.suffix_iff_eq_drop.mp hBorder, List.length_take, List.length_take,
        Nat.min_eq_left (by omega), Nat.min_eq_left (by omega)]
    have hDropped : (m.drop (m.q - next)).Pending (old.take next) := by
      rw [hBorder']
      exact hPending.drop (by rw [List.length_take]; omega)
    have hOf : Of old new { m.drop (m.q - next) with q := next } := by
      rw [drop_eq]
      exact ⟨h.pattern, h.replacement, h.kmpPrefix⟩
    obtain ⟨hLe, hKept, hSame⟩ := ih next (by omega) hOf (by show next < _; omega) hDropped rfl
    refine ⟨by omega, hKept, ?_⟩
    rw [drop_eq] at hSame ⊢
    exact hSame

/-- What one byte does to the matcher and which calls it makes: the two phases of the search,
with and without a match that ends here, and nothing once it has stopped. -/
inductive Stepped (new : List UInt8) (length count : Nat) (byte : UInt8) (m m' : StreamingMatcher) :
    List WriterCall → Prop where
  | stopped (hAmbiguous : m.ambiguous = true) (hSame : m' = m) : Stepped new length count byte m m' []
  | searching (hBefore : m.found = false) (hActive : m.ambiguous = false) (hAfter : m'.found = false)
      (hUnique : m'.ambiguous = false) : Stepped new length count byte m m' []
  | matched (hBefore : m.found = false) (hActive : m.ambiguous = false) (hAfter : m'.found = true)
      (hUnique : m'.ambiguous = false) (hEnd : m'.matchByte + length = count + 1) :
      Stepped new length count byte m m' [.begin m'.matchByte new]
  | suffix (hBefore : m.found = true) (hActive : m.ambiguous = false) (hAfter : m'.found = true)
      (hUnique : m'.ambiguous = false) (hStart : m'.matchByte = m.matchByte) :
      Stepped new length count byte m m' [.appendByte byte]
  | again (hBefore : m.found = true) (hActive : m.ambiguous = false)
      (hAmbiguous : m'.ambiguous = true) :
      Stepped new length count byte m m' [.appendByte byte, .enable false]

theorem search_spec {count : Nat} (h : Searched old new count m) (hBefore : m.found = false)
    (byte : UInt8) :
    Of old new (m.search byte) ∧ (m.search byte).q ≤ old.length ∧ (m.search byte).q ≤ count + 1 ∧
      (m.search byte).Pending (old.take (m.search byte).q) ∧
      (m.search byte).found = false ∧ (m.search byte).ambiguous = false ∧
      (m.search byte).stopped = false := by
  obtain ⟨hCount, hPending, hUnique⟩ := h.before hBefore
  obtain ⟨hLe, hKept, hSame⟩ := giveUp_spec h.toOf h.partly hPending byte
  have hPartly := h.partly
  have hStopped := h.stopped.trans hUnique
  have hOf : Of old new (m.giveUp byte) := by
    rw [hSame]
    exact ⟨h.pattern, h.replacement, h.kmpPrefix⟩
  have hFlags : (m.giveUp byte).found = false ∧ (m.giveUp byte).ambiguous = false ∧
      (m.giveUp byte).stopped = false := by
    rw [hSame]
    exact ⟨hBefore, hUnique, hStopped⟩
  unfold search
  split
  · rename_i hNext
    rw [h.pattern] at hNext
    refine ⟨⟨hOf.pattern, hOf.replacement, hOf.kmpPrefix⟩, ?_, ?_, ?_, hFlags⟩
    · show _ + 1 ≤ _
      omega
    · show _ + 1 ≤ _
      omega
    · obtain ⟨hInside, hBytes⟩ := hKept
      refine ⟨?_, ?_⟩
      · show (m.giveUp byte).begin ≤ ((m.giveUp byte).pending ++ [byte]).length
        rw [List.length_append]
        omega
      · show ((m.giveUp byte).pending ++ [byte]).drop (m.giveUp byte).begin = old.take (_ + 1)
        rw [List.drop_append_of_le_length hInside, hBytes, take_succ_of_getElem? hNext]
  · exact ⟨hOf, by omega, by omega, hKept, hFlags⟩

theorem searchOn_spec {count : Nat} (h : Searched old new count m) (byte : UInt8) :
    (m.searchOn byte).q ≤ old.length ∧ m.searchOn byte = { m with q := (m.searchOn byte).q } := by
  obtain ⟨hTable, hLength⟩ := isTable_borderTable old
  have hPartly := h.partly
  obtain ⟨hLe, _⟩ := advance_spec hTable byte (q := m.q) (by omega)
  refine ⟨?_, rfl⟩
  show advance m.pattern m.kmpPrefix byte m.q ≤ old.length
  rw [h.pattern, h.kmpPrefix]
  omega

theorem restart_lt (h : old.length ≠ 0) : (borderTable old).getD (old.length - 1) 0 < old.length := by
  obtain ⟨hTable, hLength⟩ := isTable_borderTable old
  exact (hTable.entry h (Nat.le_of_eq hLength.symm)).1

theorem step_spec {count : Nat} (h : Searched old new count m) (byte : UInt8) :
    Searched old new (count + 1) (m.step byte count).1 ∧
      Stepped new old.length count byte m (m.step byte count).1 (m.step byte count).2 := by
  have hNonempty : old.length ≠ 0 := by
    have := h.partly
    omega
  unfold step
  split
  · rename_i hStopped
    have hAmbiguous := h.stopped.symm.trans hStopped
    refine ⟨⟨h.toOf, h.partly, ?_, ?_, h.stopped⟩, .stopped hAmbiguous rfl⟩
    · intro hBefore
      rw [(h.before hBefore).2.2] at hAmbiguous
      cases hAmbiguous
    · intro hAfter
      obtain ⟨hEnd, hSpan⟩ := h.after hAfter
      exact ⟨Nat.le_succ_of_le hEnd, hSpan⟩
  rename_i hStopped
  have hUnique : m.ambiguous = false := by rw [← h.stopped]; simpa using hStopped
  split
  · rename_i hBefore
    obtain ⟨hOf, hLe, hCount, hPending, hNotFound, hNotAmbiguous, hGoing⟩ :=
      search_spec h hBefore byte
    split
    · rename_i hWhole
      rw [h.pattern] at hWhole
      unfold complete
      rw [if_pos hNotFound, hOf.pattern, hOf.replacement, hOf.kmpPrefix]
      refine ⟨⟨⟨rfl, rfl, rfl⟩, restart_lt hNonempty, ?_, ?_, ?_⟩, ?_⟩
      · intro hAgain
        cases hAgain
      · intro _
        refine ⟨?_, ?_⟩
        · show count + 1 - old.length + old.length ≤ count + 1
          omega
        · show ((m.search byte).pending.drop (m.search byte).begin).take old.length = old
          rw [hPending.2, hWhole, List.take_length, List.take_length]
      · exact hGoing.trans hNotAmbiguous.symm
      · refine .matched hBefore hUnique rfl hNotAmbiguous ?_
        show count + 1 - old.length + old.length = count + 1
        omega
    · rename_i hPart
      rw [h.pattern] at hPart
      refine ⟨⟨hOf, Nat.lt_of_le_of_ne hLe hPart, ?_, ?_, hGoing.trans hNotAmbiguous.symm⟩,
        .searching hBefore hUnique hNotFound hNotAmbiguous⟩
      · intro _
        exact ⟨hCount, hPending, hNotAmbiguous⟩
      · intro hFound
        rw [hNotFound] at hFound
        cases hFound
  · rename_i hNotBefore
    have hAfter : m.found = true := by simpa using hNotBefore
    obtain ⟨hEnd, hSpan⟩ := h.after hAfter
    obtain ⟨hLe, hSame⟩ := searchOn_spec h byte
    generalize hq : (m.searchOn byte).q = q at hSame hLe
    rw [hSame]
    split
    · unfold complete
      rw [if_neg (by rw [hAfter]; decide)]
      refine ⟨⟨⟨h.pattern, h.replacement, h.kmpPrefix⟩, Nat.pos_of_ne_zero hNonempty, ?_, ?_, rfl⟩,
        .again hAfter hUnique rfl⟩
      · intro hBefore
        rw [hAfter] at hBefore
        cases hBefore
      · intro _
        exact ⟨Nat.le_succ_of_le hEnd, hSpan⟩
    · rename_i hPart
      refine ⟨⟨⟨h.pattern, h.replacement, h.kmpPrefix⟩, ?_, ?_, ?_, h.stopped⟩,
        .suffix hAfter hUnique hAfter hUnique rfl⟩
      · have hNot : q ≠ old.length := by
          rw [← h.pattern]
          exact hPart
        show q < old.length
        omega
      · intro hBefore
        rw [hAfter] at hBefore
        cases hBefore
      · intro _
        exact ⟨Nat.le_succ_of_le hEnd, hSpan⟩

theorem feed_append (m : StreamingMatcher) (offset : Nat) (front back : List UInt8) :
    m.feed offset (front ++ back) = (m.feed offset front).feed (offset + front.length) back := by
  induction front generalizing m offset with
  | nil => rfl
  | cons byte rest ih =>
    show feed (m.step byte offset).1 (offset + 1) (rest ++ back) = _
    rw [ih, List.length_cons, Nat.add_assoc, Nat.add_comm 1]
    rfl

/-- The invariant of a scan. -/
theorem feed_spec {count : Nat} (h : Searched old new count m) (bytes : List UInt8) :
    Searched old new (count + bytes.length) (m.feed count bytes) := by
  induction bytes generalizing count m with
  | nil => exact h
  | cons byte rest ih =>
    rw [List.length_cons, Nat.add_comm rest.length 1, ← Nat.add_assoc]
    exact ih (step_spec h byte).1

end StreamingMatcher

namespace CandidateWriter

/-- What a call of the matcher does. -/
def perform (kernel reads : List SourceReply) (writer : CandidateWriter) :
    WriterCall → Work CandidateWriter
  | .begin prefixBytes replacement => writer.begin kernel reads prefixBytes replacement
  | .appendByte byte => writer.append [byte]
  | .enable value => pure { writer with enabled := value }

def performAll (kernel reads : List SourceReply) (writer : CandidateWriter) :
    List WriterCall → Work CandidateWriter
  | [] => pure writer
  | call :: rest => do
    let writer ← writer.perform kernel reads call
    performAll kernel reads writer rest

end CandidateWriter

end SimplexAgent.Textedit
