import SimplexAgent.Core.Compact
import SimplexAgent.Verified.Utf8Decode

/-!
# Splitting a stream into bounded lines

`LineSplitter` of `util/ring.ts`. Its constructor accepts positive limits only; what follows holds
for every limit. The decoder of the platform is any whose output does not depend on how the bytes
come in.

What the object holds is a function of the open line, the text since the last LF
(`LineSplitter.Open`): the carriage return at its end, if there is one, is held back, and of the
rest the characters that fit are kept and the other bytes counted. So how a text is cut makes no
difference (`run_lines`).
-/

namespace SimplexAgent.Hub

open Verified

/-- `TextDecoder` with `stream`: bytes may be decoded piece by piece. -/
structure StreamDecoder where
  State : Type
  start : State
  feed : State → List UInt8 → List Char × State
  finish : State → List Char
  feed_nil : ∀ state, feed state [] = ([], state)
  feed_append : ∀ state a b, feed state (a ++ b) =
    ((feed state a).1 ++ (feed (feed state a).2 b).1, (feed (feed state a).2 b).2)

def StreamDecoder.text (decoder : StreamDecoder) (bytes : List UInt8) : List Char :=
  (decoder.feed decoder.start bytes).1 ++ decoder.finish (decoder.feed decoder.start bytes).2

/-- A text without the byte order mark at its front. -/
def dropMark : List Char → List Char
  | [] => []
  | c :: rest => if c = '\ufeff' then rest else c :: rest

/-- `new TextDecoder('utf8')`: it drops a byte order mark at the start of the stream. -/
def textDecoder : StreamDecoder where
  State := Bool × Option Utf8Decode.Pending
  start := (false, none)
  feed state bytes :=
    let decoded := Utf8Decode.feed state.2 bytes
    if state.1 then (decoded.1, true, decoded.2)
    else (dropMark decoded.1, !decoded.1.isEmpty, decoded.2)
  finish state := Utf8Decode.finish state.2
  feed_nil := by
    rintro ⟨started, pending⟩
    cases started <;> rfl
  feed_append := by
    rintro ⟨started, pending⟩ a b
    rw [Utf8Decode.feed_append]
    cases started with
    | true => rfl
    | false =>
      dsimp only
      obtain ⟨text, after⟩ := Utf8Decode.feed pending a
      cases text with
      | nil => rfl
      | cons c rest =>
        by_cases hMark : c = '\ufeff'
        · simp [dropMark, hMark]
        · simp [dropMark, hMark]

/-- `SplitLine`; `kept` is its prefix. -/
structure SplitLine where
  kept : List Char
  omittedBytes : Nat

/-- `formatLogLine`. -/
def formatLogLine (line : SplitLine) : List Char :=
  if 0 < line.omittedBytes then
    line.kept ++ (" [hub: truncated " ++ toString line.omittedBytes ++ " UTF-8 bytes]").toList
  else line.kept

/-- `LineSplitter`, with what was handed to `onLine`. -/
structure LineSplitter where
  maxLineBytes : Nat
  pending : List Char := []
  pendingBytes : Nat := 0
  truncatedBytes : Nat := 0
  omittedBytes : Nat := 0
  pendingCarriageReturn : Bool := false
  lines : List (List Char × SplitLine) := []

namespace LineSplitter

/-- `appendContent`. -/
def appendContent (s : LineSplitter) (segment : List Char) : LineSplitter :=
  let encoded := Utf8.encode segment
  if s.omittedBytes = 0 then
    if encoded.length ≤ s.maxLineBytes - s.pendingBytes then
      { s with pending := s.pending ++ segment, pendingBytes := s.pendingBytes + encoded.length }
    else
      let cut := Core.cutBack encoded (s.maxLineBytes - s.pendingBytes)
      { s with
        pending := s.pending ++ Utf8Decode.decode (encoded.take cut)
        pendingBytes := s.pendingBytes + cut
        omittedBytes := s.omittedBytes + (encoded.length - cut)
        truncatedBytes := s.truncatedBytes + (encoded.length - cut) }
  else
    { s with
      omittedBytes := s.omittedBytes + encoded.length
      truncatedBytes := s.truncatedBytes + encoded.length }

/-- `emit`. -/
def emit (s : LineSplitter) : LineSplitter :=
  let details : SplitLine := ⟨s.pending, s.omittedBytes⟩
  { s with
    pending := []
    pendingBytes := 0
    omittedBytes := 0
    pendingCarriageReturn := false
    lines := s.lines ++ [(formatLogLine details, details)] }

def endsInReturn (segment : List Char) : Bool := segment.getLast? = some '\r'

def dropReturn (segment : List Char) : List Char :=
  if endsInReturn segment then segment.dropLast else segment

/-- What `consume` does with the text up to a line feed. -/
def consumeSegment (s : LineSplitter) (segment : List Char) : LineSplitter :=
  let s := if s.pendingCarriageReturn && !segment.isEmpty then s.appendContent ['\r'] else s
  { s with pendingCarriageReturn := endsInReturn segment }.appendContent (dropReturn segment)

def isFeed (c : Char) : Bool := c = '\n'

/-- The loop of `consume`. -/
def consumeLoop : Nat → LineSplitter → List Char → LineSplitter
  | 0, s, _ => s
  | fuel + 1, s, text =>
    if text.isEmpty then s
    else
      let s := s.consumeSegment (text.takeWhile fun c => !isFeed c)
      match text.dropWhile fun c => !isFeed c with
      | [] => s
      | _ :: rest => consumeLoop fuel s.emit rest

/-- `consume`: every round takes a character at least. -/
def consume (s : LineSplitter) (text : List Char) : LineSplitter := consumeLoop text.length s text

/-- `push`, chunk by chunk. -/
def pushAll (decoder : StreamDecoder) :
    LineSplitter → decoder.State → List (List UInt8) → LineSplitter × decoder.State
  | s, state, [] => (s, state)
  | s, state, chunk :: rest =>
    pushAll decoder (s.consume (decoder.feed state chunk).1) (decoder.feed state chunk).2 rest

/-- `flush`. -/
def flush (s : LineSplitter) (last : List Char) : LineSplitter :=
  let s := s.consume last
  if !s.pending.isEmpty || 0 < s.omittedBytes || s.pendingCarriageReturn then s.emit else s

end LineSplitter

def runSplitter (decoder : StreamDecoder) (limit : Nat) (chunks : List (List UInt8)) :
    LineSplitter :=
  let pushed := LineSplitter.pushAll decoder ⟨limit, [], 0, 0, 0, false, []⟩ decoder.start chunks
  pushed.1.flush (decoder.finish pushed.2)

/-! ## What it should be -/

/-- The longest run of whole characters within a limit, and the number of the other bytes. -/
structure Longest (limit : Nat) (content : List Char) (line : SplitLine) : Prop where
  kept : line.kept <+: content
  within : (Utf8.encode line.kept).length ≤ limit
  longest : ∀ other, other <+: content → (Utf8.encode other).length ≤ limit → other <+: line.kept
  omitted : (Utf8.encode line.kept).length + line.omittedBytes = (Utf8.encode content).length

def contents (text : List Char) : List (List Char) :=
  let cut := Segments.cut LineSplitter.isFeed text
  (cut.1 ++ if cut.2.isEmpty then [] else [cut.2]).map LineSplitter.dropReturn

def splitLine (limit : Nat) (content : List Char) : SplitLine :=
  ⟨Utf8.takeBytes limit content,
    (Utf8.encode content).length - (Utf8.encode (Utf8.takeBytes limit content)).length⟩

theorem splitLine_longest (limit : Nat) (content : List Char) :
    Longest limit content (splitLine limit content) := by
  obtain ⟨rest, hRest⟩ := Utf8.takeBytes_isPrefix content limit
  refine ⟨⟨rest, hRest⟩, Utf8.takeBytes_length content limit, ?_, ?_⟩
  · rintro other ⟨after, rfl⟩ hOther
    exact Utf8.isPrefix_takeBytes after hOther
  · have hLength := congrArg (fun text => (Utf8.encode text).length) hRest
    simp only [Utf8.encode_append, List.length_append] at hLength
    simp only [splitLine]
    omega

namespace LineSplitter

variable {s : LineSplitter} {content : List Char}

/-- Of the line so far, what fits is kept and the rest counted. -/
structure Holds (s : LineSplitter) (content : List Char) : Prop where
  pending : s.pending = (splitLine s.maxLineBytes content).kept
  pendingBytes : s.pendingBytes = (Utf8.encode s.pending).length
  omitted : s.omittedBytes = (splitLine s.maxLineBytes content).omittedBytes

theorem appendContent_of_fits (segment : List Char) (hFits : s.omittedBytes = 0) :
    s.appendContent segment =
      let piece := splitLine (s.maxLineBytes - s.pendingBytes) segment
      { s with
        pending := s.pending ++ piece.kept
        pendingBytes := s.pendingBytes + (Utf8.encode piece.kept).length
        omittedBytes := s.omittedBytes + piece.omittedBytes
        truncatedBytes := s.truncatedBytes + piece.omittedBytes } := by
  unfold appendContent splitLine
  by_cases hAll : (Utf8.encode segment).length ≤ s.maxLineBytes - s.pendingBytes
  · simp only [if_pos hFits, if_pos hAll, Utf8.takeBytes_of_le hAll, Nat.sub_self, Nat.add_zero]
  · have hCut := Nat.le_of_lt (Nat.not_le.mp hAll)
    have hDecode : Utf8Decode.decode ((Utf8.encode segment).take
        (Core.cutBack (Utf8.encode segment) (s.maxLineBytes - s.pendingBytes))) =
        Utf8.takeBytes (s.maxLineBytes - s.pendingBytes) segment := by
      rw [Core.take_cutBack hCut, Utf8Decode.decode_encode]
    simp only [if_pos hFits, if_neg hAll, hDecode]
    rw [Core.length_cutBack hCut]

theorem Holds.appendContent (h : s.Holds content) (segment : List Char) :
    (s.appendContent segment).Holds (content ++ segment) := by
  obtain ⟨hPending, hBytes, hOmitted⟩ := h
  by_cases hFits : s.omittedBytes = 0
  · -- The line fits so far: what is held is all of it.
    rw [hFits] at hOmitted
    have hLength : (Utf8.encode content).length ≤ s.maxLineBytes :=
      (Nat.le_of_sub_eq_zero hOmitted.symm).trans (Utf8.takeBytes_length content _)
    have hAll : s.pending = content := hPending.trans (Utf8.takeBytes_of_le hLength)
    rw [hAll] at hBytes
    have hSplit := Utf8.takeBytes_append_of_le segment hLength
    rw [appendContent_of_fits segment hFits, hAll, hBytes, hFits]
    refine ⟨hSplit.symm, ?_, ?_⟩
    · exact (Utf8.encode_append _ _ ▸ List.length_append).symm
    · show 0 + ((Utf8.encode segment).length - _) =
        (Utf8.encode (content ++ segment)).length - (Utf8.encode (Utf8.takeBytes _ _)).length
      rw [hSplit, Utf8.encode_append, Utf8.encode_append, List.length_append, List.length_append]
      omega
  · have hOver : s.maxLineBytes < (Utf8.encode content).length := by
      by_contra hLength
      rw [splitLine, Utf8.takeBytes_of_le (by omega), Nat.sub_self] at hOmitted
      exact hFits hOmitted
    have hSplit := Utf8.takeBytes_append_of_lt segment hOver
    have hKept := Utf8.takeBytes_length content s.maxLineBytes
    rw [LineSplitter.appendContent, if_neg hFits]
    refine ⟨hPending.trans hSplit.symm, hBytes, ?_⟩
    show s.omittedBytes + _ =
      (Utf8.encode (content ++ segment)).length - (Utf8.encode (Utf8.takeBytes _ _)).length
    rw [hSplit, hOmitted, Utf8.encode_append, List.length_append]
    show (Utf8.encode content).length - (Utf8.encode (Utf8.takeBytes _ content)).length + _ = _
    omega

theorem appendContent_frame (s : LineSplitter) (segment : List Char) :
    (s.appendContent segment).maxLineBytes = s.maxLineBytes ∧
      (s.appendContent segment).lines = s.lines ∧
      (s.appendContent segment).pendingCarriageReturn = s.pendingCarriageReturn := by
  unfold LineSplitter.appendContent
  dsimp only
  split_ifs <;> exact ⟨rfl, rfl, rfl⟩

/-! ## Lines -/

def lineOf (limit : Nat) (line : List Char) : List Char × SplitLine :=
  (formatLogLine (splitLine limit (dropReturn line)), splitLine limit (dropReturn line))

structure After (limit : Nat) (s : LineSplitter) (closed : List (List Char))
    (line : List Char) : Prop where
  maxLineBytes : s.maxLineBytes = limit
  lines : s.lines = closed.map (lineOf limit)
  holds : s.Holds (dropReturn line)
  carriage : s.pendingCarriageReturn = endsInReturn line

theorem dropReturn_append (line : List Char) {segment : List Char} (h : segment ≠ []) :
    endsInReturn (line ++ segment) = endsInReturn segment ∧
      dropReturn (line ++ segment) = line ++ dropReturn segment := by
  have hEnds : endsInReturn (line ++ segment) = endsInReturn segment := by
    rw [endsInReturn, endsInReturn, List.getLast?_append_of_ne_nil _ h]
  refine ⟨hEnds, ?_⟩
  rw [dropReturn, dropReturn, hEnds, List.dropLast_append_of_ne_nil h]
  split_ifs <;> rfl

theorem dropReturn_restore (line : List Char) (h : endsInReturn line = true) :
    dropReturn line ++ ['\r'] = line := by
  have hLast : line.getLast? = some '\r' := of_decide_eq_true h
  rw [dropReturn, if_pos h]
  exact List.dropLast_append_getLast? _ hLast

variable {limit : Nat} {closed : List (List Char)} {line : List Char}

/-- The return held back goes in front of what follows it. -/
theorem After.consumeSegment (h : After limit s closed line) {segment : List Char}
    (hSegment : segment ≠ []) : After limit (s.consumeSegment segment) closed (line ++ segment) := by
  obtain ⟨hLimit, hLines, hHolds, hCarriage⟩ := h
  obtain ⟨hEnds, hDrop⟩ := dropReturn_append line hSegment
  have hCarried : (if s.pendingCarriageReturn && !segment.isEmpty then s.appendContent ['\r']
      else s).Holds line := by
    rw [List.isEmpty_eq_false_iff.mpr hSegment, hCarriage, Bool.not_false, Bool.and_true]
    by_cases hReturn : endsInReturn line = true
    · rw [if_pos hReturn]
      have hBefore := hHolds.appendContent ['\r']
      rwa [dropReturn_restore line hReturn] at hBefore
    · rw [if_neg hReturn]
      rwa [dropReturn, if_neg hReturn] at hHolds
  obtain ⟨hLimit', hLines', -⟩ := appendContent_frame s ['\r']
  unfold LineSplitter.consumeSegment
  generalize hNext : (if s.pendingCarriageReturn && !segment.isEmpty then s.appendContent ['\r']
    else s) = next at hCarried
  have hFrame : next.maxLineBytes = limit ∧ next.lines = closed.map (lineOf limit) := by
    rw [← hNext]
    split_ifs
    · exact ⟨hLimit'.trans hLimit, hLines'.trans hLines⟩
    · exact ⟨hLimit, hLines⟩
  obtain ⟨hMax, hKept, hFlag⟩ := appendContent_frame
    { next with pendingCarriageReturn := endsInReturn segment } (dropReturn segment)
  refine ⟨hMax.trans hFrame.1, hKept.trans hFrame.2, ?_, hFlag.trans hEnds.symm⟩
  rw [hDrop]
  exact Holds.appendContent (s := { next with pendingCarriageReturn := endsInReturn segment })
    ⟨hCarried.pending, hCarried.pendingBytes, hCarried.omitted⟩ (dropReturn segment)

theorem after_emit (hLimit : s.maxLineBytes = limit) (hLines : s.lines = closed.map (lineOf limit))
    (hHolds : s.Holds (dropReturn line)) : After limit s.emit (closed ++ [line]) [] := by
  subst hLimit
  refine ⟨rfl, ?_, ⟨rfl, rfl, rfl⟩, rfl⟩
  show s.lines ++ [(formatLogLine ⟨s.pending, s.omittedBytes⟩, ⟨s.pending, s.omittedBytes⟩)] = _
  rw [List.map_append, hLines, hHolds.pending, hHolds.omitted]
  rfl

theorem After.emit_consumeSegment (h : After limit s closed line) (segment : List Char) :
    After limit (s.consumeSegment segment).emit (closed ++ [line ++ segment]) [] := by
  by_cases hSegment : segment = []
  · -- A return that is held back stands before the LF.
    obtain ⟨hLimit, hLines, hHolds, -⟩ := h
    have hNothing : s.consumeSegment [] =
        { s with pendingCarriageReturn := false }.appendContent [] := by
      rw [LineSplitter.consumeSegment, List.isEmpty_nil, Bool.not_true, Bool.and_false]
      rfl
    obtain ⟨hMax, hKept, -⟩ := appendContent_frame { s with pendingCarriageReturn := false } []
    have hSame := Holds.appendContent (s := { s with pendingCarriageReturn := false })
      ⟨hHolds.pending, hHolds.pendingBytes, hHolds.omitted⟩ []
    rw [List.append_nil] at hSame
    rw [hSegment, List.append_nil, hNothing]
    exact after_emit (hMax.trans hLimit) (hKept.trans hLines) hSame
  · obtain ⟨hLimit, hLines, hHolds, -⟩ := h.consumeSegment hSegment
    exact after_emit hLimit hLines hHolds

theorem After.consumeLoop (fuel : Nat) : ∀ {s : LineSplitter} {closed : List (List Char)}
    {line text : List Char}, text.length ≤ fuel → (∀ c ∈ line, isFeed c = false) →
    After limit s closed line →
      After limit (consumeLoop fuel s text) (closed ++ (Segments.cut isFeed (line ++ text)).1)
        (Segments.cut isFeed (line ++ text)).2 := by
  induction fuel with
  | zero =>
    intro s closed line text hFuel hOpen h
    have hNone : text = [] := List.length_eq_zero_iff.mp (by omega)
    rw [hNone, List.append_nil, Segments.cut_of_open hOpen, List.append_nil]
    exact h
  | succ fuel ih =>
    intro s closed line text hFuel hOpen h
    rw [LineSplitter.consumeLoop]
    by_cases hEmpty : text = []
    · rw [hEmpty, List.append_nil, Segments.cut_of_open hOpen, List.append_nil]
      exact h
    · rw [if_neg (by rwa [List.isEmpty_iff])]
      have hText := List.takeWhile_append_dropWhile (p := fun c => !isFeed c) (l := text)
      have hSegment : ∀ c ∈ text.takeWhile fun c => !isFeed c, isFeed c = false :=
        Segments.open_of_mem_takeWhile
      have hLine : ∀ c ∈ line ++ text.takeWhile fun c => !isFeed c, isFeed c = false :=
        fun c hc => (List.mem_append.mp hc).elim (hOpen c) (hSegment c)
      cases hRest : text.dropWhile fun c => !isFeed c with
      | nil =>
        rw [hRest, List.append_nil] at hText
        rw [hText] at hLine ⊢
        rw [Segments.cut_of_open hLine, List.append_nil]
        exact h.consumeSegment hEmpty
      | cons feed rest =>
        have hFeed := Segments.terminator_of_dropWhile_eq_cons hRest
        rw [hRest] at hText
        have hLength := congrArg List.length hText
        rw [List.length_append, List.length_cons] at hLength
        have hCut := Segments.cut_segment rest hLine hFeed
        rw [List.append_assoc, hText] at hCut
        have hNext := @ih _ _ _ rest (by omega) (fun c hc => absurd hc List.not_mem_nil)
          (h.emit_consumeSegment (text.takeWhile fun c => !isFeed c))
        rw [List.append_assoc, List.singleton_append, List.nil_append] at hNext
        rw [hCut]
        exact hNext

/-! ## Streams -/

/-- What is held after a text is a function of the text. -/
def Reads (limit : Nat) (s : LineSplitter) (text : List Char) : Prop :=
  After limit s (Segments.cut isFeed text).1 (Segments.cut isFeed text).2

variable {text : List Char}

theorem Reads.consume (h : Reads limit s text) (more : List Char) :
    Reads limit (s.consume more) (text ++ more) := by
  rw [Reads, Segments.cut_append]
  exact h.consumeLoop more.length (Nat.le_refl _) (Segments.cut_tail_open isFeed text)

theorem Reads.pushAll (decoder : StreamDecoder) (chunks : List (List UInt8)) :
    ∀ {s : LineSplitter} {text : List Char} (state : decoder.State), Reads limit s text →
      Reads limit (pushAll decoder s state chunks).1
          (text ++ (decoder.feed state chunks.flatten).1) ∧
        (pushAll decoder s state chunks).2 = (decoder.feed state chunks.flatten).2 := by
  induction chunks with
  | nil =>
    intro s text state h
    rw [List.flatten_nil, decoder.feed_nil, List.append_nil]
    exact ⟨h, rfl⟩
  | cons chunk rest ih =>
    intro s text state h
    rw [List.flatten_cons, decoder.feed_append, ← List.append_assoc]
    exact ih (decoder.feed state chunk).2 (h.consume _)

theorem After.leaves (h : After limit s closed line) :
    (!s.pending.isEmpty || decide (0 < s.omittedBytes) || s.pendingCarriageReturn) =
      !line.isEmpty := by
  obtain ⟨-, -, hHolds, hCarriage⟩ := h
  by_cases hLine : line = []
  · subst hLine
    rw [hHolds.pending, hHolds.omitted, hCarriage]
    rfl
  · rw [List.isEmpty_eq_false_iff.mpr hLine]
    by_cases hReturn : endsInReturn line = true
    · rw [hCarriage, hReturn, Bool.or_true]
      rfl
    · have hSum := (splitLine_longest s.maxLineBytes line).omitted
      have hLength := Utf8.length_le_encode line
      have hPositive := List.length_pos_of_ne_nil hLine
      rw [dropReturn, if_neg hReturn] at hHolds
      rw [← hHolds.pending, ← hHolds.omitted] at hSum
      by_cases hPending : s.pending = []
      · rw [hPending, Utf8.encode_nil, List.length_nil] at hSum
        rw [decide_eq_true (show 0 < s.omittedBytes by omega), Bool.or_true]
        rfl
      · rw [List.isEmpty_eq_false_iff.mpr hPending]
        rfl

theorem Reads.flush (h : Reads limit s text) (last : List Char) :
    (s.flush last).lines = (contents (text ++ last)).map fun content =>
      (formatLogLine (splitLine limit content), splitLine limit content) := by
  have hRead : After limit (s.consume last) _ _ := h.consume last
  have hLeaves := hRead.leaves
  rw [LineSplitter.flush, contents, List.map_map]
  show (if (_ : Bool) = true then _ else _ : LineSplitter).lines = List.map (lineOf limit) _
  rw [hLeaves]
  by_cases hOpen : (Segments.cut isFeed (text ++ last)).2 = []
  · rw [hOpen]
    exact hRead.lines.trans (by rw [List.isEmpty_nil, if_pos rfl, List.append_nil])
  · rw [List.isEmpty_eq_false_iff.mpr hOpen]
    exact (after_emit hRead.maxLineBytes hRead.lines hRead.holds).lines

end LineSplitter

/-- **The same lines however the stream is cut**: one for each LF and one for what is left, each
without the return at its end, and cut where its characters stop fitting. -/
theorem runSplitter_lines (decoder : StreamDecoder) (limit : Nat) (chunks : List (List UInt8)) :
    (∃ details, List.Forall₂ (Longest limit) (contents (decoder.text chunks.flatten)) details ∧
      (runSplitter decoder limit chunks).lines =
        details.map fun line => (formatLogLine line, line)) ∧
      (runSplitter decoder limit chunks).lines =
        (runSplitter decoder limit [chunks.flatten]).lines := by
  have hLines (chunks : List (List UInt8)) : (runSplitter decoder limit chunks).lines =
      ((contents (decoder.text chunks.flatten)).map (splitLine limit)).map fun line =>
        (formatLogLine line, line) := by
    have hStart : LineSplitter.Reads limit ⟨limit, [], 0, 0, 0, false, []⟩ [] :=
      ⟨rfl, rfl, ⟨rfl, rfl, rfl⟩, rfl⟩
    obtain ⟨hRead, hState⟩ := hStart.pushAll decoder chunks decoder.start
    rw [runSplitter, hRead.flush, hState, List.map_map]
    rfl
  refine ⟨⟨_, ?_, hLines chunks⟩, by rw [hLines, hLines, List.flatten_singleton]⟩
  rw [List.forall₂_map_right_iff, List.forall₂_same]
  exact fun content _ => splitLine_longest limit content

def splitChunks : List (List UInt8) :=
  [[0xef, 0xbb], [0xbf, 97, 0xc3], [0xa9, 98, 99, 13], [10, 100]]

theorem runSplitter_lines_split : (runSplitter textDecoder 3 splitChunks).lines =
        (runSplitter textDecoder 3 [splitChunks.flatten]).lines ∧
      (runSplitter textDecoder 3 splitChunks).lines.map (fun line => String.ofList line.1) =
        ["aé [hub: truncated 2 UTF-8 bytes]", "d"] :=
  ⟨(runSplitter_lines textDecoder 3 splitChunks).2, by decide +kernel⟩

end SimplexAgent.Hub
