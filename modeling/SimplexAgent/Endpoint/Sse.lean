import SimplexAgent.Verified.Segments

/-!
# The SSE response handler

`SSEResponseHandler` of `endpoint/request.hpp`: raw chunks are appended to a byte
buffer, complete lines are moved to a window of parsed lines, and every run of
lines closed by a blank line is decoded and sent to the channel.

The handler is modelled field by field. `decoder` is the state of the subclass that
overrides `_handle_message`; the override itself is the parameter `handleMessage`,
which may throw. The channel is its `closed` flag and the sequence `sent` of
products it has accepted: `get` takes them from there in this order.

Line numbers are absolute. `base` is the number of lines that the rolling trim has
erased, so neither `nextLine` nor anything derived from it moves when the window
is cut.

The specification cuts the stream twice: at newlines into lines, and the parsed
lines at blank lines into events (`eventsOf`). The handler refines it for every
chunking and every window (`pump_spec`).
-/

namespace SimplexAgent.Endpoint.Sse

open Verified.Segments

/-- A field name and its value. -/
abbrev LineInfo := List UInt8 × List UInt8

def lf : UInt8 := 10
def cr : UInt8 := 13
def colon : UInt8 := 58
def space : UInt8 := 32

inductive SSEHandlerState where
  | running
  | resumable
  | error
  | done
  deriving DecidableEq, Repr

structure SSEResponseHandler (σ Product : Type) where
  buffer : List UInt8
  lines : List LineInfo
  nextLine : Nat
  base : Nat
  lineWindow : Nat
  state : SSEHandlerState
  closed : Bool
  sent : List Product
  decoder : σ

/-- What leaves `put` as an exception. -/
inductive PutFault (ε : Type) where
  /-- `SSEAborted`: the channel was closed, with the handler state at that time. -/
  | aborted (state : SSEHandlerState)
  /-- A framing or decoding fault, rethrown after the handler went to `ERROR`. -/
  | decode (fault : ε)

variable {σ Product ε : Type}

def construct (lineWindow : Nat) (decoder : σ) : SSEResponseHandler σ Product where
  buffer := []
  lines := []
  nextLine := 0
  base := 0
  lineWindow := lineWindow
  state := .running
  closed := false
  sent := []
  decoder := decoder

/-! ## Framing -/

def isBlank (line : LineInfo) : Bool := line.1.isEmpty

def isNewline (byte : UInt8) : Bool := byte == lf

def stripCarriageReturn (line : List UInt8) : List UInt8 :=
  if line.getLast? = some cr then line.dropLast else line

/-- One line of the field syntax; a comment gives nothing. -/
def parseLine (raw : List UInt8) : Option LineInfo :=
  let line := stripCarriageReturn raw
  if line.isEmpty then some ([], [])
  else if line.head? = some colon then none
  else if colon ∈ line then
    let field := line.takeWhile (· ≠ colon)
    let value := (line.dropWhile (· ≠ colon)).drop 1
    some (field, if value.head? = some space then value.drop 1 else value)
  else some (line, [])

/-- `_split_line`: move every complete line out of the buffer. -/
def splitLine (h : SSEResponseHandler σ Product) : SSEResponseHandler σ Product :=
  if h.buffer.any isNewline then
    splitLine { h with
      lines := h.lines ++ (parseLine (h.buffer.takeWhile fun b => !isNewline b)).toList
      buffer := (h.buffer.dropWhile fun b => !isNewline b).drop 1 }
  else h
termination_by h.buffer.length
decreasing_by
  rename_i hAny
  have hPos : 0 < h.buffer.length := by
    cases hBuffer : h.buffer with
    | nil => simp [hBuffer] at hAny
    | cons b bs => simp
  have hDrop := (List.dropWhile_sublist (fun b => !isNewline b) (l := h.buffer)).length_le
  simp only [List.length_drop]
  omega

def firstLine (h : SSEResponseHandler σ Product) : Nat :=
  (h.nextLine - h.base) + ((h.lines.drop (h.nextLine - h.base)).takeWhile isBlank).length

/-- The index, inside the window, of the delimiter that closes the next event. -/
def lastLine (h : SSEResponseHandler σ Product) : Nat :=
  firstLine h + ((h.lines.drop (firstLine h)).takeWhile fun l => !isBlank l).length

/--
`_next_message`: the lines of the next complete event, empty if there is none yet.
Skipped blank lines are committed to the cursor in both cases.
-/
def nextMessage (h : SSEResponseHandler σ Product) :
    SSEResponseHandler σ Product × List LineInfo :=
  if h.lines.length ≤ lastLine h then
    ({ h with nextLine := h.base + firstLine h }, [])
  else
    ({ h with nextLine := h.base + lastLine h + 1 },
      (h.lines.drop (firstLine h)).take (lastLine h - firstLine h))

/-- `_trim`: forget the oldest consumed lines beyond the window. -/
def trim (h : SSEResponseHandler σ Product) : SSEResponseHandler σ Product :=
  if h.lineWindow < h.nextLine - h.base then
    let drop := (h.nextLine - h.base) - h.lineWindow
    { h with lines := h.lines.drop drop, base := h.base + drop }
  else h

/-- `finish`: record the final state and close the channel. -/
def finish (h : SSEResponseHandler σ Product) (state : SSEHandlerState) :
    SSEResponseHandler σ Product :=
  { h with state := state, closed := true }

/-- `clear`: framing and channel start over, the configuration stays. -/
def clear (h : SSEResponseHandler σ Product) : SSEResponseHandler σ Product :=
  { h with
    buffer := []
    lines := []
    nextLine := 0
    base := 0
    state := .running
    closed := false
    sent := [] }

/-- Lines that the cursor has not passed. -/
def unread (h : SSEResponseHandler σ Product) : Nat := h.base + h.lines.length - h.nextLine

theorem nextLine_le_lastLine (h : SSEResponseHandler σ Product) :
    h.nextLine ≤ h.base + lastLine h := by
  unfold lastLine firstLine
  omega

theorem unread_nextMessage (h : SSEResponseHandler σ Product)
    (hMessage : (nextMessage h).2 ≠ []) : unread (nextMessage h).1 < unread h := by
  have hLast := nextLine_le_lastLine h
  unfold nextMessage at hMessage ⊢
  split at hMessage
  · exact absurd rfl hMessage
  · rename_i hSome
    simp only [hSome, if_false, unread]
    omega

section Put

variable (handleMessage : σ → List LineInfo → Except ε Product × σ)

/-- The message loop of `put`. -/
def deliver (h : SSEResponseHandler σ Product) :
    SSEResponseHandler σ Product × Option (PutFault ε) :=
  if (nextMessage h).2 = [] then ((nextMessage h).1, none)
  else
    match handleMessage h.decoder (nextMessage h).2 with
    | (.error e, decoder) =>
      (finish { (nextMessage h).1 with decoder := decoder } .error, some (.decode e))
    | (.ok product, decoder) =>
      if h.closed then
        ({ (nextMessage h).1 with decoder := decoder }, some (.aborted h.state))
      else
        deliver { (nextMessage h).1 with
          decoder := decoder
          sent := h.sent ++ [product] }
termination_by unread h
decreasing_by exact unread_nextMessage h (by assumption)

/-- `put`: frame one chunk, send the completed events, then trim. -/
def put (h : SSEResponseHandler σ Product) (payload : List UInt8) :
    SSEResponseHandler σ Product × Option (PutFault ε) :=
  match deliver handleMessage (splitLine { h with buffer := h.buffer ++ payload }) with
  | (h', none) => (trim h', none)
  | (h', some fault) => (h', some fault)

/-- The producer: chunks are put in order, and a `put` that throws ends the pump. -/
def pump (h : SSEResponseHandler σ Product) (chunks : List (List UInt8)) :
    SSEResponseHandler σ Product × Option (PutFault ε) :=
  feed (put handleMessage) h chunks

end Put

/-! ## The specification -/

/-- The closed, non-empty runs of lines. -/
def messages (lines : List LineInfo) : List (List LineInfo) :=
  (cut isBlank lines).1.filter fun m => !m.isEmpty

def linesOf (stream : List UInt8) : List LineInfo :=
  (cut isNewline stream).1.filterMap parseLine

def eventsOf (stream : List UInt8) : List (List LineInfo) := messages (linesOf stream)

/-- Decode events in order until one is refused. -/
def decodeAll (handleMessage : σ → List LineInfo → Except ε Product × σ) :
    σ → List (List LineInfo) → List Product × σ × Option ε
  | decoder, [] => ([], decoder, none)
  | decoder, m :: ms =>
    match handleMessage decoder m with
    | (.error e, decoder') => ([], decoder', some e)
    | (.ok product, decoder') =>
      let rest := decodeAll handleMessage decoder' ms
      (product :: rest.1, rest.2)

theorem linesOf_append (xs ys : List UInt8) : linesOf (xs ++ ys) =
      linesOf xs ++ (cut isNewline ((cut isNewline xs).2 ++ ys)).1.filterMap parseLine := by
  simp [linesOf, cut_append isNewline xs ys]

theorem messages_append (xs ys : List LineInfo) :
    messages (xs ++ ys) = messages xs ++ messages ((cut isBlank xs).2 ++ ys) := by
  simp [messages, cut_append isBlank xs ys]

theorem messages_dropWhile_blank (xs : List LineInfo) :
    messages (xs.dropWhile isBlank) = messages xs ∧
      (cut isBlank (xs.dropWhile isBlank)).2 = (cut isBlank xs).2 := by
  induction xs with
  | nil => exact ⟨rfl, rfl⟩
  | cons l ls ih =>
    by_cases hl : isBlank l = true
    · rw [List.dropWhile_cons_of_pos hl]
      refine ⟨ih.1.trans ?_, ih.2.trans ?_⟩
      · simp [messages, cut_cons_of_terminator ls hl]
      · simp [cut_cons_of_terminator ls hl]
    · rw [List.dropWhile_cons_of_neg hl]
      exact ⟨rfl, rfl⟩

theorem eventsOf_append (xs ys : List UInt8) :
    ∃ more, eventsOf (xs ++ ys) = eventsOf xs ++ more := by
  rw [eventsOf, linesOf_append, messages_append]
  exact ⟨_, rfl⟩

section Decode

variable (handleMessage : σ → List LineInfo → Except ε Product × σ)

theorem decodeAll_append (ms ns : List (List LineInfo)) :
    ∀ decoder : σ, (decodeAll handleMessage decoder ms).2.2 = none →
      decodeAll handleMessage decoder (ms ++ ns) = ((decodeAll handleMessage decoder ms).1 ++
            (decodeAll handleMessage (decodeAll handleMessage decoder ms).2.1 ns).1,
          (decodeAll handleMessage (decodeAll handleMessage decoder ms).2.1 ns).2) := by
  induction ms with
  | nil => intro decoder _; simp [decodeAll]
  | cons m ms ih =>
    intro decoder hNone
    simp only [decodeAll, List.cons_append] at hNone ⊢
    split at hNone
    · simp at hNone
    · rename_i product decoder' hHandle
      simp only [ih decoder' hNone, List.cons_append]

theorem decodeAll_append_of_fault (ms ns : List (List LineInfo)) (e : ε) :
    ∀ decoder : σ, (decodeAll handleMessage decoder ms).2.2 = some e →
      decodeAll handleMessage decoder (ms ++ ns) = decodeAll handleMessage decoder ms := by
  induction ms with
  | nil => intro decoder hSome; simp [decodeAll] at hSome
  | cons m ms ih =>
    intro decoder hSome
    simp only [decodeAll, List.cons_append] at hSome ⊢
    split at hSome
    · rfl
    · rename_i product decoder' hHandle
      simp only [ih decoder' hSome]

end Decode

/-! ## The handler refines the specification -/

/-- The lines the cursor has not passed. -/
def pending (h : SSEResponseHandler σ Product) : List LineInfo :=
  h.lines.drop (h.nextLine - h.base)

/-- The cursor stays inside the window: the invariant stated beside `_base`. -/
def CursorInWindow (h : SSEResponseHandler σ Product) : Prop :=
  h.base ≤ h.nextLine ∧ h.nextLine ≤ h.base + h.lines.length

theorem splitLine_eq (h : SSEResponseHandler σ Product) :
    splitLine h = { h with
      lines := h.lines ++ (cut isNewline h.buffer).1.filterMap parseLine
      buffer := (cut isNewline h.buffer).2 } := by
  fun_induction splitLine h with
  | case1 h hAny ih =>
    rw [ih, cut_of_any hAny]
    cases hParse : parseLine (h.buffer.takeWhile fun b => !isNewline b) <;>
      simp [hParse]
  | case2 h hAny =>
    have hOpen : ∀ b ∈ h.buffer, isNewline b = false := by simpa using hAny
    simp [cut_of_open hOpen]

theorem takeWhile_dropWhile_ne_nil (xs : List LineInfo) (hNe : xs.dropWhile isBlank ≠ []) :
    (xs.dropWhile isBlank).takeWhile (fun l => !isBlank l) ≠ [] := by
  have hHead := List.head_dropWhile_not isBlank hNe
  cases hDrop : xs.dropWhile isBlank with
  | nil => exact absurd hDrop hNe
  | cons l ls =>
    have hl : isBlank l = false := by simpa [hDrop] using hHead
    simp [hl]

section

variable (h : SSEResponseHandler σ Product)
include h

theorem drop_firstLine : h.lines.drop (firstLine h) = (pending h).dropWhile isBlank := by
  rw [firstLine, ← List.drop_drop, ← pending, drop_length_takeWhile]

theorem drop_lastLine : h.lines.drop (lastLine h) =
      ((pending h).dropWhile isBlank).dropWhile (fun l => !isBlank l) := by
  rw [lastLine, ← List.drop_drop, drop_length_takeWhile, drop_firstLine]

theorem firstLine_le (hCursor : CursorInWindow h) : firstLine h ≤ h.lines.length := by
  have hBlanks := (List.takeWhile_sublist isBlank (l := pending h)).length_le
  obtain ⟨hLow, hHigh⟩ := hCursor
  simp only [pending, List.length_drop] at hBlanks
  unfold firstLine
  omega

end

/-- Pending lines without a closing delimiter hold no event. -/
theorem messages_of_open {xs : List LineInfo}
    (hOpen : (xs.dropWhile isBlank).dropWhile (fun l => !isBlank l) = []) :
    messages xs = [] ∧ (cut isBlank xs).2 = xs.dropWhile isBlank := by
  obtain ⟨hMessages, hTail⟩ := messages_dropWhile_blank xs
  have hCut : cut isBlank (xs.dropWhile isBlank) = ([], xs.dropWhile isBlank) := by
    apply cut_of_open
    intro l hl
    simpa using List.dropWhile_eq_nil_iff.mp hOpen l hl
  constructor
  · rw [← hMessages, messages, hCut]
    rfl
  · rw [← hTail, hCut]

theorem messages_of_closed {xs tail : List LineInfo} {delimiter : LineInfo}
    (hClosed : (xs.dropWhile isBlank).dropWhile (fun l => !isBlank l) = delimiter :: tail) :
    (xs.dropWhile isBlank).takeWhile (fun l => !isBlank l) ≠ [] ∧ messages xs =
        (xs.dropWhile isBlank).takeWhile (fun l => !isBlank l) :: messages tail ∧
      (cut isBlank xs).2 = (cut isBlank tail).2 := by
  obtain ⟨hMessages, hTail⟩ := messages_dropWhile_blank xs
  have hSplit := List.takeWhile_append_dropWhile (p := fun l => !isBlank l)
    (l := xs.dropWhile isBlank)
  have hCut : cut isBlank ((xs.dropWhile isBlank).takeWhile (fun l => !isBlank l) ++
        delimiter :: tail) =
      ((xs.dropWhile isBlank).takeWhile (fun l => !isBlank l) :: (cut isBlank tail).1,
        (cut isBlank tail).2) :=
    cut_segment tail open_of_mem_takeWhile (terminator_of_dropWhile_eq_cons hClosed)
  rw [← hClosed, hSplit] at hCut
  have hNe : (xs.dropWhile isBlank).takeWhile (fun l => !isBlank l) ≠ [] := by
    apply takeWhile_dropWhile_ne_nil
    intro hNil
    simp [hNil] at hClosed
  refine ⟨hNe, ?_, ?_⟩
  · rw [← hMessages, messages, hCut]
    simp [hNe, messages]
  · rw [← hTail, hCut]

section

variable (h : SSEResponseHandler σ Product)
include h

/--
**One message**: either nothing is closed yet, and the cursor stands at the open
tail, or the message is the first event of the pending lines and the cursor
stands after its delimiter.
-/
theorem nextMessage_cases : ((nextMessage h).2 = [] ∧ messages (pending h) = [] ∧
        pending (nextMessage h).1 = (cut isBlank (pending h)).2) ∨
      ((nextMessage h).2 ≠ [] ∧
        messages (pending h) = (nextMessage h).2 :: messages (pending (nextMessage h).1) ∧
        (cut isBlank (pending h)).2 = (cut isBlank (pending (nextMessage h).1)).2) := by
  by_cases hLast : h.lines.length ≤ lastLine h
  · left
    have hOpen := drop_lastLine h
    rw [List.drop_eq_nil_of_le hLast] at hOpen
    obtain ⟨hMessages, hTail⟩ := messages_of_open hOpen.symm
    simp only [nextMessage, hLast, if_true]
    refine ⟨trivial, hMessages, ?_⟩
    rw [hTail, ← drop_firstLine]
    simp [pending]
  · right
    have hClosed := drop_lastLine h
    rw [List.drop_eq_getElem_cons (Nat.lt_of_not_le hLast)] at hClosed
    obtain ⟨hNe, hMessages, hTail⟩ := messages_of_closed hClosed.symm
    have hTake : (h.lines.drop (firstLine h)).take (lastLine h - firstLine h) =
        ((pending h).dropWhile isBlank).takeWhile (fun l => !isBlank l) := by
      rw [lastLine, Nat.add_sub_cancel_left, take_length_takeWhile, drop_firstLine]
    have hPending : pending { h with nextLine := h.base + lastLine h + 1 } =
        h.lines.drop (lastLine h + 1) := by
      simp [pending, Nat.add_assoc]
    simp only [nextMessage, hLast, if_false, hTake, hPending]
    exact ⟨hNe, hMessages, hTail⟩

theorem cursorInWindow_nextMessage (hCursor : CursorInWindow h) :
    CursorInWindow (nextMessage h).1 := by
  have hFirstLe := firstLine_le h hCursor
  unfold nextMessage CursorInWindow
  split
  · simp only
    omega
  · simp only
    omega

/-- `nextMessage` moves the cursor and nothing else. -/
theorem nextMessage_frame :
    (nextMessage h).1 = { h with nextLine := (nextMessage h).1.nextLine } := by
  unfold nextMessage
  split <;> rfl

end

section Refinement

variable (handleMessage : σ → List LineInfo → Except ε Product × σ)

section

variable (h : SSEResponseHandler σ Product)
include h

theorem deliver_lineWindow : (deliver handleMessage h).1.lineWindow = h.lineWindow := by
  fun_induction deliver handleMessage h with
  | case1 h hNone => rw [nextMessage_frame]
  | case2 h hSome e decoder hMessage =>
    rw [nextMessage_frame]
    rfl
  | case3 h hSome product decoder hMessage hClosed => rw [nextMessage_frame]
  | case4 h hSome product decoder hMessage hOpen ih =>
    rw [ih, nextMessage_frame]

theorem splitLine_lineWindow : (splitLine h).lineWindow = h.lineWindow := by
  rw [splitLine_eq]

theorem put_lineWindow (payload : List UInt8) :
    (put handleMessage h payload).1.lineWindow = h.lineWindow := by
  have hDelivered := deliver_lineWindow handleMessage
    (splitLine { h with buffer := h.buffer ++ payload })
  rw [splitLine_lineWindow] at hDelivered
  unfold put
  split
  · rename_i h' hEq
    rw [hEq] at hDelivered
    unfold trim
    split <;> exact hDelivered
  · rename_i h' fault hEq
    rw [hEq] at hDelivered
    exact hDelivered

end

/-- What the message loop leaves, against the decoding of all pending events. -/
structure Delivered (h h' : SSEResponseHandler σ Product) (thrown : Option (PutFault ε)) :
    Prop where
  sent : h'.sent = h.sent ++ (decodeAll handleMessage h.decoder (messages (Sse.pending h))).1
  fault : thrown =
    (decodeAll handleMessage h.decoder (messages (Sse.pending h))).2.2.map PutFault.decode
  decoder : thrown = none →
    h'.decoder = (decodeAll handleMessage h.decoder (messages (Sse.pending h))).2.1
  pending : thrown = none → Sse.pending h' = (cut isBlank (Sse.pending h)).2
  buffer : thrown = none → h'.buffer = h.buffer
  closed : thrown = none → h'.closed = false
  cursor : thrown = none → CursorInWindow h'

section

variable (h : SSEResponseHandler σ Product)
include h

theorem deliver_spec (hCursor : CursorInWindow h) (hClosed : h.closed = false) :
    Delivered handleMessage h (deliver handleMessage h).1 (deliver handleMessage h).2 := by
  fun_induction deliver handleMessage h with
  | case1 h hNone =>
    have hCases := nextMessage_cases h
    rcases hCases with ⟨_, hMessages, hPending⟩ | ⟨hSome, _⟩
    · have hFrame := nextMessage_frame h
      refine ⟨?_, ?_, ?_, fun _ => hPending, ?_, ?_,
        fun _ => cursorInWindow_nextMessage h hCursor⟩
      · rw [hFrame, hMessages]
        simp [decodeAll]
      · rw [hMessages]
        rfl
      · rw [hFrame, hMessages]
        simp [decodeAll]
      · rw [hFrame]
        simp
      · rw [hFrame]
        simp [hClosed]
    · exact absurd hNone hSome
  | case2 h hSome e decoder hHandle =>
    rcases nextMessage_cases h with ⟨hNone, _⟩ | ⟨_, hMessages, _⟩
    · exact absurd hNone hSome
    · have hFrame := nextMessage_frame h
      have hDecode : decodeAll handleMessage h.decoder (messages (pending h)) =
          ([], decoder, some e) := by
        rw [hMessages, decodeAll, hHandle]
      have hSent : (finish { (nextMessage h).1 with decoder := decoder } .error).sent = h.sent := by
        rw [hFrame]
        rfl
      refine ⟨?_, ?_, ?_, ?_, ?_, ?_, ?_⟩
      · rw [hSent, hDecode]
        simp
      · rw [hDecode]
        rfl
      all_goals exact fun hFault => by simp at hFault
  | case3 h hSome product decoder hHandle hAlready => simp [hClosed] at hAlready
  | case4 h hSome product decoder hHandle hOpen ih =>
    rcases nextMessage_cases h with ⟨hNone, _⟩ | ⟨_, hMessages, hTail⟩
    · exact absurd hNone hSome
    · have hFrame := nextMessage_frame h
      have hStep := ih (cursorInWindow_nextMessage h hCursor) (by rw [hFrame]; exact hClosed)
      have hDecode : decodeAll handleMessage h.decoder (messages (pending h)) = (product ::
              (decodeAll handleMessage decoder (messages (pending (nextMessage h).1))).1,
            (decodeAll handleMessage decoder (messages (pending (nextMessage h).1))).2) := by
        rw [hMessages, decodeAll, hHandle]
      refine ⟨?_, ?_, ?_, ?_, ?_, hStep.closed, hStep.cursor⟩
      · rw [hStep.sent, hDecode, List.append_assoc]
        rfl
      · rw [hStep.fault, hDecode]
        rfl
      · intro hFault
        rw [hStep.decoder hFault, hDecode]
        rfl
      · intro hFault
        rw [hStep.pending hFault, hTail]
        rfl
      · intro hFault
        rw [hStep.buffer hFault, hFrame]

/-- `trim` forgets consumed lines only. -/
theorem pending_trim : pending (trim h) = pending h := by
  unfold trim
  split
  · simp only [pending, List.drop_drop]
    congr 1
    omega
  · rfl

theorem cursorInWindow_trim (hCursor : CursorInWindow h) : CursorInWindow (trim h) := by
  obtain ⟨hLow, hHigh⟩ := hCursor
  unfold trim
  split
  · simp only [CursorInWindow, List.length_drop]
    omega
  · exact ⟨hLow, hHigh⟩

end

/--
The handler that has read `stream`, started with `decoder`: the buffer is the
unfinished line, the pending lines are the unfinished event, and exactly the
events of the stream have been decoded and sent.
-/
structure Framed (decoder : σ) (h : SSEResponseHandler σ Product) (stream : List UInt8) :
    Prop where
  buffer : h.buffer = (cut isNewline stream).2
  pending : Sse.pending h = (cut isBlank (linesOf stream)).2
  cursor : CursorInWindow h
  closed : h.closed = false
  decoded : decodeAll handleMessage decoder (eventsOf stream) = (h.sent, h.decoder, none)

/-- The handler that threw on an event of `stream`. -/
def Faulted (decoder : σ) (h : SSEResponseHandler σ Product) (fault : PutFault ε)
    (stream : List UInt8) : Prop :=
  ∃ e, fault = .decode e ∧ (decodeAll handleMessage decoder (eventsOf stream)).1 = h.sent ∧
    (decodeAll handleMessage decoder (eventsOf stream)).2.2 = some e

theorem framed_construct (lineWindow : Nat) (decoder : σ) :
    Framed handleMessage decoder (construct lineWindow decoder : SSEResponseHandler σ Product)
      [] := by
  refine ⟨rfl, rfl, ⟨Nat.le_refl 0, Nat.zero_le _⟩, rfl, rfl⟩

/-- The framing of a handler that has read `stream`, whatever it has sent before: the buffer
is the unfinished line, the pending lines are the unfinished event. -/
structure Framing (h : SSEResponseHandler σ Product) (stream : List UInt8) : Prop where
  buffer : h.buffer = (cut isNewline stream).2
  pending : Sse.pending h = (cut isBlank (linesOf stream)).2
  cursor : CursorInWindow h
  closed : h.closed = false

theorem Framed.framing {decoder : σ} {h : SSEResponseHandler σ Product} {stream : List UInt8}
    (hFramed : Framed handleMessage decoder h stream) : Framing h stream :=
  ⟨hFramed.buffer, hFramed.pending, hFramed.cursor, hFramed.closed⟩

def completed (h : SSEResponseHandler σ Product) (payload : List UInt8) : List (List LineInfo) :=
  messages (Sse.pending (splitLine { h with buffer := h.buffer ++ payload }))

/-- The window after `splitLine` has taken the complete lines of one more chunk. -/
theorem split_pending (h : SSEResponseHandler σ Product) (stream payload : List UInt8)
    (hFraming : Framing h stream) :
    let h' := splitLine { h with buffer := h.buffer ++ payload }
    h'.buffer = (cut isNewline (stream ++ payload)).2 ∧
      CursorInWindow h' ∧ h'.closed = false ∧ h'.sent = h.sent ∧ h'.decoder = h.decoder ∧
      eventsOf (stream ++ payload) = eventsOf stream ++ completed h payload ∧
      (cut isBlank (linesOf (stream ++ payload))).2 = (cut isBlank (Sse.pending h')).2 := by
  obtain ⟨hLow, hHigh⟩ := hFraming.cursor
  have hPending : Sse.pending (splitLine { h with buffer := h.buffer ++ payload }) =
      (cut isBlank (linesOf stream)).2 ++
        (cut isNewline ((cut isNewline stream).2 ++ payload)).1.filterMap parseLine := by
    rw [splitLine_eq, ← hFraming.pending, ← hFraming.buffer]
    simp only [Sse.pending]
    rw [List.drop_append_of_le_length (by omega)]
  refine ⟨?_, ?_, ?_, ?_, ?_, ?_, ?_⟩
  · rw [splitLine_eq, cut_append isNewline stream payload, ← hFraming.buffer]
  · rw [splitLine_eq]
    simp only [CursorInWindow, List.length_append]
    omega
  · rw [splitLine_eq]
    exact hFraming.closed
  · rw [splitLine_eq]
  · rw [splitLine_eq]
  · rw [eventsOf, linesOf_append, messages_append, completed, hPending]
    rfl
  · rw [linesOf_append, cut_append isBlank, hPending]

/-- A `put` that completes has sent what decoding the completed events gives. -/
theorem put_framing (h h' : SSEResponseHandler σ Product) (stream payload : List UInt8)
    (hFraming : Framing h stream) (hPut : put handleMessage h payload = (h', none)) :
    Framing h' (stream ++ payload) ∧
      h'.sent = h.sent ++ (decodeAll handleMessage h.decoder (completed h payload)).1 ∧
      (decodeAll handleMessage h.decoder (completed h payload)).2 = (h'.decoder, none) := by
  obtain ⟨hBuffer, hCursor, hClosed, hSent, hDecoder, -, hTail⟩ :=
    split_pending h stream payload hFraming
  have hSpec := deliver_spec handleMessage _ hCursor hClosed
  unfold put at hPut
  split at hPut
  · rename_i h₁ hDeliver
    rw [hDeliver] at hSpec
    obtain ⟨rfl, -⟩ := Prod.mk.inj hPut
    have hNone := hSpec.fault
    rw [eq_comm, Option.map_eq_none_iff, hDecoder] at hNone
    have hTrim : (trim h₁).sent = h₁.sent ∧ (trim h₁).decoder = h₁.decoder := by
      unfold trim
      split <;> exact ⟨rfl, rfl⟩
    refine ⟨⟨?_, ?_, cursorInWindow_trim _ (hSpec.cursor rfl), ?_⟩, ?_, ?_⟩
    · rw [← hBuffer, ← hSpec.buffer rfl]
      unfold trim
      split <;> rfl
    · rw [pending_trim, hSpec.pending rfl, hTail]
    · rw [← hSpec.closed rfl]
      unfold trim
      split <;> rfl
    · rw [hTrim.1, hSpec.sent, hSent, hDecoder]
      rfl
    · rw [hTrim.2, hSpec.decoder rfl, hDecoder]
      exact Prod.ext rfl hNone
  · simp at hPut

theorem put_framed (decoder : σ) (h : SSEResponseHandler σ Product)
    (stream payload : List UInt8) (h' : SSEResponseHandler σ Product)
    (hFramed : Framed handleMessage decoder h stream)
    (hPut : put handleMessage h payload = (h', none)) :
    Framed handleMessage decoder h' (stream ++ payload) := by
  obtain ⟨hFraming, hSent, hDecoded⟩ :=
    put_framing handleMessage h h' stream payload hFramed.framing hPut
  have hEvents := (split_pending h stream payload hFramed.framing).2.2.2.2.2.1
  have hDone := hFramed.decoded
  refine ⟨hFraming.buffer, hFraming.pending, hFraming.cursor, hFraming.closed, ?_⟩
  rw [hEvents, decodeAll_append _ _ _ _ (by rw [hDone]), hDone, hSent]
  exact Prod.ext rfl hDecoded

theorem put_faulted (decoder : σ) (h : SSEResponseHandler σ Product)
    (stream payload : List UInt8) (h' : SSEResponseHandler σ Product) (fault : PutFault ε)
    (hFramed : Framed handleMessage decoder h stream)
    (hPut : put handleMessage h payload = (h', some fault)) :
    Faulted handleMessage decoder h' fault (stream ++ payload) := by
  obtain ⟨-, hCursor, hClosed, hSent, hDecoder, hEvents, -⟩ :=
    split_pending h stream payload hFramed.framing
  have hSpec := deliver_spec handleMessage _ hCursor hClosed
  unfold put at hPut
  split at hPut
  · simp at hPut
  · rename_i h₁ fault₁ hDeliver
    rw [hDeliver] at hSpec
    obtain ⟨rfl, hFault⟩ := Prod.mk.inj hPut
    have hSome := hSpec.fault
    rw [eq_comm, Option.map_eq_some_iff, hDecoder] at hSome
    obtain ⟨e, hDecode, rfl⟩ := hSome
    have hDone := hFramed.decoded
    refine ⟨e, (Option.some.inj hFault).symm, ?_, ?_⟩
    · rw [hEvents, decodeAll_append _ _ _ _ (by rw [hDone]), hDone, hSpec.sent, hSent,
        hDecoder, completed]
    · rw [hEvents, decodeAll_append _ _ _ _ (by rw [hDone]), hDone, completed]
      exact hDecode

theorem faulted_append (decoder : σ) (h : SSEResponseHandler σ Product) (fault : PutFault ε)
    (stream more : List UInt8) (hFault : Faulted handleMessage decoder h fault stream) :
    Faulted handleMessage decoder h fault (stream ++ more) := by
  obtain ⟨e, rfl, hSent, hDecode⟩ := hFault
  obtain ⟨rest, hEvents⟩ := eventsOf_append stream more
  have hFinal := decodeAll_append_of_fault handleMessage (eventsOf stream) rest e decoder hDecode
  refine ⟨e, rfl, ?_, ?_⟩
  · rw [hEvents, hFinal, hSent]
  · rw [hEvents, hFinal, hDecode]

/--
**The handler refines the specification**: whatever the chunks and the window, the
products sent and the fault raised are those of decoding the events of the
concatenated stream.
-/
theorem pump_spec (lineWindow : Nat) (decoder : σ) (chunks : List (List UInt8)) :
    let final := pump handleMessage (construct lineWindow decoder) chunks
    let decoded := decodeAll handleMessage decoder (eventsOf chunks.flatten)
    final.1.sent = decoded.1 ∧ final.2 = decoded.2.2.map PutFault.decode := by
  have hFeed := feed_spec (put handleMessage) (Framed handleMessage decoder)
    (Faulted handleMessage decoder) (put_framed handleMessage decoder)
    (put_faulted handleMessage decoder) (faulted_append handleMessage decoder) chunks
    (construct lineWindow decoder) [] (framed_construct handleMessage lineWindow decoder)
  rw [List.nil_append] at hFeed
  unfold pump
  split at hFeed
  · rename_i h hEq
    simp only [hEq, hFeed.decoded]
    exact ⟨trivial, rfl⟩
  · rename_i h fault hEq
    obtain ⟨e, rfl, hSent, hDecode⟩ := hFeed
    simp only [hEq, hSent, hDecode]
    exact ⟨trivial, rfl⟩

/-- `d: a` and a blank line, both with CRLF endings, are one event. -/
example : eventsOf [100, 58, 32, 97, 13, 10, 13, 10] = [[([100], [97])]] := by decide

/--
**Chunking and window independence**: the events delivered for any cutting of a
stream, and the fault that ended it if any, are those of the same stream put in
one chunk under any other window.
-/
theorem pump_chunks_eq_whole (lineWindow wholeWindow : Nat) (decoder : σ)
    (chunks : List (List UInt8)) :
    (pump handleMessage (construct lineWindow decoder) chunks).1.sent =
        (pump handleMessage (construct wholeWindow decoder) [chunks.flatten]).1.sent ∧
      (pump handleMessage (construct lineWindow decoder) chunks).2 =
        (pump handleMessage (construct wholeWindow decoder) [chunks.flatten]).2 ∧
      (pump handleMessage (construct lineWindow decoder) chunks).1.sent =
        (decodeAll handleMessage decoder (eventsOf chunks.flatten)).1 ∧
      (pump handleMessage (construct lineWindow decoder) chunks).2 =
        (decodeAll handleMessage decoder (eventsOf chunks.flatten)).2.2.map PutFault.decode := by
  have hChunks := pump_spec handleMessage lineWindow decoder chunks
  have hWhole := pump_spec handleMessage wholeWindow decoder [chunks.flatten]
  simp only [List.flatten_singleton] at hWhole
  exact ⟨hChunks.1.trans hWhole.1.symm, hChunks.2.trans hWhole.2.symm, hChunks.1, hChunks.2⟩

/-- **Nothing delivered is taken back**: with more of the stream, however it is cut and whatever
the windows are, what was sent before comes first, and a fault stays the end. -/
theorem pump_extends (lineWindow laterWindow : Nat) (decoder : σ) (chunks : List (List UInt8))
    (more : List UInt8) :
    let before := pump handleMessage (construct lineWindow decoder) chunks
    let after := pump handleMessage (construct laterWindow decoder) [chunks.flatten ++ more]
    before.1.sent <+: after.1.sent ∧
      (before.2 ≠ none → after.1.sent = before.1.sent ∧ after.2 = before.2) := by
  obtain ⟨hSent, hFault⟩ := pump_spec handleMessage lineWindow decoder chunks
  obtain ⟨hSent', hFault'⟩ :=
    pump_spec handleMessage laterWindow decoder [chunks.flatten ++ more]
  obtain ⟨rest, hEvents⟩ := eventsOf_append chunks.flatten more
  rw [List.flatten_singleton, hEvents] at hSent' hFault'
  dsimp only
  rw [hSent, hSent', hFault, hFault']
  cases hEnd : (decodeAll handleMessage decoder (eventsOf chunks.flatten)).2.2 with
  | none =>
    rw [decodeAll_append _ _ _ _ hEnd]
    exact ⟨List.prefix_append _ _, fun h => absurd rfl h⟩
  | some e =>
    rw [decodeAll_append_of_fault _ _ _ _ _ hEnd, hEnd]
    exact ⟨List.prefix_rfl, fun _ => ⟨rfl, rfl⟩⟩

end Refinement

end SimplexAgent.Endpoint.Sse
