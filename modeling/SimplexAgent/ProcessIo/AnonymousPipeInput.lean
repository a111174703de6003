import SimplexAgent.ProcessIo.AnonymousPipe

/-!
# The input over anonymous pipes

The queue, the phases and the writer, over every interleaving. `InputSide` is the part
of the state that they use; an operation that leaves it alone keeps its invariant. The
operations on it are few: the input is stopped, the writer leaves its loop, the peer or
an error ends the input, the writer goes on inside its loop, and the calls.
-/

namespace SimplexAgent.ProcessIo

namespace Writer

/-- The bytes of the current chunk that are still to be written. -/
def rest : Writer → Bytes
  | .writing rest => rest
  | _ => []

/-- The loop has not been left. -/
def Alive (w : Writer) : Prop := w = .ready ∨ w = .sleeping ∨ ∃ rest, w = .writing rest

end Writer

namespace State

structure InputSide where
  queue : List Bytes
  inputPhase : InputPhase
  started : Bool
  accepting : Bool
  endRequested : Bool
  stopping : Bool
  inputStopped : Bool
  writer : Writer
  accepted : List Bytes
  written : Bytes

def inputSide (s : State) : InputSide where
  queue := s.queue
  inputPhase := s.inputPhase
  started := s.started
  accepting := s.accepting
  endRequested := s.endRequested
  stopping := s.stopping
  inputStopped := s.inputStopped
  writer := s.writer
  accepted := s.accepted
  written := s.written

/-- What the writer and the calls that feed it keep. -/
structure InputInv (i : InputSide) : Prop where
  sleeping : i.writer = .sleeping → i.queue = [] ∧ i.endRequested = false ∧ i.stopping = false ∧
    i.inputStopped = false
  written : i.written ++ i.writer.rest <+: i.accepted.flatten
  pending : i.writer.Alive → i.inputStopped = false →
    i.accepted.flatten = i.written ++ i.writer.rest ++ i.queue.flatten
  ended : i.inputPhase = .ended → i.written = i.accepted.flatten ∧ ¬i.writer.Alive
  accepting : i.accepting = true → i.inputPhase = .open
  «open» : i.inputPhase = .open ∨ i.inputPhase = .endRequested →
    i.started = true ∧ i.inputStopped = false
  endRequested : i.endRequested = true → i.started = true ∧ i.inputPhase ≠ .open
  stopping : i.stopping = true → i.inputStopped = true
  unstarted : i.started = false → i.writer = .notSpawned ∧ i.queue = [] ∧ i.accepted = [] ∧
    i.written = []
  started : i.started = true ∨ i.inputStopped = true → i.inputPhase ≠ .notStarted
  begun : i.inputPhase ≠ .notStarted → i.started = true ∨ i.inputStopped = true

theorem initial_inputInv (maxOutputBytes : Nat) : InputInv (initial maxOutputBytes).inputSide := by
  constructor <;> simp [initial, inputSide, Writer.rest, Writer.Alive]

/-! ### Operations that have nothing to do with it -/

@[simp] theorem inputSide_closeInput (s : State) (code : Option ErrorCode) :
    (s.closeInput code).inputSide = s.inputSide := by
  unfold closeInput
  split_ifs <;> rfl

@[simp] theorem inputSide_closeOutput (s : State) (code : Option ErrorCode) :
    (s.closeOutput code).inputSide = s.inputSide := by
  unfold closeOutput
  split_ifs <;> rfl

@[simp] theorem inputSide_closeError (s : State) (code : Option ErrorCode) :
    (s.closeError code).inputSide = s.inputSide := by
  unfold closeError
  split_ifs <;> rfl

@[simp] theorem inputSide_finish (s : State) (stream : Stream) (end_ : StreamEnd)
    (error : Option ErrorCode) : (s.finish stream end_ error).inputSide = s.inputSide := by
  unfold finish
  split <;> rfl

@[simp] theorem inputSide_setReader (s : State) (stream : Stream) (reader : Reader) :
    (s.setReader stream reader).inputSide = s.inputSide := by
  cases stream <;> rfl

@[simp] theorem inputSide_receive (s : State) (stream : Stream) (bytes : Bytes) :
    (s.receive stream bytes).inputSide = s.inputSide := by
  unfold receive
  split_ifs <;> rfl

@[simp] theorem inputSide_readReturns (s : State) (stream : Stream) (bytes : Bytes)
    (code : Option ErrorCode) : (s.readReturns stream bytes code).inputSide = s.inputSide := by
  unfold readReturns
  split_ifs
  · exact inputSide_setReader s stream _
  all_goals
    split
    · exact inputSide_setReader s stream _
    · dsimp only
      split
      · rfl
      · rw [inputSide_setReader, inputSide_finish]
        rfl
      · rw [inputSide_setReader]
        rfl

/-! ### Operations on it -/

variable {s : State} {i : InputSide}

/-- The writer after `wake_input.cancel()`. -/
def woken (w : Writer) : Writer := if w = .sleeping then .ready else w

theorem inputSide_wakeInput (s : State) :
    s.wakeInput.inputSide = { s.inputSide with writer := woken s.writer } := by
  unfold wakeInput woken
  split_ifs <;> rfl

theorem woken_ne_sleeping (w : Writer) : woken w ≠ .sleeping := by
  cases w <;> simp [woken]

theorem woken_rest (w : Writer) : (woken w).rest = w.rest := by
  cases w <;> rfl

theorem woken_alive (w : Writer) : (woken w).Alive ↔ w.Alive := by
  cases w <;> simp [woken, Writer.Alive]

theorem woken_notSpawned {w : Writer} (h : w = .notSpawned) : woken w = .notSpawned := by
  rw [h]
  rfl

theorem stop_inv (h : InputInv i) {phase : InputPhase} (stopping : Bool)
    (hPhase : phase ≠ .open ∧ phase ≠ .endRequested ∧ phase ≠ .notStarted)
    (hEnded : phase = .ended → i.inputPhase = .ended) :
    InputInv { i with
      queue := []
      inputPhase := phase
      accepting := false
      stopping := stopping
      inputStopped := true
      writer := woken i.writer } where
  sleeping := fun hSleeping => absurd hSleeping (woken_ne_sleeping i.writer)
  written := by
    show i.written ++ (woken i.writer).rest <+: i.accepted.flatten
    rw [woken_rest]
    exact h.written
  pending := fun _ hStopped => by cases hStopped
  ended := fun hPhaseEnded => by
    obtain ⟨hWritten, hAlive⟩ := h.ended (hEnded hPhaseEnded)
    exact ⟨hWritten, fun hAgain => hAlive ((woken_alive i.writer).mp hAgain)⟩
  accepting := fun hAccepting => by cases hAccepting
  «open» := fun hOpen => absurd hOpen (not_or.mpr ⟨hPhase.1, hPhase.2.1⟩)
  endRequested := fun hEnd => ⟨(h.endRequested hEnd).1, hPhase.1⟩
  stopping := fun _ => rfl
  unstarted := fun hStarted => by
    obtain ⟨hWriter, -, hAccepted, hWritten⟩ := h.unstarted hStarted
    exact ⟨woken_notSpawned hWriter, rfl, hAccepted, hWritten⟩
  started := fun _ => hPhase.2.2
  begun := fun _ => .inr rfl

/-- The phase after `abort_input`. -/
def stoppedPhase (s : State) (close : Option ErrorCode) : InputPhase :=
  if (s.closeInputCode close).isSome then .failed
  else if s.inputPhase = .open ∨ s.inputPhase = .endRequested ∨ s.inputPhase = .notStarted then
    .stopped
  else s.inputPhase

theorem stoppedPhase_spec (s : State) (close : Option ErrorCode) :
    (s.stoppedPhase close ≠ .open ∧ s.stoppedPhase close ≠ .endRequested ∧
      s.stoppedPhase close ≠ .notStarted) ∧
    (s.stoppedPhase close = .ended → s.inputPhase = .ended) := by
  unfold stoppedPhase
  split_ifs with hCode hPhase
  · exact ⟨by decide, fun hEnded => by cases hEnded⟩
  · exact ⟨by decide, fun hEnded => by cases hEnded⟩
  · obtain ⟨hOpen, hEnd, hStart⟩ := by simpa only [not_or] using hPhase
    exact ⟨⟨hOpen, hEnd, hStart⟩, id⟩

theorem inputSide_abortInput (s : State) (close : Option ErrorCode) :
    (s.abortInput close).inputSide =
      { s.inputSide with
        queue := []
        inputPhase := s.stoppedPhase close
        accepting := false
        inputStopped := true
        writer := woken s.writer } := by
  unfold abortInput stoppedPhase closeInputCode
  dsimp only
  rw [inputSide_wakeInput]
  split_ifs <;> simp_all [closeInput, inputSide, remember]

theorem abortInput_inv (h : InputInv s.inputSide) (close : Option ErrorCode) :
    InputInv (s.abortInput close).inputSide := by
  obtain ⟨hPhase, hEnded⟩ := s.stoppedPhase_spec close
  rw [inputSide_abortInput]
  exact stop_inv h s.stopping hPhase hEnded

theorem abort_inv (h : InputInv s.inputSide) (close : CloseCodes) :
    InputInv (s.abort close).inputSide := by
  obtain ⟨hPhase, hEnded⟩ := s.stoppedPhase_spec close.input
  unfold abort
  rw [inputSide_closeError, inputSide_closeOutput, inputSide_finish, inputSide_finish,
    inputSide_abortInput]
  exact stop_inv h true hPhase hEnded

structure Left (w : Writer) : Prop where
  alive : ¬w.Alive
  spawned : w ≠ .notSpawned
  rest : w.rest = []

theorem left_done (exception : Option ErrorCode) : Left (.done exception) :=
  ⟨by simp [Writer.Alive], by simp, rfl⟩

theorem left_completed : Left .completed := ⟨by simp [Writer.Alive], by simp, rfl⟩

theorem started_of_spawned (h : InputInv i) (hWriter : i.writer ≠ .notSpawned) :
    i.started = true := by
  by_contra hStarted
  exact hWriter (h.unstarted (by simpa using hStarted)).1

theorem left_ne_sleeping {w : Writer} (h : Left w) : w ≠ .sleeping :=
  fun hSleeping => h.alive (.inr (.inl hSleeping))

section

variable (h : InputInv i)
include h

theorem written_initial : i.written <+: i.accepted.flatten :=
  (List.prefix_append i.written i.writer.rest).trans h.written

theorem leave_inv (hWriter : i.writer ≠ .notSpawned) {w : Writer} (hLeft : Left w) :
    InputInv { i with writer := w } where
  sleeping := fun hSleeping => absurd hSleeping (left_ne_sleeping hLeft)
  written := by
    show i.written ++ w.rest <+: i.accepted.flatten
    rw [hLeft.rest, List.append_nil]
    exact written_initial h
  pending := fun hAlive => absurd hAlive hLeft.alive
  ended := fun hEnded => ⟨(h.ended hEnded).1, hLeft.alive⟩
  accepting := h.accepting
  «open» := h.open
  endRequested := h.endRequested
  stopping := h.stopping
  unstarted := fun hStarted =>
    Bool.noConfusion ((started_of_spawned h hWriter).symm.trans hStarted)
  started := h.started
  begun := h.begun

theorem fail_inv (hWriter : i.writer ≠ .notSpawned) {w : Writer} (hLeft : Left w)
    {phase : InputPhase} (hPhase : phase = .peerClosed ∨ phase = .failed) :
    InputInv { i with queue := [], inputPhase := phase, accepting := false, writer := w } := by
  have hLeave := leave_inv h hWriter hLeft
  constructor
  · exact fun hSleeping => absurd hSleeping (left_ne_sleeping hLeft)
  · exact hLeave.written
  · exact fun hAlive => absurd hAlive hLeft.alive
  · rintro rfl
    rcases hPhase with hPhase | hPhase <;> cases hPhase
  · exact fun hAccepting => by cases hAccepting
  · rcases hPhase with rfl | rfl <;> exact fun hOpen => by simp at hOpen
  · intro hEnd
    refine ⟨(h.endRequested hEnd).1, ?_⟩
    rcases hPhase with rfl | rfl <;> simp
  · exact h.stopping
  · exact fun hStarted => Bool.noConfusion ((started_of_spawned h hWriter).symm.trans hStarted)
  · intro _
    rcases hPhase with rfl | rfl <;> simp
  · exact fun _ => .inl (show i.started = true from started_of_spawned h hWriter)

theorem end_inv (hWriter : i.writer = .ready) (hQueue : i.queue = []) (hEnd : i.endRequested = true)
    (hStopped : i.inputStopped = false) {phase : InputPhase}
    (hPhase : phase = .ended ∨ phase = .failed) :
    InputInv { i with inputPhase := phase, writer := .done none } := by
  have hAlive : i.writer.Alive := .inl hWriter
  have hAll := h.pending hAlive hStopped
  have hRest : i.writer.rest = [] := by
    rw [hWriter]
    rfl
  rw [hQueue, hRest, List.append_nil, List.flatten_nil, List.append_nil] at hAll
  have hAccepting : i.accepting = false := by
    by_contra hAccepting
    exact (h.endRequested hEnd).2 (h.accepting (by simpa using hAccepting))
  have hLeave := leave_inv h (by rw [hWriter]; simp) (left_done none)
  constructor
  · exact hLeave.sleeping
  · exact hLeave.written
  · exact hLeave.pending
  · exact fun _ => ⟨hAll.symm, (left_done none).alive⟩
  · exact fun hAgain => by simp [hAccepting] at hAgain
  · rcases hPhase with rfl | rfl <;> exact fun hOpen => by simp at hOpen
  · intro _
    refine ⟨(h.endRequested hEnd).1, ?_⟩
    rcases hPhase with rfl | rfl <;> simp
  · exact h.stopping
  · exact hLeave.unstarted
  · intro _
    rcases hPhase with rfl | rfl <;> simp
  · exact fun _ => .inl (h.endRequested hEnd).1

theorem go_inv (hAlive : i.writer.Alive) {w : Writer} {queue : List Bytes} {written : Bytes}
    (hSleeping : w = .sleeping → queue = [] ∧ i.endRequested = false ∧ i.stopping = false ∧ i.inputStopped = false)
    (hSame : written ++ w.rest ++ queue.flatten = i.written ++ i.writer.rest ++ i.queue.flatten)
    (hPrefix : written ++ w.rest <+: i.accepted.flatten) :
    InputInv { i with queue := queue, writer := w, written := written } where
  sleeping := hSleeping
  written := hPrefix
  pending := fun _ hStopped => (h.pending hAlive hStopped).trans hSame.symm
  ended := fun hEnded => absurd hAlive (h.ended hEnded).2
  accepting := h.accepting
  «open» := h.open
  endRequested := h.endRequested
  stopping := h.stopping
  unstarted := fun hStarted => by
    rw [(h.unstarted hStarted).1] at hAlive
    simp [Writer.Alive] at hAlive
  started := h.started
  begun := h.begun

theorem sleep_inv (hWriter : i.writer = .ready)
    (hIdle : i.queue = [] ∧ i.endRequested = false ∧ i.stopping = false ∧ i.inputStopped = false) :
    InputInv { i with writer := .sleeping } := by
  have hSame : i.written ++ Writer.sleeping.rest ++ i.queue.flatten =
      i.written ++ i.writer.rest ++ i.queue.flatten := by
    rw [hWriter]
    rfl
  have hPrefix : i.written ++ Writer.sleeping.rest <+: i.accepted.flatten := by
    have hWritten := written_initial h
    rwa [← List.append_nil i.written] at hWritten
  exact go_inv h (.inl hWriter) (fun _ => hIdle) hSame hPrefix

theorem pop_inv (hWriter : i.writer = .ready) (hStopped : i.inputStopped = false) {bytes : Bytes}
    {queue : List Bytes} (hQueue : i.queue = bytes :: queue) :
    InputInv { i with queue := queue, writer := .writing bytes } := by
  have hSame : i.written ++ (Writer.writing bytes).rest ++ queue.flatten =
      i.written ++ i.writer.rest ++ i.queue.flatten := by
    rw [hWriter, hQueue, List.flatten_cons, ← List.append_assoc]
    show _ = i.written ++ [] ++ bytes ++ queue.flatten
    rw [List.append_nil]
    rfl
  have hPending := h.pending (.inl hWriter) hStopped
  refine go_inv h (.inl hWriter) (fun hSleeping => by cases hSleeping) hSame ?_
  rw [hPending, ← hSame]
  exact List.prefix_append _ _

theorem some_inv {rest : Bytes} (hWriter : i.writer = .writing rest) (count : Nat) :
    InputInv { i with
      written := i.written ++ rest.take count
      writer := .writing (rest.drop count) } := by
  have hRest : i.writer.rest = rest := by
    rw [hWriter]
    rfl
  have hSplit : i.written ++ rest.take count ++ (Writer.writing (rest.drop count)).rest =
      i.written ++ i.writer.rest := by
    rw [hRest, List.append_assoc]
    exact congrArg (i.written ++ ·) (List.take_append_drop count rest)
  refine go_inv h (.inr (.inr ⟨rest, hWriter⟩)) (fun hSleeping => by cases hSleeping) ?_ ?_
  · rw [hSplit]
  · rw [hSplit]
    exact h.written

theorem ready_inv (hAlive : i.writer.Alive) (hRest : i.writer.rest = []) :
    InputInv { i with writer := .ready } := by
  have hSame : i.written ++ Writer.ready.rest = i.written ++ i.writer.rest := by
    rw [hRest]
    rfl
  refine go_inv h hAlive (fun hSleeping => by cases hSleeping) ?_ ?_
  · rw [hSame]
  · rw [hSame]
    exact h.written

end

/-! ### Sections of the writer -/

theorem runWriter_inv (h : InputInv s.inputSide) (hReady : s.writer = .ready)
    (close : Option ErrorCode) : InputInv (s.runWriter close).inputSide := by
  have hSpawned : s.writer ≠ .notSpawned := by
    rw [hReady]
    simp
  unfold runWriter
  by_cases hStop : s.stopping = true ∨ s.inputStopped = true
  · rw [if_pos hStop]
    exact leave_inv h hSpawned (left_done none)
  rw [if_neg hStop]
  obtain ⟨hStopping, hStopped⟩ : s.stopping = false ∧ s.inputStopped = false := by
    simpa using hStop
  split
  next hQueue =>
    by_cases hEnd : s.endRequested = true
    · rw [if_pos hEnd]
      have hPhase : (if (s.closeInputCode close).isSome then InputPhase.failed else .ended) =
          .ended ∨ (if (s.closeInputCode close).isSome then InputPhase.failed else .ended) =
          .failed := by
        split_ifs
        · exact .inr rfl
        · exact .inl rfl
      have hEnds := end_inv h hReady hQueue hEnd hStopped hPhase
      rw [← inputSide_closeInput s close] at hEnds
      exact hEnds
    · rw [if_neg hEnd]
      have hNoEnd : s.endRequested = false := by simpa using hEnd
      exact sleep_inv h hReady ⟨hQueue, hNoEnd, hStopping, hStopped⟩
  next bytes queue hQueue => exact pop_inv h hReady hStopped hQueue

theorem writeReturns_inv (h : InputInv s.inputSide) {rest : Bytes}
    (hWriter : s.writer = .writing rest) (code : Option ErrorCode)
    (hAll : code = none → rest = []) : InputInv (s.writeReturns code).inputSide := by
  have hSpawned : s.writer ≠ .notSpawned := by
    rw [hWriter]
    simp
  unfold writeReturns
  by_cases hStop : s.stopping = true ∨ s.inputStopped = true
  · rw [if_pos hStop]
    exact leave_inv h hSpawned (left_done none)
  rw [if_neg hStop]
  split
  next =>
    have hRest : s.writer.rest = [] := by
      rw [hWriter]
      exact hAll rfl
    exact ready_inv h (.inr (.inr ⟨rest, hWriter⟩)) hRest
  next => exact fail_inv h hSpawned (left_done none) (.inl rfl)
  next => exact fail_inv h hSpawned (left_done none) (.inl rfl)
  next => exact leave_inv h hSpawned (left_done _)

theorem inputSide_closePump (s : State) (task : Task) (close : Option ErrorCode) :
    (s.closePump task close).inputSide =
      { s.inputSide with writer := if task = .input then .completed else s.writer } := by
  cases task with
  | input =>
    exact congrArg (fun i : InputSide => { i with writer := Writer.completed })
      (inputSide_closeInput s close)
  | output => exact inputSide_closeOutput s close
  | error => exact inputSide_closeError s close

theorem inputSide_noteException {task : Task} (h : task ≠ .input) (exception : Option ErrorCode) :
    (s.noteException task exception).inputSide = s.inputSide := by
  cases exception with
  | none => rfl
  | some code =>
    cases task with
    | input => exact absurd rfl h
    | output | error => exact inputSide_finish _ _ _ _

theorem completed_inv (h : InputInv s.inputSide) (task : Task) (exception close : Option ErrorCode)
    (hWriter : task = .input → s.writer ≠ .notSpawned) :
    InputInv (s.completed task exception close).inputSide := by
  show InputInv ((s.noteException task exception).closePump task close).inputSide
  rw [inputSide_closePump]
  by_cases hInput : task = .input
  · subst hInput
    have hSpawned := hWriter rfl
    rw [if_pos rfl]
    cases exception with
    | none => exact leave_inv h hSpawned left_completed
    | some code => exact fail_inv h hSpawned left_completed (.inr (Eq.refl InputPhase.failed))
  · have hSide := inputSide_noteException (s := s) hInput exception
    rw [if_neg hInput, hSide, show (s.noteException task exception).writer = s.writer from
      congrArg InputSide.writer hSide]
    exact h

/-! ### Calls -/

theorem enqueueInput_inv (h : InputInv s.inputSide) (input : Bytes) :
    InputInv (s.enqueueInput input).1.inputSide := by
  unfold enqueueInput
  by_cases hAccepting : s.accepting = true
  · rw [if_pos hAccepting]
    dsimp only
    rw [inputSide_wakeInput]
    have hOpen : s.inputPhase = .open := h.accepting hAccepting
    obtain ⟨hStarted, hStopped⟩ := h.open (.inl hOpen)
    have hFlatten : (s.accepted ++ [input]).flatten = s.accepted.flatten ++ input := by
      rw [List.flatten_append, List.flatten_singleton]
    constructor
    · exact fun hSleeping => absurd hSleeping (woken_ne_sleeping s.writer)
    · show s.written ++ (woken s.writer).rest <+: (s.accepted ++ [input]).flatten
      rw [woken_rest, hFlatten]
      exact h.written.trans (List.prefix_append _ _)
    · intro hAlive _
      have hPending := h.pending ((woken_alive s.writer).mp hAlive) hStopped
      show (s.accepted ++ [input]).flatten =
        s.written ++ (woken s.writer).rest ++ (s.queue ++ [input]).flatten
      rw [hFlatten, woken_rest, List.flatten_append, List.flatten_singleton, ← List.append_assoc]
      exact congrArg (· ++ input) hPending
    · exact fun hEnded => by cases hOpen.symm.trans hEnded
    · exact h.accepting
    · exact h.open
    · exact h.endRequested
    · exact h.stopping
    · exact fun hNot => Bool.noConfusion (hStarted.symm.trans hNot)
    · exact h.started
    · exact h.begun
  · rw [if_neg hAccepting]
    exact h

theorem requestInputEnd_inv (h : InputInv s.inputSide) :
    InputInv s.requestInputEnd.1.inputSide := by
  unfold requestInputEnd
  by_cases hClosed : s.inputPhase ≠ .open ∨ s.stopping = true
  · rw [if_pos hClosed]
    exact h
  · rw [if_neg hClosed]
    dsimp only
    rw [inputSide_wakeInput]
    have hOpen : s.inputPhase = .open := by
      by_contra hNot
      exact hClosed (.inl hNot)
    obtain ⟨hStarted, hStopped⟩ := h.open (.inl hOpen)
    constructor
    · exact fun hSleeping => absurd hSleeping (woken_ne_sleeping s.writer)
    · show s.written ++ (woken s.writer).rest <+: s.accepted.flatten
      rw [woken_rest]
      exact h.written
    · intro hAlive _
      have hPending := h.pending ((woken_alive s.writer).mp hAlive) hStopped
      show s.accepted.flatten = s.written ++ (woken s.writer).rest ++ s.queue.flatten
      rw [woken_rest]
      exact hPending
    · exact fun hEnded => by cases hEnded
    · exact fun hAccepting => by cases hAccepting
    · exact fun _ => ⟨hStarted, hStopped⟩
    · exact fun _ => ⟨hStarted, fun hPhase => by cases hPhase⟩
    · exact h.stopping
    · exact fun hNot => Bool.noConfusion (hStarted.symm.trans hNot)
    · exact fun _ hPhase => by cases hPhase
    · exact fun _ => .inl hStarted

theorem stopAdmission_inv (h : InputInv i) : InputInv { i with accepting := false } :=
  { h with accepting := fun hAccepting => by cases hAccepting }

theorem begin_inv (h : InputInv i) (hStarted : i.started = false)
    (hStopped : i.inputStopped = false) (hStopping : i.stopping = false) {w : Writer}
    (hWriter : w = .notSpawned ∨ w = .ready) : InputInv { i with
      started := true
      accepting := true
      inputPhase := .open
      writer := w } := by
  obtain ⟨hNone, hQueue, hAccepted, hWritten⟩ := h.unstarted hStarted
  have hEnd : i.endRequested = false := by
    by_contra hNot
    have hAgain := (h.endRequested (by simpa using hNot)).1
    exact Bool.noConfusion (hAgain.symm.trans hStarted)
  have hRest : w.rest = [] := by
    rcases hWriter with rfl | rfl <;> rfl
  constructor
  · intro hSleeping
    rcases hWriter with rfl | rfl <;> cases hSleeping
  · show i.written ++ w.rest <+: i.accepted.flatten
    rw [hWritten, hAccepted, hRest]
    exact List.prefix_rfl
  · intro _ _
    show i.accepted.flatten = i.written ++ w.rest ++ i.queue.flatten
    rw [hWritten, hAccepted, hRest, hQueue]
    rfl
  · exact fun hEnded => by cases hEnded
  · exact fun _ => rfl
  · exact fun _ => ⟨rfl, hStopped⟩
  · exact fun hAgain => Bool.noConfusion (hEnd.symm.trans hAgain)
  · exact fun hAgain => Bool.noConfusion (hStopping.symm.trans hAgain)
  · exact fun hNot => by cases hNot
  · exact fun _ hPhase => by cases hPhase
  · exact fun _ => .inl rfl

theorem inputSide_spawnAll (s : State) (thrown : Option StartPoint) :
    ∃ w, (w = s.writer ∨ w = .ready) ∧
      (s.spawnAll thrown).inputSide = { s.inputSide with writer := w } := by
  cases thrown with
  | none => exact ⟨.ready, .inr rfl, rfl⟩
  | some point =>
    cases point with
    | prepare => exact ⟨s.writer, .inl rfl, rfl⟩
    | spawn task =>
      cases task with
      | input => exact ⟨s.writer, .inl rfl, rfl⟩
      | output | error => exact ⟨.ready, .inr rfl, rfl⟩

section

variable (h : InputInv s.inputSide)
include h

theorem caught_inv (thrown : Option (StartPoint × ErrorCode)) (close : CloseCodes) :
    InputInv (s.caught thrown close).inputSide := by
  unfold caught
  split
  · exact h
  · exact abort_inv (s := s.remember _) h close

theorem startTasks_inv (thrown : Option (StartPoint × ErrorCode)) (close : CloseCodes) :
    InputInv (s.startTasks thrown close).inputSide := by
  unfold startTasks
  by_cases hRefuses : s.refusesStart = true
  · rw [if_pos hRefuses]
    exact h
  rw [if_neg hRefuses]
  dsimp only
  have hAllowed : s.started = false ∧ s.stopping = false ∧ s.inputStopped = false := by
    simp only [refusesStart, Bool.or_eq_true, not_or, Bool.not_eq_true] at hRefuses
    exact ⟨hRefuses.1.1.1.1.1.1, hRefuses.1.1.1.1.1.2, hRefuses.1.1.1.1.2⟩
  obtain ⟨hStarted, hStopping, hStopped⟩ := hAllowed
  obtain ⟨w, hW, hSide⟩ := inputSide_spawnAll
    { s with started := true, accepting := true, inputPhase := .open } (thrown.map Prod.fst)
  have hWriter : w = .notSpawned ∨ w = .ready := by
    rw [← (h.unstarted hStarted).1]
    exact hW
  have hBegin := begin_inv h hStarted hStopped hStopping hWriter
  have hSpawned := hSide.symm ▸ hBegin
  have hCaught := caught_inv hSpawned thrown close
  split_ifs
  · exact abort_inv hCaught close
  · exact hCaught

theorem step_inputInv (event : Event) : InputInv (s.step event).inputSide := by
  cases event with
  | prepareAttachment | launch | join =>
    simp only [step]
    split_ifs
    · exact h
    · exact h
  | start thrown close => exact startTasks_inv h thrown close
  | enqueueInput input => exact enqueueInput_inv h input
  | requestInputEnd => exact requestInputEnd_inv h
  | stopAdmission => exact stopAdmission_inv h
  | cancelInput close => exact abortInput_inv h close
  | abort close => exact abort_inv h close
  | runWriter close =>
    simp only [step]
    split_ifs with hReady
    · exact runWriter_inv h hReady close
    · exact h
  | timer code =>
    simp only [step]
    split_ifs with hSleeping
    · have hRest : s.writer.rest = [] := by
        rw [hSleeping]
        rfl
      cases code with
      | none => exact ready_inv h (.inr (.inl hSleeping)) hRest
      | some code =>
        have hSpawned : s.writer ≠ .notSpawned := by
          rw [hSleeping]
          simp
        exact leave_inv h hSpawned (left_done (some code))
    · exact h
  | writeSome count =>
    simp only [step]
    split
    next rest hWriter =>
      split_ifs
      · exact some_inv h hWriter count
      · exact h
    next => exact h
  | writeReturns code =>
    simp only [step]
    split
    next rest hWriter =>
      split_ifs with hMore
      · exact h
      · refine writeReturns_inv h hWriter code fun hNone => ?_
        by_contra hRest
        exact hMore ⟨hNone, hRest⟩
    next => exact h
  | read stream bytes code =>
    simp only [step]
    split_ifs
    · rw [inputSide_readReturns, inputSide_receive]
      exact h
    · exact h
  | complete task close =>
    cases task with
    | input =>
      simp only [step]
      split
      next exception hDone =>
        refine completed_inv h .input exception close fun _ => ?_
        rw [hDone]
        simp
      next => exact h
    | output =>
      simp only [step]
      split
      next exception hDone =>
        exact completed_inv h .output exception close fun hTask => by cases hTask
      next => exact h
    | error =>
      simp only [step]
      split
      next exception hDone =>
        exact completed_inv h .error exception close fun hTask => by cases hTask
      next => exact h

theorem run_inputInv (events : List Event) : InputInv (s.run events).inputSide := by
  induction events generalizing s with
  | nil => exact h
  | cons event events ih => exact ih (step_inputInv h event)

end

/-! ### Closed phases -/

def Closed (phase : InputPhase) : Prop :=
  phase = .ended ∨ phase = .peerClosed ∨ phase = .stopped ∨ phase = .failed

theorem phase_of_inputSide {s t : State} (h : t.inputSide = s.inputSide) :
    t.inputPhase = s.inputPhase := congrArg InputSide.inputPhase h

theorem wakeInput_phase (s : State) : s.wakeInput.inputPhase = s.inputPhase :=
  congrArg InputSide.inputPhase (inputSide_wakeInput s)

section

variable (h : Closed s.inputPhase)
include h

theorem runWriter_closed (close : Option ErrorCode) : Closed (s.runWriter close).inputPhase := by
  unfold runWriter
  by_cases hStop : s.stopping = true ∨ s.inputStopped = true
  · rw [if_pos hStop]
    exact h
  rw [if_neg hStop]
  split
  next =>
    by_cases hEnd : s.endRequested = true
    · rw [if_pos hEnd]
      dsimp only
      split_ifs
      · exact .inr (.inr (.inr rfl))
      · exact .inl rfl
    · rw [if_neg hEnd]
      exact h
  next => exact h

theorem abortInput_closed (close : Option ErrorCode) : Closed (s.abortInput close).inputPhase := by
  rw [show (s.abortInput close).inputPhase = s.stoppedPhase close from
    congrArg InputSide.inputPhase (inputSide_abortInput s close)]
  unfold stoppedPhase
  split_ifs
  · exact .inr (.inr (.inr rfl))
  · exact .inr (.inr (.inl rfl))
  · exact h

theorem abort_closed (close : CloseCodes) : Closed (s.abort close).inputPhase := by
  have hStopped := abortInput_closed (s := { s with stopping := true }) h close.input
  unfold abort
  rw [phase_of_inputSide (inputSide_closeError _ _), phase_of_inputSide (inputSide_closeOutput _ _),
    phase_of_inputSide (inputSide_finish _ _ _ _), phase_of_inputSide (inputSide_finish _ _ _ _)]
  exact hStopped

theorem completed_closed (task : Task) (exception close : Option ErrorCode) :
    Closed (s.completed task exception close).inputPhase := by
  have hClose := congrArg InputSide.inputPhase
    (inputSide_closePump (s.noteException task exception) task close)
  rw [show (s.completed task exception close).inputPhase = (s.noteException task exception).inputPhase
    from hClose]
  by_cases hInput : task = .input
  · subst hInput
    cases exception with
    | none => exact h
    | some code => exact .inr (.inr (.inr rfl))
  · rw [phase_of_inputSide (inputSide_noteException hInput exception)]
    exact h

end

theorem step_closed (h : InputInv s.inputSide) (hClosed : Closed s.inputPhase) (event : Event) :
    Closed (s.step event).inputPhase := by
  have hNotOpen : s.inputPhase ≠ .open := by
    rintro hOpen
    rw [hOpen] at hClosed
    simp [Closed] at hClosed
  have hBegun : s.started = true ∨ s.inputStopped = true := by
    refine h.begun fun hNone => ?_
    rw [show s.inputPhase = .notStarted from hNone] at hClosed
    simp [Closed] at hClosed
  cases event with
  | prepareAttachment | launch | join =>
    simp only [step]
    split_ifs <;> exact hClosed
  | start thrown close =>
    have hRefuses : s.refusesStart = true := by
      unfold refusesStart
      rcases hBegun with hBegun | hBegun <;> simp [hBegun]
    simp only [step, startTasks]
    rw [if_pos hRefuses]
    exact hClosed
  | enqueueInput input =>
    simp only [step, enqueueInput]
    split_ifs
    · rw [wakeInput_phase]
      exact hClosed
    · exact hClosed
  | requestInputEnd =>
    simp only [step, requestInputEnd]
    rw [if_pos (.inl hNotOpen)]
    exact hClosed
  | stopAdmission => exact hClosed
  | cancelInput close => exact abortInput_closed hClosed close
  | abort close => exact abort_closed hClosed close
  | runWriter close =>
    simp only [step]
    split_ifs
    · exact runWriter_closed hClosed close
    · exact hClosed
  | timer code =>
    simp only [step]
    split_ifs
    · cases code <;> exact hClosed
    · exact hClosed
  | writeSome count =>
    simp only [step]
    split
    · split_ifs <;> exact hClosed
    · exact hClosed
  | writeReturns code =>
    simp only [step, writeReturns]
    split
    · split_ifs
      · exact hClosed
      · exact hClosed
      · split
        · exact hClosed
        · exact .inr (.inl rfl)
        · exact .inr (.inl rfl)
        · exact hClosed
    · exact hClosed
  | read stream bytes code =>
    simp only [step]
    split_ifs
    · rw [phase_of_inputSide (inputSide_readReturns _ _ _ _),
        phase_of_inputSide (inputSide_receive _ _ _)]
      exact hClosed
    · exact hClosed
  | complete task close =>
    cases task with
    | input | output | error =>
      simp only [step]
      split
      · exact completed_closed hClosed _ _ _
      · exact hClosed

theorem run_closed (h : InputInv s.inputSide) (hClosed : Closed s.inputPhase)
    (events : List Event) : Closed (s.run events).inputPhase := by
  induction events generalizing s with
  | nil => exact hClosed
  | cons event events ih => exact ih (step_inputInv h event) (step_closed h hClosed event)

end State

end SimplexAgent.ProcessIo
