import SimplexAgent.ProcessIo.AnonymousPipeInput
import SimplexAgent.ProcessIo.AnonymousPipeTasks

/-!
# The output over anonymous pipes

Both readers append to one capture, until their stream ends or everything is stopped.
The capture is then what was received from the open streams, in the order of the reads,
cut at the limit. The module ends with what holds in every run.
-/

namespace SimplexAgent.ProcessIo

/-! ## Cutting at the limit -/

def kept (limit : Nat) (received : List (Stream × UInt8)) : List (Stream × UInt8) :=
  if limit = 0 then received else received.take limit

def ofStream (stream : Stream) (received : List (Stream × UInt8)) : Bytes :=
  (received.filter (·.1 = stream)).map Prod.snd

theorem ofStream_append (stream : Stream) (xs ys : List (Stream × UInt8)) :
    ofStream stream (xs ++ ys) = ofStream stream xs ++ ofStream stream ys := by
  unfold ofStream
  rw [List.filter_append, List.map_append]

theorem ofStream_map (stream other : Stream) (bytes : Bytes) :
    ofStream other (bytes.map (stream, ·)) = if other = stream then bytes else [] := by
  unfold ofStream
  by_cases hSame : other = stream
  · subst hSame
    rw [if_pos rfl, List.filter_eq_self.mpr]
    · rw [List.map_map]
      exact List.map_id bytes
    · intro pair hPair
      obtain ⟨byte, -, rfl⟩ := List.mem_map.mp hPair
      simp
  · rw [if_neg hSame, List.filter_eq_nil_iff.mpr]
    · rfl
    · intro pair hPair
      obtain ⟨byte, -, rfl⟩ := List.mem_map.mp hPair
      simp [Ne.symm hSame]

variable {m : Nat}

namespace CaptureBuffer

structure Holds (m : Nat) (c : CaptureBuffer) (received : List (Stream × UInt8)) : Prop where
  limit : c.limit = m
  used : c.limit ≠ 0 → c.retainedBytes = min c.limit received.length
  bytes : ∀ stream record, c.view stream = some record →
    record.bytes = ofStream stream (kept c.limit received)

theorem construct_holds (topology : OutputTopology) (maxOutputBytes : Nat) :
    Holds maxOutputBytes (construct topology maxOutputBytes) [] := by
  constructor
  · rfl
  · intro _
    exact (Nat.min_zero _).symm
  · intro stream record hView
    have hKept : kept maxOutputBytes [] = [] := by
      unfold kept
      split_ifs <;> simp
    show record.bytes = ofStream stream (kept maxOutputBytes [])
    rw [hKept]
    cases topology <;> cases stream <;> cases hView <;> rfl

theorem kept_append {c : CaptureBuffer} {received : List (Stream × UInt8)}
    (h : Holds m c received) (stream : Stream) (bytes : Bytes) :
    kept c.limit (received ++ bytes.map (stream, ·)) =
      kept c.limit received ++ (bytes.take (c.room bytes)).map (stream, ·) := by
  unfold kept room
  by_cases hLimit : c.limit = 0
  · rw [if_pos hLimit, if_pos hLimit, if_pos hLimit, List.take_length]
  · rw [if_neg hLimit, if_neg hLimit, if_neg hLimit, h.used hLimit, List.take_append, List.map_take]
    have hRoom : c.limit - min c.limit received.length = c.limit - received.length := by omega
    have hLength : (bytes.map (stream, ·)).length = bytes.length := List.length_map _
    rw [hRoom, Nat.min_comm, ← hLength, ← List.take_eq_take_min]

theorem append_holds {c c' : CaptureBuffer} {stream : Stream} {bytes : Bytes}
    {received : List (Stream × UInt8)} (h : Holds m c received)
    (hAppend : c.append stream bytes = .ok c') :
    Holds m c' (received ++ bytes.map (stream, ·)) := by
  obtain ⟨record, hView, hOpen, rfl⟩ := append_ok hAppend
  constructor
  · rw [limit_charge, limit_set]
    exact h.limit
  · intro hLimit
    rw [limit_charge, limit_set] at hLimit ⊢
    rw [retainedBytes_charge (by rw [limit_set]; exact hLimit), retainedBytes_set, h.used hLimit,
      List.length_append, List.length_map]
    unfold room
    rw [if_neg hLimit, h.used hLimit]
    omega
  · intro other record' hRecord
    rw [view_charge, view_set] at hRecord
    rw [limit_charge, limit_set, kept_append h, ofStream_append, ofStream_map]
    by_cases hSame : other = stream
    · rw [if_pos hSame] at hRecord ⊢
      cases hRecord
      subst hSame
      show record.bytes ++ _ = _
      rw [h.bytes other record hView]
    · rw [if_neg hSame] at hRecord ⊢
      rw [List.append_nil]
      exact h.bytes other record' hRecord

theorem finish_holds {c c' : CaptureBuffer} {stream : Stream} {end_ : StreamEnd}
    {error : Option ErrorCode} {received : List (Stream × UInt8)} (h : Holds m c received)
    (hFinish : c.finish stream end_ error = .ok c') : Holds m c' received := by
  obtain ⟨record, hView, hEnd, ⟨-, rfl⟩ | ⟨hOpen, rfl⟩⟩ := finish_ok hFinish
  · exact h
  constructor
  · exact h.limit
  · exact h.used
  · intro other record' hRecord
    rw [view_set] at hRecord
    rw [limit_set]
    by_cases hSame : other = stream
    · rw [if_pos hSame] at hRecord
      cases hRecord
      subst hSame
      exact h.bytes other record hView
    · rw [if_neg hSame] at hRecord
      exact h.bytes other record' hRecord

end CaptureBuffer

/-! ## The readers -/

namespace State

structure OutputSide where
  capture : CaptureBuffer
  received : List (Stream × UInt8)
  started : Bool
  stopping : Bool
  reader : Stream → Reader

def outputSide (s : State) : OutputSide where
  capture := s.capture
  received := s.received
  started := s.started
  stopping := s.stopping
  reader := s.reader

/-- What the readers and the stops keep. -/
structure OutputInv (m : Nat) (o : OutputSide) : Prop where
  holds : CaptureBuffer.Holds m o.capture o.received
  absent : o.capture.isOpen .terminal = false
  unstarted : o.started = false → (∀ stream, o.reader stream = .notSpawned) ∧
    (o.stopping = false → o.capture.isOpen .stdout = true ∧ o.capture.isOpen .stderr = true)
  reading : ∀ stream, o.reader stream = .reading → o.stopping = false →
    o.capture.isOpen stream = true
  stopped : o.stopping = true → ∀ stream, o.capture.isOpen stream = false

theorem initial_outputInv (maxOutputBytes : Nat) :
    OutputInv maxOutputBytes (initial maxOutputBytes).outputSide := by
  have hFresh : ∀ stream, (initial maxOutputBytes).reader stream = .notSpawned := by
    intro stream
    cases stream <;> rfl
  constructor
  · exact CaptureBuffer.construct_holds .separate maxOutputBytes
  · rfl
  · exact fun _ => ⟨hFresh, fun _ => ⟨rfl, rfl⟩⟩
  · intro stream hReading
    cases (hFresh stream).symm.trans hReading
  · exact fun hStopping => by cases hStopping

@[simp] theorem outputSide_closeInput (s : State) (code : Option ErrorCode) :
    (s.closeInput code).outputSide = s.outputSide := by
  unfold closeInput
  split_ifs <;> rfl

@[simp] theorem outputSide_closeOutput (s : State) (code : Option ErrorCode) :
    (s.closeOutput code).outputSide = s.outputSide := by
  unfold closeOutput
  split_ifs <;> rfl

@[simp] theorem outputSide_closeError (s : State) (code : Option ErrorCode) :
    (s.closeError code).outputSide = s.outputSide := by
  unfold closeError
  split_ifs <;> rfl

@[simp] theorem outputSide_wakeInput (s : State) : s.wakeInput.outputSide = s.outputSide := by
  unfold wakeInput
  split_ifs <;> rfl

@[simp] theorem outputSide_abortInput (s : State) (close : Option ErrorCode) :
    (s.abortInput close).outputSide = s.outputSide := by
  unfold abortInput
  dsimp only
  rw [outputSide_wakeInput]
  split_ifs
  all_goals exact outputSide_closeInput _ close

theorem outputSide_runWriter (s : State) (close : Option ErrorCode) :
    (s.runWriter close).outputSide = s.outputSide := by
  unfold runWriter
  split_ifs
  · rfl
  all_goals
    split
    · first
        | rfl
        | exact outputSide_closeInput s close
    · rfl

theorem outputSide_writeReturns (s : State) (code : Option ErrorCode) :
    (s.writeReturns code).outputSide = s.outputSide := by
  unfold writeReturns
  split_ifs
  · rfl
  · split <;> rfl

theorem isOpen_finish (s : State) (stream other : Stream) {end_ : StreamEnd} (hEnd : end_ ≠ .open)
    (error : Option ErrorCode) : (s.finish stream end_ error).capture.isOpen other =
      if other = stream then false else s.capture.isOpen other := by
  unfold finish
  split
  next capture hFinish =>
    exact CaptureBuffer.isOpen_finish hFinish other
  next failure hFinish =>
    split_ifs with hSame
    · rw [hSame]
      exact CaptureBuffer.isOpen_of_finish_error hEnd hFinish
    · rfl

variable {s : State} {stream : Stream}

theorem holds_finish (h : CaptureBuffer.Holds m s.capture s.received) (stream : Stream)
    (end_ : StreamEnd) (error : Option ErrorCode) :
    CaptureBuffer.Holds m (s.finish stream end_ error).capture (s.finish stream end_ error).received := by
  unfold finish
  split
  next capture hFinish => exact CaptureBuffer.finish_holds h hFinish
  next => exact h

theorem outputSide_finish (s : State) (stream : Stream) (end_ : StreamEnd)
    (error : Option ErrorCode) : (s.finish stream end_ error).outputSide =
      { s.outputSide with capture := (s.finish stream end_ error).capture } := by
  unfold finish
  split
  · rfl
  · rfl

section

variable (h : OutputInv m s.outputSide)
include h

/-- Everything is stopped. -/
theorem abort_outputInv (close : CloseCodes) : OutputInv m (s.abort close).outputSide := by
  have hSide := outputSide_abortInput { s with stopping := true } close.input
  unfold abort
  rw [outputSide_closeError, outputSide_closeOutput]
  generalize ({ s with stopping := true } : State).abortInput close.input = t at hSide
  have hHolds : CaptureBuffer.Holds m t.capture t.received := by
    rw [show t.capture = s.capture from congrArg OutputSide.capture hSide,
      show t.received = s.received from congrArg OutputSide.received hSide]
    exact h.holds
  have hReaders : t.reader = s.reader := congrArg OutputSide.reader hSide
  have hStarted : t.started = s.started := congrArg OutputSide.started hSide
  have hStopping : t.stopping = true := congrArg OutputSide.stopping hSide
  have hAbsent : t.capture.isOpen .terminal = false := by
    rw [show t.capture = s.capture from congrArg OutputSide.capture hSide]
    exact h.absent
  have hClosed : ∀ stream, ((t.finish .stdout .stopped none).finish .stderr .stopped
      none).capture.isOpen stream = false := by
    intro stream
    rw [isOpen_finish _ _ _ (by decide), isOpen_finish _ _ _ (by decide)]
    cases stream with
    | stdout => rfl
    | stderr => rfl
    | terminal => exact hAbsent
  have hHolds' := holds_finish (holds_finish hHolds .stdout .stopped none) .stderr .stopped none
  have hSide' : ((t.finish .stdout .stopped none).finish .stderr .stopped none).outputSide =
      { t.outputSide with capture :=
          ((t.finish .stdout .stopped none).finish .stderr .stopped none).capture } := by
    rw [outputSide_finish, outputSide_finish t]
  rw [show ((t.finish .stdout .stopped none).finish .stderr .stopped none).received = t.received
    from congrArg OutputSide.received hSide'] at hHolds'
  rw [hSide']
  constructor
  · exact hHolds'
  · exact hClosed .terminal
  · intro hNot
    refine ⟨fun stream => ?_, fun hRunning => Bool.noConfusion (hStopping.symm.trans hRunning)⟩
    show t.reader stream = .notSpawned
    rw [hReaders]
    exact (h.unstarted (hStarted.symm.trans hNot)).1 stream
  · exact fun stream _ hRunning => Bool.noConfusion (hStopping.symm.trans hRunning)
  · exact fun _ => hClosed

theorem finish_outputInv (hReader : s.reader stream ≠ .reading) (hStarted : s.started = true)
    {end_ : StreamEnd} (hEnd : end_ ≠ .open) (error : Option ErrorCode) :
    OutputInv m (s.finish stream end_ error).outputSide := by
  have hHolds := holds_finish h.holds stream end_ error
  have hOpen := fun other => isOpen_finish s stream other hEnd error
  have hSide := outputSide_finish s stream end_ error
  rw [show (s.finish stream end_ error).received = s.received from
    congrArg OutputSide.received hSide] at hHolds
  rw [hSide]
  constructor
  · exact hHolds
  · show (s.finish stream end_ error).capture.isOpen .terminal = false
    rw [hOpen]
    split_ifs
    · rfl
    · exact h.absent
  · exact fun hNot => Bool.noConfusion (hStarted.symm.trans hNot)
  · intro other hReading hRunning
    show (s.finish stream end_ error).capture.isOpen other = true
    rw [hOpen, if_neg]
    · exact h.reading other hReading hRunning
    · rintro rfl
      exact hReader hReading
  · intro hStopping other
    show (s.finish stream end_ error).capture.isOpen other = false
    rw [hOpen]
    split_ifs
    · rfl
    · exact h.stopped hStopping other

theorem setReader_outputInv (stream : Stream) {reader : Reader} (hReader : reader ≠ .reading)
    (hStarted : s.started = true) : OutputInv m (s.setReader stream reader).outputSide := by
  have hSame : (s.setReader stream reader).outputSide =
      { s.outputSide with reader := (s.setReader stream reader).reader } := by
    cases stream <;> rfl
  have hOther : ∀ other, (s.setReader stream reader).reader other = .reading →
      s.reader other = .reading := by
    intro other hReading
    cases stream <;> cases other <;> first
      | exact hReading
      | exact absurd hReading hReader
  rw [hSame]
  exact {
    holds := h.holds
    absent := h.absent
    unstarted := fun hNot => Bool.noConfusion (hStarted.symm.trans hNot)
    reading := fun other hReading => h.reading other (hOther other hReading)
    stopped := h.stopped }

theorem started_of_reader (hReader : s.reader stream ≠ .notSpawned) : s.started = true := by
  by_contra hNot
  have hUnstarted : s.started = false := by simpa using hNot
  exact hReader ((h.unstarted hUnstarted).1 stream)

end

theorem finish_setReader (s : State) (stream : Stream) (reader : Reader) (end_ : StreamEnd)
    (error : Option ErrorCode) : (s.finish stream end_ error).setReader stream reader =
      (s.setReader stream reader).finish stream end_ error := by
  have hCapture : (s.setReader stream reader).capture = s.capture := by
    cases stream <;> rfl
  unfold finish
  rw [hCapture]
  split
  · cases stream <;> rfl
  · rfl

theorem reader_setReader {reader : Reader} (h : s.reader stream ≠ .notSpawned) :
    (s.setReader stream reader).reader stream = reader := by
  cases stream with
  | stdout => rfl
  | stderr => rfl
  | terminal => exact absurd rfl h

section

variable (h : OutputInv m s.outputSide)
include h

theorem receive_outputInv (hStarted : s.started = true) (hStopping : s.stopping = false)
    {bytes : Bytes} {capture : CaptureBuffer}
    (hAppend : (if bytes = [] then .ok s.capture else s.capture.append stream bytes) = Except.ok capture) :
    OutputInv m { s with
      capture := capture
      received := s.received ++ bytes.map (stream, ·) }.outputSide := by
  have hKept : CaptureBuffer.Holds m capture (s.received ++ bytes.map (stream, ·)) ∧
      ∀ other, capture.isOpen other = s.capture.isOpen other := by
    by_cases hEmpty : bytes = []
    · rw [if_pos hEmpty] at hAppend
      cases hAppend
      rw [hEmpty, List.map_nil, List.append_nil]
      exact ⟨h.holds, fun _ => rfl⟩
    · rw [if_neg hEmpty] at hAppend
      exact ⟨CaptureBuffer.append_holds h.holds hAppend, CaptureBuffer.isOpen_append hAppend⟩
  constructor
  · exact hKept.1
  · exact (hKept.2 .terminal).trans h.absent
  · exact fun hNot => Bool.noConfusion (hStarted.symm.trans hNot)
  · exact fun other hReading hRunning =>
      (hKept.2 other).trans (h.reading other hReading hRunning)
  · exact fun hAgain => Bool.noConfusion (hStopping.symm.trans hAgain)

theorem read_outputInv (hReading : s.reader stream = .reading) (bytes : Bytes)
    (code : Option ErrorCode) :
    OutputInv m ((s.receive stream bytes).readReturns stream bytes code).outputSide := by
  have hSpawned : s.reader stream ≠ .notSpawned := by
    rw [hReading]
    simp
  have hStarted := started_of_reader h hSpawned
  have hDone (exception : Option ErrorCode) : Reader.done exception ≠ .reading := by simp
  by_cases hStopping : s.stopping = true
  · have hReceive : s.receive stream bytes = s := if_neg (by
      rw [show s.capture.isOpen stream = false from h.stopped hStopping stream]
      exact Bool.false_ne_true)
    rw [hReceive]
    unfold readReturns
    rw [if_pos hStopping]
    exact setReader_outputInv h stream (hDone none) hStarted
  · have hRunning : s.stopping = false := by simpa using hStopping
    have hOpen : s.capture.isOpen stream = true := h.reading stream hReading hRunning
    have hReceive : s.receive stream bytes =
        { s with received := s.received ++ bytes.map (stream, ·) } := if_pos hOpen
    rw [hReceive]
    unfold readReturns
    rw [if_neg hStopping]
    split
    next failure hAppend =>
      exfalso
      by_cases hEmpty : bytes = []
      · rw [if_pos hEmpty] at hAppend
        cases hAppend
      · obtain ⟨capture, hOk⟩ := CaptureBuffer.append_of_isOpen hOpen bytes
        rw [if_neg hEmpty] at hAppend
        cases hOk.symm.trans hAppend
    next capture hAppend =>
      have hInv := receive_outputInv h hStarted hRunning hAppend
      split
      next => exact hInv
      next =>
        rw [finish_setReader]
        refine finish_outputInv (setReader_outputInv hInv stream (hDone none) hStarted) ?_ ?_
          (by decide) none
        · rw [reader_setReader]
          · simp
          · cases stream <;> exact hSpawned
        · cases stream <;> exact hStarted
      next code _ => exact setReader_outputInv hInv stream (hDone (some code)) hStarted

theorem note_outputInv {exception : Option ErrorCode} (hDone : s.reader stream = .done exception)
    (task : Task)
    (hTask : (task = .output ∧ stream = .stdout) ∨ (task = .error ∧ stream = .stderr)) :
    OutputInv m (s.noteException task exception).outputSide ∧
      (s.noteException task exception).started = true := by
  have hStarted := started_of_reader h (show s.reader stream ≠ .notSpawned by rw [hDone]; simp)
  have hLeft : s.reader stream ≠ .reading := by
    rw [hDone]
    simp
  cases exception with
  | none => exact ⟨h, hStarted⟩
  | some code =>
    have hSide := outputSide_finish (s.remember code) stream .failed code
    have hLeft' : (s.remember code).reader stream ≠ .reading := by
      cases stream <;> exact hLeft
    have hFinish := finish_outputInv (s := s.remember code) h hLeft' hStarted
      (show StreamEnd.failed ≠ .open by decide) code
    have hStarted' := (congrArg OutputSide.started hSide).trans hStarted
    rcases hTask with ⟨rfl, rfl⟩ | ⟨rfl, rfl⟩
    · exact ⟨hFinish, hStarted'⟩
    · exact ⟨hFinish, hStarted'⟩

theorem caught_outputInv (thrown : Option (StartPoint × ErrorCode)) (close : CloseCodes) :
    OutputInv m (s.caught thrown close).outputSide := by
  unfold caught
  split
  · exact h
  · exact abort_outputInv (s := s.remember _) h close

theorem completed_outputInv (task : Task) (exception close : Option ErrorCode)
    (hOutput : task = .output → s.outputReader = .done exception)
    (hError : task = .error → s.errorReader = .done exception) :
    OutputInv m (s.completed task exception close).outputSide := by
  show OutputInv m ((s.noteException task exception).closePump task close).outputSide
  cases task with
  | input =>
    have hSide : (s.noteException .input exception).outputSide = s.outputSide := by
      cases exception <;> rfl
    show OutputInv m ((s.noteException .input exception).closeInput close).outputSide
    rw [outputSide_closeInput, hSide]
    exact h
  | output =>
    obtain ⟨hNoted, hStarted⟩ := note_outputInv h (show s.reader .stdout = _ from hOutput rfl) .output
      (.inl ⟨rfl, rfl⟩)
    have hClosed : OutputInv m ((s.noteException .output exception).closeOutput close).outputSide := by
      rw [outputSide_closeOutput]
      exact hNoted
    have hStarted' : ((s.noteException .output exception).closeOutput close).started = true :=
      (congrArg OutputSide.started (outputSide_closeOutput _ close)).trans hStarted
    exact setReader_outputInv hClosed .stdout (show Reader.completed ≠ .reading by simp)
      hStarted'
  | error =>
    obtain ⟨hNoted, hStarted⟩ := note_outputInv h (show s.reader .stderr = _ from hError rfl) .error
      (.inr ⟨rfl, rfl⟩)
    have hClosed : OutputInv m ((s.noteException .error exception).closeError close).outputSide := by
      rw [outputSide_closeError]
      exact hNoted
    have hStarted' : ((s.noteException .error exception).closeError close).started = true :=
      (congrArg OutputSide.started (outputSide_closeError _ close)).trans hStarted
    exact setReader_outputInv hClosed .stderr (show Reader.completed ≠ .reading by simp)
      hStarted'

end

/-! ## Starting -/

theorem begin_outputInv {s t : State} (h : OutputInv m s.outputSide) (hNot : s.started = false)
    (hStopping : s.stopping = false) (hStarted : t.started = true)
    (hSame : t.capture = s.capture ∧ t.received = s.received ∧ t.stopping = s.stopping) :
    OutputInv m t.outputSide := by
  obtain ⟨hCapture, hReceived, hStops⟩ := hSame
  obtain ⟨hOut, hErr⟩ := (h.unstarted hNot).2 hStopping
  constructor
  · show CaptureBuffer.Holds m t.capture t.received
    rw [hCapture, hReceived]
    exact h.holds
  · show t.capture.isOpen .terminal = false
    rw [hCapture]
    exact h.absent
  · exact fun hAgain => Bool.noConfusion (hStarted.symm.trans hAgain)
  · intro stream hReading _
    show t.capture.isOpen stream = true
    rw [hCapture]
    cases stream with
    | stdout => exact hOut
    | stderr => exact hErr
    | terminal => cases hReading
  · exact fun hAgain => Bool.noConfusion ((hStops.trans hStopping).symm.trans hAgain)

theorem spawnAll_same (s : State) (thrown : Option StartPoint) :
    (s.spawnAll thrown).started = s.started ∧ (s.spawnAll thrown).capture = s.capture ∧
      (s.spawnAll thrown).received = s.received ∧ (s.spawnAll thrown).stopping = s.stopping := by
  cases thrown with
  | none => exact ⟨rfl, rfl, rfl, rfl⟩
  | some point =>
    cases point with
    | prepare => exact ⟨rfl, rfl, rfl, rfl⟩
    | spawn task => cases task <;> exact ⟨rfl, rfl, rfl, rfl⟩

section

variable (h : OutputInv m s.outputSide)
include h

theorem startTasks_outputInv (thrown : Option (StartPoint × ErrorCode)) (close : CloseCodes) :
    OutputInv m (s.startTasks thrown close).outputSide := by
  unfold startTasks
  by_cases hRefuses : s.refusesStart = true
  · rw [if_pos hRefuses]
    exact h
  rw [if_neg hRefuses]
  dsimp only
  have hAllowed : s.started = false ∧ s.stopping = false := by
    simp only [refusesStart, Bool.or_eq_true, not_or, Bool.not_eq_true] at hRefuses
    exact ⟨hRefuses.1.1.1.1.1.1, hRefuses.1.1.1.1.1.2⟩
  obtain ⟨hStarted, hSame⟩ := spawnAll_same
    { s with started := true, accepting := true, inputPhase := .open } (thrown.map Prod.fst)
  have hSpawned := begin_outputInv h hAllowed.1 hAllowed.2 hStarted hSame
  have hCaught := caught_outputInv hSpawned thrown close
  split_ifs
  · exact abort_outputInv hCaught close
  · exact hCaught

theorem step_outputInv (event : Event) : OutputInv m (s.step event).outputSide := by
  cases event with
  | prepareAttachment | launch | join =>
    simp only [step]
    split_ifs <;> exact h
  | start thrown close => exact startTasks_outputInv h thrown close
  | enqueueInput input =>
    simp only [step, enqueueInput]
    split_ifs
    · rw [outputSide_wakeInput]
      exact h
    · exact h
  | requestInputEnd =>
    simp only [step, requestInputEnd]
    split_ifs
    · exact h
    · rw [outputSide_wakeInput]
      exact h
  | stopAdmission => exact h
  | cancelInput close => exact (outputSide_abortInput s close).symm ▸ h
  | abort close => exact abort_outputInv h close
  | runWriter close =>
    simp only [step]
    split_ifs
    · rw [outputSide_runWriter]
      exact h
    · exact h
  | timer code =>
    simp only [step]
    split_ifs
    · cases code <;> exact h
    · exact h
  | writeSome count =>
    simp only [step]
    split
    · split_ifs <;> exact h
    · exact h
  | writeReturns code =>
    simp only [step]
    split
    · split_ifs
      · exact h
      · rw [outputSide_writeReturns]
        exact h
    · exact h
  | read stream bytes code =>
    simp only [step]
    split_ifs with hReading
    · exact read_outputInv h hReading bytes code
    · exact h
  | complete task close =>
    cases task with
    | input =>
      simp only [step]
      split
      · exact completed_outputInv h .input _ close (fun hTask => by cases hTask)
          (fun hTask => by cases hTask)
      · exact h
    | output =>
      simp only [step]
      split
      next exception hDone =>
        exact completed_outputInv h .output exception close (fun _ => hDone)
          (fun hTask => by cases hTask)
      next => exact h
    | error =>
      simp only [step]
      split
      next exception hDone =>
        exact completed_outputInv h .error exception close (fun hTask => by cases hTask)
          (fun _ => hDone)
      next => exact h

theorem run_outputInv (events : List Event) : OutputInv m (s.run events).outputSide := by
  induction events generalizing s with
  | nil => exact h
  | cons event events ih => exact ih (step_outputInv h event)

end

/-! ## Every run -/

theorem run_laws (maxOutputBytes : Nat) (events : List Event) :
    InputInv ((initial maxOutputBytes).run events).inputSide ∧
      TaskInv ((initial maxOutputBytes).run events).taskSide ∧
      OutputInv maxOutputBytes ((initial maxOutputBytes).run events).outputSide :=
  ⟨run_inputInv (initial_inputInv maxOutputBytes) events,
    run_taskInv ⟨rfl, fun _ => ⟨rfl, rfl, rfl⟩⟩ events,
    run_outputInv (initial_outputInv maxOutputBytes) events⟩

/-- Every interleaving over anonymous pipes. The pipe takes a prefix of what was accepted, and all
of it before the input is ended; a closed input stays closed and accepts nothing; the writer does
not sleep while there is something to do; `active_tasks` counts the pumps whose completion has not
run; and the capture is what was read from the open streams, cut at the limit. -/
theorem anonymous_pipe_laws (maxOutputBytes : Nat) (events : List Event) :
    ((initial maxOutputBytes).run events).written <+:
        ((initial maxOutputBytes).run events).accepted.flatten ∧
      (((initial maxOutputBytes).run events).inputPhase = .ended →
        ((initial maxOutputBytes).run events).written =
          ((initial maxOutputBytes).run events).accepted.flatten) ∧
      (Closed ((initial maxOutputBytes).run events).inputPhase → ∀ later,
        Closed ((initial maxOutputBytes).run (events ++ later)).inputPhase ∧
        ∀ input, ((initial maxOutputBytes).run (events ++ later)).enqueueInput input =
          ((initial maxOutputBytes).run (events ++ later), .closed)) ∧
      (((initial maxOutputBytes).run events).writer = .sleeping →
        ((initial maxOutputBytes).run events).queue = [] ∧
          ((initial maxOutputBytes).run events).endRequested = false) ∧
      ((initial maxOutputBytes).run events).activeTasks =
        ((initial maxOutputBytes).run events).taskSide.pumps ∧
      ∀ stream record, ((initial maxOutputBytes).run events).capture.view stream = some record →
        record.bytes = ofStream stream
          (kept maxOutputBytes ((initial maxOutputBytes).run events).received) := by
  obtain ⟨hInput, hTask, hOutput⟩ := run_laws maxOutputBytes events
  refine ⟨written_initial hInput, fun hEnded => (hInput.ended hEnded).1, ?_, ?_, hTask.counted, ?_⟩
  · intro hClosed later
    have hRun : (initial maxOutputBytes).run (events ++ later) =
        ((initial maxOutputBytes).run events).run later := List.foldl_append
    have hInput' := run_inputInv hInput later
    have hClosed' := run_closed hInput hClosed later
    rw [hRun]
    refine ⟨hClosed', fun input => ?_⟩
    have hNotAccepting : ¬(((initial maxOutputBytes).run events).run later).accepting = true := by
      intro hAccepting
      have hOpen := hInput'.accepting hAccepting
      rw [show (((initial maxOutputBytes).run events).run later).inputPhase = .open from hOpen]
        at hClosed'
      simp [Closed] at hClosed'
    unfold enqueueInput
    rw [if_neg hNotAccepting]
  · intro hSleeping
    obtain ⟨hQueue, hEnd, -, -⟩ := hInput.sleeping hSleeping
    exact ⟨hQueue, hEnd⟩
  · intro stream record hView
    have hBytes := hOutput.holds.bytes stream record hView
    rwa [show ((initial maxOutputBytes).run events).outputSide.capture.limit = maxOutputBytes from
      hOutput.holds.limit] at hBytes

end State

end SimplexAgent.ProcessIo
