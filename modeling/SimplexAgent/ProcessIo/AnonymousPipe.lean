import SimplexAgent.ProcessIo.Capture

/-!
# Input and output over anonymous pipes

`process_io::AnonymousPipeIo`: one writer and two readers of a child, on one strand with
the calls that submit input, end it, cancel it or shut everything down. The strand is
given up at each `co_await` only, so an interleaving is a sequence of the sections
between them, and `Event` has one constructor per section. What the kernel answers (how
many bytes a write takes, which error it meets, what a read finds) is an argument of the
event, and so is the error of closing a descriptor. A child that exits is seen as the
end of its pipes only.

A pump is known by what it waits for. `accepted`, `written` and `received` are history
that the code does not keep: the chunks that `enqueue_input` has accepted, the bytes
that the pipe has taken, and the bytes that were read from a stream that was still open.
-/

namespace SimplexAgent.ProcessIo

inductive InputPhase where
  | notStarted
  | «open»
  | endRequested
  | ended
  | peerClosed
  | stopped
  | failed
  | unsupported
  deriving DecidableEq

inductive InputResult where
  | accepted
  | closed
  | unsupported
  deriving DecidableEq

/-- `State::Task`. -/
inductive Task where
  | input
  | output
  | error
  deriving DecidableEq

/-- Where `write` is. -/
inductive Writer where
  | notSpawned
  /-- At the head of its loop, or on its way there: posted, or woken. -/
  | ready
  /-- In the wait for `wake_input`. -/
  | sleeping
  /-- In `input.write`, with the bytes that are still to be written. -/
  | writing (rest : Bytes)
  /-- Returned or thrown; the completion handler has not run. -/
  | done (exception : Option ErrorCode)
  | completed
  deriving DecidableEq

/-- Where `read` is. -/
inductive Reader where
  | notSpawned
  | reading
  | done (exception : Option ErrorCode)
  | completed
  deriving DecidableEq

/-- `AnonymousPipeIo::State`. An exception is known by the code that `completed` finds
in it. -/
structure State where
  inputPipe : Bool := false
  outputPipe : Bool := false
  errorPipe : Bool := false
  capture : CaptureBuffer
  queue : List Bytes := []
  inputPhase : InputPhase := .notStarted
  prepared : Bool := false
  started : Bool := false
  accepting : Bool := false
  endRequested : Bool := false
  stopping : Bool := false
  inputStopped : Bool := false
  joined : Bool := false
  activeTasks : Nat := 0
  failure : Option ErrorCode := none
  writer : Writer := .notSpawned
  outputReader : Reader := .notSpawned
  errorReader : Reader := .notSpawned
  accepted : List Bytes := []
  written : Bytes := []
  received : List (Stream × UInt8) := []

structure CloseCodes where
  input : Option ErrorCode := none
  output : Option ErrorCode := none
  error : Option ErrorCode := none

inductive StartPoint where
  | prepare
  | spawn (task : Task)
  deriving DecidableEq

inductive Event where
  | prepareAttachment
  /-- The child is launched, and the pipes are open. -/
  | launch
  | start (thrown : Option (StartPoint × ErrorCode)) (close : CloseCodes)
  | enqueueInput (input : Bytes)
  | requestInputEnd
  | stopAdmission
  | cancelInput (close : Option ErrorCode)
  /-- The first section of `cancel_and_join`, or the destructor. -/
  | abort (close : CloseCodes)
  /-- A turn of the loop of `join_tasks`. -/
  | join
  /-- The writer, at the head of its loop. -/
  | runWriter (close : Option ErrorCode)
  /-- The timer ends by itself. -/
  | timer (code : Option ErrorCode)
  /-- One attempt to write. -/
  | writeSome (count : Nat)
  /-- `input.write` returns; without an error only if all is written. -/
  | writeReturns (code : Option ErrorCode)
  /-- `async_read_some` returns. -/
  | read (stream : Stream) (bytes : Bytes) (code : Option ErrorCode)
  /-- The completion handler of a pump. -/
  | complete (task : Task) (close : Option ErrorCode)

namespace State

/-- A new `AnonymousPipeIo`. -/
def initial (maxOutputBytes : Nat) : State where
  capture := .construct .separate maxOutputBytes

/-- `remember`: the first failure. -/
def remember (s : State) (code : Option ErrorCode) : State :=
  { s with failure := s.failure.or code }

def closeInput (s : State) (code : Option ErrorCode) : State :=
  if s.inputPipe then { s.remember code with inputPipe := false } else s

/-- What `close(input)` returns. -/
def closeInputCode (s : State) (code : Option ErrorCode) : Option ErrorCode :=
  if s.inputPipe then code else none

def closeOutput (s : State) (code : Option ErrorCode) : State :=
  if s.outputPipe then { s.remember code with outputPipe := false } else s

def closeError (s : State) (code : Option ErrorCode) : State :=
  if s.errorPipe then { s.remember code with errorPipe := false } else s

/-- `wake_input.cancel()`. -/
def wakeInput (s : State) : State :=
  if s.writer = .sleeping then { s with writer := .ready } else s

/-- `abort_input`. -/
def abortInput (s : State) (close : Option ErrorCode) : State :=
  let stopped : State :=
    { s with
      inputStopped := true
      accepting := false
      queue := []
      inputPhase :=
        if s.inputPhase = .open ∨ s.inputPhase = .endRequested ∨ s.inputPhase = .notStarted
        then .stopped else s.inputPhase }
  let closed := stopped.closeInput close
  (if (stopped.closeInputCode close).isSome then { closed with inputPhase := .failed }
   else closed).wakeInput

/-- `capture.finish`; no stream of this backend is absent. -/
def finish (s : State) (stream : Stream) (end_ : StreamEnd) (error : Option ErrorCode) : State :=
  match s.capture.finish stream end_ error with
  | .ok capture => { s with capture := capture }
  | .error _ => s

/-- `abort`. -/
def abort (s : State) (close : CloseCodes) : State :=
  (((({ s with stopping := true }.abortInput close.input).finish .stdout .stopped none).finish
    .stderr .stopped none).closeOutput close.output).closeError close.error

/-- `completed`, where a pump has ended with an exception. -/
def noteException (s : State) (task : Task) (exception : Option ErrorCode) : State :=
  match exception with
  | none => s
  | some code =>
    match task with
    | .input => { s.remember code with inputPhase := .failed, accepting := false, queue := [] }
    | .output => (s.remember code).finish .stdout .failed code
    | .error => (s.remember code).finish .stderr .failed code

/-- `completed`, where it closes the pipe of its pump. -/
def closePump (s : State) (task : Task) (close : Option ErrorCode) : State :=
  match task with
  | .input => { s.closeInput close with writer := .completed }
  | .output => { s.closeOutput close with outputReader := .completed }
  | .error => { s.closeError close with errorReader := .completed }

/-- `completed`. -/
def completed (s : State) (task : Task) (exception close : Option ErrorCode) : State :=
  let closed := (s.noteException task exception).closePump task close
  { closed with activeTasks := closed.activeTasks - 1 }

/-- `spawn`, which may throw. -/
def spawn (s : State) (task : Task) (throws : Bool) : State :=
  let counted := { s with activeTasks := s.activeTasks + 1 }
  if throws then { counted with activeTasks := counted.activeTasks - 1 }
  else
    match task with
    | .input => { counted with writer := .ready }
    | .output => { counted with outputReader := .reading }
    | .error => { counted with errorReader := .reading }

/-- The `try` block of `start_tasks`, up to where it throws. -/
def spawnAll (s : State) : Option StartPoint → State
  | some .prepare => s
  | some (.spawn .input) => s.spawn .input true
  | some (.spawn .output) => (s.spawn .input false).spawn .output true
  | some (.spawn .error) => ((s.spawn .input false).spawn .output false).spawn .error true
  | none => ((s.spawn .input false).spawn .output false).spawn .error false

/-- The condition under which `start_tasks` throws at once. -/
def refusesStart (s : State) : Bool :=
  s.started || s.stopping || s.inputStopped || !s.prepared || !s.inputPipe || !s.outputPipe ||
    !s.errorPipe

/-- The `catch` block of `start_tasks`. -/
def caught (s : State) (thrown : Option (StartPoint × ErrorCode)) (close : CloseCodes) : State :=
  match thrown with
  | none => s
  | some (_, code) => (s.remember code).abort close

/-- `start_tasks`, up to its `join_tasks`. -/
def startTasks (s : State) (thrown : Option (StartPoint × ErrorCode)) (close : CloseCodes) :
    State :=
  if s.refusesStart then s
  else
    let opened := { s with started := true, accepting := true, inputPhase := .open }
    let tried := (opened.spawnAll (thrown.map Prod.fst)).caught thrown close
    if tried.failure.isSome then tried.abort close else tried

/-- `enqueue_input`. -/
def enqueueInput (s : State) (input : Bytes) : State × InputResult :=
  if s.accepting then
    ({ s with queue := s.queue ++ [input], accepted := s.accepted ++ [input] }.wakeInput, .accepted)
  else (s, .closed)

/-- `request_input_end`. -/
def requestInputEnd (s : State) : State × InputResult :=
  if s.inputPhase ≠ .open ∨ s.stopping then (s, .closed)
  else
    ({ s with accepting := false, endRequested := true, inputPhase := .endRequested }.wakeInput,
     .accepted)

/-- `write`, from the head of its loop to where it waits or returns. -/
def runWriter (s : State) (close : Option ErrorCode) : State :=
  if s.stopping ∨ s.inputStopped then { s with writer := .done none }
  else
    match s.queue with
    | [] =>
      if s.endRequested then
        { s.closeInput close with
          inputPhase := if (s.closeInputCode close).isSome then .failed else .ended
          writer := .done none }
      else { s with writer := .sleeping }
    | bytes :: queue => { s with queue := queue, writer := .writing bytes }

/-- `write`, after `input.write`. -/
def writeReturns (s : State) (code : Option ErrorCode) : State :=
  if s.stopping ∨ s.inputStopped then { s with writer := .done none }
  else
    match code with
    | none => { s with writer := .ready }
    | some .brokenPipe | some .eof =>
      { s with inputPhase := .peerClosed, accepting := false, queue := [], writer := .done none }
    | some code => { s with writer := .done code }

def reader (s : State) : Stream → Reader
  | .stdout => s.outputReader
  | .stderr => s.errorReader
  | .terminal => .notSpawned

def setReader (s : State) (stream : Stream) (reader : Reader) : State :=
  match stream with
  | .stdout => { s with outputReader := reader }
  | .stderr => { s with errorReader := reader }
  | .terminal => s

/-- `read`, after `async_read_some`. -/
def readReturns (s : State) (stream : Stream) (bytes : Bytes) (code : Option ErrorCode) : State :=
  if s.stopping then s.setReader stream (.done none)
  else
    match if bytes = [] then .ok s.capture else s.capture.append stream bytes with
    | .error _ => s.setReader stream (.done (some .ioError))
    | .ok capture =>
      let s := { s with capture := capture }
      match code with
      | none => s
      | some .eof => (s.finish stream .eof none).setReader stream (.done none)
      | some code => s.setReader stream (.done (some code))

/-- The bytes of a read that finds its stream open. -/
def receive (s : State) (stream : Stream) (bytes : Bytes) : State :=
  if s.capture.isOpen stream then { s with received := s.received ++ bytes.map (stream, ·) } else s

/-- One section. Events that do not fit the state of their pump change nothing. -/
def step (s : State) : Event → State
  | .prepareAttachment =>
    if s.prepared ∨ s.started ∨ s.stopping then s else { s with prepared := true }
  | .launch =>
    if s.prepared ∧ s.started = false then
      { s with inputPipe := true, outputPipe := true, errorPipe := true }
    else s
  | .start thrown close => s.startTasks thrown close
  | .enqueueInput input => (s.enqueueInput input).1
  | .requestInputEnd => s.requestInputEnd.1
  | .stopAdmission => { s with accepting := false }
  | .cancelInput close => s.abortInput close
  | .abort close => s.abort close
  | .join => if s.activeTasks = 0 then { s with joined := true } else s
  | .runWriter close => if s.writer = .ready then s.runWriter close else s
  | .timer code =>
    if s.writer = .sleeping then
      match code with
      | none => { s with writer := .ready }
      | some code => { s with writer := .done (some code) }
    else s
  | .writeSome count =>
    match s.writer with
    | .writing rest =>
      if s.inputPipe then
        { s with written := s.written ++ rest.take count, writer := .writing (rest.drop count) }
      else s
    | _ => s
  | .writeReturns code =>
    match s.writer with
    | .writing rest => if code = none ∧ rest ≠ [] then s else s.writeReturns code
    | _ => s
  | .read stream bytes code =>
    if s.reader stream = .reading then (s.receive stream bytes).readReturns stream bytes code
    else s
  | .complete .input close =>
    match s.writer with
    | .done exception => s.completed .input exception close
    | _ => s
  | .complete .output close =>
    match s.outputReader with
    | .done exception => s.completed .output exception close
    | _ => s
  | .complete .error close =>
    match s.errorReader with
    | .done exception => s.completed .error exception close
    | _ => s

def run (s : State) (events : List Event) : State := events.foldl step s

end State

end SimplexAgent.ProcessIo
