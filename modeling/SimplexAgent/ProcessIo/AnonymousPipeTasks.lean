import SimplexAgent.ProcessIo.AnonymousPipe

/-!
# The supervision of the pumps

`active_tasks` counts the pumps between their spawning and their completion handlers,
also where a start throws half way. Most operations move a pump inside that stretch and
leave `TaskSide` alone.
-/

namespace SimplexAgent.ProcessIo

/-- How far a pump is, for the join fence. -/
inductive Pump where
  | fresh
  /-- Spawned, and its completion handler has not run. -/
  | active
  | over
  deriving DecidableEq

def Pump.count : Pump → Nat
  | .active => 1
  | .fresh | .over => 0

def Writer.pump : Writer → Pump
  | .notSpawned => .fresh
  | .completed => .over
  | .ready | .sleeping | .writing _ | .done _ => .active

def Reader.pump : Reader → Pump
  | .notSpawned => .fresh
  | .completed => .over
  | .reading | .done _ => .active

namespace State

structure TaskSide where
  activeTasks : Nat
  started : Bool
  input : Pump
  output : Pump
  error : Pump

def taskSide (s : State) : TaskSide where
  activeTasks := s.activeTasks
  started := s.started
  input := s.writer.pump
  output := s.outputReader.pump
  error := s.errorReader.pump

/-- The pumps that have been spawned and whose completion has not run. -/
def TaskSide.pumps (t : TaskSide) : Nat := t.input.count + t.output.count + t.error.count

structure TaskInv (t : TaskSide) : Prop where
  counted : t.activeTasks = t.pumps
  fresh : t.started = false → t.input = .fresh ∧ t.output = .fresh ∧ t.error = .fresh

@[simp] theorem taskSide_remember (s : State) (code : Option ErrorCode) :
    (s.remember code).taskSide = s.taskSide := rfl

@[simp] theorem taskSide_closeInput (s : State) (code : Option ErrorCode) :
    (s.closeInput code).taskSide = s.taskSide := by
  unfold closeInput
  split_ifs <;> rfl

@[simp] theorem taskSide_closeOutput (s : State) (code : Option ErrorCode) :
    (s.closeOutput code).taskSide = s.taskSide := by
  unfold closeOutput
  split_ifs <;> rfl

@[simp] theorem taskSide_closeError (s : State) (code : Option ErrorCode) :
    (s.closeError code).taskSide = s.taskSide := by
  unfold closeError
  split_ifs <;> rfl

@[simp] theorem taskSide_finish (s : State) (stream : Stream) (end_ : StreamEnd)
    (error : Option ErrorCode) : (s.finish stream end_ error).taskSide = s.taskSide := by
  unfold finish
  split <;> rfl

@[simp] theorem taskSide_receive (s : State) (stream : Stream) (bytes : Bytes) :
    (s.receive stream bytes).taskSide = s.taskSide := by
  unfold receive
  split_ifs <;> rfl

@[simp] theorem taskSide_wakeInput (s : State) : s.wakeInput.taskSide = s.taskSide := by
  unfold wakeInput
  split_ifs with hSleeping
  · unfold taskSide
    rw [hSleeping]
    rfl
  · rfl

@[simp] theorem taskSide_abortInput (s : State) (close : Option ErrorCode) :
    (s.abortInput close).taskSide = s.taskSide := by
  unfold abortInput
  dsimp only
  rw [taskSide_wakeInput]
  split_ifs
  all_goals exact taskSide_closeInput _ close

@[simp] theorem taskSide_abort (s : State) (close : CloseCodes) :
    (s.abort close).taskSide = s.taskSide := by
  unfold abort
  rw [taskSide_closeError, taskSide_closeOutput, taskSide_finish, taskSide_finish,
    taskSide_abortInput]
  rfl

variable {s : State}

theorem taskSide_setReader {stream : Stream} {reader : Reader}
    (h : (s.reader stream).pump = reader.pump) :
    (s.setReader stream reader).taskSide = s.taskSide := by
  cases stream with
  | stdout => exact congrArg (fun p => { s.taskSide with output := p }) h.symm
  | stderr => exact congrArg (fun p => { s.taskSide with error := p }) h.symm
  | terminal => rfl

@[simp] theorem reader_finish (s : State) (stream other : Stream) (end_ : StreamEnd)
    (error : Option ErrorCode) : (s.finish stream end_ error).reader other = s.reader other := by
  unfold finish
  split
  · cases other <;> rfl
  · rfl

theorem taskSide_readReturns {stream : Stream} (h : s.reader stream = .reading) (bytes : Bytes)
    (code : Option ErrorCode) : (s.readReturns stream bytes code).taskSide = s.taskSide := by
  have hPump (exception : Option ErrorCode) :
      (s.reader stream).pump = (Reader.done exception).pump := by
    rw [h]
    rfl
  unfold readReturns
  by_cases hStopping : s.stopping = true
  · rw [if_pos hStopping]
    exact taskSide_setReader (hPump _)
  rw [if_neg hStopping]
  split
  next => exact taskSide_setReader (hPump _)
  next capture _ =>
    have hReader : ({ s with capture := capture } : State).reader stream = s.reader stream := by
      cases stream <;> rfl
    split
    next => rfl
    next =>
      rw [taskSide_setReader]
      · exact taskSide_finish _ _ _ _
      · rw [reader_finish, hReader]
        exact hPump none
    next code _ =>
      rw [taskSide_setReader]
      · rfl
      · rw [hReader]
        exact hPump (some code)

theorem taskSide_runWriter (h : s.writer = .ready) (close : Option ErrorCode) :
    (s.runWriter close).taskSide = s.taskSide := by
  have hSame : s.taskSide = { s.taskSide with input := .active } := by
    unfold taskSide
    rw [h]
    rfl
  unfold runWriter
  rw [hSame]
  split_ifs
  · rfl
  all_goals
    split
    · first
        | rfl
        | exact congrArg (fun t : TaskSide => { t with input := Pump.active })
            (taskSide_closeInput s close)
    · rfl

theorem taskSide_writeReturns {rest : Bytes} (h : s.writer = .writing rest)
    (code : Option ErrorCode) : (s.writeReturns code).taskSide = s.taskSide := by
  have hSame : s.taskSide = { s.taskSide with input := .active } := by
    unfold taskSide
    rw [h]
    rfl
  unfold writeReturns
  rw [hSame]
  split_ifs
  · rfl
  · split <;> rfl

def TaskSide.pump (t : TaskSide) : Task → Pump
  | .input => t.input
  | .output => t.output
  | .error => t.error

def TaskSide.setPump (t : TaskSide) (task : Task) (pump : Pump) : TaskSide :=
  match task with
  | .input => { t with input := pump }
  | .output => { t with output := pump }
  | .error => { t with error := pump }

theorem taskSide_noteException (s : State) (task : Task) (exception : Option ErrorCode) :
    (s.noteException task exception).taskSide = s.taskSide := by
  cases exception with
  | none => rfl
  | some code =>
    cases task with
    | input => rfl
    | output | error => exact taskSide_finish _ _ _ _

theorem taskSide_closePump (s : State) (task : Task) (close : Option ErrorCode) :
    (s.closePump task close).taskSide = s.taskSide.setPump task .over := by
  cases task with
  | input => exact congrArg (TaskSide.setPump · .input .over) (taskSide_closeInput s close)
  | output => exact congrArg (TaskSide.setPump · .output .over) (taskSide_closeOutput s close)
  | error => exact congrArg (TaskSide.setPump · .error .over) (taskSide_closeError s close)

theorem taskSide_completed (s : State) (task : Task) (exception close : Option ErrorCode) :
    (s.completed task exception close).taskSide =
      { s.taskSide.setPump task .over with activeTasks := s.activeTasks - 1 } := by
  have hClosed := taskSide_closePump (s.noteException task exception) task close
  rw [taskSide_noteException] at hClosed
  have hCount := congrArg TaskSide.activeTasks hClosed
  unfold completed
  show ({ ((s.noteException task exception).closePump task close).taskSide with
    activeTasks := ((s.noteException task exception).closePump task close).taskSide.activeTasks - 1 }
      : TaskSide) = _
  rw [hClosed]
  cases task <;> rfl

theorem completed_taskInv (h : TaskInv s.taskSide) (task : Task)
    (hActive : s.taskSide.pump task = .active) (exception close : Option ErrorCode) :
    TaskInv (s.completed task exception close).taskSide := by
  have hCounted := h.counted
  rw [taskSide_completed]
  constructor
  · show s.taskSide.activeTasks - 1 = _
    rw [hCounted]
    unfold TaskSide.pumps TaskSide.setPump
    unfold TaskSide.pump at hActive
    cases task <;> dsimp only at hActive ⊢ <;> rw [hActive] <;> simp only [Pump.count] <;> omega
  · intro hStarted
    have hFresh : s.taskSide.input = .fresh ∧ s.taskSide.output = .fresh ∧
        s.taskSide.error = .fresh := by
      apply h.fresh
      cases task <;> exact hStarted
    unfold TaskSide.pump at hActive
    cases task <;> simp_all

theorem spawn_counted (h : s.taskSide.activeTasks = s.taskSide.pumps) (task : Task)
    (hFresh : s.taskSide.pump task = .fresh) (throws : Bool) :
    (s.spawn task throws).taskSide.activeTasks = (s.spawn task throws).taskSide.pumps := by
  cases throws with
  | true => exact h
  | false =>
    cases task with
    | input =>
      have hPump : s.taskSide.input = .fresh := hFresh
      show s.taskSide.activeTasks + 1 = 1 + s.taskSide.output.count + s.taskSide.error.count
      rw [h, TaskSide.pumps, hPump]
      simp only [Pump.count]
      omega
    | output =>
      have hPump : s.taskSide.output = .fresh := hFresh
      show s.taskSide.activeTasks + 1 = s.taskSide.input.count + 1 + s.taskSide.error.count
      rw [h, TaskSide.pumps, hPump]
      simp only [Pump.count]
      omega
    | error =>
      have hPump : s.taskSide.error = .fresh := hFresh
      show s.taskSide.activeTasks + 1 = s.taskSide.input.count + s.taskSide.output.count + 1
      rw [h, TaskSide.pumps, hPump]
      simp only [Pump.count]

theorem spawn_other (s : State) (task other : Task) (throws : Bool) (h : other ≠ task) :
    (s.spawn task throws).taskSide.pump other = s.taskSide.pump other := by
  cases throws <;> cases task <;> cases other <;> first | rfl | exact absurd rfl h

theorem spawnAll_counted (h : s.taskSide.activeTasks = s.taskSide.pumps)
    (hFresh : ∀ task, s.taskSide.pump task = .fresh) (thrown : Option StartPoint) :
    (s.spawnAll thrown).taskSide.activeTasks = (s.spawnAll thrown).taskSide.pumps := by
  have hInput := spawn_counted h .input (hFresh .input)
  have hOutput (throws : Bool) := spawn_counted (hInput false) .output
    ((spawn_other s .input .output false (by decide)).trans (hFresh .output)) throws
  have hError (throws : Bool) := spawn_counted (hOutput false) .error
    (((spawn_other _ .output .error false (by decide)).trans
      (spawn_other s .input .error false (by decide))).trans (hFresh .error)) throws
  cases thrown with
  | none => exact hError false
  | some point =>
    cases point with
    | prepare => exact h
    | spawn task =>
      cases task with
      | input => exact hInput true
      | output => exact hOutput true
      | error => exact hError true

theorem started_spawnAll (s : State) (thrown : Option StartPoint) :
    (s.spawnAll thrown).taskSide.started = s.started := by
  cases thrown with
  | none => rfl
  | some point =>
    cases point with
    | prepare => rfl
    | spawn task => cases task <;> rfl

theorem taskSide_caught (s : State) (thrown : Option (StartPoint × ErrorCode))
    (close : CloseCodes) : (s.caught thrown close).taskSide = s.taskSide := by
  unfold caught
  split
  · rfl
  · rw [taskSide_abort, taskSide_remember]

theorem startTasks_taskInv (h : TaskInv s.taskSide) (thrown : Option (StartPoint × ErrorCode))
    (close : CloseCodes) : TaskInv (s.startTasks thrown close).taskSide := by
  unfold startTasks
  by_cases hRefuses : s.refusesStart = true
  · rw [if_pos hRefuses]
    exact h
  rw [if_neg hRefuses]
  dsimp only
  have hStarted : s.started = false := by
    simp only [refusesStart, Bool.or_eq_true, not_or, Bool.not_eq_true] at hRefuses
    exact hRefuses.1.1.1.1.1.1
  obtain ⟨hInput, hOutput, hError⟩ := h.fresh hStarted
  have hFresh : ∀ task, s.taskSide.pump task = .fresh := by
    intro task
    cases task with
    | input => exact hInput
    | output => exact hOutput
    | error => exact hError
  have hSpawned : TaskInv (({ s with
      started := true
      accepting := true
      inputPhase := .open } : State).spawnAll (thrown.map Prod.fst)).taskSide :=
    ⟨spawnAll_counted (s := { s with started := true, accepting := true, inputPhase := .open })
      h.counted hFresh _, fun hNot => by
      rw [started_spawnAll] at hNot
      cases hNot⟩
  have hCaught := (taskSide_caught _ thrown close).symm ▸ hSpawned
  split_ifs
  · rw [taskSide_abort]
    exact hCaught
  · exact hCaught

theorem step_taskInv (h : TaskInv s.taskSide) (event : Event) :
    TaskInv (s.step event).taskSide := by
  cases event with
  | prepareAttachment | launch | join =>
    simp only [step]
    split_ifs <;> exact h
  | start thrown close => exact startTasks_taskInv h thrown close
  | enqueueInput input =>
    simp only [step, enqueueInput]
    split_ifs
    · rw [taskSide_wakeInput]
      exact h
    · exact h
  | requestInputEnd =>
    simp only [step, requestInputEnd]
    split_ifs
    · exact h
    · rw [taskSide_wakeInput]
      exact h
  | stopAdmission => exact h
  | cancelInput close => exact (taskSide_abortInput s close).symm ▸ h
  | abort close => exact (taskSide_abort s close).symm ▸ h
  | runWriter close =>
    simp only [step]
    split_ifs with hReady
    · rw [taskSide_runWriter hReady]
      exact h
    · exact h
  | timer code =>
    simp only [step]
    split_ifs with hSleeping
    · have hSame : s.taskSide = { s.taskSide with input := .active } := by
        unfold taskSide
        rw [hSleeping]
        rfl
      rw [hSame] at h
      cases code with
      | none | some code => exact h
    · exact h
  | writeSome count =>
    simp only [step]
    split
    next rest hWriter =>
      have hSame : s.taskSide = { s.taskSide with input := .active } := by
        unfold taskSide
        rw [hWriter]
        rfl
      split_ifs
      · rw [hSame] at h
        exact h
      · exact h
    next => exact h
  | writeReturns code =>
    simp only [step]
    split
    next rest hWriter =>
      split_ifs
      · exact h
      · rw [taskSide_writeReturns hWriter]
        exact h
    next => exact h
  | read stream bytes code =>
    simp only [step]
    split_ifs with hReading
    · have hReceived : (s.receive stream bytes).reader stream = .reading := by
        unfold receive
        split_ifs
        · cases stream <;> exact hReading
        · exact hReading
      rw [taskSide_readReturns hReceived, taskSide_receive]
      exact h
    · exact h
  | complete task close =>
    cases task with
    | input =>
      simp only [step]
      split
      next exception hDone =>
        refine completed_taskInv h .input ?_ exception close
        show s.writer.pump = .active
        rw [hDone]
        rfl
      next => exact h
    | output =>
      simp only [step]
      split
      next exception hDone =>
        refine completed_taskInv h .output ?_ exception close
        show s.outputReader.pump = .active
        rw [hDone]
        rfl
      next => exact h
    | error =>
      simp only [step]
      split
      next exception hDone =>
        refine completed_taskInv h .error ?_ exception close
        show s.errorReader.pump = .active
        rw [hDone]
        rfl
      next => exact h

theorem run_taskInv (h : TaskInv s.taskSide) (events : List Event) :
    TaskInv (s.run events).taskSide := by
  induction events generalizing s with
  | nil => exact h
  | cons event events ih => exact ih (step_taskInv h event)

end State

end SimplexAgent.ProcessIo
