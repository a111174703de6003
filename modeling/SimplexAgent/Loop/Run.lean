import SimplexAgent.Loop.History
import SimplexAgent.Verified.Interruptible

/-!
# One invocation of the loop

`loop::run`: admission, input, model exchanges, tool batches and settlement, with
every place at which something outside can return, fail or ask to stop. The model,
the registry, the hooks and the checkpoint function are the fields of `Env`; each
is an arbitrary function of what it is handed and of a world it may change. Hooks
see the state as a constant, except through the two edit events.

The run keeps its state when it fails, so it is a program over `RunState`: the
conversation, the world, the result so far, and the marks the run has written into
its progress record. Without an exchange limit a run need not end; `run` takes the
number of rounds it may still begin and halts when there are none left.
-/

namespace SimplexAgent.Loop

open Dataclass Verified.Interruptible

/-! ## Contracts -/

inductive RunStatus where
  | completed
  | cancelled
  | exchangeLimit
  | failed
  | autoCompactRequired
  deriving DecidableEq, Repr

inductive RunFailureStage where
  | other
  | modelRequest
  deriving DecidableEq, Repr

inductive AutoCompactReason where
  | none
  | tokenThreshold
  | exchangeLimit
  deriving DecidableEq, Repr

structure RunResult where
  status : RunStatus := .failed
  completedExchanges : UInt64 := 0
  error : String := ""
  lastExchangeTokens : Option UInt64 := none
  autoCompactReason : AutoCompactReason := .none
  failureStage : RunFailureStage := .other
  deriving DecidableEq

inductive Checkpoint where
  | beforeTools
  | resultsReady
  | stepFinished
  | runFinished
  deriving DecidableEq, Repr

structure Options where
  maxExchanges : Option UInt64 := some 32
  autoCompactThreshold : UInt64 := 0
  deriving DecidableEq

/-- The events whose subscribers see the state as a constant. -/
inductive Event where
  | runStarted
  | inputCommitted
  | modelCommitted
  | beforeToolBatch (calls : List InvokeQuery)
  | toolDispatchCheckpoint
  | toolResultsCheckpoint
  | toolResultsCommitted
  | stepFinished
  | runFinished (result : RunResult)

inductive EditEvent where
  | stepFinished
  | runFinished (result : RunResult)

/-- What a hook may change before a model request. -/
structure ModelContext where
  systemPrompt : PromptTemplate
  tools : List Invocable
  extras : Option Json

/-- Everything outside the loop, over a world `W` that it reads and changes. -/
structure Env (W : Type) where
  stopRequested : W → Bool × W
  publish : Event → AgentInputState → W → Except Failure Unit × W
  beforeInput : MessageItem → W → Except Failure MessageItem × W
  beforeModel : AgentInputState → ModelContext → W → Except Failure ModelContext × W
  converse : AgentInputState → W → Except Failure MessageItem × W
  execute : List InvokeQuery → W → Except Failure (List InvokeReturn) × W
  checkpoint : Option (Checkpoint → AgentInputState → W → Except Failure Unit × W)
  /-- Whether an edit event has subscribers at the moment. -/
  subscribed : EditEvent → W → Bool
  /-- The edited state, also when a subscriber failed half-way. -/
  edit : EditEvent → AgentInputState → W → (Except Failure Unit × AgentInputState) × W

/-- What the run writes into its progress record around a batch. -/
inductive Mark where
  /-- The phase becomes `tools`. -/
  | dispatch (calls : List InvokeQuery)
  /-- The results are recorded and the phase becomes `projection`. -/
  | results (records : List InvokeReturn)

structure RunState (W : Type) where
  state : AgentInputState
  world : W
  result : RunResult := {}
  admitted : Bool := false
  marks : List Mark := []

section Run

variable {W : Type} (env : Env W)

abbrev Run (W : Type) := Prog (RunState W) Failure

/-- An outside operation on the world. -/
def external {α : Type} (f : AgentInputState → W → Except Failure α × W) : Run W α :=
  Prog.call fun s => ((f s.state s.world).1, { s with world := (f s.state s.world).2 })

def stopRequested : Run W Bool :=
  external fun _ w => (.ok (env.stopRequested w).1, (env.stopRequested w).2)

def publish (event : Event) : Run W Unit := external (env.publish event)

/-- An awaited durability barrier, when the host has one. -/
def checkpoint (boundary : Checkpoint) : Run W Unit :=
  match env.checkpoint with
  | some save => external (save boundary)
  | none => pure ()

def setState (state : AgentInputState) : Run W Unit := modify fun s => { s with state }

def setResult (f : RunResult → RunResult) : Run W Unit :=
  modify fun s => { s with result := f s.result }

def setStatus (status : RunStatus) : Run W Unit := setResult fun r => { r with status }

def setProgress (f : LoopProgress → LoopProgress) : Run W Unit :=
  modify fun s => { s with state := { s.state with loop := s.state.loop.map f } }

/-- `edit_state`: without subscribers nothing happens, a refused edit is undone. -/
def editState (event : EditEvent) : Run W Unit :=
  Prog.call fun s =>
    if env.subscribed event s.world then
      let ((outcome, edited), world) := env.edit event s.state s.world
      match outcome >>= fun _ => validateStateEdit edited s.state with
      | .ok () => (.ok (), { s with state := edited, world })
      | .error e => (.error e, { s with world })
    else (.ok (), s)

/-! ## Admission -/

def isUserMessage (message : MessageItem) : Bool :=
  message.type = .userInput ∧ message.invokes.isNone ∧ message.invokeReturn.isNone

/-- The checks on the request and on uncertain earlier work. -/
def validateRequest (options : Options) (message : Option MessageItem)
    (state : AgentInputState) : Except Failure Unit :=
  if options.maxExchanges = some 0 then refuse "max_exchanges must be positive"
  else if message.any (fun m => !isUserMessage m) then
    refuse "new message requires a user message without tool calls"
  else if message.isNone ∧ state.turns = [] then refuse "no turn to continue"
  else if state.loop.any (fun p => p.phase = .tools ∨ p.phase = .blocked) then
    .error { kind := .recoveryRequired,
             what := "previous tool execution requires host inspection" }
  else .ok ()

/-- Results recorded by an earlier run are projected before anything else. -/
def recover (state : AgentInputState) : Except Failure AgentInputState :=
  match state.loop with
  | none => .ok state
  | some p =>
    if p.phase ≠ .ready ∧ p.phase ≠ .model ∧ p.phase ≠ .projection then
      refuse "unknown loop recovery phase"
    else if p.phase ≠ .projection ∧ p.pendingResults ≠ [] then
      refuse "pending results outside projection phase"
    else if p.phase = .projection then
      if p.pendingResults = [] then refuse "projection phase has no results"
      else do
        validateStateStructure state
        project state
    else .ok state

def startProgress (s : RunState W) : RunState W :=
  { s with
    admitted := true
    state := { s.state with
      loop := some
        { status := .running
          committedResponseSequence :=
            (s.state.loop.map LoopProgress.committedResponseSequence).getD 0 } } }

/-- Whether the run was admitted; a stop request before that cancels it. -/
def admission (options : Options) (message : Option MessageItem) : Run W Bool := do
  Prog.check (validateRequest options message (← get).state)
  if ← stopRequested env then
    setStatus .cancelled
    return false
  else
    setState (← Prog.check (recover (← get).state))
    Prog.check (validateStateStructure (← get).state)
    if ← stopRequested env then
      setStatus .cancelled
      return false
    else
      modify startProgress
      return true

/-- The input hook may rewrite the message; a stop request keeps it out. -/
def acceptInput (message : MessageItem) : Run W Unit := do
  let message ← external fun _ w => env.beforeInput message w
  if !isUserMessage message then
    Prog.raise { what := "input hook produced an invalid user message" }
  else if ← stopRequested env then
    return ()
  else
    setState (modelIntegrate (← get).state message)
    publish env .inputCommitted

/-! ## One exchange -/

/-- `BeforeModel` and the commit of what it changed; false after a stop request. -/
def prepareModel : Run W Bool := do
  let state := (← get).state
  let context ← external fun state w =>
    env.beforeModel state ⟨state.systemPrompt, state.tools, state.extras⟩ w
  Prog.check (validateRender context.systemPrompt)
  if ← stopRequested env then
    setStatus .cancelled
    return false
  else
    setState { state with
      systemPrompt := context.systemPrompt
      tools := context.tools
      extras := context.extras }
    return true

/-- An aborted request counts as cancelled only when a stop was requested. -/
def isCancellation (failure : Failure) : Run W Bool :=
  if failure.kind = .operationAborted then stopRequested env else pure false

/-- `converse_interruptibly` and its handlers; nothing after a cancellation. -/
def converse : Run W (Option MessageItem) :=
  Prog.handle
    (do
      if ← stopRequested env then
        Prog.raise { kind := .operationAborted, what := "Operation canceled" }
      else
        return some (← external env.converse))
    (fun failure => do
      if ← isCancellation env failure then
        setProgress fun p => { p with phase := .ready }
        setStatus .cancelled
        return none
      else
        setResult fun r => { r with failureStage := .modelRequest }
        Prog.raise failure)

/-- Prompt and generated tokens, when their sum is representable. -/
def exchangeTokens (response : MessageItem) : Option UInt64 :=
  response.cost.bind fun cost =>
    if cost.generated ≤ 18446744073709551615 - cost.prompt then some (cost.prompt + cost.generated)
    else none

/-- A checked response becomes a step; the phase is `ready` again. -/
def commitResponse (response : MessageItem) : Run W Unit := do
  if response.type ≠ .modelResponse ∨ response.invokeReturn.isSome then
    Prog.raise { what := "model returned an invalid response type" }
  else
    Prog.check (validateCalls response)
    setState (← Prog.check (integrateResponse (← get).state response))
    let completed := (← get).result.completedExchanges + 1
    setProgress fun p => { p with phase := .ready, completedExchanges := completed }
    setResult fun r =>
      { r with completedExchanges := completed, lastExchangeTokens := exchangeTokens response }

/-- Observers of the response; the text of their failure is kept for later. -/
def announceResponse (response : MessageItem) : Run W String :=
  Prog.handle
    (do
      publish env .modelCommitted
      if (response.invokes.getD []) ≠ [] then
        publish env (.beforeToolBatch (response.invokes.getD []))
        return ""
      else
        return "")
    (fun failure => return errorText failure)

def markDispatch (calls : List InvokeQuery) : Run W Unit :=
  modify fun s =>
    { s with
      state := { s.state with loop := s.state.loop.map fun p => { p with phase := .tools } }
      marks := s.marks ++ [.dispatch calls] }

def recordResults (records : List InvokeReturn) : Run W Unit :=
  modify fun s =>
    { s with
      state := { s.state with
        loop := s.state.loop.map fun p =>
          { p with phase := .projection, pendingResults := records } }
      marks := s.marks ++ [.results records] }

/-- Up to the registry: mark, checkpoint, then execute or skip. -/
def dispatchBatch (calls : List InvokeQuery) (hookError : String) :
    Run W (List InvokeReturn) := do
  markDispatch calls
  publish env .toolDispatchCheckpoint
  checkpoint env .beforeTools
  let stopped ← stopRequested env
  if stopped ∨ hookError ≠ "" then
    return skipped calls
  else
    external fun _ w => env.execute calls w

def projectBatch (records : List InvokeReturn) : Run W Unit := do
  recordResults records
  publish env .toolResultsCheckpoint
  checkpoint env .resultsReady
  setState (← Prog.check (project (← get).state))

def finishStep : Run W Unit := do
  publish env .toolResultsCommitted
  editState env .stepFinished
  publish env .stepFinished
  checkpoint env .stepFinished

def settleBatch (calls : List InvokeQuery) (hookError : String) : Run W Unit := do
  let records ← dispatchBatch env calls hookError
  projectBatch env records
  if hookError ≠ "" then
    Prog.raise { what := hookError }
  else
    finishStep env

/-- Why a settled exchange ends the run, if it does. -/
def autoCompact (options : Options) (result : RunResult) : Option AutoCompactReason :=
  if options.autoCompactThreshold = 0 then none
  else if result.lastExchangeTokens.any (fun n => n > options.autoCompactThreshold) then
    some .tokenThreshold
  else if options.maxExchanges.any (fun n => result.completedExchanges ≥ n) then
    some .exchangeLimit
  else none

/-- After a settled batch: stop, hand over for compaction, or go on. -/
def boundary (options : Options) : Run W Bool := do
  if ← stopRequested env then
    setStatus .cancelled
    return false
  else
    match autoCompact options (← get).result with
    | some reason =>
      setResult fun r => { r with status := .autoCompactRequired, autoCompactReason := reason }
      return false
    | none => return true

def settleResponse (options : Options) (response : MessageItem) : Run W Bool := do
  commitResponse response
  let hookError ← announceResponse env response
  if (response.invokes.getD []) ≠ [] then
    settleBatch env (response.invokes.getD []) hookError
    boundary env options
  else if hookError ≠ "" then
    Prog.raise { what := hookError }
  else
    setStatus .completed
    return false

def exchange (options : Options) : Run W Bool := do
  if ← stopRequested env then
    setStatus .cancelled
    return false
  else if ← prepareModel env then
    setProgress fun p => { p with phase := .model }
    match ← converse env with
    | some response => settleResponse env options response
    | none => return false
  else
    return false

/-- The exchange loop from its `step`-th round. -/
def exchanges (options : Options) : Nat → Nat → Run W Unit
  | 0, _ => Prog.halt
  | fuel + 1, step =>
    if options.maxExchanges.any (fun n => n.toNat ≤ step) then pure ()
    else do
      if ← exchange env options then exchanges options fuel (step + 1) else pure ()

/-! ## The run -/

def acceptMessage : Option MessageItem → Run W Unit
  | some message => acceptInput env message
  | none => pure ()

def work (options : Options) (message : Option MessageItem) (fuel : Nat) : Run W Unit := do
  publish env .runStarted
  acceptMessage env message
  setStatus .exchangeLimit
  exchanges env options fuel 0

def body (options : Options) (message : Option MessageItem) (fuel : Nat) : Run W Unit := do
  if ← admission env options message then
    work env options message fuel
  else
    pure ()

def recordFailure (failure : Failure) : Run W Unit := do
  if failure.kind = .recoveryRequired ∧ (← get).admitted = false then
    Prog.raise failure
  else
    setResult fun r => { r with status := .failed, error := errorText failure }

/-- `progress_status`. -/
def progressStatus : RunStatus → LoopStatus
  | .completed => .completed
  | .cancelled => .cancelled
  | .exchangeLimit => .exchangeLimit
  | .autoCompactRequired => .autoCompactRequired
  | .failed => .failed

/-- Uncertain work is blocked, an open model request is dropped. -/
def settlePhase : LoopPhase → LoopPhase
  | .tools => .blocked
  | .model => .ready
  | phase => phase

def finishFailure (failure : Failure) (result : RunResult) : RunResult :=
  { result with
    status := .failed
    error := result.error ++ (if result.error = "" then "" else "; ") ++
      "EditOnRunFinished: " ++ errorText failure }

/-- Settlement of an admitted run. -/
def finish : Run W Unit := do
  let result := (← get).result
  setProgress fun p =>
    { p with
      phase := settlePhase p.phase
      status := progressStatus result.status
      error := result.error }
  Prog.handle (editState env (.runFinished result)) fun failure => do
    setResult (finishFailure failure)
    let error := (← get).result.error
    setProgress fun p => { p with status := .failed, error }
  Prog.handle (publish env (.runFinished (← get).result)) fun _ => pure ()
  checkpoint env .runFinished

/-- `run`. -/
def run (options : Options) (message : Option MessageItem) (fuel : Nat) :
    Run W RunResult := do
  Prog.handle (body env options message fuel) recordFailure
  if (← get).admitted then
    finish env
    return (← get).result
  else
    return (← get).result

end Run

end SimplexAgent.Loop
