import SimplexAgent.Core.Compact
import SimplexAgent.Core.EventOutbox
import SimplexAgent.Loop.ContextStatistic

/-!
# The worker around a run

`core/src/application.cpp`: what the worker adds to the loop. Its observers number the
history and forward events, its checkpoint function stores the conversation, its edit
subscribers count token usage and set a time stamp. All of it is the environment of a
run over the worker's own record, the `Desk`.

What lies outside is the `Host`: the provider, the registry, the hooks of plugins, the
store, the transport and the clock, each an arbitrary function of a world. Plugin hooks
subscribe before the observers of the worker and after the statistic hook; a subscriber
that throws keeps the ones behind it from being called.

The desk also keeps what the code does not: the lifecycle events given to the outbox
since it was last drained, and the order in which snapshots became durable and batches
were handed to the registry.
-/

namespace SimplexAgent.Core

open Dataclass Loop

/-! ## Configuration and host -/

/-- The settings that a run depends on. -/
structure Configuration where
  sessionId : String
  persistence : Bool := true
  saveStep : Bool := true
  saveRun : Bool := true
  saveShutdown : Bool := true
  maxExchanges : UInt64 := 512
  autoCompactThreshold : UInt64 := 0
  maxAutoCompactions : Nat := 5
  /-- Whether an archive directory is configured. -/
  memory : Bool := true
  compactPrompt : String := ""
  autoCompactPrompt : String := ""
  autoCompactContinuePrompt : String := ""
  /-- `context_window_tokens` of the statistic hook. -/
  contextWindowTokens : UInt64
  deriving DecidableEq

/-- `persistence::Boundary`. -/
inductive Boundary where
  | beforeTools
  | resultsReady
  | stepFinished
  | runFinished
  | cancelled
  | shutdown
  | compaction
  deriving DecidableEq, Repr

/-- What a write to the store comes to. A failed write may have been published. -/
inductive StoreOutcome where
  | committed
  | failed (failure : Failure) (published : Bool)

/-- `InputOperation`. -/
inductive InputOperation where
  | message
  | continue
  | compact
  deriving DecidableEq, Repr

/-- `Input`: a payload that parsed, is no duplicate and whose options were applied. -/
structure Input where
  requestId : String
  operation : InputOperation := .message
  message : Option MessageItem := none

/-- `CompactMode`. -/
inductive CompactMode where
  | manual
  | automatic
  deriving DecidableEq, Repr

/-- Everything outside the worker, over a world it reads and changes. -/
structure Host (Ω : Type) where
  /-- Whether the run was asked to stop, and whether the worker was. -/
  stopRequested : Ω → Bool × Ω
  stopping : Ω → Bool × Ω
  /-- The next payload; none for one that is rejected whatever the state is. -/
  next : Ω → Option Input × Ω
  now : Ω → String × Ω
  newIdentity : Ω → String × Ω
  converse : AgentInputState → Ω → Except Failure MessageItem × Ω
  execute : List InvokeQuery → Ω → Except Failure (List InvokeReturn) × Ω
  /-- A registry without tools. -/
  noTools : List InvokeQuery → List InvokeReturn
  publish : Event → AgentInputState → Ω → Except Failure Unit × Ω
  beforeInput : MessageItem → Ω → Except Failure MessageItem × Ω
  beforeModel : AgentInputState → ModelContext → Ω → Except Failure ModelContext × Ω
  edit : EditEvent → AgentInputState → Ω → (Except Failure Unit × AgentInputState) × Ω
  /-- An event with its data is projected and given to the outbox. -/
  emit : EventName → AgentInputState → Ω → Except Failure Unit × Ω
  checkpoint : Boundary → AgentInputState → Ω → StoreOutcome × Ω
  /-- The identity of an archive is taken, or given back. -/
  reserveArchive : Ω → Except Failure Unit × Ω
  releaseArchive : Ω → Except Failure Unit × Ω
  /-- `begin_archive`: a failure may have to stop storage; and whether the state was
  published. -/
  beginArchive : AgentInputState → Ω → (Except (Failure × Bool) Unit × Bool) × Ω
  /-- Where a complete summary is kept. -/
  memoryFile : String
  /-- The size of a prompt; the code renders it. -/
  promptBytes : PromptTemplate → Except Failure Nat := renderedBytes
  /-- The files of a replacement, before its commit. -/
  stageMemory : AgentInputState → Ω → Except Failure Unit × Ω
  commitCompaction : AgentInputState → Ω → StoreOutcome × Ω
  /-- Publication of the summary and retention; whether storage has to stop. -/
  cleanupArchive : Ω → Bool × Ω
  /-- Settlement of an attempt that was not committed; whether storage has to stop. -/
  settleArchive : Ω → Bool × Ω
  workerId : String
  round : Rat → Rat
  encodedBytes : Json → Nat
  dump : Json → String

/-- A host without plugins on which nothing fails and nothing is asked. -/
def quietHost : Host Unit where
  stopRequested _ := (false, ())
  stopping _ := (false, ())
  next _ := (none, ())
  now _ := ("", ())
  newIdentity _ := ("", ())
  converse _ _ := (.ok { type := .modelResponse, role := "assistant" }, ())
  execute _ _ := (.ok [], ())
  noTools _ := []
  publish _ _ _ := (.ok (), ())
  beforeInput message _ := (.ok message, ())
  beforeModel _ context _ := (.ok context, ())
  edit _ state _ := ((.ok (), state), ())
  emit _ _ _ := (.ok (), ())
  checkpoint _ _ _ := (.committed, ())
  reserveArchive _ := (.error { what := "no archive" }, ())
  releaseArchive _ := (.ok (), ())
  beginArchive _ _ := ((.ok (), true), ())
  memoryFile := "memory.md"
  stageMemory _ _ := (.ok (), ())
  commitCompaction _ _ := (.committed, ())
  cleanupArchive _ := (false, ())
  settleArchive _ := (false, ())
  workerId := "worker"
  round x := x
  encodedBytes _ := 0
  dump _ := ""

/-! ## The desk -/

inductive Durable where
  | committed (snapshot : AgentInputState)
  | dispatched (calls : List InvokeQuery)

/-- The worker's record beside the conversation. -/
structure Desk (Ω : Type) where
  outer : Ω
  historyRevision : Nat := 0
  /-- `run_stop` was requested. -/
  cancelled : Bool := false
  storageFailed : Bool := false
  runSaved : Bool := false
  requestId : String := ""
  runId : String := ""
  /-- Lifecycle events given to the outbox since it was last drained. -/
  produced : List EventName := []
  /-- Commits and dispatches, newest first. -/
  log : List Durable := []

section Desk

variable {Ω : Type} (host : Host Ω) (config : Configuration)

namespace Desk

def bump (d : Desk Ω) : Desk Ω := { d with historyRevision := d.historyRevision + 1 }

/-- `cancel` after a storage failure. -/
def failStorage (d : Desk Ω) : Desk Ω := { d with storageFailed := true, cancelled := true }

def commit (d : Desk Ω) (snapshot : AgentInputState) : Desk Ω :=
  { d with log := .committed snapshot :: d.log }

def call {α : Type} (d : Desk Ω) (f : Ω → α × Ω) : α × Desk Ω :=
  ((f d.outer).1, { d with outer := (f d.outer).2 })

def emit (d : Desk Ω) (name : EventName) (state : AgentInputState) :
    Except Failure Unit × Desk Ω :=
  d.call (host.emit name state)

def emitLifecycle (d : Desk Ω) (name : EventName) (state : AgentInputState) :
    Except Failure Unit × Desk Ω :=
  { d with produced := d.produced ++ [name] }.emit host name state

def stopRequested (d : Desk Ω) : Bool × Desk Ω :=
  let (requested, d) := d.call host.stopRequested
  (d.cancelled || requested, { d with cancelled := d.cancelled || requested })

end Desk

/-! ## Checkpoints -/

inductive SaveFailure where
  | store (failure : Failure)
  | other (failure : Failure)

def SaveFailure.failure : SaveFailure → Failure
  | .store failure | .other failure => failure

/-- `save`. -/
def save (boundary : Boundary) (state : AgentInputState) (d : Desk Ω) :
    Except SaveFailure Unit × Desk Ω :=
  if config.persistence = false ∨ d.storageFailed then (.ok (), d)
  else if state.metaInfo.sessionId ≠ config.sessionId then
    (.error (.other { what := "hook changed the worker session identity" }), d)
  else
    match d.call (host.checkpoint boundary state) with
    | (.failed failure published, d) =>
      (.error (.store failure), (if published then d.commit state else d).failStorage)
    | (.committed, d) =>
      let d := d.commit state
      let d := if boundary = .runFinished ∨ boundary = .cancelled
        then { d with runSaved := true } else d
      let (emitted, d) := d.emit host .persisted state
      (emitted.mapError .other, d)

def checkpoint (boundary : Checkpoint) (state : AgentInputState) (d : Desk Ω) :
    Except Failure Unit × Desk Ω :=
  match boundary with
  | .beforeTools =>
    let (outcome, d) := save host config .beforeTools state d
    (outcome.mapError SaveFailure.failure, d)
  | .resultsReady =>
    let (outcome, d) := save host config .resultsReady state d
    (outcome.mapError SaveFailure.failure, d)
  | .stepFinished =>
    if config.saveStep then
      let (outcome, d) := save host config .stepFinished state d
      (outcome.mapError SaveFailure.failure, d)
    else (.ok (), d)
  | .runFinished =>
    if config.saveRun then
      match save host config .runFinished state d with
      | (.ok (), d) => (.ok (), d)
      | (.error (.store _), d) => (.ok (), d)
      | (.error (.other failure), d) => (.error failure, d)
    else (.ok (), d)

/-! ## Observers -/

/-- The mark of a message that the host wrote itself. -/
def internalInput : String := "auto_compact_continue"

/-- `message.extras->value("simplex.internal_input", "")`. -/
def internalMark (message : MessageItem) : Except JsonError String :=
  match message.extras with
  | none => .ok ""
  | some extras => valueString extras "simplex.internal_input" ""

/-- The observer of `InputCommitted`. -/
def inputCommitted (state : AgentInputState) (d : Desk Ω) : Except Failure Unit × Desk Ω :=
  let d := d.bump
  match internalMark ((state.turns.getLast?).getD {}).userInput with
  | .error e => (.error (renderFailure e), d)
  | .ok mark =>
    if mark = internalInput then (.ok (), d)
    else d.emitLifecycle host .inputCommitted state

/-- The worker's own subscribers. -/
def observe (event : Event) (state : AgentInputState) (d : Desk Ω) : Except Failure Unit × Desk Ω :=
  match event with
  | .inputCommitted => inputCommitted host state d
  | .modelCommitted => d.bump.emit host .modelResponse state
  | .beforeToolBatch _ => d.emit host .toolCalls state
  | .toolResultsCommitted => d.emit host .toolResults state
  | .stepFinished | .runFinished _ => (.ok (), d.bump)
  | .runStarted | .toolDispatchCheckpoint | .toolResultsCheckpoint => (.ok (), d)

/-! ## The environments of runs -/

def countBeforeModel (state : AgentInputState) (context : ModelContext) :
    Except Failure ModelContext :=
  ContextStatistic.beforeModel host.round host.encodedBytes config.contextWindowTokens state context

/-- The statistic hook in an edit. -/
def countUpdate (state : AgentInputState) : Except Failure AgentInputState :=
  ContextStatistic.update host.round host.encodedBytes config.contextWindowTokens state

/-- A time stamp, the last edit of a step and of a run. -/
def touch (state : AgentInputState) (d : Desk Ω) : AgentInputState × Desk Ω :=
  let (time, d) := d.call host.now
  ({ state with metaInfo := { state.metaInfo with updatedAt := time } }, d)

def workerEnv : Env (Desk Ω) where
  stopRequested d := d.stopRequested host
  publish event state d :=
    match d.call (host.publish event state) with
    | (.error failure, d) => (.error failure, d)
    | (.ok (), d) => observe host event state d
  beforeInput message d := d.call (host.beforeInput message)
  beforeModel state context d :=
    match countBeforeModel host config state context with
    | .error failure => (.error failure, d)
    | .ok context => d.call (host.beforeModel state context)
  converse state d := d.call (host.converse state)
  execute calls d :=
    { d with log := .dispatched calls :: d.log }.call (host.execute calls)
  checkpoint := some (checkpoint host config)
  subscribed _ _ := true
  edit event state d :=
    match countUpdate host config state with
    | .error failure => ((.error failure, state), d)
    | .ok state =>
      match d.call (host.edit event state) with
      | ((.error failure, state), d) => ((.error failure, state), d)
      | ((.ok (), state), d) =>
        let (state, d) := touch host state d
        ((.ok (), state), d)

def summaryEnv : Env (Desk Ω) where
  stopRequested d := d.stopRequested host
  publish event _ d :=
    match event with
    | .beforeToolBatch _ => (.error { what := "compact response must not call tools" }, d)
    | _ => (.ok (), d)
  beforeInput message d := (.ok message, d)
  beforeModel state context d := (countBeforeModel host config state context, d)
  converse state d := d.call (host.converse state)
  execute calls d := (.ok (host.noTools calls), d)
  checkpoint := none
  subscribed _ _ := true
  edit _ state d :=
    match countUpdate host config state with
    | .error failure => ((.error failure, state), d)
    | .ok state => ((.ok (), state), d)

/-! ## Edits -/

variable {host config}

theorem workerEnv_edit_ok {event : EditEvent} {s s' : AgentInputState} {d d' : Desk Ω}
    (h : (workerEnv host config).edit event s d = ((.ok (), s'), d')) :
    ∃ counted edited world time, countUpdate host config s = .ok counted ∧
      host.edit event counted d.outer = ((.ok (), edited), world) ∧
      s' = { edited with metaInfo := { edited.metaInfo with updatedAt := time } } := by
  unfold workerEnv at h
  dsimp only at h
  split at h
  · cases h
  rename_i counted hCounted
  split at h
  · cases h
  rename_i edited _ hEdited
  injection h with h
  injection h with _ h
  subst h
  exact ⟨counted, edited, (host.edit event counted d.outer).2, _, hCounted,
    Prod.ext (Prod.ext_iff.mp hEdited).1 rfl, rfl⟩

theorem summaryEnv_edit_ok {event : EditEvent} {s s' : AgentInputState} {d d' : Desk Ω}
    (h : (summaryEnv host config).edit event s d = ((.ok (), s'), d')) :
    countUpdate host config s = .ok s' := by
  unfold summaryEnv at h
  dsimp only at h
  split at h
  · cases h
  · rename_i counted hCounted
    injection h with h
    injection h with _ h
    subst h
    exact hCounted

end Desk

end SimplexAgent.Core
