import SimplexAgent.Core.Application
import SimplexAgent.Loop.Machine

/-!
# The worker over its life

`consume`, `run_with_auto_compact` and `compact`: the worker takes one payload after the
other, runs the loop on the conversation, compacts it when the loop or a request asks for
it, saves and reports. A session is a machine like the loop's, one operation at a time;
while a run is going on it steps the machine of the run inside.

A summary is a run on a copy of the conversation. The copy is dropped unless the
replacement made from it is committed.
-/

namespace SimplexAgent.Core

open Dataclass Loop
open Verified.Tables (bind_ok)

/-! ## Sessions -/

/-- The conversation and the desk. -/
structure Worker (Ω : Type) where
  state : AgentInputState
  desk : Desk Ω

/-- An admitted request with its counters. -/
structure Active where
  input : Input
  taskExchanges : Nat := 0
  compactExchanges : Nat := 0
  compactAttempts : Nat := 0
  compactSuccesses : Nat := 0

/-- Where the worker stands. -/
inductive Session (Ω : Type) where
  /-- Waiting for a payload, or for the outbox to drain. -/
  | idle (w : Worker Ω)
  /-- A segment of a run; the conversation and the desk are those of the run. -/
  | running (a : Active) (message : Option MessageItem) (c : Config (Desk Ω))
  | returned (a : Active) (outcome : Except Failure RunResult) (w : Worker Ω)
  | compacting (a : Active) (mode : CompactMode) (segment : RunResult) (w : Worker Ω)
  /-- A summary is being written; the run works on a copy. -/
  | summarizing (a : Active) (mode : CompactMode) (segment : RunResult) (plan : CompactPlan)
      (live : AgentInputState) (c : Config (Desk Ω))
  | summarized (a : Active) (mode : CompactMode) (segment : RunResult) (plan : CompactPlan)
      (outcome : Except Failure RunResult) (draft : AgentInputState) (w : Worker Ω)
  | replacing (a : Active) (mode : CompactMode) (segment result : RunResult)
      (replacement : AgentInputState) (w : Worker Ω)
  | compacted (a : Active) (mode : CompactMode) (segment result : RunResult) (w : Worker Ω)
  | abandoning (a : Active) (mode : CompactMode) (segment : RunResult)
      (outcome : Except Failure RunResult) (w : Worker Ω)
  | compactReturned (a : Active) (mode : CompactMode) (segment : RunResult)
      (outcome : Except Failure RunResult) (w : Worker Ω)
  | settling (a : Active) (outcome : Except Failure RunResult) (w : Worker Ω)
  | reporting (a : Active) (result : RunResult) (w : Worker Ω)
  | stopped (w : Worker Ω)
  | closed (w : Worker Ω)

namespace Session

variable {Ω : Type}

/-- The authoritative conversation, the one that queries are answered from. -/
def live : Session Ω → AgentInputState
  | .running _ _ c => c.run.state
  | .summarizing _ _ _ _ live _ => live
  | .idle w | .returned _ _ w | .compacting _ _ _ w | .summarized _ _ _ _ _ _ w
  | .replacing _ _ _ _ _ w | .compacted _ _ _ _ w | .abandoning _ _ _ _ w
  | .compactReturned _ _ _ _ w | .settling _ _ w | .reporting _ _ w | .stopped w | .closed w =>
    w.state

def desk : Session Ω → Desk Ω
  | .running _ _ c => c.run.world
  | .summarizing _ _ _ _ _ c => c.run.world
  | .idle w | .returned _ _ w | .compacting _ _ _ w | .summarized _ _ _ _ _ _ w
  | .replacing _ _ _ _ _ w | .compacted _ _ _ _ w | .abandoning _ _ _ _ w
  | .compactReturned _ _ _ _ w | .settling _ _ w | .reporting _ _ w | .stopped w | .closed w =>
    w.desk

end Session

section Steps

variable {Ω : Type} (host : Host Ω) (config : Configuration)

/-! ## Admission -/

/-- White space of `find_first_not_of`. -/
def isBlank (text : String) : Bool :=
  text.toList.all fun c => c = ' ' ∨ c = '\t' ∨ c = '\r' ∨ c = '\n'

/-- `can_continue_memory`. -/
def canContinueMemory (state : AgentInputState) : Bool :=
  state.turns = [] ∧
  (state.loop.any fun p => p.phase = .ready ∧ p.pendingResults = []) ∧
  config.autoCompactContinuePrompt ≠ "" ∧
  state.systemPrompt.sections.any fun s => s.name = "memory.runtime" ∧ !isBlank s.text

/-- `continuation`. -/
def continuation (d : Desk Ω) : MessageItem where
  type := .userInput
  role := "user"
  content := [{ raw := config.autoCompactContinuePrompt }]
  extras := some (Json.object
    [("simplex.internal_input", .str internalInput), ("simplex.source", Json.object
      [("worker_id", .str host.workerId), ("request_id", .str d.requestId),
       ("run_id", .str d.runId)])])

/-- The checks of `consume` that depend on the conversation. -/
def admissible (state : AgentInputState) (input : Input) : Bool :=
  !(state.loop.any fun p => p.phase = .tools ∨ p.phase = .blocked) ∧
  (input.operation = .compact →
    config.persistence ∧ (state.loop.all fun p => p.phase = .ready) ∧ config.memory ∧
      config.compactPrompt ≠ "") ∧
  (input.message = none ∧ state.turns = [] →
    input.operation = .continue ∧ canContinueMemory config state)

/-! ## Segments -/

def runOptions : Options where
  maxExchanges := some config.maxExchanges
  autoCompactThreshold := config.autoCompactThreshold

def beginSegment (a : Active) (message : Option MessageItem) (w : Worker Ω) : Session Ω :=
  .running a message
    ⟨.start, { state := w.state, world := { w.desk with runSaved := false } }⟩

/-- `add_exchanges` on one of the two counters. -/
def addExchanges (total : Nat) (count : UInt64) : Except Failure Nat :=
  if count.toNat > 2 ^ 64 - 1 - total then
    .error { what := "logical run exchange counter exhausted" }
  else .ok (total + count.toNat)

/-- `finish_controller`. -/
def finishController (result : RunResult) (w : Worker Ω) : Worker Ω :=
  match w.state.loop with
  | some p =>
    if p.phase = .ready then
      { state := { w.state with
          loop := some { p with
            status := if result.status = .cancelled then .cancelled else .failed
            error := result.error } }
        desk := { w.desk.bump with runSaved := false } }
    else w
  | none => w

/-- The arguments of the call that stands for a compaction. -/
def trigger (a : Active) (result : RunResult) : Json :=
  Json.object
    [("reason", .str (if result.autoCompactReason = .tokenThreshold then "token_threshold"
        else "exchange_limit")),
     ("threshold", .uint config.autoCompactThreshold),
     ("max_exchanges", .uint config.maxExchanges),
     ("segment_exchanges", .uint result.completedExchanges),
     ("last_exchange_tokens", (result.lastExchangeTokens.map Json.uint).getD .null),
     ("succeeded", counter a.compactSuccesses),
     ("limit", counter config.maxAutoCompactions)]

/-- Two compactions in a row, or too many. -/
def compactRefusal (a : Active) (result : RunResult) : Option String :=
  if a.compactSuccesses ≠ 0 ∧ result.completedExchanges = 1 then
    some ("auto_compact_too_frequent: requested again after one exchange; " ++
      "review limits/context size: " ++ host.dump (trigger config a result))
  else if a.compactAttempts ≥ config.maxAutoCompactions then
    some ("auto_compact_limit: per-request attempt budget exhausted; " ++
      "review limits/context size: " ++ host.dump (trigger config a result))
  else none

/-- The loop has returned with `AutoCompactRequired`. -/
def decideCompact (a : Active) (result : RunResult) (w : Worker Ω) : Session Ω :=
  if w.desk.storageFailed then
    let result := { result with
      status := .failed, error := "required snapshot failed; worker is stopping" }
    .settling a (.ok result) (finishController result w)
  else
    match w.desk.stopRequested host with
    | (true, d) =>
      let result := { result with status := .cancelled }
      .settling a (.ok result) (finishController result { w with desk := d })
    | (false, d) =>
      match compactRefusal host config a result with
      | some error =>
        let result := { result with status := .failed, error }
        .settling a (.ok result) (finishController result { w with desk := d })
      | none =>
        let a := { a with compactAttempts := a.compactAttempts + 1 }
        match d.emit host .toolCalls w.state with
        | (.error failure, d) => .settling a (.error failure) { w with desk := d }
        | (.ok (), d) => .compacting a .automatic result { w with desk := d }

def afterSegment (a : Active) (outcome : Except Failure RunResult) (w : Worker Ω) : Session Ω :=
  match outcome with
  | .error failure => .settling a (.error failure) w
  | .ok result =>
    match addExchanges a.taskExchanges result.completedExchanges with
    | .error failure => .settling a (.error failure) w
    | .ok total =>
      let a := { a with taskExchanges := total }
      if result.status = .autoCompactRequired then decideCompact host config a result w
      else .settling a (.ok result) w

/-! ## Compaction -/

def cancelledResult : RunResult := { status := .cancelled }

def instruction (mode : CompactMode) (plan : CompactPlan) : MessageItem where
  type := .userInput
  role := "user"
  content := [{
    raw := (match mode with
      | .manual => config.compactPrompt
      | .automatic => config.autoCompactPrompt) ++
      "\n\nSummary preview: approximately the first " ++ toString plan.bodyBytes ++
      " UTF-8 bytes (not tokens or JSON-escaped bytes) are injected into the next run. " ++
      "The complete summary is preserved in memory.md even when the preview is truncated. " ++
      "Front-load the user's goals, preferences and rules, current task status, important " ++
      "files/processes, findings or how to recover them, and concrete next steps." }]

def summaryOptions : Options := { maxExchanges := none, autoCompactThreshold := 0 }

/-- The archive of an attempt: its identity is given back when there is no plan. -/
def prepareArchive (state : AgentInputState) (world : Ω) :
    (Except (Failure × Bool) CompactPlan × Bool) × Ω :=
  match host.reserveArchive world with
  | (.error failure, world) => ((.error (failure, false), false), world)
  | (.ok (), world) =>
    let (identity, world) := host.newIdentity world
    match planCompact host.promptBytes host.dump identity host.memoryFile state with
    | .error failure =>
      match host.releaseArchive world with
      | (.error instead, world) => ((.error (instead, false), false), world)
      | (.ok (), world) => ((.error (failure, false), false), world)
    | .ok plan =>
      let ((begun, published), world) := host.beginArchive state world
      ((begun.map fun _ => plan, published), world)

variable {host} in
theorem prepareArchive_ok {state : AgentInputState} {world : Ω} {plan : CompactPlan}
    (h : (prepareArchive host state world).1.1 = .ok plan) :
    ∃ identity, planCompact host.promptBytes host.dump identity host.memoryFile state = .ok plan := by
  unfold prepareArchive at h
  split at h
  · cases h
  dsimp only at h
  split at h
  · split at h <;> cases h
  · rename_i planned hPlanned
    dsimp only at h
    cases hBegun : (host.beginArchive state (host.newIdentity _).2).1.1 with
    | error failure =>
      rw [hBegun] at h
      cases h
    | ok _ =>
      rw [hBegun] at h
      injection h with h
      rw [← h]
      exact ⟨_, hPlanned⟩

/-- `compact`, up to the summary. -/
def beginCompact (a : Active) (mode : CompactMode) (segment : RunResult) (w : Worker Ω) :
    Session Ω :=
  match w.desk.stopRequested host with
  | (true, d) => .compactReturned a mode segment (.ok cancelledResult) { w with desk := d }
  | (false, d) =>
    match d.call (prepareArchive host w.state) with
    | ((outcome, published), d) =>
      let d := if published then d.commit w.state else d
      match outcome with
      | .error (failure, latch) =>
        .compactReturned a mode segment (.error failure)
          { w with desk := if latch then d.failStorage else d }
      | .ok plan =>
        match d.stopRequested host with
        | (true, d) => .abandoning a mode segment (.ok cancelledResult) { w with desk := d }
        | (false, d) =>
          .summarizing a mode segment plan w.state
            ⟨.start, { state := { w.state with tools := [] }, world := d }⟩

def summaryText (response : MessageItem) : String :=
  "\n\n".intercalate
    ((response.content.filter fun part => part.type = .text ∧ part.raw ≠ "").map Content.raw)

/-- The outcome of a summary that is not complete. -/
def unexpectedBoundary (result : RunResult) : RunResult :=
  if result.status = .cancelled ∨ result.status = .failed then result
  else { result with status := .failed, error := "compact returned an unexpected loop boundary" }

def draftSummary (draft : AgentInputState) : Except Failure String :=
  match draft.turns.getLast?.bind fun turn => turn.agentLoopStep.getLast? with
  | none => refuse "compact produced no response"
  | some step =>
    let summary := summaryText step.modelResponse
    if isBlank summary then refuse "compact produced an empty text summary" else .ok summary

/-- A replacement before it is counted: the fields that are retained, and no turns. -/
def freshReplacement (live draft : AgentInputState) (time : String) (prompt : PromptTemplate)
    (extras : Json) : AgentInputState where
  loop := draft.loop
  metaInfo := { live.metaInfo with updatedAt := time }
  systemPrompt := prompt
  tools := live.tools
  turns := []
  extras := some extras

/-- The state that takes the place of a conversation: its settings, the usage that the draft
counted, the draft's progress, and the summary as memory. -/
def replacementOf (plan : CompactPlan) (live draft : AgentInputState) (time summary : String) :
    Except Failure AgentInputState :=
  match externalStatus draft.extras ContextStatistic.name with
  | none => refuse "bad optional access"
  | some status => do
    let extras ← syncExternalStatus live.extras ContextStatistic.name status
    let preview ← compactPrompt plan summary
    let replacement := freshReplacement live draft time preview.prompt extras
    let bytes ← compactContextBytes host.promptBytes host.dump replacement
    if bytes > plan.hardTarget then
      refuse ("compact replacement exceeds byte budget: replacement_bytes=" ++
        toString bytes ++ ", budget_bytes=" ++ toString plan.hardTarget)
    else countUpdate host config replacement

variable {host config} in
theorem replacementOf_parts {plan : CompactPlan} {live draft replacement : AgentInputState}
    {time summary : String}
    (h : replacementOf host config plan live draft time summary = .ok replacement) :
    ∃ status extras preview bytes,
      externalStatus draft.extras ContextStatistic.name = some status ∧
      syncExternalStatus live.extras ContextStatistic.name status = .ok extras ∧
      compactPrompt plan summary = .ok preview ∧
      compactContextBytes host.promptBytes host.dump (freshReplacement live draft time preview.prompt extras) =
        .ok bytes ∧ bytes ≤ plan.hardTarget ∧
      countUpdate host config (freshReplacement live draft time preview.prompt extras) =
        .ok replacement := by
  unfold replacementOf at h
  cases hStatus : externalStatus draft.extras ContextStatistic.name with
  | none =>
    rw [hStatus] at h
    cases h
  | some status =>
    rw [hStatus] at h
    obtain ⟨extras, hSync, h⟩ := bind_ok h
    obtain ⟨preview, hPreview, h⟩ := bind_ok h
    obtain ⟨bytes, hBytes, h⟩ := bind_ok h
    split at h
    · cases h
    · exact ⟨status, extras, preview, bytes, rfl, hSync, hPreview, hBytes, by omega, h⟩

variable {host config} in
theorem replacementOf_ok {plan : CompactPlan} {live draft replacement : AgentInputState}
    {time summary : String}
    (h : replacementOf host config plan live draft time summary = .ok replacement) :
    ∃ status extras fresh, externalStatus draft.extras ContextStatistic.name = some status ∧
      syncExternalStatus live.extras ContextStatistic.name status = .ok extras ∧
      fresh.turns = [] ∧ fresh.loop = draft.loop ∧ fresh.extras = some extras ∧
      countUpdate host config fresh = .ok replacement := by
  obtain ⟨status, extras, preview, _, hStatus, hSync, _, _, _, hCounted⟩ :=
    replacementOf_parts h
  exact ⟨status, extras, freshReplacement live draft time preview.prompt extras, hStatus, hSync,
    rfl, rfl, rfl, hCounted⟩

/-- `compact_attempt`, from the end of the summary to the commit. -/
def afterSummary (a : Active) (mode : CompactMode) (segment : RunResult) (plan : CompactPlan)
    (outcome : Except Failure RunResult) (draft : AgentInputState) (w : Worker Ω) : Session Ω :=
  match outcome with
  | .error failure => .abandoning a mode segment (.error failure) w
  | .ok result =>
    match addExchanges a.compactExchanges result.completedExchanges with
    | .error failure => .abandoning a mode segment (.error failure) w
    | .ok total =>
      let a := { a with compactExchanges := total }
      if result.status ≠ .completed then
        .abandoning a mode segment (.ok (unexpectedBoundary result)) w
      else
        match w.desk.stopRequested host with
        | (true, d) =>
          .abandoning a mode segment (.ok { result with status := .cancelled })
            { w with desk := d }
        | (false, d) =>
          let (time, d) := d.call host.now
          match draftSummary draft >>= replacementOf host config plan w.state draft time with
          | .error failure => .abandoning a mode segment (.error failure) { w with desk := d }
          | .ok replacement =>
            .replacing a mode segment result replacement { w with desk := d }

def commitReplacement (a : Active) (mode : CompactMode) (segment result : RunResult)
    (replacement : AgentInputState) (w : Worker Ω) : Session Ω :=
  match w.desk.stopRequested host with
  | (true, d) =>
    .abandoning a mode segment (.ok { result with status := .cancelled }) { w with desk := d }
  | (false, d) =>
    match d.call (host.stageMemory replacement) with
    | (.error failure, d) => .abandoning a mode segment (.error failure) { w with desk := d }
    | (.ok (), d) =>
      match d.stopRequested host with
      | (true, d) =>
        .abandoning a mode segment (.ok { result with status := .cancelled })
          { w with desk := d }
      | (false, d) =>
        match d.call (host.commitCompaction replacement) with
        | (.failed failure published, d) =>
          .abandoning a mode segment (.error failure)
            { w with desk := (if published then d.commit replacement else d).failStorage }
        | (.committed, d) =>
          .compacted a mode segment result
            { state := replacement
              desk := { (d.commit replacement).bump with runSaved := true } }

/-- After the commit: receipts and retention. -/
def reportCompacted (a : Active) (mode : CompactMode) (segment result : RunResult)
    (w : Worker Ω) : Session Ω :=
  match w.desk.emit host .persisted w.state with
  | (.error failure, d) => .compactReturned a mode segment (.error failure) { w with desk := d }
  | (.ok (), d) =>
    let (latch, d) := d.call host.cleanupArchive
    let d := if latch then d.failStorage else d
    let (emitted, d) := match mode with
      | .manual => d.emitLifecycle host .compactFinished w.state
      | .automatic => d.emit host .compactFinished w.state
    match emitted with
    | .error failure => .compactReturned a mode segment (.error failure) { w with desk := d }
    | .ok () => .compactReturned a mode segment (.ok result) { w with desk := d }

/-- An automatic compaction has come back to the controller. -/
def afterAutomatic (a : Active) (segment : RunResult) (outcome : Except Failure RunResult)
    (w : Worker Ω) : Session Ω :=
  let result := match outcome with
    | .ok result => result
    | .error failure =>
      { segment with status := .failed, failureStage := .other, error := errorText failure }
  let a := if result.status = .completed
    then { a with compactSuccesses := a.compactSuccesses + 1 } else a
  match w.desk.emit host .toolResults w.state with
  | (.error failure, d) => .settling a (.error failure) { w with desk := d }
  | (.ok (), d) =>
    if result.status ≠ .completed ∨ d.storageFailed then
      .settling a (.ok result) (finishController result { w with desk := d })
    else
      match d.stopRequested host with
      | (true, d) =>
        let result := { result with status := .cancelled }
        .settling a (.ok result) (finishController result { w with desk := d })
      | (false, d) =>
        beginSegment a (some (continuation host config d)) { w with desk := d }

/-! ## The end of a request -/

def conclude (a : Active) (outcome : Except Failure RunResult) (w : Worker Ω) :
    RunResult × Worker Ω :=
  match outcome with
  | .ok result => (result, w)
  | .error failure =>
    let result : RunResult := { status := .failed, error := errorText failure }
    (result, if a.input.operation = .compact then w else finishController result w)

def settleRequest (a : Active) (outcome : Except Failure RunResult) (w : Worker Ω) : Session Ω :=
  let (result, w) := conclude a outcome w
  match addExchanges a.taskExchanges (UInt64.ofNat a.compactExchanges) with
  | .error _ => .stopped w
  | .ok total =>
    let result := { result with completedExchanges := UInt64.ofNat total }
    if a.input.operation ≠ .compact ∧ w.desk.storageFailed = false ∧ w.desk.runSaved = false ∧
        (config.saveRun ∨ result.status = .cancelled) then
      match save host config (if config.saveRun then .runFinished else .cancelled) w.state
          w.desk with
      | (.error (.other _), d) => .stopped { w with desk := d }
      | (_, d) => .reporting a result { w with desk := d }
    else .reporting a result w

def reportRequest (w : Worker Ω) : Session Ω :=
  if w.desk.storageFailed then
    .stopped { w with desk := (w.desk.emitLifecycle host .error w.state).2 }
  else
    match w.desk.emitLifecycle host .runFinished w.state with
    | (.error _, d) => .stopped { w with desk := d }
    | (.ok (), d) => .idle { w with desk := d }

def beginRequest (input : Input) (w : Worker Ω) : Session Ω :=
  let (runId, d) := w.desk.call host.newIdentity
  let w : Worker Ω :=
    { w with desk := { d with
        requestId := input.requestId, runId, cancelled := false, runSaved := false } }
  let w : Worker Ω := if input.operation = .compact then w
    else { state := (touch host w.state w.desk).1, desk := (touch host w.state w.desk).2 }
  match w.desk.emitLifecycle host .inputAdmitted w.state with
  | (.error _, d) => .stopped { w with desk := d }
  | (.ok (), d) =>
    match d.emitLifecycle host .runStarted w.state with
    | (.error _, d) => .stopped { w with desk := d }
    | (.ok (), d) =>
      let w := { w with desk := d }
      let a : Active := { input }
      if input.operation = .compact then .compacting a .manual {} w
      else if input.message.isNone ∧ canContinueMemory config w.state then
        beginSegment a (some (continuation host config w.desk)) w
      else beginSegment a input.message w

/-- One payload: the outbox is drained before anything is admitted. -/
def consume (w : Worker Ω) : Session Ω :=
  match w.desk.call host.stopping with
  | (true, d) => .stopped { w with desk := d }
  | (false, d) =>
    let (payload, d) := d.call host.next
    let w : Worker Ω := { w with desk := { d with produced := [] } }
    match payload.filter (admissible config w.state) with
    | some input => beginRequest host config input w
    | none =>
      match w.desk.emit host .inputRejected w.state with
      | (.error _, d) => .stopped { w with desk := d }
      | (.ok (), d) => .idle { w with desk := d }

/-- The last checkpoint of the worker. -/
def closeDown (w : Worker Ω) : Session Ω :=
  if config.saveShutdown ∧ w.desk.storageFailed = false then
    let (state, d) := touch host w.state w.desk
    .closed { state, desk := (save host config .shutdown state d).2 }
  else .closed w

/-! ## Steps -/

/-- One operation of the worker. -/
def Session.step : Session Ω → Session Ω
  | .idle w => consume host config w
  | .running a message c =>
    match c.point with
    | .returned => .returned a (.ok c.run.result) ⟨c.run.state, c.run.world⟩
    | .escaped failure => .returned a (.error failure) ⟨c.run.state, c.run.world⟩
    | _ => .running a message (Loop.step (workerEnv host config) (runOptions config) message c)
  | .returned a outcome w => afterSegment host config a outcome w
  | .compacting a mode segment w => beginCompact host a mode segment w
  | .summarizing a mode segment plan live c =>
    match c.point with
    | .returned =>
      .summarized a mode segment plan (.ok c.run.result) c.run.state ⟨live, c.run.world⟩
    | .escaped failure =>
      .summarized a mode segment plan (.error failure) c.run.state ⟨live, c.run.world⟩
    | _ =>
      .summarizing a mode segment plan live
        (Loop.step (summaryEnv host config) summaryOptions (some (instruction config mode plan)) c)
  | .summarized a mode segment plan outcome draft w =>
    afterSummary host config a mode segment plan outcome draft w
  | .replacing a mode segment result replacement w =>
    commitReplacement host a mode segment result replacement w
  | .compacted a mode segment result w => reportCompacted host a mode segment result w
  | .abandoning a mode segment outcome w =>
    let (latch, d) := w.desk.call host.settleArchive
    .compactReturned a mode segment outcome
      { w with desk := if latch then d.failStorage else d }
  | .compactReturned a .manual _ outcome w => .settling a outcome w
  | .compactReturned a .automatic segment outcome w => afterAutomatic host config a segment outcome w
  | .settling a outcome w => settleRequest host config a outcome w
  | .reporting _ _ w => reportRequest host w
  | .stopped w => closeDown host config w
  | .closed w => .closed w

def Session.start (w : Worker Ω) : Session Ω :=
  match w.desk.emitLifecycle host .ready w.state with
  | (.error _, d) => .stopped { w with desk := d }
  | (.ok (), d) => .idle { w with desk := d }

/-- A session after `n` further operations. -/
def Session.advance (s : Session Ω) : Nat → Session Ω
  | 0 => s
  | n + 1 => (Session.advance s n).step host config

/-- The session after `n` operations. -/
def Session.after (w : Worker Ω) : Nat → Session Ω
  | 0 => Session.start host w
  | n + 1 => (Session.after w n).step host config

end Steps

/-- The worker waits for a payload. -/
def Session.isIdle {Ω : Type} : Session Ω → Bool
  | .idle _ => true
  | _ => false

def Session.failure? {Ω : Type} : Session Ω → Option Failure
  | .running _ _ ⟨.failed failure, _⟩ => some failure
  | _ => none

end SimplexAgent.Core
