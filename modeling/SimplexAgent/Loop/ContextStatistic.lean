import SimplexAgent.Loop.Run

/-!
# The context-statistic hook

`loop/intrinsic/hooks/context_statistic`: token usage of committed responses, kept as a
flat JSON object in the hook's own slot of the state. The hook reads the slot, accounts
for the responses that were committed since, and writes the slot back: before every
model request, after every step and at the end of a run. It holds nothing itself, so a
rolled-back edit is made up for by the next update.

Rounding to floating point and the encoded size of a JSON value are parameters; nothing
that is counted depends on them.
-/

namespace SimplexAgent.Loop

open Dataclass
open Verified.Tables (bind_ok)

/-! ## Status slots of a state -/

/-- `kExternalStatusKey`. -/
def externalStatusKey : String := "external_status"

/-- `external_status`: the slot of a writer, none when there is nothing to read. -/
def externalStatus (extras : Option Json) (source : String) : Option Json :=
  match extras.bind fun e => e.find? externalStatusKey with
  | some (.obj region) =>
    match region.lookup source with
    | some (.obj slot) => some (.obj slot)
    | _ => none
  | _ => none

/-- `sync_external_status`, on the extras of a state. -/
def syncExternalStatus (extras : Option Json) (source : String) (status : Json) :
    Except Failure Json :=
  if source = "" then
    refuse ("sync_external_status: a status sync needs a non-empty source — " ++
      "the identity that owns the slot")
  else if ¬status.IsObject then
    refuse "sync_external_status: a status document must be a JSON object"
  else
    match extras.getD (.obj []) with
    | .obj fields =>
      match fields.lookup externalStatusKey with
      | none | some .null =>
        .ok (.obj (Json.setField fields externalStatusKey (.obj [(source, status)])))
      | some (.obj region) =>
        .ok (.obj (Json.setField fields externalStatusKey
          (.obj (Json.setField region source status))))
      | some _ =>
        refuse ("sync_external_status: extras[" ++ externalStatusKey ++
          "] is not an object — the reserved region is corrupt")
    | _ => refuse "sync_external_status: extras is not an object"

namespace ContextStatistic

/-- `ContextStatisticHook::kName`. -/
def name : String := "context_statistic"

/-! ## Counters -/

/-- `add_checked`. -/
def addChecked (left right : UInt64) : Except Failure UInt64 :=
  if right > 18446744073709551615 - left then refuse "context statistic token count overflow"
  else .ok (left + right)

/-- `count`: a non-negative integer field. -/
def count (status : Json) (key : String) : Except Failure UInt64 :=
  match status.atKey key with
  | .ok (.integer n) =>
    if n.value < 0 then refuse ("context statistic has invalid field: " ++ key)
    else .ok (UInt64.ofInt n.value)
  | .ok _ => refuse ("context statistic has invalid field: " ++ key)
  | .error e => .error (renderFailure e)

def maximumKey (field : String) : String := "max_exchange_" ++ field ++ "_tokens"

def cumulativeKey (field : String) : String := "cumulative_exchange_" ++ field ++ "_tokens"

def lastKey (field : String) : String := "last_exchange_" ++ field ++ "_tokens"

/-- The counted parts of an exchange. -/
def fieldNames : List String := ["prompt", "generated", "cache_hit", "total"]

/-- `clear_last`. -/
def clearLast (status : Json) : Json :=
  (fieldNames.foldl (fun s field => s.set (lastKey field) .null) status).set
    "last_window_remaining_ratio" .null

/-- The counts of a slot that has counted nothing. -/
def emptyFields (window : UInt64) : List (String × Json) :=
  [("context_window_tokens", .uint window), ("estimated_zero_request_tokens", .uint 0),
   (maximumKey "prompt", .uint 0),
   (maximumKey "generated", .uint 0),
   (maximumKey "cache_hit", .uint 0),
   (maximumKey "total", .uint 0),
   (cumulativeKey "prompt", .uint 0),
   (cumulativeKey "generated", .uint 0),
   (cumulativeKey "cache_hit", .uint 0),
   (cumulativeKey "total", .uint 0),
   ("average_cache_hit_probability", .null),
   ("sampled_exchange_count", .uint 0),
   ("accounted_exchanges_in_run", .uint 0),
   ("accounted_commit_sequence", .uint 0)]

/-- `empty_status`. -/
def emptyStatus (window : UInt64) : Json := clearLast (Json.object (emptyFields window))

section Account

variable (round : Rat → Rat) (encodedBytes : Json → Nat) (window : UInt64)

/-- `remaining_ratio`. -/
def remainingRatio (total : UInt64) : Json :=
  .float (round (((window.toNat : Rat) - total.toNat) / window.toNat))

/-- `refresh_last_ratio`. -/
def refreshLastRatio (status : Json) : Except Failure Json :=
  match status.find? (lastKey "total") with
  | none => refuse "context statistic last exchange field is missing"
  | some .null => .ok (status.set "last_window_remaining_ratio" .null)
  | some _ => do
    let total ← count status (lastKey "total")
    return status.set "last_window_remaining_ratio" (remainingRatio round window total)

/-- The parts of an exchange with their values. -/
def usageFields (cost : TokenCost) (total : UInt64) : List (String × UInt64) :=
  [("prompt", cost.prompt), ("generated", cost.generated), ("cache_hit", cost.cacheHit),
   ("total", total)]

def setLast (status : Json) (cost : TokenCost) (total : UInt64) : Json :=
  ((usageFields cost total).foldl (fun s field => s.set (lastKey field.1) (.uint field.2))
    status).set "last_window_remaining_ratio" (remainingRatio round window total)

/-- The maximum and the sum of one part. -/
def accountField (status : Json) (field : String × UInt64) : Except Failure Json := do
  let most ← count status (maximumKey field.1)
  let status := status.set (maximumKey field.1) (.uint (max most field.2))
  let sum ← addChecked (← count status (cumulativeKey field.1)) field.2
  return status.set (cumulativeKey field.1) (.uint sum)

/-- The ratio of the sums. -/
def setAverage (status : Json) : Except Failure Json := do
  let prompt ← count status (cumulativeKey "prompt")
  let hits ← count status (cumulativeKey "cache_hit")
  return status.set "average_cache_hit_probability"
    (if prompt = 0 then .null
      else .float (round (round hits.toNat / round prompt.toNat)))

/-- `account`. -/
def account (status : Json) (cost : Option TokenCost) : Except Failure Json :=
  let status := clearLast status
  match cost with
  | none => .ok status
  | some cost =>
    if cost.cacheHit > cost.prompt then refuse "cache-hit tokens exceed prompt tokens"
    else do
      let total ← addChecked cost.prompt cost.generated
      let status := setLast round window status cost total
      let status ← (usageFields cost total).foldlM accountField status
      let samples ← addChecked (← count status "sampled_exchange_count") 1
      setAverage round (status.set "sampled_exchange_count" (.uint samples))

/-! ## Reading the slot -/

def steps (state : AgentInputState) : List AgentLoopStep :=
  state.turns.flatMap UserLoopStep.agentLoopStep

def committed (state : AgentInputState) : UInt64 :=
  (state.loop.map LoopProgress.committedResponseSequence).getD 0

/-- One step of `bootstrap`: the numbered steps follow each other. -/
def bootstrapStep (acc : Json × UInt64) (step : AgentLoopStep) : Except Failure (Json × UInt64) :=
  if step.commitSequence = 0 then do
    let status ← account round window acc.1 step.modelResponse.cost
    return (status, acc.2)
  else do
    let next ← addChecked acc.2 1
    if step.commitSequence ≠ next then
      refuse "context statistic cannot bootstrap pruned response usage"
    else
      let status ← account round window acc.1 step.modelResponse.cost
      return (status, step.commitSequence)

/-- `bootstrap`: from the history, when there are no statistics yet. -/
def bootstrap (state : AgentInputState) : Except Failure Json := do
  let (status, checkpoint) ←
    (steps state).foldlM (bootstrapStep round window) (emptyStatus window, 0)
  if checkpoint ≠ committed state then
    refuse "context statistic cannot bootstrap missing response usage"
  else
    return status.set "accounted_commit_sequence" (.uint checkpoint)

/-- One step of `reconcile`: steps up to the checkpoint have been counted. -/
def reconcileStep (acc : Json × UInt64) (step : AgentLoopStep) : Except Failure (Json × UInt64) :=
  if step.commitSequence = 0 ∨ step.commitSequence ≤ acc.2 then .ok acc
  else do
    let next ← addChecked acc.2 1
    if step.commitSequence ≠ next then
      refuse "context statistic committed response accounting gap"
    else if step.modelResponse.type ≠ .modelResponse then
      refuse "context statistic expected a model response"
    else
      let status ← account round window acc.1 step.modelResponse.cost
      return (status, step.commitSequence)

/-- `reconcile`. -/
def reconcile (status : Json) (state : AgentInputState) : Except Failure Json := do
  let checkpoint ← count status "accounted_commit_sequence"
  if checkpoint > committed state then
    refuse "context statistic checkpoint exceeds committed responses"
  else
    let (status, checkpoint) ←
      (steps state).foldlM (reconcileStep round window) (status, checkpoint)
    if checkpoint ≠ committed state then
      refuse "context statistic response was pruned before accounting"
    else
      return status.set "accounted_commit_sequence" (.uint checkpoint)

/-- `read_statistics`. -/
def readStatistics (state : AgentInputState) (existing : Option Json) : Except Failure Json :=
  match existing with
  | none => bootstrap round window state
  | some candidate => do
    let prompt ← count candidate (cumulativeKey "prompt")
    let generated ← count candidate (cumulativeKey "generated")
    let hits ← count candidate (cumulativeKey "cache_hit")
    let total ← count candidate (cumulativeKey "total")
    if hits > prompt then refuse "context statistic has inconsistent cumulative usage"
    else if (← addChecked prompt generated) ≠ total then
      refuse "context statistic has inconsistent cumulative usage"
    else
      let _ ← count candidate "sampled_exchange_count"
      reconcile round window candidate state

/-! ## The hook -/

def definitions (tools : List Invocable) : Json :=
  .arr (tools.map fun tool => Json.object
    [("name", .str tool.name), ("description", .str tool.description),
     ("parameters", tool.argumentSchema)])

/-- `estimated_zero_request_tokens`. -/
def estimatedZeroRequestTokens (prompt : PromptTemplate) (tools : List Invocable) :
    Except Failure UInt64 := do
  let rendered ← (prompt.render).mapError renderFailure
  let bytes := UInt64.ofNat rendered.markdown.utf8ByteSize
  let bytes ← if tools = [] then .ok bytes
    else addChecked bytes (UInt64.ofNat (encodedBytes (definitions tools)))
  return bytes / 4 + (if bytes % 4 ≠ 0 then 1 else 0)

/-- `before_model`. -/
def beforeModel (state : AgentInputState) (context : ModelContext) :
    Except Failure ModelContext := do
  let status ← readStatistics round window state (externalStatus context.extras name)
  let status := if state.loop.any fun p => p.completedExchanges = 0
    then status.set "accounted_exchanges_in_run" (.uint 0) else status
  let estimate ← estimatedZeroRequestTokens encodedBytes context.systemPrompt context.tools
  let status := (status.set "context_window_tokens" (.uint window)).set
    "estimated_zero_request_tokens" (.uint estimate)
  let status ← refreshLastRatio round window status
  let extras ← syncExternalStatus context.extras name status
  return { context with extras := some extras }

/-- `update`, at the end of a step and of a run. -/
def update (state : AgentInputState) : Except Failure AgentInputState := do
  let status ← readStatistics round window state (externalStatus state.extras name)
  let status := status.set "accounted_exchanges_in_run"
    (.uint ((state.loop.map LoopProgress.completedExchanges).getD 0))
  let estimate ← estimatedZeroRequestTokens encodedBytes state.systemPrompt state.tools
  let status := (status.set "context_window_tokens" (.uint window)).set
    "estimated_zero_request_tokens" (.uint estimate)
  let status ← refreshLastRatio round window status
  let extras ← syncExternalStatus state.extras name status
  return { state with extras := some extras }

variable {round encodedBytes window}

theorem update_frame {state state' : AgentInputState}
    (h : update round encodedBytes window state = .ok state') :
    state' = { state with extras := state'.extras } := by
  unfold update at h
  obtain ⟨_, -, h⟩ := bind_ok h
  obtain ⟨_, -, h⟩ := bind_ok h
  obtain ⟨_, -, h⟩ := bind_ok h
  obtain ⟨_, -, h⟩ := bind_ok h
  injection h with h
  subst h
  rfl

end Account

end ContextStatistic

end SimplexAgent.Loop
