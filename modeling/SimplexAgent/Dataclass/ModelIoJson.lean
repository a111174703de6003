import SimplexAgent.Dataclass.ModelIo

/-!
# JSON forms of the model-io records

`to_json` and `from_json` of every record of the data contract, and what they do
to each other. Decoding an encoded record gives it back with one change: an
optional JSON value that is engaged and holds null comes back absent. `dropNulls`
is that change, record by record, and `fromJson_toJson` states it for each of
them, up to the whole session state.
-/

namespace SimplexAgent.Dataclass

open Json

/-! ## Content -/

namespace Content

def toJson (c : Content) : Json :=
  (object [("type", c.type.toJson), ("raw", .str c.raw),
    ("modality", c.modality.toJson)]).setOptional "extras" c.extras

def legacyProviderFilePart (extras : Option Json) : Bool :=
  match extras with
  | some (.obj fields) => decide (fields.lookup "type" = some (.str "input_file"))
  | _ => false

/-- The modality of a record written before the label existed. -/
def legacyModality (type : ContentType) (extras : Option Json) : Except JsonError Modality :=
  match type with
  | .text => .ok .text
  | .externalRef =>
    if legacyProviderFilePart extras then
      .error (.invalidArgument ("content part has no 'modality', and its 'extras.type' of " ++
        "\"input_file\" makes it ambiguous: the pre-modality Responses " ++
        "adapter sent it as a provider file and Chat Completions sent it " ++
        "as an image, so add an explicit modality (image or document)"))
    else .ok .image
  | .binary =>
    .error (.invalidArgument ("content part has no 'modality', and a binary payload cannot " ++
      "be recovered: the pre-modality protocol sent it as text in one adapter and as file " ++
      "data in the other, so add an explicit modality"))

def fromJson (j : Json) : Except JsonError Content := do
  let type ← j.readField "type" .text ContentType.fromJson
  let raw ← j.readField "raw" "" getString
  let extras ← j.readOptional "extras" getJson
  let modality ←
    match j.find? "modality" with
    | some v => Modality.fromJson v
    | none => legacyModality type extras
  return { type, raw, extras, modality }

def dropNulls (c : Content) : Content := { c with extras := dropNull c.extras }

theorem toJson_isObject (c : Content) : c.toJson.IsObject := by
  simp [toJson]

theorem fromJson_toJson (c : Content) : fromJson c.toJson = .ok c.dropNulls := by
  have hType : c.toJson.find? "type" = some c.type.toJson := by
    simp [toJson, find?_setOptional]
  have hRaw : c.toJson.find? "raw" = some (.str c.raw) := by
    simp [toJson, find?_setOptional]
  have hModality : c.toJson.find? "modality" = some c.modality.toJson := by
    simp [toJson, find?_setOptional]
  have hExtras : c.toJson.find? "extras" = c.extras := by
    simp [toJson, find?_setOptional]
  rw [fromJson, readField_of_find hType, ContentType.fromJson_toJson, readField_of_find hRaw,
    readOptional_json hExtras, hModality]
  simp only [Modality.fromJson_toJson]
  rfl

end Content

/-! ## Tool calls and results -/

namespace InvokeQuery

def toJson (q : InvokeQuery) : Json :=
  (object [("type", q.type.toJson), ("security", q.security.toJson), ("id", .str q.id),
    ("name", .str q.name), ("arguments", q.arguments)]).setOptional "extras" q.extras

def fromJson (j : Json) : Except JsonError InvokeQuery := do
  let type ← j.readField "type" .readOnly InvokeType.fromJson
  let security ← j.readField "security" .defaultDeny InvokeSecurity.fromJson
  let id ← j.readField "id" "" getString
  let name ← j.readField "name" "" getString
  let arguments ← j.readField "arguments" (.obj []) getJson
  let extras ← j.readOptional "extras" getJson
  return { type, security, id, name, arguments, extras }

def dropNulls (q : InvokeQuery) : InvokeQuery := { q with extras := dropNull q.extras }

theorem toJson_isObject (q : InvokeQuery) : q.toJson.IsObject := by
  simp [toJson]

theorem fromJson_toJson (q : InvokeQuery) : fromJson q.toJson = .ok q.dropNulls := by
  have hType : q.toJson.find? "type" = some q.type.toJson := by
    simp [toJson, find?_setOptional]
  have hSecurity : q.toJson.find? "security" = some q.security.toJson := by
    simp [toJson, find?_setOptional]
  have hId : q.toJson.find? "id" = some (.str q.id) := by
    simp [toJson, find?_setOptional]
  have hName : q.toJson.find? "name" = some (.str q.name) := by
    simp [toJson, find?_setOptional]
  have hArguments : q.toJson.find? "arguments" = some q.arguments := by
    simp [toJson, find?_setOptional]
  have hExtras : q.toJson.find? "extras" = q.extras := by
    simp [toJson, find?_setOptional]
  rw [fromJson, readField_of_find hType, InvokeType.fromJson_toJson,
    readField_of_find hSecurity, InvokeSecurity.fromJson_toJson, readField_of_find hId,
    readField_of_find hName, readField_of_find hArguments, readOptional_json hExtras]
  rfl

end InvokeQuery

namespace InvokeReturn

def toJson (r : InvokeReturn) : Json :=
  (object [("query", r.query.toJson), ("output", r.output.toJson)]).setOptional
    "extras" r.extras

def fromJson (j : Json) : Except JsonError InvokeReturn := do
  let query ← j.readField "query" {} InvokeQuery.fromJson
  let output ← j.readField "output" {} Content.fromJson
  let extras ← j.readOptional "extras" getJson
  return { query, output, extras }

def dropNulls (r : InvokeReturn) : InvokeReturn :=
  { query := r.query.dropNulls, output := r.output.dropNulls, extras := dropNull r.extras }

theorem toJson_isObject (r : InvokeReturn) : r.toJson.IsObject := by
  simp [toJson]

theorem fromJson_toJson (r : InvokeReturn) : fromJson r.toJson = .ok r.dropNulls := by
  have hQuery : r.toJson.find? "query" = some r.query.toJson := by
    simp [toJson, find?_setOptional]
  have hOutput : r.toJson.find? "output" = some r.output.toJson := by
    simp [toJson, find?_setOptional]
  have hExtras : r.toJson.find? "extras" = r.extras := by
    simp [toJson, find?_setOptional]
  rw [fromJson, readField_of_find hQuery, InvokeQuery.fromJson_toJson,
    readField_of_find hOutput, Content.fromJson_toJson, readOptional_json hExtras]
  rfl

end InvokeReturn

namespace TokenCost

def toJson (c : TokenCost) : Json :=
  object [("prompt", .uint c.prompt), ("generated", .uint c.generated),
    ("cache_hit", .uint c.cacheHit)]

def fromJson (j : Json) : Except JsonError TokenCost := do
  let prompt ← j.readField "prompt" 0 getUInt64
  let generated ← j.readField "generated" 0 getUInt64
  let cacheHit ← j.readField "cache_hit" 0 getUInt64
  return { prompt, generated, cacheHit }

theorem toJson_isObject (c : TokenCost) : c.toJson.IsObject := by
  simp [toJson]

theorem fromJson_toJson (c : TokenCost) : fromJson c.toJson = .ok c := by
  have hPrompt : c.toJson.find? "prompt" = some (.uint c.prompt) := by simp [toJson]
  have hGenerated : c.toJson.find? "generated" = some (.uint c.generated) := by simp [toJson]
  have hCacheHit : c.toJson.find? "cache_hit" = some (.uint c.cacheHit) := by simp [toJson]
  rw [fromJson, readField_of_find hPrompt, readField_of_find hGenerated,
    readField_of_find hCacheHit, getUInt64_uint, getUInt64_uint, getUInt64_uint]
  rfl

end TokenCost

/-! ## Messages -/

namespace MessageItem

def toJson (m : MessageItem) : Json :=
  (object [("type", m.type.toJson), ("role", .str m.role),
      ("content", .arr (m.content.map Content.toJson))])
    |>.setOptional "reasoning" (m.reasoning.map Content.toJson)
    |>.setOptional "action_status" (m.actionStatus.map Content.toJson)
    |>.setOptional "invokes" (m.invokes.map fun qs => .arr (qs.map InvokeQuery.toJson))
    |>.setOptional "cost" (m.cost.map TokenCost.toJson)
    |>.setOptional "invoke_return" (m.invokeReturn.map InvokeReturn.toJson)
    |>.setOptional "extras" m.extras

/-- `content`: an array, the former single object, or null for nothing. -/
def readContent (j : Json) : Except JsonError (List Content) :=
  match j.find? "content" with
  | some (.arr items) => items.mapM Content.fromJson
  | some .null => .ok []
  | some single => (Content.fromJson single).map fun c => [c]
  | none => .ok []

def fromJson (j : Json) : Except JsonError MessageItem := do
  let type ← j.readField "type" .userInput MessageItemType.fromJson
  let role ← j.readField "role" "" getString
  let content ← readContent j
  let reasoning ← j.readOptional "reasoning" Content.fromJson
  let actionStatus ← j.readOptional "action_status" Content.fromJson
  let invokes ← j.readOptional "invokes" (getArray InvokeQuery.fromJson)
  let cost ← j.readOptional "cost" TokenCost.fromJson
  let invokeReturn ← j.readOptional "invoke_return" InvokeReturn.fromJson
  let extras ← j.readOptional "extras" getJson
  return { type, role, content, reasoning, actionStatus, invokes, cost, invokeReturn, extras }

def dropNulls (m : MessageItem) : MessageItem :=
  { m with
    content := m.content.map Content.dropNulls
    reasoning := m.reasoning.map Content.dropNulls
    actionStatus := m.actionStatus.map Content.dropNulls
    invokes := m.invokes.map (List.map InvokeQuery.dropNulls)
    invokeReturn := m.invokeReturn.map InvokeReturn.dropNulls
    extras := dropNull m.extras }

theorem toJson_isObject (m : MessageItem) : m.toJson.IsObject := by
  simp [toJson]

theorem fromJson_toJson (m : MessageItem) : fromJson m.toJson = .ok m.dropNulls := by
  have hType : m.toJson.find? "type" = some m.type.toJson := by
    simp [toJson, find?_setOptional]
  have hRole : m.toJson.find? "role" = some (.str m.role) := by
    simp [toJson, find?_setOptional]
  have hContent : m.toJson.find? "content" = some (.arr (m.content.map Content.toJson)) := by
    simp [toJson, find?_setOptional]
  have hReasoning : m.toJson.find? "reasoning" = m.reasoning.map Content.toJson := by
    simp [toJson, find?_setOptional]
  have hStatus : m.toJson.find? "action_status" = m.actionStatus.map Content.toJson := by
    simp [toJson, find?_setOptional]
  have hInvokes : m.toJson.find? "invokes" =
      m.invokes.map fun qs => .arr (qs.map InvokeQuery.toJson) := by
    simp [toJson, find?_setOptional]
  have hCost : m.toJson.find? "cost" = m.cost.map TokenCost.toJson := by
    simp [toJson, find?_setOptional]
  have hReturn : m.toJson.find? "invoke_return" = m.invokeReturn.map InvokeReturn.toJson := by
    simp [toJson, find?_setOptional]
  have hExtras : m.toJson.find? "extras" = m.extras := by
    simp [toJson, find?_setOptional]
  have hItems : readContent m.toJson = .ok (m.content.map Content.dropNulls) := by
    rw [readContent, hContent]
    exact Verified.Tables.mapM_map_ok _ _ _ _ fun c _ => Content.fromJson_toJson c
  have hReadInvokes := readOptional_record (f := List.map InvokeQuery.dropNulls) hInvokes
    (fun _ => rfl) fun qs _ => getArray_map InvokeQuery.toJson InvokeQuery.fromJson _ qs
      fun q _ => InvokeQuery.fromJson_toJson q
  rw [fromJson, readField_of_find hType, MessageItemType.fromJson_toJson,
    readField_of_find hRole, hItems,
    readOptional_record hReasoning (fun c => isNull_of_isObject c.toJson_isObject)
      fun c _ => Content.fromJson_toJson c,
    readOptional_record hStatus (fun c => isNull_of_isObject c.toJson_isObject)
      fun c _ => Content.fromJson_toJson c,
    hReadInvokes,
    readOptional_record (f := id) hCost (fun c => isNull_of_isObject c.toJson_isObject)
      fun c _ => TokenCost.fromJson_toJson c,
    readOptional_record hReturn (fun r => isNull_of_isObject r.toJson_isObject)
      fun r _ => InvokeReturn.fromJson_toJson r,
    readOptional_json hExtras, Option.map_id]
  rfl

end MessageItem

/-! ## Steps and turns -/

namespace AgentLoopStep

/-- A commit sequence of zero is left out. -/
def toJson (s : AgentLoopStep) : Json :=
  (object [("model_response", s.modelResponse.toJson),
      ("retain_priority", s.retainPriority.toJson)])
    |>.setOptional "commit_sequence"
        (if s.commitSequence = 0 then none else some (.uint s.commitSequence))
    |>.setOptional "invoke_returns"
        (s.invokeReturns.map fun ms => .arr (ms.map MessageItem.toJson))
    |>.setOptional "extras" s.extras

def fromJson (j : Json) : Except JsonError AgentLoopStep := do
  let modelResponse ← j.readField "model_response" {} MessageItem.fromJson
  let invokeReturns ← j.readOptional "invoke_returns" (getArray MessageItem.fromJson)
  let extras ← j.readOptional "extras" getJson
  let commitSequence ← j.readField "commit_sequence" 0 getUInt64
  let retainPriority ← j.readField "retain_priority" .normal RetainPriority.fromJson
  return { modelResponse, invokeReturns, extras, commitSequence, retainPriority }

def dropNulls (s : AgentLoopStep) : AgentLoopStep :=
  { s with
    modelResponse := s.modelResponse.dropNulls
    invokeReturns := s.invokeReturns.map (List.map MessageItem.dropNulls)
    extras := dropNull s.extras }

theorem fromJson_toJson (s : AgentLoopStep) : fromJson s.toJson = .ok s.dropNulls := by
  have hResponse : s.toJson.find? "model_response" = some s.modelResponse.toJson := by
    simp [toJson, find?_setOptional]
  have hReturns : s.toJson.find? "invoke_returns" =
      s.invokeReturns.map fun ms => .arr (ms.map MessageItem.toJson) := by
    simp [toJson, find?_setOptional]
  have hExtras : s.toJson.find? "extras" = s.extras := by
    simp [toJson, find?_setOptional]
  have hSequence : s.toJson.find? "commit_sequence" =
      if s.commitSequence = 0 then none else some (.uint s.commitSequence) := by
    simp [toJson, find?_setOptional]
  have hPriority : s.toJson.find? "retain_priority" = some s.retainPriority.toJson := by
    simp [toJson, find?_setOptional]
  have hReadSequence : s.toJson.readField "commit_sequence" 0 getUInt64 = .ok s.commitSequence := by
    by_cases hZero : s.commitSequence = 0
    · simp [readField, hSequence, hZero]
    · simp [readField, hSequence, hZero]
  have hReadReturns := readOptional_record (f := List.map MessageItem.dropNulls) hReturns
    (fun _ => rfl) fun ms _ => getArray_map MessageItem.toJson MessageItem.fromJson _ ms
      fun m _ => MessageItem.fromJson_toJson m
  rw [fromJson, readField_of_find hResponse, MessageItem.fromJson_toJson, hReadReturns,
    readOptional_json hExtras, hReadSequence, readField_of_find hPriority,
    RetainPriority.fromJson_toJson]
  rfl

end AgentLoopStep

namespace UserLoopStep

def toJson (u : UserLoopStep) : Json :=
  (object [("user_input", u.userInput.toJson),
      ("agent_loop_step", .arr (u.agentLoopStep.map AgentLoopStep.toJson)),
      ("retain_priority", u.retainPriority.toJson)]).setOptional "extras" u.extras

def fromJson (j : Json) : Except JsonError UserLoopStep := do
  let userInput ← j.readField "user_input" {} MessageItem.fromJson
  let agentLoopStep ← j.readField "agent_loop_step" [] (getArray AgentLoopStep.fromJson)
  let extras ← j.readOptional "extras" getJson
  let retainPriority ← j.readField "retain_priority" .normal RetainPriority.fromJson
  return { userInput, agentLoopStep, extras, retainPriority }

def dropNulls (u : UserLoopStep) : UserLoopStep :=
  { u with
    userInput := u.userInput.dropNulls
    agentLoopStep := u.agentLoopStep.map AgentLoopStep.dropNulls
    extras := dropNull u.extras }

theorem fromJson_toJson (u : UserLoopStep) : fromJson u.toJson = .ok u.dropNulls := by
  have hInput : u.toJson.find? "user_input" = some u.userInput.toJson := by
    simp [toJson, find?_setOptional]
  have hSteps : u.toJson.find? "agent_loop_step" =
      some (.arr (u.agentLoopStep.map AgentLoopStep.toJson)) := by
    simp [toJson, find?_setOptional]
  have hExtras : u.toJson.find? "extras" = u.extras := by
    simp [toJson, find?_setOptional]
  have hPriority : u.toJson.find? "retain_priority" = some u.retainPriority.toJson := by
    simp [toJson, find?_setOptional]
  rw [fromJson, readField_of_find hInput, MessageItem.fromJson_toJson, readField_of_find hSteps,
    getArray_map _ _ _ _ fun s _ => AgentLoopStep.fromJson_toJson s,
    readOptional_json hExtras, readField_of_find hPriority, RetainPriority.fromJson_toJson]
  rfl

end UserLoopStep

/-! ## The session -/

namespace Invocable

def toJson (v : Invocable) : Json :=
  (object [("name", .str v.name), ("description", .str v.description),
      ("argument_schema", v.argumentSchema)])
    |>.setOptional "remote_type" (v.remoteType.map Json.str)
    |>.setOptional "extras" v.extras

def fromJson (j : Json) : Except JsonError Invocable := do
  let name ← j.readField "name" "" getString
  let description ← j.readField "description" "" getString
  let argumentSchema ← j.readField "argument_schema" (.obj []) getJson
  let remoteType ← j.readOptional "remote_type" getString
  let extras ← j.readOptional "extras" getJson
  return { name, description, argumentSchema, remoteType, extras }

def dropNulls (v : Invocable) : Invocable := { v with extras := dropNull v.extras }

theorem fromJson_toJson (v : Invocable) : fromJson v.toJson = .ok v.dropNulls := by
  have hName : v.toJson.find? "name" = some (.str v.name) := by
    simp [toJson, find?_setOptional]
  have hDescription : v.toJson.find? "description" = some (.str v.description) := by
    simp [toJson, find?_setOptional]
  have hSchema : v.toJson.find? "argument_schema" = some v.argumentSchema := by
    simp [toJson, find?_setOptional]
  have hRemote : v.toJson.find? "remote_type" = v.remoteType.map Json.str := by
    simp [toJson, find?_setOptional]
  have hExtras : v.toJson.find? "extras" = v.extras := by
    simp [toJson, find?_setOptional]
  rw [fromJson, readField_of_find hName, readField_of_find hDescription, readField_of_find hSchema,
    readOptional_record (f := id) hRemote (fun _ => rfl) (fun _ _ => rfl),
    readOptional_json hExtras, Option.map_id]
  rfl

end Invocable

namespace MetaInfo

def toJson (m : MetaInfo) : Json :=
  (object [("schema_version", .uint m.schemaVersion.toUInt64), ("session_id", .str m.sessionId),
      ("created_at", .str m.createdAt), ("updated_at", .str m.updatedAt),
      ("status", m.status.toJson)]).setOptional "error" m.error

def fromJson (j : Json) : Except JsonError MetaInfo := do
  let schemaVersion ← j.readField "schema_version" 1 getUInt32
  let sessionId ← j.readField "session_id" "" getString
  let createdAt ← j.readField "created_at" "" getString
  let updatedAt ← j.readField "updated_at" "" getString
  let status ← j.readField "status" .active SessionStatus.fromJson
  let error ← j.readOptional "error" getJson
  return { schemaVersion, sessionId, createdAt, updatedAt, status, error }

def dropNulls (m : MetaInfo) : MetaInfo := { m with error := dropNull m.error }

theorem fromJson_toJson (m : MetaInfo) : fromJson m.toJson = .ok m.dropNulls := by
  have hVersion : m.toJson.find? "schema_version" = some (.uint m.schemaVersion.toUInt64) := by
    simp [toJson, find?_setOptional]
  have hSession : m.toJson.find? "session_id" = some (.str m.sessionId) := by
    simp [toJson, find?_setOptional]
  have hCreated : m.toJson.find? "created_at" = some (.str m.createdAt) := by
    simp [toJson, find?_setOptional]
  have hUpdated : m.toJson.find? "updated_at" = some (.str m.updatedAt) := by
    simp [toJson, find?_setOptional]
  have hStatus : m.toJson.find? "status" = some m.status.toJson := by
    simp [toJson, find?_setOptional]
  have hError : m.toJson.find? "error" = m.error := by
    simp [toJson, find?_setOptional]
  rw [fromJson, readField_of_find hVersion, getUInt32_uint, readField_of_find hSession,
    readField_of_find hCreated, readField_of_find hUpdated, readField_of_find hStatus,
    SessionStatus.fromJson_toJson, readOptional_json hError]
  rfl

end MetaInfo

namespace LoopProgress

def toJson (p : LoopProgress) : Json :=
  object [("status", p.status.toJson), ("phase", p.phase.toJson),
    ("completed_exchanges", .uint p.completedExchanges),
    ("committed_response_sequence", .uint p.committedResponseSequence),
    ("error", .str p.error),
    ("pending_results", .arr (p.pendingResults.map InvokeReturn.toJson))]

/-- A progress record is complete: all keys but the sequence are required. -/
def fromJson (j : Json) : Except JsonError LoopProgress := do
  let status ← LoopStatus.fromJson (← j.atKey "status")
  let phase ← LoopPhase.fromJson (← j.atKey "phase")
  let completedExchanges ← getUInt64 (← j.atKey "completed_exchanges")
  let committedResponseSequence ← j.readField "committed_response_sequence" 0 getUInt64
  let error ← getString (← j.atKey "error")
  let pendingResults ← getArray InvokeReturn.fromJson (← j.atKey "pending_results")
  return { status, phase, completedExchanges, committedResponseSequence, error,
           pendingResults }

def dropNulls (p : LoopProgress) : LoopProgress :=
  { p with pendingResults := p.pendingResults.map InvokeReturn.dropNulls }

theorem toJson_isObject (p : LoopProgress) : p.toJson.IsObject := by
  simp [toJson]

theorem fromJson_toJson (p : LoopProgress) : fromJson p.toJson = .ok p.dropNulls := by
  have hStatus : p.toJson.find? "status" = some p.status.toJson := by simp [toJson]
  have hPhase : p.toJson.find? "phase" = some p.phase.toJson := by simp [toJson]
  have hExchanges : p.toJson.find? "completed_exchanges" =
      some (.uint p.completedExchanges) := by simp [toJson]
  have hSequence : p.toJson.find? "committed_response_sequence" =
      some (.uint p.committedResponseSequence) := by simp [toJson]
  have hError : p.toJson.find? "error" = some (.str p.error) := by simp [toJson]
  have hPending : p.toJson.find? "pending_results" =
      some (.arr (p.pendingResults.map InvokeReturn.toJson)) := by simp [toJson]
  have hObj := p.toJson_isObject
  rw [fromJson, atKey_eq_find? hObj hStatus, atKey_eq_find? hObj hPhase,
    atKey_eq_find? hObj hExchanges, readField_of_find hSequence, atKey_eq_find? hObj hError,
    atKey_eq_find? hObj hPending]
  simp only [bind, Except.bind, LoopStatus.fromJson_toJson, LoopPhase.fromJson_toJson,
    getUInt64_uint, getArray_map _ _ _ _ fun r _ => InvokeReturn.fromJson_toJson r]
  rfl

end LoopProgress

namespace AgentInputState

def toJson (s : AgentInputState) : Json :=
  (object [("meta", s.metaInfo.toJson), ("system_prompt", s.systemPrompt.toJson),
      ("tools", .arr (s.tools.map Invocable.toJson)),
      ("turns", .arr (s.turns.map UserLoopStep.toJson))])
    |>.setOptional "extras" s.extras
    |>.setOptional "loop" (s.loop.map LoopProgress.toJson)

def fromJson (j : Json) : Except JsonError AgentInputState := do
  let loop ← j.readOptional "loop" LoopProgress.fromJson
  let metaInfo ← j.readField "meta" {} MetaInfo.fromJson
  let systemPrompt ← j.readField "system_prompt" .empty PromptTemplate.fromJson
  let tools ← j.readField "tools" [] (getArray Invocable.fromJson)
  let turns ← j.readField "turns" [] (getArray UserLoopStep.fromJson)
  let extras ← j.readOptional "extras" getJson
  return { loop, metaInfo, systemPrompt, tools, turns, extras }

def dropNulls (s : AgentInputState) : AgentInputState :=
  { s with
    loop := s.loop.map LoopProgress.dropNulls
    metaInfo := s.metaInfo.dropNulls
    tools := s.tools.map Invocable.dropNulls
    turns := s.turns.map UserLoopStep.dropNulls
    extras := dropNull s.extras }

/--
**What a round trip keeps**: everything, except that optional JSON values engaged
with null come back absent.
-/
theorem fromJson_toJson (s : AgentInputState) : fromJson s.toJson = .ok s.dropNulls := by
  have hLoop : s.toJson.find? "loop" = s.loop.map LoopProgress.toJson := by
    simp [toJson, find?_setOptional]
  have hMeta : s.toJson.find? "meta" = some s.metaInfo.toJson := by
    simp [toJson, find?_setOptional]
  have hPrompt : s.toJson.find? "system_prompt" = some s.systemPrompt.toJson := by
    simp [toJson, find?_setOptional]
  have hTools : s.toJson.find? "tools" = some (.arr (s.tools.map Invocable.toJson)) := by
    simp [toJson, find?_setOptional]
  have hTurns : s.toJson.find? "turns" = some (.arr (s.turns.map UserLoopStep.toJson)) := by
    simp [toJson, find?_setOptional]
  have hExtras : s.toJson.find? "extras" = s.extras := by
    simp [toJson, find?_setOptional]
  rw [fromJson, readOptional_record hLoop (fun p => isNull_of_isObject p.toJson_isObject)
      fun p _ => LoopProgress.fromJson_toJson p,
    readField_of_find hMeta, MetaInfo.fromJson_toJson, readField_of_find hPrompt,
    PromptTemplate.fromJson_toJson, readField_of_find hTools,
    getArray_map _ _ _ _ fun v _ => Invocable.fromJson_toJson v, readField_of_find hTurns,
    getArray_map _ _ _ _ fun u _ => UserLoopStep.fromJson_toJson u,
    readOptional_json hExtras]
  rfl

end AgentInputState

/-! ## What a round trip changes

Exactly the optional JSON values that are engaged with null.
-/

/-- The values that a round trip keeps in an optional JSON field. -/
def NonNull (j : Json) : Prop := j ≠ .null

def AnyJson (_ : Json) : Prop := True

theorem dropNull_fixed_iff (x : Option Json) : dropNull x = x ↔ ∀ j, x = some j → NonNull j := by
  rw [dropNull_eq_self_iff]
  constructor
  · rintro h j rfl rfl
    exact h rfl
  · rintro h rfl
    exact h .null rfl rfl

theorem list_map_fixed_iff {α : Type} (f : α → α) (xs : List α) :
    xs.map f = xs ↔ ∀ x ∈ xs, f x = x := by
  calc xs.map f = xs ↔ xs.map f = xs.map id := by rw [List.map_id]
    _ ↔ ∀ x ∈ xs, f x = x := List.map_inj_left

theorem option_map_fixed_iff {α : Type} (f : α → α) (x : Option α) :
    x.map f = x ↔ ∀ a, x = some a → f a = a := by
  cases x <;> simp

theorem Content.dropNulls_eq_self_iff (c : Content) : c.dropNulls = c ↔ c.JsonFields NonNull := by
  rw [Content.JsonFields, ← dropNull_fixed_iff]
  simp [dropNulls, Content.ext_iff]

theorem InvokeQuery.dropNulls_eq_self_iff (q : InvokeQuery) :
    q.dropNulls = q ↔ q.JsonFields NonNull AnyJson := by
  rw [InvokeQuery.JsonFields, ← dropNull_fixed_iff]
  simp [dropNulls, InvokeQuery.ext_iff, AnyJson]

theorem InvokeReturn.dropNulls_eq_self_iff (r : InvokeReturn) :
    r.dropNulls = r ↔ r.JsonFields NonNull AnyJson := by
  rw [InvokeReturn.JsonFields, ← dropNull_fixed_iff, ← InvokeQuery.dropNulls_eq_self_iff,
    ← Content.dropNulls_eq_self_iff, InvokeReturn.ext_iff]
  rfl

theorem MessageItem.dropNulls_eq_self_iff (m : MessageItem) :
    m.dropNulls = m ↔ m.JsonFields NonNull AnyJson := by
  have hFields : m.JsonFields NonNull AnyJson ↔ m.content.map Content.dropNulls = m.content ∧
      m.reasoning.map Content.dropNulls = m.reasoning ∧
      m.actionStatus.map Content.dropNulls = m.actionStatus ∧
      m.invokes.map (List.map InvokeQuery.dropNulls) = m.invokes ∧
      m.invokeReturn.map InvokeReturn.dropNulls = m.invokeReturn ∧
      dropNull m.extras = m.extras := by
    simp only [list_map_fixed_iff, option_map_fixed_iff, Content.dropNulls_eq_self_iff,
      InvokeQuery.dropNulls_eq_self_iff, InvokeReturn.dropNulls_eq_self_iff, dropNull_fixed_iff]
    exact ⟨fun h => ⟨h.content, h.reasoning, h.actionStatus, h.invokes, h.invokeReturn, h.extras⟩,
      fun ⟨h₁, h₂, h₃, h₄, h₅, h₆⟩ => ⟨h₁, h₂, h₃, h₄, h₅, h₆⟩⟩
  rw [hFields]
  simp [dropNulls, MessageItem.ext_iff]

theorem AgentLoopStep.dropNulls_eq_self_iff (s : AgentLoopStep) :
    s.dropNulls = s ↔ s.JsonFields NonNull AnyJson := by
  have hFields : s.JsonFields NonNull AnyJson ↔ s.modelResponse.dropNulls = s.modelResponse ∧
      s.invokeReturns.map (List.map MessageItem.dropNulls) = s.invokeReturns ∧
      dropNull s.extras = s.extras := by
    simp only [list_map_fixed_iff, option_map_fixed_iff, MessageItem.dropNulls_eq_self_iff,
      dropNull_fixed_iff]
    exact ⟨fun h => ⟨h.modelResponse, h.invokeReturns, h.extras⟩,
      fun ⟨h₁, h₂, h₃⟩ => ⟨h₁, h₂, h₃⟩⟩
  rw [hFields]
  simp [dropNulls, AgentLoopStep.ext_iff]

theorem UserLoopStep.dropNulls_eq_self_iff (u : UserLoopStep) :
    u.dropNulls = u ↔ u.JsonFields NonNull AnyJson := by
  have hFields : u.JsonFields NonNull AnyJson ↔ u.userInput.dropNulls = u.userInput ∧
      u.agentLoopStep.map AgentLoopStep.dropNulls = u.agentLoopStep ∧
      dropNull u.extras = u.extras := by
    simp only [list_map_fixed_iff, MessageItem.dropNulls_eq_self_iff,
      AgentLoopStep.dropNulls_eq_self_iff, dropNull_fixed_iff]
    exact ⟨fun h => ⟨h.userInput, h.agentLoopStep, h.extras⟩,
      fun ⟨h₁, h₂, h₃⟩ => ⟨h₁, h₂, h₃⟩⟩
  rw [hFields]
  simp [dropNulls, UserLoopStep.ext_iff]

theorem Invocable.dropNulls_eq_self_iff (v : Invocable) :
    v.dropNulls = v ↔ v.JsonFields NonNull AnyJson := by
  rw [Invocable.JsonFields, ← dropNull_fixed_iff]
  simp [dropNulls, Invocable.ext_iff, AnyJson]

theorem MetaInfo.dropNulls_eq_self_iff (m : MetaInfo) : m.dropNulls = m ↔ m.JsonFields NonNull := by
  rw [MetaInfo.JsonFields, ← dropNull_fixed_iff]
  simp [dropNulls, MetaInfo.ext_iff]

theorem LoopProgress.dropNulls_eq_self_iff (p : LoopProgress) :
    p.dropNulls = p ↔ p.JsonFields NonNull AnyJson := by
  simp only [LoopProgress.JsonFields, ← InvokeReturn.dropNulls_eq_self_iff, ← list_map_fixed_iff]
  simp [dropNulls, LoopProgress.ext_iff]

theorem AgentInputState.dropNulls_eq_self_iff (s : AgentInputState) :
    s.dropNulls = s ↔ s.JsonFields NonNull AnyJson := by
  have hFields : s.JsonFields NonNull AnyJson ↔ s.loop.map LoopProgress.dropNulls = s.loop ∧
      s.metaInfo.dropNulls = s.metaInfo ∧
      s.tools.map Invocable.dropNulls = s.tools ∧
      s.turns.map UserLoopStep.dropNulls = s.turns ∧
      dropNull s.extras = s.extras := by
    simp only [list_map_fixed_iff, option_map_fixed_iff, LoopProgress.dropNulls_eq_self_iff,
      MetaInfo.dropNulls_eq_self_iff, Invocable.dropNulls_eq_self_iff,
      UserLoopStep.dropNulls_eq_self_iff, dropNull_fixed_iff]
    exact ⟨fun h => ⟨h.loop, h.metaInfo, h.tools, h.turns, h.extras⟩,
      fun ⟨h₁, h₂, h₃, h₄, h₅⟩ => ⟨h₁, h₂, h₃, h₄, h₅⟩⟩
  rw [hFields]
  simp [dropNulls, AgentInputState.ext_iff]

end SimplexAgent.Dataclass
