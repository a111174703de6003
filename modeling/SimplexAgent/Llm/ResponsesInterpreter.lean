import SimplexAgent.Llm.ResponsesReader
import SimplexAgent.Loop.History

/-!
# Building a Responses request

The request half of the Responses layer, from `llm/compat/responses`: a conversation
is flattened into the `input` list of one request, turn by turn. A response of the
model becomes its reasoning, its message and its calls, and the results of the calls
follow them.

Items that the reader recorded when they were done are sent again as they were
received. Everything else is written from the conversation. A part whose kind or
encoding the position cannot carry is refused before anything is written.

The text form of a JSON value is a parameter. What belongs to the transport, and the
dialect's last transformation of the body, are left out. An error is the text of the
exception.
-/

namespace SimplexAgent.Llm

open Dataclass

def typeName : Json → String
  | .null => "null"
  | .bool _ => "boolean"
  | .integer _ | .float _ => "number"
  | .str _ => "string"
  | .arr _ => "array"
  | .obj _ => "object"

/-- `wire_arguments`: arguments travel as text; a string is taken for that text. -/
def wireArguments (dump : Json → String) : Json → String
  | .str text => text
  | arguments => dump arguments

/-- `erase`. -/
def eraseKey (j : Json) (key : String) : Json :=
  match j with
  | .obj fields => .obj (fields.filter fun field => field.1 ≠ key)
  | other => other

def extrasObject : Option Json → Json
  | some (.obj fields) => .obj fields
  | _ => Json.object []

/-- The text form of an enumeration's name. -/
def quoted (name : String) : String := "\"" ++ name ++ "\""

def IsText (part : Content) : Prop := part.modality = .text ∧ part.type ≠ .binary

instance (part : Content) : Decidable (IsText part) :=
  inferInstanceAs (Decidable (part.modality = .text ∧ part.type ≠ .binary))

/-- `require_text_position` of either dialect. -/
def requireTextPosition (dialectName : String) (part : Content) (position : String) :
    Except String Unit :=
  if IsText part then .ok ()
  else .error (dialectName ++ " sends " ++ position ++ " as text, so a " ++
    quoted part.type.nameOf ++ " " ++ quoted part.modality.nameOf ++
    " part cannot be preserved there")

/-- What `converse` of either layer adds to the result of an exchange. -/
def withExchangeId (exchangeId : String) (item : MessageItem) : MessageItem :=
  match item.extras.getD (Json.object []) with
  | .obj fields =>
    { item with extras := some ((Json.obj fields).set "exchange_id" (.str exchangeId)) }
  | other => { item with extras := some other }

def resultCallId (item : MessageItem) (index count : Nat)
    (invokes : Option (List InvokeQuery)) : String :=
  let recorded := (item.invokeReturn.map fun record => record.query.id).getD ""
  if recorded ≠ "" then recorded
  else match invokes with
    | some calls => if count = calls.length then (calls[index]?.map InvokeQuery.id).getD "" else ""
    | none => ""

namespace Responses

/-! ## What is refused -/

/-- `require_input_part`: which encodings the field of a modality can carry. -/
def requireInputPart (part : Content) : Except String Unit :=
  let refuse (reason : String) : Except String Unit :=
    .error ("responses cannot send a " ++ quoted part.type.nameOf ++ " " ++
      quoted part.modality.nameOf ++ " content part: " ++ reason)
  match part.modality with
  | .text =>
    if part.type = .binary then refuse "the base64 encoding would be delivered as the text"
    else .ok ()
  | .image =>
    if part.type ≠ .externalRef then
      refuse ("input_image takes a URL, and this representation carries " ++
        "no media type to describe it with")
    else .ok ()
  | .document =>
    if part.type ≠ .externalRef ∧ part.type ≠ .binary then
      refuse "input_file takes a reference or base64 data"
    else .ok ()
  | .audio | .video => refuse "the input list has no such part kind"

/-- `captured_item`: the wire item of a record, if it is of the wanted type. -/
def capturedItem (extras : Option Json) (wireType : String) : Option Json :=
  match extras with
  | some (.obj fields) =>
    if (Json.obj fields).find? "type" = some (.str wireType) then some (.obj fields) else none
  | _ => none

def isMessage (item : Json) : Except String Bool :=
  match item with
  | .obj fields =>
    match (Json.obj fields).find? "type" with
    | none => .ok false
    | some (.str type) => .ok (type = "message")
    | some other => .error ("[json.exception.type_error.302] type must be string, but is " ++
        typeName other)
  | _ => .ok false

def outputItems (response : MessageItem) : List Json :=
  match (extrasObject response.extras).find? "output_items" with
  | some (.arr items) => items
  | _ => []

def anyMessage : List Json → Except String Bool
  | [] => .ok false
  | item :: rest => do
    if ← isMessage item then return true
    anyMessage rest

/-- `assistant_is_replayed_verbatim`. -/
def assistantIsReplayedVerbatim (response : MessageItem) : Except String Bool :=
  anyMessage (outputItems response)

def reasoningItems (reasoning : Content) : List Json :=
  match (extrasObject reasoning.extras).find? "items" with
  | some (.arr items) => items.filter fun item => decide item.IsObject
  | _ => []

/-- `reasoning_is_replayed_verbatim`. -/
def reasoningIsReplayedVerbatim (reasoning : Content) : Bool :=
  reasoningItems reasoning ≠ [] ∨ (capturedItem reasoning.extras "reasoning").isSome

/-- `tool_result_is_replayed_verbatim`. -/
def toolResultIsReplayedVerbatim (item : MessageItem) : Bool :=
  (item.invokeReturn.bind fun record => capturedItem record.extras "function_call_output").isSome

/-- The check of the visible text, unless a recorded message is sent. -/
def requireMessage (response : MessageItem) : Except String Unit := do
  let replayed ← assistantIsReplayedVerbatim response
  if replayed then .ok ()
  else response.content.forM fun part =>
    requireTextPosition "responses" part "an assistant message"

/-- The check of the reasoning, unless recorded items are sent. -/
def requireReasoning : Option Content → Except String Unit
  | some reasoning =>
    if reasoningIsReplayedVerbatim reasoning then .ok ()
    else requireTextPosition "responses" reasoning "assistant reasoning"
  | none => .ok ()

/-- The check of a result, unless a recorded one is sent. -/
def requireResult (item : MessageItem) : Except String Unit :=
  if toolResultIsReplayedVerbatim item then .ok () else item.content.forM requireInputPart

def requireStep (step : AgentLoopStep) : Except String Unit := do
  requireMessage step.modelResponse
  requireReasoning step.modelResponse.reasoning
  (step.invokeReturns.getD []).forM requireResult

/-- `require_supported_conversation`. -/
def requireSupportedConversation (state : AgentInputState) : Except String Unit :=
  state.turns.forM fun turn => do
    turn.userInput.content.forM requireInputPart
    turn.agentLoopStep.forM requireStep

/-! ## Parts -/

/-- `content_part`: the part's extras, overlaid with its type and text. -/
def contentPart (content : Content) (wireType : String) : Json :=
  ((extrasObject content.extras).set "type" (.str wireType)).set "text" (.str content.raw)

/-- `inherit`: the fields a part kind defines, out of the extras. -/
def inherit (extras part : Json) (keys : List String) : Json :=
  keys.foldl (fun part key => part.setOptional key (extras.find? key)) part

/-- `input_content_part`: the modality decides the kind of a part. -/
def inputContentPart (content : Content) : Json :=
  let extras := extrasObject content.extras
  match content.modality with
  | .image =>
    let part := inherit extras (Json.object [("type", .str "input_image")]) ["detail", "file_id"]
    if (part.find? "file_id").isSome then part
    else part.set "image_url" ((extras.find? "image_url").getD (.str content.raw))
  | .document =>
    let part := inherit extras (Json.object [("type", .str "input_file")])
      ["filename", "file_id"]
    if (part.find? "file_id").isSome then part
    else part.set (if content.type = .externalRef then "file_url" else "file_data")
      (.str content.raw)
  | .text | .audio | .video =>
    Json.object [("type", .str "input_text"), ("text", .str content.raw)]

/-- `synthesized_content` of one part: its text, then a refusal as a part of its own. -/
def synthesizedPart (content : Content) : List Json :=
  let part := contentPart content "output_text"
  match part.find? "refusal" with
  | none => [part]
  | some (.str refusal) =>
    [eraseKey part "refusal", Json.object [("type", .str "refusal"), ("refusal", .str refusal)]]
  | some _ => [eraseKey part "refusal"]

/-- `synthesized_content`. -/
def synthesizedContent (content : List Content) : List Json := content.flatMap synthesizedPart

/-- `input_content`. -/
def inputContent (content : List Content) : List Json := content.map inputContentPart

/-- `derived_role`. -/
def derivedRole (item : MessageItem) : String :=
  if item.role ≠ "" then item.role
  else if item.type = .modelResponse then "assistant"
  else "user"

/-! ## Items -/

/-- `synthesized_reasoning`. -/
def synthesizedReasoning (raw : String) : Json :=
  Json.object [("type", .str "reasoning"), ("summary", .arr
    [Json.object [("type", .str "summary_text"), ("text", .str raw)]])]

/-- `emit_reasoning`: recorded items first. -/
def emitReasoning (reasoning : Content) : List Json :=
  if reasoningItems reasoning ≠ [] then reasoningItems reasoning
  else match capturedItem reasoning.extras "reasoning" with
    | some captured => [captured]
    | none => [synthesizedReasoning reasoning.raw]

def messageItems : List Json → Except String (List Json)
  | [] => .ok []
  | item :: rest => do
    let message ← isMessage item
    let messages ← messageItems rest
    return if message then item :: messages else messages

/-- `emit_assistant_message`: the recorded messages, or one with the visible text. -/
def emitAssistantMessage (response : MessageItem) : Except String (List Json) := do
  let recorded ← messageItems (outputItems response)
  if recorded ≠ [] then return recorded
  if response.content.any fun part => part.raw ≠ "" then
    return [Json.object [("type", .str "message"), ("role", .str "assistant"),
      ("content", .arr (synthesizedContent response.content))]]
  return []

/-- One call of `emit_invokes`. -/
def callItem (dump : Json → String) (query : InvokeQuery) : Json :=
  match capturedItem query.extras "function_call" with
  | some captured => captured
  | none => Json.object [("type", .str "function_call"), ("call_id", .str query.id),
      ("name", .str query.name), ("arguments", .str (wireArguments dump query.arguments))]

/-- `emit_invokes`. -/
def emitInvokes (dump : Json → String) (invokes : List InvokeQuery) : List Json :=
  invokes.map (callItem dump)

def recordText (item : MessageItem) : String :=
  (item.invokeReturn.map fun record => record.output.raw).getD ""

def resultOutput (item : MessageItem) : Json :=
  match item.content with
  | [] => .str (recordText item)
  | [part] =>
    if part.modality = .text then
      .str (if part.raw = "" ∧ item.invokeReturn.isSome then recordText item else part.raw)
    else .arr (inputContent [part])
  | parts => .arr (inputContent parts)

/-- One result of `emit_tool_results`. -/
def resultJson (item : MessageItem) (index count : Nat) (invokes : Option (List InvokeQuery)) :
    Json :=
  match item.invokeReturn.bind fun record =>
      capturedItem record.extras "function_call_output" with
  | some captured => captured
  | none =>
    let callId := resultCallId item index count invokes
    let out := Json.object [("type", .str "function_call_output")]
    let out := if callId = "" then out else out.set "call_id" (.str callId)
    out.set "output" (resultOutput item)

/-- `emit_tool_results`. -/
def emitToolResults (results : List MessageItem) (invokes : Option (List InvokeQuery)) :
    List Json :=
  results.zipIdx.map fun entry => resultJson entry.1 entry.2 results.length invokes

/-- `emit_message_item`. -/
def emitMessageItem (item : MessageItem) : Json :=
  Json.object [("type", .str "message"), ("role", .str (derivedRole item)),
    ("content", .arr (inputContent item.content))]

/-! ## The request -/

def userItems (item : MessageItem) : List Json :=
  if item.type = .invokeReturn then emitToolResults [item] none else [emitMessageItem item]

def responseItems (response : MessageItem) : Except String (List Json) := do
  let message ← emitAssistantMessage response
  return (response.reasoning.map emitReasoning).getD [] ++ message

def stepItems (dump : Json → String) (step : AgentLoopStep) : Except String (List Json) := do
  let response ← responseItems step.modelResponse
  return response ++ emitInvokes dump (step.modelResponse.invokes.getD []) ++
    emitToolResults (step.invokeReturns.getD []) step.modelResponse.invokes

def stepsItems (dump : Json → String) : List AgentLoopStep → Except String (List Json)
  | [] => .ok []
  | step :: rest => do
    let items ← stepItems dump step
    let more ← stepsItems dump rest
    return items ++ more

def inputItems (dump : Json → String) : List UserLoopStep → Except String (List Json)
  | [] => .ok []
  | turn :: rest => do
    let items ← stepsItems dump turn.agentLoopStep
    let more ← inputItems dump rest
    return userItems turn.userInput ++ items ++ more

def toolDefinition (tool : Invocable) : Json :=
  let definition := Json.object [("type", .str "function"), ("name", .str tool.name),
    ("parameters", tool.argumentSchema)]
  if tool.description = "" then definition
  else definition.set "description" (.str tool.description)

def requireModel (generation : Json) : Except String Unit :=
  match generation.find? "model" with
  | some (.str model) => if model = "" then .error "generation carries no non-empty \"model\""
      else .ok ()
  | _ => .error "generation carries no non-empty \"model\""

def storeDefaults (body : Json) : Json :=
  let wanted : Json := .str "reasoning.encrypted_content"
  let (stored, body) := match body.find? "store" with
    | some (.bool stored) => (stored, body)
    | _ => (false, body.set "store" (.bool false))
  if stored then body
  else match body.find? "include" with
    | none => body.set "include" (.arr [wanted])
    | some (.arr items) =>
      if wanted ∈ items then body else body.set "include" (.arr (items ++ [wanted]))
    | some _ => body

/-- `build_request`, up to the dialect's transformation of the body. -/
def buildRequest (dump : Json → String) (conversation : AgentInputState) (generation : Json) :
    Except String Json := do
  requireModel generation
  requireSupportedConversation conversation
  let prompt ← (conversation.systemPrompt.render).mapError fun e =>
    (SimplexAgent.Loop.renderFailure e).what
  let body := if prompt.markdown = "" then generation
    else generation.set "instructions" (.str prompt.markdown)
  let input ← inputItems dump conversation.turns
  let body := body.set "input" (.arr input)
  let body := if conversation.tools = [] then body
    else body.set "tools" (.arr (conversation.tools.map toolDefinition))
  return storeDefaults (body.set "stream" (.bool true))

end Responses

end SimplexAgent.Llm
