import SimplexAgent.Llm.ChatReader
import SimplexAgent.Llm.ResponsesInterpreter

/-!
# Building a chat request

The request half of the Chat Completions layer, from `llm/compat/chat_completions`: a
conversation becomes the `messages` list of one request. Calls travel inside the
assistant message, results are messages of their own.

Assistant messages, reasoning and tool output are one string each on this wire, so
only text is accepted there; a user message has parts for texts and images.
-/

namespace SimplexAgent.Llm.Chat

open Dataclass

/-! ## What is refused -/

/-- `text_content`. -/
def textContent (content : List Content) : String :=
  content.foldl (fun text part => text ++ part.raw) ""

/-- `require_input_part`. -/
def requireInputPart (part : Content) : Except String Unit :=
  match part.modality with
  | .audio | .video | .document =>
    .error ("chat completions cannot send a " ++ quoted part.modality.nameOf ++ " content part")
  | .image =>
    if part.type = .externalRef then .ok ()
    else .error ("chat completions sends an image as an external reference, and a " ++
      quoted part.type.nameOf ++ " image carries no media type to describe it with")
  | .text =>
    if part.type = .binary then
      .error ("chat completions cannot send a binary text part: the base64 " ++
        "encoding would be delivered as the message")
    else .ok ()

def requireText (position : String) (part : Content) : Except String Unit :=
  requireTextPosition "chat completions" part position

def requireStep (replayReasoning : Bool) (step : AgentLoopStep) : Except String Unit := do
  step.modelResponse.content.forM (requireText "an assistant message")
  (if replayReasoning then step.modelResponse.reasoning.toList else []).forM
    (requireText "assistant reasoning")
  (step.invokeReturns.getD []).forM fun item => item.content.forM (requireText "a tool result")

/-- `require_supported_conversation`: a result in a user's place is a text. -/
def requireSupportedConversation (replayReasoning : Bool) (state : AgentInputState) :
    Except String Unit :=
  state.turns.forM fun turn => do
    turn.userInput.content.forM
      (if turn.userInput.type = .invokeReturn then requireText "a tool result"
        else requireInputPart)
    turn.agentLoopStep.forM (requireStep replayReasoning)

/-! ## Messages -/

/-- The image record of a part: its extras may give the address and the detail. -/
def imageUrl (content : Content) : Json :=
  let extras := extrasObject content.extras
  let image := match extras.find? "image_url" with
    | some (.obj fields) => Json.obj fields
    | some url => Json.object [("url", url)]
    | none => Json.object []
  let image := image.setOptional "detail" (extras.find? "detail")
  if (image.find? "url").isSome then image else image.set "url" (.str content.raw)

/-- `user_content_part`. -/
def userContentPart (content : Content) : Json :=
  if content.modality = .image then
    Json.object [("type", .str "image_url"), ("image_url", imageUrl content)]
  else Json.object [("type", .str "text"), ("text", .str content.raw)]

/-- `user_content`: one text as a string. -/
def userContent : List Content → Json
  | [] => .str ""
  | [part] => if part.modality = .text then .str part.raw else .arr [userContentPart part]
  | parts => .arr (parts.map userContentPart)

/-- `derived_role`. -/
def derivedRole (item : MessageItem) : String :=
  if item.role ≠ "" then item.role
  else match item.type with
    | .modelResponse => "assistant"
    | .invokeReturn => "tool"
    | .userInput => "user"

/-- `tool_call`. -/
def toolCall (dump : Json → String) (query : InvokeQuery) : Json :=
  Json.object [("id", .str query.id), ("type", .str "function"), ("function", Json.object
    [("name", .str query.name), ("arguments", .str (wireArguments dump query.arguments))])]

def partRefusal (part : Content) : String :=
  Responses.getString (extrasObject part.extras) "refusal"

def partText (part : Content) : String :=
  if partRefusal part = "" ∨ part.raw ≠ partRefusal part then part.raw else ""

def assistantText (content : List Content) : String :=
  content.foldl (fun text part => text ++ partText part) ""

def assistantRefusal (content : List Content) : String :=
  content.foldl (fun text part => text ++ partRefusal part) ""

def replayedReasoning (replayReasoning : Bool) (response : MessageItem) : String :=
  if replayReasoning then (response.reasoning.map Content.raw).getD "" else ""

/-- `assistant_message`. -/
def assistantMessage (dump : Json → String) (replayReasoning : Bool) (response : MessageItem) :
    Json :=
  let content := assistantText response.content
  let refusal := assistantRefusal response.content
  let reasoning := replayedReasoning replayReasoning response
  let calls := response.invokes.getD []
  let message := Json.object [("role", .str "assistant")]
  let message := message.set "content"
    (if content = "" ∧ (refusal ≠ "" ∨ calls ≠ []) then .null else .str content)
  let message := if refusal = "" then message else message.set "refusal" (.str refusal)
  let message := if reasoning = "" then message
    else message.set "reasoning_content" (.str reasoning)
  if calls = [] then message else message.set "tool_calls" (.arr (calls.map (toolCall dump)))

theorem find?_set_unless {j : Json} (hObject : j.IsObject) (c : Prop) [Decidable c]
    (key key' : String) (value : Json) : (if c then j else j.set key value).IsObject ∧
      (if c then j else j.set key value).find? key' =
        if key' = key ∧ ¬c then some value else j.find? key' := by
  by_cases hc : c
  · simp [hc, hObject]
  · simp [hc, hObject, Json.find?_set hObject]

theorem find?_assistantMessage (dump : Json → String) (replayReasoning : Bool)
    (response : MessageItem) (key : String) :
    (assistantMessage dump replayReasoning response).find? key =
      if key = "tool_calls" ∧ response.invokes.getD [] ≠ [] then
        some (.arr ((response.invokes.getD []).map (toolCall dump)))
      else if key = "reasoning_content" ∧ replayedReasoning replayReasoning response ≠ "" then
        some (.str (replayedReasoning replayReasoning response))
      else if key = "refusal" ∧ assistantRefusal response.content ≠ "" then
        some (.str (assistantRefusal response.content))
      else if key = "content" then
        some (if assistantText response.content = "" ∧
            (assistantRefusal response.content ≠ "" ∨ response.invokes.getD [] ≠ []) then .null
          else .str (assistantText response.content))
      else if key = "role" then some (.str "assistant")
      else none := by
  have hRole : (Json.object [("role", .str "assistant")]).IsObject := by simp
  have hContent : ∀ value, ((Json.object [("role", .str "assistant")]).set "content"
      value).IsObject := by simp
  unfold assistantMessage
  dsimp only
  rw [(find?_set_unless (find?_set_unless (find?_set_unless (hContent _) _ "refusal" key _).1 _
      "reasoning_content" key _).1 _ "tool_calls" key _).2,
    (find?_set_unless (find?_set_unless (hContent _) _ "refusal" key _).1 _ "reasoning_content"
      key _).2,
    (find?_set_unless (hContent _) _ "refusal" key _).2, Json.find?_set hRole]
  simp

/-- The text of a result; a record with an id stands for an empty content list. -/
def toolText (item : MessageItem) : String :=
  match item.content, item.invokeReturn with
  | [], some record => if record.query.id = "" then "" else record.output.raw
  | content, _ => textContent content

/-- One result of `emit_tool_results`. -/
def toolMessage (item : MessageItem) (index count : Nat) (invokes : Option (List InvokeQuery)) :
    Json :=
  let callId := resultCallId item index count invokes
  let message := Json.object [("role", .str "tool"), ("content", .str (toolText item))]
  if callId = "" then message else message.set "tool_call_id" (.str callId)

/-- `emit_tool_results`. -/
def emitToolResults (results : List MessageItem) (invokes : Option (List InvokeQuery)) :
    List Json :=
  results.zipIdx.map fun entry => toolMessage entry.1 entry.2 results.length invokes

/-- `emit_message`. -/
def emitMessage (item : MessageItem) : List Json :=
  if item.type = .invokeReturn then emitToolResults [item] none
  else [Json.object [("role", .str (derivedRole item)), ("content", userContent item.content)]]

def stepMessages (dump : Json → String) (replayReasoning : Bool) (step : AgentLoopStep) :
    List Json :=
  assistantMessage dump replayReasoning step.modelResponse ::
    emitToolResults (step.invokeReturns.getD []) step.modelResponse.invokes

/-- The messages of a conversation after the system prompt. -/
def turnMessages (dump : Json → String) (replayReasoning : Bool) (turns : List UserLoopStep) :
    List Json :=
  turns.flatMap fun turn =>
    emitMessage turn.userInput ++ turn.agentLoopStep.flatMap (stepMessages dump replayReasoning)

/-! ## The request -/

/-- `translate_reasoning_envelope`. -/
def translateReasoningEnvelope (body : Json) : Json :=
  match body.find? "reasoning" with
  | none => body
  | some envelope =>
    let body := match envelope.find? "effort" with
      | some (.str effort) =>
        if (body.find? "reasoning_effort").isSome then body
        else body.set "reasoning_effort" (.str effort)
      | _ => body
    eraseKey body "reasoning"

def toolDefinition (tool : Invocable) : Json :=
  let function := Json.object [("name", .str tool.name), ("parameters", tool.argumentSchema)]
  let function := if tool.description = "" then function
    else function.set "description" (.str tool.description)
  Json.object [("type", .str "function"), ("function", function)]

def setDefault (body : Json) (key : String) (value : Json) : Json :=
  if (body.find? key).isSome then body else body.set key value

def streamSettings (nativeRequest : Bool) (body : Json) : Json :=
  let usage := Json.object [("include_usage", .bool true)]
  if nativeRequest then
    let body := setDefault (setDefault body "stream" (.bool true)) "n" (Json.uint 1)
    match body.find? "stream_options" with
    | none => body.set "stream_options" usage
    | some (.obj fields) =>
      body.set "stream_options" (setDefault (.obj fields) "include_usage" (.bool true))
    | some _ => body
  else
    let body := translateReasoningEnvelope
      ((body.set "stream" (.bool true)).set "n" (Json.uint 1))
    match body.find? "stream_options" with
    | some (.obj fields) =>
      body.set "stream_options" ((Json.obj fields).set "include_usage" (.bool true))
    | _ => body.set "stream_options" usage

def requestMessages (dump : Json → String) (dialect : ChatCompletionsDialect)
    (conversation : AgentInputState) : Except String (List Json) := do
  requireSupportedConversation dialect.replayAssistantReasoning conversation
  let prompt ← (conversation.systemPrompt.render).mapError fun e =>
    (SimplexAgent.Loop.renderFailure e).what
  let system := if prompt.markdown = "" then []
    else [Json.object [("role", .str "system"), ("content", .str prompt.markdown)]]
  return system ++ turnMessages dump dialect.replayAssistantReasoning conversation.turns

/-- `build_request`, up to the dialect's transformation of the body. -/
def buildRequest (dump : Json → String) (dialect : ChatCompletionsDialect)
    (conversation : AgentInputState) (generation : Json) : Except String Json := do
  Responses.requireModel generation
  let messages ← requestMessages dump dialect conversation
  let body := generation.set "messages" (.arr messages)
  let body := if conversation.tools = [] then eraseKey body "tools"
    else body.set "tools" (.arr (conversation.tools.map toolDefinition))
  return streamSettings dialect.nativeRequest body

end SimplexAgent.Llm.Chat
