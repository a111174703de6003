import SimplexAgent.Llm.ResponsesReader

/-!
# Reading a streamed chat completion

The Chat Completions layer from `llm/compat/chat_completions`: the stream handler
turns every framed message into one delta, the reader appends the fragments of
the deltas field by field and call by call, and the terminal delta assembles them.

Unlike the Responses layer, nothing names a call but its index. Fragments of ids,
names and arguments are appended under that index, so identities are complete
only at the end; a stream that declares success is checked there, before
anything is published.

The dialect and the JSON parser are parameters. A message is its list of named
lines, as text.
-/

namespace SimplexAgent.Llm.Chat

open Dataclass
open Llm.Responses (findObject getString getIndex getUInt64)

/-! ## Decoding -/

structure ToolCallDelta where
  index : Nat := 0
  id : String := ""
  type : String := ""
  name : String := ""
  arguments : String := ""

/-- One decoded frame; `protocolError` is the text of an exception to rethrow. -/
structure ChatCompletionsDelta where
  choiceIndex : Nat := 0
  role : String := ""
  content : String := ""
  reasoning : String := ""
  refusal : String := ""
  toolCalls : List ToolCallDelta := []
  finishReason : String := ""
  usage : Option Json := none
  mappedCost : Bool := false
  cost : Option TokenCost := none
  extras : Option Json := none
  done : Bool := false
  error : Bool := false
  protocolError : Option String := none
  ignored : Bool := false

/-- `is_terminal`. -/
def isTerminal (delta : ChatCompletionsDelta) : Bool := delta.done || delta.error

/-- Provider spelling around the protocol; an error is the exception's text. -/
structure ChatCompletionsDialect where
  replayAssistantReasoning : Bool := false
  nativeRequest : Bool := false
  strictChunkTransform : Bool := false
  mapsRawUsage : Bool := false
  extractCost : Json → Option TokenCost := fun _ => none
  normalizeChunk : Json → Except String Json := .ok

/-- `ignored`. -/
def ignored (extras : Option Json) : ChatCompletionsDelta where
  ignored := true
  extras := extras.filter fun j => !j.isNull

def messageData (message : List (String × String)) : Option String :=
  message.foldl (fun data line =>
    if line.1 ≠ "data" then data
    else match data with
      | some text => some (text ++ "\n" ++ line.2)
      | none => some line.2) none

/-- The fragment of one entry of `tool_calls`. -/
def toolCallDelta (wireCall : Json) : ToolCallDelta where
  index := (getIndex wireCall "index").getD 0
  id := getString wireCall "id"
  type := getString wireCall "type"
  name := ((findObject wireCall "function").map fun f => getString f "name").getD ""
  arguments := ((findObject wireCall "function").map fun f => getString f "arguments").getD ""

def toolCallDeltas (delta : Json) : List ToolCallDelta :=
  match delta.find? "tool_calls" with
  | some (.arr calls) => (calls.filter fun call => decide call.IsObject).map toolCallDelta
  | _ => []

def readChoice (result : ChatCompletionsDelta) (choice : Json) : ChatCompletionsDelta :=
  let result :=
    { result with
      choiceIndex := (getIndex choice "index").getD 0
      finishReason := getString choice "finish_reason" }
  match findObject choice "delta" with
  | none => result
  | some delta =>
    { result with
      role := getString delta "role"
      content := getString delta "content"
      reasoning := getString delta "reasoning_content"
      refusal := getString delta "refusal"
      toolCalls := toolCallDeltas delta }

def readChunk (dialect : ChatCompletionsDialect) (rawUsage : Option Json)
    (mappedCost : Option TokenCost) (chunk : Json) : ChatCompletionsDelta :=
  if ¬chunk.IsObject then ignored (some chunk)
  else if (findObject chunk "error").isSome then { extras := some chunk, error := true }
  else
    let result : ChatCompletionsDelta :=
      if dialect.mapsRawUsage then
        { extras := some chunk, usage := rawUsage, mappedCost := true, cost := mappedCost }
      else { extras := some chunk, usage := findObject chunk "usage" }
    match chunk.find? "choices" with
    | some (.arr (first :: rest)) =>
      match (first :: rest).find? fun choice => (getIndex choice "index").getD 0 == 0 with
      | some (.obj fields) => readChoice result (.obj fields)
      | _ => { result with ignored := true }
    | _ => { result with ignored := result.usage.isNone }

/-- `_handle_message`. -/
def handleMessage (parse : String → Option Json) (dialect : ChatCompletionsDialect)
    (message : List (String × String)) : ChatCompletionsDelta :=
  match messageData message with
  | none => ignored none
  | some data =>
    if data = "[DONE]" then { done := true }
    else match parse data with
      | none => ignored (some (.str data))
      | some chunk =>
        let rawUsage := if dialect.mapsRawUsage then findObject chunk "usage" else none
        match dialect.normalizeChunk chunk with
        | .ok normalized =>
          readChunk dialect rawUsage (rawUsage.bind dialect.extractCost) normalized
        | .error what =>
          if dialect.strictChunkTransform then { protocolError := some what }
          else ignored (some chunk)

/-! ## Accumulation -/

/-- What the fragments of one call have added up to. -/
@[ext]
structure ToolCallState where
  id : String := ""
  type : String := ""
  name : String := ""
  arguments : String := ""
  deriving DecidableEq

inductive ChatCompletionStatus where
  | streaming
  | completed
  | lengthLimited
  | contentFiltered
  | failed
  | aborted
  deriving DecidableEq

abbrev ToolCalls := Std.ExtTreeMap Nat ToolCallState

/-- The fields the deltas are folded into. -/
@[ext]
structure Accumulated where
  role : String := "assistant"
  content : String := ""
  reasoning : String := ""
  refusal : String := ""
  toolCalls : ToolCalls := ∅
  finishReason : String := ""
  completionId : String := ""
  model : String := ""
  usage : Option Json := none
  mappedCost : Bool := false
  cost : Option TokenCost := none
  error : Option Json := none

structure ChatCompletionsReader extends Accumulated where
  response : MessageItem := {}
  status : ChatCompletionStatus := .streaming
  done : Bool := false
  /-- The exception that left `next`, by its text. -/
  fault : Option String := none

/-- Assign a field, unless the new text is empty. -/
def overwrite (old text : String) : String := if text = "" then old else text

/-- `_tool_calls[index]`, and what the fragment does with it. -/
def appendCall (calls : ToolCalls) (fragment : ToolCallDelta) : ToolCalls :=
  calls.alter fragment.index fun old =>
    let call := old.getD {}
    some
      { id := call.id ++ fragment.id
        type := overwrite call.type fragment.type
        name := call.name ++ fragment.name
        arguments := call.arguments ++ fragment.arguments }

namespace Accumulated

/-- The usage block and its cost are replaced together. -/
def readUsage (acc : Accumulated) (delta : ChatCompletionsDelta) : Accumulated :=
  match delta.usage with
  | none => acc
  | some usage =>
    { acc with usage := some usage, mappedCost := delta.mappedCost, cost := delta.cost }

/-- The identifiers and the error record of the chunk itself. -/
def readExtras (acc : Accumulated) (extras : Option Json) : Accumulated :=
  match extras with
  | some (.obj fields) =>
    { acc with
      completionId := overwrite acc.completionId (getString (.obj fields) "id")
      model := overwrite acc.model (getString (.obj fields) "model")
      error := (findObject (.obj fields) "error").or acc.error }
  | _ => acc

/-- The fields of `_accumulate`. -/
def fold (acc : Accumulated) (delta : ChatCompletionsDelta) : Accumulated :=
  let acc :=
    { acc with
      role := overwrite acc.role delta.role
      content := acc.content ++ delta.content
      reasoning := acc.reasoning ++ delta.reasoning
      refusal := acc.refusal ++ delta.refusal
      finishReason := overwrite acc.finishReason delta.finishReason }
  let acc := acc.readUsage delta
  let acc := { acc with toolCalls := delta.toolCalls.foldl appendCall acc.toolCalls }
  acc.readExtras delta.extras

/-- The status that `[DONE]` gives, by the finish reason. -/
def doneStatus (acc : Accumulated) : ChatCompletionStatus :=
  if acc.finishReason = "length" then .lengthLimited
  else if acc.finishReason = "content_filter" then .contentFiltered
  else if acc.finishReason = "stop" ∨ acc.finishReason = "tool_calls" ∨
      acc.finishReason = "function_call" then .completed
  else .failed

end Accumulated

/-! ## Assembly -/

/-- The identity checks of `_assemble`, with the ids received so far. -/
def checkIdentities (received : List (String × Nat)) :
    List (Nat × ToolCallState) → Except String Unit
  | [] => .ok ()
  | (index, call) :: rest =>
    if call.id = "" ∨ call.name = "" then
      .error ("Chat Completions tool-call assembly failed: received index " ++
        toString index ++ " has an empty " ++ if call.id = "" then "id" else "name")
    else match received.lookup call.id with
      | some first =>
        .error ("Chat Completions tool-call assembly failed: duplicate id at received " ++
          "indices " ++ toString first ++ " and " ++ toString index)
      | none => checkIdentities ((call.id, index) :: received) rest

def visibleContent (acc : Accumulated) : Content :=
  if acc.refusal = "" then { raw := acc.content }
  else
    { raw := if acc.content = "" then acc.refusal else acc.content
      extras := some (Json.object [("refusal", .str acc.refusal)]) }

def indexJson (index : Nat) : Json := Json.uint (UInt64.ofNat index)

def queryOf (parse : String → Option Json) (index : Nat) (call : ToolCallState) :
    InvokeQuery where
  id := call.id
  name := call.name
  arguments := if call.arguments = "" then .obj []
    else (parse call.arguments).getD (.str call.arguments)
  extras := some (Json.object
    [("index", indexJson index), ("type", .str (if call.type = "" then "function" else call.type))])

def tokenCost (usage : Json) : Option TokenCost :=
  match getUInt64 usage "prompt_tokens", getUInt64 usage "completion_tokens" with
  | some prompt, some generated =>
    some
      { prompt := prompt
        generated := generated
        cacheHit := ((findObject usage "prompt_tokens_details").bind fun details =>
          getUInt64 details "cached_tokens").getD 0 }
  | _, _ => none

def setText (j : Json) (key text : String) : Json :=
  if text = "" then j else j.set key (.str text)

def responseExtras (acc : Accumulated) : Option Json :=
  let extras := Json.object []
  let extras := setText extras "completion_id" acc.completionId
  let extras := setText extras "model" acc.model
  let extras := setText extras "finish_reason" acc.finishReason
  let extras := extras.setOptional "usage" acc.usage
  let extras := extras.setOptional "error" acc.error
  if extras = .obj [] then none else some extras

/-- The message `_assemble` publishes. -/
def assembleMessage (parse : String → Option Json) (acc : Accumulated) : MessageItem where
  type := .modelResponse
  role := if acc.role = "" then "assistant" else acc.role
  content := [visibleContent acc]
  reasoning := if acc.reasoning = "" then none else some { raw := acc.reasoning }
  invokes := if acc.toolCalls.isEmpty then none
    else some (acc.toolCalls.toList.map fun entry => queryOf parse entry.1 entry.2)
  cost := if acc.mappedCost then acc.cost else acc.usage.bind tokenCost
  extras := responseExtras acc

namespace ChatCompletionsReader

/-- `_accumulate`: an exception of the dialect is rethrown here. -/
def accumulate (reader : ChatCompletionsReader) (delta : ChatCompletionsDelta) :
    ChatCompletionsReader :=
  match delta.protocolError with
  | some what => { reader with status := .failed, done := true, fault := some what }
  | none =>
    let acc := reader.toAccumulated.fold delta
    { reader with
      toAccumulated := acc
      status := if delta.error then .failed else if delta.done then acc.doneStatus
        else reader.status }

/-- `_assemble`: a stream that declares success is checked before it is published. -/
def assemble (parse : String → Option Json) (reader : ChatCompletionsReader) :
    ChatCompletionsReader :=
  match if reader.status = .completed then checkIdentities [] reader.toolCalls.toList
      else .ok () with
  | .error what => { reader with status := .failed, done := true, fault := some what }
  | .ok _ =>
    { reader with response := assembleMessage parse reader.toAccumulated, done := true }

/-- `next`: fold the delta, and assemble on the terminal one. -/
def next (parse : String → Option Json) (reader : ChatCompletionsReader)
    (delta : ChatCompletionsDelta) : ChatCompletionsReader :=
  if reader.done then reader
  else
    let reader := reader.accumulate delta
    if reader.done then reader
    else if isTerminal delta then reader.assemble parse
    else reader

/-- The deltas of a stream until the channel closes. -/
def drain (parse : String → Option Json) (deltas : List ChatCompletionsDelta) :
    ChatCompletionsReader :=
  { deltas.foldl (next parse) {} with done := true }

/-- `consume`: the whole stream. -/
def consume (parse : String → Option Json) (dialect : ChatCompletionsDialect)
    (messages : List (List (String × String))) : ChatCompletionsReader :=
  drain parse (messages.map (handleMessage parse dialect))

/-- `status()`: a stream that ended without a terminal event is aborted. -/
def finalStatus (reader : ChatCompletionsReader) : ChatCompletionStatus :=
  if reader.status = .streaming ∧ reader.done then .aborted else reader.status

end ChatCompletionsReader

end SimplexAgent.Llm.Chat
