import SimplexAgent.Dataclass.ModelIo

/-!
# Reading a streamed response

The Responses-API layer from `llm/compat/responses`: the decoder turns every wire
event into one delta, the reader folds the deltas into one slot per output item,
and the terminal event assembles the slots into the model's message.

Events name the item they belong to by its id, by its output index, or by both.
Slots are keyed by the id; an event without one opens a slot keyed by the index,
which the first event with both folds into the slot of the id.

Events are JSON objects as the provider's dialect leaves them, with the type that
the frame gave them. Indices are natural numbers. The parser of call arguments is a
parameter.
-/

namespace SimplexAgent.Llm.Responses

open Dataclass

/-! ## Field access -/

/-- `find_object`. -/
def findObject (j : Json) (key : String) : Option Json :=
  match j.find? key with
  | some (.obj fields) => some (.obj fields)
  | _ => none

/-- `get_string`: empty when absent or something else. -/
def getString (j : Json) (key : String) : String :=
  match j.find? key with
  | some (.str s) => s
  | _ => ""

/-- `get_index`: unsigned numbers only. -/
def getIndex (j : Json) (key : String) : Option Nat :=
  match j.find? key with
  | some (.integer n) => if 0 ≤ n.value then some n.value.toNat else none
  | _ => none

/-- `get_uint64`. -/
def getUInt64 (j : Json) (key : String) : Option UInt64 :=
  (getIndex j key).map UInt64.ofNat

/-- `summary_part_index`. -/
def summaryPartIndex (event : Json) : Nat :=
  match getIndex event "content_index" with
  | some index => index
  | none => (getIndex event "summary_index").getD 0

/-! ## Decoding -/

inductive DeltaKind where
  | text
  | reasoningText
  | reasoningSummary
  | toolCallArgs
  | refusal
  | marker
  | ignored
  deriving DecidableEq

structure ResponsesDelta where
  kind : DeltaKind := .marker
  itemId : String := ""
  text : String := ""
  outputIndex : Option Nat := none
  contentIndex : Option Nat := none
  extras : Option Json := none

/-- `text_delta`. -/
def textDelta (kind : DeltaKind) (event : Json) : ResponsesDelta where
  kind := kind
  itemId := getString event "item_id"
  text := getString event "delta"
  outputIndex := getIndex event "output_index"
  contentIndex := getIndex event "content_index"

/-- `marker`. -/
def marker (event : Json) : ResponsesDelta where
  kind := .marker
  text := getString event "type"
  extras := some event

/-- `ignored`. -/
def ignored (what : String) (event : Json) : ResponsesDelta where
  kind := .ignored
  text := what
  extras := some event

def isReadPart (type : String) : Bool :=
  type = "" ∨ type = "output_text" ∨ type = "refusal" ∨ type = "reasoning_text"

def markerTypes : List String :=
  ["response.output_text.done", "response.refusal.done", "response.reasoning_text.done",
   "response.reasoning_summary_text.done", "response.function_call_arguments.done",
   "response.output_item.added", "response.output_item.done",
   "response.queued", "response.created", "response.in_progress", "response.completed",
   "response.incomplete", "response.failed", "response.cancelled", "error",
   "response.reasoning_summary_part.added", "response.reasoning_summary_part.done"]

def incrementKind (type : String) : Option DeltaKind :=
  if type = "response.output_text.delta" then some .text
  else if type = "response.refusal.delta" then some .refusal
  else if type = "response.reasoning_text.delta" then some .reasoningText
  else if type = "response.reasoning_summary_text.delta" then some .reasoningSummary
  else if type = "response.function_call_arguments.delta" then some .toolCallArgs
  else none

/-- `kIgnoredEventTypes`. -/
def ignoredEventTypes : List String :=
  ["response.file_search_call.in_progress", "response.file_search_call.searching",
   "response.file_search_call.completed",
   "response.web_search_call.in_progress", "response.web_search_call.searching",
   "response.web_search_call.completed",
   "response.image_generation_call.in_progress", "response.image_generation_call.generating",
   "response.image_generation_call.partial_image", "response.image_generation_call.completed",
   "response.mcp_call_arguments.delta", "response.mcp_call_arguments.done",
   "response.mcp_call.in_progress", "response.mcp_call.completed", "response.mcp_call.failed",
   "response.mcp_list_tools.in_progress", "response.mcp_list_tools.completed",
   "response.mcp_list_tools.failed",
   "response.code_interpreter_call.in_progress", "response.code_interpreter_call.interpreting",
   "response.code_interpreter_call.completed", "response.code_interpreter_call_code.delta",
   "response.code_interpreter_call_code.done", "response.output_text.annotation.added",
   "response.custom_tool_call_input.delta", "response.custom_tool_call_input.done",
   "response.audio.delta", "response.audio.done", "response.audio.transcript.delta",
   "response.audio.transcript.done", "response.shell_call_command.added",
   "response.shell_call_command.delta", "response.shell_call_command.done",
   "response.shell_call_output_content.delta", "response.shell_call_output_content.done"]

/-- `_handle_message` on the JSON of a frame. -/
def decode (event : Json) : ResponsesDelta :=
  let type := getString event "type"
  if type = "" then ignored "missing-type" event
  else
    match incrementKind type with
    | some .reasoningSummary =>
      let delta := textDelta .reasoningSummary event
      { delta with contentIndex := some (delta.contentIndex.getD (summaryPartIndex event)) }
    | some kind => textDelta kind event
    | none =>
      if type ∈ markerTypes then marker event
      else if type = "response.content_part.added" ∨ type = "response.content_part.done" then
        if isReadPart (((findObject event "part").map fun part =>
            getString part "type").getD "") then marker event
        else ignored type event
      else if type ∈ ignoredEventTypes then ignored type event
      else ignored ("unknown:" ++ type) event

/-- `is_terminal`. -/
def isTerminal (delta : ResponsesDelta) : Bool :=
  delta.kind = .marker ∧ delta.text ∈
    ["response.completed", "response.incomplete", "response.failed", "response.cancelled",
     "cancelled", "error"]

/-! ## Slots -/

abbrev Parts := Std.ExtTreeMap Nat String

namespace Parts

/-- `parts[index] += text`. -/
def append (parts : Parts) (index : Nat) (text : String) : Parts :=
  parts.alter index fun old => some (old.getD "" ++ text)

/-- Assign a part, unless the new text is empty. -/
def overwrite (parts : Parts) (index : Nat) (text : String) : Parts :=
  if text = "" then parts else parts.insert index text

/-- `join_content_parts`. -/
def joinContent (parts : Parts) : String :=
  parts.toList.foldl (fun joined part => joined ++ part.2) ""

/-- `join_summary_parts`: paragraphs, without the empty ones. -/
def joinSummary (parts : Parts) : String :=
  parts.toList.foldl (fun joined part =>
    if part.2 = "" then joined
    else if joined = "" then joined ++ part.2
    else joined ++ "\n\n" ++ part.2) ""

end Parts

/-- What a slot has accumulated. -/
structure ItemContent where
  type : String := ""
  textParts : Parts := ∅
  refusalParts : Parts := ∅
  summaryParts : Parts := ∅
  callId : String := ""
  name : String := ""
  arguments : String := ""
  /-- The item of `output_item.done`, an object when there is one. -/
  doneItem : Option Json := none

/-- `ItemState`; a slot without a stamp has not been touched. -/
structure ItemState extends ItemContent where
  outputIndex : Nat := 0
  arrival : Option Nat := none

inductive ResponseStatus where
  | streaming
  | completed
  | incomplete
  | failed
  | errored
  | cancelled
  | aborted
  deriving DecidableEq

structure ItemSlots where
  items : Std.ExtTreeMap String ItemState := ∅
  nextArrival : Nat := 0

structure ResponseFields where
  status : ResponseStatus := .streaming
  responseId : String := ""
  usage : Option Json := none
  terminalDetails : Option Json := none

structure ResponsesReader extends ItemSlots, ResponseFields where
  response : MessageItem := {}
  done : Bool := false

def outputKey (index : Nat) : String := "@output:" ++ toString index

/-- The key `_item` looks up. -/
def itemKey (id : String) (outputIndex : Option Nat) : String :=
  if id ≠ "" then id
  else match outputIndex with
    | some index => outputKey index
    | none => "@orphan"

/-- `slot_parts[index] += text` for every part of an orphan. -/
def Parts.adopt (slot orphan : Parts) : Parts :=
  orphan.toList.foldl (fun parts part => parts.append part.1 part.2) slot

/-- The contents of `_adopt_orphan`: increments are appended, only empty scalars are
filled, and an item the orphan recorded is left behind. -/
def adoptContent (slot orphan : ItemContent) : ItemContent :=
  { slot with
    textParts := slot.textParts.adopt orphan.textParts
    refusalParts := slot.refusalParts.adopt orphan.refusalParts
    summaryParts := slot.summaryParts.adopt orphan.summaryParts
    arguments := slot.arguments ++ orphan.arguments
    type := if slot.type = "" then orphan.type else slot.type
    callId := if slot.callId = "" then orphan.callId else slot.callId
    name := if slot.name = "" then orphan.name else slot.name }

/-- `_adopt_orphan`. -/
def adoptOrphan (slot orphan : ItemState) : ItemState :=
  { slot with
    toItemContent := adoptContent slot.toItemContent orphan.toItemContent
    arrival := if slot.arrival.isNone then orphan.arrival else slot.arrival }

namespace ItemSlots

def store (slots : ItemSlots) (key : String) (slot : ItemState) : ItemSlots :=
  match slot.arrival with
  | some _ => { slots with items := slots.items.insert key slot }
  | none =>
    { items := slots.items.insert key { slot with arrival := some slots.nextArrival }
      nextArrival := slots.nextArrival + 1 }

def orphanOf (slots : ItemSlots) (id : String) (outputIndex : Option Nat) :
    Option (String × ItemState) :=
  match outputIndex with
  | none => none
  | some index =>
    if id = "" ∨ itemKey id outputIndex = outputKey index then none
    else slots.items[outputKey index]?.map fun orphan => (outputKey index, orphan)

/-- `_item`, and what the caller then does with the slot. -/
def item (slots : ItemSlots) (id : String) (outputIndex : Option Nat)
    (use : ItemContent → ItemContent) : ItemSlots :=
  let key := itemKey id outputIndex
  let slot := slots.items[key]?.getD {}
  match slots.orphanOf id outputIndex with
  | some (orphanKey, orphan) =>
    let slot := adoptOrphan slot orphan
    store { slots with items := slots.items.erase orphanKey } key
      { slot with toItemContent := use slot.toItemContent }
  | none =>
    let slot := match outputIndex with
      | some index => { slot with outputIndex := index }
      | none => slot
    slots.store key { slot with toItemContent := use slot.toItemContent }

/-- By output index, then by arrival. -/
def Before (a b : ItemState) : Prop :=
  a.outputIndex < b.outputIndex ∨
    (a.outputIndex = b.outputIndex ∧ a.arrival.getD 0 ≤ b.arrival.getD 0)

instance : DecidableRel Before := fun a b =>
  inferInstanceAs (Decidable (a.outputIndex < b.outputIndex ∨
    (a.outputIndex = b.outputIndex ∧ a.arrival.getD 0 ≤ b.arrival.getD 0)))

def ordered (slots : ItemSlots) : List ItemState :=
  (slots.items.toList.map Prod.snd).insertionSort Before

end ItemSlots

/-! ## Accumulation -/

def readMessagePart (content : ItemContent) (index : Nat) (part : Json) : ItemContent :=
  if getString part "type" = "output_text" then
    { content with textParts := content.textParts.overwrite index (getString part "text") }
  else if getString part "type" = "refusal" then
    { content with
      refusalParts := content.refusalParts.overwrite index (getString part "refusal") }
  else content

def foldArray (j : Json) (key : String) (read : ItemContent → Nat → Json → ItemContent)
    (content : ItemContent) : ItemContent :=
  match j.find? key with
  | some (.arr items) =>
    items.zipIdx.foldl (fun content entry => read content entry.2 entry.1) content
  | _ => content

/-- Assign a scalar, unless the new text is empty. -/
def overwriteText (old text : String) : String := if text = "" then old else text

/-- What `_accumulate_output_item` does with the slot of an item. -/
def readOutputItem (itemJson : Json) (authoritative : Bool) (content : ItemContent) :
    ItemContent :=
  let type := getString itemJson "type"
  let content := { content with type := overwriteText content.type type }
  let content :=
    if type = "message" then foldArray itemJson "content" readMessagePart content
    else if type = "reasoning" then
      let content := foldArray itemJson "summary" (fun content index part =>
        { content with
          summaryParts := content.summaryParts.overwrite index (getString part "text") }) content
      foldArray itemJson "content" (fun content index part =>
        { content with
          textParts := content.textParts.overwrite index (getString part "text") }) content
    else if type = "function_call" then
      { content with
        callId := overwriteText content.callId (getString itemJson "call_id")
        name := overwriteText content.name (getString itemJson "name")
        arguments := overwriteText content.arguments (getString itemJson "arguments") }
    else content
  if authoritative then { content with doneItem := some itemJson } else content

/-- The `*.done` overwrites of `_accumulate_marker`. -/
def doneOverwrite (event : Json) : Option (ItemContent → ItemContent) :=
  let type := getString event "type"
  if type = "response.output_text.done" ∨ type = "response.reasoning_text.done" then
    some fun content =>
      { content with
        textParts := content.textParts.overwrite
          ((getIndex event "content_index").getD 0) (getString event "text") }
  else if type = "response.refusal.done" then
    some fun content =>
      { content with
        refusalParts := content.refusalParts.overwrite
          ((getIndex event "content_index").getD 0) (getString event "refusal") }
  else if type = "response.reasoning_summary_text.done" then
    some fun content =>
      { content with
        summaryParts := content.summaryParts.overwrite
          (summaryPartIndex event) (getString event "text") }
  else if type = "response.function_call_arguments.done" then
    some fun content =>
      { content with
        arguments := overwriteText content.arguments (getString event "arguments")
        name := overwriteText content.name (getString event "name") }
  else if type = "response.reasoning_summary_part.done" then
    some fun content =>
      match findObject event "part" with
      | some part =>
        { content with
          summaryParts := content.summaryParts.overwrite
            (summaryPartIndex event) (getString part "text") }
      | none => content
  else none

def itemTypes : List String := ["response.output_item.added", "response.output_item.done"]

def lifecycleTypes : List String :=
  ["response.queued", "response.created", "response.in_progress", "response.completed",
   "response.incomplete", "response.failed", "response.cancelled", "error"]

namespace ItemSlots

/-- `_accumulate_output_item`. -/
def accumulateOutputItem (slots : ItemSlots) (itemJson : Json) (outputIndex : Option Nat)
    (authoritative : Bool) : ItemSlots :=
  if itemJson.IsObject then
    slots.item (getString itemJson "id") outputIndex (readOutputItem itemJson authoritative)
  else slots

/-- The `output` array of the response of a lifecycle event. -/
def readOutput (slots : ItemSlots) (event : Json) : ItemSlots :=
  match (findObject event "response").bind fun response => response.find? "output" with
  | some (.arr items) =>
    items.zipIdx.foldl (fun slots entry =>
      slots.accumulateOutputItem entry.1 (some entry.2) true) slots
  | _ => slots

end ItemSlots

namespace ResponseFields

/-- `_set_terminal_status`. -/
def setTerminalStatus (fields : ResponseFields) (type : String) : ResponseFields :=
  if type = "response.completed" then { fields with status := .completed }
  else if type = "response.incomplete" then { fields with status := .incomplete }
  else if type = "response.failed" then { fields with status := .failed }
  else if type = "response.cancelled" ∨ type = "cancelled" then
    { fields with status := .cancelled }
  else if type = "error" then { fields with status := .errored }
  else fields

def readStatus (fields : ResponseFields) (status : String) : ResponseFields :=
  if status = "completed" then { fields with status := .completed }
  else if status = "incomplete" then { fields with status := .incomplete }
  else if status = "failed" then { fields with status := .failed }
  else if status = "cancelled" then { fields with status := .cancelled }
  else fields

/-- What the `response` object of a lifecycle event carries besides its output. -/
def readResponse (fields : ResponseFields) (response : Json) : ResponseFields :=
  { fields with
    responseId := overwriteText fields.responseId (getString response "id")
    usage := (findObject response "usage").or fields.usage
    terminalDetails := (findObject response "error").or
      ((findObject response "incomplete_details").or fields.terminalDetails) }.readStatus
    (getString response "status")

/-- The lifecycle branch of `_accumulate_marker`, without the output. -/
def readLifecycle (fields : ResponseFields) (event : Json) (type : String) : ResponseFields :=
  let fields := match findObject event "response" with
    | some response => fields.readResponse response
    | none => fields
  let fields := if type = "error" then { fields with terminalDetails := some event } else fields
  if fields.status = .streaming then fields.setTerminalStatus type else fields

end ResponseFields

namespace ResponsesReader

/-- `_accumulate_marker`. -/
def accumulateMarker (reader : ResponsesReader) (event : Json) : ResponsesReader :=
  let type := getString event "type"
  match doneOverwrite event with
  | some overwrite =>
    { reader with
      toItemSlots := reader.toItemSlots.item (getString event "item_id")
        (getIndex event "output_index") overwrite }
  | none =>
    if type ∈ itemTypes then
      match findObject event "item" with
      | some itemJson =>
        { reader with
          toItemSlots := reader.toItemSlots.accumulateOutputItem itemJson
            (getIndex event "output_index") (type = "response.output_item.done") }
      | none => reader
    else if type ∈ lifecycleTypes then
      { reader with
        toItemSlots := reader.toItemSlots.readOutput event
        toResponseFields := reader.toResponseFields.readLifecycle event type }
    else reader

def appendIncrement (delta : ResponsesDelta) (content : ItemContent) : ItemContent :=
  let index := delta.contentIndex.getD 0
  match delta.kind with
  | .text | .reasoningText =>
    { content with textParts := content.textParts.append index delta.text }
  | .refusal => { content with refusalParts := content.refusalParts.append index delta.text }
  | .toolCallArgs => { content with arguments := content.arguments ++ delta.text }
  | .reasoningSummary =>
    { content with summaryParts := content.summaryParts.append index delta.text }
  | .marker | .ignored => content

/-- `_accumulate`. -/
def accumulate (reader : ResponsesReader) (delta : ResponsesDelta) : ResponsesReader :=
  match delta.kind with
  | .text | .reasoningText | .refusal | .toolCallArgs | .reasoningSummary =>
    { reader with
      toItemSlots :=
        reader.toItemSlots.item delta.itemId delta.outputIndex (appendIncrement delta) }
  | .ignored => reader
  | .marker =>
    match delta.extras with
    | some (.obj fields) => reader.accumulateMarker (.obj fields)
    | _ =>
      { reader with
        toResponseFields := reader.toResponseFields.setTerminalStatus delta.text }

/-! ## Assembly -/


/-- The channels of the message under construction. -/
structure Assembly where
  text : String := ""
  refusal : String := ""
  reasoningText : String := ""
  summary : String := ""
  reasoningItems : List Json := []
  outputItems : List Json := []
  invokes : List InvokeQuery := []

def asMessage (acc : Assembly) (item : ItemContent) : Assembly :=
  { acc with
    text := acc.text ++ item.textParts.joinContent
    refusal := acc.refusal ++ item.refusalParts.joinContent }

def asReasoning (acc : Assembly) (item : ItemContent) : Assembly :=
  { acc with
    reasoningText := acc.reasoningText ++ item.textParts.joinContent
    summary := acc.summary ++ item.summaryParts.joinSummary
    reasoningItems := acc.reasoningItems ++ item.doneItem.toList }

/-- The call of a slot; malformed arguments are kept as text. -/
def callOf (parse : String → Option Json) (item : ItemContent) : InvokeQuery :=
  { id := item.callId
    name := item.name
    arguments := if item.arguments = "" then .obj []
      else (parse item.arguments).getD (.str item.arguments)
    extras := item.doneItem }

def asCall (parse : String → Option Json) (acc : Assembly) (item : ItemContent) : Assembly :=
  { acc with invokes := acc.invokes ++ [callOf parse item] }

/-- One slot of the assembly loop; untyped slots are salvaged by what they hold. -/
def assembleItem (parse : String → Option Json) (acc : Assembly) (item : ItemContent) :
    Assembly :=
  let acc :=
    if item.type = "message" then asMessage acc item
    else if item.type = "reasoning" then asReasoning acc item
    else if item.type = "function_call" then asCall parse acc item
    else if item.type = "" then
      if item.callId ≠ "" ∨ item.name ≠ "" ∨ item.arguments ≠ "" then asCall parse acc item
      else if item.summaryParts.joinSummary ≠ "" then asReasoning acc item
      else if item.textParts.joinContent ≠ "" ∨ item.refusalParts.joinContent ≠ "" then
        asMessage acc item
      else acc
    else acc
  { acc with outputItems := acc.outputItems ++ item.doneItem.toList }

def visibleContent (acc : Assembly) : Content :=
  if acc.refusal = "" then { raw := acc.text }
  else if acc.text = "" then { raw := acc.refusal }
  else { raw := acc.text, extras := some (Json.object [("refusal", .str acc.refusal)]) }

def reasoningContent (acc : Assembly) : Option Content :=
  if acc.reasoningText ≠ "" ∨ acc.summary ≠ "" ∨ acc.reasoningItems ≠ [] then
    some { raw := if acc.reasoningText ≠ "" then acc.reasoningText else acc.summary
           extras := if acc.reasoningItems = [] then none
             else some (Json.object [("items", .arr acc.reasoningItems)]) }
  else none

def tokenCost (usage : Json) : Option TokenCost :=
  match getUInt64 usage "input_tokens", getUInt64 usage "output_tokens" with
  | some prompt, some generated =>
    some
      { prompt := prompt
        generated := generated
        cacheHit := ((findObject usage "input_tokens_details").bind fun details =>
          getUInt64 details "cached_tokens").getD 0 }
  | _, _ => none

def responseExtras (fields : ResponseFields) (acc : Assembly) : Option Json :=
  let extras := Json.object []
  let extras := if fields.responseId = "" then extras
    else extras.set "response_id" (.str fields.responseId)
  let extras := extras.setOptional "usage" fields.usage
  let extras := extras.setOptional
    (if fields.status = .incomplete then "incomplete_details" else "error")
    fields.terminalDetails
  let extras := if acc.outputItems = [] then extras
    else extras.set "output_items" (.arr acc.outputItems)
  if extras = .obj [] then none else some extras

def assembleMessage (parse : String → Option Json) (fields : ResponseFields)
    (items : List ItemContent) : MessageItem :=
  let acc := items.foldl (assembleItem parse) {}
  { type := .modelResponse
    role := "assistant"
    content := [visibleContent acc]
    reasoning := reasoningContent acc
    invokes := if acc.invokes = [] then none else some acc.invokes
    cost := fields.usage.bind tokenCost
    extras := responseExtras fields acc }

/-- `_assemble`. -/
def assemble (parse : String → Option Json) (reader : ResponsesReader) : ResponsesReader :=
  { reader with
    response := assembleMessage parse reader.toResponseFields
      (reader.ordered.map ItemState.toItemContent) }

/-! ## The stream -/

/-- `next`: fold the delta, and assemble on the terminal one. -/
def next (parse : String → Option Json) (reader : ResponsesReader) (delta : ResponsesDelta) :
    ResponsesReader :=
  if reader.done then reader
  else
    let reader := reader.accumulate delta
    if isTerminal delta then { reader.assemble parse with done := true } else reader

/-- `consume`: the whole stream. -/
def consume (parse : String → Option Json) (events : List Json) : ResponsesReader :=
  events.foldl (fun reader event => reader.next parse (decode event)) {}

end ResponsesReader

end SimplexAgent.Llm.Responses
