import SimplexAgent.Llm.TextPositions
import SimplexAgent.Llm.ReaderCalls

/-!
# Calls and results on the wire

A provider pairs the results of a request with its calls by an identifier. A
conversation that passed the loop's checks answers every call once, in order, under
its id; the two interpreters flatten it, one item or message after another, and
this order has to survive.

The chat layer writes both identifiers from the conversation. The Responses layer
sends a recorded call, and a recorded result, as it was received: with the
identifier of the record. The pair then matches when the records do.
-/

namespace SimplexAgent.Llm

open Dataclass Loop
open Verified.Tables (bind_ok forM_ok)

/-! ## What the loop promises -/

/-- A step as the interpreters find it: its calls are identified, and answered in order. -/
structure Settled (step : AgentLoopStep) : Prop where
  answered : Answered step
  named : ∀ call ∈ stepCalls step, call.id ≠ ""

theorem validateSteps_calls {loop : Option LoopProgress} {lastTurn : Bool}
    {steps : List AgentLoopStep} (hValid : validateSteps loop lastTurn steps = .ok ()) :
    ∀ step ∈ steps, validateCalls step.modelResponse = .ok () := by
  induction steps with
  | nil => exact fun step hStep => by cases hStep
  | cons first rest ih =>
    obtain ⟨_, hFirst, hRest⟩ := bind_ok hValid
    obtain ⟨_, -, hFirst⟩ := bind_ok hFirst
    obtain ⟨_, hCalls, -⟩ := bind_ok hFirst
    intro step hStep
    rcases List.mem_cons.mp hStep with rfl | hMem
    · exact hCalls
    · exact ih hRest step hMem

theorem validateTurns_parts {loop : Option LoopProgress} {turns : List UserLoopStep}
    (hValid : validateTurns loop turns = .ok ()) :
    ∀ turn ∈ turns, turn.userInput.type = .userInput ∧
      ∀ step ∈ turn.agentLoopStep, validateCalls step.modelResponse = .ok () := by
  induction turns with
  | nil => exact fun turn hTurn => by cases hTurn
  | cons first rest ih =>
    obtain ⟨_, hUser, hSteps⟩ := bind_ok hValid
    obtain ⟨_, hFirst, hRest⟩ := bind_ok hSteps
    intro turn hTurn
    rcases List.mem_cons.mp hTurn with rfl | hMem
    · refine ⟨?_, validateSteps_calls hFirst⟩
      have hType := refuseIf_ok hUser
      simp only [not_or, not_not] at hType
      exact hType.1
    · exact ih hRest turn hMem

theorem settled_of_valid {state : AgentInputState} (hValid : validateStateStructure state = .ok ())
    (hReady : (state.loop.map LoopProgress.phase).getD .ready = .ready) :
    ∀ turn ∈ state.turns, turn.userInput.type = .userInput ∧
      ∀ step ∈ turn.agentLoopStep, Settled step := by
  intro turn hTurn
  have hParts := validateTurns_parts (validateStateStructure_turns hValid) turn hTurn
  refine ⟨hParts.1, fun step hStep => ⟨?_, ?_⟩⟩
  · exact allAnswered_of_valid hValid (by rw [hReady]; rfl) turn hTurn step hStep
  · intro call hCall
    exact ((validateCalls_ok_iff _).mp (hParts.2 step hStep)).1 call hCall |>.1

theorem Settled.ids {step : AgentLoopStep} (h : Settled step) :
    (stepReturns step).map (fun item => item.invokeReturn.map fun record => record.query.id) =
      (stepCalls step).map fun call => some call.id := by
  have hIds := congrArg (List.map (Option.map Prod.fst)) h.answered
  simpa [List.map_map, answeredKey, callKey, Function.comp_def] using hIds

theorem Settled.record {step : AgentLoopStep} (h : Settled step) {item : MessageItem}
    (hItem : item ∈ stepReturns step) :
    ∃ record, item.invokeReturn = some record ∧ record.query.id ≠ "" := by
  have hMem : item.invokeReturn.map (fun record => record.query.id) ∈
      (stepCalls step).map fun call => some call.id := by
    rw [← h.ids]
    exact List.mem_map_of_mem (f := fun item : MessageItem =>
      item.invokeReturn.map fun record => record.query.id) hItem
  obtain ⟨call, hCall, hId⟩ := List.mem_map.mp hMem
  cases hRecord : item.invokeReturn with
  | none =>
    rw [hRecord] at hId
    cases hId
  | some record =>
    rw [hRecord] at hId
    have hSame : call.id = record.query.id := Option.some.inj hId
    exact ⟨record, rfl, hSame ▸ h.named call hCall⟩

def stringField (j : Json) (key : String) : Option String :=
  match j.find? key with
  | some (.str text) => some text
  | _ => none

namespace Responses

/-! ## The Responses list -/

def isExchangeItem (item : Json) : Bool :=
  getString item "type" = "function_call" ∨ getString item "type" = "function_call_output"

def sentCallId (query : InvokeQuery) : Option String :=
  match capturedItem query.extras "function_call" with
  | some captured => stringField captured "call_id"
  | none => some query.id

def sentResultId (item : MessageItem) : Option String :=
  item.invokeReturn.bind fun record =>
    match capturedItem record.extras "function_call_output" with
    | some captured => stringField captured "call_id"
    | none => some record.query.id

/-- **A step in order**: first what is neither call nor result, then one item for each call,
then one for each result, under the identifiers of the calls. -/
def StepLaidOut (dump : Json → String) (step : AgentLoopStep) (items : List Json) : Prop :=
  ∃ before, items = before ++ emitInvokes dump (stepCalls step) ++
      emitToolResults (stepReturns step) step.modelResponse.invokes ∧
    (∀ item ∈ before, isExchangeItem item = false) ∧
    (∀ item ∈ emitInvokes dump (stepCalls step), getString item "type" = "function_call") ∧
    (∀ item ∈ emitToolResults (stepReturns step) step.modelResponse.invokes,
      getString item "type" = "function_call_output") ∧
    (emitToolResults (stepReturns step) step.modelResponse.invokes).map
        (stringField · "call_id") =
      (emitInvokes dump (stepCalls step)).map (stringField · "call_id") ∧
    ∀ item ∈ emitInvokes dump (stepCalls step), (stringField item "call_id").isSome

/-- The records of a step do not interfere: no recorded reasoning is a call or a result, and
a call and its result are sent with one id. -/
def Matched (step : AgentLoopStep) : Prop :=
  (∀ reasoning, step.modelResponse.reasoning = some reasoning →
    ∀ item ∈ reasoningItems reasoning, isExchangeItem item = false) ∧
  (stepReturns step).map sentResultId = (stepCalls step).map sentCallId ∧
  ∀ call ∈ stepCalls step, (sentCallId call).isSome

theorem type_callItem (dump : Json → String) (query : InvokeQuery) :
    getString (callItem dump query) "type" = "function_call" := by
  unfold callItem
  cases hCaptured : capturedItem query.extras "function_call" with
  | some captured => exact getString_of_find (capturedItem_some hCaptured)
  | none => simp [getString]

theorem id_callItem (dump : Json → String) (query : InvokeQuery) :
    stringField (callItem dump query) "call_id" = sentCallId query := by
  unfold callItem sentCallId
  cases capturedItem query.extras "function_call" with
  | some captured => rfl
  | none => simp [stringField]

theorem type_resultJson (item : MessageItem) (index count : Nat)
    (invokes : Option (List InvokeQuery)) :
    getString (resultJson item index count invokes) "type" = "function_call_output" := by
  unfold resultJson
  cases hCaptured : item.invokeReturn.bind fun record =>
      capturedItem record.extras "function_call_output" with
  | some captured =>
    obtain ⟨record, -, hCaptured⟩ := Option.bind_eq_some_iff.mp hCaptured
    exact getString_of_find (capturedItem_some hCaptured)
  | none =>
    have hObject : (Json.object [("type", .str "function_call_output")]).IsObject := by simp
    dsimp only
    split_ifs
    · exact getString_of_find (by rw [Json.find?_set hObject]; simp)
    · refine getString_of_find ?_
      rw [Json.find?_set (by simp), Json.find?_set hObject]
      simp

theorem id_resultJson {item : MessageItem} {record : InvokeReturn}
    (hRecord : item.invokeReturn = some record) (hId : record.query.id ≠ "") (index count : Nat)
    (invokes : Option (List InvokeQuery)) :
    stringField (resultJson item index count invokes) "call_id" = sentResultId item := by
  unfold resultJson sentResultId
  rw [hRecord]
  simp only [Option.bind_some]
  cases capturedItem record.extras "function_call_output" with
  | some captured => rfl
  | none =>
    have hSent : resultCallId item index count invokes = record.query.id := by
      simp [resultCallId, hRecord, hId]
    have hObject : (Json.object [("type", .str "function_call_output")]).IsObject := by simp
    simp only [hSent, if_neg hId, stringField]
    rw [Json.find?_set (by simp), Json.find?_set hObject]
    simp

theorem messageItems_type (items : List Json) :
    ∀ {recorded : List Json}, messageItems items = .ok recorded →
      ∀ item ∈ recorded, getString item "type" = "message" := by
  induction items with
  | nil =>
    intro recorded h
    injection h with h
    rw [← h]
    exact fun item hItem => by cases hItem
  | cons first rest ih =>
    intro recorded h
    obtain ⟨message, hMessage, h⟩ := bind_ok h
    obtain ⟨messages, hMessages, h⟩ := bind_ok h
    injection h with h
    rw [← h]
    intro item hItem
    cases message with
    | false => exact ih hMessages item (by simpa using hItem)
    | true =>
      rcases List.mem_cons.mp (by simpa using hItem) with rfl | hRest
      · unfold isMessage at hMessage
        split at hMessage
        · split at hMessage
          · cases hMessage
          · rename_i hType
            injection hMessage with hMessage
            rw [getString_of_find hType]
            simpa using hMessage
          · cases hMessage
        · cases hMessage
      · exact ih hMessages item hRest

theorem emitReasoning_types (reasoning : Content) :
    (∀ item ∈ emitReasoning reasoning, isExchangeItem item = false) ↔
      ∀ item ∈ reasoningItems reasoning, isExchangeItem item = false := by
  unfold emitReasoning
  split_ifs with hItems
  · exact Iff.rfl
  · rw [not_not.mp hItems]
    cases hCaptured : capturedItem reasoning.extras "reasoning" with
    | some captured =>
      simp [isExchangeItem, getString_of_find (capturedItem_some hCaptured)]
    | none => simp [isExchangeItem, synthesizedReasoning, getString]

theorem emitAssistantMessage_types {response : MessageItem} {items : List Json}
    (h : emitAssistantMessage response = .ok items) :
    ∀ item ∈ items, isExchangeItem item = false := by
  obtain ⟨recorded, hRecorded, h⟩ := bind_ok h
  by_cases hNone : recorded ≠ []
  · rw [if_pos hNone] at h
    injection h with h
    rw [← h]
    intro item hItem
    simp [isExchangeItem, messageItems_type _ hRecorded item hItem]
  · rw [if_neg hNone] at h
    split_ifs at h
    · injection h with h
      rw [← h]
      simp [isExchangeItem, getString]
    · injection h with h
      rw [← h]
      exact fun item hItem => by cases hItem

theorem map_emitToolResults {α : Type} (f : Json → α) (g : MessageItem → α)
    (results : List MessageItem) (invokes : Option (List InvokeQuery))
    (h : ∀ item ∈ results, ∀ index, f (resultJson item index results.length invokes) = g item) :
    (emitToolResults results invokes).map f = results.map g := by
  have hEntries : ∀ entries : List (MessageItem × Nat), (∀ entry ∈ entries, entry.1 ∈ results) →
      (entries.map fun entry => resultJson entry.1 entry.2 results.length invokes).map f =
        (entries.map Prod.fst).map g := by
    intro entries hMem
    rw [List.map_map, List.map_map]
    exact List.map_congr_left fun entry hEntry => h entry.1 (hMem entry hEntry) entry.2
  rw [emitToolResults, hEntries _ fun entry hEntry => List.fst_mem_of_mem_zipIdx hEntry,
    List.zipIdx_map_fst]

/-- **A settled step is sent in order exactly when its records match.** -/
theorem stepLaidOut_iff {dump : Json → String} {step : AgentLoopStep} {items : List Json}
    (hSettled : Settled step) (hItems : stepItems dump step = .ok items) :
    StepLaidOut dump step (stepBlock dump step) ↔ Matched step := by
  have hBlock : stepBlock dump step = items := by
    rw [stepBlock, hItems]
    rfl
  obtain ⟨response, hResponse, hItems⟩ := bind_ok hItems
  obtain ⟨message, hMessage, hResponse⟩ := bind_ok hResponse
  injection hItems with hItems
  injection hResponse with hResponse
  have hCalls : ∀ item ∈ emitInvokes dump (stepCalls step),
      getString item "type" = "function_call" := by
    intro item hItem
    obtain ⟨query, -, rfl⟩ := List.mem_map.mp hItem
    exact type_callItem dump query
  have hResults : ∀ item ∈ emitToolResults (stepReturns step) step.modelResponse.invokes,
      getString item "type" = "function_call_output" := by
    intro item hItem
    obtain ⟨entry, -, rfl⟩ := List.mem_map.mp hItem
    exact type_resultJson _ _ _ _
  have hCallIds : (emitInvokes dump (stepCalls step)).map (stringField · "call_id") =
      (stepCalls step).map sentCallId := by
    rw [emitInvokes, List.map_map]
    exact List.map_congr_left fun query _ => id_callItem dump query
  have hResultIds : (emitToolResults (stepReturns step) step.modelResponse.invokes).map
      (stringField · "call_id") = (stepReturns step).map sentResultId := by
    refine map_emitToolResults _ _ _ _ fun item hItem index => ?_
    obtain ⟨record, hRecord, hId⟩ := hSettled.record hItem
    exact id_resultJson hRecord hId _ _ _
  have hPresent : (∀ item ∈ emitInvokes dump (stepCalls step),
      (stringField item "call_id").isSome) ↔ ∀ call ∈ stepCalls step, (sentCallId call).isSome := by
    simp only [emitInvokes, List.forall_mem_map, id_callItem]
  have hBefore : (∀ item ∈ response, isExchangeItem item = false) ↔
      ∀ reasoning, step.modelResponse.reasoning = some reasoning →
        ∀ item ∈ reasoningItems reasoning, isExchangeItem item = false := by
    rw [← hResponse]
    simp only [List.forall_mem_append]
    cases step.modelResponse.reasoning with
    | none => simpa using emitAssistantMessage_types hMessage
    | some reasoning =>
      simp only [Option.map_some, Option.getD_some, emitReasoning_types, Option.some.injEq,
        forall_eq']
      exact and_iff_left (emitAssistantMessage_types hMessage)
  unfold StepLaidOut Matched
  rw [hBlock, ← hItems, hCallIds, hResultIds, hPresent, ← hBefore]
  constructor
  · rintro ⟨before, hSplit, hOther, -, -, hIds, hSome⟩
    have hSame : response = before := by
      have := List.append_cancel_right hSplit
      exact List.append_cancel_right this
    rw [hSame]
    exact ⟨hOther, hIds, hSome⟩
  · rintro ⟨hOther, hIds, hSome⟩
    exact ⟨response, rfl, hOther, hCalls, hResults, hIds, hSome⟩

theorem inputItems_blocks {dump : Json → String} {turns : List UserLoopStep} {items : List Json}
    (hUser : ∀ turn ∈ turns, turn.userInput.type = .userInput)
    (h : inputItems dump turns = .ok items) :
    items = turns.flatMap fun turn => emitMessageItem turn.userInput ::
      turn.agentLoopStep.flatMap (stepBlock dump) := by
  rw [(inputItems_ok turns h).2]
  refine List.flatMap_congr fun turn hTurn => ?_
  rw [userItems, if_neg (by rw [hUser turn hTurn]; decide)]
  rfl

end Responses

namespace Chat

/-! ## The chat list -/

def sentCalls (message : Json) : List Json :=
  match message.find? "tool_calls" with
  | some (.arr calls) => calls
  | _ => []

/-- **A step in order**: one assistant message with every call of the step, then one message
for each result, under the identifiers of the calls. -/
def StepLaidOut (dump : Json → String) (step : AgentLoopStep) (messages : List Json) : Prop :=
  ∃ message results, messages = message :: results ∧ stringField message "role" = some "assistant" ∧
    sentCalls message = (stepCalls step).map (toolCall dump) ∧
    results = emitToolResults (stepReturns step) step.modelResponse.invokes ∧
    (∀ result ∈ results, stringField result "role" = some "tool") ∧
    results.map (stringField · "tool_call_id") = (sentCalls message).map (stringField · "id") ∧
    ∀ call ∈ sentCalls message, (stringField call "id").isSome

theorem sentCalls_assistantMessage (dump : Json → String) (replayReasoning : Bool)
    (response : MessageItem) : sentCalls (assistantMessage dump replayReasoning response) =
      (response.invokes.getD []).map (toolCall dump) := by
  rw [sentCalls, find?_assistantMessage]
  by_cases hCalls : response.invokes.getD [] = []
  · simp [hCalls]
  · simp [hCalls]

theorem id_toolCall (dump : Json → String) (query : InvokeQuery) :
    stringField (toolCall dump query) "id" = some query.id := by
  simp [toolCall, stringField]

theorem toolMessage_fields {item : MessageItem} {record : InvokeReturn}
    (hRecord : item.invokeReturn = some record) (hId : record.query.id ≠ "") (index count : Nat)
    (invokes : Option (List InvokeQuery)) :
    stringField (toolMessage item index count invokes) "role" = some "tool" ∧
      stringField (toolMessage item index count invokes) "tool_call_id" =
        item.invokeReturn.map fun record => record.query.id := by
  have hSent : resultCallId item index count invokes = record.query.id := by
    simp [resultCallId, hRecord, hId]
  have hObject : (Json.object [("role", .str "tool"), ("content", .str (toolText item))]).IsObject :=
    by simp
  unfold toolMessage
  simp only [hSent, if_neg hId, stringField, Json.find?_set hObject]
  simp [hRecord]

/-- **A settled step is sent in order.** -/
theorem stepLaidOut {dump : Json → String} {step : AgentLoopStep} (hSettled : Settled step)
    (replayReasoning : Bool) : StepLaidOut dump step (stepMessages dump replayReasoning step) := by
  have hEntry : ∀ entry ∈ (stepReturns step).zipIdx,
      ∃ record, entry.1.invokeReturn = some record ∧ record.query.id ≠ "" :=
    fun entry hEntry => hSettled.record (List.fst_mem_of_mem_zipIdx hEntry)
  refine ⟨_, _, rfl, ?_, sentCalls_assistantMessage dump replayReasoning _, rfl, ?_, ?_, ?_⟩
  · simp [stringField, find?_assistantMessage]
  · intro result hResult
    obtain ⟨entry, hMem, rfl⟩ := List.mem_map.mp hResult
    obtain ⟨record, hRecord, hId⟩ := hEntry entry hMem
    exact (toolMessage_fields hRecord hId _ _ _).1
  · have hIds : (emitToolResults (stepReturns step) step.modelResponse.invokes).map
        (stringField · "tool_call_id") = (stepReturns step).map
          fun item => item.invokeReturn.map fun record => record.query.id := by
      rw [emitToolResults, List.map_map, ← List.zipIdx_map_fst 0 (stepReturns step), List.map_map,
        List.zipIdx_map_fst]
      refine List.map_congr_left fun entry hMem => ?_
      obtain ⟨record, hRecord, hId⟩ := hEntry entry hMem
      exact (toolMessage_fields hRecord hId _ _ _).2
    rw [sentCalls_assistantMessage]
    refine hIds.trans (hSettled.ids.trans ?_)
    rw [List.map_map]
    exact List.map_congr_left fun query _ => (id_toolCall dump query).symm
  · rw [sentCalls_assistantMessage]
    simp [id_toolCall]

end Chat

/-! ## Both requests -/

/-- **Calls and results on the wire.** In a conversation between exchanges every input is sent
once, in order, and every step as one block. The chat layer sends every block in order; the
Responses layer does exactly when the records of the steps match. -/
theorem requests_in_order_iff (dump : Json → String) (dialect : Chat.ChatCompletionsDialect)
    (state : AgentInputState) (generation : Json) (hValid : validateStateStructure state = .ok ())
    (hReady : (state.loop.map LoopProgress.phase).getD .ready = .ready) :
    (∀ body, Responses.buildRequest dump state generation = .ok body →
      body.find? "input" = some (.arr (state.turns.flatMap fun turn =>
          Responses.emitMessageItem turn.userInput ::
            turn.agentLoopStep.flatMap (Responses.stepBlock dump))) ∧
        ((∀ turn ∈ state.turns, ∀ step ∈ turn.agentLoopStep,
            Responses.StepLaidOut dump step (Responses.stepBlock dump step)) ↔
          ∀ turn ∈ state.turns, ∀ step ∈ turn.agentLoopStep, Responses.Matched step)) ∧
    (∀ body, Chat.buildRequest dump dialect state generation = .ok body →
      body.find? "messages" = some (.arr (Chat.systemMessages state ++ state.turns.flatMap fun turn =>
          Json.object [("role", .str (Chat.derivedRole turn.userInput)),
              ("content", Chat.userContent turn.userInput.content)] ::
            turn.agentLoopStep.flatMap
              (Chat.stepMessages dump dialect.replayAssistantReasoning))) ∧
        ∀ turn ∈ state.turns, ∀ step ∈ turn.agentLoopStep,
          Chat.StepLaidOut dump step
            (Chat.stepMessages dump dialect.replayAssistantReasoning step)) := by
  have hSettled := settled_of_valid hValid hReady
  constructor
  · intro body hBody
    obtain ⟨-, items, hItems, hFind⟩ := Responses.buildRequest_ok hBody
    refine ⟨?_, ?_⟩
    · rw [hFind, Responses.inputItems_blocks (fun turn hTurn => (hSettled turn hTurn).1) hItems]
    · refine forall₂_congr fun turn hTurn => forall₂_congr fun step hStep => ?_
      exact Responses.stepLaidOut_iff ((hSettled turn hTurn).2 step hStep)
        ((Responses.inputItems_ok _ hItems).1 turn hTurn step hStep)
  · intro body hBody
    obtain ⟨messages, hMessages, hFind⟩ := Chat.buildRequest_ok hBody
    obtain ⟨-, rfl⟩ := Chat.requestMessages_ok hMessages
    refine ⟨?_, ?_⟩
    · rw [hFind, Chat.turnMessages]
      congr 3
      refine List.flatMap_congr fun turn hTurn => ?_
      have hType : turn.userInput.type ≠ .invokeReturn := by
        rw [(hSettled turn hTurn).1]
        decide
      rw [Chat.emitMessage, if_neg hType]
      rfl
    · exact fun turn hTurn step hStep =>
        Chat.stepLaidOut ((hSettled turn hTurn).2 step hStep) dialect.replayAssistantReasoning

/-- A conversation whose one response is the one the Responses reader assembled from a
stream, with the result of its call. -/
def replayState (events : List Json) : AgentInputState where
  turns := [{
    userInput := { content := [{ raw := "go" }] }
    agentLoopStep := [{
      modelResponse := withExchangeId "x1" (Responses.ResponsesReader.consume
        Chat.ChatCompletionsReader.parseSample events).response
      invokeReturns := some [resultItem
        { query := { id := "c", name := "read_file" }, output := { raw := "ok" } }] }] }]

theorem requests_in_order_sample :
    (Responses.buildRequest dumpEmpty (replayState identifiedStream) sampleGeneration).isOk = true ∧
      ∀ body, Responses.buildRequest dumpEmpty (replayState identifiedStream) sampleGeneration =
          .ok body →
        ∀ turn ∈ (replayState identifiedStream).turns, ∀ step ∈ turn.agentLoopStep,
          Responses.StepLaidOut dumpEmpty step (Responses.stepBlock dumpEmpty step) := by
  refine ⟨by decide +kernel, ?_⟩
  intro body hBody
  refine ((requests_in_order_iff dumpEmpty {} (replayState identifiedStream) sampleGeneration
    (by decide +kernel) (by decide +kernel)).1 body hBody).2.mpr ?_
  intro turn hTurn step hStep
  rw [List.mem_singleton.mp hTurn] at hStep
  rw [List.mem_singleton.mp hStep]
  refine ⟨fun reasoning hReasoning => ?_, by decide +kernel, by decide +kernel⟩
  have hNone : (withExchangeId "x1" (Responses.ResponsesReader.consume
      Chat.ChatCompletionsReader.parseSample identifiedStream).response).reasoning = none := by
    decide +kernel
  rw [hNone] at hReasoning
  cases hReasoning

/-- The id of the call comes when its item is opened, and is missing when it is done. -/
def earlyIdStream : List Json :=
  Json.object [("type", .str "response.output_item.added"), ("output_index", Json.uint 0),
    ("item", Json.object [("id", .str "fc"), ("type", .str "function_call"),
      ("call_id", .str "c")])] :: unidentifiedStream

/-- **The call is sent without the id of its result**: the reader kept the id of the opened
item for the conversation, and the record of the item that was done goes on the wire. -/
theorem recorded_call_sent_without_id :
    (Responses.ResponsesReader.consume Chat.ChatCompletionsReader.parseSample
        earlyIdStream).status = .completed ∧
      validateStateStructure (replayState earlyIdStream) = .ok () ∧
      (Responses.buildRequest dumpEmpty (replayState earlyIdStream) sampleGeneration).isOk = true ∧
      ¬∀ turn ∈ (replayState earlyIdStream).turns, ∀ step ∈ turn.agentLoopStep,
        Responses.StepLaidOut dumpEmpty step (Responses.stepBlock dumpEmpty step) := by
  refine ⟨by decide +kernel, by decide +kernel, by decide +kernel, ?_⟩
  intro h
  obtain ⟨before, -, -, -, -, hIds, -⟩ := h _ (List.mem_singleton.mpr rfl) _
    (List.mem_singleton.mpr rfl)
  revert hIds
  decide +kernel

end SimplexAgent.Llm
