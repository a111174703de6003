import SimplexAgent.Llm.RequestOrder

/-!
# Sending a chat response back

What a chat stream delivered is committed as one message, and later requests send that
message back as part of the history. The reader and the interpreter meet in the
message's fields: a refusal is kept beside the text and stands in for it when there is
none, and argument text is kept as the value it denotes, or as a string.

Both encodings are undone by comparing values. A text that repeats the refusal looks
like the stand-in, and arguments that are a JSON string look like text that was none.
Empty argument text is taken for no arguments, and sent as an empty object.
-/

namespace SimplexAgent.Llm.Chat

open Dataclass
open Loop (modelIntegrate updateLast)

/-! ## What is received and what is sent -/

def sentName (call : Json) : Option String :=
  (Responses.findObject call "function").bind (stringField · "name")

def sentArguments (call : Json) : Option String :=
  (Responses.findObject call "function").bind (stringField · "arguments")

def SameCall (parse : String → Option Json) (call : Json) (received : ToolCallState) : Prop :=
  stringField call "id" = some received.id ∧ sentName call = some received.name ∧
    ∃ text, sentArguments call = some text ∧
      (parse received.arguments = none → text = received.arguments) ∧
      ∀ j, parse received.arguments = some j → ∃ j', parse text = some j' ∧ Json.equals j j' = true

/-- The message says what was received: text, refusal, reasoning and calls. -/
def Reproduces (parse : String → Option Json) (replayReasoning : Bool) (received : Accumulated)
    (message : Json) : Prop :=
  (stringField message "content").getD "" = received.content ∧
    (stringField message "refusal").getD "" = received.refusal ∧
    (replayReasoning = true →
      (stringField message "reasoning_content").getD "" = received.reasoning) ∧
    List.Forall₂ (SameCall parse) (sentCalls message) (received.toolCalls.toList.map Prod.snd)

def SameCallOrEmpty (parse : String → Option Json) (call : Json) (received : ToolCallState) :
    Prop :=
  stringField call "id" = some received.id ∧ sentName call = some received.name ∧
    ∃ text, sentArguments call = some text ∧
      (received.arguments = "" → parse text = some (.obj [])) ∧
      (received.arguments ≠ "" → parse received.arguments = none → text = received.arguments) ∧
      ∀ j, received.arguments ≠ "" → parse received.arguments = some j →
        (∀ s, j ≠ .str s) → parse text = some j

/-- The parts of a response that survive both encodings. -/
def ReproducesApart (parse : String → Option Json) (replayReasoning : Bool)
    (received : Accumulated) (message : Json) : Prop :=
  ((received.content = "" ∨ received.content ≠ received.refusal) →
      (stringField message "content").getD "" = received.content) ∧
    (stringField message "refusal").getD "" = received.refusal ∧
    (replayReasoning = true →
      (stringField message "reasoning_content").getD "" = received.reasoning) ∧
    List.Forall₂ (SameCallOrEmpty parse) (sentCalls message)
      (received.toolCalls.toList.map Prod.snd)

/-! ## The two encodings -/

section Encodings

variable {parse : String → Option Json} {dump : Json → String}

theorem partRefusal_visibleContent (acc : Accumulated) :
    partRefusal (visibleContent acc) = acc.refusal := by
  have hObject : extrasObject (some (Json.object [("refusal", .str acc.refusal)])) =
      Json.object [("refusal", .str acc.refusal)] := rfl
  by_cases hRefusal : acc.refusal = ""
  · simp [visibleContent, partRefusal, extrasObject, Responses.getString, hRefusal]
  · simp only [visibleContent, partRefusal, if_neg hRefusal, hObject]
    simp [Responses.getString]

theorem partText_visibleContent {acc : Accumulated}
    (h : acc.content = "" ∨ acc.content ≠ acc.refusal) :
    partText (visibleContent acc) = acc.content := by
  rw [partText, partRefusal_visibleContent]
  unfold visibleContent
  by_cases hRefusal : acc.refusal = ""
  · simp [hRefusal]
  · by_cases hContent : acc.content = ""
    · simp [hRefusal, hContent]
    · have hOther : acc.content ≠ acc.refusal := h.resolve_left hContent
      simp [hRefusal, hContent, hOther]

theorem function_toolCall (query : InvokeQuery) :
    Responses.findObject (toolCall dump query) "function" = some (Json.object
      [("name", .str query.name), ("arguments", .str (wireArguments dump query.arguments))]) := by
  have hFind : (toolCall dump query).find? "function" = some (Json.object
      [("name", .str query.name), ("arguments", .str (wireArguments dump query.arguments))]) := by
    simp [toolCall]
  rw [Responses.findObject, hFind]
  rfl

theorem sameCallOrEmpty_toolCall (index : Nat) (call : ToolCallState)
    (hDump : ∀ text j, parse text = some j → parse (dump j) = some j)
    (hEmpty : parse (dump (.obj [])) = some (.obj [])) :
    SameCallOrEmpty parse (toolCall dump (queryOf parse index call)) call := by
  refine ⟨id_toolCall dump _, ?_, wireArguments dump (queryOf parse index call).arguments,
    ?_, ?_, ?_, ?_⟩
  · rw [sentName, function_toolCall]
    simp [stringField, queryOf]
  · rw [sentArguments, function_toolCall]
    simp [stringField]
  · intro hNone
    simp only [queryOf, hNone, if_true]
    exact hEmpty
  · intro hSome hParse
    simp [queryOf, hSome, hParse, wireArguments]
  · intro j hSome hParse hOther
    simp only [queryOf, hSome, hParse, if_false, Option.getD_some]
    cases j with
    | str s => exact absurd rfl (hOther s)
    | _ => exact hDump _ _ hParse

end Encodings

/-! ## The message -/

theorem toolCalls_assembled {parse : String → Option Json} (acc : Accumulated) :
    (assembleMessage parse acc).invokes.getD [] =
      acc.toolCalls.toList.map fun entry => queryOf parse entry.1 entry.2 := by
  unfold assembleMessage
  dsimp only
  split_ifs with hEmpty
  · simp [Std.ExtTreeMap.isEmpty_iff.mp hEmpty]
  · rfl

/-- What `converse` adds is not sent. -/
theorem assistantMessage_withExchangeId (dump : Json → String) (replayReasoning : Bool)
    (exchangeId : String) (item : MessageItem) :
    assistantMessage dump replayReasoning (withExchangeId exchangeId item) =
      assistantMessage dump replayReasoning item := by
  unfold withExchangeId
  split <;> rfl

theorem reproducesApart_assembled {parse : String → Option Json} {dump : Json → String}
    (hDump : ∀ text j, parse text = some j → parse (dump j) = some j)
    (hEmpty : parse (dump (.obj [])) = some (.obj [])) (replayReasoning : Bool)
    (acc : Accumulated) : ReproducesApart parse replayReasoning acc
      (assistantMessage dump replayReasoning (assembleMessage parse acc)) := by
  have hText : assistantText (assembleMessage parse acc).content = partText (visibleContent acc) := by
    simp [assembleMessage, assistantText]
  have hRefusal : assistantRefusal (assembleMessage parse acc).content = acc.refusal := by
    simp [assembleMessage, assistantRefusal, partRefusal_visibleContent]
  refine ⟨?_, ?_, ?_, ?_⟩
  · intro h
    rw [partText_visibleContent h] at hText
    simp only [stringField, find?_assistantMessage, hText, hRefusal]
    simp only [String.reduceEq, false_and, if_false, if_true]
    split_ifs with hNull
    · exact hNull.1.symm
    · rfl
  · simp only [stringField, find?_assistantMessage, hRefusal]
    by_cases hNone : acc.refusal = ""
    · simp [hNone]
    · simp [hNone]
  · intro hReplay
    have hReasoning : replayedReasoning replayReasoning (assembleMessage parse acc) =
        acc.reasoning := by
      simp only [replayedReasoning, hReplay, if_true, assembleMessage]
      split_ifs with hNone
      · exact hNone.symm
      · rfl
    simp only [stringField, find?_assistantMessage, hReasoning]
    by_cases hNone : acc.reasoning = ""
    · simp [hNone]
    · simp [hNone]
  · rw [sentCalls_assistantMessage, toolCalls_assembled, List.map_map, List.forall₂_map_left_iff,
      List.forall₂_map_right_iff]
    exact List.forall₂_same.mpr fun entry _ =>
      sameCallOrEmpty_toolCall entry.1 entry.2 hDump hEmpty

theorem mem_updateLast {α : Type} (fallback : α) (f : α → α) (xs : List α) :
    ∃ x, f x ∈ updateLast fallback f xs := by
  induction xs with
  | nil => exact ⟨fallback, by simp [updateLast]⟩
  | cons first rest ih =>
    cases rest with
    | nil => exact ⟨first, by simp [updateLast]⟩
    | cons second more =>
      obtain ⟨x, hx⟩ := ih
      exact ⟨x, List.mem_cons_of_mem _ hx⟩

theorem modelIntegrate_commits (state : AgentInputState) {item : MessageItem}
    (hType : item.type = .modelResponse) :
    ∃ turn ∈ (modelIntegrate state item).turns, ∃ step ∈ turn.agentLoopStep,
      step.modelResponse = item := by
  simp only [modelIntegrate, hType]
  obtain ⟨turn, hTurn⟩ := mem_updateLast {} (fun turn : UserLoopStep =>
    { turn with agentLoopStep := turn.agentLoopStep ++ [{ modelResponse := item }] }) state.turns
  exact ⟨_, hTurn, { modelResponse := item }, by simp, rfl⟩

/-- **A chat response is sent back as it was received**, empty arguments as an empty object:
the default integration commits it as a step, and every later request sends for that step a
message with the refusal, the reasoning and the calls of the stream, and with its text
unless that repeats the refusal. -/
theorem replay_reproduces {parse : String → Option Json} {dump : Json → String}
    (hDump : ∀ text j, parse text = some j → parse (dump j) = some j)
    (hObject : parse "\x7b\x7d" = some (.obj [])) (dialect : ChatCompletionsDialect)
    (messages : List (List (String × String)))
    (hStatus : (ChatCompletionsReader.consume parse dialect messages).finalStatus = .completed)
    (exchangeId : String) (state : AgentInputState) :
    let reader := ChatCompletionsReader.consume parse dialect messages
    let committed := withExchangeId exchangeId reader.response
    (∃ turn ∈ (modelIntegrate state committed).turns, ∃ step ∈ turn.agentLoopStep,
      step.modelResponse = committed) ∧
    ∀ step : AgentLoopStep, step.modelResponse = committed → ∃ message results,
        stepMessages dump dialect.replayAssistantReasoning step = message :: results ∧
        ReproducesApart parse dialect.replayAssistantReasoning reader.toAccumulated message := by
  have hAssembled := ChatCompletionsReader.consume_assembled hStatus
  dsimp only
  rw [hAssembled]
  constructor
  · refine modelIntegrate_commits state ?_
    unfold withExchangeId
    split <;> rfl
  · intro step hStep
    refine ⟨_, _, rfl, ?_⟩
    rw [hStep, assistantMessage_withExchangeId]
    exact reproducesApart_assembled hDump (hDump _ _ hObject) _ _

/-- The parser and the writer on the chunks of one response and on an empty object. -/
def parseReplay (text : String) : Option Json :=
  if text = "\x7b\x7d" then some (.obj []) else ChatCompletionsReader.parseSample text

def dumpReplay (j : Json) : String :=
  if ChatCompletionsReader.parseSample ChatCompletionsReader.wholeText = some j then
    ChatCompletionsReader.wholeText
  else if ChatCompletionsReader.parseSample ChatCompletionsReader.leftText = some j then
    ChatCompletionsReader.leftText
  else if ChatCompletionsReader.parseSample ChatCompletionsReader.rightText = some j then
    ChatCompletionsReader.rightText
  else "\x7b\x7d"

theorem parseReplay_dumpReplay {text : String} {j : Json} (h : parseReplay text = some j) :
    parseReplay (dumpReplay j) = some j := by
  unfold parseReplay ChatCompletionsReader.parseSample at h
  split_ifs at h <;> (injection h with h; rw [← h]; decide +kernel)

def replayReader : ChatCompletionsReader :=
  ChatCompletionsReader.consume parseReplay {} ChatCompletionsReader.wholeStream

/-- The response it leaves in the history. -/
def replayCommitted : MessageItem := withExchangeId "x1" replayReader.response

theorem replay_reproduces_sample : ∃ message results,
      stepMessages dumpReplay false { modelResponse := replayCommitted } = message :: results ∧
      ReproducesApart parseReplay false replayReader.toAccumulated message :=
  (replay_reproduces (fun _ _ => parseReplay_dumpReplay) (by decide +kernel) {}
    ChatCompletionsReader.wholeStream (by decide +kernel) "x1" {}).2 _ rfl

/-- The one call of the stream has no argument text, and is sent back with one. -/
theorem empty_arguments_sent_as_object : replayReader.finalStatus = .completed ∧
      ¬Reproduces parseReplay false replayReader.toAccumulated
        (assistantMessage dumpReplay false replayCommitted) := by
  refine ⟨by decide +kernel, ?_⟩
  rintro ⟨-, -, -, hCalls⟩
  have hSent : sentCalls (assistantMessage dumpReplay false replayCommitted) =
      [toolCall dumpReplay { id := "c", name := "f" }] := by decide +kernel
  have hReceived : replayReader.toolCalls.toList.map Prod.snd = [{ id := "c", name := "f" }] := by
    decide +kernel
  rw [hSent, hReceived] at hCalls
  cases hCalls with
  | cons hCall _ =>
    obtain ⟨-, -, text, hText, hSame, -⟩ := hCall
    rw [hSame (by decide +kernel)] at hText
    revert hText
    decide +kernel

end SimplexAgent.Llm.Chat
