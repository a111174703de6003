import SimplexAgent.Llm.ChatInterpreter

/-!
# What stands in the text positions of a request

A request has positions that the provider reads as text: text parts, strings of
messages, and the output of a tool. Both interpreters check the parts of a
conversation against the position they go to, and refuse a picture where its
address or its bytes would be read as words.

Every text of a request is traced to the content it was written from. The traces
follow the branches of the interpreters; that they are the texts of the request is
a theorem. All of them go through a check except one: a tool result without text
of its own is written from the record of the invocation, whose content nobody
looked at.

Content that is not text has parts of its own. The content a request is written from
is its payload: parts of messages and results, and the output of the record where a
result has none. What a recorded item stands for, and reasoning that is not sent
again, is no part of it.
-/

namespace SimplexAgent.Llm

open Dataclass
open Verified.Tables (bind_ok forM_ok)

/-! ## The texts of a request -/

def textPartTypes : List String := ["text", "input_text", "output_text", "summary_text"]

def partTexts (part : Json) : List String :=
  if Responses.getString part "type" ∈ textPartTypes then [Responses.getString part "text"]
  else []

def fieldTexts (item : Json) (key : String) : List String :=
  match item.find? key with
  | some (.str text) => [text]
  | some (.arr parts) => parts.flatMap partTexts
  | _ => []

def itemTexts (item : Json) : List String :=
  fieldTexts item "summary" ++ fieldTexts item "content" ++ fieldTexts item "reasoning_content" ++
    fieldTexts item "output"

def requestTexts (body : Json) (key : String) : List String :=
  match body.find? key with
  | some (.arr items) => items.flatMap itemTexts
  | _ => []

/-- A text of a request, and the content it was written from. A text that the provider
itself wrote, or the system prompt, comes from none. -/
structure TextPosition where
  text : String
  sources : List Content

/-- Texts that are sent as they were received. -/
def verbatim (item : Json) : List TextPosition := (itemTexts item).map fun text => ⟨text, []⟩

def OnlyText (positions : List TextPosition) : Prop :=
  ∀ position ∈ positions, ∀ part ∈ position.sources, IsText part

theorem onlyText_nil : OnlyText [] := by
  intro position hMem
  cases hMem

theorem onlyText_append (ps qs : List TextPosition) :
    OnlyText (ps ++ qs) ↔ OnlyText ps ∧ OnlyText qs := by
  simp only [OnlyText, List.mem_append, or_imp, forall_and]

theorem onlyText_flatMap {α : Type} (f : α → List TextPosition) (xs : List α) :
    OnlyText (xs.flatMap f) ↔ ∀ x ∈ xs, OnlyText (f x) := by
  simp only [OnlyText, List.mem_flatMap]
  constructor
  · intro h x hx position hPosition
    exact h position ⟨x, hx, hPosition⟩
  · rintro h position ⟨x, hx, hPosition⟩
    exact h x hx position hPosition

theorem onlyText_verbatim (item : Json) : OnlyText (verbatim item) := by
  intro position hMem part hPart
  obtain ⟨text, -, rfl⟩ := List.mem_map.mp hMem
  cases hPart

theorem verbatim_text (item : Json) : (verbatim item).map TextPosition.text = itemTexts item := by
  simp [verbatim, List.map_map, Function.comp_def]

theorem requireTextPosition_ok {dialectName position : String} {part : Content}
    (h : requireTextPosition dialectName part position = .ok ()) : IsText part := by
  unfold requireTextPosition at h
  split_ifs at h with hText
  exact hText

theorem onlyText_singleton {text : String} {parts : List Content}
    (h : ∀ part ∈ parts, IsText part) : OnlyText [⟨text, parts⟩] := by
  intro position hMem
  rw [List.mem_singleton.mp hMem]
  exact h

def resultsOf (turns : List UserLoopStep) : List MessageItem :=
  turns.flatMap fun turn =>
    (if turn.userInput.type = .invokeReturn then [turn.userInput] else []) ++
      turn.agentLoopStep.flatMap fun step => step.invokeReturns.getD []

theorem forall_mem_resultsOf (P : MessageItem → Prop) (turns : List UserLoopStep) :
    (∀ item ∈ resultsOf turns, P item) ↔
      ∀ turn ∈ turns, (turn.userInput.type = .invokeReturn → P turn.userInput) ∧
        ∀ step ∈ turn.agentLoopStep, ∀ item ∈ step.invokeReturns.getD [], P item := by
  constructor
  · intro h turn hTurn
    refine ⟨fun hResult => ?_, fun step hStep item hItem => ?_⟩
    · exact h _ (List.mem_flatMap.mpr ⟨turn, hTurn, by simp [hResult]⟩)
    · refine h _ (List.mem_flatMap.mpr ⟨turn, hTurn, List.mem_append_right _ ?_⟩)
      exact List.mem_flatMap.mpr ⟨step, hStep, hItem⟩
  · intro h item hItem
    obtain ⟨turn, hTurn, hItem⟩ := List.mem_flatMap.mp hItem
    rcases List.mem_append.mp hItem with hUser | hSteps
    · split_ifs at hUser with hResult
      · rw [List.mem_singleton.mp hUser]
        exact (h turn hTurn).1 hResult
      · cases hUser
    · obtain ⟨step, hStep, hItem⟩ := List.mem_flatMap.mp hSteps
      exact (h turn hTurn).2 step hStep item hItem

/-! ## What is not text -/

def mediaPartTypes : List String := ["input_image", "input_file", "image_url"]

def isMediaPart (part : Json) : Bool := Responses.getString part "type" ∈ mediaPartTypes

def fieldMedia (item : Json) (key : String) : List Json :=
  match item.find? key with
  | some (.arr parts) => parts.filter isMediaPart
  | _ => []

def itemMedia (item : Json) : List Json := fieldMedia item "content" ++ fieldMedia item "output"

def requestMedia (body : Json) (key : String) : List Json :=
  match body.find? key with
  | some (.arr items) => items.flatMap itemMedia
  | _ => []

def nonText (parts : List Content) : List Content := parts.filter fun part => ¬IsText part

/-- **What is not text is sent in its own form**: in order, and once for each part. -/
def MediaSent (form : Content → Json) (payload : List Content) (media : List Json) : Prop :=
  ((nonText payload).map form).Sublist media

def resultPayload (item : MessageItem) : List Content :=
  if item.content = [] then (item.invokeReturn.map InvokeReturn.output).toList else item.content

@[simp]
theorem nonText_append (ps qs : List Content) : nonText (ps ++ qs) = nonText ps ++ nonText qs :=
  List.filter_append ..

theorem nonText_flatMap {α : Type} (f : α → List Content) (xs : List α) :
    nonText (xs.flatMap f) = xs.flatMap fun x => nonText (f x) :=
  List.filter_flatMap

theorem nonText_eq_nil {parts : List Content} : nonText parts = [] ↔ ∀ part ∈ parts, IsText part := by
  simp [nonText, List.filter_eq_nil_iff]

theorem mediaSent_nil (form : Content → Json) {payload : List Content}
    (h : ∀ part ∈ payload, IsText part) (media : List Json) : MediaSent form payload media := by
  rw [MediaSent, nonText_eq_nil.mpr h]
  exact List.nil_sublist media

theorem MediaSent.append {form : Content → Json} {ps qs : List Content} {ms ns : List Json}
    (h : MediaSent form ps ms) (h' : MediaSent form qs ns) :
    MediaSent form (ps ++ qs) (ms ++ ns) := by
  rw [MediaSent, nonText_append, List.map_append]
  exact List.Sublist.append h h'

theorem MediaSent.flatMap {form : Content → Json} {α : Type} {f : α → List Content}
    {g : α → List Json} (xs : List α) (h : ∀ x ∈ xs, MediaSent form (f x) (g x)) :
    MediaSent form (xs.flatMap f) (xs.flatMap g) := by
  induction xs with
  | nil => exact List.nil_sublist _
  | cons x rest ih => exact (h x (by simp)).append (ih fun y hy => h y (by simp [hy]))

theorem filter_isMediaPart {form : Content → Json} {parts : List Content}
    (h : ∀ part ∈ parts, isMediaPart (form part) ↔ ¬IsText part) :
    (parts.map form).filter isMediaPart = (nonText parts).map form := by
  rw [List.filter_map, nonText]
  refine congrArg (List.map form) (List.filter_congr fun part hPart => ?_)
  simpa using Bool.eq_iff_iff.mpr ((h part hPart).trans decide_eq_true_iff.symm)

/-! ## Lookups -/

theorem find?_eraseKey (j : Json) {key key' : String} (h : key' ≠ key) :
    (eraseKey j key).find? key' = j.find? key' := by
  cases j with
  | obj fields =>
    simp only [eraseKey, Json.find?]
    induction fields with
    | nil => rfl
    | cons field rest ih =>
      obtain ⟨k, v⟩ := field
      by_cases hk : k = key
      · have hOther : (key' == k) = false := beq_eq_false_iff_ne.mpr (hk ▸ h)
        simp [hk, List.lookup_cons, hk ▸ hOther] at ih ⊢
        exact ih
      · simp only [ne_eq, hk, not_false_eq_true, decide_true, List.filter_cons_of_pos,
          List.lookup_cons]
        split
        · rfl
        · exact ih
  | _ => rfl

theorem isObject_extrasObject (extras : Option Json) : (extrasObject extras).IsObject := by
  unfold extrasObject
  split <;> trivial

namespace Responses

/-! ## The Responses request -/

variable {dump : Json → String}
variable {items : List Json}

def partPositions (part : Content) : List TextPosition :=
  match part.modality with
  | .image | .document => []
  | .text | .audio | .video => [⟨part.raw, [part]⟩]

def recordPosition (item : MessageItem) : TextPosition :=
  ⟨recordText item, (item.invokeReturn.map InvokeReturn.output).toList⟩

/-- Whether a result is written from its record: it has no part, or one empty text. -/
def fallsBack (item : MessageItem) : Bool :=
  match item.content with
  | [] => true
  | [part] => part.modality = .text ∧ part.raw = "" ∧ item.invokeReturn.isSome
  | _ => false

def resultPositions (item : MessageItem) : List TextPosition :=
  match item.invokeReturn.bind fun record =>
      capturedItem record.extras "function_call_output" with
  | some captured => verbatim captured
  | none =>
    if fallsBack item then [recordPosition item] else item.content.flatMap partPositions

/-- The texts of a turn's input. -/
def userPositions (item : MessageItem) : List TextPosition :=
  if item.type = .invokeReturn then resultPositions item
  else item.content.flatMap partPositions

def reasoningPositions (reasoning : Content) : List TextPosition :=
  if reasoningIsReplayedVerbatim reasoning then (emitReasoning reasoning).flatMap verbatim
  else [⟨reasoning.raw, [reasoning]⟩]

def messagePositions (recorded : List Json) (response : MessageItem) : List TextPosition :=
  if recorded ≠ [] then recorded.flatMap verbatim
  else if response.content.any fun part => part.raw ≠ "" then
    response.content.map fun part => ⟨part.raw, [part]⟩
  else []

def callPositions (query : InvokeQuery) : List TextPosition :=
  ((capturedItem query.extras "function_call").map verbatim).getD []

def stepPositions (step : AgentLoopStep) : List TextPosition :=
  let response := step.modelResponse
  let recorded := (messageItems (outputItems response)).toOption.getD []
  (response.reasoning.map reasoningPositions).getD [] ++ messagePositions recorded response ++
    (response.invokes.getD []).flatMap callPositions ++
    (step.invokeReturns.getD []).flatMap resultPositions

def textPositions (turns : List UserLoopStep) : List TextPosition :=
  turns.flatMap fun turn =>
    userPositions turn.userInput ++ turn.agentLoopStep.flatMap stepPositions

theorem getString_of_find {j : Json} {key text : String} (h : j.find? key = some (.str text)) :
    getString j key = text := by
  simp [getString, h]

theorem find?_inherit (extras : Json) {key : String} (keys : List String) (hKey : key ∉ keys) :
    ∀ part : Json, part.IsObject → (inherit extras part keys).find? key = part.find? key := by
  induction keys with
  | nil => exact fun part _ => rfl
  | cons k rest ih =>
    intro part hPart
    simp only [List.mem_cons, not_or] at hKey
    rw [inherit, List.foldl_cons, ← inherit, ih hKey.2 _ (by simpa using hPart),
      Json.find?_setOptional hPart, if_neg hKey.1]

theorem isObject_inherit (extras : Json) (keys : List String) :
    ∀ part : Json, part.IsObject → (inherit extras part keys).IsObject := by
  induction keys with
  | nil => exact fun part h => h
  | cons k rest ih => exact fun part h => ih _ (by simpa using h)

theorem type_inherited (extras : Json) (kind key : String) (keys : List String) (value : Json)
    (hKeys : "type" ∉ keys) (hKey : "type" ≠ key) :
    getString (inherit extras (Json.object [("type", .str kind)]) keys) "type" = kind ∧
      getString ((inherit extras (Json.object [("type", .str kind)]) keys).set key value) "type" =
        kind := by
  have hObject := isObject_inherit extras keys (Json.object [("type", .str kind)]) (by simp)
  have hFind : (inherit extras (Json.object [("type", .str kind)]) keys).find? "type" =
      some (.str kind) := by
    rw [find?_inherit extras keys hKeys _ (by simp)]
    simp
  exact ⟨getString_of_find hFind,
    getString_of_find (by rw [Json.find?_set hObject, if_neg hKey, hFind])⟩

theorem type_inputContentPart (part : Content) :
    getString (inputContentPart part) "type" = match part.modality with
      | .image => "input_image"
      | .document => "input_file"
      | .text | .audio | .video => "input_text" := by
  unfold inputContentPart
  cases part.modality with
  | image =>
    dsimp only
    have hType := fun value => type_inherited (extrasObject part.extras) "input_image"
      "image_url" ["detail", "file_id"] value (by decide) (by decide)
    split_ifs
    · exact (hType .null).1
    · exact (hType _).2
  | document =>
    dsimp only
    have hUrl := fun value => type_inherited (extrasObject part.extras) "input_file"
      "file_url" ["filename", "file_id"] value (by decide) (by decide)
    have hData := fun value => type_inherited (extrasObject part.extras) "input_file"
      "file_data" ["filename", "file_id"] value (by decide) (by decide)
    split_ifs
    · exact (hUrl .null).1
    · exact (hUrl _).2
    · exact (hData _).2
  | _ => simp [getString]

theorem partTexts_inputContentPart (part : Content) :
    partTexts (inputContentPart part) = (partPositions part).map TextPosition.text := by
  rw [partTexts, type_inputContentPart, partPositions]
  cases hModality : part.modality <;>
    simp [textPartTypes, inputContentPart, getString, hModality]

theorem partTexts_inputContent (parts : List Content) : (inputContent parts).flatMap partTexts =
      (parts.flatMap partPositions).map TextPosition.text := by
  induction parts with
  | nil => rfl
  | cons part rest ih =>
    simp only [inputContent, List.map_cons, List.flatMap_cons, List.map_append,
      partTexts_inputContentPart] at ih ⊢
    rw [ih]

theorem partTexts_synthesizedPart (part : Content) :
    (synthesizedPart part).flatMap partTexts = [part.raw] := by
  have hObject := isObject_extrasObject part.extras
  have hType : getString (contentPart part "output_text") "type" = "output_text" := by
    refine getString_of_find ?_
    rw [contentPart, Json.find?_set (by simpa using hObject), if_neg (by decide),
      Json.find?_set hObject, if_pos rfl]
  have hText : getString (contentPart part "output_text") "text" = part.raw := by
    refine getString_of_find ?_
    rw [contentPart, Json.find?_set (by simpa using hObject), if_pos rfl]
  have hErased : ∀ key, key ≠ "refusal" →
      getString (eraseKey (contentPart part "output_text") "refusal") key =
        getString (contentPart part "output_text") key := by
    intro key hKey
    simp only [getString, find?_eraseKey _ hKey]
  unfold synthesizedPart
  dsimp only
  split
  · simp [partTexts, hType, hText, textPartTypes]
  · rename_i refusal _
    have hRefusal : partTexts (Json.object [("type", .str "refusal"), ("refusal", .str refusal)]) =
        [] := by
      simp [partTexts, getString, textPartTypes]
    simp only [List.flatMap_cons, List.flatMap_nil, hRefusal, List.append_nil]
    simp [partTexts, hErased, hType, hText, textPartTypes]
  · simp [partTexts, hErased, hType, hText, textPartTypes]

theorem partTexts_synthesizedContent (parts : List Content) :
    (synthesizedContent parts).flatMap partTexts = parts.map Content.raw := by
  induction parts with
  | nil => rfl
  | cons part rest ih =>
    simp only [synthesizedContent, List.flatMap_cons, List.flatMap_append, List.map_cons,
      partTexts_synthesizedPart] at ih ⊢
    rw [ih]
    rfl

theorem capturedItem_some {extras : Option Json} {wireType : String} {item : Json}
    (h : capturedItem extras wireType = some item) : item.find? "type" = some (.str wireType) := by
  unfold capturedItem at h
  split at h
  · split_ifs at h with hType
    injection h with h
    rw [← h, hType]
  · cases h

theorem itemTexts_emitReasoning (reasoning : Content) :
    (emitReasoning reasoning).flatMap itemTexts =
      (reasoningPositions reasoning).map TextPosition.text := by
  have hVerbatim : ∀ items : List Json, items.flatMap itemTexts =
      (items.flatMap verbatim).map TextPosition.text := by
    intro items
    simp only [List.map_flatMap, verbatim_text]
  unfold reasoningPositions
  split_ifs with hReplayed
  · exact hVerbatim _
  · simp only [reasoningIsReplayedVerbatim, decide_eq_true_eq, not_or, not_not,
      Option.not_isSome_iff_eq_none] at hReplayed
    simp [emitReasoning, hReplayed.1, hReplayed.2, synthesizedReasoning, itemTexts, fieldTexts,
      partTexts, getString, textPartTypes]

theorem itemTexts_emitAssistantMessage {response : MessageItem}
    (h : emitAssistantMessage response = .ok items) : items.flatMap itemTexts =
      (messagePositions ((messageItems (outputItems response)).toOption.getD [])
        response).map TextPosition.text := by
  obtain ⟨recorded, hRecorded, h⟩ := bind_ok h
  have hSame : (messageItems (outputItems response)).toOption.getD [] = recorded := by
    rw [hRecorded]
    rfl
  rw [hSame, messagePositions]
  by_cases hNone : recorded ≠ []
  · rw [if_pos hNone] at h ⊢
    injection h with h
    rw [← h]
    simp only [List.map_flatMap, verbatim_text]
  · rw [if_neg hNone] at h ⊢
    by_cases hAny : (response.content.any fun part => decide (part.raw ≠ "")) = true
    · rw [if_pos hAny] at h ⊢
      injection h with h
      rw [← h]
      simp [itemTexts, fieldTexts, partTexts_synthesizedContent, Function.comp_def]
    · rw [if_neg hAny] at h ⊢
      injection h with h
      rw [← h]
      rfl

theorem itemTexts_callItem (dump : Json → String) (query : InvokeQuery) :
    itemTexts (callItem dump query) = (callPositions query).map TextPosition.text := by
  unfold callItem callPositions
  cases capturedItem query.extras "function_call" with
  | some captured => exact (verbatim_text captured).symm
  | none => simp [itemTexts, fieldTexts]

theorem itemTexts_resultJson (item : MessageItem) (index count : Nat)
    (invokes : Option (List InvokeQuery)) : itemTexts (resultJson item index count invokes) =
      (resultPositions item).map TextPosition.text := by
  unfold resultJson resultPositions
  cases item.invokeReturn.bind fun record =>
      capturedItem record.extras "function_call_output" with
  | some captured => exact (verbatim_text captured).symm
  | none =>
    dsimp only
    have hOutput : ∀ out : Json, out.IsObject → out.find? "summary" = none →
        out.find? "content" = none → out.find? "reasoning_content" = none →
        itemTexts (out.set "output" (resultOutput item)) =
          fieldTexts (out.set "output" (resultOutput item)) "output" := by
      intro out hObject hSummary hContent hReasoning
      simp [itemTexts, fieldTexts, Json.find?_set hObject, hSummary, hContent, hReasoning]
    have hTexts : ∀ out : Json, out.IsObject →
        fieldTexts (out.set "output" (resultOutput item)) "output" =
          ((if fallsBack item then [recordPosition item]
            else item.content.flatMap partPositions).map TextPosition.text) := by
      intro out hObject
      rw [fieldTexts, Json.find?_set hObject, if_pos rfl, resultOutput, fallsBack]
      match hParts : item.content with
      | [] => simp [recordPosition]
      | [part] =>
        by_cases hText : part.modality = .text
        · by_cases hEmpty : part.raw = "" ∧ item.invokeReturn.isSome
          · simp [hText, hEmpty, recordPosition]
          · simp [hText, hEmpty, partPositions]
        · simp only [hText, if_false, false_and, decide_false, Bool.false_eq_true]
          exact partTexts_inputContent [part]
      | first :: second :: rest => exact partTexts_inputContent (first :: second :: rest)
    by_cases hId : resultCallId item index count invokes = ""
    · rw [if_pos hId, hOutput _ (by simp) (by simp) (by simp) (by simp), hTexts _ (by simp)]
    · rw [if_neg hId]
      have hObject : (Json.object [("type", .str "function_call_output")]).IsObject := by simp
      rw [hOutput _ (by simp) (by simp [Json.find?_set hObject])
        (by simp [Json.find?_set hObject]) (by simp [Json.find?_set hObject]),
        hTexts _ (by simp)]

theorem itemTexts_emitToolResults (results : List MessageItem)
    (invokes : Option (List InvokeQuery)) : (emitToolResults results invokes).flatMap itemTexts =
      (results.flatMap resultPositions).map TextPosition.text := by
  have hEntries : ∀ (entries : List (MessageItem × Nat)) (count : Nat),
      (entries.map fun entry => resultJson entry.1 entry.2 count invokes).flatMap itemTexts =
        ((entries.map Prod.fst).flatMap resultPositions).map TextPosition.text := by
    intro entries count
    simp only [List.flatMap_map, List.map_flatMap, itemTexts_resultJson]
  rw [emitToolResults, hEntries, List.zipIdx_map_fst]

theorem itemTexts_userItems (item : MessageItem) :
    (userItems item).flatMap itemTexts = (userPositions item).map TextPosition.text := by
  unfold userItems userPositions
  split_ifs
  · rw [itemTexts_emitToolResults]
    simp
  · simp [emitMessageItem, itemTexts, fieldTexts, partTexts_inputContent]

theorem itemTexts_stepItems {step : AgentLoopStep} (h : stepItems dump step = .ok items) :
    items.flatMap itemTexts = (stepPositions step).map TextPosition.text := by
  obtain ⟨response, hResponse, h⟩ := bind_ok h
  obtain ⟨message, hMessage, hResponse⟩ := bind_ok hResponse
  injection h with h
  injection hResponse with hResponse
  rw [← h, ← hResponse, stepPositions]
  simp only [List.flatMap_append, List.map_append, itemTexts_emitToolResults,
    itemTexts_emitAssistantMessage hMessage]
  have hReasoning : ((step.modelResponse.reasoning.map emitReasoning).getD []).flatMap itemTexts =
      ((step.modelResponse.reasoning.map reasoningPositions).getD []).map TextPosition.text := by
    cases step.modelResponse.reasoning with
    | none => rfl
    | some reasoning => exact itemTexts_emitReasoning reasoning
  have hCalls : (emitInvokes dump (step.modelResponse.invokes.getD [])).flatMap itemTexts =
      ((step.modelResponse.invokes.getD []).flatMap callPositions).map TextPosition.text := by
    simp only [emitInvokes, List.flatMap_map, List.map_flatMap, itemTexts_callItem]
  rw [hReasoning, hCalls]

def stepBlock (dump : Json → String) (step : AgentLoopStep) : List Json :=
  (stepItems dump step).toOption.getD []

theorem stepsItems_ok (steps : List AgentLoopStep) :
    ∀ {items : List Json}, stepsItems dump steps = .ok items →
      (∀ step ∈ steps, stepItems dump step = .ok (stepBlock dump step)) ∧
        items = steps.flatMap (stepBlock dump) := by
  induction steps with
  | nil =>
    intro items h
    injection h with h
    exact ⟨by simp, h.symm⟩
  | cons step rest ih =>
    intro items h
    obtain ⟨first, hFirst, h⟩ := bind_ok h
    obtain ⟨more, hMore, h⟩ := bind_ok h
    injection h with h
    have hBlock : stepItems dump step = .ok (stepBlock dump step) := by
      rw [stepBlock, hFirst]
      rfl
    rw [hBlock, Except.ok.injEq] at hFirst
    exact ⟨List.forall_mem_cons.mpr ⟨hBlock, (ih hMore).1⟩, by
      rw [← h, List.flatMap_cons, hFirst, ← (ih hMore).2]⟩

/-- **The list of a request** holds the input of each turn and the items of its steps. -/
theorem inputItems_ok (turns : List UserLoopStep) :
    ∀ {items : List Json}, inputItems dump turns = .ok items →
      (∀ turn ∈ turns, ∀ step ∈ turn.agentLoopStep,
        stepItems dump step = .ok (stepBlock dump step)) ∧
        items = turns.flatMap fun turn =>
          userItems turn.userInput ++ turn.agentLoopStep.flatMap (stepBlock dump) := by
  induction turns with
  | nil =>
    intro items h
    injection h with h
    exact ⟨by simp, h.symm⟩
  | cons turn rest ih =>
    intro items h
    obtain ⟨first, hFirst, h⟩ := bind_ok h
    obtain ⟨more, hMore, h⟩ := bind_ok h
    injection h with h
    obtain ⟨hSteps, rfl⟩ := stepsItems_ok _ hFirst
    exact ⟨List.forall_mem_cons.mpr ⟨hSteps, (ih hMore).1⟩, by
      rw [← h, List.flatMap_cons, ← (ih hMore).2]⟩

/-- **The traces are the texts of the request.** -/
theorem itemTexts_inputItems {turns : List UserLoopStep} (h : inputItems dump turns = .ok items) :
    items.flatMap itemTexts = (textPositions turns).map TextPosition.text := by
  obtain ⟨hSteps, rfl⟩ := inputItems_ok turns h
  simp only [textPositions, List.flatMap_assoc, List.map_flatMap, List.flatMap_append,
    List.map_append, itemTexts_userItems]
  refine List.flatMap_congr fun turn hTurn => congrArg _ (List.flatMap_congr fun step hStep => ?_)
  exact itemTexts_stepItems (hSteps turn hTurn step hStep)

/-! ### What the checks leave -/

/-- A result that is written from its record is written from text. -/
def FallsBackOnText (item : MessageItem) : Prop :=
  toolResultIsReplayedVerbatim item = false → fallsBack item = true →
    ∀ record, item.invokeReturn = some record → IsText record.output

theorem requireInputPart_ok {part : Content} (h : requireInputPart part = .ok ()) :
    OnlyText (partPositions part) := by
  revert h
  unfold requireInputPart partPositions
  cases hModality : part.modality with
  | text =>
    dsimp only
    intro h
    split_ifs at h with hBinary
    exact onlyText_singleton (List.forall_mem_singleton.mpr ⟨hModality, hBinary⟩)
  | image | document => exact fun _ => onlyText_nil
  | audio | video => exact fun h => by cases h

theorem onlyText_resultPositions {item : MessageItem}
    (hParts : toolResultIsReplayedVerbatim item = false →
      ∀ part ∈ item.content, requireInputPart part = .ok ()) :
    OnlyText (resultPositions item) ↔ FallsBackOnText item := by
  revert hParts
  unfold resultPositions FallsBackOnText toolResultIsReplayedVerbatim
  cases item.invokeReturn.bind fun record =>
      capturedItem record.extras "function_call_output" with
  | some captured => simp [onlyText_verbatim]
  | none =>
    simp only [Option.isSome_none, forall_const]
    intro hParts
    by_cases hFalls : fallsBack item = true
    · simp only [hFalls, if_true, forall_const]
      simp [OnlyText, recordPosition]
    · simp only [hFalls, Bool.false_eq_true, if_false, false_implies, iff_true]
      rw [onlyText_flatMap]
      exact fun part hPart => requireInputPart_ok (hParts part hPart)

theorem anyMessage_recorded (items : List Json) :
    ∀ {recorded : List Json}, anyMessage items = .ok true → messageItems items = .ok recorded →
      recorded ≠ [] := by
  induction items with
  | nil =>
    intro recorded hAny
    cases hAny
  | cons item rest ih =>
    intro recorded hAny hRecorded
    obtain ⟨message, hMessage, hRecorded⟩ := bind_ok hRecorded
    obtain ⟨messages, hMessages, hRecorded⟩ := bind_ok hRecorded
    injection hRecorded with hRecorded
    rw [anyMessage, hMessage] at hAny
    cases message with
    | true =>
      rw [← hRecorded]
      simp
    | false =>
      rw [← hRecorded]
      simpa using ih hAny hMessages

theorem onlyText_reasoningPositions {reasoning : Option Content}
    (h : requireReasoning reasoning = .ok ()) :
    OnlyText ((reasoning.map reasoningPositions).getD []) := by
  match reasoning with
  | none => exact onlyText_nil
  | some reasoning =>
    simp only [requireReasoning, Option.map_some, Option.getD_some, reasoningPositions] at h ⊢
    split_ifs at h ⊢
    · rw [onlyText_flatMap]
      exact fun item _ => onlyText_verbatim item
    · exact onlyText_singleton (List.forall_mem_singleton.mpr (requireTextPosition_ok h))

theorem onlyText_messagePositions {response : MessageItem} {recorded : List Json}
    (h : requireMessage response = .ok ())
    (hRecorded : messageItems (outputItems response) = .ok recorded) :
    OnlyText (messagePositions recorded response) := by
  obtain ⟨replayed, hReplayed, h⟩ := bind_ok h
  unfold messagePositions
  split_ifs with hNone hAny
  · rw [onlyText_flatMap]
    exact fun item _ => onlyText_verbatim item
  · cases replayed with
    | true => exact absurd (anyMessage_recorded _ hReplayed hRecorded) hNone
    | false =>
      intro position hMem source hSource
      obtain ⟨part, hPart, rfl⟩ := List.mem_map.mp hMem
      rw [List.mem_singleton.mp hSource]
      exact requireTextPosition_ok (forM_ok h part hPart)
  · exact onlyText_nil

theorem onlyText_callPositions (query : InvokeQuery) : OnlyText (callPositions query) := by
  unfold callPositions
  cases capturedItem query.extras "function_call" with
  | none => exact onlyText_nil
  | some captured => exact onlyText_verbatim captured

/-- **A step that passed the checks** has only its results left to ask about. -/
theorem onlyText_stepPositions {step : AgentLoopStep} (hRequired : requireStep step = .ok ⟨⟩)
    (hItems : stepItems dump step = .ok items) : OnlyText (stepPositions step) ↔
      ∀ item ∈ step.invokeReturns.getD [], FallsBackOnText item := by
  obtain ⟨_, hMessage, hRequired⟩ := bind_ok hRequired
  obtain ⟨_, hReasoning, hReturns⟩ := bind_ok hRequired
  obtain ⟨response, hResponse, -⟩ := bind_ok hItems
  obtain ⟨message, hSent, -⟩ := bind_ok hResponse
  obtain ⟨recorded, hRecorded, -⟩ := bind_ok hSent
  have hSame : (messageItems (outputItems step.modelResponse)).toOption.getD [] = recorded := by
    rw [hRecorded]
    rfl
  have hMessages := onlyText_messagePositions hMessage hRecorded
  have hThoughts := onlyText_reasoningPositions hReasoning
  have hCalls : OnlyText ((step.modelResponse.invokes.getD []).flatMap callPositions) := by
    rw [onlyText_flatMap]
    exact fun query _ => onlyText_callPositions query
  rw [stepPositions, hSame, onlyText_append, onlyText_append, onlyText_append,
    onlyText_flatMap resultPositions]
  simp only [hMessages, hThoughts, hCalls, true_and]
  refine forall₂_congr fun item hItem => onlyText_resultPositions ?_
  intro hFresh part hPart
  have hChecked := forM_ok hReturns item hItem
  rw [requireResult, if_neg (by simp [hFresh])] at hChecked
  exact forM_ok hChecked part hPart

theorem onlyText_userPositions {item : MessageItem}
    (h : ∀ part ∈ item.content, requireInputPart part = .ok ()) :
    OnlyText (userPositions item) ↔ (item.type = .invokeReturn → FallsBackOnText item) := by
  unfold userPositions
  by_cases hResult : item.type = .invokeReturn
  · rw [if_pos hResult, onlyText_resultPositions fun _ => h]
    simp [hResult]
  · rw [if_neg hResult, onlyText_flatMap]
    simp only [hResult, false_implies, iff_true]
    exact fun part hPart => requireInputPart_ok (h part hPart)

/-- **A conversation that passed the checks** has only text in its text positions exactly
when its results fall back on text. -/
theorem onlyText_textPositions {state : AgentInputState}
    (hRequired : requireSupportedConversation state = .ok ())
    (hItems : inputItems dump state.turns = .ok items) : OnlyText (textPositions state.turns) ↔
      ∀ item ∈ resultsOf state.turns, FallsBackOnText item := by
  rw [textPositions, onlyText_flatMap, forall_mem_resultsOf]
  refine forall₂_congr fun turn hTurn => ?_
  obtain ⟨_, hUser, hSteps⟩ := bind_ok (forM_ok hRequired turn hTurn)
  rw [onlyText_append, onlyText_userPositions (forM_ok hUser), onlyText_flatMap]
  refine and_congr Iff.rfl (forall₂_congr fun step hStep => ?_)
  exact onlyText_stepPositions (forM_ok hSteps step hStep)
    ((inputItems_ok _ hItems).1 turn hTurn step hStep)

def stepPayload (step : AgentLoopStep) : List Content :=
  (step.modelResponse.reasoning.toList.filter fun part => !reasoningIsReplayedVerbatim part) ++
    (if (assistantIsReplayedVerbatim step.modelResponse).toOption = some true then []
      else step.modelResponse.content) ++
    (step.invokeReturns.getD []).flatMap fun item =>
      if toolResultIsReplayedVerbatim item then [] else resultPayload item

/-- The content of a turn's input. -/
def userPayload (item : MessageItem) : List Content :=
  if item.type ≠ .invokeReturn then item.content
  else if toolResultIsReplayedVerbatim item then [] else resultPayload item

/-- The content that a request is written from. -/
def payload (turns : List UserLoopStep) : List Content :=
  turns.flatMap fun turn => userPayload turn.userInput ++ turn.agentLoopStep.flatMap stepPayload

theorem isMediaPart_inputContentPart {part : Content} (h : requireInputPart part = .ok ()) :
    isMediaPart (inputContentPart part) ↔ ¬IsText part := by
  revert h
  unfold requireInputPart IsText isMediaPart
  rw [type_inputContentPart]
  cases hModality : part.modality with
  | text =>
    intro h
    have hBinary : part.type ≠ .binary := by
      intro hBinary
      simp [hBinary] at h
    simp [mediaPartTypes, hBinary]
  | image | document => exact fun _ => by simp [mediaPartTypes]
  | audio | video => exact fun h => by cases h

theorem mediaSent_field {parts : List Content} {item : Json} {key : String}
    (h : ∀ part ∈ parts, requireInputPart part = .ok ())
    (hFind : item.find? key = some (.arr (inputContent parts))) :
    MediaSent inputContentPart parts (fieldMedia item key) := by
  rw [MediaSent, fieldMedia, hFind, inputContent]
  dsimp only
  rw [filter_isMediaPart fun part hPart => isMediaPart_inputContentPart (h part hPart)]

theorem mediaSent_resultJson {item : MessageItem} (index count : Nat)
    (invokes : Option (List InvokeQuery))
    (hParts : toolResultIsReplayedVerbatim item = false →
      ∀ part ∈ item.content, requireInputPart part = .ok ())
    (hFalls : FallsBackOnText item) :
    MediaSent inputContentPart
      (if toolResultIsReplayedVerbatim item then [] else resultPayload item)
      (itemMedia (resultJson item index count invokes)) := by
  by_cases hReplayed : toolResultIsReplayedVerbatim item = true
  · rw [if_pos hReplayed]
    exact List.nil_sublist _
  rw [if_neg hReplayed]
  have hFresh : toolResultIsReplayedVerbatim item = false := by simpa using hReplayed
  have hNone : (item.invokeReturn.bind fun record =>
      capturedItem record.extras "function_call_output") = none := by
    simpa [toolResultIsReplayedVerbatim] using hFresh
  have hOutput : (resultJson item index count invokes).find? "output" =
      some (resultOutput item) := by
    have hObject : (Json.object [("type", .str "function_call_output")]).IsObject := by simp
    unfold resultJson
    rw [hNone]
    dsimp only
    split_ifs
    · rw [Json.find?_set hObject, if_pos rfl]
    · rw [Json.find?_set (by simp), if_pos rfl]
  have hArray : resultOutput item = .arr (inputContent item.content) →
      MediaSent inputContentPart item.content (itemMedia (resultJson item index count invokes)) := by
    intro hSame
    have hSent := mediaSent_field (hParts hFresh) (hOutput.trans (congrArg some hSame))
    exact List.Sublist.trans hSent (List.sublist_append_right _ _)
  match hContent : item.content with
  | [] =>
    refine mediaSent_nil _ (fun part hPart => ?_) _
    obtain ⟨record, hRecord, rfl⟩ : ∃ record, item.invokeReturn = some record ∧
        record.output = part := by
      simpa [resultPayload, hContent] using hPart
    exact hFalls hFresh (by simp [fallsBack, hContent]) record hRecord
  | [part] =>
    rw [resultPayload, if_neg (by simp [hContent])]
    by_cases hText : part.modality = .text
    · refine mediaSent_nil _ (fun source hSource => ?_) _
      rw [hContent, List.mem_singleton] at hSource
      have hChecked := requireInputPart_ok (hParts hFresh part (by simp [hContent]))
      rw [hSource]
      exact hChecked ⟨part.raw, [part]⟩ (by simp [partPositions, hText]) part (by simp)
    · exact hArray (by simp [resultOutput, hContent, hText])
  | first :: second :: rest =>
    rw [resultPayload, if_neg (by simp [hContent])]
    exact hArray (by simp [resultOutput, hContent])

theorem mediaSent_emitToolResults {results : List MessageItem}
    (invokes : Option (List InvokeQuery))
    (hParts : ∀ item ∈ results, toolResultIsReplayedVerbatim item = false →
      ∀ part ∈ item.content, requireInputPart part = .ok ())
    (hFalls : ∀ item ∈ results, FallsBackOnText item) :
    MediaSent inputContentPart
      (results.flatMap fun item =>
        if toolResultIsReplayedVerbatim item then [] else resultPayload item)
      ((emitToolResults results invokes).flatMap itemMedia) := by
  have hPayload := List.flatMap_map (Prod.fst : MessageItem × Nat → MessageItem)
    (fun item => if toolResultIsReplayedVerbatim item then [] else resultPayload item)
    results.zipIdx
  rw [List.zipIdx_map_fst] at hPayload
  rw [emitToolResults, List.flatMap_map, hPayload]
  exact MediaSent.flatMap results.zipIdx fun entry hEntry =>
    mediaSent_resultJson entry.2 results.length invokes
      (hParts entry.1 (List.fst_mem_of_mem_zipIdx hEntry))
      (hFalls entry.1 (List.fst_mem_of_mem_zipIdx hEntry))

/-- **A step that passed the checks** sends its media when its results fall back on text. -/
theorem mediaSent_stepItems {step : AgentLoopStep} (hRequired : requireStep step = .ok ⟨⟩)
    (hItems : stepItems dump step = .ok items)
    (hFalls : ∀ item ∈ step.invokeReturns.getD [], FallsBackOnText item) :
    MediaSent inputContentPart (stepPayload step) (items.flatMap itemMedia) := by
  obtain ⟨_, hMessage, hRequired⟩ := bind_ok hRequired
  obtain ⟨_, hReasoning, hReturns⟩ := bind_ok hRequired
  obtain ⟨response, -, hItems⟩ := bind_ok hItems
  injection hItems with hItems
  rw [← hItems, List.flatMap_append]
  refine MediaSent.append (mediaSent_nil _ (fun part hPart => ?_) _) ?_
  · rcases List.mem_append.mp hPart with hPart | hPart
    · obtain ⟨hPart, hFresh⟩ := List.mem_filter.mp hPart
      have hSome : step.modelResponse.reasoning = some part := by simpa using hPart
      rw [hSome, requireReasoning, if_neg (by simpa using hFresh)] at hReasoning
      exact requireTextPosition_ok hReasoning
    · obtain ⟨replayed, hReplayed, hMessage⟩ := bind_ok hMessage
      cases replayed with
      | true => simp [hReplayed, Except.toOption] at hPart
      | false =>
        rw [if_neg (by simp [hReplayed, Except.toOption])] at hPart
        exact requireTextPosition_ok (forM_ok hMessage part hPart)
  · refine mediaSent_emitToolResults _ (fun item hItem hFresh part hPart => ?_) hFalls
    have hChecked := forM_ok hReturns item hItem
    rw [requireResult, if_neg (by simp [hFresh])] at hChecked
    exact forM_ok hChecked part hPart

theorem mediaSent_userItems {item : MessageItem}
    (h : ∀ part ∈ item.content, requireInputPart part = .ok ())
    (hFalls : item.type = .invokeReturn → FallsBackOnText item) :
    MediaSent inputContentPart (userPayload item) ((userItems item).flatMap itemMedia) := by
  unfold userPayload userItems
  by_cases hResult : item.type = .invokeReturn
  · rw [if_neg (not_not.mpr hResult), if_pos hResult]
    have hOne : ∀ other ∈ [item], other = item := fun other hOther => List.mem_singleton.mp hOther
    have hSent := mediaSent_emitToolResults none
      (fun other hOther _ => by rwa [hOne other hOther])
      fun other hOther => (hOne other hOther).symm ▸ hFalls hResult
    simpa using hSent
  · rw [if_pos hResult, if_neg hResult, List.flatMap_singleton]
    have hFind : (emitMessageItem item).find? "content" =
        some (.arr (inputContent item.content)) := by
      simp [emitMessageItem]
    have hField := mediaSent_field h hFind
    exact List.Sublist.trans hField (List.sublist_append_left _ _)

/-- **A conversation that passed the checks** sends what is not text in its own form. -/
theorem mediaSent_inputItems {turns : List UserLoopStep} (h : inputItems dump turns = .ok items)
    (hRequired : ∀ turn ∈ turns, (∀ part ∈ turn.userInput.content, requireInputPart part = .ok ()) ∧
      ∀ step ∈ turn.agentLoopStep, requireStep step = .ok ⟨⟩)
    (hFalls : ∀ item ∈ resultsOf turns, FallsBackOnText item) :
    MediaSent inputContentPart (payload turns) (items.flatMap itemMedia) := by
  rw [forall_mem_resultsOf] at hFalls
  obtain ⟨hSteps, rfl⟩ := inputItems_ok turns h
  rw [payload, List.flatMap_assoc]
  refine MediaSent.flatMap turns fun turn hTurn => ?_
  rw [List.flatMap_append, List.flatMap_assoc]
  refine (mediaSent_userItems (hRequired turn hTurn).1 (hFalls turn hTurn).1).append ?_
  refine MediaSent.flatMap turn.agentLoopStep fun step hStep => ?_
  exact mediaSent_stepItems ((hRequired turn hTurn).2 step hStep) (hSteps turn hTurn step hStep)
    ((hFalls turn hTurn).2 step hStep)

end Responses

namespace Chat

/-! ## The chat request -/

def partPositions (part : Content) : List TextPosition :=
  if part.modality = .image then [] else [⟨part.raw, [part]⟩]

/-- The texts of a user's message; an empty one is an empty text. -/
def inputPositions : List Content → List TextPosition
  | [] => [⟨"", []⟩]
  | parts => parts.flatMap partPositions

/-- The content a result is written from. -/
def toolSources (item : MessageItem) : List Content :=
  match item.content, item.invokeReturn with
  | [], some record => if record.query.id = "" then [] else [record.output]
  | content, _ => content

/-- The texts of a turn's input. -/
def userPositions (item : MessageItem) : List TextPosition :=
  if item.type = .invokeReturn then [⟨toolText item, toolSources item⟩]
  else inputPositions item.content

def assistantPositions (replayReasoning : Bool) (response : MessageItem) : List TextPosition :=
  (if assistantText response.content = "" ∧ (assistantRefusal response.content ≠ "" ∨
      response.invokes.getD [] ≠ []) then []
    else [⟨assistantText response.content, response.content⟩]) ++
  (if replayedReasoning replayReasoning response = "" then []
    else [⟨replayedReasoning replayReasoning response, response.reasoning.toList⟩])

def stepPositions (replayReasoning : Bool) (step : AgentLoopStep) : List TextPosition :=
  assistantPositions replayReasoning step.modelResponse ++
    (step.invokeReturns.getD []).map fun item => ⟨toolText item, toolSources item⟩

def textPositions (replayReasoning : Bool) (turns : List UserLoopStep) : List TextPosition :=
  turns.flatMap fun turn =>
    userPositions turn.userInput ++ turn.agentLoopStep.flatMap (stepPositions replayReasoning)

theorem partTexts_userContentPart (part : Content) :
    partTexts (userContentPart part) = (partPositions part).map TextPosition.text := by
  unfold userContentPart partPositions
  split_ifs
  · simp [partTexts, Responses.getString, textPartTypes]
  · simp [partTexts, Responses.getString, textPartTypes]

theorem itemTexts_userMessage (role : String) (content : List Content) :
    itemTexts (Json.object [("role", .str role), ("content", userContent content)]) =
      (inputPositions content).map TextPosition.text := by
  have hParts : ∀ parts : List Content, (parts.map userContentPart).flatMap partTexts =
      (parts.flatMap partPositions).map TextPosition.text := by
    intro parts
    simp only [List.flatMap_map, List.map_flatMap, partTexts_userContentPart]
  have hFind : (Json.object [("role", .str role), ("content", userContent content)]).find?
      "content" = some (userContent content) := by simp
  have hField : itemTexts (Json.object [("role", .str role), ("content", userContent content)]) =
      fieldTexts (Json.object [("role", .str role), ("content", userContent content)])
        "content" := by
    simp [itemTexts, fieldTexts]
  rw [hField, fieldTexts, hFind]
  cases content with
  | nil => rfl
  | cons first rest =>
    cases rest with
    | nil =>
      by_cases hText : first.modality = .text
      · simp [userContent, hText, inputPositions, partPositions]
      · simp only [userContent, if_neg hText]
        exact hParts [first]
    | cons second rest => exact hParts (first :: second :: rest)

theorem itemTexts_toolMessage (item : MessageItem) (index count : Nat)
    (invokes : Option (List InvokeQuery)) :
    itemTexts (toolMessage item index count invokes) = [toolText item] := by
  unfold toolMessage
  dsimp only
  split_ifs
  · simp [itemTexts, fieldTexts]
  · have hObject : (Json.object [("role", .str "tool"), ("content", .str (toolText item))]).IsObject :=
      by simp
    simp [itemTexts, fieldTexts, Json.find?_set hObject]

theorem itemTexts_emitToolResults (results : List MessageItem)
    (invokes : Option (List InvokeQuery)) :
    (emitToolResults results invokes).flatMap itemTexts = results.map toolText := by
  have hEntries : ∀ (entries : List (MessageItem × Nat)) (count : Nat),
      (entries.map fun entry => toolMessage entry.1 entry.2 count invokes).flatMap itemTexts =
        (entries.map Prod.fst).map toolText := by
    intro entries count
    simp only [List.flatMap_map, List.map_map, itemTexts_toolMessage]
    induction entries with
    | nil => rfl
    | cons entry rest ih => simp [ih]
  rw [emitToolResults, hEntries, List.zipIdx_map_fst]

theorem itemTexts_assistantMessage (dump : Json → String) (replayReasoning : Bool)
    (response : MessageItem) : itemTexts (assistantMessage dump replayReasoning response) =
      (assistantPositions replayReasoning response).map TextPosition.text := by
  simp only [itemTexts, fieldTexts, find?_assistantMessage, assistantPositions]
  simp only [String.reduceEq, false_and, true_and, if_false, if_true, ite_not]
  split_ifs <;> simp

/-- **The traces are the texts of the request.** -/
theorem itemTexts_turnMessages (dump : Json → String) (replayReasoning : Bool)
    (turns : List UserLoopStep) : (turnMessages dump replayReasoning turns).flatMap itemTexts =
      (textPositions replayReasoning turns).map TextPosition.text := by
  have hUser : ∀ item : MessageItem, (emitMessage item).flatMap itemTexts =
      (userPositions item).map TextPosition.text := by
    intro item
    unfold emitMessage userPositions
    split_ifs
    · rw [itemTexts_emitToolResults]
      rfl
    · simp only [List.flatMap_cons, List.flatMap_nil, List.append_nil, itemTexts_userMessage]
  have hStep : ∀ step : AgentLoopStep, (stepMessages dump replayReasoning step).flatMap itemTexts =
        (stepPositions replayReasoning step).map TextPosition.text := by
    intro step
    rw [stepMessages, List.flatMap_cons, itemTexts_assistantMessage, itemTexts_emitToolResults,
      stepPositions, List.map_append, List.map_map]
    rfl
  simp only [turnMessages, textPositions, List.flatMap_assoc, List.flatMap_append,
    List.map_flatMap, List.map_append, hUser, hStep]

/-! ### What the checks leave -/

/-- A result without parts has a record of a text. -/
def FallsBackOnText (item : MessageItem) : Prop :=
  item.content = [] → ∀ record, item.invokeReturn = some record → IsText record.output

theorem requireInputPart_ok {part : Content} (h : requireInputPart part = .ok ()) :
    OnlyText (partPositions part) := by
  revert h
  unfold requireInputPart partPositions
  cases hModality : part.modality with
  | text =>
    dsimp only
    intro h
    split_ifs at h with hBinary
    rw [if_neg (by decide)]
    exact onlyText_singleton (List.forall_mem_singleton.mpr ⟨hModality, hBinary⟩)
  | image => exact fun _ => onlyText_nil
  | document | audio | video => exact fun h => by cases h

theorem onlyText_inputPositions {parts : List Content}
    (h : ∀ part ∈ parts, requireInputPart part = .ok ()) : OnlyText (inputPositions parts) := by
  match parts with
  | [] => exact onlyText_singleton (List.forall_mem_nil _)
  | first :: rest =>
    refine (onlyText_flatMap partPositions (first :: rest)).mpr ?_
    exact fun part hPart => requireInputPart_ok (h part hPart)

theorem onlyText_tool {item : MessageItem} (h : ∀ part ∈ item.content, IsText part)
    (hFalls : FallsBackOnText item) : OnlyText [⟨toolText item, toolSources item⟩] := by
  refine onlyText_singleton fun source hSource => ?_
  unfold toolSources at hSource
  split at hSource
  · rename_i record hContent hRecord
    split_ifs at hSource
    · cases hSource
    · rw [List.mem_singleton.mp hSource]
      exact hFalls hContent record hRecord
  · exact h source hSource

theorem onlyText_assistantPositions {replayReasoning : Bool} {response : MessageItem}
    (hContent : ∀ part ∈ response.content, IsText part)
    (hReasoning : replayReasoning = true → ∀ part ∈ response.reasoning.toList, IsText part) :
    OnlyText (assistantPositions replayReasoning response) := by
  rw [assistantPositions, onlyText_append]
  constructor
  · split_ifs
    · exact onlyText_nil
    · exact onlyText_singleton hContent
  · by_cases hReplay : replayReasoning = true
    · split_ifs
      · exact onlyText_nil
      · exact onlyText_singleton (hReasoning hReplay)
    · simp only [replayedReasoning, hReplay, Bool.false_eq_true, if_false, if_true]
      exact onlyText_nil

theorem requireStep_ok {replayReasoning : Bool} {step : AgentLoopStep}
    (h : requireStep replayReasoning step = .ok ⟨⟩) :
    (∀ part ∈ step.modelResponse.content, IsText part) ∧
      (replayReasoning = true → ∀ part ∈ step.modelResponse.reasoning.toList, IsText part) ∧
      ∀ item ∈ step.invokeReturns.getD [], ∀ part ∈ item.content, IsText part := by
  obtain ⟨_, hContent, hRest⟩ := bind_ok h
  obtain ⟨_, hReasoning, hReturns⟩ := bind_ok hRest
  refine ⟨fun part hPart => requireTextPosition_ok (forM_ok hContent part hPart), ?_, ?_⟩
  · intro hReplay part hPart
    rw [if_pos hReplay] at hReasoning
    exact requireTextPosition_ok (forM_ok hReasoning part hPart)
  · intro item hItem part hPart
    exact requireTextPosition_ok (forM_ok (forM_ok hReturns item hItem) part hPart)

/-- **A conversation that passed the checks** has only text in its text positions when its
results fall back on text. -/
theorem onlyText_textPositions {replayReasoning : Bool} {state : AgentInputState}
    (hRequired : requireSupportedConversation replayReasoning state = .ok ())
    (hFalls : ∀ item ∈ resultsOf state.turns, FallsBackOnText item) :
    OnlyText (textPositions replayReasoning state.turns) := by
  rw [forall_mem_resultsOf] at hFalls
  rw [textPositions, onlyText_flatMap]
  intro turn hTurn
  obtain ⟨_, hUser, hSteps⟩ := bind_ok (forM_ok hRequired turn hTurn)
  rw [onlyText_append, onlyText_flatMap]
  constructor
  · unfold userPositions
    by_cases hResult : turn.userInput.type = .invokeReturn
    · rw [if_pos hResult] at hUser ⊢
      exact onlyText_tool (fun part hPart => requireTextPosition_ok (forM_ok hUser part hPart))
        ((hFalls turn hTurn).1 hResult)
    · rw [if_neg hResult] at hUser ⊢
      exact onlyText_inputPositions (forM_ok hUser)
  · intro step hStep
    obtain ⟨hContent, hReasoning, hReturns⟩ := requireStep_ok (forM_ok hSteps step hStep)
    rw [stepPositions, onlyText_append]
    refine ⟨onlyText_assistantPositions hContent hReasoning, ?_⟩
    intro position hMem
    obtain ⟨item, hItem, rfl⟩ := List.mem_map.mp hMem
    exact onlyText_tool (hReturns item hItem) ((hFalls turn hTurn).2 step hStep item hItem) _
      (List.mem_singleton.mpr rfl)

def stepPayload (replayReasoning : Bool) (step : AgentLoopStep) : List Content :=
  step.modelResponse.content ++
    (if replayReasoning then step.modelResponse.reasoning.toList else []) ++
    (step.invokeReturns.getD []).flatMap resultPayload

/-- The content of a turn's input. -/
def userPayload (item : MessageItem) : List Content :=
  if item.type = .invokeReturn then resultPayload item else item.content

/-- The content that a request is written from. -/
def payload (replayReasoning : Bool) (turns : List UserLoopStep) : List Content :=
  turns.flatMap fun turn =>
    userPayload turn.userInput ++ turn.agentLoopStep.flatMap (stepPayload replayReasoning)

theorem itemMedia_emitToolResults (results : List MessageItem)
    (invokes : Option (List InvokeQuery)) :
    (emitToolResults results invokes).flatMap itemMedia = [] := by
  rw [List.flatMap_eq_nil_iff]
  intro message hMessage
  obtain ⟨entry, -, rfl⟩ := List.mem_map.mp hMessage
  unfold toolMessage
  dsimp only
  split_ifs
  · simp [itemMedia, fieldMedia]
  · have hObject : (Json.object [("role", .str "tool"),
        ("content", .str (toolText entry.1))]).IsObject := by simp
    simp [itemMedia, fieldMedia, Json.find?_set hObject]

theorem itemMedia_assistantMessage (dump : Json → String) (replayReasoning : Bool)
    (response : MessageItem) : itemMedia (assistantMessage dump replayReasoning response) = [] := by
  have hContent : (assistantMessage dump replayReasoning response).find? "content" =
      some (if assistantText response.content = "" ∧
          (assistantRefusal response.content ≠ "" ∨ response.invokes.getD [] ≠ []) then .null
        else .str (assistantText response.content)) := by
    simp [find?_assistantMessage]
  have hOutput : (assistantMessage dump replayReasoning response).find? "output" = none := by
    simp [find?_assistantMessage]
  rw [itemMedia, fieldMedia, fieldMedia, hContent, hOutput]
  split_ifs <;> rfl

theorem itemMedia_userMessage (role : String) {parts : List Content}
    (h : ∀ part ∈ parts, requireInputPart part = .ok ()) :
    itemMedia (Json.object [("role", .str role), ("content", userContent parts)]) =
      (nonText parts).map userContentPart := by
  have hChecked : ∀ part ∈ parts, isMediaPart (userContentPart part) ↔ ¬IsText part := by
    intro part hPart
    have hPart := h part hPart
    unfold userContentPart IsText
    cases hModality : part.modality with
    | image => simp [isMediaPart, Responses.getString, mediaPartTypes]
    | text =>
      have hBinary : part.type ≠ .binary := by
        intro hBinary
        simp [requireInputPart, hModality, hBinary] at hPart
      simp [isMediaPart, Responses.getString, mediaPartTypes, hBinary]
    | _ => simp [requireInputPart, hModality] at hPart
  have hFind : itemMedia (Json.object [("role", .str role), ("content", userContent parts)]) =
      fieldMedia (Json.object [("content", userContent parts)]) "content" := by
    simp [itemMedia, fieldMedia]
  have hArray : fieldMedia (Json.object [("content", .arr (parts.map userContentPart))]) "content" =
      (nonText parts).map userContentPart := by
    rw [← filter_isMediaPart hChecked]
    simp [fieldMedia]
  rw [hFind]
  match parts with
  | [] => rfl
  | [part] =>
    by_cases hText : part.modality = .text
    · have hMedia : isMediaPart (userContentPart part) = false := by
        simp [isMediaPart, userContentPart, hText, Responses.getString, mediaPartTypes]
      rw [nonText_eq_nil.mpr fun other hOther => by
        rw [List.mem_singleton.mp hOther]
        exact not_not.mp fun hNot => by simp [(hChecked part (by simp)).mpr hNot] at hMedia]
      simp [fieldMedia, userContent, hText]
    · rw [userContent, if_neg hText]
      exact hArray
  | first :: second :: rest => exact hArray

/-- What the results fall back on that is not text. -/
def lost (turns : List UserLoopStep) : List Content :=
  (resultsOf turns).flatMap fun item => nonText (resultPayload item)

def PassedChecks (replayReasoning : Bool) (turn : UserLoopStep) : Prop :=
  turn.userInput.content.forM (if turn.userInput.type = .invokeReturn then
      requireText "a tool result" else requireInputPart) = .ok () ∧
    ∀ step ∈ turn.agentLoopStep, requireStep replayReasoning step = .ok ()

theorem nonText_turn (dump : Json → String) {replayReasoning : Bool} {turn : UserLoopStep}
    (h : PassedChecks replayReasoning turn) :
    (nonText (payload replayReasoning [turn])).map userContentPart =
      (turnMessages dump replayReasoning [turn]).flatMap itemMedia ++
        (lost [turn]).map userContentPart := by
  have hSteps : turn.agentLoopStep.flatMap (fun step => nonText (stepPayload replayReasoning step)) =
      turn.agentLoopStep.flatMap fun step =>
        (step.invokeReturns.getD []).flatMap fun item => nonText (resultPayload item) := by
    refine List.flatMap_congr fun step hStep => ?_
    obtain ⟨hContent, hReasoning, -⟩ := requireStep_ok (h.2 step hStep)
    have hThoughts : nonText (if replayReasoning then step.modelResponse.reasoning.toList else []) =
        [] := by
      split_ifs with hReplay
      · exact nonText_eq_nil.mpr (hReasoning hReplay)
      · rfl
    rw [stepPayload, nonText_append, nonText_append, nonText_eq_nil.mpr hContent, hThoughts,
      nonText_flatMap]
    rfl
  have hMedia : turn.agentLoopStep.flatMap (fun step =>
      (stepMessages dump replayReasoning step).flatMap itemMedia) = [] := by
    rw [List.flatMap_eq_nil_iff]
    intro step _
    rw [stepMessages, List.flatMap_cons, itemMedia_emitToolResults, itemMedia_assistantMessage]
    rfl
  simp only [payload, turnMessages, lost, resultsOf, List.flatMap_cons, List.flatMap_nil,
    List.append_nil, nonText_append, nonText_flatMap, List.flatMap_append, List.flatMap_assoc,
    List.map_append, hSteps, hMedia, ← List.append_assoc]
  congr 1
  have hUser := h.1
  unfold userPayload emitMessage
  by_cases hResult : turn.userInput.type = .invokeReturn
  · rw [if_pos hResult, if_pos hResult, if_pos hResult, itemMedia_emitToolResults]
    simp
  · rw [if_neg hResult] at hUser
    rw [if_neg hResult, if_neg hResult, if_neg hResult, List.flatMap_singleton,
      itemMedia_userMessage _ (forM_ok hUser)]
    simp

theorem nonText_payload (dump : Json → String) {replayReasoning : Bool}
    (turns : List UserLoopStep) (h : ∀ turn ∈ turns, PassedChecks replayReasoning turn) :
    (nonText (payload replayReasoning turns)).length =
        ((turnMessages dump replayReasoning turns).flatMap itemMedia).length +
          (lost turns).length ∧
      (lost turns = [] → (nonText (payload replayReasoning turns)).map userContentPart =
        (turnMessages dump replayReasoning turns).flatMap itemMedia) := by
  induction turns with
  | nil => exact ⟨rfl, fun _ => rfl⟩
  | cons turn rest ih =>
    obtain ⟨hCount, hSent⟩ := ih fun t ht => h t (by simp [ht])
    have hTurn := nonText_turn dump (h turn (by simp))
    have hPayload : payload replayReasoning (turn :: rest) =
        payload replayReasoning [turn] ++ payload replayReasoning rest := by
      simp [payload]
    have hMessages : turnMessages dump replayReasoning (turn :: rest) =
        turnMessages dump replayReasoning [turn] ++ turnMessages dump replayReasoning rest := by
      simp [turnMessages]
    have hLost : lost (turn :: rest) = lost [turn] ++ lost rest := by
      simp [lost, resultsOf]
    have hLength := congrArg List.length hTurn
    simp only [List.length_map, List.length_append] at hLength
    rw [hPayload, hMessages, hLost, nonText_append, List.flatMap_append]
    simp only [List.length_append, List.map_append, List.append_eq_nil_iff]
    refine ⟨by omega, fun hNil => ?_⟩
    rw [hTurn, hNil.1, hSent hNil.2]
    simp

/-- **A conversation that passed the checks** sends what is not text in its own form exactly
when its results fall back on text. -/
theorem mediaSent_turnMessages {dump : Json → String} {replayReasoning : Bool}
    {state : AgentInputState}
    (hRequired : requireSupportedConversation replayReasoning state = .ok ()) :
    MediaSent userContentPart (payload replayReasoning state.turns)
        ((turnMessages dump replayReasoning state.turns).flatMap itemMedia) ↔
      ∀ item ∈ resultsOf state.turns, FallsBackOnText item := by
  have hChecked : ∀ turn ∈ state.turns, PassedChecks replayReasoning turn := by
    intro turn hTurn
    obtain ⟨_, hUser, hSteps⟩ := bind_ok (forM_ok hRequired turn hTurn)
    exact ⟨hUser, forM_ok hSteps⟩
  have hParts : ∀ item ∈ resultsOf state.turns, ∀ part ∈ item.content, IsText part := by
    rw [forall_mem_resultsOf]
    refine fun turn hTurn => ⟨fun hResult part hPart => ?_, fun step hStep => ?_⟩
    · have hUser := (hChecked turn hTurn).1
      rw [if_pos hResult] at hUser
      exact requireTextPosition_ok (forM_ok hUser part hPart)
    · exact (requireStep_ok ((hChecked turn hTurn).2 step hStep)).2.2
  have hLost : lost state.turns = [] ↔ ∀ item ∈ resultsOf state.turns, FallsBackOnText item := by
    rw [lost, List.flatMap_eq_nil_iff]
    refine forall₂_congr fun item hItem => ?_
    rw [nonText_eq_nil, resultPayload, FallsBackOnText]
    by_cases hEmpty : item.content = []
    · simp [hEmpty]
    · simpa [hEmpty] using hParts item hItem
  obtain ⟨hCount, hSent⟩ := nonText_payload dump state.turns hChecked
  rw [← hLost]
  constructor
  · intro h
    have hLength := List.Sublist.length_le h
    rw [List.length_map] at hLength
    exact List.eq_nil_of_length_eq_zero (by omega)
  · intro hNil
    rw [MediaSent, hSent hNil]

def systemPositions (state : AgentInputState) : List TextPosition :=
  match state.systemPrompt.render with
  | .ok prompt => if prompt.markdown = "" then [] else [⟨prompt.markdown, []⟩]
  | .error _ => []

end Chat

/-! ## Both requests -/

def Leaves (key : String) (j j' : Json) : Prop :=
  j.IsObject → j'.IsObject ∧ j'.find? key = j.find? key

namespace Leaves

variable {state : AgentInputState}

theorem refl (key : String) (j : Json) : Leaves key j j := fun h => ⟨h, rfl⟩

theorem trans {key : String} {j j' j'' : Json} (h : Leaves key j j') (h' : Leaves key j' j'') :
    Leaves key j j'' := by
  intro hObject
  obtain ⟨hMid, hFind⟩ := h hObject
  obtain ⟨hEnd, hFind'⟩ := h' hMid
  exact ⟨hEnd, hFind'.trans hFind⟩

theorem set {key k : String} (h : key ≠ k) (j value : Json) : Leaves key j (j.set k value) := by
  intro hObject
  exact ⟨by simpa using hObject, by rw [Json.find?_set hObject, if_neg h]⟩

theorem erase {key k : String} (h : key ≠ k) (j : Json) : Leaves key j (eraseKey j k) := by
  intro hObject
  refine ⟨?_, find?_eraseKey j h⟩
  cases j with
  | obj fields => trivial
  | _ => exact absurd hObject (by simp [Json.IsObject])

theorem setDefault {key k : String} (h : key ≠ k) (j value : Json) :
    Leaves key j (Chat.setDefault j k value) := by
  unfold Chat.setDefault
  split_ifs
  · exact refl key j
  · exact set h j value

end Leaves

theorem Responses.leaves_storeDefaults (body : Json) :
    Leaves "input" body (Responses.storeDefaults body) := by
  have hInclude : ∀ (body value : Json), Leaves "input" body (body.set "include" value) :=
    fun _ _ => Leaves.set (by decide) _ _
  unfold storeDefaults
  dsimp only
  split
  · dsimp only
    split_ifs
    · exact Leaves.refl _ _
    · split
      · exact hInclude _ _
      · split_ifs
        · exact Leaves.refl _ _
        · exact hInclude _ _
      · exact Leaves.refl _ _
  · dsimp only
    rw [if_neg Bool.false_ne_true]
    have hStore : Leaves "input" body (body.set "store" (.bool false)) :=
      Leaves.set (by decide) _ _
    apply hStore.trans
    split
    · exact hInclude _ _
    · split_ifs
      · exact Leaves.refl _ _
      · exact hInclude _ _
    · exact Leaves.refl _ _

theorem Chat.leaves_streamSettings (nativeRequest : Bool) (body : Json) :
    Leaves "messages" body (Chat.streamSettings nativeRequest body) := by
  have hOptions : ∀ (body : Json) (value : Json),
      Leaves "messages" body (body.set "stream_options" value) :=
    fun body value => Leaves.set (by decide) body value
  unfold streamSettings
  cases nativeRequest with
  | true =>
    simp only [if_true]
    have hDefaults : Leaves "messages" body
        (setDefault (setDefault body "stream" (.bool true)) "n" (Json.uint 1)) :=
      (Leaves.setDefault (by decide) _ _).trans (Leaves.setDefault (by decide) _ _)
    split
    · exact hDefaults.trans (hOptions _ _)
    · exact hDefaults.trans (hOptions _ _)
    · exact hDefaults
  | false =>
    simp only [Bool.false_eq_true, if_false]
    have hFixed : Leaves "messages" body
        ((body.set "stream" (.bool true)).set "n" (Json.uint 1)) :=
      (Leaves.set (by decide) _ _).trans (Leaves.set (by decide) _ _)
    have hEnvelope : ∀ body : Json,
        Leaves "messages" body (translateReasoningEnvelope body) := by
      intro body
      unfold translateReasoningEnvelope
      split
      · exact Leaves.refl _ _
      · refine Leaves.trans ?_ (Leaves.erase (by decide) _)
        split
        · split_ifs
          · exact Leaves.refl _ _
          · exact Leaves.set (by decide) _ _
        · exact Leaves.refl _ _
    split
    · exact (hFixed.trans (hEnvelope _)).trans (hOptions _ _)
    · exact (hFixed.trans (hEnvelope _)).trans (hOptions _ _)

theorem Responses.requireModel_object {generation : Json}
    (h : Responses.requireModel generation = .ok ()) : generation.IsObject := by
  cases generation with
  | obj fields => trivial
  | _ => simp [requireModel, Json.find?] at h

theorem Responses.buildRequest_ok {dump : Json → String} {generation body : Json}
    (h : Responses.buildRequest dump state generation = .ok body) :
    requireSupportedConversation state = .ok () ∧ ∃ items, inputItems dump state.turns = .ok items ∧
        body.find? "input" = some (.arr items) := by
  obtain ⟨_, hModel, h⟩ := bind_ok h
  obtain ⟨_, hRequired, h⟩ := bind_ok h
  obtain ⟨prompt, -, h⟩ := bind_ok h
  obtain ⟨items, hItems, h⟩ := bind_ok h
  injection h with h
  refine ⟨hRequired, items, hItems, ?_⟩
  have hGeneration := requireModel_object hModel
  have hInstructions : (if prompt.markdown = "" then generation
      else generation.set "instructions" (.str prompt.markdown)).IsObject := by
    split_ifs
    · exact hGeneration
    · simpa using hGeneration
  have hTools : ∀ body : Json, Leaves "input" body (if state.tools = [] then body
      else body.set "tools" (.arr (state.tools.map toolDefinition))) := by
    intro body
    split_ifs
    · exact Leaves.refl _ _
    · exact Leaves.set (by decide) _ _
  have hStream : ∀ body : Json, Leaves "input" body (body.set "stream" (.bool true)) :=
    fun body => Leaves.set (by decide) body _
  have hInput := (Json.isObject_set _ "input" (.arr items)).mpr hInstructions
  have hRest := ((hTools _).trans (hStream _)).trans (leaves_storeDefaults _) hInput
  rw [← h, hRest.2, Json.find?_set hInstructions, if_pos rfl]

theorem Chat.buildRequest_ok {dump : Json → String} {dialect : Chat.ChatCompletionsDialect}
    {generation body : Json} (h : Chat.buildRequest dump dialect state generation = .ok body) :
    ∃ messages, requestMessages dump dialect state = .ok messages ∧
      body.find? "messages" = some (.arr messages) := by
  obtain ⟨_, hModel, h⟩ := bind_ok h
  obtain ⟨messages, hMessages, h⟩ := bind_ok h
  injection h with h
  refine ⟨messages, hMessages, ?_⟩
  have hGeneration := Responses.requireModel_object hModel
  have hTools : ∀ body : Json, Leaves "messages" body
      (if state.tools = [] then eraseKey body "tools"
        else body.set "tools" (.arr (state.tools.map toolDefinition))) := by
    intro body
    split_ifs
    · exact Leaves.erase (by decide) _
    · exact Leaves.set (by decide) _ _
  have hInput := (Json.isObject_set _ "messages" (.arr messages)).mpr hGeneration
  have hRest := (hTools _).trans (leaves_streamSettings dialect.nativeRequest _) hInput
  rw [← h, hRest.2, Json.find?_set hGeneration, if_pos rfl]

def Chat.systemMessages (state : AgentInputState) : List Json :=
  match state.systemPrompt.render with
  | .ok prompt => if prompt.markdown = "" then []
      else [Json.object [("role", .str "system"), ("content", .str prompt.markdown)]]
  | .error _ => []

theorem Chat.itemTexts_systemMessages : (Chat.systemMessages state).flatMap itemTexts =
    (systemPositions state).map TextPosition.text := by
  unfold Chat.systemMessages systemPositions
  cases state.systemPrompt.render with
  | ok prompt =>
    dsimp only
    split_ifs
    · rfl
    · simp [itemTexts, fieldTexts]
  | error e => rfl

theorem Chat.itemMedia_systemMessages : (Chat.systemMessages state).flatMap itemMedia = [] := by
  unfold Chat.systemMessages
  cases state.systemPrompt.render with
  | ok prompt =>
    dsimp only
    split_ifs
    · rfl
    · simp [itemMedia, fieldMedia]
  | error e => rfl

theorem Chat.requestMessages_ok {dump : Json → String} {dialect : Chat.ChatCompletionsDialect}
    {messages : List Json} (h : requestMessages dump dialect state = .ok messages) :
    requireSupportedConversation dialect.replayAssistantReasoning state = .ok () ∧
      messages = Chat.systemMessages state ++
        turnMessages dump dialect.replayAssistantReasoning state.turns := by
  obtain ⟨_, hRequired, h⟩ := bind_ok h
  obtain ⟨prompt, hPrompt, h⟩ := bind_ok h
  injection h with h
  refine ⟨hRequired, ?_⟩
  rw [← h, Chat.systemMessages]
  cases hRendered : state.systemPrompt.render with
  | ok rendered =>
    rw [hRendered] at hPrompt
    injection hPrompt with hSame
    rw [← hSame]
  | error e =>
    rw [hRendered] at hPrompt
    cases hPrompt

/-- **Text positions hold text, and what is not text is sent in its own form, exactly when no
result falls back on something else.** Every text of a request that is built is traced to the
content it was written from. -/
theorem text_positions_hold_text_iff (dump : Json → String)
    (dialect : Chat.ChatCompletionsDialect) (state : AgentInputState) (generation : Json) :
    (∀ body, Responses.buildRequest dump state generation = .ok body → requestTexts body "input" =
          (Responses.textPositions state.turns).map TextPosition.text ∧
        (OnlyText (Responses.textPositions state.turns) ∧
            MediaSent Responses.inputContentPart (Responses.payload state.turns)
              (requestMedia body "input") ↔
          ∀ item ∈ resultsOf state.turns, Responses.FallsBackOnText item)) ∧
    (∀ body, Chat.buildRequest dump dialect state generation = .ok body →
      requestTexts body "messages" = (Chat.systemPositions state ++
            Chat.textPositions dialect.replayAssistantReasoning state.turns).map
              TextPosition.text ∧
        (OnlyText (Chat.systemPositions state ++
            Chat.textPositions dialect.replayAssistantReasoning state.turns) ∧
            MediaSent Chat.userContentPart
              (Chat.payload dialect.replayAssistantReasoning state.turns)
              (requestMedia body "messages") ↔
          ∀ item ∈ resultsOf state.turns, Chat.FallsBackOnText item)) := by
  constructor
  · intro body h
    obtain ⟨hRequired, items, hItems, hFind⟩ := Responses.buildRequest_ok h
    refine ⟨by simp only [requestTexts, hFind, Responses.itemTexts_inputItems hItems], ?_⟩
    rw [Responses.onlyText_textPositions hRequired hItems, and_iff_left_iff_imp]
    intro hFalls
    simp only [requestMedia, hFind]
    refine Responses.mediaSent_inputItems hItems (fun turn hTurn => ?_) hFalls
    obtain ⟨_, hUser, hSteps⟩ := bind_ok (forM_ok hRequired turn hTurn)
    exact ⟨forM_ok hUser, forM_ok hSteps⟩
  · intro body h
    obtain ⟨messages, hMessages, hFind⟩ := Chat.buildRequest_ok h
    obtain ⟨hRequired, rfl⟩ := Chat.requestMessages_ok hMessages
    refine ⟨?_, ?_⟩
    · simp only [requestTexts, hFind, List.flatMap_append, List.map_append,
        Chat.itemTexts_systemMessages, Chat.itemTexts_turnMessages]
    · have hMedia : requestMedia body "messages" =
          (Chat.turnMessages dump dialect.replayAssistantReasoning state.turns).flatMap
            itemMedia := by
        simp only [requestMedia, hFind, List.flatMap_append, Chat.itemMedia_systemMessages,
          List.nil_append]
      rw [hMedia, Chat.mediaSent_turnMessages hRequired, and_iff_right_iff_imp]
      intro hFalls
      rw [onlyText_append]
      refine ⟨?_, Chat.onlyText_textPositions hRequired hFalls⟩
      unfold Chat.systemPositions
      split
      · split_ifs
        · exact onlyText_nil
        · exact onlyText_singleton (List.forall_mem_nil _)
      · exact onlyText_nil

/-- A conversation with one call and its result, which has no text of its own. -/
def recordState (output : Content) : AgentInputState where
  turns := [{
    userInput := { content := [{ raw := "draw" }] }
    agentLoopStep := [{
      modelResponse :=
        { type := .modelResponse, content := [{ raw := "" }],
          invokes := some [{ id := "c", name := "plot" }] }
      invokeReturns := some [
        { type := .invokeReturn, role := "tool",
          invokeReturn := some { query := { id := "c", name := "plot" }, output := output } }] }] }]

def sampleGeneration : Json := Json.object [("model", .str "m")]

def dumpEmpty (_ : Json) : String := "\x7b\x7d"

def pictureLink : Content := { type := .externalRef, raw := "https://h/p.png", modality := .image }

def pictureState : AgentInputState where
  turns := [{
    userInput := { content := [{ raw := "look" }, pictureLink] }
    agentLoopStep := [{
      modelResponse :=
        { type := .modelResponse, content := [{ raw := "" }],
          invokes := some [{ id := "c", name := "plot" }, { id := "d", name := "plot" }] }
      invokeReturns := some [
        { type := .invokeReturn, role := "tool",
          invokeReturn := some
            { query := { id := "c", name := "plot" }, output := { raw := "done" } } },
        { type := .invokeReturn, role := "tool", content := [{ raw := "a plot" }],
          invokeReturn := some
            { query := { id := "d", name := "plot" }, output := pictureLink } }] }] }]

/-- The picture is sent by its address, and every text is one. -/
theorem text_positions_hold_text_sample :
    (∃ body, Responses.buildRequest dumpEmpty pictureState sampleGeneration = .ok body ∧
      OnlyText (Responses.textPositions pictureState.turns) ∧
      MediaSent Responses.inputContentPart (Responses.payload pictureState.turns)
        (requestMedia body "input")) ∧
    ∃ body, Chat.buildRequest dumpEmpty {} pictureState sampleGeneration = .ok body ∧
      OnlyText (Chat.systemPositions pictureState ++
        Chat.textPositions false pictureState.turns) ∧
      MediaSent Chat.userContentPart (Chat.payload false pictureState.turns)
        (requestMedia body "messages") := by
  obtain ⟨hResponses, hChat⟩ :=
    text_positions_hold_text_iff dumpEmpty {} pictureState sampleGeneration
  constructor
  · have hSome : (Responses.buildRequest dumpEmpty pictureState sampleGeneration).isOk = true := by
      decide +kernel
    cases hBody : Responses.buildRequest dumpEmpty pictureState sampleGeneration with
    | error what =>
      rw [hBody] at hSome
      cases hSome
    | ok body =>
      refine ⟨body, rfl, (hResponses body hBody).2.mpr ?_⟩
      simp [pictureState, resultsOf, Responses.FallsBackOnText, Responses.fallsBack, IsText]
  · have hSome : (Chat.buildRequest dumpEmpty {} pictureState sampleGeneration).isOk = true := by
      decide +kernel
    cases hBody : Chat.buildRequest dumpEmpty {} pictureState sampleGeneration with
    | error what =>
      rw [hBody] at hSome
      cases hSome
    | ok body =>
      refine ⟨body, rfl, (hChat body hBody).2.mpr ?_⟩
      simp [pictureState, resultsOf, Chat.FallsBackOnText, IsText]

def picture : Content := { type := .binary, raw := "iVBORw0KGgo=", modality := .image }

/-- **A picture in a text position**: both interpreters accept the conversation, and send the
bytes of the picture as the text of the result. -/
theorem picture_sent_as_text :
    (Responses.buildRequest dumpEmpty (recordState picture) sampleGeneration).map
        (requestTexts · "input") = .ok ["draw", "iVBORw0KGgo="] ∧
      ¬OnlyText (Responses.textPositions (recordState picture).turns) ∧
      (Chat.buildRequest dumpEmpty {} (recordState picture) sampleGeneration).map
        (requestTexts · "messages") = .ok ["draw", "iVBORw0KGgo="] ∧
      ¬OnlyText (Chat.textPositions false (recordState picture).turns) := by
  refine ⟨by decide +kernel, ?_, by decide +kernel, ?_⟩
  · intro h
    exact absurd (h ⟨"iVBORw0KGgo=", [picture]⟩ (by simp [Responses.textPositions, recordState,
      Responses.stepPositions, Responses.resultPositions, Responses.fallsBack,
      Responses.recordPosition, Responses.recordText, Responses.capturedItem, picture]) picture
      (by simp)).1 (by decide)
  · intro h
    exact absurd (h ⟨"iVBORw0KGgo=", [picture]⟩ (by simp [Chat.textPositions, recordState,
      Chat.stepPositions, Chat.toolText, Chat.toolSources, picture]) picture (by simp)).1
      (by decide)

end SimplexAgent.Llm
