import SimplexAgent.Llm.ChatRecut
import SimplexAgent.Llm.ResponsesNames
import SimplexAgent.Loop.History

/-!
# The calls of a completed response

The loop refuses a response with an unnamed call, a call without an id, or two
calls with one id. What it refuses has been paid for, so a reader that declares
a response complete should have refused it first.

The chat reader does: a stream that declares success is checked before anything
is published. The Responses reader publishes what its slots hold. Both order the
calls by the index of the stream; whether the loop takes the calls of the second
is up to the events that named them: for every item, the latest that says its call id
and its name.
-/

namespace SimplexAgent.Llm

open Dataclass
open Loop (Failure validateCallIds validateCalls refuse)

/-! ## What the loop accepts -/

theorem validateCallIds_ok_iff (calls : List InvokeQuery) :
    ∀ seen : List String, validateCallIds seen calls = .ok () ↔
      (∀ call ∈ calls, call.id ≠ "" ∧ call.name ≠ "") ∧
        (calls.map InvokeQuery.id).Nodup ∧ ∀ call ∈ calls, call.id ∉ seen := by
  induction calls with
  | nil => intro seen; simp [validateCallIds]
  | cons call rest ih =>
    intro seen
    rw [validateCallIds]
    by_cases hBad : call.id = "" ∨ call.name = "" ∨ call.id ∈ seen
    · rw [if_pos hBad]
      have hNot : ¬((∀ c ∈ call :: rest, c.id ≠ "" ∧ c.name ≠ "") ∧
          ((call :: rest).map InvokeQuery.id).Nodup ∧ ∀ c ∈ call :: rest, c.id ∉ seen) := by
        rintro ⟨hNamed, -, hNew⟩
        have hHead := hNamed call (by simp)
        rcases hBad with hId | hName | hSeen
        · exact hHead.1 hId
        · exact hHead.2 hName
        · exact hNew call (by simp) hSeen
      simp only [hNot, iff_false]
      exact fun h => by cases h
    · rw [if_neg hBad, ih]
      simp only [not_or] at hBad
      simp only [List.mem_cons, forall_eq_or_imp, List.map_cons, List.nodup_cons, List.mem_map,
        not_or, not_exists, not_and]
      constructor
      · rintro ⟨hNamed, hNodup, hNew⟩
        exact ⟨⟨⟨hBad.1, hBad.2.1⟩, hNamed⟩, ⟨fun c hc => (hNew c hc).1, hNodup⟩, hBad.2.2,
          fun c hc => (hNew c hc).2⟩
      · rintro ⟨⟨-, hNamed⟩, ⟨hFresh, hNodup⟩, -, hNew⟩
        exact ⟨hNamed, hNodup, fun c hc => ⟨hFresh c hc, hNew c hc⟩⟩

theorem validateCalls_ok_iff (item : MessageItem) : validateCalls item = .ok () ↔
      (∀ call ∈ item.invokes.getD [], call.id ≠ "" ∧ call.name ≠ "") ∧
        ((item.invokes.getD []).map InvokeQuery.id).Nodup := by
  rw [validateCalls, validateCallIds_ok_iff]
  simp

/-! ## The chat reader -/

namespace Chat

variable {parse : String → Option Json}

theorem checkIdentities_ok (entries : List (Nat × ToolCallState)) :
    ∀ received : List (String × Nat), checkIdentities received entries = .ok () →
      validateCallIds (received.map Prod.fst)
        (entries.map fun entry => queryOf parse entry.1 entry.2) = .ok () := by
  induction entries with
  | nil => exact fun received _ => rfl
  | cons entry rest ih =>
    intro received hOk
    obtain ⟨index, call⟩ := entry
    rw [checkIdentities] at hOk
    by_cases hEmpty : call.id = "" ∨ call.name = ""
    · rw [if_pos hEmpty] at hOk
      cases hOk
    · rw [if_neg hEmpty] at hOk
      cases hLookup : received.lookup call.id with
      | some first =>
        rw [hLookup] at hOk
        cases hOk
      | none =>
        rw [hLookup] at hOk
        have hNew : call.id ∉ received.map Prod.fst := by
          intro hMem
          obtain ⟨⟨id, first⟩, hEntry, hId⟩ := List.mem_map.mp hMem
          have hOther := List.lookup_eq_none_iff.mp hLookup _ hEntry
          simp only at hId
          simp [hId] at hOther
        have hHead : ¬((queryOf parse index call).id = "" ∨ (queryOf parse index call).name = "" ∨
            (queryOf parse index call).id ∈ received.map Prod.fst) := by
          simp only [queryOf]
          tauto
        rw [List.map_cons, validateCallIds, if_neg hHead]
        exact ih _ hOk

def Checked (parse : String → Option Json) (reader : ChatCompletionsReader) : Prop :=
  reader.done = true ∧ reader.response = assembleMessage parse reader.toAccumulated ∧
    checkIdentities [] reader.toolCalls.toList = .ok ()

namespace ChatCompletionsReader

theorem assemble_checked (reader : ChatCompletionsReader)
    (hStatus : (reader.assemble parse).status = .completed) :
    Checked parse (reader.assemble parse) := by
  revert hStatus
  unfold assemble
  by_cases hCompleted : reader.status = .completed
  · rw [if_pos hCompleted]
    cases hCheck : checkIdentities [] reader.toolCalls.toList with
    | error what =>
      intro hStatus
      cases hStatus
    | ok _ => exact fun _ => ⟨rfl, rfl, hCheck⟩
  · rw [if_neg hCompleted]
    exact fun hStatus => absurd hStatus hCompleted

theorem next_checked {reader : ChatCompletionsReader} (delta : ChatCompletionsDelta)
    (hReader : reader.status = .completed → Checked parse reader)
    (hStatus : (reader.next parse delta).status = .completed) :
    Checked parse (reader.next parse delta) := by
  revert hStatus
  by_cases hDone : reader.done = true
  · simp only [next, if_pos hDone]
    exact hReader
  · have hOpen : reader.status ≠ .completed := fun h => hDone (hReader h).1
    simp only [next, if_neg hDone]
    split_ifs with hFault hTerminal
    · intro hStatus
      cases hProtocol : delta.protocolError with
      | some what => simp [accumulate, hProtocol] at hStatus
      | none => simp [accumulate, hProtocol, hDone] at hFault
    · exact assemble_checked _
    · intro hStatus
      cases hProtocol : delta.protocolError with
      | some what => simp [accumulate, hProtocol] at hStatus
      | none =>
        simp only [isTerminal, Bool.or_eq_true, not_or] at hTerminal
        simp [accumulate, hProtocol, hTerminal.1, hTerminal.2] at hStatus
        exact absurd hStatus hOpen

theorem foldl_checked (deltas : List ChatCompletionsDelta) :
    ∀ reader : ChatCompletionsReader, (reader.status = .completed → Checked parse reader) →
      (deltas.foldl (next parse) reader).status = .completed →
      Checked parse (deltas.foldl (next parse) reader) := by
  induction deltas with
  | nil => exact fun reader h => h
  | cons delta rest ih => exact fun reader h => ih _ (next_checked delta h)

theorem status_of_finalStatus {reader : ChatCompletionsReader}
    (h : reader.finalStatus = .completed) : reader.status = .completed := by
  revert h
  unfold finalStatus
  split_ifs
  · exact fun h => by cases h
  · exact id

theorem consume_assembled {dialect : ChatCompletionsDialect}
    {messages : List (List (String × String))}
    (hStatus : (consume parse dialect messages).finalStatus = .completed) :
    (consume parse dialect messages).response =
      assembleMessage parse (consume parse dialect messages).toAccumulated := by
  have hCompleted := status_of_finalStatus hStatus
  exact (foldl_checked _ {} (fun h => by cases h) hCompleted).2.1

/-- **A complete chat response is one the loop accepts**, with its calls by index. -/
theorem consume_accepted (dialect : ChatCompletionsDialect)
    (messages : List (List (String × String)))
    (hStatus : (consume parse dialect messages).finalStatus = .completed) :
    validateCalls (consume parse dialect messages).response = .ok () ∧
      (consume parse dialect messages).response.invokes.getD [] =
        (consume parse dialect messages).toolCalls.toList.map
          (fun entry => queryOf parse entry.1 entry.2) ∧
      (consume parse dialect messages).toolCalls.toList.Pairwise fun a b => a.1 < b.1 := by
  have hCompleted := status_of_finalStatus hStatus
  obtain ⟨-, hResponse, hCheck⟩ := foldl_checked _ {} (fun h => by cases h) hCompleted
  have hCalls : (consume parse dialect messages).response.invokes.getD [] =
      (consume parse dialect messages).toolCalls.toList.map
        (fun entry => queryOf parse entry.1 entry.2) := by
    change (MessageItem.invokes (List.foldl (next parse) {} _).response).getD [] = _
    rw [hResponse]
    by_cases hEmpty : (List.foldl (next parse) {}
        (messages.map (handleMessage parse dialect))).toolCalls.isEmpty = true
    · have hNone := Std.ExtTreeMap.isEmpty_iff.mp hEmpty
      simp [assembleMessage, consume, drain, hNone]
    · simp only [assembleMessage, if_neg hEmpty, Option.getD_some]
      rfl
  refine ⟨?_, hCalls, ?_⟩
  · rw [validateCalls, hCalls]
    exact checkIdentities_ok _ [] hCheck
  · exact Std.ExtTreeMap.ordered_keys_toList.imp fun h => Nat.compare_eq_lt.mp h

end ChatCompletionsReader

end Chat

/-! ## The Responses reader -/

namespace Responses

variable {parse : String → Option Json}

def isCall (item : ItemContent) : Bool :=
  item.type = "function_call" ∨
    (item.type = "" ∧ (item.callId ≠ "" ∨ item.name ≠ "" ∨ item.arguments ≠ ""))

namespace ResponsesReader

theorem assembleItem_invokes (acc : Assembly) (item : ItemContent) :
    (assembleItem parse acc item).invokes =
      acc.invokes ++ if isCall item then [callOf parse item] else [] := by
  by_cases hMessage : item.type = "message"
  · simp [assembleItem, isCall, hMessage, asMessage]
  · by_cases hReasoning : item.type = "reasoning"
    · simp [assembleItem, isCall, hReasoning, asReasoning]
    · by_cases hFunction : item.type = "function_call"
      · simp [assembleItem, isCall, hFunction, asCall]
      · by_cases hUntyped : item.type = ""
        · by_cases hCall : item.callId ≠ "" ∨ item.name ≠ "" ∨ item.arguments ≠ ""
          · simp only [assembleItem, isCall, hUntyped, hCall, asCall]
            simp
          · simp only [assembleItem, isCall, hUntyped, hCall]
            split_ifs <;> simp_all [asMessage, asReasoning]
        · simp [assembleItem, isCall, hMessage, hReasoning, hFunction, hUntyped]

theorem foldl_assembleItem_invokes (items : List ItemContent) :
    ∀ acc : Assembly, (items.foldl (assembleItem parse) acc).invokes =
      acc.invokes ++ (items.filter isCall).map (callOf parse) := by
  induction items with
  | nil => exact fun acc => (List.append_nil _).symm
  | cons item rest ih =>
    intro acc
    rw [List.foldl_cons, ih, assembleItem_invokes]
    by_cases hCall : isCall item = true
    · simp [hCall]
    · simp [hCall]

theorem run_slots (events : List Json) :
    ∀ (reader : ResponsesReader) (ts : List Touch), reader.done = false →
      reader.toItemSlots = ts.foldl ItemSlots.touch {} →
      (run parse reader events).toItemSlots =
        (ts ++ OutputItems.streamTouches events).foldl ItemSlots.touch {} := by
  induction events with
  | nil =>
    intro reader ts _ hSlots
    simp only [OutputItems.streamTouches, OutputItems.consumed, List.flatMap_nil, List.append_nil]
    exact hSlots
  | cons event rest ih =>
    intro reader ts hOpen hSlots
    have hAfter : (reader.accumulate (decode event)).toItemSlots =
        (ts ++ touches event).foldl ItemSlots.touch {} := by
      rw [accumulate_event, afterEvent, List.foldl_append, ← hSlots]
    by_cases hEnd : isTerminal (decode event) = true
    · rw [run_cons_terminal hOpen hEnd]
      simp only [OutputItems.streamTouches, OutputItems.consumed, if_pos hEnd,
        List.flatMap_cons, List.flatMap_nil, List.append_nil]
      exact hAfter
    · have hOpen' : (reader.accumulate (decode event)).done = false := by
        rw [accumulate_event]
        exact hOpen
      rw [run_cons_open hOpen hEnd, ih _ _ hOpen' hAfter]
      simp [OutputItems.streamTouches, OutputItems.consumed, hEnd]

theorem run_response (events : List Json) : ∀ reader : ResponsesReader, reader.done = false →
      (run parse reader events).response =
        if events.any fun event => isTerminal (decode event) then
          assembleMessage parse (run parse reader events).toResponseFields
            ((run parse reader events).ordered.map ItemState.toItemContent)
        else reader.response := by
  induction events with
  | nil => exact fun reader _ => rfl
  | cons event rest ih =>
    intro reader hOpen
    by_cases hEnd : isTerminal (decode event) = true
    · rw [run_cons_terminal hOpen hEnd]
      simp [hEnd, assemble]
    · have hOpen' : (reader.accumulate (decode event)).done = false := by
        rw [accumulate_event]
        exact hOpen
      rw [run_cons_open hOpen hEnd, ih _ hOpen', List.any_cons]
      have hSame : (reader.accumulate (decode event)).response = reader.response := by
        rw [accumulate_event]
        rfl
      simp [hEnd, hSame]

end ResponsesReader

def callSlots (events : List Json) : List ItemState :=
  if events.any fun event => isTerminal (decode event) then
    ItemSlots.ordered ((OutputItems.streamTouches events).foldl ItemSlots.touch {}) |>.filter
      fun item => isCall item.toItemContent
  else []

theorem consume_calls (events : List Json) :
    (ResponsesReader.consume parse events).response.invokes.getD [] =
      (callSlots events).map fun item => ResponsesReader.callOf parse item.toItemContent := by
  have hSlots : (ResponsesReader.run parse {} events).toItemSlots = _ :=
    ResponsesReader.run_slots events {} [] rfl rfl
  change (ResponsesReader.run parse {} events).response.invokes.getD [] = _
  rw [ResponsesReader.run_response events {} rfl, callSlots]
  split_ifs with hEnd
  · rw [hSlots, List.nil_append]
    simp only [ResponsesReader.assembleMessage, ResponsesReader.foldl_assembleItem_invokes,
      List.nil_append, List.filter_map, List.map_map]
    split_ifs with hNone
    · exact hNone.symm
    · rfl
  · rfl

theorem callSlots_sorted (events : List Json) :
    (callSlots events).Pairwise fun a b => a.outputIndex ≤ b.outputIndex := by
  rw [callSlots]
  split_ifs
  · refine List.Pairwise.filter _ ?_
    refine (List.pairwise_insertionSort ItemSlots.Before _).imp ?_
    intro a b hBefore
    rcases hBefore with hLess | ⟨hEq, -⟩
    · exact Nat.le_of_lt hLess
    · exact Nat.le_of_eq hEq
  · exact List.Pairwise.nil

/-! ### The events of an item -/

def Touch.key (t : Touch) : String := itemKey t.id t.index

/-- The key of the slot that an event with both names takes over. -/
def Touch.adopts (t : Touch) : Option String :=
  t.index.bind fun index =>
    if t.id = "" ∨ t.id = outputKey index then none else some (outputKey index)

/-- **The events of an item**, out of events with the latest first: those under its key, and those
that were under its index until an event with both names. -/
def eventsOf : List Touch → String → List Touch
  | [], _ => []
  | t :: earlier, key =>
    if t.key = key then
      t :: (eventsOf earlier key ++ t.adopts.elim [] (eventsOf earlier))
    else if t.adopts = some key then []
    else eventsOf earlier key

def latest (field : ItemContent → String) (ts : List Touch) : String :=
  ((ts.map fun t => field (t.use {})).find? (· ≠ "")).getD ""

def NamesCall (ts : List Touch) : Prop :=
  latest ItemContent.type ts = "function_call" ∨ (latest ItemContent.type ts = "" ∧
    ∃ t ∈ ts, (t.use {}).callId ≠ "" ∨ (t.use {}).name ≠ "" ∨ (t.use {}).arguments ≠ "")

instance (ts : List Touch) : Decidable (NamesCall ts) :=
  inferInstanceAs (Decidable (_ ∨ (_ ∧ _)))

theorem latest_cons (field : ItemContent → String) (t : Touch) (ts : List Touch) :
    latest field (t :: ts) = overwriteText (latest field ts) (field (t.use {})) := by
  unfold latest overwriteText
  by_cases h : field (t.use {}) = ""
  · simp [h]
  · simp [h]

theorem latest_append (field : ItemContent → String) (ts us : List Touch) :
    latest field (ts ++ us) = if latest field ts = "" then latest field us else latest field ts := by
  induction ts with
  | nil => rfl
  | cons t ts ih =>
    rw [List.cons_append, latest_cons, latest_cons, ih]
    unfold overwriteText
    by_cases h : field (t.use {}) = ""
    · rw [if_pos h, if_pos h]
    · rw [if_neg h, if_neg h, if_neg h]

/-- The content of a slot is what the latest of the events said. -/
structure Says (ts : List Touch) (content : ItemContent) : Prop where
  type : content.type = latest ItemContent.type ts
  callId : content.callId = latest ItemContent.callId ts
  name : content.name = latest ItemContent.name ts
  arguments : content.arguments ≠ "" ↔ ∃ t ∈ ts, (t.use {}).arguments ≠ ""

/-- What is done with a slot writes over the names of a call. -/
structure Naming (use : ItemContent → ItemContent) : Prop where
  type : ∀ c, (use c).type = overwriteText c.type (use {}).type
  callId : ∀ c, (use c).callId = overwriteText c.callId (use {}).callId
  name : ∀ c, (use c).name = overwriteText c.name (use {}).name
  arguments : ∀ c, (use c).arguments ≠ "" ↔ (use {}).arguments ≠ "" ∨ c.arguments ≠ ""

theorem latest_ne_empty {field : ItemContent → String} {ts : List Touch} :
    latest field ts ≠ "" ↔ ∃ t ∈ ts, field (t.use {}) ≠ "" := by
  induction ts with
  | nil => simp [latest]
  | cons t ts ih =>
    rw [latest_cons, overwriteText]
    by_cases h : field (t.use {}) = ""
    · simp [h, ih]
    · simp [h]

namespace Says

variable {ts us : List Touch} {t : Touch} {content orphan : ItemContent}

theorem nil : Says [] {} := ⟨rfl, rfl, rfl, by simp⟩

theorem adopt (h : Says ts content) (hOrphan : Says us orphan) :
    Says (ts ++ us) (adoptContent content orphan) := by
  constructor
  · rw [latest_append, ← h.type, ← hOrphan.type]
    rfl
  · rw [latest_append, ← h.callId, ← hOrphan.callId]
    rfl
  · rw [latest_append, ← h.name, ← hOrphan.name]
    rfl
  · have hEither : (adoptContent content orphan).arguments ≠ "" ↔
        content.arguments ≠ "" ∨ orphan.arguments ≠ "" := by
      simp only [adoptContent, ne_eq, String.append_eq_empty_iff, not_and_or]
    rw [hEither, h.arguments, hOrphan.arguments]
    simp only [List.mem_append, or_and_right, exists_or]

theorem use (h : Says ts content) (hNaming : Naming t.use) :
    Says (t :: ts) (t.use content) := by
  constructor
  · rw [latest_cons, ← h.type, hNaming.type]
  · rw [latest_cons, ← h.callId, hNaming.callId]
  · rw [latest_cons, ← h.name, hNaming.name]
  · rw [hNaming.arguments, h.arguments]
    simp only [List.mem_cons, or_and_right, exists_or, exists_eq_left]

theorem isCall_iff (h : Says ts content) : isCall content = true ↔ NamesCall ts := by
  simp only [isCall, decide_eq_true_eq, NamesCall, ← h.type, ne_eq, and_or_left, exists_or]
  rw [← @latest_ne_empty ItemContent.callId, ← @latest_ne_empty ItemContent.name, ← h.callId,
    ← h.name, ← h.arguments]

end Says

/-! ### What the events do -/

theorem foldArray_keeps {α : Type} (f : ItemContent → α) {j : Json} {key : String}
    {read : ItemContent → Nat → Json → ItemContent}
    (hRead : ∀ c i part, f (read c i part) = f c) (c : ItemContent) :
    f (foldArray j key read c) = f c := by
  unfold foldArray
  split
  · rename_i parts _
    induction parts.zipIdx generalizing c with
    | nil => rfl
    | cons entry rest ih => rw [List.foldl_cons, ih, hRead]
  · rfl

def ItemContent.call (content : ItemContent) : String × String × String × String :=
  (content.type, content.callId, content.name, content.arguments)

theorem Naming.of_call {use : ItemContent → ItemContent} {type callId name arguments : String}
    (h : ∀ c : ItemContent, (use c).call = (overwriteText c.type type, overwriteText c.callId callId,
      overwriteText c.name name, overwriteText c.arguments arguments)) : Naming use := by
  have hNew : ∀ text, overwriteText "" text = text := by
    intro text
    unfold overwriteText
    split_ifs with hText
    · exact hText.symm
    · rfl
  have hEach : ∀ c : ItemContent, _ := fun c => by
    have := h c
    simp only [ItemContent.call, Prod.mk.injEq] at this
    exact this
  obtain ⟨hT, hC, hN, hA⟩ := hEach {}
  rw [hNew] at hT hC hN hA
  constructor
  · intro c
    rw [(hEach c).1, hT]
  · intro c
    rw [(hEach c).2.1, hC]
  · intro c
    rw [(hEach c).2.2.1, hN]
  · intro c
    rw [(hEach c).2.2.2, hA, overwriteText]
    by_cases hText : arguments = "" <;> simp [hText]

theorem Naming.silent {use : ItemContent → ItemContent} (h : ∀ c, (use c).call = c.call) :
    Naming use :=
  @of_call use "" "" "" "" h

theorem Naming.outputItem (itemJson : Json) (authoritative : Bool) :
    Naming (readOutputItem itemJson authoritative) := by
  have hMessage : ∀ c i part, (readMessagePart c i part).call = c.call := by
    intro c i part
    unfold readMessagePart
    split_ifs <;> rfl
  have hDone : ∀ c : ItemContent, (if authoritative then { c with doneItem := some itemJson }
      else c).call = c.call := by
    intro c
    split_ifs <;> rfl
  by_cases hCall : getString itemJson "type" = "function_call"
  · refine @of_call _ "function_call" (getString itemJson "call_id") (getString itemJson "name")
      (getString itemJson "arguments") fun c => ?_
    rw [readOutputItem, hDone, hCall]
    rfl
  · refine @of_call _ (getString itemJson "type") "" "" "" fun c => ?_
    rw [readOutputItem, hDone]
    dsimp only
    rw [if_neg hCall]
    split_ifs
    · exact foldArray_keeps ItemContent.call hMessage _
    · refine (foldArray_keeps ItemContent.call ?_ _).trans (foldArray_keeps ItemContent.call ?_ _)
      · exact fun _ _ _ => rfl
      · exact fun _ _ _ => rfl
    · rfl

/-- Every event writes over the names of a call, or leaves them. -/
theorem touches_naming {event : Json} {t : Touch} (h : t ∈ touches event) : Naming t.use := by
  unfold touches at h
  dsimp only at h
  split at h
  · rw [List.mem_singleton.mp h]
    show Naming (ResponsesReader.appendIncrement (decode event))
    unfold ResponsesReader.appendIncrement
    cases (decode event).kind with
    | toolCallArgs =>
      refine ⟨fun _ => rfl, fun _ => rfl, fun _ => rfl, fun c => ?_⟩
      simp only [ne_eq, String.append_eq_empty_iff, not_and_or, String.empty_append]
      tauto
    | _ => exact Naming.silent fun _ => rfl
  · split at h
    · rename_i overwrite hDone
      rw [List.mem_singleton.mp h]
      show Naming overwrite
      unfold doneOverwrite at hDone
      dsimp only at hDone
      split_ifs at hDone <;> rw [Option.some.injEq] at hDone <;> subst hDone
      · exact Naming.silent fun _ => rfl
      · exact Naming.silent fun _ => rfl
      · exact Naming.silent fun _ => rfl
      · exact @Naming.of_call _ "" "" (getString event "name") (getString event "arguments")
          fun _ => rfl
      · refine Naming.silent fun _ => ?_
        split <;> rfl
    · split at h
      · split at h
        · rw [List.mem_singleton.mp h]
          exact Naming.outputItem _ _
        · cases h
      · split at h
        · obtain ⟨entry, -, rfl⟩ := List.mem_map.mp h
          exact Naming.outputItem entry.1 true
        · cases h

/-! ### What the slots hold -/

namespace ItemSlots

variable (slots : ItemSlots)

theorem getElem?_store (key k : String) (slot : ItemState) :
    (slots.store key slot).items[k]?.map ItemState.toItemContent =
      if key = k then some slot.toItemContent
      else slots.items[k]?.map ItemState.toItemContent := by
  have hItems : (slots.store key slot).items = slots.items.insert key
      { slot with arrival := some (slot.arrival.getD slots.nextArrival) } := by
    unfold store
    cases hArrival : slot.arrival with
    | none => rfl
    | some a =>
      simp only [Option.getD_some]
      rw [← hArrival]
  rw [hItems, Std.ExtTreeMap.getElem?_insert]
  simp only [Std.compare_eq_iff_eq]
  split_ifs <;> rfl

theorem orphanOf_touch (t : Touch) : slots.orphanOf t.id t.index =
    t.adopts.bind fun key => slots.items[key]?.map fun orphan => (key, orphan) := by
  unfold orphanOf Touch.adopts
  cases t.index with
  | none => rfl
  | some index =>
    by_cases hId : t.id = ""
    · simp [hId]
    · by_cases hKey : t.id = outputKey index <;> simp [itemKey, hId, hKey]

theorem toItemContent_getD (o : Option ItemState) :
    (o.getD {}).toItemContent = (o.map ItemState.toItemContent).getD {} := by
  cases o <;> rfl

/-- The slots after an event: its own, and without the one that it takes over. -/
theorem getElem?_touch (t : Touch) (key : String) :
    (slots.touch t).items[key]?.map ItemState.toItemContent =
      if t.key = key then
        some (t.use (adoptContent ((slots.items[key]?.map ItemState.toItemContent).getD {})
          ((t.adopts.bind fun key => slots.items[key]?.map ItemState.toItemContent).getD {})))
      else if t.adopts = some key then none
      else slots.items[key]?.map ItemState.toItemContent := by
  unfold touch item
  dsimp only
  rw [orphanOf_touch, ← Touch.key]
  cases hAdopts : t.adopts.bind fun key => slots.items[key]?.map fun orphan => (key, orphan) with
  | none =>
    have hNone : ∀ key, t.adopts = some key → slots.items[key]? = none := by
      intro key hKey
      rw [hKey] at hAdopts
      exact Option.map_eq_none_iff.mp hAdopts
    dsimp only
    rw [getElem?_store]
    by_cases hKey : t.key = key
    · have hOrphan : (t.adopts.bind fun key =>
          slots.items[key]?.map ItemState.toItemContent) = none := by
        cases hSome : t.adopts with
        | none => rfl
        | some orphan => simp [hNone orphan hSome]
      rw [if_pos hKey, if_pos hKey, hOrphan, Option.getD_none, adoptContent_empty_right,
        ← toItemContent_getD, hKey]
      cases t.index <;> rfl
    · rw [if_neg hKey, if_neg hKey]
      split_ifs with hSame
      · rw [hNone key hSame]
        rfl
      · rfl
  | some entry =>
    obtain ⟨orphanKey, orphan⟩ := entry
    obtain ⟨name, hName, hFound⟩ := Option.bind_eq_some_iff.mp hAdopts
    obtain ⟨found, hSlot, hSame⟩ := Option.map_eq_some_iff.mp hFound
    obtain ⟨rfl, rfl⟩ := Prod.mk.inj hSame
    dsimp only
    rw [getElem?_store, hName, Option.bind_some, hSlot, ← toItemContent_getD]
    by_cases hKey : t.key = key
    · rw [if_pos hKey, if_pos hKey, hKey]
      rfl
    · rw [if_neg hKey, if_neg hKey, getElem?_erase]
      simp only [Option.some.injEq]
      split_ifs <;> rfl

end ItemSlots

/-- A slot holds what its events say; without events there is none. -/
def Told (ts : List Touch) (content : Option ItemContent) : Prop :=
  match content with
  | none => ts = []
  | some content => ts ≠ [] ∧ Says ts content

theorem Told.getD {ts : List Touch} {content : Option ItemContent} (h : Told ts content) :
    Says ts (content.getD {}) := by
  cases content with
  | none =>
    rw [show ts = [] from h]
    exact Says.nil
  | some content => exact h.2

/-- **The slots of a run**, by induction from the last event: each says what its events say. -/
theorem told (ts : List Touch) (hNaming : ∀ t ∈ ts, Naming t.use) (key : String) :
    Told (eventsOf ts.reverse key)
      ((ts.foldl ItemSlots.touch {}).items[key]?.map ItemState.toItemContent) := by
  induction ts using List.reverseRecOn generalizing key with
  | nil =>
    show Told [] ((∅ : Std.ExtTreeMap String ItemState)[key]?.map ItemState.toItemContent)
    rw [Std.ExtTreeMap.getElem?_empty]
    rfl
  | append_singleton ts t ih =>
    have hBefore := ih fun u hu => hNaming u (List.mem_append_left _ hu)
    rw [List.foldl_append, List.reverse_append, List.foldl_cons, List.foldl_nil,
      ItemSlots.getElem?_touch]
    show Told (eventsOf (t :: ts.reverse) key) _
    rw [eventsOf]
    split_ifs
    · refine ⟨by simp, Says.use (Says.adopt (hBefore key).getD ?_) (hNaming t (by simp))⟩
      cases t.adopts with
      | none => exact Says.nil
      | some orphan => exact (hBefore orphan).getD
    · rfl
    · exact hBefore key

theorem mem_keys_of_eventsOf {key : String} (ts : List Touch) :
    eventsOf ts key ≠ [] → key ∈ ts.map Touch.key := by
  induction ts with
  | nil => exact fun h => absurd rfl h
  | cons t ts ih =>
    rw [eventsOf, List.map_cons, List.mem_cons]
    split_ifs with hKey hAdopted
    · exact fun _ => Or.inl hKey.symm
    · exact fun h => absurd rfl h
    · exact fun h => Or.inr (ih h)

/-- **Every function call of a stream that ends is identified**: by its events it has a call id
and a name, and no other call has its id. -/
def Identified (events : List Json) : Prop :=
  let latestFirst := (OutputItems.streamTouches events).reverse
  let keys := latestFirst.map Touch.key
  (events.any fun event => isTerminal (decode event)) = true →
    ∀ key ∈ keys, NamesCall (eventsOf latestFirst key) →
      latest ItemContent.callId (eventsOf latestFirst key) ≠ "" ∧
        latest ItemContent.name (eventsOf latestFirst key) ≠ "" ∧
        ∀ other ∈ keys, NamesCall (eventsOf latestFirst other) →
          latest ItemContent.callId (eventsOf latestFirst other) =
            latest ItemContent.callId (eventsOf latestFirst key) → other = key

theorem streamTouches_naming {events : List Json} (t : Touch)
    (h : t ∈ OutputItems.streamTouches events) : Naming t.use := by
  obtain ⟨event, -, hMem⟩ := List.mem_flatMap.mp h
  exact touches_naming hMem

def callEntries (slots : ItemSlots) : List (String × ItemState) :=
  slots.items.toList.filter fun entry => isCall entry.2.toItemContent

theorem mem_callEntries {slots : ItemSlots} {key : String} {slot : ItemState} :
    (key, slot) ∈ callEntries slots ↔
      slots.items[key]? = some slot ∧ isCall slot.toItemContent = true := by
  rw [callEntries, List.mem_filter, Std.ExtTreeMap.mem_toList_iff_getElem?_eq_some]

theorem callSlots_perm (slots : ItemSlots) :
    (slots.ordered.filter fun item => isCall item.toItemContent).Perm
      ((callEntries slots).map Prod.snd) := by
  have hPerm := (List.perm_insertionSort ItemSlots.Before (slots.items.toList.map Prod.snd)).filter
    fun item => isCall item.toItemContent
  rwa [List.filter_map] at hPerm

/-- **The slots of calls are identified when the events of their items are.** -/
theorem identified_iff (events : List Json) : Identified events ↔
      (∀ item ∈ callSlots events, item.callId ≠ "" ∧ item.name ≠ "") ∧
        ((callSlots events).map fun item => item.callId).Nodup := by
  unfold Identified callSlots
  dsimp only
  split_ifs with hEnd
  · have hTold := told (OutputItems.streamTouches events) streamTouches_naming
    generalize (OutputItems.streamTouches events).foldl ItemSlots.touch {} = slots at hTold ⊢
    generalize (OutputItems.streamTouches events).reverse = latestFirst at hTold ⊢
    have hNodup : (callEntries slots).Nodup := by
      refine List.Nodup.filter _ ?_
      rw [List.nodup_iff_pairwise_ne]
      refine slots.items.distinct_keys_toList.imp fun hKeys hSame => hKeys ?_
      rw [hSame]
      exact Std.compare_eq_iff_eq.mpr rfl
    have hAll : (∀ item ∈ slots.ordered.filter fun item => isCall item.toItemContent,
        item.callId ≠ "" ∧ item.name ≠ "") ↔
          ∀ entry ∈ callEntries slots, entry.2.callId ≠ "" ∧ entry.2.name ≠ "" := by
      simp only [(callSlots_perm slots).mem_iff, List.forall_mem_map]
    rw [hAll, ((callSlots_perm slots).map _).nodup_iff, List.map_map,
      List.nodup_map_iff_inj_on hNodup]
    -- The entry of a key that names a call, and back
    have hEntry : ∀ (key : String) (slot : ItemState), (key, slot) ∈ callEntries slots →
        NamesCall (eventsOf latestFirst key) ∧ key ∈ latestFirst.map Touch.key ∧
          Says (eventsOf latestFirst key) slot.toItemContent := by
      intro key slot hMem
      obtain ⟨hSlot, hCall⟩ := mem_callEntries.mp hMem
      have hHere := hTold key
      rw [hSlot] at hHere
      obtain ⟨hSome, hSays⟩ : eventsOf latestFirst key ≠ [] ∧
        Says (eventsOf latestFirst key) slot.toItemContent := hHere
      exact ⟨hSays.isCall_iff.mp hCall, mem_keys_of_eventsOf _ hSome, hSays⟩
    have hKey : ∀ key, NamesCall (eventsOf latestFirst key) →
        ∃ slot, (key, slot) ∈ callEntries slots := by
      intro key hCall
      have hHere := hTold key
      cases hSlot : slots.items[key]? with
      | none =>
        rw [hSlot] at hHere
        rw [show eventsOf latestFirst key = [] from hHere] at hCall
        exact absurd hCall (by decide)
      | some slot =>
        rw [hSlot] at hHere
        exact ⟨slot, mem_callEntries.mpr ⟨hSlot, hHere.2.isCall_iff.mpr hCall⟩⟩
    constructor
    · intro h
      replace h := h hEnd
      constructor
      · rintro ⟨key, slot⟩ hMem
        obtain ⟨hCall, hTouched, hSays⟩ := hEntry key slot hMem
        obtain ⟨hId, hName, -⟩ := h key hTouched hCall
        exact ⟨hSays.callId ▸ hId, hSays.name ▸ hName⟩
      · rintro ⟨key, slot⟩ hMem ⟨other, slot'⟩ hMem' hSame
        obtain ⟨hCall, hTouched, hSays⟩ := hEntry key slot hMem
        obtain ⟨hCall', hTouched', hSays'⟩ := hEntry other slot' hMem'
        obtain ⟨-, -, hOnly⟩ := h key hTouched hCall
        have hSameId : slot.callId = slot'.callId := hSame
        rw [hSays.callId, hSays'.callId] at hSameId
        obtain rfl := hOnly other hTouched' hCall' hSameId.symm
        rw [mem_callEntries] at hMem hMem'
        rw [Option.some.inj (hMem.1.symm.trans hMem'.1)]
    · rintro ⟨hNamed, hDistinct⟩ - key - hCall
      obtain ⟨slot, hMem⟩ := hKey key hCall
      obtain ⟨-, -, hSays⟩ := hEntry key slot hMem
      obtain ⟨hId, hName⟩ := hNamed (key, slot) hMem
      refine ⟨hSays.callId ▸ hId, hSays.name ▸ hName, fun other _ hOther hSame => ?_⟩
      obtain ⟨slot', hMem'⟩ := hKey other hOther
      obtain ⟨-, -, hSays'⟩ := hEntry other slot' hMem'
      rw [← hSays.callId, ← hSays'.callId] at hSame
      exact congrArg Prod.fst (hDistinct _ hMem' _ hMem hSame)
  · simp [hEnd]

end Responses

/-! ## Both readers -/

def streamOf (item : List (String × Json)) : List Json :=
  [Json.object [("type", .str "response.output_item.done"), ("output_index", Json.uint 0),
     ("item", Json.object item)],
   Json.object [("type", .str "response.completed"),
     ("response", Json.object [("status", .str "completed")])]]

/-- A call with an id and a name. -/
def identifiedStream : List Json :=
  streamOf [("id", .str "fc"), ("type", .str "function_call"), ("call_id", .str "c"),
    ("name", .str "read_file")]

/-- A call that is known by its item id alone, and the arguments of another by its index. -/
def namedCalls : List Json :=
  [Json.object [("type", .str "response.output_item.done"), ("item", Json.object
     [("id", .str "g"), ("type", .str "function_call"), ("call_id", .str "d"),
      ("name", .str "read_file")])],
   Json.object [("type", .str "response.function_call_arguments.delta"),
     ("output_index", Json.uint 0), ("delta", .str "{}")]]

/-- A call that never gets a call id. -/
def unidentifiedStream : List Json :=
  streamOf [("id", .str "fc"), ("type", .str "function_call"), ("name", .str "read_file")]

end SimplexAgent.Llm
