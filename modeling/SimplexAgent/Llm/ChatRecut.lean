import SimplexAgent.Llm.ChatReader
import Mathlib

/-!
# Re-cutting a chat stream

How a provider cuts a response into chunks carries no meaning. A stream is taken
apart into fragments, each of one field or of one field of one call. Two streams
say the same when one becomes the other by cutting and joining fragments of the
texts that are appended, by repeating a value that is only replaced (every chunk
of a response repeats its id), and by exchanging neighbours of different fields.

The reader folds fragments one at a time. Fragments of different fields commute,
a text appended in two pieces is appended, and a value assigned twice is
assigned; so the fold sees only what the re-cutting keeps.
-/

namespace SimplexAgent.Llm.Chat

open Dataclass
open Llm.Responses (findObject getString getIndex getUInt64)

/-! ## Fragments -/

/-- What a stream delivers, one field at a time. -/
inductive Fragment where
  | content (text : String)
  | reasoning (text : String)
  | refusal (text : String)
  | callId (index : Nat) (text : String)
  | callName (index : Nat) (text : String)
  | callArguments (index : Nat) (text : String)
  | callType (index : Nat) (text : String)
  | role (text : String)
  | finishReason (text : String)
  | completionId (text : String)
  | model (text : String)
  | usage (block : Json) (mappedCost : Bool) (cost : Option TokenCost)
  | error (record : Json)

inductive Field where
  | content
  | reasoning
  | refusal
  | callId (index : Nat)
  | callName (index : Nat)
  | callArguments (index : Nat)
  | callType (index : Nat)
  | role
  | finishReason
  | completionId
  | model
  | usage
  | error
  deriving DecidableEq

namespace Fragment

def field : Fragment → Field
  | content _ => .content
  | reasoning _ => .reasoning
  | refusal _ => .refusal
  | callId index _ => .callId index
  | callName index _ => .callName index
  | callArguments index _ => .callArguments index
  | callType index _ => .callType index
  | role _ => .role
  | finishReason _ => .finishReason
  | completionId _ => .completionId
  | model _ => .model
  | usage .. => .usage
  | error _ => .error

/-- A fragment in two pieces. -/
inductive Cut : Fragment → Fragment → Fragment → Prop
  | content (a b : String) : Cut (.content (a ++ b)) (.content a) (.content b)
  | reasoning (a b : String) : Cut (.reasoning (a ++ b)) (.reasoning a) (.reasoning b)
  | refusal (a b : String) : Cut (.refusal (a ++ b)) (.refusal a) (.refusal b)
  | callId (i : Nat) (a b : String) : Cut (.callId i (a ++ b)) (.callId i a) (.callId i b)
  | callName (i : Nat) (a b : String) :
      Cut (.callName i (a ++ b)) (.callName i a) (.callName i b)
  | callArguments (i : Nat) (a b : String) :
      Cut (.callArguments i (a ++ b)) (.callArguments i a) (.callArguments i b)

def text : Fragment → String
  | content text | reasoning text | refusal text => text
  | callId _ text | callName _ text | callArguments _ text => text
  | callType .. | role _ | finishReason _ | completionId _ | model _ | usage .. | error _ => ""

def Replaces : Fragment → Prop
  | callType .. | role _ | finishReason _ | completionId _ | model _ | usage .. | error _ => True
  | content _ | reasoning _ | refusal _ | callId .. | callName .. | callArguments .. => False

end Fragment

/-- The texts of one field, in order. -/
def joined (field : Field) : List Fragment → String
  | [] => ""
  | f :: rest => if f.field = field then f.text ++ joined field rest else joined field rest

/-- One elementary change of how a stream is cut. -/
inductive RecutStep : List Fragment → List Fragment → Prop
  | cut (before after : List Fragment) {whole a b : Fragment} (h : whole.Cut a b) :
      RecutStep (before ++ whole :: after) (before ++ a :: b :: after)
  | again (before after : List Fragment) {f : Fragment} (h : f.Replaces) :
      RecutStep (before ++ f :: after) (before ++ f :: f :: after)
  | exchange (before after : List Fragment) {f g : Fragment} (h : f.field ≠ g.field) :
      RecutStep (before ++ f :: g :: after) (before ++ g :: f :: after)

theorem recut_past {f : Fragment} (gs : List Fragment) (hFields : ∀ g ∈ gs, f.field ≠ g.field) :
    ∀ before after : List Fragment,
      Relation.EqvGen RecutStep (before ++ f :: (gs ++ after)) (before ++ (gs ++ f :: after)) := by
  induction gs with
  | nil => exact fun before after => .refl _
  | cons g rest ih =>
    intro before after
    have hStep := RecutStep.exchange before (rest ++ after) (hFields g (by simp))
    have hRest := ih (fun g hg => hFields g (by simp [hg])) (before ++ [g]) after
    simp only [List.append_assoc, List.singleton_append] at hRest
    exact .trans _ _ _ (.rel _ _ hStep) hRest

def part (make : String → Fragment) (text : String) : List Fragment :=
  if text = "" then [] else [make text]

def callFragments (call : ToolCallDelta) : List Fragment :=
  [.callId call.index call.id, .callName call.index call.name,
   .callArguments call.index call.arguments] ++ part (.callType call.index) call.type

def extrasFragments : Option Json → List Fragment
  | some (.obj fields) =>
    part .completionId (getString (.obj fields) "id") ++
      part .model (getString (.obj fields) "model") ++
      ((findObject (.obj fields) "error").map Fragment.error).toList
  | _ => []

def fragments (delta : ChatCompletionsDelta) : List Fragment :=
  part .role delta.role ++ part .content delta.content ++ part .reasoning delta.reasoning ++
    part .refusal delta.refusal ++ part .finishReason delta.finishReason ++
    (delta.usage.map fun block => .usage block delta.mappedCost delta.cost).toList ++
    delta.toolCalls.flatMap callFragments ++ extrasFragments delta.extras

/-- A delta after which nothing is read. -/
def ends (delta : ChatCompletionsDelta) : Bool :=
  isTerminal delta || delta.protocolError.isSome

def delivered (deltas : List ChatCompletionsDelta) : List Fragment :=
  (deltas.takeWhile fun delta => !ends delta).flatMap fragments

def ending (deltas : List ChatCompletionsDelta) : Option ChatCompletionsDelta :=
  deltas.find? ends

/-- Two streams that differ in how they are cut: what they deliver before their common end
is the same up to elementary changes. -/
def Recut (deltas deltas' : List ChatCompletionsDelta) : Prop :=
  Relation.EqvGen RecutStep (delivered deltas) (delivered deltas') ∧ ending deltas = ending deltas'

/-! ## Calls under an index -/

def updateCall (calls : ToolCalls) (index : Nat) (f : ToolCallState → ToolCallState) :
    ToolCalls :=
  calls.alter index fun old => some (f (old.getD {}))

theorem getElem?_updateCall (calls : ToolCalls) (index k : Nat)
    (f : ToolCallState → ToolCallState) : (updateCall calls index f)[k]? =
      if index = k then some (f (calls[index]?.getD {})) else calls[k]? := by
  unfold updateCall
  rw [Std.ExtTreeMap.getElem?_alter]
  simp only [Std.compare_eq_iff_eq]

theorem updateCall_updateCall (calls : ToolCalls) (index : Nat)
    (f g : ToolCallState → ToolCallState) : updateCall (updateCall calls index f) index g =
      updateCall calls index fun call => g (f call) := by
  apply Std.ExtTreeMap.ext_getElem?
  intro k
  simp only [getElem?_updateCall]
  by_cases hk : index = k
  · simp [hk]
  · simp [hk]

theorem updateCall_comm (calls : ToolCalls) {i j : Nat} (hij : i ≠ j)
    (f g : ToolCallState → ToolCallState) :
    updateCall (updateCall calls i f) j g = updateCall (updateCall calls j g) i f := by
  apply Std.ExtTreeMap.ext_getElem?
  intro k
  simp only [getElem?_updateCall]
  by_cases hi : i = k
  · have hj : j ≠ k := fun hj => hij (hi.trans hj.symm)
    simp [hi, hj]
  · by_cases hj : j = k
    · have hne : ¬i = j := hij
      simp [hi, hj]
    · simp [hi, hj]

/-! ## Folding fragments -/

namespace Accumulated

def absorb (acc : Accumulated) : Fragment → Accumulated
  | .content text => { acc with content := acc.content ++ text }
  | .reasoning text => { acc with reasoning := acc.reasoning ++ text }
  | .refusal text => { acc with refusal := acc.refusal ++ text }
  | .callId index text =>
    { acc with
      toolCalls := updateCall acc.toolCalls index fun call =>
        { call with id := call.id ++ text } }
  | .callName index text =>
    { acc with
      toolCalls := updateCall acc.toolCalls index fun call =>
        { call with name := call.name ++ text } }
  | .callArguments index text =>
    { acc with
      toolCalls := updateCall acc.toolCalls index fun call =>
        { call with arguments := call.arguments ++ text } }
  | .callType index text =>
    { acc with
      toolCalls := updateCall acc.toolCalls index fun call => { call with type := text } }
  | .role text => { acc with role := text }
  | .finishReason text => { acc with finishReason := text }
  | .completionId text => { acc with completionId := text }
  | .model text => { acc with model := text }
  | .usage block mappedCost cost =>
    { acc with usage := some block, mappedCost := mappedCost, cost := cost }
  | .error record => { acc with error := some record }

variable (acc : Accumulated)

theorem absorb_cut {whole a b : Fragment} (h : whole.Cut a b) :
    (acc.absorb a).absorb b = acc.absorb whole := by
  cases h <;> simp only [absorb, updateCall_updateCall, String.append_assoc]

/-- A value assigned twice is assigned. -/
theorem absorb_again {f : Fragment} (h : f.Replaces) : (acc.absorb f).absorb f = acc.absorb f := by
  cases f <;> first | exact absurd h id | simp only [absorb, updateCall_updateCall]

theorem absorb_comm {f g : Fragment} (h : f.field ≠ g.field) :
    (acc.absorb f).absorb g = (acc.absorb g).absorb f := by
  have hCalls : ∀ {i j : Nat} {u v : ToolCallState → ToolCallState},
      (i = j → ∀ call, v (u call) = u (v call)) →
      updateCall (updateCall acc.toolCalls i u) j v =
        updateCall (updateCall acc.toolCalls j v) i u := by
    intro i j u v hFields
    by_cases hij : i = j
    · subst hij
      simp only [updateCall_updateCall, hFields rfl]
    · exact updateCall_comm acc.toolCalls hij u v
  cases f <;> cases g <;>
    first
    | exact absurd rfl h
    | rfl
    | (simp only [absorb]
       rw [hCalls]
       intro hij call
       first
       | rfl
       | exact absurd (by rw [hij]; rfl) h)

/-- **Only what re-cutting keeps is folded.** -/
theorem foldl_absorb_recut {fs gs : List Fragment} (h : Relation.EqvGen RecutStep fs gs) :
    ∀ acc : Accumulated, fs.foldl absorb acc = gs.foldl absorb acc := by
  induction h with
  | rel fs gs hStep =>
    intro acc
    cases hStep with
    | cut before after hCut =>
      simp only [List.foldl_append, List.foldl_cons, absorb_cut _ hCut]
    | again before after hReplaces =>
      simp only [List.foldl_append, List.foldl_cons, absorb_again _ hReplaces]
    | exchange before after hField =>
      simp only [List.foldl_append, List.foldl_cons, absorb_comm _ hField]
  | refl fs => exact fun acc => rfl
  | symm fs gs _ ih => exact fun acc => (ih acc).symm
  | trans fs gs hs _ _ ih ih' => exact fun acc => (ih acc).trans (ih' acc)

def text (acc : Accumulated) : Field → String
  | .content => acc.content
  | .reasoning => acc.reasoning
  | .refusal => acc.refusal
  | .callId index => (acc.toolCalls[index]?.getD {}).id
  | .callName index => (acc.toolCalls[index]?.getD {}).name
  | .callArguments index => (acc.toolCalls[index]?.getD {}).arguments
  | .callType _ | .role | .finishReason | .completionId | .model | .usage | .error => ""

theorem text_absorb (f : Fragment) (field : Field) : (acc.absorb f).text field =
      if f.field = field then acc.text field ++ f.text else acc.text field := by
  cases field <;> cases f <;>
    simp only [absorb, text, Fragment.field, Fragment.text, getElem?_updateCall,
      reduceCtorEq, ite_false, ite_true, String.append_empty, ite_self, Field.callId.injEq,
      Field.callName.injEq, Field.callArguments.injEq]
  all_goals
    rename_i i j text
    by_cases hij : j = i
    · subst hij
      simp only [ite_true, Option.getD_some]
    · simp only [hij, ite_false]

theorem text_foldl_absorb (field : Field) (fs : List Fragment) :
    ∀ acc : Accumulated, (fs.foldl absorb acc).text field = acc.text field ++ joined field fs := by
  induction fs with
  | nil => exact fun acc => (String.append_empty ..).symm
  | cons f rest ih =>
    intro acc
    rw [List.foldl_cons, ih, text_absorb, joined]
    by_cases hField : f.field = field
    · rw [if_pos hField, if_pos hField, String.append_assoc]
    · rw [if_neg hField, if_neg hField]

/-! ## A delta is its fragments -/

theorem foldl_part_append (make : String → Fragment) (text : String)
    (hEmpty : acc.absorb (make "") = acc) :
    (part make text).foldl absorb acc = acc.absorb (make text) := by
  by_cases hText : text = ""
  · simp [part, hText, hEmpty]
  · simp [part, hText]

theorem foldl_callFragments (call : ToolCallDelta) : (callFragments call).foldl absorb acc =
      { acc with toolCalls := appendCall acc.toolCalls call } := by
  have hAppend : appendCall acc.toolCalls call = updateCall acc.toolCalls call.index fun state =>
        { id := state.id ++ call.id
          type := overwrite state.type call.type
          name := state.name ++ call.name
          arguments := state.arguments ++ call.arguments } := rfl
  by_cases hType : call.type = ""
  · simp [callFragments, part, hType, absorb, updateCall_updateCall, hAppend, overwrite]
  · simp [callFragments, part, hType, absorb, updateCall_updateCall, hAppend, overwrite]

theorem foldl_flatMap_callFragments (calls : List ToolCallDelta) :
    ∀ acc : Accumulated, (calls.flatMap callFragments).foldl absorb acc =
      { acc with toolCalls := calls.foldl appendCall acc.toolCalls } := by
  induction calls with
  | nil => exact fun acc => rfl
  | cons call rest ih =>
    intro acc
    rw [List.flatMap_cons, List.foldl_append, foldl_callFragments, ih]
    rfl

theorem foldl_extrasFragments (extras : Option Json) :
    (extrasFragments extras).foldl absorb acc = acc.readExtras extras := by
  match extras with
  | some (.obj fields) =>
    simp only [extrasFragments, readExtras, part, overwrite]
    split_ifs <;> cases findObject (.obj fields) "error" <;> rfl
  | none | some .null | some (.bool _) | some (.integer _) | some (.float _) | some (.str _)
  | some (.arr _) => rfl

theorem foldl_fragments (delta : ChatCompletionsDelta) :
    (fragments delta).foldl absorb acc = acc.fold delta := by
  have hRole : ∀ acc : Accumulated, (part .role delta.role).foldl absorb acc =
      { acc with role := overwrite acc.role delta.role } := by
    intro acc
    by_cases h : delta.role = "" <;> simp [part, overwrite, h, absorb]
  have hFinish : ∀ acc : Accumulated, (part .finishReason delta.finishReason).foldl absorb acc =
      { acc with finishReason := overwrite acc.finishReason delta.finishReason } := by
    intro acc
    by_cases h : delta.finishReason = "" <;> simp [part, overwrite, h, absorb]
  have hUsage : ∀ acc : Accumulated, ((delta.usage.map fun block =>
        Fragment.usage block delta.mappedCost delta.cost).toList).foldl absorb acc =
      acc.readUsage delta := by
    intro acc
    cases h : delta.usage <;> simp [readUsage, h, absorb]
  rw [fragments, List.foldl_append, List.foldl_append, List.foldl_append, List.foldl_append,
    List.foldl_append, List.foldl_append, List.foldl_append, hRole,
    foldl_part_append _ .content _ (by simp [absorb]),
    foldl_part_append _ .reasoning _ (by simp [absorb]),
    foldl_part_append _ .refusal _ (by simp [absorb]), hFinish, hUsage,
    foldl_flatMap_callFragments, foldl_extrasFragments]
  rfl

end Accumulated

/-! ## The stream -/

namespace ChatCompletionsReader

variable {parse : String → Option Json}

theorem foldl_next_done (deltas : List ChatCompletionsDelta) :
    ∀ reader : ChatCompletionsReader, reader.done = true →
      deltas.foldl (next parse) reader = reader := by
  induction deltas with
  | nil => exact fun reader _ => rfl
  | cons delta rest ih =>
    intro reader hDone
    have hNext : reader.next parse delta = reader := by simp [next, hDone]
    rw [List.foldl_cons, hNext, ih reader hDone]

theorem next_open {reader : ChatCompletionsReader} {delta : ChatCompletionsDelta}
    (hOpen : reader.done = false) (hEnds : ends delta = false) : reader.next parse delta =
      { reader with toAccumulated := (fragments delta).foldl .absorb reader.toAccumulated } := by
  simp only [ends, Bool.or_eq_false_iff, isTerminal] at hEnds
  have hProtocol : delta.protocolError = none := by
    cases h : delta.protocolError with
    | none => rfl
    | some what => simp [h] at hEnds
  simp [next, hOpen, accumulate, hProtocol, isTerminal, hEnds.1.1, hEnds.1.2,
    Accumulated.foldl_fragments]

theorem next_done {reader : ChatCompletionsReader} {delta : ChatCompletionsDelta}
    (hEnds : ends delta = true) : (reader.next parse delta).done = true := by
  by_cases hDone : reader.done = true
  · simp [next, hDone]
  · cases hProtocol : delta.protocolError with
    | some what => simp [next, hDone, accumulate, hProtocol]
    | none =>
      have hTerminal : isTerminal delta = true := by simpa [ends, hProtocol] using hEnds
      simp only [next, if_neg hDone]
      split
      · assumption
      · rw [assemble]
        split <;> rfl

theorem foldl_next (deltas : List ChatCompletionsDelta) :
    ∀ reader : ChatCompletionsReader, reader.done = false → deltas.foldl (next parse) reader =
        match ending deltas with
        | some last => next parse
            { reader with
              toAccumulated := (delivered deltas).foldl .absorb reader.toAccumulated } last
        | none =>
          { reader with
            toAccumulated := (delivered deltas).foldl .absorb reader.toAccumulated } := by
  induction deltas with
  | nil => exact fun reader _ => rfl
  | cons delta rest ih =>
    intro reader hOpen
    rw [List.foldl_cons]
    by_cases hEnds : ends delta = true
    · rw [foldl_next_done rest _ (next_done hEnds)]
      simp [ending, delivered, hEnds]
    · have hOther : ends delta = false := by simpa using hEnds
      rw [next_open hOpen hOther, ih _ (by exact hOpen)]
      simp [ending, delivered, hOther, List.foldl_append]

theorem drain_recut {deltas deltas' : List ChatCompletionsDelta} (h : Recut deltas deltas') :
    drain parse deltas = drain parse deltas' := by
  rw [drain, drain, foldl_next _ _ rfl, foldl_next _ _ rfl, h.2, Accumulated.foldl_absorb_recut h.1]

theorem readChunk_ends {dialect : ChatCompletionsDialect} {rawUsage : Option Json}
    {cost : Option TokenCost} {chunk : Json}
    (hEnds : ends (readChunk dialect rawUsage cost chunk) = true) :
    readChunk dialect rawUsage cost chunk = { extras := some chunk, error := true } := by
  revert hEnds
  simp only [readChunk, readChoice, ignored, ends, isTerminal]
  split_ifs <;> (repeat' split) <;> simp

theorem joined_append (field : Field) (fs gs : List Fragment) :
    joined field (fs ++ gs) = joined field fs ++ joined field gs := by
  induction fs with
  | nil => simp [joined]
  | cons f rest ih =>
    by_cases hField : f.field = field
    · simp [joined, hField, ih, String.append_assoc]
    · simp [joined, hField, ih]

/-- The chunk's own record carries no text. -/
theorem joined_extrasFragments (field : Field) (extras : Option Json) :
    joined field (extrasFragments extras) = "" := by
  match extras with
  | some (.obj fields) =>
    simp only [extrasFragments, part, joined_append]
    split_ifs <;> cases findObject (.obj fields) "error" <;>
      simp [joined, Fragment.text]
  | none | some .null | some (.bool _) | some (.integer _) | some (.float _) | some (.str _)
  | some (.arr _) => rfl

theorem joined_of_ends {dialect : ChatCompletionsDialect} {message : List (String × String)}
    (hEnds : ends (handleMessage parse dialect message) = true)
    (hFault : (handleMessage parse dialect message).protocolError = none) (field : Field) :
    joined field (fragments (handleMessage parse dialect message)) = "" := by
  revert hEnds hFault
  unfold handleMessage
  cases messageData message with
  | none => simp [ignored, ends, isTerminal]
  | some data =>
    by_cases hDone : data = "[DONE]"
    · simp [hDone, fragments, part, extrasFragments, joined]
    · simp only [hDone, if_false]
      cases hParse : parse data with
      | none => simp [ignored, ends, isTerminal]
      | some chunk =>
        dsimp only
        cases hNormal : dialect.normalizeChunk chunk with
        | error what =>
          by_cases hStrict : dialect.strictChunkTransform = true <;>
            simp [hStrict, ignored, ends, isTerminal]
        | ok normalized =>
          dsimp only
          intro hEnds hFault
          rw [readChunk_ends hEnds]
          simp only [fragments, part, ite_true, Option.map_none, Option.toList_none,
            List.flatMap_nil, List.append_nil, List.nil_append, joined_extrasFragments]

theorem text_next (reader : ChatCompletionsReader) (delta : ChatCompletionsDelta) (field : Field)
    (hText : delta.protocolError = none → joined field (fragments delta) = "") :
    (reader.next parse delta).text field = reader.text field := by
  have hAssemble : ∀ reader : ChatCompletionsReader,
      (reader.assemble parse).toAccumulated = reader.toAccumulated := by
    intro reader
    rw [assemble]
    split <;> rfl
  have hAccumulate : (reader.accumulate delta).text field = reader.text field := by
    cases hProtocol : delta.protocolError with
    | some what => simp [accumulate, hProtocol]
    | none =>
      simp only [accumulate, hProtocol]
      rw [← Accumulated.foldl_fragments, Accumulated.text_foldl_absorb, hText hProtocol,
        String.append_empty]
  simp only [next]
  split_ifs
  · rfl
  · exact hAccumulate
  · rw [hAssemble, hAccumulate]
  · exact hAccumulate

/-- **The cut of a stream carries no meaning**: two streams that differ in it leave the
reader in one state, with one response, one status and one error; and each field holds
the texts that the stream delivered for it, in their order. -/
theorem consume_recut (dialect : ChatCompletionsDialect)
    {messages messages' : List (List (String × String))}
    (h : Recut (messages.map (handleMessage parse dialect))
      (messages'.map (handleMessage parse dialect))) :
    consume parse dialect messages = consume parse dialect messages' ∧
      ∀ field, (consume parse dialect messages').text field =
        joined field (delivered (messages.map (handleMessage parse dialect))) := by
  refine ⟨drain_recut h, fun field => ?_⟩
  rw [consume, ← drain_recut h, drain, foldl_next _ _ rfl]
  have hBody : ∀ reader : ChatCompletionsReader, reader.text field = "" →
      Accumulated.text ((delivered (messages.map (handleMessage parse dialect))).foldl .absorb
        reader.toAccumulated) field =
      joined field (delivered (messages.map (handleMessage parse dialect))) := by
    intro reader hEmpty
    rw [Accumulated.text_foldl_absorb, hEmpty, String.empty_append]
  have hFresh : ({} : ChatCompletionsReader).text field = "" := by
    cases field <;> simp [Accumulated.text]
  cases hEnding : ending (messages.map (handleMessage parse dialect)) with
  | none => exact hBody {} hFresh
  | some last =>
    have hFound := List.find?_some hEnding
    obtain ⟨message, hMem, rfl⟩ := List.mem_map.mp (List.mem_of_find?_eq_some hEnding)
    exact (text_next _ _ field fun hFault => joined_of_ends hFound hFault field).trans
      (hBody {} hFresh)

def dataMessage (data : String) : List (String × String) := [("data", data)]

/-- A response in one chunk. -/
def wholeText : String :=
  "\x7b\"choices\":[\x7b\"delta\":\x7b\"content\":\"ab\",\"tool_calls\":[\x7b\"id" ++
  "\":\"c\",\"function\":\x7b\"name\":\"f\"\x7d\x7d]\x7d,\"finish_reason\":\"tool" ++
  "_calls\"\x7d]\x7d"

/-- Its first letter, with the call. -/
def leftText : String :=
  "\x7b\"choices\":[\x7b\"delta\":\x7b\"content\":\"a\",\"tool_calls\":[\x7b\"id" ++
  "\":\"c\",\"function\":\x7b\"name\":\"f\"\x7d\x7d]\x7d\x7d]\x7d"

/-- The rest. -/
def rightText : String :=
  "\x7b\"choices\":[\x7b\"delta\":\x7b\"content\":\"b\"\x7d,\"finish_reason\":\"t" ++
  "ool_calls\"\x7d]\x7d"

def chunkOf (choice : List (String × Json)) : Json :=
  Json.object [("choices", .arr [Json.object choice])]

def callEntry : Json :=
  Json.object [("id", .str "c"), ("function", Json.object [("name", .str "f")])]

def parseSample (text : String) : Option Json :=
  if text = wholeText then some (chunkOf
    [("delta", Json.object [("content", .str "ab"), ("tool_calls", .arr [callEntry])]),
     ("finish_reason", .str "tool_calls")])
  else if text = leftText then some (chunkOf
    [("delta", Json.object [("content", .str "a"), ("tool_calls", .arr [callEntry])])])
  else if text = rightText then some (chunkOf
    [("delta", Json.object [("content", .str "b")]), ("finish_reason", .str "tool_calls")])
  else none

def wholeStream : List (List (String × String)) :=
  [dataMessage wholeText, dataMessage "[DONE]"]

def cutStream : List (List (String × String)) :=
  [dataMessage leftText, dataMessage rightText, dataMessage "[DONE]"]

theorem recut_sample : Recut (wholeStream.map (handleMessage parseSample {}))
      (cutStream.map (handleMessage parseSample {})) := by
  have hWhole : delivered (wholeStream.map (handleMessage parseSample {})) =
      [.content "ab", .finishReason "tool_calls", .callId 0 "c", .callName 0 "f",
        .callArguments 0 ""] := by rfl
  have hCut : delivered (cutStream.map (handleMessage parseSample {})) =
      [.content "a", .callId 0 "c", .callName 0 "f", .callArguments 0 "", .content "b",
        .finishReason "tool_calls"] := by rfl
  refine ⟨?_, rfl⟩
  rw [hWhole, hCut]
  let call : List Fragment := [.callId 0 "c", .callName 0 "f", .callArguments 0 ""]
  have hFinish : ∀ g ∈ call, (Fragment.finishReason "tool_calls").field ≠ g.field := by
    simp [call, Fragment.field]
  have hRest : ∀ g ∈ call, (Fragment.content "b").field ≠ g.field := by
    simp [call, Fragment.field]
  exact .trans _ _ _ (.rel _ _ (.cut [] _ (.content "a" "b")))
    (.trans _ _ _ (recut_past call hFinish [.content "a", .content "b"] [])
      (recut_past call hRest [.content "a"] [.finishReason "tool_calls"]))

/-- A chunk cut in two, with the call between the halves of the text. -/
theorem consume_recut_sample :
    consume parseSample {} wholeStream = consume parseSample {} cutStream ∧
      (consume parseSample {} cutStream).text .content = "ab" :=
  ⟨(consume_recut {} recut_sample).1, (consume_recut {} recut_sample).2 .content⟩

end ChatCompletionsReader

end SimplexAgent.Llm.Chat
