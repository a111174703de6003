import SimplexAgent.Llm.ResponsesNames

/-!
# Increments and payloads

What the increments of a stream leave behind. A part of an item is one of its texts, or the
arguments of its call. An increment appends to one part; a payload puts new text in the parts that
it carries and leaves the others. So an increment is gone once a payload carries its part
(`Answered`), and an item that only increments know holds what they appended.
-/

namespace SimplexAgent.Llm.Responses

open Dataclass

/-! ## Parts of an item -/

inductive Part where
  | text (index : Nat)
  | refusal (index : Nat)
  | summary (index : Nat)
  | arguments
  deriving DecidableEq

namespace ItemContent

def textAt (content : ItemContent) : Part → String
  | .text index => content.textParts[index]?.getD ""
  | .refusal index => content.refusalParts[index]?.getD ""
  | .summary index => content.summaryParts[index]?.getD ""
  | .arguments => content.arguments

/-- What is not text. -/
def rest (content : ItemContent) : String × String × String × Option Json :=
  (content.type, content.callId, content.name, content.doneItem)

def Same (a b : ItemContent) : Prop := a.rest = b.rest ∧ ∀ part, a.textAt part = b.textAt part

end ItemContent

/-- **A payload**: it puts the text that it carries in some parts, leaves the others, and does not
look at texts. -/
structure Overwriting (use : ItemContent → ItemContent) : Prop where
  text : ∀ content part, (use content).textAt part =
    if (use {}).textAt part = "" then content.textAt part else (use {}).textAt part
  rest : ∀ a b : ItemContent, a.rest = b.rest → (use a).rest = (use b).rest

namespace Overwriting

theorem id : Overwriting fun content => content :=
  ⟨fun _ part => by cases part <;> rfl, fun _ _ h => h⟩

theorem comp {f g : ItemContent → ItemContent} (hg : Overwriting g) (hf : Overwriting f) :
    Overwriting fun content => g (f content) := by
  constructor
  · intro content part
    rw [hg.text (f content), hg.text (f {}), hf.text content]
    by_cases hEmpty : (g {}).textAt part = ""
    · rw [if_pos hEmpty, if_pos hEmpty]
    · rw [if_neg hEmpty, if_neg hEmpty, if_neg hEmpty]
  · exact fun a b h => hg.rest _ _ (hf.rest _ _ h)

theorem fold {α : Type} {use : ItemContent → α → ItemContent}
    (h : ∀ x, Overwriting fun content => use content x) (xs : List α) :
    Overwriting fun content => xs.foldl use content := by
  induction xs with
  | nil => exact id
  | cons x xs ih => exact ih.comp (h x)

theorem of_rest {use : ItemContent → ItemContent}
    (hText : ∀ content part, (use content).textAt part = content.textAt part)
    (hRest : ∀ a b : ItemContent, a.rest = b.rest → (use a).rest = (use b).rest) :
    Overwriting use := by
  refine ⟨fun content part => ?_, hRest⟩
  rw [hText, hText, if_pos (by cases part <;> rfl)]

theorem getD_overwrite (parts : Parts) (index k : Nat) (text : String) :
    (parts.overwrite index text)[k]?.getD "" =
      if index = k ∧ text ≠ "" then text else parts[k]?.getD "" := by
  unfold Parts.overwrite
  by_cases hText : text = ""
  · rw [if_pos hText, if_neg fun h => h.2 hText]
  · rw [if_neg hText, Std.ExtTreeMap.getElem?_insert]
    by_cases hk : index = k
    · rw [if_pos (Std.compare_eq_iff_eq.mpr hk), if_pos ⟨hk, hText⟩]
      rfl
    · rw [if_neg fun h => hk (Std.compare_eq_iff_eq.mp h), if_neg fun h => hk h.1]

theorem getD_overwrite_empty (parts : Parts) (index k : Nat) (text : String) :
    (parts.overwrite index text)[k]?.getD "" =
      if (Parts.overwrite ∅ index text)[k]?.getD "" = "" then parts[k]?.getD ""
      else (Parts.overwrite ∅ index text)[k]?.getD "" := by
  rw [getD_overwrite, getD_overwrite]
  by_cases h : index = k ∧ text ≠ ""
  · rw [if_pos h, if_pos h, if_neg h.2]
  · rw [if_neg h, if_neg h, Std.ExtTreeMap.getElem?_empty, Option.getD_none, if_pos rfl]

theorem text_part (index : Nat) (text : String) : Overwriting fun content =>
    { content with textParts := content.textParts.overwrite index text } := by
  refine ⟨fun content part => ?_, fun _ _ h => h⟩
  cases part with
  | text k => exact getD_overwrite_empty _ _ _ _
  | refusal k | summary k | arguments => rfl

theorem refusal_part (index : Nat) (text : String) : Overwriting fun content =>
    { content with refusalParts := content.refusalParts.overwrite index text } := by
  refine ⟨fun content part => ?_, fun _ _ h => h⟩
  cases part with
  | text k | summary k | arguments => rfl
  | refusal k => exact getD_overwrite_empty _ _ _ _

theorem summary_part (index : Nat) (text : String) : Overwriting fun content =>
    { content with summaryParts := content.summaryParts.overwrite index text } := by
  refine ⟨fun content part => ?_, fun _ _ h => h⟩
  cases part with
  | text k | refusal k | arguments => rfl
  | summary k => exact getD_overwrite_empty _ _ _ _

theorem arguments (text : String) : Overwriting fun content =>
    { content with arguments := overwriteText content.arguments text } := by
  refine ⟨fun content part => ?_, fun _ _ h => h⟩
  cases part with
  | arguments =>
    show overwriteText content.arguments text =
      if overwriteText "" text = "" then content.arguments else overwriteText "" text
    unfold overwriteText
    by_cases hText : text = ""
    · rw [if_pos hText, if_pos hText, if_pos rfl]
    · rw [if_neg hText, if_neg hText, if_neg hText]
  | text k | refusal k | summary k => rfl

theorem scalars (type callId name : String) (doneItem : Option Json) : Overwriting fun content =>
    { content with
      type := overwriteText content.type type
      callId := overwriteText content.callId callId
      name := overwriteText content.name name
      doneItem := doneItem.or content.doneItem } := by
  refine of_rest (fun _ part => by cases part <;> rfl) fun a b h => ?_
  simp only [ItemContent.rest, Prod.mk.injEq] at h ⊢
  obtain ⟨hType, hCallId, hName, hDone⟩ := h
  rw [hType, hCallId, hName, hDone]
  exact ⟨rfl, rfl, rfl, rfl⟩

theorem message_part (index : Nat) (part : Json) :
    Overwriting fun content => readMessagePart content index part := by
  unfold readMessagePart
  by_cases hText : getString part "type" = "output_text"
  · simp only [if_pos hText]
    exact text_part _ _
  · simp only [if_neg hText]
    by_cases hRefusal : getString part "type" = "refusal"
    · simp only [if_pos hRefusal]
      exact refusal_part _ _
    · simp only [if_neg hRefusal]
      exact id

theorem array {read : ItemContent → Nat → Json → ItemContent} (j : Json) (key : String)
    (h : ∀ index part, Overwriting fun content => read content index part) :
    Overwriting (foldArray j key read) := by
  unfold foldArray
  split
  · exact fold (fun entry : Json × Nat => h entry.2 entry.1) _
  · exact id

theorem outputItem (itemJson : Json) (authoritative : Bool) :
    Overwriting (readOutputItem itemJson authoritative) := by
  have hNew : ∀ old : String, overwriteText old "" = old := fun _ => if_pos rfl
  have hType := scalars (getString itemJson "type") "" "" none
  have hDone := scalars "" "" "" (if authoritative then some itemJson else none)
  simp only [hNew, Option.none_or] at hType hDone
  have hParts : Overwriting fun content =>
      if getString itemJson "type" = "message" then
        foldArray itemJson "content" readMessagePart content
      else if getString itemJson "type" = "reasoning" then
        foldArray itemJson "content" (fun content index part =>
          { content with
            textParts := content.textParts.overwrite index (getString part "text") })
          (foldArray itemJson "summary" (fun content index part =>
            { content with
              summaryParts := content.summaryParts.overwrite index (getString part "text") })
            content)
      else if getString itemJson "type" = "function_call" then
        { content with
          callId := overwriteText content.callId (getString itemJson "call_id")
          name := overwriteText content.name (getString itemJson "name")
          arguments := overwriteText content.arguments (getString itemJson "arguments") }
      else content := by
    by_cases hMessage : getString itemJson "type" = "message"
    · simp only [if_pos hMessage]
      exact array _ _ message_part
    · simp only [if_neg hMessage]
      by_cases hReasoning : getString itemJson "type" = "reasoning"
      · simp only [if_pos hReasoning]
        exact (array _ _ fun _ _ => text_part _ _).comp (array _ _ fun _ _ => summary_part _ _)
      · simp only [if_neg hReasoning]
        by_cases hCall : getString itemJson "type" = "function_call"
        · simp only [if_pos hCall]
          have hNames := scalars "" (getString itemJson "call_id") (getString itemJson "name") none
          simp only [hNew, Option.none_or] at hNames
          exact (arguments (getString itemJson "arguments")).comp hNames
        · simp only [if_neg hCall]
          exact id
  have hAll := hDone.comp (hParts.comp hType)
  refine cast (congrArg Overwriting (funext fun content => ?_)) hAll
  cases authoritative <;> rfl

/-- What a `*.done` event puts in a slot is a payload. -/
theorem done {event : Json} {overwrite : ItemContent → ItemContent}
    (h : doneOverwrite event = some overwrite) : Overwriting overwrite := by
  have hNew : ∀ old : String, overwriteText old "" = old := fun _ => if_pos rfl
  unfold doneOverwrite at h
  dsimp only at h
  split_ifs at h <;> rw [Option.some.injEq] at h <;> subst h
  · exact text_part _ _
  · exact refusal_part _ _
  · exact summary_part _ _
  · have hName := scalars "" "" (getString event "name") none
    simp only [hNew, Option.none_or] at hName
    exact (arguments (getString event "arguments")).comp hName
  · split
    · exact summary_part _ _
    · exact id

end Overwriting

/-! ## Increments -/

def ResponsesDelta.part (delta : ResponsesDelta) : Option Part :=
  let index := delta.contentIndex.getD 0
  match delta.kind with
  | .text | .reasoningText => some (.text index)
  | .refusal => some (.refusal index)
  | .reasoningSummary => some (.summary index)
  | .toolCallArgs => some .arguments
  | .marker | .ignored => none

theorem getD_append (parts : Parts) (index k : Nat) (text : String) :
    (parts.append index text)[k]?.getD "" =
      if index = k then parts[k]?.getD "" ++ text else parts[k]?.getD "" := by
  rw [Parts.getElem?_append]
  by_cases hk : index = k
  · rw [if_pos hk, if_pos hk, hk]
    rfl
  · rw [if_neg hk, if_neg hk]

theorem textAt_appendIncrement (delta : ResponsesDelta) (content : ItemContent) (part : Part) :
    (ResponsesReader.appendIncrement delta content).textAt part =
      if delta.part = some part then content.textAt part ++ delta.text
      else content.textAt part := by
  unfold ResponsesReader.appendIncrement ResponsesDelta.part
  cases delta.kind <;> cases part <;>
    simp only [ItemContent.textAt, Option.some.injEq, Part.text.injEq, Part.refusal.injEq,
      Part.summary.injEq, reduceCtorEq, if_true, if_false, getD_append]

theorem rest_appendIncrement (delta : ResponsesDelta) (content : ItemContent) :
    (ResponsesReader.appendIncrement delta content).rest = content.rest := by
  unfold ResponsesReader.appendIncrement
  cases delta.kind <;> rfl

def isIncrement (event : Json) : Bool := (incrementKind (getString event "type")).isSome

/-- A stream without its increments. -/
def payloads (events : List Json) : List Json := events.filter fun event => !isIncrement event

/-- A touch, with the increment that it is of. -/
structure Write where
  touch : Touch
  delta : Option ResponsesDelta

def writes (event : Json) : List Write :=
  (touches event).map fun t => ⟨t, if isIncrement event then some (decode event) else none⟩

def streamWrites (events : List Json) : List Write :=
  (OutputItems.consumed events).flatMap writes

def Write.appends (w : Write) (part : Part) : String :=
  match w.delta with
  | some delta => if delta.part = some part then delta.text else ""
  | none => ""

/-- An increment appends, and everything else is a payload. -/
def Write.Sound (w : Write) : Prop :=
  match w.delta with
  | some delta => w.touch.use = ResponsesReader.appendIncrement delta
  | none => Overwriting w.touch.use

theorem writes_sound {event : Json} {w : Write} (h : w ∈ writes event) : w.Sound := by
  obtain ⟨t, ht, rfl⟩ := List.mem_map.mp h
  unfold Write.Sound isIncrement
  unfold touches at ht
  dsimp only at ht ⊢
  by_cases hIncrement : (incrementKind (getString event "type")).isSome = true
  · rw [if_pos hIncrement] at ht ⊢
    rw [List.mem_singleton.mp ht]
    rfl
  · rw [if_neg hIncrement] at ht ⊢
    split at ht
    · rename_i overwrite hDone
      rw [List.mem_singleton.mp ht]
      exact Overwriting.done hDone
    · split at ht
      · split at ht
        · rw [List.mem_singleton.mp ht]
          exact Overwriting.outputItem _ _
        · cases ht
      · split at ht
        · obtain ⟨entry, -, rfl⟩ := List.mem_map.mp ht
          show Overwriting (readOutputItem entry.1 true)
          exact Overwriting.outputItem _ _
        · cases ht

theorem map_touch_writes (event : Json) : (writes event).map Write.touch = touches event := by
  rw [writes, List.map_map]
  exact List.map_id _

theorem filter_writes (event : Json) :
    (writes event).filter (·.delta.isNone) = if isIncrement event then [] else writes event := by
  unfold writes
  by_cases hIncrement : isIncrement event = true
  · rw [if_pos hIncrement, if_pos hIncrement, List.filter_eq_nil_iff]
    intro w hw
    obtain ⟨t, -, rfl⟩ := List.mem_map.mp hw
    exact Bool.false_ne_true
  · rw [if_neg hIncrement, if_neg hIncrement, List.filter_eq_self]
    intro w hw
    obtain ⟨t, -, rfl⟩ := List.mem_map.mp hw
    rfl

theorem isIncrement_quiet {event : Json} (h : isIncrement event = true) :
    isTerminal (decode event) = false ∧
      ∀ fields, ResponsesReader.fieldsAfter fields event = fields := by
  obtain ⟨kind, hKind⟩ := Option.isSome_iff_exists.mp h
  obtain ⟨-, -, -, -, hLifecycle⟩ := incrementKind_some hKind
  refine ⟨?_, fun fields => ResponsesReader.fieldsAfter_other hLifecycle⟩
  exact Bool.eq_false_of_not_eq_true fun hEnd => hLifecycle (lifecycle_of_isTerminal hEnd)

theorem consumed_payloads (events : List Json) :
    OutputItems.consumed (payloads events) = payloads (OutputItems.consumed events) := by
  induction events with
  | nil => rfl
  | cons event rest ih =>
    unfold payloads at ih ⊢
    by_cases hIncrement : isIncrement event = true
    · have hOpen : ¬isTerminal (decode event) = true := by
        rw [(isIncrement_quiet hIncrement).1]
        exact Bool.false_ne_true
      rw [OutputItems.consumed_open hOpen, List.filter_cons_of_neg (by simp [hIncrement]),
        List.filter_cons_of_neg (by simp [hIncrement]), ih]
    · rw [List.filter_cons_of_pos (by simp [hIncrement])]
      by_cases hEnd : isTerminal (decode event) = true
      · rw [OutputItems.consumed_end hEnd, OutputItems.consumed_end hEnd,
          List.filter_cons_of_pos (by simp [hIncrement]), List.filter_nil]
      · rw [OutputItems.consumed_open hEnd, OutputItems.consumed_open hEnd,
          List.filter_cons_of_pos (by simp [hIncrement]), ih]

theorem stream_payloads (events : List Json) : OutputItems.streamTouches (payloads events) =
        ((streamWrites events).filter (·.delta.isNone)).map Write.touch ∧
      (∀ fields, (OutputItems.consumed (payloads events)).foldl ResponsesReader.fieldsAfter fields =
        (OutputItems.consumed events).foldl ResponsesReader.fieldsAfter fields) ∧
      ResponsesReader.finished (payloads events) = ResponsesReader.finished events := by
  unfold OutputItems.streamTouches ResponsesReader.finished streamWrites
  rw [consumed_payloads]
  unfold payloads
  induction OutputItems.consumed events with
  | nil => exact ⟨rfl, fun _ => rfl, rfl⟩
  | cons event rest ih =>
    obtain ⟨hTouches, hFields, hEnd⟩ := ih
    rw [List.flatMap_cons, List.filter_append, List.map_append, filter_writes, List.any_cons]
    by_cases hIncrement : isIncrement event = true
    · obtain ⟨hOpen, hQuiet⟩ := isIncrement_quiet hIncrement
      rw [List.filter_cons_of_neg (by simp [hIncrement]), if_pos hIncrement, hOpen]
      refine ⟨hTouches, fun fields => ?_, hEnd⟩
      rw [hFields, List.foldl_cons, hQuiet]
    · rw [List.filter_cons_of_pos (by simp [hIncrement]), if_neg hIncrement,
        List.flatMap_cons, List.any_cons, hEnd, hTouches, map_touch_writes]
      exact ⟨rfl, fun fields => hFields _, rfl⟩

theorem streamTouches_writes (events : List Json) :
    OutputItems.streamTouches events = (streamWrites events).map Write.touch := by
  rw [OutputItems.streamTouches, streamWrites, List.map_flatMap]
  exact List.flatMap_congr fun event _ => (map_touch_writes event).symm

/-! ## What remains of an item -/

namespace OutputItems

variable (items : OutputItems)

def Carried (item : Option Nat) (part : Part) (ws : List Write) : Prop :=
  ∃ w ∈ ws, w.delta.isNone = true ∧ items.resolve w.touch = item ∧ (w.touch.use {}).textAt part ≠ ""

/-- **Every increment with text is followed by a payload that carries its part.** -/
def Answered : List Write → Prop
  | [] => True
  | w :: later =>
    (∀ delta ∈ w.delta, delta.text ≠ "" → ∀ part ∈ delta.part,
      items.Carried (items.resolve w.touch) part later) ∧ Answered later

instance (item : Option Nat) (part : Part) (ws : List Write) :
    Decidable (items.Carried item part ws) :=
  inferInstanceAs (Decidable (∃ w ∈ ws, w.delta.isNone = true ∧ items.resolve w.touch = item ∧
    (w.touch.use {}).textAt part ≠ ""))

instance decidableAnswered : ∀ ws : List Write, Decidable (items.Answered ws)
  | [] => isTrue trivial
  | w :: later =>
    have := decidableAnswered later
    inferInstanceAs (Decidable ((∀ delta ∈ w.delta, delta.text ≠ "" → ∀ part ∈ delta.part,
      items.Carried (items.resolve w.touch) part later) ∧ items.Answered later))

def appended (n : Nat) (part : Part) : List Write → String
  | [] => ""
  | w :: later =>
    (if items.resolve w.touch = some n then w.appends part else "") ++ appended n part later

def written (n : Nat) (content : ItemContent) (ws : List Write) : ItemContent :=
  (items.touchesOf n (ws.map Write.touch)).foldl (fun content t => t.use content) content

variable {items}

theorem written_cons (n : Nat) (content : ItemContent) (w : Write) (ws : List Write) :
    items.written n content (w :: ws) =
      items.written n (if items.resolve w.touch = some n then w.touch.use content else content)
        ws := by
  rw [written, List.map_cons, touchesOf]
  by_cases hItem : items.resolve w.touch = some n
  · rw [List.filter_cons_of_pos (by simp [hItem]), if_pos hItem]
    rfl
  · rw [List.filter_cons_of_neg (by simp [hItem]), if_neg hItem]
    rfl

theorem Carried.of_cons {item : Option Nat} {part : Part} {w : Write} {ws : List Write}
    (h : items.Carried item part (w :: ws))
    (hOther : w.delta.isNone = true → items.resolve w.touch = item →
      (w.touch.use {}).textAt part = "") : items.Carried item part ws := by
  obtain ⟨u, hu, hPayload, hItem, hText⟩ := h
  rcases List.mem_cons.mp hu with rfl | hLater
  · exact absurd (hOther hPayload hItem) hText
  · exact ⟨u, hLater, hPayload, hItem, hText⟩

/-- **Answered increments leave nothing**, by induction on the writes: with and without them, an
item is the same but for parts that a payload still has to carry. -/
theorem written_payloads {n : Nat} (ws : List Write) :
    ∀ a b : ItemContent, (∀ w ∈ ws, w.Sound) → items.Answered ws → a.rest = b.rest →
      (∀ part, a.textAt part = b.textAt part ∨ items.Carried (some n) part ws) →
      (items.written n a ws).Same (items.written n b (ws.filter (·.delta.isNone))) := by
  induction ws with
  | nil =>
    intro a b _ _ hRest hText
    refine ⟨hRest, fun part => (hText part).resolve_right ?_⟩
    rintro ⟨w, hw, -⟩
    cases hw
  | cons w ws ih =>
    intro a b hSound hAnswered hRest hText
    have hHere := hSound w List.mem_cons_self
    have hLater := fun a b =>
      ih a b (fun u hu => hSound u (List.mem_cons_of_mem _ hu)) hAnswered.2
    rw [written_cons]
    cases hDelta : w.delta with
    | some delta =>
      rw [List.filter_cons_of_neg (by simp [hDelta])]
      have hOld : ∀ part, a.textAt part = b.textAt part ∨ items.Carried (some n) part ws :=
        fun part => (hText part).imp_right fun h => h.of_cons fun hNone => by
          rw [hDelta] at hNone
          cases hNone
      by_cases hItem : items.resolve w.touch = some n
      · rw [Write.Sound, hDelta] at hHere
        rw [if_pos hItem, show w.touch.use = _ from hHere]
        refine hLater _ _ ((rest_appendIncrement delta a).trans hRest) fun part => ?_
        rw [textAt_appendIncrement]
        by_cases hPart : delta.part = some part
        · rw [if_pos hPart]
          by_cases hEmpty : delta.text = ""
          · rw [hEmpty, String.append_empty]
            exact hOld part
          · exact Or.inr (hItem ▸ hAnswered.1 delta hDelta hEmpty part hPart)
        · rw [if_neg hPart]
          exact hOld part
      · rw [if_neg hItem]
        exact hLater _ _ hRest hOld
    | none =>
      rw [List.filter_cons_of_pos (by simp [hDelta]), written_cons]
      by_cases hItem : items.resolve w.touch = some n
      · rw [Write.Sound, hDelta] at hHere
        rw [if_pos hItem, if_pos hItem]
        refine hLater _ _ (Overwriting.rest hHere a b hRest) fun part => ?_
        rw [Overwriting.text hHere a, Overwriting.text hHere b]
        by_cases hEmpty : (w.touch.use {}).textAt part = ""
        · rw [if_pos hEmpty, if_pos hEmpty]
          exact (hText part).imp_right fun h => h.of_cons fun _ _ => hEmpty
        · rw [if_neg hEmpty, if_neg hEmpty]
          exact Or.inl rfl
      · rw [if_neg hItem, if_neg hItem]
        exact hLater _ _ hRest fun part =>
          (hText part).imp_right fun h => h.of_cons fun _ hSame => absurd hSame hItem

theorem textAt_written {n : Nat} (ws : List Write) : ∀ content : ItemContent, (∀ w ∈ ws, w.Sound) →
      (∀ w ∈ ws, items.resolve w.touch = some n → w.delta.isSome = true) →
      ∀ part, (items.written n content ws).textAt part =
        content.textAt part ++ items.appended n part ws := by
  induction ws with
  | nil => exact fun content _ _ part => String.append_empty.symm
  | cons w ws ih =>
    intro content hSound hOnly part
    have hHere := hSound w List.mem_cons_self
    rw [written_cons, ih _ (fun u hu => hSound u (List.mem_cons_of_mem _ hu))
      (fun u hu => hOnly u (List.mem_cons_of_mem _ hu)), appended, ← String.append_assoc]
    congr 1
    by_cases hItem : items.resolve w.touch = some n
    · obtain ⟨delta, hDelta⟩ :=
        Option.isSome_iff_exists.mp (hOnly w List.mem_cons_self hItem)
      rw [Write.Sound, hDelta] at hHere
      rw [if_pos hItem, if_pos hItem, show w.touch.use = _ from hHere, textAt_appendIncrement,
        Write.appends, hDelta]
      by_cases hPart : delta.part = some part
      · rw [if_pos hPart]
        exact congrArg _ (if_pos hPart).symm
      · rw [if_neg hPart]
        exact String.append_empty.symm.trans (congrArg _ (if_neg hPart).symm)
    · rw [if_neg hItem, if_neg hItem, String.append_empty]

end OutputItems

/-! ## The message -/

def Parts.shown (parts : Parts) : List (Nat × String) :=
  parts.toList.filter fun part => part.2 ≠ ""

theorem foldl_filter_of_skip {α β : Type} {f : β → α → β} {p : α → Bool}
    (h : ∀ b a, p a = false → f b a = b) (l : List α) :
    ∀ b, l.foldl f b = (l.filter p).foldl f b := by
  induction l with
  | nil => exact fun _ => rfl
  | cons a l ih =>
    intro b
    rw [List.foldl_cons, ih]
    cases hp : p a with
    | true => rw [List.filter_cons_of_pos hp, List.foldl_cons]
    | false => rw [List.filter_cons_of_neg (by simp [hp]), h b a hp]

theorem Parts.joinContent_shown (parts : Parts) :
    parts.joinContent = parts.shown.foldl (fun joined part => joined ++ part.2) "" := by
  refine foldl_filter_of_skip (fun joined part hEmpty => ?_) _ _
  have hEmpty : part.2 = "" := by simpa using hEmpty
  rw [hEmpty, String.append_empty]

theorem Parts.joinSummary_shown (parts : Parts) :
    parts.joinSummary = parts.shown.foldl (fun joined part =>
      if part.2 = "" then joined
      else if joined = "" then joined ++ part.2
      else joined ++ "\n\n" ++ part.2) "" := by
  refine foldl_filter_of_skip (fun joined part hEmpty => ?_) _ _
  exact if_pos (by simpa using hEmpty)

theorem Parts.mem_shown {parts : Parts} {k : Nat} {text : String} :
    (k, text) ∈ parts.shown ↔ parts[k]?.getD "" = text ∧ text ≠ "" := by
  rw [shown, List.mem_filter, Std.ExtTreeMap.mem_toList_iff_getElem?_eq_some, decide_eq_true_eq]
  refine and_congr_left fun hText => ?_
  cases parts[k]? with
  | some other => simp
  | none => simp [Ne.symm hText]

theorem Parts.shown_congr {a b : Parts} (h : ∀ k : Nat, a[k]?.getD "" = b[k]?.getD "") :
    a.shown = b.shown := by
  have hSorted : ∀ parts : Parts, parts.shown.Pairwise fun x y => x.1 < y.1 := fun parts =>
    ((Std.ExtTreeMap.ordered_keys_toList (t := parts)).imp
      fun h => Nat.compare_eq_lt.mp h).filter _
  have hIrrefl : Std.Irrefl fun x y : Nat × String => x.1 < y.1 := ⟨fun x => Nat.lt_irrefl x.1⟩
  have hAntisymm : Std.Antisymm fun x y : Nat × String => x.1 < y.1 :=
    ⟨fun x y h h' => absurd (Nat.lt_trans h h') (Nat.lt_irrefl x.1)⟩
  refine List.Pairwise.eq_of_mem_iff (hSorted a) (hSorted b) fun entry => ?_
  rw [Parts.mem_shown, Parts.mem_shown, h]

namespace ItemContent

variable {a b : ItemContent}

theorem Same.text (h : a.Same b) : a.textParts.joinContent = b.textParts.joinContent := by
  rw [Parts.joinContent_shown, Parts.joinContent_shown, Parts.shown_congr fun k => h.2 (.text k)]

theorem Same.refusal (h : a.Same b) : a.refusalParts.joinContent = b.refusalParts.joinContent := by
  rw [Parts.joinContent_shown, Parts.joinContent_shown, Parts.shown_congr fun k => h.2 (.refusal k)]

theorem Same.summary (h : a.Same b) : a.summaryParts.joinSummary = b.summaryParts.joinSummary := by
  rw [Parts.joinSummary_shown, Parts.joinSummary_shown, Parts.shown_congr fun k => h.2 (.summary k)]

end ItemContent

namespace ResponsesReader

variable (parse : String → Option Json)

/-- Parts without text do not show in the message. -/
theorem assembleItem_same (acc : Assembly) {a b : ItemContent} (h : a.Same b) :
    assembleItem parse acc a = assembleItem parse acc b := by
  have hRest := h.1
  simp only [ItemContent.rest, Prod.mk.injEq] at hRest
  obtain ⟨hType, hCallId, hName, hDone⟩ := hRest
  have hArguments : a.arguments = b.arguments := h.2 .arguments
  simp only [assembleItem, asMessage, asReasoning, asCall, callOf, hType, hCallId, hName, hDone,
    hArguments, h.text, h.refusal, h.summary]

theorem assembleItem_empty (acc : Assembly) : assembleItem parse acc {} = acc := by
  have hContent : Parts.joinContent ∅ = "" := by
    rw [Parts.joinContent, Std.ExtTreeMap.toList_eq_nil_iff.mpr rfl, List.foldl_nil]
  have hSummary : Parts.joinSummary ∅ = "" := by
    rw [Parts.joinSummary, Std.ExtTreeMap.toList_eq_nil_iff.mpr rfl, List.foldl_nil]
  simp [assembleItem, hContent, hSummary]

theorem assembleMessage_filter (fields : ResponseFields) {content : Nat → ItemContent}
    {seen : Nat → Bool} (h : ∀ n, seen n = false → content n = {}) (l : List Nat) :
    assembleMessage parse fields ((l.filter seen).map content) =
      assembleMessage parse fields (l.map content) := by
  unfold assembleMessage
  rw [List.foldl_map, List.foldl_map, ← foldl_filter_of_skip]
  intro acc n hNone
  rw [h n hNone, assembleItem_empty]

theorem assembleMessage_same (fields : ResponseFields) {content content' : Nat → ItemContent}
    (l : List Nat) (h : ∀ n, (content n).Same (content' n)) :
    assembleMessage parse fields (l.map content) =
      assembleMessage parse fields (l.map content') := by
  have hFold : (l.map content).foldl (assembleItem parse) {} =
      (l.map content').foldl (assembleItem parse) {} := by
    rw [List.foldl_map, List.foldl_map]
    congr 1
    funext acc n
    exact assembleItem_same parse acc (h n)
  unfold assembleMessage
  rw [hFold]

end ResponsesReader

/-! ## Streams with and without their increments -/

namespace OutputItems

variable {items : OutputItems}

theorem streamWrites_sound (events : List Json) : ∀ w ∈ streamWrites events, w.Sound := by
  intro w hw
  obtain ⟨event, -, hMem⟩ := List.mem_flatMap.mp hw
  exact writes_sound hMem

theorem contentOf_stream (n : Nat) (events : List Json) :
    items.contentOf n (streamTouches events) = items.written n {} (streamWrites events) := by
  rw [contentOf, written, streamTouches_writes]

theorem contentOf_payloads (n : Nat) (events : List Json) :
    items.contentOf n (streamTouches (payloads events)) =
      items.written n {} ((streamWrites events).filter (·.delta.isNone)) := by
  rw [contentOf, written, (stream_payloads events).1]

theorem response_eq (parse : String → Option Json) (events : List Json)
    (hNames : items.NamesItems (streamTouches events)) (hFree : items.Unreserved)
    (hWell : items.WellNamedItems (streamTouches events)) :
    (ResponsesReader.consume parse events).response =
      if ResponsesReader.finished events then
        ResponsesReader.assembleMessage parse
          ((consumed events).foldl ResponsesReader.fieldsAfter {})
          ((List.range items.ids.length).map fun n => items.contentOf n (streamTouches events))
      else {} := by
  have hReader := ResponsesReader.run_eq parse events {} rfl
  rw [show ResponsesReader.consume parse events = _ from hReader]
  dsimp only
  rw [ordered_contents hFree hNames hWell, touched,
    ResponsesReader.assembleMessage_filter]
  intro n hNone
  have hEmpty : items.touchesOf n (streamTouches events) = [] := by simpa using hNone
  rw [contentOf, hEmpty]
  rfl

end OutputItems

def secondPart : Json :=
  Json.object [("type", .str "response.output_text.delta"), ("item_id", .str "a"),
    ("output_index", Json.uint 0), ("content_index", Json.uint 1), ("delta", .str "B")]

def doneRecord : List Json :=
  [Json.object [("type", .str "response.output_item.done"), ("output_index", Json.uint 0),
     ("item", messageRecord "a" "C")],
   Json.object [("type", .str "response.completed")]]

end SimplexAgent.Llm.Responses
