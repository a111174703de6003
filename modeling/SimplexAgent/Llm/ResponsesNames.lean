import SimplexAgent.Llm.ResponsesSlots

/-!
# Streams that name their items in different ways

The events of a stream as touches of slots, the same stream with both names on every
event, and when the reader assembles the same message from the two.

The reader is meant to make no difference between the ways an event can name its item.
It does not quite: a slot that was opened by index loses its place when an event with
both names takes it over, as one that is known by its id only never had one; and an item
can be left with two slots, or with bytes of the one behind those of the other. The
streams that come out right nevertheless are `WellNamedItems`.
-/

namespace SimplexAgent.Llm.Responses

open Dataclass

/-! ## Events as touches -/

variable {event : Json}

theorem findObject_isObject {j value : Json} {key : String} (h : findObject j key = some value) :
    value.IsObject := by
  unfold findObject at h
  split at h
  · injection h with h
    rw [← h]
    trivial
  · cases h

/-- An event with `item_id` and `output_index` fields. -/
def eventTouch (event : Json) (use : ItemContent → ItemContent) : Touch where
  id := getString event "item_id"
  index := getIndex event "output_index"
  use := use
  authoritative := false

def itemTouch (itemJson : Json) (index : Option Nat) (authoritative : Bool) : Touch where
  id := getString itemJson "id"
  index := index
  use := readOutputItem itemJson authoritative
  authoritative := authoritative

def outputRecords (event : Json) : List (Json × Nat) :=
  match (findObject event "response").bind fun response => response.find? "output" with
  | some (.arr items) => items.zipIdx.filter fun entry => entry.1.IsObject
  | _ => []

def touches (event : Json) : List Touch :=
  let type := getString event "type"
  if (incrementKind type).isSome then
    [eventTouch event (ResponsesReader.appendIncrement (decode event))]
  else
    match doneOverwrite event with
    | some overwrite => [eventTouch event overwrite]
    | none =>
      if type ∈ itemTypes then
        match findObject event "item" with
        | some itemJson => [itemTouch itemJson (getIndex event "output_index")
            (type = "response.output_item.done")]
        | none => []
      else if type ∈ lifecycleTypes then
        (outputRecords event).map fun entry => itemTouch entry.1 (some entry.2) true
      else []

/-! ## Accumulation by touches -/

namespace ItemSlots

theorem accumulateOutputItem_touch (slots : ItemSlots) (itemJson : Json) (index : Option Nat)
    (authoritative : Bool) (hObject : itemJson.IsObject) :
    slots.accumulateOutputItem itemJson index authoritative =
      slots.touch (itemTouch itemJson index authoritative) := by
  rw [accumulateOutputItem, if_pos hObject]
  rfl

theorem foldl_accumulateOutputItem (entries : List (Json × Nat)) : ∀ slots : ItemSlots,
      entries.foldl (fun slots entry =>
          slots.accumulateOutputItem entry.1 (some entry.2) true) slots =
        ((entries.filter fun entry => entry.1.IsObject).map fun entry =>
          itemTouch entry.1 (some entry.2) true).foldl ItemSlots.touch slots := by
  induction entries with
  | nil => exact fun _ => rfl
  | cons entry rest ih =>
    intro slots
    rw [List.foldl_cons, ih]
    by_cases hObject : entry.1.IsObject
    · rw [accumulateOutputItem_touch slots _ _ _ hObject,
        List.filter_cons_of_pos (by simpa using hObject)]
      rfl
    · rw [List.filter_cons_of_neg (by simpa using hObject), accumulateOutputItem,
        if_neg hObject]

theorem readOutput_touches (slots : ItemSlots) (event : Json) : slots.readOutput event =
      ((outputRecords event).map fun entry =>
        itemTouch entry.1 (some entry.2) true).foldl ItemSlots.touch slots := by
  unfold readOutput outputRecords
  cases (findObject event "response").bind fun response => response.find? "output" with
  | none => rfl
  | some output =>
    cases output with
    | arr items => exact foldl_accumulateOutputItem _ slots
    | _ => rfl

end ItemSlots

theorem incrementKind_some {type : String} {kind : DeltaKind} (h : incrementKind type = some kind) :
    type ≠ "" ∧ kind ≠ .marker ∧ kind ≠ .ignored ∧ type ∉ itemTypes ∧ type ∉ lifecycleTypes := by
  unfold incrementKind at h
  split_ifs at h <;> cases h <;> subst_vars <;> decide

theorem decode_increment {kind : DeltaKind}
    (h : incrementKind (getString event "type") = some kind) :
    (decode event).kind = kind ∧ (decode event).itemId = getString event "item_id" ∧
      (decode event).outputIndex = getIndex event "output_index" := by
  have hType := (incrementKind_some h).1
  unfold decode
  rw [if_neg hType, h]
  cases kind <;> exact ⟨rfl, rfl, rfl⟩

theorem doneOverwrite_type {overwrite : ItemContent → ItemContent}
    (h : doneOverwrite event = some overwrite) :
    getString event "type" ∈ markerTypes ∧ getString event "type" ∉ lifecycleTypes := by
  unfold doneOverwrite at h
  dsimp only at h
  split_ifs at h with h1 h2 h3 h4 h5
  · rcases h1 with h1 | h1 <;> rw [h1] <;> decide
  · rw [h2]
    decide
  · rw [h3]
    decide
  · rw [h4]
    decide
  · rw [h5]
    decide

theorem itemTypes_not_lifecycle {type : String} (h : type ∈ itemTypes) : type ∉ lifecycleTypes := by
  simp only [itemTypes, List.mem_cons, List.not_mem_nil, or_false] at h
  rcases h with rfl | rfl <;> decide

theorem mem_markerTypes {type : String} (h : type ∈ itemTypes ∨ type ∈ lifecycleTypes) :
    type ∈ markerTypes := by
  simp only [itemTypes, lifecycleTypes, markerTypes, List.mem_cons, List.not_mem_nil, or_false] at h ⊢
  tauto

theorem object_of_type (h : getString event "type" ≠ "") : ∃ fields, event = .obj fields := by
  cases event with
  | obj fields => exact ⟨fields, rfl⟩
  | _ => exact absurd rfl h

theorem decode_marker (h : getString event "type" ∈ markerTypes) :
    decode event = marker event ∧ incrementKind (getString event "type") = none ∧
      ∃ fields, event = .obj fields := by
  have hType : getString event "type" ≠ "" := by
    intro hEmpty
    rw [hEmpty] at h
    exact absurd h (by decide)
  have hIncrement : incrementKind (getString event "type") = none := by
    cases hKind : incrementKind (getString event "type") with
    | none => rfl
    | some kind =>
      unfold incrementKind at hKind
      split_ifs at hKind with h1 h2 h3 h4 h5
      · rw [h1] at h
        exact absurd h (by decide)
      · rw [h2] at h
        exact absurd h (by decide)
      · rw [h3] at h
        exact absurd h (by decide)
      · rw [h4] at h
        exact absurd h (by decide)
      · rw [h5] at h
        exact absurd h (by decide)
  refine ⟨?_, hIncrement, object_of_type hType⟩
  unfold decode
  rw [if_neg hType, hIncrement]
  exact if_pos h

namespace ResponsesReader

variable (reader : ResponsesReader)

def fieldsAfter (fields : ResponseFields) (event : Json) : ResponseFields :=
  if getString event "type" ∈ lifecycleTypes then
    fields.readLifecycle event (getString event "type")
  else fields

omit reader in
theorem fieldsAfter_other {fields : ResponseFields} {event : Json}
    (h : getString event "type" ∉ lifecycleTypes) : fieldsAfter fields event = fields :=
  if_neg h

def afterEvent (event : Json) : ResponsesReader :=
  { reader with
    toItemSlots := (touches event).foldl ItemSlots.touch reader.toItemSlots
    toResponseFields := fieldsAfter reader.toResponseFields event }

theorem accumulate_increment {event : Json} {kind : DeltaKind}
    (h : incrementKind (getString event "type") = some kind) :
    reader.accumulate (decode event) = reader.afterEvent event := by
  obtain ⟨hKind, hId, hIndex⟩ := decode_increment h
  obtain ⟨-, hMarker, hIgnored, -, hLifecycle⟩ := incrementKind_some h
  have hItem : reader.accumulate (decode event) = { reader with
      toItemSlots := reader.toItemSlots.item (decode event).itemId (decode event).outputIndex
        (appendIncrement (decode event)) } := by
    rw [← hKind] at hMarker hIgnored
    unfold accumulate
    cases hk : (decode event).kind with
    | marker => exact absurd hk hMarker
    | ignored => exact absurd hk hIgnored
    | _ => rfl
  rw [hItem, hId, hIndex]
  simp only [afterEvent, fieldsAfter_other hLifecycle, touches, h, Option.isSome_some, if_true]
  rfl

theorem accumulate_marker {event : Json} (h : getString event "type" ∈ markerTypes) :
    reader.accumulate (decode event) = reader.accumulateMarker event := by
  obtain ⟨hDecode, -, fields, rfl⟩ := decode_marker h
  rw [hDecode]
  rfl

theorem accumulateMarker_touches {event : Json}
    (hIncrement : incrementKind (getString event "type") = none) :
    reader.accumulateMarker event = reader.afterEvent event := by
  simp only [afterEvent, touches, hIncrement, Option.isSome_none, Bool.false_eq_true, if_false]
  unfold accumulateMarker
  dsimp only
  cases hDone : doneOverwrite event with
  | some overwrite =>
    rw [fieldsAfter_other (doneOverwrite_type hDone).2]
    rfl
  | none =>
    dsimp only
    by_cases hItem : getString event "type" ∈ itemTypes
    · rw [if_pos hItem, if_pos hItem, fieldsAfter_other (itemTypes_not_lifecycle hItem)]
      cases hObject : findObject event "item" with
      | none => rfl
      | some itemJson =>
        dsimp only
        rw [ItemSlots.accumulateOutputItem_touch _ _ _ _ (findObject_isObject hObject)]
        rfl
    · rw [if_neg hItem, if_neg hItem]
      by_cases hLifecycle : getString event "type" ∈ lifecycleTypes
      · rw [if_pos hLifecycle, if_pos hLifecycle, fieldsAfter, if_pos hLifecycle,
          ItemSlots.readOutput_touches]
      · rw [if_neg hLifecycle, if_neg hLifecycle, fieldsAfter_other hLifecycle]
        rfl

/-- **One event**: its touches, and the fields of the response. -/
theorem accumulate_event (event : Json) :
    reader.accumulate (decode event) = reader.afterEvent event := by
  cases hIncrement : incrementKind (getString event "type") with
  | some kind => exact reader.accumulate_increment hIncrement
  | none =>
    by_cases hMarker : getString event "type" ∈ markerTypes
    · rw [accumulate_marker reader hMarker, accumulateMarker_touches reader hIncrement]
    · have hNothing : reader.accumulateMarker event = reader := by
        unfold accumulateMarker
        cases hDone : doneOverwrite event with
        | some overwrite => exact absurd (doneOverwrite_type hDone).1 hMarker
        | none =>
          dsimp only
          rw [if_neg fun h => hMarker (mem_markerTypes (Or.inl h)),
            if_neg fun h => hMarker (mem_markerTypes (Or.inr h))]
      rw [← accumulateMarker_touches reader hIncrement, hNothing]
      by_cases hEmpty : getString event "type" = ""
      · unfold decode
        rw [if_pos hEmpty]
        rfl
      · obtain ⟨fields, rfl⟩ := object_of_type hEmpty
        unfold decode
        dsimp only
        rw [hIncrement]
        split_ifs <;> first | rfl | exact hNothing

end ResponsesReader

theorem decode_marker_kind (h : (decode event).kind = .marker) :
    decode event = marker event ∧ (getString event "type" ∈ markerTypes ∨
      getString event "type" = "response.content_part.added" ∨
      getString event "type" = "response.content_part.done") := by
  by_cases hMarker : getString event "type" ∈ markerTypes
  · exact ⟨(decode_marker hMarker).1, Or.inl hMarker⟩
  · by_cases hEmpty : getString event "type" = ""
    · unfold decode at h
      rw [if_pos hEmpty] at h
      cases h
    · cases hIncrement : incrementKind (getString event "type") with
      | some kind =>
        rw [(decode_increment hIncrement).1] at h
        exact absurd h (incrementKind_some hIncrement).2.1
      | none =>
        unfold decode at h ⊢
        rw [if_neg hEmpty, hIncrement] at h ⊢
        dsimp only at h ⊢
        rw [if_neg hMarker] at h ⊢
        split_ifs at h ⊢ with hPart hRead
        · exact ⟨rfl, Or.inr hPart⟩
        · cases h
        · cases h
        · cases h

theorem lifecycle_of_isTerminal (h : isTerminal (decode event) = true) :
    getString event "type" ∈ lifecycleTypes := by
  simp only [isTerminal, decide_eq_true_eq] at h
  obtain ⟨hDecode, hType⟩ := decode_marker_kind h.1
  have hText := h.2
  rw [hDecode] at hText
  have hTerminal : getString event "type" ∈ ["response.completed", "response.incomplete",
      "response.failed", "response.cancelled", "cancelled", "error"] := hText
  by_cases hCancelled : getString event "type" = "cancelled"
  · rw [hCancelled] at hType
    exact absurd hType (by decide)
  · simp only [List.mem_cons, List.not_mem_nil, or_false, lifecycleTypes] at hTerminal ⊢
    tauto

/-! ## Both names on every event -/

/-- Put an id under a key that has none. -/
def withId (j : Json) (key id : String) : Json :=
  if getString j key = "" then j.set key (.str id) else j

def withIndex (event : Json) (n : Nat) : Json :=
  if (getIndex event "output_index").isNone then
    event.set "output_index" (Json.uint (UInt64.ofNat n))
  else event

namespace OutputItems

variable (items : OutputItems)

def completeTouch (t : Touch) : Touch :=
  match items.resolve t with
  | some n => { t with id := items.idOf n, index := some n }
  | none => t

def completeOutput (event : Json) : Json :=
  if (outputRecords event).all fun entry => getString entry.1 "id" ≠ "" then event
  else
    match findObject event "response" with
    | some response =>
      match response.find? "output" with
      | some (.arr records) =>
        event.set "response" (response.set "output" (.arr (records.zipIdx.map fun entry =>
          withId entry.1 "id" (items.idOf entry.2))))
      | _ => event
    | none => event

/-- **An event with both names**: what it leaves out is filled in. -/
def completeEvent (event : Json) : Json :=
  let type := getString event "type"
  if (incrementKind type).isSome ∨ (doneOverwrite event).isSome then
    match items.resolve (eventTouch event id) with
    | some n => withIndex (withId event "item_id" (items.idOf n)) n
    | none => event
  else if type ∈ itemTypes then
    match findObject event "item" with
    | some itemJson =>
      match items.resolve (itemTouch itemJson (getIndex event "output_index") false) with
      | some n => withIndex (event.set "item" (withId itemJson "id" (items.idOf n))) n
      | none => event
    | none => event
  else if type ∈ lifecycleTypes then items.completeOutput event
  else event

end OutputItems

/-! ### Fields that both names leave alone -/

theorem find?_set_other (j : Json) {key k : String} (hk : k ≠ key) (value : Json) :
    (j.set key value).find? k = j.find? k := by
  by_cases hObject : j.IsObject
  · rw [Json.find?_set hObject, if_neg hk]
  · cases j with
    | obj fields => exact absurd trivial hObject
    | _ => rfl

theorem find?_withId (j : Json) {key k : String} (hk : k ≠ key) (id : String) :
    (withId j key id).find? k = j.find? k := by
  unfold withId
  split_ifs
  · exact find?_set_other j hk _
  · rfl

theorem find?_withIndex (event : Json) {k : String} (hk : k ≠ "output_index") (n : Nat) :
    (withIndex event n).find? k = event.find? k := by
  unfold withIndex
  split_ifs
  · exact find?_set_other event hk _
  · rfl

theorem isObject_withId (j : Json) (key id : String) : (withId j key id).IsObject ↔ j.IsObject := by
  unfold withId
  split_ifs
  · exact Json.isObject_set j key _
  · exact Iff.rfl

theorem getString_withId {j : Json} (hObject : j.IsObject) (key id : String) :
    getString (withId j key id) key = if getString j key = "" then id else getString j key := by
  unfold withId
  split_ifs with hMissing
  · simp only [getString, Json.find?_set hObject, if_true]
  · rfl

theorem getIndex_withIndex (hObject : event.IsObject) {n : Nat} (hn : n < 2 ^ 64) :
    getIndex (withIndex event n) "output_index" =
      some ((getIndex event "output_index").getD n) := by
  unfold withIndex
  cases hIndex : getIndex event "output_index" with
  | none =>
    have hWide : (UInt64.ofNat n).toNat = n := UInt64.toNat_ofNat_of_lt' hn
    simp [getIndex, Json.find?_set hObject, Json.uint, hWide]
  | some i => simp [hIndex]

def SameBesidesNames (event event' : Json) : Prop :=
  ∀ k, k ≠ "item_id" → k ≠ "output_index" → k ≠ "item" → event'.find? k = event.find? k

theorem getString_congr {event event' : Json} {k : String}
    (h : event'.find? k = event.find? k) : getString event' k = getString event k := by
  simp only [getString, h]

namespace SameBesidesNames

variable {event event' : Json} (h : SameBesidesNames event event')

include h

theorem type_eq : getString event' "type" = getString event "type" :=
  getString_congr (h "type" (by decide) (by decide) (by decide))

theorem getString_eq {k : String} (hId : k ≠ "item_id") (hIndex : k ≠ "output_index")
    (hItem : k ≠ "item") : getString event' k = getString event k :=
  getString_congr (h k hId hIndex hItem)

theorem getIndex_eq {k : String} (hId : k ≠ "item_id") (hIndex : k ≠ "output_index")
    (hItem : k ≠ "item") : getIndex event' k = getIndex event k := by
  simp only [getIndex, h k hId hIndex hItem]

theorem summaryPartIndex_eq : summaryPartIndex event' = summaryPartIndex event := by
  unfold summaryPartIndex
  rw [h.getIndex_eq (by decide) (by decide) (by decide),
    h.getIndex_eq (by decide) (by decide) (by decide)]

theorem doneOverwrite_eq : doneOverwrite event' = doneOverwrite event := by
  have hPart : findObject event' "part" = findObject event "part" := by
    simp only [findObject, h "part" (by decide) (by decide) (by decide)]
  have hContent : getIndex event' "content_index" = getIndex event "content_index" :=
    h.getIndex_eq (by decide) (by decide) (by decide)
  have hText : ∀ k, k ∈ ["text", "refusal", "arguments", "name"] →
      getString event' k = getString event k := by
    intro k hk
    simp only [List.mem_cons, List.not_mem_nil, or_false] at hk
    rcases hk with rfl | rfl | rfl | rfl <;>
      exact h.getString_eq (by decide) (by decide) (by decide)
  simp only [doneOverwrite, h.type_eq, hPart, hContent, h.summaryPartIndex_eq,
    hText "text" (by decide), hText "refusal" (by decide), hText "arguments" (by decide),
    hText "name" (by decide)]

theorem appendIncrement_eq {kind : DeltaKind}
    (hKind : incrementKind (getString event "type") = some kind) :
    ResponsesReader.appendIncrement (decode event') =
      ResponsesReader.appendIncrement (decode event) := by
  have hType := h.type_eq
  have hNonempty := (incrementKind_some hKind).1
  have hDelta : (decode event').kind = (decode event).kind ∧
      (decode event').text = (decode event).text ∧
      (decode event').contentIndex = (decode event).contentIndex := by
    have hContent : getIndex event' "content_index" = getIndex event "content_index" :=
      h.getIndex_eq (by decide) (by decide) (by decide)
    have hText : getString event' "delta" = getString event "delta" :=
      h.getString_eq (by decide) (by decide) (by decide)
    unfold decode
    rw [hType, if_neg hNonempty, if_neg hNonempty, hKind]
    cases kind <;> simp only [textDelta, hContent, hText, h.summaryPartIndex_eq, and_self]
  funext content
  unfold ResponsesReader.appendIncrement
  rw [hDelta.1, hDelta.2.1, hDelta.2.2]

end SameBesidesNames

theorem foldArray_congr {j j' : Json} {key : String} (h : j'.find? key = j.find? key)
    (read : ItemContent → Nat → Json → ItemContent) : foldArray j' key read = foldArray j key read := by
  funext content
  simp only [foldArray, h]

theorem readOutputItem_withId (itemJson : Json) (id : String) :
    readOutputItem (withId itemJson "id" id) false = readOutputItem itemJson false := by
  have hText : ∀ k, k ≠ "id" → getString (withId itemJson "id" id) k = getString itemJson k :=
    fun k hk => getString_congr (find?_withId itemJson hk id)
  have hArray : ∀ k, k ≠ "id" → foldArray (withId itemJson "id" id) k = foldArray itemJson k :=
    fun k hk => funext fun read => foldArray_congr (find?_withId itemJson hk id) read
  funext content
  simp only [readOutputItem, Bool.false_eq_true, if_false, hText "type" (by decide),
    hText "call_id" (by decide), hText "name" (by decide), hText "arguments" (by decide),
    hArray "content" (by decide), hArray "summary" (by decide)]

namespace OutputItems

variable {items : OutputItems}
variable {event : Json} {ts : List Touch} {n : Nat} {t : Touch}

theorem Names.lt_wide (h : items.Names t n) : n < 2 ^ 64 :=
  lt_of_lt_of_le h.1 items.small

theorem Names.completeTouch_eq (h : items.Names t n) : items.completeTouch t =
      { t with id := if t.id = "" then items.idOf n else t.id, index := some (t.index.getD n) } := by
  rw [completeTouch, h.2.1]
  dsimp only
  have hIndex : t.index.getD n = n := by
    cases hi : t.index with
    | none => rfl
    | some i => exact h.2.2 i hi
  rw [hIndex]
  split_ifs with hId
  · rfl
  · rw [h.id_eq hId]

theorem completeEvent_fields {use : ItemContent → ItemContent}
    (hNames : items.Names (eventTouch event use) n)
    (hKind : (incrementKind (getString event "type")).isSome ∨ (doneOverwrite event).isSome) :
    SameBesidesNames event (items.completeEvent event) ∧
      eventTouch (items.completeEvent event) use = items.completeTouch (eventTouch event use) := by
  have hObject : event.IsObject := by
    have hType : getString event "type" ≠ "" := by
      intro hEmpty
      have hNone : incrementKind "" = none := by decide
      simp [hEmpty, hNone, doneOverwrite] at hKind
    obtain ⟨fields, rfl⟩ := object_of_type hType
    trivial
  have hResolve : items.resolve (eventTouch event id) = some n := hNames.2.1
  have hComplete : items.completeEvent event =
      withIndex (withId event "item_id" (items.idOf n)) n := by
    unfold completeEvent
    dsimp only
    rw [if_pos hKind, hResolve]
  have hSame : SameBesidesNames event (items.completeEvent event) := by
    intro k hId hIndex _
    rw [hComplete, find?_withIndex _ hIndex, find?_withId _ hId]
  refine ⟨hSame, ?_⟩
  have hKept : getIndex (withId event "item_id" (items.idOf n)) "output_index" =
      getIndex event "output_index" := by
    simp only [getIndex, find?_withId event (show "output_index" ≠ "item_id" by decide)]
  have hIds : getString (items.completeEvent event) "item_id" =
      if getString event "item_id" = "" then items.idOf n else getString event "item_id" := by
    rw [hComplete, ← getString_withId hObject]
    exact getString_congr (find?_withIndex _ (by decide) n)
  have hIndices : getIndex (items.completeEvent event) "output_index" =
      some ((getIndex event "output_index").getD n) := by
    rw [hComplete, getIndex_withIndex ((isObject_withId _ _ _).mpr hObject) hNames.lt_wide, hKept]
  rw [hNames.completeTouch_eq, eventTouch, hIds, hIndices]
  rfl

theorem completeEvent_item {event itemJson : Json} (hItem : findObject event "item" = some itemJson)
    (hType : getString event "type" ∈ itemTypes) (hDone : doneOverwrite event = none)
    (authoritative : Bool)
    (hNames : items.Names (itemTouch itemJson (getIndex event "output_index") authoritative) n)
    (hRecord : authoritative = true → getString itemJson "id" ≠ "") :
    SameBesidesNames event (items.completeEvent event) ∧
      ∃ itemJson', findObject (items.completeEvent event) "item" = some itemJson' ∧
        itemTouch itemJson' (getIndex (items.completeEvent event) "output_index") authoritative =
          items.completeTouch
            (itemTouch itemJson (getIndex event "output_index") authoritative) := by
  have hIncrement : ¬((incrementKind (getString event "type")).isSome ∨
      (doneOverwrite event).isSome) := by
    rw [hDone]
    cases hKind : incrementKind (getString event "type") with
    | none => simp
    | some kind => exact absurd hType (incrementKind_some hKind).2.2.2.1
  have hObject : event.IsObject := by
    cases event with
    | obj fields => trivial
    | _ => cases hItem
  have hItemObject := findObject_isObject hItem
  have hResolve : items.resolve (itemTouch itemJson (getIndex event "output_index") false) =
      some n := hNames.2.1
  have hComplete : items.completeEvent event =
      withIndex (event.set "item" (withId itemJson "id" (items.idOf n))) n := by
    unfold completeEvent
    dsimp only
    rw [if_neg hIncrement, if_pos hType, hItem]
    dsimp only
    rw [hResolve]
  have hSame : SameBesidesNames event (items.completeEvent event) := by
    intro k _ hIndex hk
    rw [hComplete, find?_withIndex _ hIndex, find?_set_other _ hk]
  have hFound : findObject (items.completeEvent event) "item" =
      some (withId itemJson "id" (items.idOf n)) := by
    have hNamed := (isObject_withId itemJson "id" (items.idOf n)).mpr hItemObject
    rw [hComplete, findObject, find?_withIndex _ (by decide), Json.find?_set hObject, if_pos rfl]
    cases hj : withId itemJson "id" (items.idOf n) with
    | obj fields => rfl
    | _ =>
      rw [hj] at hNamed
      exact absurd hNamed (by simp [Json.IsObject])
  have hKept : getIndex (event.set "item" (withId itemJson "id" (items.idOf n))) "output_index" =
      getIndex event "output_index" := by
    simp only [getIndex, find?_set_other event (show "output_index" ≠ "item" by decide)]
  have hIndices : getIndex (items.completeEvent event) "output_index" =
      some ((getIndex event "output_index").getD n) := by
    rw [hComplete, getIndex_withIndex ((Json.isObject_set _ _ _).mpr hObject) hNames.lt_wide, hKept]
  have hUse : readOutputItem (withId itemJson "id" (items.idOf n)) authoritative =
      readOutputItem itemJson authoritative := by
    cases authoritative with
    | false => exact readOutputItem_withId itemJson _
    | true => rw [withId, if_neg (hRecord rfl)]
  refine ⟨hSame, _, hFound, ?_⟩
  rw [hNames.completeTouch_eq, itemTouch, hIndices, hUse, getString_withId hItemObject]
  rfl

theorem touches_lifecycle (h : getString event "type" ∈ lifecycleTypes) :
    (touches event = (outputRecords event).map fun entry =>
        itemTouch entry.1 (some entry.2) true) ∧
      ¬((incrementKind (getString event "type")).isSome ∨ (doneOverwrite event).isSome) ∧
      getString event "type" ∉ itemTypes := by
  have hIncrement : incrementKind (getString event "type") = none := by
    cases hKind : incrementKind (getString event "type") with
    | none => rfl
    | some kind => exact absurd h (incrementKind_some hKind).2.2.2.2
  have hDone : doneOverwrite event = none := by
    cases hOverwrite : doneOverwrite event with
    | none => rfl
    | some overwrite => exact absurd h (doneOverwrite_type hOverwrite).2
  have hItem : getString event "type" ∉ itemTypes := fun hMem => itemTypes_not_lifecycle hMem h
  refine ⟨?_, by simp [hIncrement, hDone], hItem⟩
  unfold touches
  dsimp only
  rw [hIncrement, hDone, if_neg (by simp)]
  dsimp only
  rw [if_neg hItem, if_pos h]

theorem completeEvent_lifecycle (h : getString event "type" ∈ lifecycleTypes)
    (hRecord : ∀ t ∈ touches event, t.authoritative = true → t.id ≠ "") :
    items.completeEvent event = event := by
  obtain ⟨hTouches, hOther, hItem⟩ := touches_lifecycle h
  have hIds : ((outputRecords event).all fun entry => getString entry.1 "id" ≠ "") = true := by
    rw [List.all_eq_true]
    intro entry hEntry
    rw [hTouches] at hRecord
    exact decide_eq_true (hRecord _ (List.mem_map_of_mem hEntry) rfl)
  unfold completeEvent
  dsimp only
  rw [if_neg hOther, if_neg hItem, if_pos h, completeOutput, if_pos hIds]

theorem completeTouch_both (h : items.Names t n) (hId : t.id ≠ "") (hIndex : t.index = some n) :
    items.completeTouch t = t := by
  rw [h.completeTouch_eq, if_neg hId, hIndex]
  cases t
  simp_all

/-- What completion keeps of an event outside the response's own lifecycle. -/
def Completed (items : OutputItems) (event : Json) : Prop :=
  getString (items.completeEvent event) "type" = getString event "type" ∧
    touches (items.completeEvent event) = (touches event).map items.completeTouch

theorem completed_increment {kind : DeltaKind}
    (hKind : incrementKind (getString event "type") = some kind)
    (hNames : ∀ t ∈ touches event, ∃ n, items.Names t n) : items.Completed event := by
  have hTouches : touches event =
      [eventTouch event (ResponsesReader.appendIncrement (decode event))] := by
    simp only [touches, hKind, Option.isSome_some, if_true]
  obtain ⟨n, hn⟩ := hNames _ (hTouches ▸ List.mem_singleton_self _)
  obtain ⟨hSame, hTouch⟩ := completeEvent_fields hn (Or.inl (by rw [hKind]; rfl))
  refine ⟨hSame.type_eq, ?_⟩
  rw [hTouches, List.map_singleton, ← hTouch]
  simp only [touches, hSame.type_eq, hKind, Option.isSome_some, if_true,
    hSame.appendIncrement_eq hKind]

theorem completed_overwrite {overwrite : ItemContent → ItemContent}
    (hKind : incrementKind (getString event "type") = none)
    (hDone : doneOverwrite event = some overwrite)
    (hNames : ∀ t ∈ touches event, ∃ n, items.Names t n) : items.Completed event := by
  have hTouches : touches event = [eventTouch event overwrite] := by
    simp only [touches, hKind, hDone, Option.isSome_none, Bool.false_eq_true, if_false]
  obtain ⟨n, hn⟩ := hNames _ (hTouches ▸ List.mem_singleton_self _)
  obtain ⟨hSame, hTouch⟩ := completeEvent_fields hn (Or.inr (by rw [hDone]; rfl))
  refine ⟨hSame.type_eq, ?_⟩
  rw [hTouches, List.map_singleton, ← hTouch]
  simp only [touches, hSame.type_eq, hSame.doneOverwrite_eq, hKind, hDone, Option.isSome_none,
    Bool.false_eq_true, if_false]

theorem completed_item {event itemJson : Json}
    (hKind : incrementKind (getString event "type") = none) (hDone : doneOverwrite event = none)
    (hItem : getString event "type" ∈ itemTypes) (hObject : findObject event "item" = some itemJson)
    (hNames : ∀ t ∈ touches event, ∃ n, items.Names t n)
    (hRecord : ∀ t ∈ touches event, t.authoritative = true → t.id ≠ "") :
    items.Completed event := by
  have hTouches : touches event = [itemTouch itemJson (getIndex event "output_index")
      (getString event "type" = "response.output_item.done")] := by
    simp only [touches, hKind, hDone, hObject, if_pos hItem, Option.isSome_none,
      Bool.false_eq_true, if_false]
  obtain ⟨n, hn⟩ := hNames _ (hTouches ▸ List.mem_singleton_self _)
  obtain ⟨hSame, itemJson', hObject', hTouch⟩ := completeEvent_item hObject hItem hDone
    (getString event "type" = "response.output_item.done") hn
    (hRecord _ (hTouches ▸ List.mem_singleton_self _))
  refine ⟨hSame.type_eq, ?_⟩
  rw [hTouches, List.map_singleton, ← hTouch]
  simp only [touches, hSame.type_eq, hSame.doneOverwrite_eq, hKind, hDone, hObject', if_pos hItem,
    Option.isSome_none, Bool.false_eq_true, if_false]

theorem completed_other (hKind : incrementKind (getString event "type") = none)
    (hDone : doneOverwrite event = none)
    (hItem : getString event "type" ∈ itemTypes → findObject event "item" = none)
    (hLifecycle : getString event "type" ∉ lifecycleTypes) : items.Completed event := by
  have hNeither : ¬((incrementKind (getString event "type")).isSome ∨
      (doneOverwrite event).isSome) := by simp [hKind, hDone]
  have hSame : items.completeEvent event = event ∧ touches event = [] := by
    unfold completeEvent touches
    dsimp only
    rw [if_neg hNeither, hKind, hDone]
    dsimp only
    by_cases hType : getString event "type" ∈ itemTypes
    · rw [if_pos hType, if_pos hType, hItem hType]
      exact ⟨rfl, rfl⟩
    · rw [if_neg hType, if_neg hType, if_neg hLifecycle, if_neg hLifecycle]
      exact ⟨rfl, rfl⟩
  rw [Completed, hSame.1, hSame.2]
  exact ⟨rfl, rfl⟩

theorem completed_of_not_lifecycle (hNames : ∀ t ∈ touches event, ∃ n, items.Names t n)
    (hRecord : ∀ t ∈ touches event, t.authoritative = true → t.id ≠ "")
    (hLifecycle : getString event "type" ∉ lifecycleTypes) : items.Completed event := by
  cases hKind : incrementKind (getString event "type") with
  | some kind => exact completed_increment hKind hNames
  | none =>
    cases hDone : doneOverwrite event with
    | some overwrite => exact completed_overwrite hKind hDone hNames
    | none =>
      by_cases hItem : getString event "type" ∈ itemTypes
      · cases hObject : findObject event "item" with
        | some itemJson => exact completed_item hKind hDone hItem hObject hNames hRecord
        | none => exact completed_other hKind hDone (fun _ => hObject) hLifecycle
      · exact completed_other hKind hDone (fun h => absurd h hItem) hLifecycle

/-- **The completed event** touches the same items in the same way, under both names. -/
theorem completeEvent_spec (hNames : ∀ t ∈ touches event, ∃ n, items.Names t n)
    (hRecord : ∀ t ∈ touches event, t.authoritative = true → t.id ≠ "") :
    touches (items.completeEvent event) = (touches event).map items.completeTouch ∧
      (∀ fields, ResponsesReader.fieldsAfter fields (items.completeEvent event) =
        ResponsesReader.fieldsAfter fields event) ∧
      isTerminal (decode (items.completeEvent event)) = isTerminal (decode event) := by
  by_cases hLifecycle : getString event "type" ∈ lifecycleTypes
  · rw [completeEvent_lifecycle hLifecycle hRecord]
    refine ⟨?_, fun _ => rfl, rfl⟩
    obtain ⟨hTouches, -⟩ := touches_lifecycle hLifecycle
    rw [hTouches] at hNames hRecord ⊢
    rw [List.map_map]
    apply List.map_congr_left
    intro entry hEntry
    have hMem := List.mem_map_of_mem (f := fun entry : Json × Nat =>
      itemTouch entry.1 (some entry.2) true) hEntry
    obtain ⟨n, hn⟩ := hNames _ hMem
    refine (completeTouch_both hn (hRecord _ hMem rfl) ?_).symm
    rw [← hn.2.2 entry.2 rfl]
    rfl
  · obtain ⟨hType, hTouches⟩ := completed_of_not_lifecycle hNames hRecord hLifecycle
    have hOther : getString (items.completeEvent event) "type" ∉ lifecycleTypes := by
      rw [hType]
      exact hLifecycle
    have hOpen : ∀ e, getString e "type" ∉ lifecycleTypes → isTerminal (decode e) = false :=
      fun e he => Bool.eq_false_iff.mpr fun hEnd => he (lifecycle_of_isTerminal hEnd)
    refine ⟨hTouches, fun fields => ?_, ?_⟩
    · rw [ResponsesReader.fieldsAfter_other hLifecycle, ResponsesReader.fieldsAfter_other hOther]
    · rw [hOpen event hLifecycle, hOpen _ hOther]

/-! ## Whole streams -/

/-- The events the reader takes: up to the terminal one. -/
def consumed : List Json → List Json
  | [] => []
  | event :: rest => if isTerminal (decode event) then [event] else event :: consumed rest

theorem consumed_end (h : isTerminal (decode event) = true) (rest : List Json) :
    consumed (event :: rest) = [event] :=
  if_pos h

theorem consumed_open (h : ¬isTerminal (decode event) = true) (rest : List Json) :
    consumed (event :: rest) = event :: consumed rest :=
  if_neg h

def streamTouches (events : List Json) : List Touch := (consumed events).flatMap touches

def NamesItems (items : OutputItems) (ts : List Touch) : Prop :=
  ∀ t ∈ ts, ∃ n, items.Names t n

instance (items : OutputItems) (ts : List Touch) : Decidable (items.NamesItems ts) :=
  inferInstanceAs (Decidable (∀ t ∈ ts, ∃ n, items.Names t n))

theorem streamTouches_end (h : isTerminal (decode event) = true) (rest : List Json) :
    streamTouches (event :: rest) = touches event := by
  rw [streamTouches, consumed_end h, List.flatMap_singleton]

theorem streamTouches_open (h : ¬isTerminal (decode event) = true) (rest : List Json) :
    streamTouches (event :: rest) = touches event ++ streamTouches rest := by
  rw [streamTouches, consumed_open h, List.flatMap_cons, ← streamTouches]

theorem resolve_completeTouch (h : items.Names t n) :
    items.resolve (items.completeTouch t) = some n := by
  rw [completeTouch, h.2.1]
  dsimp only
  rw [resolve, if_neg (idOf_ne_empty h.1), idOf_eq_getElem h.1, List.idxOf?_eq_some_iff]
  refine ⟨h.1, rfl, fun j hj hSame => ?_⟩
  exact absurd (items.distinct.getElem_inj_iff.mp hSame) (Nat.ne_of_lt hj)

theorem names_completeTouch (h : items.Names t n) : items.Names (items.completeTouch t) n := by
  refine ⟨h.1, resolve_completeTouch h, ?_⟩
  rw [completeTouch, h.2.1]
  rintro i ⟨⟩
  rfl

theorem touchesOf_complete (h : items.NamesItems ts) (n : Nat) :
    items.touchesOf n (ts.map items.completeTouch) =
      (items.touchesOf n ts).map items.completeTouch := by
  rw [touchesOf, List.filter_map]
  congr 1
  apply List.filter_congr
  intro t ht
  obtain ⟨m, hm⟩ := h t ht
  simp only [Function.comp_apply, resolve_completeTouch hm, hm.2.1]

theorem contentOf_complete (h : items.NamesItems ts) (n : Nat) :
    items.contentOf n (ts.map items.completeTouch) = items.contentOf n ts := by
  rw [contentOf, contentOf, touchesOf_complete h, List.foldl_map]
  congr 1
  funext content t
  unfold completeTouch
  split <;> rfl

theorem mode_completeTouch (h : items.Names t n) : (items.completeTouch t).mode = .both := by
  rw [completeTouch, h.2.1]
  simp [Touch.mode, idOf_ne_empty h.1]

theorem mode_of_mem_entries {e : Touch × Nat} (he : e ∈ items.entriesOf n ts) :
    e.1 ∈ items.touchesOf n ts := by
  rw [← map_fst_entriesOf]
  exact List.mem_map_of_mem he

end OutputItems

def IndexedIncrement (t : Touch) : Prop :=
  t.mode = .byIndex ∧ ∃ delta, t.use = ResponsesReader.appendIncrement delta

namespace Entries

variable {l : List (Touch × Nat)}

/-- Where every event has the id, nothing waits to be folded. -/
theorem loose_of_named (h : ∀ e ∈ l, e.1.mode ≠ .byIndex) : loose l = [] := by
  rw [loose, List.filter_eq_nil_iff]
  intro e he
  have hMode := h e ((List.rtakeWhile_suffix _ l).subset he)
  simpa using hMode

theorem folds_of_named (h : ∀ e ∈ l, e.1.mode ≠ .byIndex) : Folds l := by
  intro before e hPrefix _
  have hNil : loose before = [] := loose_of_named fun x hx =>
    h x (hPrefix.subset (List.mem_append_left _ hx))
  rw [hNil, named_of_loose_nil hNil]
  exact adoptContent_empty_right _

theorem folds_of_increments (h : ∀ e ∈ l, e.1.mode = .both ∨ IndexedIncrement e.1) : Folds l := by
  have hSaid : ∀ l : List (Touch × Nat), (∀ e ∈ l, e.1.mode = .both ∨ IndexedIncrement e.1) →
      adoptContent (said (named l)) (said (loose l)) = said l := by
    intro l
    induction l using List.reverseRecOn with
    | nil => exact fun _ => adoptContent_empty_right _
    | append_singleton l e ih =>
      intro hAll
      have hRest := ih fun x hx => hAll x (List.mem_append_left _ hx)
      rw [named_concat, loose_concat]
      rcases hAll e (by simp) with hBoth | ⟨hMode, delta, hUse⟩
      · rw [if_pos hBoth, if_pos hBoth]
        exact adoptContent_empty_right _
      · have hNot : ¬e.1.mode = .both := by simp [hMode]
        rw [if_neg hNot, if_neg hNot, if_pos hMode, if_pos hMode, said_concat, said_concat, hUse,
          adoptContent_appendIncrement, hRest]
  exact fun before e hPrefix _ => hSaid before fun x hx =>
    h x (hPrefix.subset (List.mem_append_left _ hx))

theorem placed_of_first {e : Touch × Nat} (h : e.1.mode = .both) : Placed (e :: l) :=
  ⟨[], e, ⟨l, rfl⟩, h, rfl⟩

end Entries

namespace OutputItems

variable {items : OutputItems}
variable {ts : List Touch} {n : Nat} {t : Touch}

theorem wellNamed_complete (h : items.NamesItems ts) :
    items.WellNamedItems (ts.map items.completeTouch) ∧
      ∀ n ∈ items.touched (ts.map items.completeTouch),
        Entries.Indexed (items.entriesOf n (ts.map items.completeTouch)) := by
  have hModes : ∀ n, ∀ e ∈ items.entriesOf n (ts.map items.completeTouch),
      e.1.mode = .both := by
    intro n e he
    have hMem := (List.mem_filter.mp (mode_of_mem_entries he)).1
    obtain ⟨u, hu, hSame⟩ := List.mem_map.mp hMem
    obtain ⟨m, hm⟩ := h u hu
    rw [← hSame]
    exact mode_completeTouch hm
  have hNamed : ∀ n, ∀ e ∈ items.entriesOf n (ts.map items.completeTouch),
      e.1.mode ≠ .byIndex := fun n e he => by simp [hModes n e he]
  have hPlaced : ∀ n, items.entriesOf n (ts.map items.completeTouch) ≠ [] →
      Entries.Indexed (items.entriesOf n (ts.map items.completeTouch)) := by
    intro n hTouched
    obtain ⟨e, rest, hFirst⟩ := List.exists_cons_of_ne_nil hTouched
    rw [hFirst]
    exact fun _ => Entries.placed_of_first (hModes n e (by simp [hFirst]))
  refine ⟨⟨fun n _ => Entries.folds_of_named (hNamed n),
    fun n _ _ => Entries.loose_of_named (hNamed n), ?_⟩,
    fun n hn => hPlaced n (mem_touched.mp hn).2⟩
  exact fun _ n _ _ _ hTouched hNot => absurd (hPlaced n hTouched) hNot

theorem touched_complete (h : items.NamesItems ts) :
    items.touched (ts.map items.completeTouch) = items.touched ts := by
  apply List.filter_congr
  intro n _
  rw [touchesOf_complete h, List.isEmpty_map]

theorem ordered_complete (hFree : items.Unreserved) (hNames : items.NamesItems ts)
    (hWell : items.WellNamedItems ts) :
    let slots := ts.foldl ItemSlots.touch {}
    let completed := (ts.map items.completeTouch).foldl ItemSlots.touch {}
    slots.ordered.map ItemState.toItemContent = completed.ordered.map ItemState.toItemContent ∧
      completed.ordered.map ItemState.outputIndex = items.touched ts := by
  intro slots completed
  obtain ⟨hCompleted, hIndexed⟩ := wellNamed_complete hNames
  have hNamed : ∀ t ∈ ts.map items.completeTouch, ∃ n, items.Names t n := by
    intro t ht
    obtain ⟨u, hu, rfl⟩ := List.mem_map.mp ht
    obtain ⟨n, hn⟩ := hNames u hu
    exact ⟨n, names_completeTouch hn⟩
  constructor
  · rw [show slots.ordered.map _ = _ from ordered_contents hFree hNames hWell,
      show completed.ordered.map _ = _ from ordered_contents hFree hNamed hCompleted,
      touched_complete hNames]
    apply List.map_congr_left
    intro n _
    exact (contentOf_complete hNames n).symm
  · have hItems := ordered_items hFree hNamed hCompleted
    rw [touched_complete hNames] at hItems hIndexed
    have hPlaces : List.Forall₂ (fun n slot => slot.outputIndex = n) (items.touched ts)
        completed.ordered := by
      rw [List.forall₂_iff_get] at hItems ⊢
      refine ⟨hItems.1, fun i hi hi' => (hItems.2 i hi hi').indexed (hIndexed _ ?_)⟩
      exact List.get_mem _ _
    rw [← List.forall₂_eq_eq_eq, List.forall₂_map_left_iff]
    exact hPlaces.flip

end OutputItems

namespace ResponsesReader

/-- Continue with a stream. -/
def run (parse : String → Option Json) (reader : ResponsesReader) (events : List Json) :
    ResponsesReader :=
  events.foldl (fun reader event => reader.next parse (decode event)) reader

variable {parse : String → Option Json} {reader : ResponsesReader}

theorem run_done (h : reader.done = true) (events : List Json) :
    run parse reader events = reader := by
  induction events with
  | nil => rfl
  | cons event rest ih =>
    rw [run, List.foldl_cons, next, if_pos h]
    exact ih

theorem run_cons_terminal {event : Json} {rest : List Json} (hOpen : reader.done = false)
    (hEnd : isTerminal (decode event) = true) : run parse reader (event :: rest) =
      { (reader.accumulate (decode event)).assemble parse with done := true } := by
  have hNext : reader.next parse (decode event) =
      { (reader.accumulate (decode event)).assemble parse with done := true } := by
    rw [next, if_neg (by simp [hOpen]), if_pos hEnd]
  rw [run, List.foldl_cons, hNext]
  exact run_done rfl rest

theorem run_cons_open {event : Json} {rest : List Json} (hOpen : reader.done = false)
    (hEnd : ¬isTerminal (decode event) = true) :
    run parse reader (event :: rest) = run parse (reader.accumulate (decode event)) rest := by
  rw [run, List.foldl_cons, next, if_neg (by simp [hOpen]), if_neg hEnd]
  rfl

/-- The stream has ended the response. -/
def finished (events : List Json) : Bool :=
  (OutputItems.consumed events).any fun event => isTerminal (decode event)

/-- **A stream as a whole**, by induction on the events: its touches, what it does to the fields,
and the message once the response has ended. -/
theorem run_eq (parse : String → Option Json) (events : List Json) :
    ∀ reader : ResponsesReader, reader.done = false → run parse reader events =
        { toItemSlots := (OutputItems.streamTouches events).foldl ItemSlots.touch
            reader.toItemSlots
          toResponseFields := (OutputItems.consumed events).foldl fieldsAfter
            reader.toResponseFields
          response :=
            if finished events then
              assembleMessage parse
                ((OutputItems.consumed events).foldl fieldsAfter reader.toResponseFields)
                (((OutputItems.streamTouches events).foldl ItemSlots.touch
                  reader.toItemSlots).ordered.map ItemState.toItemContent)
            else reader.response
          done := finished events } := by
  induction events with
  | nil =>
    intro reader hOpen
    show reader = { reader with done := false }
    rw [← hOpen]
  | cons event rest ih =>
    intro reader hOpen
    by_cases hEnd : isTerminal (decode event) = true
    · rw [run_cons_terminal hOpen hEnd, accumulate_event, finished,
        OutputItems.streamTouches_end hEnd, OutputItems.consumed_end hEnd, List.any_cons, hEnd]
      rfl
    · have hOpen' : (reader.accumulate (decode event)).done = false := by
        rw [accumulate_event]
        exact hOpen
      have hFinished : finished (event :: rest) = finished rest := by
        rw [finished, OutputItems.consumed_open hEnd, List.any_cons,
          Bool.eq_false_of_not_eq_true hEnd, Bool.false_or, ← finished]
      rw [run_cons_open hOpen hEnd, ih _ hOpen', accumulate_event, hFinished,
        OutputItems.streamTouches_open hEnd, OutputItems.consumed_open hEnd, List.foldl_append,
        List.foldl_cons]
      rfl

end ResponsesReader

theorem OutputItems.stream_complete {items : OutputItems} (events : List Json) :
    items.NamesItems (streamTouches events) →
    (∀ t ∈ streamTouches events, t.authoritative = true → t.id ≠ "") →
      streamTouches (events.map items.completeEvent) =
          (streamTouches events).map items.completeTouch ∧
        (∀ fields, (consumed (events.map items.completeEvent)).foldl
            ResponsesReader.fieldsAfter fields =
          (consumed events).foldl ResponsesReader.fieldsAfter fields) ∧
        ResponsesReader.finished (events.map items.completeEvent) =
          ResponsesReader.finished events := by
  induction events with
  | nil => exact fun _ _ => ⟨rfl, fun _ => rfl, rfl⟩
  | cons event rest ih =>
    intro hNames hRecord
    have hHere : ∀ t ∈ touches event, t ∈ streamTouches (event :: rest) := by
      intro t ht
      refine List.mem_flatMap.mpr ⟨event, ?_, ht⟩
      unfold consumed
      split_ifs <;> simp
    obtain ⟨hTouches, hFields, hTerminal⟩ := items.completeEvent_spec
      (fun t ht => hNames t (hHere t ht)) fun t ht => hRecord t (hHere t ht)
    unfold ResponsesReader.finished at ih ⊢
    rw [List.map_cons]
    by_cases hEnd : isTerminal (decode event) = true
    · rw [streamTouches_end hEnd, streamTouches_end (hTerminal.trans hEnd), consumed_end hEnd,
        consumed_end (hTerminal.trans hEnd), List.any_cons, List.any_cons, hTerminal]
      exact ⟨hTouches, hFields, rfl⟩
    · have hEnd' : ¬isTerminal (decode (items.completeEvent event)) = true := by
        rwa [hTerminal]
      rw [streamTouches_open hEnd] at hNames hRecord
      obtain ⟨hRest, hRestFields, hRestEnd⟩ := ih
        (fun t ht => hNames t (List.mem_append_right _ ht))
        fun t ht => hRecord t (List.mem_append_right _ ht)
      rw [streamTouches_open hEnd, streamTouches_open hEnd', consumed_open hEnd,
        consumed_open hEnd', List.any_cons, List.any_cons, hTerminal, hRestEnd, hTouches, hRest,
        List.map_append]
      refine ⟨rfl, fun fields => ?_, rfl⟩
      rw [List.foldl_cons, List.foldl_cons, hFields, hRestFields]

def sampleItems : OutputItems where
  ids := ["a", "b", "c"]
  distinct := by decide
  nonempty := by decide
  small := by decide

def messageRecord (id text : String) : Json :=
  Json.object [("id", .str id), ("type", .str "message"), ("content", .arr [Json.object
    [("type", .str "output_text"), ("text", .str text)]])]

def completedEvent : Json :=
  Json.object [("type", .str "response.completed"), ("response", Json.object
    [("output", .arr [messageRecord "a" "A", messageRecord "b" "B"])])]

def indexedText (index : UInt64) (text : String) : Json :=
  Json.object [("type", .str "response.output_text.delta"), ("output_index", Json.uint index),
    ("delta", .str text)]

/-- An item under its id alone. -/
def addedById (id : String) : Json :=
  Json.object [("type", .str "response.output_item.added"),
    ("item", Json.object [("id", .str id), ("type", .str "message")])]

/-- The text of an item, under its id alone: an increment, or the whole. -/
def textById (type id key text : String) : Json :=
  Json.object [("type", .str type), ("item_id", .str id), (key, .str text)]

/-- Two items are named by their ids alone, in order. The third is opened under both names, its
text comes by index, and its record under both names again. -/
def mixedStream : List Json :=
  [addedById "a", textById "response.output_text.delta" "a" "delta" "A",
   addedById "b", textById "response.output_text.delta" "b" "delta" "B",
   Json.object [("type", .str "response.output_item.added"), ("output_index", Json.uint 2),
     ("item", Json.object [("id", .str "c"), ("type", .str "message")])],
   indexedText 2 "C",
   Json.object [("type", .str "response.output_item.done"), ("output_index", Json.uint 2),
     ("item", messageRecord "c" "C")],
   textById "response.output_text.done" "a" "text" "A",
   textById "response.output_text.done" "b" "text" "B",
   Json.object [("type", .str "response.completed")]]

theorem mixedStream_wellNamed :
    sampleItems.WellNamedItems (OutputItems.streamTouches mixedStream) := by
  have hNamed : ∀ n ∈ [0, 1], ∀ e ∈
      sampleItems.entriesOf n (OutputItems.streamTouches mixedStream), e.1.mode ≠ .byIndex := by
    decide +kernel
  have hCases : ∀ n, n < sampleItems.ids.length → n ∈ [0, 1] ∨ n = 2 := by decide
  have hPlaced : Entries.Placed
      (sampleItems.entriesOf 2 (OutputItems.streamTouches mixedStream)) :=
    Entries.placed_of_first rfl
  refine ⟨fun n hn => ?_, fun n hn => ?_, fun m n hmn hn _ _ hNot => ?_⟩
  · rcases hCases n hn with hMem | rfl
    · exact Entries.folds_of_named (hNamed n hMem)
    · obtain ⟨x, y, z, hEntries, hx, hy, hz⟩ : ∃ x y z : Touch × Nat,
          sampleItems.entriesOf 2 (OutputItems.streamTouches mixedStream) = [x, y, z] ∧
            x.1.mode = .both ∧ IndexedIncrement y.1 ∧ z.1.mode = .both :=
        ⟨_, _, _, rfl, rfl, ⟨rfl, decode (indexedText 2 "C"), rfl⟩, rfl⟩
      rw [hEntries]
      refine Entries.folds_of_increments fun e he => ?_
      simp only [List.mem_cons, List.not_mem_nil, or_false] at he
      rcases he with rfl | rfl | rfl
      · exact Or.inl hx
      · exact Or.inr hy
      · exact Or.inl hz
  · rcases hCases n hn with hMem | rfl
    · exact fun _ => Entries.loose_of_named (hNamed n hMem)
    · exact fun _ => rfl
  · rcases hCases n hn with hMem | rfl
    · have hFirst : m = 0 ∧ n = 1 := by
        simp at hMem
        omega
      obtain ⟨rfl, rfl⟩ := hFirst
      exact ⟨Or.inl rfl, by decide +kernel⟩
    · exact absurd (fun _ => hPlaced) hNot

/-- The second item is first named by its index alone, then once by both. -/
def misplacedStream : List Json :=
  [indexedText 1 "B", completedEvent]

end SimplexAgent.Llm.Responses
