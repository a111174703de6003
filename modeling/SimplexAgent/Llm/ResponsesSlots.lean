import SimplexAgent.Llm.ResponsesReader
import Mathlib

/-!
# Slots and output items

What the slots of the reader are for: one slot for every output item, which holds the
fold of the events that belong to the item, in the item's place. The reader resolves
identities one event at a time. For any one item it keeps at most two slots, one under
the id and one under the index, and folds the second into the first when an event has
both names.

What comes of that can be read off the events of an item, and where they stand in the
stream (`tells`). Its slot holds the fold of its events if folding in what was said by
index is as good as having heard it in order. The slot has the item's index if some
event with both names met nothing that waited under the index; otherwise its place is
decided by when it was opened.

The module works with touches: an event's reference to an item together with what
it does to the slot. That the events of a stream are touches is shown elsewhere.
-/

namespace SimplexAgent.Llm.Responses

/-- A reference to an output item, and what is done with its slot. -/
structure Touch where
  id : String
  index : Option Nat
  use : ItemContent → ItemContent
  /-- Whether it records the item itself, as `output_item.done` does. -/
  authoritative : Bool

/-- How a touch names its item. -/
inductive Mode where
  | byIndex
  | byId
  | both
  deriving DecidableEq

def Touch.mode (t : Touch) : Mode :=
  if t.id = "" then .byIndex
  else if t.index.isNone then .byId
  else .both

namespace ItemSlots

def touch (slots : ItemSlots) (t : Touch) : ItemSlots := slots.item t.id t.index t.use

end ItemSlots

/-! ## The items behind the touches -/

structure OutputItems where
  ids : List String
  distinct : ids.Nodup
  nonempty : ∀ id ∈ ids, id ≠ ""
  /-- An index fits into the wire's numbers. -/
  small : ids.length ≤ 2 ^ 64

namespace OutputItems

variable (items : OutputItems)

def idOf (n : Nat) : String := items.ids.getD n ""

/-- The item a touch refers to. -/
def resolve (t : Touch) : Option Nat :=
  if t.id = "" then t.index else items.ids.idxOf? t.id

def Names (t : Touch) (n : Nat) : Prop :=
  n < items.ids.length ∧ items.resolve t = some n ∧ ∀ i, t.index = some i → i = n

instance (t : Touch) : Decidable (∃ n, items.Names t n) :=
  decidable_of_iff (∃ n ∈ items.resolve t, n < items.ids.length ∧ ∀ i ∈ t.index, i = n)
    ⟨fun ⟨n, hn, hLt, hIndex⟩ => ⟨n, hLt, hn, hIndex⟩,
      fun ⟨n, hLt, hn, hIndex⟩ => ⟨n, hn, hLt, hIndex⟩⟩

/-- No id is spelled like the reader's own keys. -/
def Unreserved : Prop := ∀ id ∈ items.ids, ∀ n, id ≠ outputKey n

def touchesOf (n : Nat) (ts : List Touch) : List Touch :=
  ts.filter fun t => items.resolve t = some n

/-- **The item itself**: its touches in order, from nothing. -/
def contentOf (n : Nat) (ts : List Touch) : ItemContent :=
  (items.touchesOf n ts).foldl (fun content t => t.use content) {}

/-- The touches of one item, with their places among all. -/
def entriesOf (n : Nat) (ts : List Touch) : List (Touch × Nat) :=
  ts.zipIdx.filter fun e => items.resolve e.1 = some n

variable {items}

theorem idOf_eq_getElem {n : Nat} (h : n < items.ids.length) : items.idOf n = items.ids[n] := by
  simp [idOf, List.getD, h]

theorem idOf_mem {n : Nat} (h : n < items.ids.length) : items.idOf n ∈ items.ids := by
  rw [idOf_eq_getElem h]
  exact List.getElem_mem h

theorem idOf_inj {m n : Nat} (hm : m < items.ids.length) (hn : n < items.ids.length)
    (h : items.idOf m = items.idOf n) : m = n := by
  rw [idOf_eq_getElem hm, idOf_eq_getElem hn] at h
  exact items.distinct.getElem_inj_iff.mp h

theorem idOf_ne_empty {n : Nat} (h : n < items.ids.length) : items.idOf n ≠ "" :=
  items.nonempty _ (idOf_mem h)

theorem Names.id_eq {t : Touch} {n : Nat} (h : items.Names t n) (hId : t.id ≠ "") :
    t.id = items.idOf n := by
  obtain ⟨hn, hResolve, -⟩ := h
  rw [resolve, if_neg hId] at hResolve
  obtain ⟨_, hSame, -⟩ := List.idxOf?_eq_some_iff.mp hResolve
  rw [idOf_eq_getElem hn, hSame]

theorem Names.index_eq {t : Touch} {n : Nat} (h : items.Names t n) (hId : t.id = "") :
    t.index = some n := by
  obtain ⟨-, hResolve, -⟩ := h
  rwa [resolve, if_pos hId] at hResolve

end OutputItems

theorem outputKey_inj {m n : Nat} (h : outputKey m = outputKey n) : m = n :=
  Nat.repr_inj.mp ((String.append_right_inj _).mp h)

/-- Ids that do not begin like a key of the reader are never one. -/
theorem OutputItems.unreserved_of_front {items : OutputItems}
    (h : ∀ id ∈ items.ids, id.toList.head? ≠ some '@') : items.Unreserved := by
  intro id hId n hEq
  apply h id hId
  rw [hEq, outputKey, String.toList_append]
  rfl

/-! ## Adoption -/

namespace Parts

variable (parts : Parts)

theorem getElem?_append (index k : Nat) (text : String) : (parts.append index text)[k]? =
      if index = k then some (parts[index]?.getD "" ++ text) else parts[k]? := by
  unfold append
  rw [Std.ExtTreeMap.getElem?_alter]
  simp only [Std.compare_eq_iff_eq]

theorem getElem?_appendAll (entries : List (Nat × String)) :
    ∀ parts : Parts, (entries.map Prod.fst).Nodup → ∀ k,
      (entries.foldl (fun parts part => parts.append part.1 part.2) parts)[k]? =
        match entries.lookup k with
        | some text => some (parts[k]?.getD "" ++ text)
        | none => parts[k]? := by
  induction entries with
  | nil => exact fun _ _ _ => rfl
  | cons entry rest ih =>
    intro parts hNodup k
    obtain ⟨index, text⟩ := entry
    rw [List.map_cons, List.nodup_cons] at hNodup
    rw [List.foldl_cons, ih _ hNodup.2, getElem?_append]
    by_cases hk : k = index
    · subst hk
      have hNone : rest.lookup k = none := by
        rw [List.lookup_eq_none_iff]
        rintro ⟨k', t⟩ hMem
        have : k' ∈ rest.map Prod.fst := List.mem_map_of_mem hMem
        simp only [bne_iff_ne, ne_eq]
        rintro rfl
        exact hNodup.1 this
      simp [hNone]
    · simp only [List.lookup_cons, if_neg (Ne.symm hk), beq_eq_false_iff_ne.mpr hk]

theorem lookup_toList (k : Nat) : parts.toList.lookup k = parts[k]? := by
  cases hPart : parts[k]? with
  | some text =>
    have hMem := Std.ExtTreeMap.mem_toList_iff_getElem?_eq_some.mpr hPart
    cases hLookup : parts.toList.lookup k with
    | none =>
      have hOther := List.lookup_eq_none_iff.mp hLookup _ hMem
      simp at hOther
    | some other =>
      obtain ⟨before, after, hSplit, -⟩ := List.lookup_eq_some_iff.mp hLookup
      have hFound : (k, other) ∈ parts.toList := by simp [hSplit]
      rw [← hPart, Std.ExtTreeMap.mem_toList_iff_getElem?_eq_some.mp hFound]
  | none =>
    rw [List.lookup_eq_none_iff]
    rintro ⟨k', text⟩ hMem
    rw [Std.ExtTreeMap.mem_toList_iff_getElem?_eq_some] at hMem
    simp only [bne_iff_ne, ne_eq]
    rintro rfl
    rw [hPart] at hMem
    cases hMem

theorem getElem?_adopt (slot orphan : Parts) (k : Nat) : (slot.adopt orphan)[k]? =
      match orphan[k]? with
      | some text => some (slot[k]?.getD "" ++ text)
      | none => slot[k]? := by
  have hKeys : (orphan.toList.map Prod.fst).Nodup := by
    rw [List.nodup_iff_pairwise_ne, List.pairwise_map]
    refine orphan.distinct_keys_toList.imp ?_
    intro a b hab hEq
    exact hab (Std.compare_eq_iff_eq.mpr hEq)
  rw [adopt, getElem?_appendAll _ _ hKeys, lookup_toList]

theorem adopt_empty : parts.adopt ∅ = parts := by
  apply Std.ExtTreeMap.ext_getElem?
  intro k
  rw [getElem?_adopt, Std.ExtTreeMap.getElem?_empty]

theorem adopt_append (slot orphan : Parts) (index : Nat) (text : String) :
    slot.adopt (orphan.append index text) = (slot.adopt orphan).append index text := by
  apply Std.ExtTreeMap.ext_getElem?
  intro k
  rw [getElem?_adopt, getElem?_append, getElem?_append]
  by_cases hk : index = k
  · subst hk
    rw [if_pos rfl, if_pos rfl, getElem?_adopt]
    cases orphan[index]? <;> simp [String.append_assoc]
  · rw [if_neg hk, if_neg hk, getElem?_adopt]

end Parts

theorem adoptContent_empty_right (slot : ItemContent) : adoptContent slot {} = slot := by
  cases slot
  simp [adoptContent, Parts.adopt_empty]

theorem adoptContent_appendIncrement (delta : ResponsesDelta) (slot orphan : ItemContent) :
    adoptContent slot (ResponsesReader.appendIncrement delta orphan) =
      ResponsesReader.appendIncrement delta (adoptContent slot orphan) := by
  unfold ResponsesReader.appendIncrement
  cases delta.kind <;> simp [adoptContent, Parts.adopt_append, String.append_assoc]

/-! ## What the events of an item say -/

namespace Entries

variable (l : List (Touch × Nat))

/-- The content that events say, in their order. -/
def said : ItemContent := l.foldl (fun content e => e.1.use content) {}

/-- What was said by index alone since an event had both names. -/
def loose : List (Touch × Nat) :=
  (l.rtakeWhile fun e => e.1.mode ≠ .both).filter fun e => e.1.mode = .byIndex

/-- What was said otherwise. -/
def named : List (Touch × Nat) :=
  (l.rdropWhile fun e => e.1.mode ≠ .both) ++
    (l.rtakeWhile fun e => e.1.mode ≠ .both).filter fun e => e.1.mode ≠ .byIndex

/-- Some event has the id. -/
def Identified : Prop := ∃ e ∈ l, e.1.mode ≠ .byIndex

/-- Some event with both names found nothing said by index alone. -/
def Placed : Prop := ∃ before e, before ++ [e] <+: l ∧ e.1.mode = .both ∧ loose before = []

def Indexed : Prop := Identified l → Placed l

def first : Nat := (l.head?.map Prod.snd).getD 0

/-- Where the event stands that opened what is kept of the item: the first event with the id
alone, if no event had both names before, or else the first of all. -/
def opening : Nat :=
  match l.find? fun e => e.1.mode ≠ .byIndex with
  | some e => if e.1.mode = .byId then e.2 else first l
  | none => first l

/-- **What was said by index is folded in as if it had been said in order**, at every event with
both names. -/
def Folds : Prop := ∀ before e, before ++ [e] <+: l → e.1.mode = .both →
  adoptContent (said (named before)) (said (loose before)) = said before

/-- Nothing is left to fold in, unless the id is unknown. -/
def Whole : Prop := Identified l → loose l = []

end Entries

/-- The slots the reader keeps for one item: under its id, and under its index alone. -/
structure SlotView where
  content : ItemContent := {}
  index : Nat := 0
  /-- Where the event stands that opened it. -/
  opened : Nat

structure SlotPair where
  slot : Option SlotView := none
  orphan : Option SlotView := none

namespace SlotPair

def next (index : Nat) (p : SlotPair) (e : Touch × Nat) : SlotPair :=
  match e.1.mode with
  | .byIndex =>
    let orphan := p.orphan.getD { opened := e.2 }
    { p with orphan := some { orphan with content := e.1.use orphan.content, index := index } }
  | .byId =>
    let slot := p.slot.getD { opened := e.2 }
    { p with slot := some { slot with content := e.1.use slot.content } }
  | .both =>
    match p.orphan with
    | none =>
      let slot := p.slot.getD { opened := e.2 }
      { p with slot := some { slot with content := e.1.use slot.content, index := index } }
    | some orphan =>
      let slot := p.slot.getD { opened := orphan.opened }
      { slot := some { slot with
          content := e.1.use (adoptContent slot.content orphan.content) } }

end SlotPair

/-! ## One item -/

namespace Entries

variable {l : List (Touch × Nat)} {e : Touch × Nat}

theorem said_concat (l : List (Touch × Nat)) (e : Touch × Nat) :
    said (l ++ [e]) = e.1.use (said l) := by
  rw [said, List.foldl_append]
  rfl

theorem loose_concat (l : List (Touch × Nat)) (e : Touch × Nat) : loose (l ++ [e]) =
    if e.1.mode = .both then [] else if e.1.mode = .byIndex then loose l ++ [e] else loose l := by
  unfold loose
  by_cases hBoth : e.1.mode = .both
  · rw [List.rtakeWhile_concat_neg _ _ _ (by simp [hBoth]), if_pos hBoth]
    rfl
  · rw [List.rtakeWhile_concat_pos _ _ _ (by simp [hBoth]), if_neg hBoth, List.filter_append]
    by_cases hIndex : e.1.mode = .byIndex <;> simp [hIndex]

theorem named_concat (l : List (Touch × Nat)) (e : Touch × Nat) : named (l ++ [e]) =
    if e.1.mode = .both then l ++ [e] else if e.1.mode = .byIndex then named l
      else named l ++ [e] := by
  unfold named
  by_cases hBoth : e.1.mode = .both
  · rw [List.rtakeWhile_concat_neg _ _ _ (by simp [hBoth]),
      List.rdropWhile_concat_neg _ _ _ (by simp [hBoth]), if_pos hBoth]
    exact List.append_nil _
  · rw [List.rtakeWhile_concat_pos _ _ _ (by simp [hBoth]),
      List.rdropWhile_concat_pos _ _ _ (by simp [hBoth]), if_neg hBoth, List.filter_append]
    by_cases hIndex : e.1.mode = .byIndex <;> simp [hIndex]

theorem named_of_loose_nil (h : loose l = []) : named l = l := by
  have hAll : (l.rtakeWhile fun e => e.1.mode ≠ .both).filter (fun e => e.1.mode ≠ .byIndex) =
      l.rtakeWhile fun e => e.1.mode ≠ .both := by
    rw [List.filter_eq_self]
    intro e he
    simpa using List.filter_eq_nil_iff.mp h e he
  rw [named, hAll, List.rdropWhile_append_rtakeWhile]

theorem identified_concat (l : List (Touch × Nat)) (e : Touch × Nat) :
    Identified (l ++ [e]) ↔ Identified l ∨ e.1.mode ≠ .byIndex := by
  simp only [Identified, List.mem_append, List.mem_singleton, or_and_right, exists_or,
    exists_eq_left]

theorem placed_concat (l : List (Touch × Nat)) (e : Touch × Nat) :
    Placed (l ++ [e]) ↔ Placed l ∨ (e.1.mode = .both ∧ loose l = []) := by
  constructor
  · rintro ⟨before, x, hPrefix, hMode, hLoose⟩
    rcases List.prefix_concat_iff.mp hPrefix with hSame | hEarlier
    · obtain ⟨rfl, hLast⟩ := List.append_inj' hSame rfl
      rw [← List.singleton_inj.mp hLast]
      exact Or.inr ⟨hMode, hLoose⟩
    · exact Or.inl ⟨before, x, hEarlier, hMode, hLoose⟩
  · rintro (⟨before, x, hPrefix, hRest⟩ | hNow)
    · exact ⟨before, x, hPrefix.trans (List.prefix_append _ _), hRest⟩
    · exact ⟨l, e, List.prefix_rfl, hNow⟩

theorem Placed.identified (h : Placed l) : Identified l := by
  obtain ⟨before, e, hPrefix, hMode, -⟩ := h
  exact ⟨e, hPrefix.subset (by simp), by simp [hMode]⟩

theorem loose_of_not_identified (h : ¬Identified l) : loose l = l ∧ named l = [] := by
  have hModes : ∀ e ∈ l, e.1.mode = .byIndex := fun e he => by_contra fun hMode => h ⟨e, he, hMode⟩
  have hTake : l.rtakeWhile (fun e => decide (e.1.mode ≠ .both)) = l := by
    rw [List.rtakeWhile_eq_self_iff]
    intro e he
    simp [hModes e he]
  have hDrop : l.rdropWhile (fun e => decide (e.1.mode ≠ .both)) = [] := by
    rw [List.rdropWhile_eq_nil_iff]
    intro e he
    simp [hModes e he]
  constructor
  · rw [loose, hTake, List.filter_eq_self]
    intro e he
    simp [hModes e he]
  · rw [named, hTake, hDrop, List.nil_append, List.filter_eq_nil_iff]
    intro e he
    simp [hModes e he]

theorem first_concat (l : List (Touch × Nat)) (e : Touch × Nat) :
    first (l ++ [e]) = if l = [] then e.2 else first l := by
  cases l <;> simp [first]

theorem find?_identified : (l.find? fun e => e.1.mode ≠ .byIndex) = none ↔ ¬Identified l := by
  simp [Identified]

theorem opening_of_not_identified (h : ¬Identified l) : opening l = first l := by
  rw [opening, find?_identified.mpr h]

theorem opening_kept (h : Identified l) : opening (l ++ [e]) = opening l := by
  unfold opening
  rw [List.find?_append]
  cases hFind : l.find? fun e => e.1.mode ≠ .byIndex with
  | some x =>
    have hNonempty : l ≠ [] := List.ne_nil_of_mem (List.mem_of_find?_eq_some hFind)
    simp [first_concat, hNonempty]
  | none => exact absurd h (find?_identified.mp hFind)

theorem opening_fresh (h : ¬Identified l) (hMode : e.1.mode ≠ .byIndex) :
    opening (l ++ [e]) = if e.1.mode = .byId then e.2 else first (l ++ [e]) := by
  unfold opening
  rw [List.find?_append, find?_identified.mpr h]
  simp [hMode]

theorem Folds.init (h : Folds (l ++ [e])) : Folds l :=
  fun before x hPrefix hMode => h before x (hPrefix.trans (List.prefix_append _ _)) hMode

/-- What the slots of an item hold after its events. -/
structure Tells (index : Nat) (l : List (Touch × Nat)) (p : SlotPair) : Prop where
  orphan : p.orphan = (loose l).head?.map fun e => ⟨said (loose l), index, e.2⟩
  unknown : ¬Identified l → p.slot = none
  slot : Identified l → ∃ place, p.slot = some ⟨said (named l), place, opening l⟩ ∧
    (Placed l → place = index) ∧ (¬Placed l → place = 0)

/-- **The slots of an item, read off its events**, by induction from the last event. -/
theorem tells (index : Nat) (l : List (Touch × Nat)) (hFolds : Folds l) :
    Tells index l (l.foldl (SlotPair.next index) {}) := by
  induction l using List.reverseRecOn with
  | nil =>
    refine ⟨rfl, fun _ => rfl, ?_⟩
    rintro ⟨e, he, -⟩
    cases he
  | append_singleton l e ih =>
    obtain ⟨hOrphan, hUnknown, hSlot⟩ := ih hFolds.init
    rw [List.foldl_append, List.foldl_cons, List.foldl_nil]
    generalize l.foldl (SlotPair.next index) {} = p at hOrphan hUnknown hSlot ⊢
    unfold SlotPair.next
    cases hMode : e.1.mode with
    | byIndex =>
      have hLoose : loose (l ++ [e]) = loose l ++ [e] := by simp [loose_concat, hMode]
      have hNamed : named (l ++ [e]) = named l := by simp [named_concat, hMode]
      refine ⟨?_, fun hNot => hUnknown fun h => hNot ((identified_concat l e).mpr (Or.inl h)), ?_⟩
      · rw [hLoose, said_concat, hOrphan]
        cases hRest : loose l <;> simp [said]
      · intro hIs
        have hBefore : Identified l := by simpa [identified_concat, hMode] using hIs
        have hPlaced : Placed (l ++ [e]) ↔ Placed l := by simp [placed_concat, hMode]
        rw [hNamed, opening_kept hBefore, hPlaced]
        exact hSlot hBefore
    | byId =>
      have hLoose : loose (l ++ [e]) = loose l := by simp [loose_concat, hMode]
      have hNamed : named (l ++ [e]) = named l ++ [e] := by simp [named_concat, hMode]
      have hPlaced : Placed (l ++ [e]) ↔ Placed l := by simp [placed_concat, hMode]
      have hNow : Identified (l ++ [e]) := (identified_concat l e).mpr (Or.inr (by simp [hMode]))
      refine ⟨by rw [hLoose]; exact hOrphan, fun hNot => absurd hNow hNot, fun _ => ?_⟩
      rw [hNamed, said_concat, hPlaced]
      by_cases hBefore : Identified l
      · obtain ⟨place, hSome, hPlace⟩ := hSlot hBefore
        rw [opening_kept hBefore]
        refine ⟨place, ?_, hPlace⟩
        rw [hSome]
        rfl
      · refine ⟨0, ?_, fun h => absurd h.identified hBefore, fun _ => rfl⟩
        rw [opening_fresh hBefore (by simp [hMode]), hUnknown hBefore,
          (loose_of_not_identified hBefore).2, if_pos hMode]
        rfl
    | both =>
      have hLoose : loose (l ++ [e]) = [] := by simp [loose_concat, hMode]
      have hNamed : named (l ++ [e]) = l ++ [e] := by simp [named_concat, hMode]
      have hNow : Identified (l ++ [e]) := (identified_concat l e).mpr (Or.inr (by simp [hMode]))
      have hPlaced : Placed (l ++ [e]) ↔ Placed l ∨ loose l = [] := by simp [placed_concat, hMode]
      have hContent := hFolds l e List.prefix_rfl hMode
      have hFresh : ¬Identified l → opening (l ++ [e]) = first (l ++ [e]) := by
        intro hBefore
        rw [opening_fresh hBefore (by simp [hMode]), if_neg (by simp [hMode])]
      cases hWaiting : loose l with
      | nil =>
        rw [hWaiting] at hOrphan hContent hPlaced
        have hNone : p.orphan = none := hOrphan
        have hEmpty : said [] = {} := rfl
        rw [hEmpty, adoptContent_empty_right] at hContent
        rw [hNone]
        constructor
        · rw [hLoose]
          rfl
        · exact fun hNot => absurd hNow hNot
        · refine fun _ => ⟨index, ?_, fun _ => rfl, fun h => absurd (hPlaced.mpr (Or.inr rfl)) h⟩
          rw [hNamed, said_concat, ← hContent]
          by_cases hBefore : Identified l
          · obtain ⟨place, hSome, -⟩ := hSlot hBefore
            rw [hSome, opening_kept hBefore]
            rfl
          · obtain ⟨hAll, hNothing⟩ := loose_of_not_identified hBefore
            have hNil : l = [] := hAll.symm.trans hWaiting
            rw [hUnknown hBefore, hFresh hBefore, hNothing, hNil]
            rfl
      | cons x rest =>
        rw [hWaiting] at hOrphan hContent
        have hSome : p.orphan = some ⟨said (x :: rest), index, x.2⟩ := hOrphan
        have hKept : Placed (l ++ [e]) ↔ Placed l := by simp [hPlaced, hWaiting]
        rw [hSome]
        constructor
        · rw [hLoose]
          rfl
        · exact fun hNot => absurd hNow hNot
        · intro _
          rw [hNamed, said_concat, ← hContent, hKept]
          by_cases hBefore : Identified l
          · obtain ⟨place, hSlot, hPlace⟩ := hSlot hBefore
            rw [opening_kept hBefore]
            refine ⟨place, ?_, hPlace⟩
            rw [hSlot]
            rfl
          · obtain ⟨hAll, hNothing⟩ := loose_of_not_identified hBefore
            have hFirst : l = x :: rest := hAll.symm.trans hWaiting
            refine ⟨0, ?_, fun h => absurd h.identified hBefore, fun _ => rfl⟩
            rw [hUnknown hBefore, hFresh hBefore, hNothing, hFirst]
            rfl

/-- One slot of the given content, in a place: under the id or under the index. -/
structure Sole (index : Nat) (l : List (Touch × Nat)) (p : SlotPair) : Prop where
  view : ∃ place, (if l.any (·.1.mode ≠ .byIndex) then p.slot else p.orphan) =
      some ⟨said l, place, opening l⟩ ∧
    (Indexed l → place = index) ∧ (¬Indexed l → place = 0)
  other : (if l.any (·.1.mode ≠ .byIndex) then p.orphan else p.slot) = none

theorem any_identified : l.any (·.1.mode ≠ .byIndex) = true ↔ Identified l := by
  simp [Identified]

/-- **An item that is whole** is the fold of its events, in one slot. -/
theorem sole (index : Nat) {l : List (Touch × Nat)} (hFolds : Folds l) (hWhole : Whole l)
    (hTouched : l ≠ []) : Sole index l (l.foldl (SlotPair.next index) {}) := by
  obtain ⟨hOrphan, hUnknown, hSlot⟩ := tells index l hFolds
  generalize l.foldl (SlotPair.next index) {} = p at hOrphan hUnknown hSlot ⊢
  by_cases hIs : Identified l
  · have hNone := hWhole hIs
    obtain ⟨place, hSome, hPlaced, hNot⟩ := hSlot hIs
    rw [named_of_loose_nil hNone] at hSome
    rw [hNone] at hOrphan
    constructor
    · rw [if_pos (any_identified.mpr hIs)]
      exact ⟨place, hSome, fun h => hPlaced (h hIs), fun h => hNot fun hPlace => h fun _ => hPlace⟩
    · rw [if_pos (any_identified.mpr hIs)]
      exact hOrphan
  · have hAll := (loose_of_not_identified hIs).1
    obtain ⟨x, rest, hFirst⟩ := List.exists_cons_of_ne_nil hTouched
    have hIndexed : Indexed l := fun h => absurd h hIs
    constructor
    · rw [if_neg (mt any_identified.mp hIs), hOrphan, hAll, opening_of_not_identified hIs]
      refine ⟨index, ?_, fun _ => rfl, fun h => absurd hIndexed h⟩
      rw [hFirst]
      rfl
    · rw [if_neg (mt any_identified.mp hIs)]
      exact hUnknown hIs

end Entries

/-! ## The slots follow the pairs -/

/-- A slot as it is known, where stamps were given at `born`. One without a stamp is opened `now`. -/
def ItemState.view (born : Nat → Nat) (now : Nat) (s : ItemState) : SlotView :=
  ⟨s.toItemContent, s.outputIndex, (s.arrival.map born).getD now⟩

structure Stamped (born : Nat → Nat) (slots : ItemSlots) (now : Nat) : Prop where
  stamp : ∀ (key : String) (slot : ItemState), slots.items[key]? = some slot →
    ∃ a, slot.arrival = some a ∧ a < slots.nextArrival
  mono : ∀ a b, a < b → b < slots.nextArrival → born a < born b
  past : ∀ a, a < slots.nextArrival → born a < now

namespace ItemSlots

variable (slots : ItemSlots)

theorem getElem?_erase (key k : String) :
    (slots.items.erase key)[k]? = if key = k then none else slots.items[k]? := by
  rw [Std.ExtTreeMap.getElem?_erase]
  simp only [Std.compare_eq_iff_eq]

theorem touch_byIndex {t : Touch} {n : Nat} (hId : t.id = "") (hIndex : t.index = some n) :
    slots.touch t =
      let slot := slots.items[outputKey n]?.getD {}
      slots.store (outputKey n)
        { slot with toItemContent := t.use slot.toItemContent, outputIndex := n } := by
  simp [touch, item, itemKey, orphanOf, hId, hIndex]

theorem touch_byId {t : Touch} (hId : t.id ≠ "") (hIndex : t.index = none) : slots.touch t =
      let slot := slots.items[t.id]?.getD {}
      slots.store t.id { slot with toItemContent := t.use slot.toItemContent } := by
  simp [touch, item, itemKey, orphanOf, hId, hIndex]

theorem touch_both {t : Touch} {n : Nat} (hId : t.id ≠ "") (hIndex : t.index = some n)
    (hOrphan : slots.items[outputKey n]? = none) : slots.touch t =
      let slot := slots.items[t.id]?.getD {}
      slots.store t.id
        { slot with toItemContent := t.use slot.toItemContent, outputIndex := n } := by
  simp [touch, item, itemKey, orphanOf, hId, hIndex, hOrphan]

theorem touch_adopting {t : Touch} {n : Nat} {orphan : ItemState} (hId : t.id ≠ "")
    (hIndex : t.index = some n) (hKey : t.id ≠ outputKey n)
    (hOrphan : slots.items[outputKey n]? = some orphan) : slots.touch t =
      let slot := adoptOrphan (slots.items[t.id]?.getD {}) orphan
      store { slots with items := slots.items.erase (outputKey n) } t.id
        { slot with toItemContent := t.use slot.toItemContent } := by
  simp [touch, item, itemKey, orphanOf, hId, hIndex, hKey, hOrphan]

end ItemSlots

namespace Stamped

variable {born : Nat → Nat} {slots : ItemSlots} {now : Nat}

theorem later (h : Stamped born slots now) : Stamped born slots (now + 1) :=
  ⟨h.stamp, h.mono, fun a ha => Nat.lt_succ_of_lt (h.past a ha)⟩

theorem view_getD (h : Stamped born slots now) (key : String) :
    (slots.items[key]?.getD {}).view born now =
      (slots.items[key]?.map (ItemState.view born 0)).getD { opened := now } := by
  cases hSlot : slots.items[key]? with
  | none => rfl
  | some slot =>
    obtain ⟨a, hArrival, -⟩ := h.stamp key slot hSlot
    simp [ItemState.view, hArrival]

theorem arrival_getD (h : Stamped born slots now) (key : String) (a : Nat)
    (ha : (slots.items[key]?.getD {}).arrival = some a) : a < slots.nextArrival := by
  cases hSlot : slots.items[key]? with
  | none =>
    rw [hSlot] at ha
    cases ha
  | some slot =>
    obtain ⟨b, hArrival, hLt⟩ := h.stamp key slot hSlot
    rw [hSlot, Option.getD_some, hArrival] at ha
    rwa [← Option.some.inj ha]

theorem erase (h : Stamped born slots now) (key : String) :
    Stamped born { slots with items := slots.items.erase key } now := by
  refine ⟨fun k slot hSlot => ?_, h.mono, h.past⟩
  have hErased : (slots.items.erase key)[k]? = some slot := hSlot
  rw [ItemSlots.getElem?_erase] at hErased
  split_ifs at hErased
  exact h.stamp k slot hErased

/-- **A stored slot** keeps its stamp, or gets one now. -/
theorem store (h : Stamped born slots now) (key : String) (slot : ItemState)
    (hSlot : ∀ a, slot.arrival = some a → a < slots.nextArrival) :
    ∃ born', Stamped born' (slots.store key slot) (now + 1) ∧
      ∀ k : String, (slots.store key slot).items[k]?.map (ItemState.view born' 0) =
        if key = k then some (slot.view born now)
        else slots.items[k]?.map (ItemState.view born 0) := by
  cases hArrival : slot.arrival with
  | some a =>
    have hStore : slots.store key slot = { slots with items := slots.items.insert key slot } := by
      simp [ItemSlots.store, hArrival]
    have hItems : ∀ k : String, (slots.items.insert key slot)[k]? =
        if key = k then some slot else slots.items[k]? := by
      intro k
      rw [Std.ExtTreeMap.getElem?_insert]
      simp only [Std.compare_eq_iff_eq]
    refine ⟨born, ?_, fun k => ?_⟩
    · rw [hStore]
      refine ⟨fun k other hOther => ?_, h.mono, h.later.past⟩
      have hOther : (slots.items.insert key slot)[k]? = some other := hOther
      rw [hItems] at hOther
      split_ifs at hOther
      · rw [← Option.some.inj hOther]
        exact ⟨a, hArrival, hSlot a hArrival⟩
      · exact h.stamp k other hOther
    · rw [hStore]
      show (slots.items.insert key slot)[k]?.map _ = _
      rw [hItems]
      split_ifs
      · simp [ItemState.view, hArrival]
      · rfl
  | none =>
    have hStore : slots.store key slot =
        { items := slots.items.insert key { slot with arrival := some slots.nextArrival }
          nextArrival := slots.nextArrival + 1 } := by
      simp [ItemSlots.store, hArrival]
    have hItems : ∀ k : String,
        (slots.items.insert key { slot with arrival := some slots.nextArrival })[k]? =
          if key = k then some { slot with arrival := some slots.nextArrival }
          else slots.items[k]? := by
      intro k
      rw [Std.ExtTreeMap.getElem?_insert]
      simp only [Std.compare_eq_iff_eq]
    have hOld : ∀ a, a < slots.nextArrival →
        Function.update born slots.nextArrival now a = born a :=
      fun a ha => Function.update_of_ne (Nat.ne_of_lt ha) _ _
    refine ⟨Function.update born slots.nextArrival now, ?_, fun k => ?_⟩
    · rw [hStore]
      constructor
      · intro k other hOther
        have hOther : (slots.items.insert key
            { slot with arrival := some slots.nextArrival })[k]? = some other := hOther
        rw [hItems] at hOther
        split_ifs at hOther
        · rw [← Option.some.inj hOther]
          exact ⟨_, rfl, Nat.lt_succ_self _⟩
        · obtain ⟨a, hStamp, hLt⟩ := h.stamp k other hOther
          exact ⟨a, hStamp, Nat.lt_succ_of_lt hLt⟩
      · intro a b hab hb
        have ha : a < slots.nextArrival := Nat.lt_of_lt_of_le hab (Nat.lt_succ_iff.mp hb)
        rw [hOld a ha]
        rcases Nat.lt_succ_iff_lt_or_eq.mp hb with hLt | rfl
        · rw [hOld b hLt]
          exact h.mono a b hab hLt
        · rw [Function.update_self]
          exact h.past a ha
      · intro a ha
        rcases Nat.lt_succ_iff_lt_or_eq.mp ha with hLt | rfl
        · rw [hOld a hLt]
          exact h.later.past a hLt
        · rw [Function.update_self]
          exact Nat.lt_succ_self now
    · rw [hStore]
      show (slots.items.insert key { slot with arrival := some slots.nextArrival })[k]?.map _ = _
      rw [hItems]
      split_ifs
      · simp [ItemState.view, hArrival]
      · cases hOther : slots.items[k]? with
        | none => rfl
        | some other =>
          obtain ⟨a, hStamp, hLt⟩ := h.stamp k other hOther
          simp [ItemState.view, hStamp, hOld a hLt]

end Stamped

namespace OutputItems

variable (items : OutputItems)

def SlotsOf (born : Nat → Nat) (slots : ItemSlots) (n : Nat) (p : SlotPair) : Prop :=
  slots.items[outputKey n]?.map (ItemState.view born 0) = p.orphan ∧
    slots.items[items.idOf n]?.map (ItemState.view born 0) = p.slot

structure Follows (born : Nat → Nat) (slots : ItemSlots) (now : Nat) (pairs : Nat → SlotPair) :
    Prop where
  slot : ∀ n, n < items.ids.length → items.SlotsOf born slots n (pairs n)
  only : ∀ key, slots.items[key]? ≠ none →
    ∃ n, n < items.ids.length ∧ (key = outputKey n ∨ key = items.idOf n)
  stamped : Stamped born slots now

variable {items}
variable {born born' : Nat → Nat} {slots slots' : ItemSlots} {now : Nat} {pairs : Nat → SlotPair}

theorem Follows.update (hFree : items.Unreserved) (h : items.Follows born slots now pairs)
    {n : Nat} (hn : n < items.ids.length) {p : SlotPair}
    (hOther : ∀ key, key ≠ outputKey n → key ≠ items.idOf n →
      slots'.items[key]?.map (ItemState.view born' 0) =
        slots.items[key]?.map (ItemState.view born 0))
    (hStamped : Stamped born' slots' (now + 1)) (hSlot : items.SlotsOf born' slots' n p) :
    items.Follows born' slots' (now + 1) (Function.update pairs n p) := by
  refine ⟨fun m hm => ?_, fun key hKey => ?_, hStamped⟩
  · by_cases hmn : m = n
    · subst hmn
      simpa only [Function.update_self] using hSlot
    · rw [Function.update_of_ne hmn]
      obtain ⟨hOutput, hId⟩ := h.slot m hm
      refine ⟨?_, ?_⟩
      · rw [hOther _ (fun hEq => hmn (outputKey_inj hEq))
          fun hEq => hFree _ (idOf_mem hn) m hEq.symm]
        exact hOutput
      · rw [hOther _ (hFree _ (idOf_mem hm) n) fun hEq => hmn (idOf_inj hm hn hEq)]
        exact hId
  · by_cases hOutput : key = outputKey n
    · exact ⟨n, hn, Or.inl hOutput⟩
    · by_cases hId : key = items.idOf n
      · exact ⟨n, hn, Or.inr hId⟩
      · refine h.only key fun hNone => hKey ?_
        have hView := hOther key hOutput hId
        rw [hNone] at hView
        exact Option.map_eq_none_iff.mp hView

/-- **One touch** does to the slots what it does to the pair of its item. -/
theorem Follows.touch (hFree : items.Unreserved) (h : items.Follows born slots now pairs)
    {t : Touch} {n : Nat} (hNames : items.Names t n) :
    ∃ born', items.Follows born' (slots.touch t) (now + 1)
      (Function.update pairs n ((pairs n).next n (t, now))) := by
  have hn := hNames.1
  have hKeys : items.idOf n ≠ outputKey n := hFree _ (idOf_mem hn) n
  obtain ⟨hOutput, hSlot⟩ := h.slot n hn
  have hView := h.stamped.view_getD (items.idOf n)
  rw [hSlot] at hView
  have hStamp := h.stamped.arrival_getD (items.idOf n)
  by_cases hId : t.id = ""
  · have hMode : t.mode = .byIndex := if_pos hId
    have hOrphan := h.stamped.view_getD (outputKey n)
    rw [hOutput] at hOrphan
    rw [slots.touch_byIndex hId (hNames.index_eq hId)]
    obtain ⟨born', hStamped, hItems⟩ := h.stamped.store (outputKey n)
      { slots.items[outputKey n]?.getD {} with
        toItemContent := t.use (slots.items[outputKey n]?.getD {}).toItemContent
        outputIndex := n } (h.stamped.arrival_getD _)
    refine ⟨born', h.update hFree hn (fun k hk _ => ?_) hStamped ⟨?_, ?_⟩⟩
    · rw [hItems, if_neg (Ne.symm hk)]
    · rw [hItems, if_pos rfl, SlotPair.next, hMode]
      dsimp only
      rw [← hOrphan]
      rfl
    · rw [hItems, if_neg (Ne.symm hKeys), hSlot, SlotPair.next, hMode]
  · have hName := hNames.id_eq hId
    cases hIndex : t.index with
    | none =>
      have hMode : t.mode = .byId := by simp [Touch.mode, hId, hIndex]
      rw [slots.touch_byId hId hIndex, hName]
      obtain ⟨born', hStamped, hItems⟩ := h.stamped.store (items.idOf n)
        { slots.items[items.idOf n]?.getD {} with
          toItemContent := t.use (slots.items[items.idOf n]?.getD {}).toItemContent } hStamp
      refine ⟨born', h.update hFree hn (fun k _ hk => ?_) hStamped ⟨?_, ?_⟩⟩
      · rw [hItems, if_neg (Ne.symm hk)]
      · rw [hItems, if_neg hKeys, hOutput, SlotPair.next, hMode]
      · rw [hItems, if_pos rfl, SlotPair.next, hMode]
        dsimp only
        rw [← hView]
        rfl
    | some i =>
      have hi : i = n := hNames.2.2 i hIndex
      subst hi
      have hMode : t.mode = .both := by simp [Touch.mode, hId, hIndex]
      cases hSome : (pairs i).orphan with
      | none =>
        rw [hSome] at hOutput
        rw [slots.touch_both hId hIndex (Option.map_eq_none_iff.mp hOutput), hName]
        obtain ⟨born', hStamped, hItems⟩ := h.stamped.store (items.idOf i)
          { slots.items[items.idOf i]?.getD {} with
            toItemContent := t.use (slots.items[items.idOf i]?.getD {}).toItemContent
            outputIndex := i } hStamp
        refine ⟨born', h.update hFree hn (fun k _ hk => ?_) hStamped ⟨?_, ?_⟩⟩
        · rw [hItems, if_neg (Ne.symm hk)]
        · rw [hItems, if_neg hKeys, hOutput, SlotPair.next, hMode]
          simp only [hSome]
        · rw [hItems, if_pos rfl, SlotPair.next, hMode]
          simp only [hSome]
          rw [← hView]
          rfl
      | some waiting =>
        rw [hSome] at hOutput
        obtain ⟨orphan, hOrphan, hWaiting⟩ := Option.map_eq_some_iff.mp hOutput
        obtain ⟨b, hArrival, hLt⟩ := h.stamped.stamp _ orphan hOrphan
        rw [slots.touch_adopting hId hIndex (hName ▸ hKeys) hOrphan, hName]
        have hAdopted : ∀ a, (adoptOrphan (slots.items[items.idOf i]?.getD {}) orphan).arrival =
            some a → a < slots.nextArrival := by
          intro a ha
          simp only [adoptOrphan] at ha
          split_ifs at ha
          · rw [hArrival] at ha
            rwa [← Option.some.inj ha]
          · exact hStamp a ha
        obtain ⟨born', hStamped, hItems⟩ := (h.stamped.erase (outputKey i)).store (items.idOf i)
          { adoptOrphan (slots.items[items.idOf i]?.getD {}) orphan with
            toItemContent := t.use
              (adoptOrphan (slots.items[items.idOf i]?.getD {}) orphan).toItemContent } hAdopted
        refine ⟨born', h.update hFree hn (fun k hk hk' => ?_) hStamped ⟨?_, ?_⟩⟩
        · rw [hItems, if_neg (Ne.symm hk'), ItemSlots.getElem?_erase, if_neg (Ne.symm hk)]
        · rw [hItems, if_neg hKeys, ItemSlots.getElem?_erase, if_pos rfl, SlotPair.next, hMode]
          simp only [hSome]
          rfl
        · rw [hItems, if_pos rfl, SlotPair.next, hMode]
          simp only [hSome]
          rw [← hSlot, ← hWaiting]
          cases hOwn : slots.items[items.idOf i]? with
          | none => simp [ItemState.view, adoptOrphan, hArrival]
          | some own =>
            obtain ⟨a, hOwnArrival, -⟩ := h.stamped.stamp _ own hOwn
            simp [ItemState.view, adoptOrphan, hOwnArrival]

/-- The places of an item's touches, one after another. -/
def entriesFrom (items : OutputItems) (k n : Nat) (ts : List Touch) : List (Touch × Nat) :=
  (ts.zipIdx k).filter fun e => items.resolve e.1 = some n

theorem entriesFrom_cons {t : Touch} {n : Nat} (hNames : items.Names t n) (k : Nat)
    (ts : List Touch) (m : Nat) : items.entriesFrom k m (t :: ts) =
      if m = n then (t, k) :: items.entriesFrom (k + 1) m ts
      else items.entriesFrom (k + 1) m ts := by
  simp only [entriesFrom, List.zipIdx_cons, List.filter_cons, hNames.2.1, Option.some.injEq,
    decide_eq_true_eq]
  by_cases hmn : m = n
  · simp [hmn]
  · simp [hmn, Ne.symm hmn]

/-- **A run of touches**, by induction: the slots of every item are those of its pair. -/
theorem Follows.touches (hFree : items.Unreserved) (ts : List Touch) :
    ∀ {born : Nat → Nat} {slots : ItemSlots} {now : Nat} {pairs : Nat → SlotPair},
      items.Follows born slots now pairs → (∀ t ∈ ts, ∃ n, items.Names t n) →
      ∃ born', items.Follows born' (ts.foldl ItemSlots.touch slots) (now + ts.length)
        fun n => (items.entriesFrom now n ts).foldl (SlotPair.next n) (pairs n) := by
  induction ts with
  | nil => exact fun h _ => ⟨_, h⟩
  | cons t ts ih =>
    intro born slots now pairs h hNames
    obtain ⟨n, hn⟩ := hNames t (by simp)
    obtain ⟨born', hHere⟩ := h.touch hFree hn
    obtain ⟨born'', hNext⟩ := ih hHere fun u hu => hNames u (by simp [hu])
    rw [Nat.add_assoc, Nat.add_comm 1] at hNext
    refine ⟨born'', fun m hm => ?_, hNext.only, hNext.stamped⟩
    have hSlot := hNext.slot m hm
    show items.SlotsOf born'' (ts.foldl ItemSlots.touch (slots.touch t)) m
      ((items.entriesFrom now m (t :: ts)).foldl (SlotPair.next m) (pairs m))
    rw [entriesFrom_cons hn]
    by_cases hmn : m = n
    · subst hmn
      rw [if_pos rfl, List.foldl_cons]
      simpa only [Function.update_self] using hSlot
    · rw [if_neg hmn]
      simpa only [Function.update_of_ne hmn] using hSlot

theorem follows_empty : items.Follows id {} 0 fun _ => {} := by
  have hEmpty : ∀ key : String, ({} : ItemSlots).items[key]? = none :=
    fun key => Std.ExtTreeMap.getElem?_empty
  refine ⟨fun n _ => ⟨?_, ?_⟩, fun key hKey => absurd (hEmpty key) hKey, ?_, ?_, ?_⟩
  · rw [hEmpty]
    rfl
  · rw [hEmpty]
    rfl
  · intro key slot hSlot
    rw [hEmpty] at hSlot
    cases hSlot
  · exact fun a b hab _ => hab
  · exact fun a ha => absurd ha (Nat.not_lt_zero a)

/-! ## The slots in order -/

instance : Std.Total ItemSlots.Before where
  total a b := by
    unfold ItemSlots.Before
    omega

instance : IsTrans ItemState ItemSlots.Before where
  trans a b c := by
    unfold ItemSlots.Before
    omega

def touched (items : OutputItems) (ts : List Touch) : List Nat :=
  (List.range items.ids.length).filter fun n => !(items.touchesOf n ts).isEmpty

/-- **The items come in the order of their indices**: where one does not take its place by its
index, those before it are opened earlier, and stand at index 0 as well. -/
def InOrder (items : OutputItems) (ts : List Touch) : Prop :=
  ∀ m n, m < n → n < items.ids.length → items.entriesOf m ts ≠ [] → items.entriesOf n ts ≠ [] →
    ¬Entries.Indexed (items.entriesOf n ts) →
    (m = 0 ∨ ¬Entries.Indexed (items.entriesOf m ts)) ∧
      Entries.opening (items.entriesOf m ts) < Entries.opening (items.entriesOf n ts)

/-- The names come in an order that the reader follows. -/
structure WellNamedItems (items : OutputItems) (ts : List Touch) : Prop where
  folds : ∀ n, n < items.ids.length → Entries.Folds (items.entriesOf n ts)
  whole : ∀ n, n < items.ids.length → Entries.Whole (items.entriesOf n ts)
  order : items.InOrder ts

theorem map_fst_entriesOf (n : Nat) (ts : List Touch) :
    (items.entriesOf n ts).map Prod.fst = items.touchesOf n ts := by
  unfold entriesOf touchesOf
  conv_rhs => rw [← List.zipIdx_map_fst 0 ts, List.filter_map]
  rfl

theorem said_entriesOf (n : Nat) (ts : List Touch) :
    Entries.said (items.entriesOf n ts) = items.contentOf n ts := by
  rw [contentOf, ← map_fst_entriesOf, List.foldl_map, Entries.said]

theorem mem_touched {n : Nat} {ts : List Touch} :
    n ∈ items.touched ts ↔ n < items.ids.length ∧ items.entriesOf n ts ≠ [] := by
  rw [touched, List.mem_filter, List.mem_range, ← map_fst_entriesOf, List.isEmpty_map]
  simp

def keyOf (items : OutputItems) (n : Nat) (ts : List Touch) : String :=
  if (items.entriesOf n ts).any (·.1.mode ≠ .byIndex) then items.idOf n else outputKey n

structure Holds (items : OutputItems) (ts : List Touch) (n : Nat) (slot : ItemState) : Prop where
  content : slot.toItemContent = items.contentOf n ts
  indexed : Entries.Indexed (items.entriesOf n ts) → slot.outputIndex = n
  unplaced : ¬Entries.Indexed (items.entriesOf n ts) → slot.outputIndex = 0

section

variable {ts : List Touch}
variable (h : items.Follows born slots now
  fun n => (items.entriesOf n ts).foldl (SlotPair.next n) {})
include h

theorem Follows.slot_of_item (hWell : items.WellNamedItems ts) {n : Nat}
    (hn : n ∈ items.touched ts) :
    ∃ slot, slots.items[items.keyOf n ts]? = some slot ∧ items.Holds ts n slot ∧
      (slot.view born 0).opened = Entries.opening (items.entriesOf n ts) := by
  obtain ⟨hLt, hTouched⟩ := mem_touched.mp hn
  obtain ⟨hOutput, hId⟩ := h.slot n hLt
  obtain ⟨⟨place, hView, hPlaced, hNot⟩, -⟩ :=
    Entries.sole n (hWell.folds n hLt) (hWell.whole n hLt) hTouched
  have hSlot : slots.items[items.keyOf n ts]?.map (ItemState.view born 0) =
      some ⟨Entries.said (items.entriesOf n ts), place,
        Entries.opening (items.entriesOf n ts)⟩ := by
    rw [← hView, keyOf]
    split_ifs
    · exact hId
    · exact hOutput
  obtain ⟨slot, hSome, hSame⟩ := Option.map_eq_some_iff.mp hSlot
  have hIndex : slot.outputIndex = place := congrArg SlotView.index hSame
  refine ⟨slot, hSome, ⟨?_, fun hIs => hIndex.trans (hPlaced hIs),
    fun hIs => hIndex.trans (hNot hIs)⟩, congrArg SlotView.opened hSame⟩
  rw [← said_entriesOf]
  exact congrArg SlotView.content hSame

theorem Follows.item_of_slot (hWell : items.WellNamedItems ts) {key : String}
    (hSlot : slots.items[key]? ≠ none) : ∃ n ∈ items.touched ts, key = items.keyOf n ts := by
  obtain ⟨n, hLt, hKey⟩ := h.only key hSlot
  obtain ⟨hOutput, hId⟩ := h.slot n hLt
  have hTouched : items.entriesOf n ts ≠ [] := by
    intro hNil
    rw [hNil] at hOutput hId
    rcases hKey with rfl | rfl
    · exact hSlot (Option.map_eq_none_iff.mp hOutput)
    · exact hSlot (Option.map_eq_none_iff.mp hId)
  refine ⟨n, mem_touched.mpr ⟨hLt, hTouched⟩, ?_⟩
  obtain ⟨-, hOther⟩ := Entries.sole n (hWell.folds n hLt) (hWell.whole n hLt) hTouched
  unfold keyOf
  split_ifs at hOther ⊢ with hIs
  · rcases hKey with rfl | rfl
    · exact absurd (Option.map_eq_none_iff.mp (hOutput.trans hOther)) hSlot
    · rfl
  · rcases hKey with rfl | rfl
    · rfl
    · exact absurd (Option.map_eq_none_iff.mp (hId.trans hOther)) hSlot

theorem Follows.not_before (hWell : items.WellNamedItems ts) {m n : Nat} (hmn : m < n)
    (hm : m ∈ items.touched ts) (hn : n ∈ items.touched ts) {a b : ItemState}
    (ha : slots.items[items.keyOf m ts]? = some a) (hb : slots.items[items.keyOf n ts]? = some b) :
    ¬ItemSlots.Before b a := by
  obtain ⟨a, hSome, hA, hOpenA⟩ := h.slot_of_item hWell hm
  obtain rfl := Option.some.inj (hSome.symm.trans ha)
  obtain ⟨b, hSome, hB, hOpenB⟩ := h.slot_of_item hWell hn
  obtain rfl := Option.some.inj (hSome.symm.trans hb)
  unfold ItemSlots.Before
  by_cases hIndexed : Entries.Indexed (items.entriesOf n ts)
  · have hIndex := hB.indexed hIndexed
    by_cases hEarlier : Entries.Indexed (items.entriesOf m ts)
    · have hIndex' := hA.indexed hEarlier
      omega
    · have hIndex' := hA.unplaced hEarlier
      omega
  · obtain ⟨hPlace, hOpened⟩ := hWell.order m n hmn (mem_touched.mp hn).1 (mem_touched.mp hm).2
      (mem_touched.mp hn).2 hIndexed
    have hIndex := hB.unplaced hIndexed
    have hIndex' : a.outputIndex = 0 := by
      by_cases hEarlier : Entries.Indexed (items.entriesOf m ts)
      · rw [hA.indexed hEarlier]
        exact hPlace.resolve_right fun hNot => hNot hEarlier
      · exact hA.unplaced hEarlier
    obtain ⟨x, hx, hxLt⟩ := h.stamped.stamp _ a ha
    obtain ⟨y, hy, -⟩ := h.stamped.stamp _ b hb
    have hBorn : born x < born y := by
      simp only [ItemState.view, hx, hy, Option.map_some, Option.getD_some] at hOpenA hOpenB
      rwa [hOpenA, hOpenB]
    rintro (hLt | ⟨-, hArrival⟩)
    · omega
    · rw [hx, hy, Option.getD_some, Option.getD_some] at hArrival
      rcases Nat.lt_or_eq_of_le hArrival with hLt | rfl
      · exact absurd (h.stamped.mono y x hLt hxLt) (Nat.lt_asymm hBorn)
      · exact absurd hBorn (Nat.lt_irrefl _)

omit h in
theorem keyOf_inj (hFree : items.Unreserved) {m n : Nat} (hm : m < items.ids.length)
    (hn : n < items.ids.length) (hKeys : items.keyOf m ts = items.keyOf n ts) : m = n := by
  unfold keyOf at hKeys
  split_ifs at hKeys
  · exact idOf_inj hm hn hKeys
  · exact absurd hKeys (hFree _ (idOf_mem hm) n)
  · exact absurd hKeys.symm (hFree _ (idOf_mem hn) m)
  · exact outputKey_inj hKeys

theorem Follows.ordered (hFree : items.Unreserved) (hWell : items.WellNamedItems ts) :
    List.Forall₂ (items.Holds ts) (items.touched ts) slots.ordered := by
  let slotAt := fun n => (slots.items[items.keyOf n ts]?).getD {}
  have hAt : ∀ n ∈ items.touched ts, slots.items[items.keyOf n ts]? = some (slotAt n) ∧
      items.Holds ts n (slotAt n) := by
    intro n hn
    obtain ⟨slot, hSome, hHolds, -⟩ := h.slot_of_item hWell hn
    have hSlot : slotAt n = slot := by
      show (slots.items[items.keyOf n ts]?).getD {} = slot
      rw [hSome, Option.getD_some]
    rw [hSlot]
    exact ⟨hSome, hHolds⟩
  have hNodup : (items.touched ts).Nodup := List.nodup_range.filter _
  have hPerm : slots.items.toList.Perm
      ((items.touched ts).map fun n => (items.keyOf n ts, slotAt n)) := by
    refine (List.perm_ext_iff_of_nodup ?_ ?_).mpr ?_
    · rw [List.nodup_iff_pairwise_ne]
      refine slots.items.distinct_keys_toList.imp fun hKeys hSame => hKeys ?_
      rw [hSame]
      exact Std.compare_eq_iff_eq.mpr rfl
    · refine hNodup.map_on fun m hm n hn hSame => ?_
      exact keyOf_inj hFree (mem_touched.mp hm).1 (mem_touched.mp hn).1 (congrArg Prod.fst hSame)
    · rintro ⟨key, slot⟩
      rw [Std.ExtTreeMap.mem_toList_iff_getElem?_eq_some, List.mem_map]
      constructor
      · intro hSlot
        have hSome : slots.items[key]? ≠ none := by simp [hSlot]
        obtain ⟨n, hn, rfl⟩ := h.item_of_slot hWell hSome
        exact ⟨n, hn, Prod.ext rfl (Option.some.inj ((hAt n hn).1.symm.trans hSlot))⟩
      · rintro ⟨n, hn, hSame⟩
        obtain ⟨rfl, rfl⟩ := Prod.mk.inj hSame
        exact (hAt n hn).1
  have hValues : (slots.items.toList.map Prod.snd).Perm ((items.touched ts).map slotAt) := by
    have hMap := hPerm.map Prod.snd
    rwa [List.map_map] at hMap
  -- Of two items the one with the smaller index stands first, and never both
  have hStrict : ∀ m ∈ items.touched ts, ∀ n ∈ items.touched ts, m < n →
      ¬ItemSlots.Before (slotAt n) (slotAt m) :=
    fun m hm n hn hmn => h.not_before hWell hmn hm hn (hAt m hm).1 (hAt n hn).1
  have hOrdered : slots.ordered = (items.touched ts).map slotAt := by
    refine List.Perm.eq_of_pairwise ?_
      (List.pairwise_insertionSort ItemSlots.Before _) ?_
      ((List.perm_insertionSort ItemSlots.Before _).trans hValues)
    · intro a b ha hb hab hba
      have ha' := ((List.perm_insertionSort ItemSlots.Before _).trans hValues).mem_iff.mp ha
      obtain ⟨m, hm, rfl⟩ := List.mem_map.mp ha'
      obtain ⟨n, hn, rfl⟩ := List.mem_map.mp hb
      rcases Nat.lt_trichotomy m n with hLt | rfl | hLt
      · exact absurd hba (hStrict m hm n hn hLt)
      · rfl
      · exact absurd hab (hStrict n hn m hm hLt)
    · rw [List.pairwise_map]
      refine (List.pairwise_lt_range.filter _).imp_of_mem fun hm hn hmn => ?_
      exact (total_of ItemSlots.Before _ _).resolve_right (hStrict _ hm _ hn hmn)
  rw [hOrdered, List.forall₂_map_right_iff, List.forall₂_same]
  exact fun n hn => (hAt n hn).2

end

/-- **The slots are the items**: in the order of their indices, each with the fold of its
touches. -/
theorem ordered_items {ts : List Touch} (hFree : items.Unreserved)
    (hNames : ∀ t ∈ ts, ∃ n, items.Names t n) (hWell : items.WellNamedItems ts) :
    List.Forall₂ (items.Holds ts) (items.touched ts) (ts.foldl ItemSlots.touch {}).ordered := by
  obtain ⟨born, h⟩ := Follows.touches hFree ts follows_empty hNames
  exact Follows.ordered h hFree hWell

theorem ordered_contents {ts : List Touch} (hFree : items.Unreserved)
    (hNames : ∀ t ∈ ts, ∃ n, items.Names t n) (hWell : items.WellNamedItems ts) :
    (ts.foldl ItemSlots.touch {}).ordered.map ItemState.toItemContent =
      (items.touched ts).map fun n => items.contentOf n ts := by
  have hItems := (ordered_items hFree hNames hWell).imp fun _ _ h => h.content
  rw [← List.forall₂_eq_eq_eq, List.forall₂_map_left_iff, List.forall₂_map_right_iff]
  exact hItems.flip

end OutputItems

end SimplexAgent.Llm.Responses
