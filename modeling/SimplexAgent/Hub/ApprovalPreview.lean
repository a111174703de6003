import SimplexAgent.Hub.JsValue
import SimplexAgent.Verified.Bisect

/-!
# The preview of an approval

`approvalArgumentPreview` of `protocol/approval-preview.ts`: the arguments of a call as an operator
sees them, within a number of bytes. What does not fit is cut where it is largest, and every cut
is marked.

`Shown` is what a preview may be of a value, constructor by constructor, and `project_spec` says
that each preview is that and fits. A value gets at least the bytes of an omission marker, or its
own where these are fewer (`budgets_spec`), so a marker always has room.
-/

namespace SimplexAgent.Hub.Js

open Verified

/-! ## Markers -/

/-- `OMITTED`. -/
def omitted : Value Number := .obj [(text "display_omitted", .bool true)]

/-- What stands for the rest of an array. -/
def omittedItems (count : Nat) : Value Number :=
  .obj [(text "display_omitted", .bool true), (text "omitted_items", .num (.safe count))]

def stringMarker (value preview : Text) : Value Number :=
  .obj [(text "display_truncated", .bool true),
    (text "bytes", .num (.safe (Utf16.byteLength value))), (text "preview", .str preview)]

/-- `OMITTED_BYTES`. -/
def omittedBytes : Nat := omitted.bytes

theorem omittedBytes_eq : omittedBytes = 24 := by decide +kernel

/-- `ARRAY_ITEM_BYTES`. -/
def arrayItemBytes : Nat := 128

/-- `MAX_DEPTH`. -/
def maxDepth : Nat := 12

/-- `MAX_NODES`. -/
def maxNodes : Nat := 4096

/-- `APPROVAL_ARGUMENT_BYTES`. -/
def approvalArgumentBytes : Nat := 64 * 1024

/-! ## Budgets -/

/-- What an element gets where large ones get `level`. -/
def allowance (minimumBytes level size : Nat) : Nat := max (min size minimumBytes) (min size level)

/-- `approvalPreviewBudgets`. -/
def approvalPreviewBudgets (sizes : List Nat) (maximum : Int) (minimumBytes : Nat) :
    Option (List Nat) :=
  if maximum < ((sizes.map fun size => min size minimumBytes).sum : Nat) then none
  else if ((sizes.sum : Nat) : Int) ≤ maximum then some sizes
  else
    let high := sizes.foldl max 0
    let level := bisect
      (fun level => (((sizes.map (allowance minimumBytes level)).sum : Nat) : Int) ≤ maximum)
      high 0 high
    some (sizes.map (allowance minimumBytes level))

/-! ## The preview -/

/-- The inner `prefix` of `stringPreview`: no pair of surrogates is cut. -/
def cutAt (value : Text) (length : Nat) : Text :=
  match length with
  | 0 => []
  | n + 1 =>
    if (value[n]?).any Utf16.isHigh && (value[n + 1]?).any Utf16.isLow then value.take n
    else value.take (n + 1)

/-- `stringPreview`. -/
def stringPreview (value : Text) (maximum : Nat) : Value Number :=
  if maximum < (stringMarker value []).bytes then omitted
  else
    let high := min value.length maximum
    let length := bisect (fun length => (stringMarker value (cutAt value length)).bytes ≤ maximum)
      high 0 high
    stringMarker value (cutAt value length)

/-- How many items of an array are kept, and the bytes of the marker behind them. The arguments
are the items still kept, their least bytes, and the bytes of the marker. -/
def retained (sizes : List Nat) (maximum : Nat) : Nat → Nat → Nat → Nat × Nat
  | 0, _, marker => (0, marker)
  | count + 1, minimumBytes, marker =>
    if maximum < 2 + count + minimumBytes + marker then
      retained sizes maximum count (minimumBytes - min (sizes[count]?.getD 0) arrayItemBytes)
        (1 + (omittedItems (sizes.length - count)).bytes)
    else (count + 1, marker)

/-- `retained`, from the whole array. -/
def retainedItems (sizes : List Nat) (maximum : Nat) : Nat × Nat :=
  retained sizes maximum sizes.length (sizes.map fun size => min size arrayItemBytes).sum 0

def itemLimits (sizes : List Nat) (maximum : Nat) : List Nat :=
  let (count, marker) := retainedItems sizes maximum
  (approvalPreviewBudgets (sizes.take count) ((maximum : Int) - 2 - (count - 1) - marker)
    arrayItemBytes).getD []

/-- Braces, commas and keys. -/
def framing (members : List (Text × Value Number)) : Nat :=
  2 + (members.length - 1) + (members.map fun member => textBytes member.1 + 1).sum

mutual

/-- `project`: the preview, and the nodes that may still be visited. -/
def project (value : Value Number) (maximum depth nodes : Nat) : Value Number × Nat :=
  if value.bytes ≤ maximum then (value, nodes)
  else if nodes = 0 ∨ maxDepth ≤ depth then (omitted, nodes - 1)
  else
    match value with
    | .str s => (stringPreview s maximum, nodes - 1)
    | .arr items =>
      let count := (retainedItems (items.map (·.bytes)) maximum).1
      if count = 0 then (omitted, nodes - 1)
      else
        let (shown, nodes) :=
          projectItems items (itemLimits (items.map (·.bytes)) maximum) (depth + 1) (nodes - 1)
        (.arr (if count < items.length then shown ++ [omittedItems (items.length - count)]
          else shown), nodes)
    | .obj members =>
      match approvalPreviewBudgets (members.map fun member => member.2.bytes)
          ((maximum : Int) - framing members) omittedBytes with
      | none => (omitted, nodes - 1)
      | some limits =>
        let (shown, nodes) := projectMembers members limits (depth + 1) (nodes - 1)
        (.obj shown, nodes)
    | .null | .bool _ | .num _ => (omitted, nodes - 1)

def projectItems (items : List (Value Number)) (limits : List Nat) (depth nodes : Nat) :
    List (Value Number) × Nat :=
  match items, limits with
  | item :: rest, limit :: limits =>
    let (shown, nodes) := project item limit depth nodes
    let (more, nodes) := projectItems rest limits depth nodes
    (shown :: more, nodes)
  | _, _ => ([], nodes)

def projectMembers (members : List (Text × Value Number)) (limits : List Nat) (depth nodes : Nat) :
    List (Text × Value Number) × Nat :=
  match members, limits with
  | (key, value) :: rest, limit :: limits =>
    let (shown, nodes) := project value limit depth nodes
    let (more, nodes) := projectMembers rest limits depth nodes
    ((key, shown) :: more, nodes)
  | _, _ => ([], nodes)

end

structure Preview where
  value : Value Number
  truncated : Bool
  originalBytes : Nat

/-- `approvalArgumentPreview`; a budget without room for a marker is a range error. -/
def approvalArgumentPreview (argumentsValue : Option (Value Number)) (maximum : Nat) :
    Option Preview :=
  if maximum < omittedBytes then none
  else
    let maximum := min maximum approvalArgumentBytes
    let source := argumentsValue.getD (.obj [])
    let truncated := decide (maximum < source.bytes)
    some {
      value := if truncated then (project source maximum 0 maxNodes).1 else source
      truncated := truncated
      originalBytes := source.bytes }

/-! ## What a preview may be -/

def CutsPair (value : Text) (position : Nat) : Prop :=
  ∃ n u v, position = n + 1 ∧ value[n]? = some u ∧ value[n + 1]? = some v ∧
    Utf16.isHigh u = true ∧ Utf16.isLow v = true

inductive Shown : Value Number → Value Number → Prop
  | whole (value : Value Number) : Shown value value
  | string (s preview : Text) (hPrefix : preview <+: s) (hShort : preview ≠ s)
      (hPair : ¬CutsPair s preview.length) : Shown (.str s) (stringMarker s preview)
  | omittedString (s : Text) : Shown (.str s) omitted
  | items (items shown : List (Value Number)) (hItems : List.Forall₂ Shown items shown) :
      Shown (.arr items) (.arr shown)
  | firstItems (items shown : List (Value Number)) (count : Nat) (hSome : 0 < count)
      (hFew : count < items.length) (hItems : List.Forall₂ Shown (items.take count) shown) :
      Shown (.arr items) (.arr (shown ++ [omittedItems (items.length - count)]))
  | omittedArray (items : List (Value Number)) : Shown (.arr items) omitted
  | members (members shown : List (Text × Value Number))
      (hKeys : shown.map Prod.fst = members.map Prod.fst)
      (hValues : List.Forall₂ Shown (members.map Prod.snd) (shown.map Prod.snd)) :
      Shown (.obj members) (.obj shown)
  | omittedObject (members : List (Text × Value Number)) : Shown (.obj members) omitted
  | omittedNumber (n : Number) (hLarge : omittedBytes < n.bytes) : Shown (.num n) omitted

/-! ## Budgets -/

theorem budgets_isSome {sizes : List Nat} {maximum : Int} {minimumBytes : Nat}
    (h : ((sizes.map fun size => min size minimumBytes).sum : Nat) ≤ maximum) :
    ∃ limits, approvalPreviewBudgets sizes maximum minimumBytes = some limits := by
  rw [approvalPreviewBudgets, if_neg (Int.not_lt.mpr h)]
  split
  · exact ⟨_, rfl⟩
  · exact ⟨_, rfl⟩

theorem budgets_spec {sizes limits : List Nat} {maximum : Int} {minimumBytes : Nat}
    (h : approvalPreviewBudgets sizes maximum minimumBytes = some limits) :
    ((limits.sum : Nat) : Int) ≤ maximum ∧
      List.Forall₂ (fun size limit => min size minimumBytes ≤ limit) sizes limits := by
  unfold approvalPreviewBudgets at h
  split at h
  · cases h
  rename_i hMinimum
  split at h
  · rename_i hAll
    rw [Option.some.injEq] at h
    subst h
    exact ⟨hAll, List.forall₂_same.mpr fun size _ => Nat.min_le_left _ _⟩
  · rw [Option.some.injEq] at h
    have hZero : sizes.map (allowance minimumBytes 0) =
        sizes.map fun size => min size minimumBytes := by
      apply List.map_congr_left
      intro size _
      rw [allowance, Nat.min_zero, Nat.max_zero]
    have hLevel := bisect_accepts (fun level =>
        (((sizes.map (allowance minimumBytes level)).sum : Nat) : Int) ≤ maximum)
      (sizes.foldl max 0) 0 (sizes.foldl max 0) (by
        rw [decide_eq_true_eq, hZero]
        exact Int.not_lt.mp hMinimum)
    rw [decide_eq_true_eq] at hLevel
    subst h
    refine ⟨hLevel, ?_⟩
    rw [List.forall₂_map_right_iff]
    exact List.forall₂_same.mpr fun size _ => Nat.le_max_left _ _

def markerBytes (total count : Nat) : Nat :=
  if count < total then 1 + (omittedItems (total - count)).bytes else 0

def leastBytes (sizes : List Nat) (count : Nat) : Nat :=
  ((sizes.take count).map fun size => min size arrayItemBytes).sum

theorem leastBytes_succ {sizes : List Nat} {count : Nat} (h : count < sizes.length) :
    leastBytes sizes (count + 1) =
      leastBytes sizes count + min (sizes[count]?.getD 0) arrayItemBytes := by
  rw [leastBytes, leastBytes, List.take_add_one, List.map_append, List.sum_append,
    List.getElem?_eq_getElem h]
  simp

theorem retained_spec (sizes : List Nat) (maximum : Nat) : ∀ count, count ≤ sizes.length →
      ∃ kept, retained sizes maximum count (leastBytes sizes count)
          (markerBytes sizes.length count) = (kept, markerBytes sizes.length kept) ∧
        kept ≤ count ∧
        (kept = 0 ∨
          2 + (kept - 1) + leastBytes sizes kept + markerBytes sizes.length kept ≤ maximum) := by
  intro count
  induction count with
  | zero => exact fun _ => ⟨0, rfl, Nat.le_refl _, .inl rfl⟩
  | succ count ih =>
    intro hCount
    rw [retained]
    by_cases hLarge : maximum < 2 + count + leastBytes sizes (count + 1) +
        markerBytes sizes.length (count + 1)
    · have hLeast : leastBytes sizes (count + 1) - min (sizes[count]?.getD 0) arrayItemBytes =
          leastBytes sizes count := by
        rw [leastBytes_succ hCount, Nat.add_sub_cancel]
      have hMarker : 1 + (omittedItems (sizes.length - count)).bytes =
          markerBytes sizes.length count := by
        rw [markerBytes, if_pos (Nat.lt_of_succ_le hCount)]
      rw [if_pos hLarge, hLeast, hMarker]
      obtain ⟨kept, hKept, hLe, hFits⟩ := ih (Nat.le_of_succ_le hCount)
      exact ⟨kept, hKept, Nat.le_succ_of_le hLe, hFits⟩
    · rw [if_neg hLarge]
      exact ⟨count + 1, rfl, Nat.le_refl _, .inr (by omega)⟩

theorem itemLimits_spec {sizes : List Nat} {maximum count : Nat}
    (hCount : (retainedItems sizes maximum).1 = count) (hSome : count ≠ 0) : count ≤ sizes.length ∧
      2 + (itemLimits sizes maximum).sum + (count - 1) + markerBytes sizes.length count ≤ maximum ∧
      List.Forall₂ (fun size limit => min size arrayItemBytes ≤ limit) (sizes.take count)
        (itemLimits sizes maximum) := by
  obtain ⟨kept, hKept, hLe, hFits⟩ := retained_spec sizes maximum sizes.length (Nat.le_refl _)
  have hItems : retainedItems sizes maximum = (kept, markerBytes sizes.length kept) := by
    rw [retainedItems, ← hKept, leastBytes, List.take_length, markerBytes, if_neg (Nat.lt_irrefl _)]
  rw [hItems] at hCount
  obtain rfl : kept = count := hCount
  have hFits := hFits.resolve_left hSome
  have hLeast : ((leastBytes sizes kept : Nat) : Int) ≤
      (maximum : Int) - 2 - (kept - 1) - markerBytes sizes.length kept := by omega
  obtain ⟨limits, hLimits⟩ := budgets_isSome hLeast
  have hGet : itemLimits sizes maximum = limits := by
    rw [itemLimits, hItems]
    simp only [hLimits, Option.getD_some]
  obtain ⟨hSum, hEach⟩ := budgets_spec hLimits
  rw [hGet]
  exact ⟨hLe, by omega, hEach⟩

/-! ## Strings -/

theorem isLow_of_isHigh {u : UInt16} (h : Utf16.isHigh u = true) : Utf16.isLow u = false := by
  simp only [Utf16.isHigh, Utf16.isLow, Bool.and_eq_true, decide_eq_true_eq, Bool.and_eq_false_iff,
    decide_eq_false_iff_not] at h ⊢
  omega

theorem cutAt_spec (value : Text) (length : Nat) :
    cutAt value length <+: value ∧ ¬CutsPair value (cutAt value length).length := by
  cases length with
  | zero =>
    refine ⟨List.nil_prefix, ?_⟩
    rintro ⟨n, u, v, hPosition, -⟩
    cases hPosition
  | succ n =>
    rw [cutAt]
    split
    · rename_i hPair
      refine ⟨List.take_prefix _ _, ?_⟩
      rintro ⟨m, u, v, hPosition, -, hNext, -, hLow⟩
      have hLength := (List.getElem?_eq_some_iff.mp hNext).1
      rw [List.length_take] at hPosition
      have hHere : m + 1 = n := by
        rcases Nat.le_total n value.length with hLe | hLe
        · rw [Nat.min_eq_left hLe] at hPosition
          exact hPosition.symm
        · rw [Nat.min_eq_right hLe] at hPosition
          omega
      rw [hHere] at hNext
      rw [hNext, Option.any_some, Bool.and_eq_true] at hPair
      rw [isLow_of_isHigh hPair.1] at hLow
      cases hLow
    · rename_i hPair
      refine ⟨List.take_prefix _ _, ?_⟩
      rintro ⟨m, u, v, hPosition, hHere, hNext, hHigh, hLow⟩
      have hLength := (List.getElem?_eq_some_iff.mp hNext).1
      rw [List.length_take] at hPosition
      have hSame : m = n := by
        rcases Nat.le_total (n + 1) value.length with hLe | hLe
        · rw [Nat.min_eq_left hLe] at hPosition
          omega
        · rw [Nat.min_eq_right hLe] at hPosition
          omega
      subst hSame
      rw [hHere, hNext] at hPair
      exact hPair (by simp [hHigh, hLow])

theorem stringPreview_spec {s : Text} {maximum : Nat} (hLarge : maximum < textBytes s)
    (hRoom : omittedBytes ≤ maximum) :
    (stringPreview s maximum).bytes ≤ maximum ∧ Shown (.str s) (stringPreview s maximum) := by
  unfold stringPreview
  split
  · exact ⟨hRoom, .omittedString s⟩
  · rename_i hMarker
    have hFits := bisect_accepts (fun length => (stringMarker s (cutAt s length)).bytes ≤ maximum)
      (min s.length maximum) 0 (min s.length maximum)
      (decide_eq_true (Nat.not_lt.mp hMarker))
    rw [decide_eq_true_eq] at hFits
    obtain ⟨hPrefix, hPair⟩ := cutAt_spec s (bisect
      (fun length => (stringMarker s (cutAt s length)).bytes ≤ maximum) (min s.length maximum) 0
      (min s.length maximum))
    refine ⟨hFits, .string s _ hPrefix ?_ hPair⟩
    intro hWhole
    rw [hWhole] at hFits
    have hText : (Value.str s).bytes ≤ (stringMarker s s).bytes :=
      Value.member_bytes_le (.tail _ (.tail _ (.head _)))
    rw [Value.bytes] at hText
    omega

/-! ## Every value -/

theorem sum_bytes_le {shown : List (Value Number)} {limits : List Nat}
    (h : List.Forall₂ (fun value limit => Value.bytes value ≤ limit) shown limits) :
    (shown.map Value.bytes).sum ≤ limits.sum := by
  induction h with
  | nil => exact Nat.le_refl _
  | cons hHead _ ih =>
    rw [List.map_cons, List.sum_cons, List.sum_cons]
    exact Nat.add_le_add hHead ih

theorem array_bytes_le {shown : List (Value Number)} {limits : List Nat} {maximum total count : Nat}
    (hShown : List.Forall₂ (fun value limit => Value.bytes value ≤ limit) shown limits)
    (hLength : limits.length = count)
    (hFits : 2 + limits.sum + (count - 1) + markerBytes total count ≤ maximum) :
    (Value.arr (if count < total then shown ++ [omittedItems (total - count)]
      else shown)).bytes ≤ maximum := by
  have hSum := sum_bytes_le hShown
  have hShownLength := hShown.length_eq
  rw [Value.bytes_arr, listBytes]
  rw [markerBytes] at hFits
  split at hFits
  · rename_i hFew
    rw [if_pos hFew, List.map_append, List.sum_append, List.length_append, List.length_map,
      List.map_singleton, List.sum_singleton, List.length_singleton]
    omega
  · rename_i hAll
    rw [if_neg hAll, List.length_map]
    omega

theorem bytes_obj_framing (members : List (Text × Value Number)) :
    (Value.obj members).bytes = framing members + ((members.map Prod.snd).map Value.bytes).sum := by
  have hSum : (members.map fun member => memberBytes member.1 member.2.bytes).sum =
      (members.map fun member => textBytes member.1 + 1).sum +
        ((members.map Prod.snd).map Value.bytes).sum := by
    induction members with
    | nil => rfl
    | cons member rest ih =>
      simp only [List.map_cons, List.sum_cons, memberBytes] at ih ⊢
      omega
  rw [Value.bytes_obj, listBytes, framing, hSum, List.length_map]
  omega

theorem framing_congr {shown members : List (Text × Value Number)}
    (hKeys : shown.map Prod.fst = members.map Prod.fst) : framing shown = framing members := by
  have hLength := congrArg List.length hKeys
  have hSums := congrArg (fun keys : List Text => (keys.map fun key => textBytes key + 1).sum) hKeys
  simp only [List.length_map, List.map_map, Function.comp_def] at hLength hSums
  rw [framing, framing, hLength, hSums]

mutual

/-- **Every preview fits and shows its value.** By recursion on the value: what its elements get
is at least what they need for a marker. -/
theorem project_spec (value : Value Number) : ∀ maximum depth nodes,
    min value.bytes omittedBytes ≤ maximum → (project value maximum depth nodes).1.bytes ≤ maximum ∧
        Shown value (project value maximum depth nodes).1 := by
  intro maximum depth nodes hRoom
  rw [project.eq_def]
  by_cases hFits : value.bytes ≤ maximum
  · rw [if_pos hFits]
    exact ⟨hFits, .whole value⟩
  rw [if_neg hFits]
  have hMarker : omittedBytes ≤ maximum := by omega
  have hSmall : 5 < value.bytes := by
    rw [omittedBytes_eq] at hMarker
    omega
  cases value with
  | null => exact absurd hSmall (by rw [Value.bytes]; decide)
  | bool b => exact absurd hSmall (by rw [Value.bytes]; cases b <;> decide)
  | num n =>
    have hLarge : omittedBytes < n.bytes := by
      rw [Value.bytes] at hFits
      omega
    split
    · exact ⟨hMarker, .omittedNumber n hLarge⟩
    · exact ⟨hMarker, .omittedNumber n hLarge⟩
  | str s =>
    split
    · exact ⟨hMarker, .omittedString s⟩
    · rw [Value.bytes] at hFits
      exact stringPreview_spec (Nat.not_le.mp hFits) hMarker
  | arr items =>
    split
    · exact ⟨hMarker, .omittedArray items⟩
    dsimp only
    split
    · exact ⟨hMarker, .omittedArray items⟩
    rename_i hSome
    obtain ⟨hLe, hSum, hLimits⟩ := itemLimits_spec rfl hSome
    rw [List.length_map] at hLe hSum
    rw [← List.map_take, List.forall₂_map_left_iff] at hLimits
    have hCount : (itemLimits (items.map (·.bytes)) maximum).length =
        (retainedItems (items.map (·.bytes)) maximum).1 := by
      rw [← hLimits.length_eq, List.length_take, Nat.min_eq_left hLe]
    rw [← hCount] at hLimits
    obtain ⟨hBytes, hShown⟩ := projectItems_spec items _ (depth + 1) (nodes - 1)
      (hCount ▸ hLe) (hLimits.imp fun item limit h => by
        rw [omittedBytes_eq]
        rw [arrayItemBytes] at h
        omega)
    cases hResult : projectItems items (itemLimits (items.map (·.bytes)) maximum) (depth + 1)
        (nodes - 1) with
    | mk shown left =>
      rw [hResult] at hBytes hShown
      refine ⟨array_bytes_le hBytes hCount hSum, ?_⟩
      dsimp only
      rw [hCount] at hShown
      split
      · rename_i hFew
        exact .firstItems items shown _ (Nat.pos_of_ne_zero hSome) hFew hShown
      · rename_i hAll
        rw [List.take_of_length_le (Nat.not_lt.mp hAll)] at hShown
        exact .items items shown hShown
  | obj members =>
    split
    · exact ⟨hMarker, .omittedObject members⟩
    dsimp only
    split
    · exact ⟨hMarker, .omittedObject members⟩
    · rename_i limits hBudgets
      obtain ⟨hSum, hLimits⟩ := budgets_spec hBudgets
      rw [List.forall₂_map_left_iff] at hLimits
      obtain ⟨hKeys, hBytes, hShown⟩ :=
        projectMembers_spec members limits (depth + 1) (nodes - 1) hLimits
      cases hResult : projectMembers members limits (depth + 1) (nodes - 1) with
      | mk shown left =>
        rw [hResult] at hKeys hBytes hShown
        have hTotal : ((shown.map Prod.snd).map Value.bytes).sum ≤ limits.sum :=
          sum_bytes_le hBytes
        refine ⟨?_, .members members shown hKeys hShown⟩
        dsimp only
        rw [bytes_obj_framing, framing_congr hKeys]
        omega

theorem projectItems_spec (items : List (Value Number)) : ∀ limits depth nodes,
    limits.length ≤ items.length →
    List.Forall₂ (fun item limit => min (Value.bytes item) omittedBytes ≤ limit)
      (items.take limits.length) limits →
    List.Forall₂ (fun value limit => Value.bytes value ≤ limit)
      (projectItems items limits depth nodes).1 limits ∧
    List.Forall₂ Shown (items.take limits.length) (projectItems items limits depth nodes).1 := by
  intro limits depth nodes hMany hLimits
  cases items with
  | nil =>
    cases limits with
    | nil =>
      rw [projectItems.eq_def]
      exact ⟨.nil, .nil⟩
    | cons limit limits => exact absurd hMany (Nat.not_succ_le_zero _)
  | cons item rest =>
    cases limits with
    | nil =>
      rw [projectItems.eq_def]
      exact ⟨.nil, .nil⟩
    | cons limit limits =>
      rw [List.length_cons, List.take_succ_cons, List.forall₂_cons] at hLimits
      obtain ⟨hBytes, hShown⟩ := project_spec item limit depth nodes hLimits.1
      obtain ⟨hMore, hRest⟩ := projectItems_spec rest limits depth
        (project item limit depth nodes).2 (Nat.le_of_succ_le_succ hMany) hLimits.2
      rw [projectItems.eq_def]
      exact ⟨.cons hBytes hMore, .cons hShown hRest⟩

theorem projectMembers_spec (members : List (Text × Value Number)) : ∀ limits depth nodes,
    List.Forall₂ (fun member limit => min (Value.bytes member.2) omittedBytes ≤ limit)
      members limits →
    (projectMembers members limits depth nodes).1.map Prod.fst = members.map Prod.fst ∧
    List.Forall₂ (fun value limit => Value.bytes value ≤ limit)
      ((projectMembers members limits depth nodes).1.map Prod.snd) limits ∧
    List.Forall₂ Shown (members.map Prod.snd)
      ((projectMembers members limits depth nodes).1.map Prod.snd) := by
  intro limits depth nodes hLimits
  cases members with
  | nil =>
    cases hLimits
    rw [projectMembers.eq_def]
    exact ⟨rfl, .nil, .nil⟩
  | cons member rest =>
    obtain ⟨key, value⟩ := member
    cases limits with
    | nil => cases hLimits
    | cons limit limits =>
      rw [List.forall₂_cons] at hLimits
      obtain ⟨hBytes, hShown⟩ := project_spec value limit depth nodes hLimits.1
      obtain ⟨hKeys, hMore, hRest⟩ := projectMembers_spec rest limits depth
        (project value limit depth nodes).2 hLimits.2
      rw [projectMembers.eq_def]
      exact ⟨congrArg (key :: ·) hKeys, .cons hBytes hMore, .cons hShown hRest⟩

end

/--
**A preview never passes for the whole.** With room for a marker, the preview of any arguments
takes at most the budget and at most 64 KiB, is the arguments exactly where it does not say that
it was truncated, and shows them constructor by constructor: objects with all their keys, arrays
whole or with the exact number of items left out, strings whole or as a labelled beginning that
cuts no pair of surrogates, other leaves as they are, and otherwise a marker, which also stands
for numbers of more than 24 bytes.
-/
theorem approvalArgumentPreview_shows (argumentsValue : Option (Value Number)) (maximum : Nat)
    (hRoom : 24 ≤ maximum) :
    ∃ preview, approvalArgumentPreview argumentsValue maximum = some preview ∧
      preview.value.bytes ≤ min maximum (64 * 1024) ∧
      (preview.value = argumentsValue.getD (.obj []) ↔ preview.truncated = false) ∧
      Shown (argumentsValue.getD (.obj [])) preview.value := by
  rw [approvalArgumentPreview, if_neg (by rw [omittedBytes_eq]; omega)]
  refine ⟨_, rfl, ?_⟩
  dsimp only
  generalize argumentsValue.getD (.obj []) = source
  have hBudget : min source.bytes omittedBytes ≤ min maximum approvalArgumentBytes := by
    rw [omittedBytes_eq, approvalArgumentBytes]
    omega
  obtain ⟨hFits, hShown⟩ := project_spec source _ 0 maxNodes hBudget
  by_cases hLarge : min maximum approvalArgumentBytes < source.bytes
  · rw [decide_eq_true hLarge, if_pos rfl]
    refine ⟨hFits, ?_, hShown⟩
    refine iff_of_false (fun hSame => ?_) (by decide)
    rw [hSame] at hFits
    omega
  · rw [decide_eq_false hLarge, if_neg Bool.false_ne_true]
    exact ⟨Nat.not_lt.mp hLarge, iff_of_true rfl rfl, .whole source⟩

/-! ### A long number -/

/-- The numeral of `-1.2345678901234567e-6`, which is written with 25 characters. -/
def longNumeral : Numeral where
  negative := true
  digits := "12345678901234567".toList
  point := -5
  first := by decide
  last := by decide
  many := by decide
  range := by decide

/-- The arguments `{"n": -0.0000012345678901234567}`, of 31 bytes. -/
def longArguments : Value Number := .obj [(text "n", .num (.other longNumeral))]

theorem approvalArgumentPreview_shows_long :
    ∃ preview, approvalArgumentPreview (some longArguments) 30 = some preview ∧
      preview.value.bytes ≤ 30 ∧ Shown longArguments preview.value := by
  obtain ⟨preview, hPreview, hBytes, -, hShown⟩ :=
    approvalArgumentPreview_shows (some longArguments) 30 (by decide)
  exact ⟨preview, hPreview, hBytes, hShown⟩

/-- The omission marker under one key. -/
def omitsMember : Value Number → Bool
  | .obj [(_, .obj [(marker, .bool true)])] => marker == text "display_omitted"
  | _ => false

/-- A leaf that is no string is not left as it is. -/
theorem long_number_omitted : (approvalArgumentPreview (some longArguments) 30).map (fun preview =>
      (omitsMember preview.value, omitsMember longArguments)) = some (true, false) := by
  decide +kernel

end SimplexAgent.Hub.Js
