import SimplexAgent.Tools.DeclarationSound

/-!
# Which declarations are accepted

What the checks of a declaration establish at every depth, and what is left: an accepted
declaration is sound exactly if it agrees (`declaration_iff`).
-/

namespace SimplexAgent.Tools.Declaration

open Dataclass (JsonInteger)
open Verified

section

variable {host : Host}

/-! ## Fields -/

variable {path : Text} {schema : Document} {kind : Kind} {levels : Nat} {property : Document}

theorem propertiesOf_ok {reason : Document → Text} {fields : List (Text × Document)}
    (h : propertiesOf schema path reason = .ok fields) :
    (∀ stated, schema.find? "properties" = some stated → ∃ fields, stated = .obj fields) ∧
      ∀ name, declared schema name = fields.lookup name := by
  unfold propertiesOf at h
  unfold declared
  split at h
  · rename_i hNone
    cases h
    rw [hNone]
    exact ⟨fun _ h => (nomatch h), fun _ => rfl⟩
  · rename_i fields hFields
    cases h
    rw [hFields]
    exact ⟨fun _ h => by cases h; exact ⟨_, rfl⟩, fun _ => rfl⟩
  · exact absurd h fail_ne_ok

theorem checkRequiredList_ok {schema names : Document} {fields : List (Text × Document)}
    (hDeclared : ∀ name, declared schema name = fields.lookup name)
    (h : checkRequiredList names fields path = .ok ()) : Names schema names := by
  unfold checkRequiredList at h
  split at h
  · rename_i entries
    refine ⟨entries, rfl, fun entry hEntry => ?_⟩
    obtain ⟨index, hCheck⟩ := checkEach_ok h entry hEntry
    split at hCheck
    · rename_i name
      rw [refuse_eq_ok, Option.isNone_eq_false_iff] at hCheck
      exact ⟨name, rfl, (hDeclared name).symm ▸ hCheck⟩
    · exact absurd hCheck fail_ne_ok
  · exact absurd h fail_ne_ok

theorem checkFields_ok {check : Document → Text → Check}
    (h : checkFields check schema path = .ok ()) : FieldsSound schema ∧
      ∀ name property, declared schema name = some property →
        ∃ here, check property here = .ok () := by
  obtain ⟨fields, hFields, h⟩ := bind_eq_ok.mp h
  obtain ⟨_, hAdditional, h⟩ := bind_eq_ok.mp h
  obtain ⟨_, hEach, hRequired⟩ := bind_eq_ok.mp h
  rw [option_forM_eq_ok] at hAdditional hRequired
  obtain ⟨hMapping, hDeclared⟩ := propertiesOf_ok hFields
  refine ⟨⟨hMapping, ?_, ?_⟩, ?_⟩
  · intro stated hStated
    have hKind := hAdditional stated hStated
    rw [refuse_eq_ok, Bool.not_eq_false'] at hKind
    cases stated <;> first | exact ⟨_, rfl⟩ | cases hKind
  · exact fun names hNames => checkRequiredList_ok hDeclared (hRequired names hNames)
  · intro name property hProperty
    rw [hDeclared] at hProperty
    exact ⟨_, Tables.forM_ok hEach _ (lookup_mem hProperty)⟩

/-! ## Every depth -/

/-- A schema that passed, with some levels left below it. -/
def Accepted (host : Host) : Role → Document → Prop
  | .property, schema =>
    ∃ levels path, checkPropertyWith host (checkObjectFields host levels) schema path = .ok ()
  | .items, schema => ∃ levels path, checkItems (checkObjectFields host levels) schema path = .ok ()

structure PropertyPassed (host : Host) (levels : Nat) (property : Document) (kind : Kind)
    (path : Text) : Prop where
  keys : Keys property propertyKeys
  items : itemsClause (checkObjectFields host levels) property kind path = .ok ()
  fields : objectClause (checkObjectFields host levels) property kind path = .ok ()
  clauses : ClausesPassed host property kind
  flat : structured property kind = true → property.find? "enum" = none
  fallback : ∀ value, property.find? "default" = some value → structured property kind = false ∧
    Passed host property kind value ∧
      (kind = .array → ∀ element ∈ value.items, hasKind element .string = true)

theorem checkPropertyWith_ok
    (h : checkPropertyWith host (checkObjectFields host levels) property path = .ok ()) :
    ∃ kind, property.find? "type" = some (.str kind.name) ∧
      PropertyPassed host levels property kind path := by
  unfold checkPropertyWith at h
  split at h
  · rename_i fields
    obtain ⟨_, hKeys, h⟩ := bind_eq_ok.mp h
    obtain ⟨kind, hKind, h⟩ := bind_eq_ok.mp h
    obtain ⟨_, -, h⟩ := bind_eq_ok.mp h
    obtain ⟨_, hItems, h⟩ := bind_eq_ok.mp h
    obtain ⟨_, hFields, h⟩ := bind_eq_ok.mp h
    obtain ⟨clauses, hClauses, h⟩ := bind_eq_ok.mp h
    obtain ⟨_, hFlat, hDefault⟩ := bind_eq_ok.mp h
    obtain ⟨hRead, hApplied, -⟩ := checkClauses_ok hClauses
    refine ⟨kind, requireKind_ok hKind, checkKeys_ok hKeys, hItems, hFields,
      Read.passed hClauses, ?_, ?_⟩
    · intro hStructured
      rw [refuse_eq_ok, hStructured, Bool.true_and] at hFlat
      exact Option.isSome_eq_false_iff.mp hFlat |> Option.isNone_iff_eq_none.mp
    · intro value hValue
      have hCheck := option_forM_eq_ok.mp hDefault value hValue
      obtain ⟨_, hStructured, hCheck⟩ := bind_eq_ok.mp hCheck
      obtain ⟨_, hPassed, hStrings⟩ := bind_eq_ok.mp hCheck
      rw [refuse_eq_ok] at hStructured
      refine ⟨hStructured, checkValue_ok hRead hApplied hPassed, fun hArray element hElement => ?_⟩
      rw [if_pos hArray] at hStrings
      obtain ⟨index, hString⟩ := checkEach_ok hStrings element hElement
      rwa [refuse_eq_ok, Bool.not_eq_false'] at hString
  · exact absurd h fail_ne_ok

theorem checkItems_ok {items : Document}
    (h : checkItems (checkObjectFields host levels) items path = .ok ()) :
    items.find? "type" = some (.str "string") ∧ Keys items ["type"] ∨
      items.find? "type" = some (.str "object") ∧ Keys items ("type" :: objectKeys) ∧
        checkObjectFields host levels items path = .ok () := by
  unfold checkItems at h
  split at h
  · rename_i fields
    obtain ⟨kind, hKind, h⟩ := bind_eq_ok.mp h
    have hType := requireKind_ok hKind
    by_cases hObject : kind = .object
    · subst hObject
      rw [if_pos rfl] at h
      obtain ⟨_, hKeys, hFields⟩ := bind_eq_ok.mp h
      exact Or.inr ⟨hType, checkKeys_ok hKeys, hFields⟩
    · rw [if_neg hObject] at h
      obtain ⟨_, hKeys, hString⟩ := bind_eq_ok.mp h
      rw [refuse_eq_ok, decide_eq_false_iff_not, not_not] at hString
      subst hString
      exact Or.inl ⟨hType, checkKeys_ok hKeys⟩
  · exact absurd h fail_ne_ok

theorem checkObjectFields_ok (h : checkObjectFields host levels schema path = .ok ()) :
    FieldsSound schema ∧ ∀ name property, declared schema name = some property →
        Accepted host .property property := by
  cases levels with
  | zero => exact absurd h fail_ne_ok
  | succ levels =>
    obtain ⟨hSound, hEach⟩ := checkFields_ok h
    refine ⟨hSound, fun name property hProperty => ?_⟩
    obtain ⟨here, hCheck⟩ := hEach name property hProperty
    exact ⟨levels, here, hCheck⟩

theorem PropertyPassed.objectFields (h : PropertyPassed host levels property kind path)
    (hKind : kind = .object) : checkObjectFields host levels property path = .ok () := by
  have hFields := h.fields
  rwa [objectClause, if_pos hKind] at hFields

theorem Below.accepted {root schema : Document} {role : Role} (h : Below root role schema)
    (hRoot : ∀ name property, declared root name = some property →
      Accepted host .property property) : Accepted host role schema := by
  induction h with
  | field h => exact hRoot _ _ h
  | @items property items _ hItems ih =>
    obtain ⟨levels, path, hCheck⟩ := ih
    obtain ⟨kind, -, hPassed⟩ := checkPropertyWith_ok hCheck
    have hClause := hPassed.items
    unfold itemsClause at hClause
    rw [hItems] at hClause
    obtain ⟨_, -, hClause⟩ := bind_eq_ok.mp hClause
    exact ⟨levels, _, hClause⟩
  | @nested role schema property name _ hObject hField ih =>
    cases role with
    | property =>
      obtain ⟨levels, path, hCheck⟩ := ih
      obtain ⟨kind, hKind, hPassed⟩ := checkPropertyWith_ok hCheck
      rw [hObject, Option.some.injEq] at hKind
      have hKind : kind = .object := Kind.name_injective (str_injective hKind).symm
      exact (checkObjectFields_ok (hPassed.objectFields hKind)).2 _ _ hField
    | items =>
      obtain ⟨levels, path, hCheck⟩ := ih
      rcases checkItems_ok hCheck with ⟨hString, -⟩ | ⟨-, -, hFields⟩
      · rw [hObject, Option.some.injEq] at hString
        exact absurd (str_injective hString) (by decide)
      · exact (checkObjectFields_ok hFields).2 _ _ hField

/-! ## Properties -/

theorem Keys.absent {supported : List Text} {key : Text} (h : Keys schema supported)
    (hKey : key ∉ supported) : schema.find? key = none := by
  cases hFind : schema.find? key with
  | none => rfl
  | some stated => exact absurd (h key (by rw [Document.contains, hFind]; rfl)) hKey

theorem Instance.allowed {schema value : Document} (h : Instance host schema value)
    (hKind : schema.find? "type" = some (.str kind.name)) : Allowed host schema kind value := by
  obtain ⟨hOther, hAllowed, -⟩ := h
  rw [hKind, Option.some.injEq] at hOther
  rwa [Kind.name_injective (str_injective hOther)]

theorem instance_string {items value : Document}
    (hType : items.find? "type" = some (.str "string")) (hKeys : Keys items ["type"])
    (hValue : hasKind value .string = true) : Instance host items value := by
  have hNone : ∀ key, key ≠ word "type" → items.find? key = none := fun key hKey =>
    hKeys.absent (by rwa [List.mem_singleton])
  have hUnstated : ∀ key stated, key ≠ word "type" → items.find? key ≠ some stated :=
    fun key stated hKey hStated => by
      rw [hNone key hKey] at hStated
      cases hStated
  have hAllowed : Allowed host items .string value :=
    { kind := hValue
      listed := fun _ h => absurd h (hUnstated _ _ (by decide))
      atLeast := fun _ _ h => absurd h (hUnstated _ _ (by decide))
      atMost := fun _ _ h => absurd h (hUnstated _ _ (by decide))
      longEnough := fun _ h => absurd h (hUnstated _ _ (by decide))
      shortEnough := fun _ h => absurd h (hUnstated _ _ (by decide))
      matching := fun _ h => absurd h (hUnstated _ _ (by decide))
      many := fun _ h => absurd h (hUnstated _ _ (by decide)) }
  refine @Instance.intro _ _ _ .string hType hAllowed ?_ ?_ ?_ ?_
  · exact fun _ h => absurd h (hUnstated _ _ (by decide))
  · intro name field member hField
    rw [declared, hNone _ (by decide)] at hField
    cases hField
  · exact fun _ _ h => absurd h (hUnstated _ _ (by decide))
  · exact fun h => absurd h (hUnstated _ _ (by decide))

theorem PropertyPassed.items_iff (h : PropertyPassed host levels property kind path) :
    property.contains "items" = true ↔ kind = .array := by
  have hItems := h.items
  unfold itemsClause at hItems
  unfold Document.contains
  split at hItems
  · rename_i items hFind
    obtain ⟨_, hKind, -⟩ := bind_eq_ok.mp hItems
    rw [refuse_eq_ok, decide_eq_false_iff_not, not_not] at hKind
    rw [hFind]
    exact ⟨fun _ => hKind, fun _ => rfl⟩
  · rename_i hFind
    rw [refuse_eq_ok, decide_eq_false_iff_not] at hItems
    rw [hFind]
    exact ⟨fun h => (nomatch h), fun h => absurd h hItems⟩

theorem PropertyPassed.absent (h : PropertyPassed host levels property kind path)
    (hKind : kind ≠ .object) : ∀ key ∈ objectKeys, property.contains key = false := by
  intro key hKey
  have hFields := h.fields
  rw [objectClause, if_neg hKind] at hFields
  have hCheck := Tables.forM_ok hFields key hKey
  rwa [refuse_eq_ok] at hCheck

theorem PropertyPassed.items_string {property items : Document}
    (h : PropertyPassed host levels property kind path) (hFlat : structured property kind = false)
    (hItems : property.find? "items" = some items) :
    items.find? "type" = some (.str "string") ∧ Keys items ["type"] := by
  have hArray : kind = .array := h.items_iff.mp (by rw [Document.contains, hItems]; rfl)
  have hClause := h.items
  unfold itemsClause at hClause
  rw [hItems] at hClause
  obtain ⟨_, -, hClause⟩ := bind_eq_ok.mp hClause
  rcases checkItems_ok hClause with hString | ⟨hObject, -⟩
  · exact hString
  · rw [structured, hArray, hItems, Option.bind_some, hObject] at hFlat
    exact absurd hFlat (by decide)

theorem PropertyPassed.instance {property value : Document}
    (h : PropertyPassed host levels property kind path)
    (hType : property.find? "type" = some (.str kind.name))
    (hFlat : structured property kind = false) (hAllowed : Allowed host property kind value)
    (hStrings : kind = .array → ∀ element ∈ value.items, hasKind element .string = true) :
    Instance host property value := by
  have hObject : kind ≠ .object := by
    rintro rfl
    cases hFlat
  have hAbsent : ∀ key ∈ objectKeys, property.find? key = none := fun key hKey =>
    Option.isSome_eq_false_iff.mp (h.absent hObject key hKey) |> Option.isNone_iff_eq_none.mp
  refine .intro hType hAllowed ?_ ?_ ?_ ?_
  · intro items hItems element hElement
    obtain ⟨hString, hKeys⟩ := h.items_string hFlat hItems
    have hArray : kind = .array := h.items_iff.mp (by rw [Document.contains, hItems]; rfl)
    exact instance_string hString hKeys (hStrings hArray element hElement)
  · intro name field member hField
    rw [declared, hAbsent _ List.mem_cons_self] at hField
    cases hField
  · intro names name hNames
    rw [hAbsent _ (List.mem_cons_of_mem _ List.mem_cons_self)] at hNames
    cases hNames
  · intro hClosed
    rw [hAbsent _ (List.mem_cons_of_mem _ (List.mem_cons_of_mem _ List.mem_cons_self))] at hClosed
    cases hClosed

theorem PropertyPassed.sound (h : PropertyPassed host levels property kind path)
    (hType : property.find? "type" = some (.str kind.name))
    (hAgrees : PropertyAgrees host property kind) : PropertySound host property kind where
  keys := h.keys
  applied := h.clauses.applied
  items := h.items_iff
  fields := h.absent
  object := fun hKind => (checkObjectFields_ok (h.objectFields hKind)).1
  members := by
    intro values hValues value hValue
    have hFlat : structured property kind = false := by
      by_contra hStructured
      rw [h.flat (Bool.of_not_eq_false hStructured)] at hValues
      cases hValues
    refine h.instance hType hFlat ?_ fun hArray => hAgrees.lists hArray values hValues value hValue
    refine (h.clauses.members values hValues value hValue).allowed hAgrees.wide
      (Or.inl ⟨values, hValues, hValue⟩) fun others hOthers => ?_
    rw [hValues, Option.some.injEq] at hOthers
    exact arr_injective hOthers ▸ hValue
  fallback := by
    intro value hValue
    obtain ⟨hFlat, hPassed, hStrings⟩ := h.fallback value hValue
    refine h.instance hType hFlat (hPassed.allowed hAgrees.wide (Or.inr hValue) ?_) hStrings
    intro values hValues
    refine hPassed.mem_of_default h.clauses hAgrees.wide hValue hValues ?_ hStrings
    rintro rfl
    cases hFlat
  consistent := h.clauses.consistent hAgrees.wide hAgrees.matched

theorem Allowed.sameSide {n : JsonInteger} (h : Allowed host schema kind (.integer n)) :
    (∀ low, schema.find? "minimum" = some (.integer low) → SameSide low n) ∧
      ∀ high, schema.find? "maximum" = some (.integer high) → SameSide n high :=
  ⟨fun low hLow hLarge => Int.le_trans hLarge (h.atLeast low n hLow rfl),
    fun high hHigh hLarge => Int.le_trans hLarge (h.atMost high n hHigh rfl)⟩

theorem wide_of_allowed (hApplied : Applied host schema kind)
    (hSome : ∃ value, Allowed host schema kind value)
    (hStated : ∀ value, Stated schema value → Allowed host schema kind value) : Wide schema where
  bounds := by
    intro low high hLow hHigh hLarge
    obtain ⟨value, hValue⟩ := hSome
    have hKind := hValue.kind
    rw [(hApplied.bounds _ List.mem_cons_self _ hLow).1] at hKind
    cases value <;> cases hKind
    have hSides := hValue.sameSide
    exact hSides.2 high hHigh (hSides.1 low hLow hLarge)
  above := fun low n hLow hn => (hStated _ hn).sameSide.1 low hLow
  under := fun high n hHigh hn => (hStated _ hn).sameSide.2 high hHigh
  fallback := fun values n hValues hn =>
    ⟨n, (hStated _ (Or.inr hn)).listed values hValues, rfl, Iff.rfl⟩

theorem PropertyPassed.agrees (h : PropertyPassed host levels property kind path)
    (hType : property.find? "type" = some (.str kind.name))
    (hSound : PropertySound host property kind) : PropertyAgrees host property kind where
  wide := wide_of_allowed hSound.applied hSound.consistent fun value hStated => by
    rcases hStated with ⟨values, hValues, hValue⟩ | hValue
    · exact (hSound.members values hValues value hValue).allowed hType
    · exact (hSound.fallback value hValue).allowed hType
  lists := by
    intro hArray values hValues value hValue element hElement
    have hFlat : structured property kind = false := by
      by_contra hStructured
      rw [h.flat (Bool.of_not_eq_false hStructured)] at hValues
      cases hValues
    obtain ⟨items, hItems⟩ := Option.isSome_iff_exists.mp (h.items_iff.mpr hArray)
    obtain ⟨-, -, hEach, -⟩ := hSound.members values hValues value hValue
    have hAllowed : Allowed host items .string element :=
      (hEach items hItems element hElement).allowed (h.items_string hFlat hItems).1
    exact hAllowed.kind
  matched := by
    intro pattern hPattern _
    obtain ⟨value, hValue⟩ := hSound.consistent
    rw [(hSound.applied.pattern _ hPattern).1] at hValue
    exact ⟨value, hValue⟩

theorem Below.items_sound {root items : Document} (h : Below root .items items)
    (hRoot : ∀ name property, declared root name = some property →
      Accepted host .property property) : ItemsSound items := by
  obtain ⟨levels, path, hCheck⟩ := h.accepted hRoot
  rcases checkItems_ok hCheck with hString | ⟨hType, hKeys, hFields⟩
  · exact Or.inl hString
  · exact Or.inr ⟨hType, hKeys, (checkObjectFields_ok hFields).1⟩

/-! ## Alternatives -/

def Apart (root : Document) (branchRequired rootRequired : List Document) (name : Text) : Prop :=
  (declared root name).isSome = true ∧ .str name ∉ branchRequired ∧ .str name ∉ rootRequired

section

variable {root : Document} {fields : List (Text × Document)}
  {branchRequired rootRequired : List Document} {path : Text}

theorem not_mem_of_any {names : List Document} {name : Text}
    (h : (names.any (·.equal (.str name))) = false) : .str name ∉ names := by
  intro hMem
  rw [List.any_eq_false] at h
  exact h _ hMem (by rw [Document.equal, beq_self_eq_true])

theorem checkAbsence_ok {names : Document}
    (hDeclared : ∀ name, declared root name = fields.lookup name)
    (h : checkAbsence fields branchRequired rootRequired names path = .ok ()) :
    ∃ name, names = .arr [.str name] ∧ Apart root branchRequired rootRequired name := by
  obtain ⟨_, hNames, hOnce⟩ := bind_eq_ok.mp h
  obtain ⟨entries, rfl, hEach⟩ := checkRequiredList_ok hDeclared hNames
  split at hOnce
  · rename_i name hOne
    cases hOne
    obtain ⟨name, rfl, hName⟩ := hEach _ List.mem_cons_self
    rw [refuse_eq_ok, Bool.or_eq_false_iff] at hOnce
    exact ⟨name, rfl, hName, not_mem_of_any hOnce.1, not_mem_of_any hOnce.2⟩
  · exact absurd hOnce fail_ne_ok

theorem checkExclusion_cases {predicate : Document}
    (h : checkExclusion fields branchRequired rootRequired predicate path = .ok ()) :
    (∃ first rest, predicate = .obj [(word "anyOf", .arr (first :: rest))] ∧
      checkAlternatives fields branchRequired rootRequired 0 (first :: rest) path = .ok ()) ∨
    ∃ names, predicate = .obj [(word "required", names)] ∧
      checkAbsence fields branchRequired rootRequired names path = .ok () := by
  unfold checkExclusion at h
  split at h
  · rename_i key value
    by_cases hAny : key = word "anyOf"
    · rw [if_pos hAny] at h
      split at h
      · rename_i first rest
        exact Or.inl ⟨first, rest, by rw [hAny], h⟩
      · exact absurd h fail_ne_ok
    · rw [if_neg hAny] at h
      by_cases hRequired : key = word "required"
      · rw [if_pos hRequired] at h
        exact Or.inr ⟨value, by rw [hRequired], h⟩
      · rw [if_neg hRequired] at h
        exact absurd h fail_ne_ok
  · exact absurd h fail_ne_ok

theorem checkAlternatives_ok (hDeclared : ∀ name, declared root name = fields.lookup name)
    {alternatives : List Document} :
    ∀ {index : Nat}, checkAlternatives fields branchRequired rootRequired index alternatives path =
        .ok () →
      ∀ alternative ∈ alternatives, ∃ name, alternative = absence name ∧
        Apart root branchRequired rootRequired name := by
  induction alternatives with
  | nil => exact fun _ _ h => absurd h List.not_mem_nil
  | cons first rest ih =>
    intro index h alternative hMem
    rw [checkAlternatives] at h
    obtain ⟨_, hRequired, h⟩ := bind_eq_ok.mp h
    obtain ⟨_, hFirst, hRest⟩ := bind_eq_ok.mp h
    rcases List.mem_cons.mp hMem with rfl | hMem
    · rw [refuse_eq_ok, Bool.not_eq_false'] at hRequired
      rcases checkExclusion_cases hFirst with ⟨_, _, rfl, -⟩ | ⟨names, rfl, hNames⟩
      · exact absurd hRequired Bool.false_ne_true
      · obtain ⟨name, rfl, hName⟩ := checkAbsence_ok hDeclared hNames
        exact ⟨name, rfl, hName⟩
    · exact ih hRest alternative hMem

theorem absence_inj {name other : Text} (h : absence name = absence other) : name = other := by
  simpa [absence] using h

theorem checkExclusion_ok {predicate : Document}
    (hDeclared : ∀ name, declared root name = fields.lookup name)
    (h : checkExclusion fields branchRequired rootRequired predicate path = .ok ()) :
    AbsenceForm predicate ∧
      ∀ name, Absent predicate name → Apart root branchRequired rootRequired name := by
  rcases checkExclusion_cases h with ⟨first, rest, rfl, hEach⟩ | ⟨names, rfl, hNames⟩
  · have hEach := checkAlternatives_ok hDeclared hEach
    constructor
    · exact Or.inr ⟨first, rest, rfl, fun alternative hMem =>
        (hEach alternative hMem).imp fun _ h => h.1⟩
    · rintro name (hOne | ⟨alternatives, hAny, hMem⟩)
      · simp only [absence, Document.obj.injEq, List.cons.injEq, Prod.mk.injEq] at hOne
        exact absurd hOne.1.1 (by decide)
      · simp only [Document.obj.injEq, List.cons.injEq, Prod.mk.injEq, Document.arr.injEq,
          true_and, and_true] at hAny
        obtain ⟨other, hSame, hApart⟩ := hEach _ (hAny ▸ hMem)
        exact absence_inj hSame ▸ hApart
  · obtain ⟨name, rfl, hName⟩ := checkAbsence_ok hDeclared hNames
    constructor
    · exact Or.inl ⟨name, rfl⟩
    · rintro other (hOne | ⟨alternatives, hAny, -⟩)
      · exact absence_inj (show absence name = absence other from hOne) ▸ hName
      · simp only [Document.obj.injEq, List.cons.injEq, Prod.mk.injEq] at hAny
        exact absurd hAny.1.1 (by decide)

end

theorem mem_required {name : Text} :
    .str name ∈ (schema.find? "required").elim [] Document.items ↔ requires schema name := by
  unfold requires
  cases schema.find? "required" with
  | none => simp
  | some names => cases names <;> simp [Document.items]

/-- The checks of an alternative, one by one. -/
structure BranchPassed (host : Host) (root branch : Document) : Prop where
  keys : Keys branch ["required", "properties", "not"]
  required : ∃ names, branch.find? "required" = some names ∧ Names root names
  adds : (∃ name, requires branch name ∧ ¬requires root name) ∨ branch.contains "not" = true
  excluded : ∀ predicate, branch.find? "not" = some predicate → AbsenceForm predicate
  apart : ∀ name, excludes branch name → (declared root name).isSome = true ∧
    ¬requires branch name ∧ ¬requires root name
  mapping : ∀ stated, branch.find? "properties" = some stated → ∃ fields, stated = .obj fields
  narrowed : ∀ name narrowing, declared branch name = some narrowing →
    ∃ property kind, declared root name = some property ∧
      property.find? "type" = some (.str kind.name) ∧ Keys narrowing narrowingKeys ∧
      (∃ key, narrowing.contains key = true) ∧ ClausesPassed host narrowing kind

theorem Read.states {clauses : ValueClauses} (h : Read schema kind clauses)
    (hSays : clauses.saysNothing = false) : ∃ key, schema.contains key = true := by
  by_contra hNone
  have hAbsent : ∀ key, schema.find? key = none := by
    intro key
    by_contra hSome
    exact hNone ⟨key, Option.isSome_iff_ne_none.mpr hSome⟩
  have hRead := h
  obtain ⟨hListed, hMinimum, hMaximum, hMinLength, hMaxLength, hPattern, hMinItems, -⟩ := h
  simp only [hAbsent, eq_comm (a := none), Option.map_eq_none_iff] at *
  simp only [ValueClauses.saysNothing, hListed, hMinimum, hMaximum, hMinLength, hMaxLength,
    hPattern, hMinItems, Option.isNone_none, Bool.and_self, Bool.true_eq_false] at hSays

variable {root branch : Document} {fields : List (Text × Document)} {path : Text}

section

variable (hDeclared : ∀ name, declared root name = fields.lookup name)
include hDeclared

theorem checkNarrowings_ok (h : checkNarrowings host branch fields path = .ok ()) :
    (∀ stated, branch.find? "properties" = some stated → ∃ fields, stated = .obj fields) ∧
    ∀ name narrowing, declared branch name = some narrowing →
      ∃ property kind, declared root name = some property ∧
        property.find? "type" = some (.str kind.name) ∧ Keys narrowing narrowingKeys ∧
        (∃ key, narrowing.contains key = true) ∧ ClausesPassed host narrowing kind := by
  unfold checkNarrowings at h
  unfold declared
  split at h
  · rename_i hNone
    rw [hNone]
    exact ⟨fun _ h => (nomatch h), fun _ _ h => (nomatch h)⟩
  · rename_i narrowed hNarrowed
    rw [hNarrowed]
    refine ⟨fun _ h => by cases h; exact ⟨_, rfl⟩, fun name narrowing hNarrowing => ?_⟩
    have hCheck := Tables.forM_ok h _ (lookup_mem hNarrowing)
    unfold checkNarrowing at hCheck
    split at hCheck
    · exact absurd hCheck fail_ne_ok
    · rename_i property clauses hProperty hClauses
      obtain ⟨_, hKeys, hCheck⟩ := bind_eq_ok.mp hCheck
      obtain ⟨kind, hKind, hCheck⟩ := bind_eq_ok.mp hCheck
      obtain ⟨stated, hStated, hSays⟩ := bind_eq_ok.mp hCheck
      rw [refuse_eq_ok] at hSays
      have hNarrowing : narrowing = .obj clauses := hClauses
      subst hNarrowing
      exact ⟨property, kind, (hDeclared name).trans hProperty, requireKind_ok hKind,
        checkKeys_ok hKeys, (checkClauses_ok hStated).1.states hSays, Read.passed hStated⟩
    · exact absurd hCheck fail_ne_ok
  · exact absurd h fail_ne_ok

theorem checkDemands_ok {names : Document} (hNames : branch.find? "required" = some names)
    (h : checkDemands branch names fields ((root.find? "required").elim [] Document.items) path = .ok ()) :
    Names root names ∧
    ((∃ name, requires branch name ∧ ¬requires root name) ∨ branch.contains "not" = true) ∧
    ∀ predicate, branch.find? "not" = some predicate → AbsenceForm predicate ∧
      ∀ name, Absent predicate name → (declared root name).isSome = true ∧
        ¬requires branch name ∧ ¬requires root name := by
  obtain ⟨_, hList, h⟩ := bind_eq_ok.mp h
  obtain ⟨_, hNot, hAdds⟩ := bind_eq_ok.mp h
  rw [option_forM_eq_ok] at hNot
  rw [refuse_eq_ok, Bool.and_eq_false_iff, Bool.not_eq_false', Bool.not_eq_false',
    List.any_eq_true] at hAdds
  obtain ⟨entries, rfl, hEach⟩ := checkRequiredList_ok hDeclared hList
  refine ⟨⟨entries, rfl, hEach⟩, ?_, fun predicate hPredicate => ?_⟩
  · refine hAdds.imp_left fun ⟨entry, hEntry, hNew⟩ => ?_
    obtain ⟨name, rfl, -⟩ := hEach entry hEntry
    refine ⟨name, ⟨entries, hNames, hEntry⟩, fun hRoot => ?_⟩
    rw [Bool.not_eq_true', namesContain, List.any_eq_false] at hNew
    exact hNew _ (mem_required.mpr hRoot) (beq_self_eq_true _)
  · obtain ⟨hForm, hApart⟩ := checkExclusion_ok hDeclared (hNot predicate hPredicate)
    refine ⟨hForm, fun name hAbsent => ?_⟩
    obtain ⟨hSome, hBranch, hRoot⟩ := hApart name hAbsent
    refine ⟨hSome, ?_, fun h => hRoot (mem_required.mpr h)⟩
    rintro ⟨others, hOthers, hMem⟩
    rw [hNames] at hOthers
    cases hOthers
    exact hBranch hMem

theorem checkBranch_ok {index : Nat}
    (h : checkBranch host fields ((root.find? "required").elim [] Document.items) index branch = .ok ()) :
    BranchPassed host root branch := by
  unfold checkBranch at h
  dsimp only at h
  split at h
  · obtain ⟨_, hKeys, h⟩ := bind_eq_ok.mp h
    split at h
    · exact absurd h fail_ne_ok
    · rename_i names hNames
      obtain ⟨_, hDemands, hNarrowings⟩ := bind_eq_ok.mp h
      obtain ⟨hList, hAdds, hNot⟩ := checkDemands_ok hDeclared hNames hDemands
      obtain ⟨hMapping, hNarrowed⟩ := checkNarrowings_ok hDeclared hNarrowings
      refine ⟨checkKeys_ok hKeys, ⟨names, hNames, hList⟩, hAdds, fun predicate h =>
        (hNot predicate h).1, ?_, hMapping, hNarrowed⟩
      rintro name ⟨predicate, hPredicate, hAbsent⟩
      exact (hNot predicate hPredicate).2 name hAbsent
  · exact absurd h fail_ne_ok

end

/-! ## The declaration -/

structure SchemaPassed (host : Host) (root : Document) : Prop where
  keys : Keys root ["type", "properties", "required", "additionalProperties", "anyOf"]
  object : root.find? "type" = some (.str "object")
  closed : ∀ stated, root.find? "additionalProperties" = some stated → stated = .bool false
  fields : FieldsSound root
  properties : ∀ name property, declared root name = some property →
    Accepted host .property property
  alternatives : ∀ stated, root.find? "anyOf" = some stated →
    ∃ first rest, stated = .arr (first :: rest) ∧
      ∀ branch ∈ first :: rest, BranchPassed host root branch

theorem checkAnyOf_ok (hDeclared : ∀ name, declared root name = fields.lookup name)
    (h : checkAnyOf host root fields ((root.find? "required").elim [] Document.items) path =
      .ok ()) :
    ∀ stated, root.find? "anyOf" = some stated → ∃ first rest, stated = .arr (first :: rest) ∧
        ∀ branch ∈ first :: rest, BranchPassed host root branch := by
  unfold checkAnyOf at h
  split at h
  · rename_i hNone
    rw [hNone]
    exact fun _ h => (nomatch h)
  · rename_i first rest hAny
    rw [hAny]
    rintro stated ⟨⟩
    refine ⟨first, rest, rfl, fun branch hBranch => ?_⟩
    obtain ⟨index, hCheck⟩ := checkEach_ok h branch hBranch
    exact checkBranch_ok hDeclared hCheck
  · exact absurd h fail_ne_ok

theorem checkSchema_ok {fields : List (Text × Document)}
    (h : checkSchema host (.obj fields) fields = .ok ()) : SchemaPassed host (.obj fields) := by
  unfold checkSchema at h
  dsimp only at h
  obtain ⟨_, hKeys, h⟩ := bind_eq_ok.mp h
  obtain ⟨_, hObject, h⟩ := bind_eq_ok.mp h
  obtain ⟨properties, hProperties, h⟩ := bind_eq_ok.mp h
  obtain ⟨_, hClosed, h⟩ := bind_eq_ok.mp h
  obtain ⟨_, hEach, h⟩ := bind_eq_ok.mp h
  obtain ⟨_, hRequired, hAny⟩ := bind_eq_ok.mp h
  rw [refuse_eq_ok, Bool.not_eq_false', Option.any_eq_true] at hObject
  rw [option_forM_eq_ok] at hClosed hRequired
  obtain ⟨hMapping, hDeclared⟩ := propertiesOf_ok hProperties
  obtain ⟨stated, hType, hEqual⟩ := hObject
  have hFalse : ∀ stated, (Document.obj fields).find? "additionalProperties" = some stated →
      stated = .bool false := fun stated hStated => by
    have hCheck := hClosed stated hStated
    rw [refuse_eq_ok, Bool.not_eq_false'] at hCheck
    exact equal_bool hCheck
  refine ⟨checkKeys_ok hKeys, by rw [hType, equal_str hEqual], hFalse, ⟨hMapping, ?_, ?_⟩, ?_,
    checkAnyOf_ok hDeclared hAny⟩
  · exact fun stated hStated => ⟨false, hFalse stated hStated⟩
  · exact fun names hNames => checkRequiredList_ok hDeclared (hRequired names hNames)
  · intro name property hProperty
    rw [hDeclared] at hProperty
    exact ⟨32, _, Tables.forM_ok hEach _ (lookup_mem hProperty)⟩

theorem SchemaPassed.sound {root : Document} (h : SchemaPassed host root)
    (hAgrees : Agrees host root) : Sound host root where
  keys := h.keys
  object := h.object
  closed := h.closed
  fields := h.fields
  properties := by
    intro property hBelow
    obtain ⟨levels, path, hCheck⟩ := hBelow.accepted h.properties
    obtain ⟨kind, hKind, hPassed⟩ := checkPropertyWith_ok hCheck
    exact ⟨kind, hKind, hPassed.sound hKind (hAgrees.properties property kind hBelow hKind)⟩
  items := fun _ hBelow => hBelow.items_sound h.properties
  alternatives := by
    intro stated hStated
    obtain ⟨first, rest, rfl, hEach⟩ := h.alternatives stated hStated
    refine ⟨first, rest, rfl, fun branch hBranch => ?_⟩
    have hPassed := hEach branch hBranch
    refine ⟨hPassed.keys, hPassed.required, hPassed.adds, hPassed.excluded, hPassed.apart,
      hPassed.mapping, fun name narrowing hNarrowing => ?_,
      hAgrees.reached _ branch hStated hBranch⟩
    obtain ⟨property, kind, hProperty, hKind, hKeys, hStates, hClauses⟩ :=
      hPassed.narrowed name narrowing hNarrowing
    have hNarrow := hAgrees.narrowed _ branch name narrowing property kind hStated hBranch
      hNarrowing hProperty hKind
    refine ⟨property, kind, hProperty, hKind, hKeys, hStates, hClauses.applied, ?_, hNarrow.below,
      hNarrow.common⟩
    intro values hValues value hValue
    refine (hClauses.members values hValues value hValue).allowed hNarrow.wide
      (Or.inl ⟨values, hValues, hValue⟩) fun others hOthers => ?_
    rw [hValues, Option.some.injEq] at hOthers
    exact arr_injective hOthers ▸ hValue

theorem SchemaPassed.agrees {root : Document} (h : SchemaPassed host root)
    (hSound : Sound host root) : Agrees host root where
  properties := by
    intro property kind hBelow hKind
    obtain ⟨levels, path, hCheck⟩ := hBelow.accepted h.properties
    obtain ⟨passedKind, hPassedKind, hPassed⟩ := checkPropertyWith_ok hCheck
    obtain ⟨soundKind, hSoundKind, hProperty⟩ := hSound.properties property hBelow
    rw [hKind, Option.some.injEq] at hPassedKind hSoundKind
    have hPassedKind := Kind.name_injective (str_injective hPassedKind)
    have hSoundKind := Kind.name_injective (str_injective hSoundKind)
    subst hPassedKind
    exact hPassed.agrees hKind (hSoundKind ▸ hProperty)
  narrowed := by
    intro branches branch name narrowing property kind hAny hBranch hNarrowing hProperty hKind
    obtain ⟨first, rest, hBranches, hEach⟩ := hSound.alternatives _ hAny
    obtain ⟨other, otherKind, hOther, hOtherKind, hNarrow⟩ :=
      (hEach branch (arr_injective hBranches ▸ hBranch)).narrowed name narrowing hNarrowing
    rw [hProperty, Option.some.injEq] at hOther
    subst hOther
    rw [hKind, Option.some.injEq] at hOtherKind
    have hOtherKind := Kind.name_injective (str_injective hOtherKind)
    subst hOtherKind
    refine ⟨wide_of_allowed hNarrow.applied (hNarrow.consistent.imp fun _ h => h.1) ?_,
      hNarrow.below, hNarrow.consistent⟩
    rintro value (⟨values, hValues, hValue⟩ | hDefault)
    · exact hNarrow.members values hValues value hValue
    · rw [hNarrow.keys.absent (by decide)] at hDefault
      cases hDefault
  reached := by
    intro branches branch hAny hBranch
    obtain ⟨first, rest, hBranches, hEach⟩ := hSound.alternatives _ hAny
    exact (hEach branch (arr_injective hBranches ▸ hBranch)).reached

/-- **An accepted declaration hands its argument schema on as it is. The schema uses only the
supported vocabulary, at every depth, and says nothing that is ignored or contradictory, exactly
if no clause is on the wrong side of `2 ^ 63`, the members of an array's `enum` are lists of texts,
patterns can be met, and what an alternative narrows agrees with the property.** -/
theorem declaration_iff (host : Host) (document : Document) (declaration : ToolDeclaration)
    (h : loadToolDeclaration host document = .ok declaration) :
    document.find? "argument_schema" = some declaration.argumentSchema ∧
      (Sound host declaration.argumentSchema ↔ Agrees host declaration.argumentSchema) := by
  unfold loadToolDeclaration at h
  split at h
  · obtain ⟨name, -, h⟩ := bind_eq_ok.mp h
    obtain ⟨description, -, h⟩ := bind_eq_ok.mp h
    obtain ⟨schema, hSchema, h⟩ := bind_eq_ok.mp h
    obtain ⟨_, -, h⟩ := bind_eq_ok.mp h
    cases h
    unfold requireArgumentSchema at hSchema
    split at hSchema
    · exact absurd hSchema fail_ne_ok
    · rename_i fields hFind
      obtain ⟨_, hCheck, hSchema⟩ := bind_eq_ok.mp hSchema
      cases hSchema
      have hPassed := checkSchema_ok hCheck
      exact ⟨hFind, hPassed.agrees, hPassed.sound⟩
    · exact absurd hSchema fail_ne_ok
  · exact absurd h fail_ne_ok

end

/-! ### A list of a number -/

/-- Every pattern compiles and is found. -/
def anyHost : Host := ⟨fun _ => true, fun _ _ => true, fun _ => []⟩

def one : Document := .integer ⟨1, by decide, by decide⟩

/-- An array of texts, of which only `[1]` is to be sent. -/
def listedNumber : Document :=
  .obj [("type", .str "array"), ("description", .str "the arguments"),
    ("items", .obj [("type", .str "string")]), ("enum", .arr [.arr [one]])]

def listedSchema : Document :=
  .obj [("type", .str "object"), ("properties", .obj [("arguments", listedNumber)])]

def listedDocument : Document :=
  .obj [("name", .str "probe"), ("description", .str "a probe"), ("argument_schema", listedSchema)]

def listedDeclaration : ToolDeclaration := ⟨"probe", "a probe", listedSchema, .obj []⟩

theorem listed_number_accepted :
    loadToolDeclaration anyHost listedDocument = .ok listedDeclaration ∧
      ¬Sound anyHost listedDeclaration.argumentSchema := by
  refine ⟨rfl, fun hSound => ?_⟩
  obtain ⟨kind, -, hProperty⟩ :=
    hSound.properties listedNumber (.field (show declared listedSchema "arguments" = _ from rfl))
  obtain ⟨-, -, hItems, -⟩ := hProperty.members _ rfl _ List.mem_cons_self
  have hElement := hItems _ rfl one List.mem_cons_self
  have hAllowed : Allowed anyHost _ .string one := hElement.allowed rfl
  exact absurd hAllowed.kind Bool.false_ne_true

theorem declaration_iff_listed : listedDocument.find? "argument_schema" = some listedSchema ∧
      (Sound anyHost listedSchema ↔ Agrees anyHost listedSchema) :=
  declaration_iff anyHost listedDocument listedDeclaration rfl

end SimplexAgent.Tools.Declaration
