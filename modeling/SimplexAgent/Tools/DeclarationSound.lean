import SimplexAgent.Tools.ToolDeclaration

/-!
# What an accepted declaration says

The meaning of an argument schema: which values a schema allows (`Allowed`, and with elements and
fields `Instance`), and when a declaration uses only what is supported, at every depth, and says
nothing that is ignored or contradictory (`Sound`). The checks do not read everything this needs:
`Agrees` is what they leave out. Clauses that pass allow some value (`ClausesPassed.consistent`).
-/

namespace SimplexAgent.Tools.Declaration

open Dataclass (JsonInteger)
open Verified

variable (host : Host)

/-! ## Values -/

structure Allowed (schema : Document) (kind : Kind) (value : Document) : Prop where
  kind : hasKind value kind = true
  listed : ∀ values, schema.find? "enum" = some (.arr values) → value ∈ values
  atLeast : ∀ low n, schema.find? "minimum" = some (.integer low) → value = .integer n →
    low.value ≤ n.value
  atMost : ∀ high n, schema.find? "maximum" = some (.integer high) → value = .integer n →
    n.value ≤ high.value
  longEnough : ∀ low, schema.find? "minLength" = some (.integer low) →
    ∃ chars, value = .str (Utf8.encode chars) ∧ low.value ≤ chars.length
  shortEnough : ∀ high, schema.find? "maxLength" = some (.integer high) →
    ∃ chars, value = .str (Utf8.encode chars) ∧ chars.length ≤ high.value
  matching : ∀ pattern, schema.find? "pattern" = some (.str pattern) →
    host.search pattern value.bytes = true
  many : ∀ low, schema.find? "minItems" = some (.integer low) → low.value ≤ value.items.length

def declared (schema : Document) (name : Text) : Option Document :=
  (schema.find? "properties").bind (·.find? name)

/-- A value that a schema allows together with its elements and fields. -/
inductive Instance : Document → Document → Prop
  | intro {schema value : Document} {kind : Kind}
      (hKind : schema.find? "type" = some (.str kind.name))
      (hAllowed : Allowed host schema kind value)
      (hItems : ∀ items, schema.find? "items" = some items →
        ∀ element ∈ value.items, Instance items element)
      (hFields : ∀ name property member, declared schema name = some property →
        value.find? name = some member → Instance property member)
      (hRequired : ∀ names name, schema.find? "required" = some (.arr names) →
        .str name ∈ names → value.contains name = true)
      (hClosed : schema.find? "additionalProperties" = some (.bool false) →
        ∀ name, value.contains name = true → (declared schema name).isSome = true) :
      Instance schema value

/-! ## Schemas -/

inductive Role where
  | property | items

inductive Below (root : Document) : Role → Document → Prop
  | field {name : Text} {property : Document} (h : declared root name = some property) :
      Below root .property property
  | items {property items : Document} (h : Below root .property property)
      (hItems : property.find? "items" = some items) : Below root .items items
  | nested {role : Role} {schema property : Document} {name : Text} (h : Below root role schema)
      (hObject : schema.find? "type" = some (.str "object"))
      (hField : declared schema name = some property) : Below root .property property

def Keys (schema : Document) (supported : List Text) : Prop :=
  ∀ key, schema.contains key = true → key ∈ supported

structure Applied (schema : Document) (kind : Kind) : Prop where
  listed : ∀ stated, schema.find? "enum" = some stated → ∃ first rest, stated = .arr (first :: rest)
  bounds : ∀ key ∈ [word "minimum", "maximum"], ∀ stated, schema.find? key = some stated →
    kind = .integer ∧ ∃ n, stated = .integer n
  lengths : ∀ key ∈ [word "minLength", "maxLength"], ∀ stated, schema.find? key = some stated →
    kind = .string ∧ ∃ n, stated = .integer n ∧ 0 ≤ n.value
  pattern : ∀ stated, schema.find? "pattern" = some stated →
    kind = .string ∧ ∃ text, stated = .str text ∧ host.compiles text = true
  sizes : ∀ stated, schema.find? "minItems" = some stated →
    kind = .array ∧ ∃ n, stated = .integer n ∧ 0 ≤ n.value

def Names (schema names : Document) : Prop :=
  ∃ entries, names = .arr entries ∧
    ∀ entry ∈ entries, ∃ name, entry = .str name ∧ (declared schema name).isSome = true

structure FieldsSound (schema : Document) : Prop where
  properties : ∀ stated, schema.find? "properties" = some stated → ∃ fields, stated = .obj fields
  additional : ∀ stated, schema.find? "additionalProperties" = some stated → ∃ b, stated = .bool b
  required : ∀ names, schema.find? "required" = some names → Names schema names

def objectKeys : List Text := ["properties", "required", "additionalProperties"]

/-- A property without unsupported, ignored or contradictory clauses. -/
structure PropertySound (property : Document) (kind : Kind) : Prop where
  keys : Keys property propertyKeys
  applied : Applied host property kind
  items : property.contains "items" = true ↔ kind = .array
  fields : kind ≠ .object → ∀ key ∈ objectKeys, property.contains key = false
  object : kind = .object → FieldsSound property
  members : ∀ values, property.find? "enum" = some (.arr values) →
    ∀ value ∈ values, Instance host property value
  fallback : ∀ value, property.find? "default" = some value → Instance host property value
  consistent : ∃ value, Allowed host property kind value

/-- What an array says about its elements. -/
def ItemsSound (items : Document) : Prop :=
  items.find? "type" = some (.str "string") ∧ Keys items ["type"] ∨
  items.find? "type" = some (.str "object") ∧ Keys items ("type" :: objectKeys) ∧ FieldsSound items

def ListsBelow (property narrowing : Document) : Prop :=
  ∀ values, narrowing.find? "enum" = some (.arr values) →
    ∀ value ∈ values, Instance host property value

/-- A clause set and the property have a value in common. -/
def Meets (property : Document) (kind : Kind) (narrowing : Document) : Prop :=
  ∃ value, Allowed host narrowing kind value ∧ Allowed host property kind value

/-- A clause set that an alternative adds to a property. -/
structure NarrowingSound (property : Document) (kind : Kind) (narrowing : Document) : Prop where
  keys : Keys narrowing narrowingKeys
  states : ∃ key, narrowing.contains key = true
  applied : Applied host narrowing kind
  members : ∀ values, narrowing.find? "enum" = some (.arr values) →
    ∀ value ∈ values, Allowed host narrowing kind value
  below : ListsBelow host property narrowing
  consistent : Meets host property kind narrowing

def absence (name : Text) : Document := .obj [(word "required", .arr [.str name])]

def Absent (predicate : Document) (name : Text) : Prop :=
  predicate = absence name ∨ ∃ alternatives, predicate = .obj [(word "anyOf", .arr alternatives)] ∧
    absence name ∈ alternatives

def AbsenceForm (predicate : Document) : Prop :=
  (∃ name, predicate = absence name) ∨
    ∃ first rest, predicate = .obj [(word "anyOf", .arr (first :: rest))] ∧
      ∀ alternative ∈ first :: rest, ∃ name, alternative = absence name

def excludes (branch : Document) (name : Text) : Prop :=
  ∃ predicate, branch.find? "not" = some predicate ∧ Absent predicate name

def requires (schema : Document) (name : Text) : Prop :=
  ∃ names, schema.find? "required" = some (.arr names) ∧ .str name ∈ names

def LeavesExcluded (branch : Document) : Prop :=
  ∀ name, excludes branch name → declared branch name = none

/-- An alternative of the argument schema. -/
structure BranchSound (root branch : Document) : Prop where
  keys : Keys branch ["required", "properties", "not"]
  required : ∃ names, branch.find? "required" = some names ∧ Names root names
  adds : (∃ name, requires branch name ∧ ¬requires root name) ∨ branch.contains "not" = true
  excluded : ∀ predicate, branch.find? "not" = some predicate → AbsenceForm predicate
  apart : ∀ name, excludes branch name → (declared root name).isSome = true ∧
    ¬requires branch name ∧ ¬requires root name
  mapping : ∀ stated, branch.find? "properties" = some stated → ∃ fields, stated = .obj fields
  narrowed : ∀ name narrowing, declared branch name = some narrowing →
    ∃ property kind, declared root name = some property ∧
      property.find? "type" = some (.str kind.name) ∧
      NarrowingSound host property kind narrowing
  reached : LeavesExcluded branch

/-- **An argument schema of the supported vocabulary, at every depth, none of whose clauses is
ignored or contradicted.** -/
structure Sound (root : Document) : Prop where
  keys : Keys root ["type", "properties", "required", "additionalProperties", "anyOf"]
  object : root.find? "type" = some (.str "object")
  closed : ∀ stated, root.find? "additionalProperties" = some stated → stated = .bool false
  fields : FieldsSound root
  properties : ∀ property, Below root .property property →
    ∃ kind, property.find? "type" = some (.str kind.name) ∧ PropertySound host property kind
  items : ∀ items, Below root .items items → ItemsSound items
  alternatives : ∀ stated, root.find? "anyOf" = some stated →
    ∃ first rest, stated = .arr (first :: rest) ∧
      ∀ branch ∈ first :: rest, BranchSound host root branch

/-! ## What the checks leave out -/

/-- Where the first is an integer from `2 ^ 63` on, so is the second. -/
def SameSide (low high : JsonInteger) : Prop := 2 ^ 63 ≤ low.value → 2 ^ 63 ≤ high.value

/-- The value is a member of the schema's `enum`, or its `default`. -/
def Stated (schema value : Document) : Prop :=
  (∃ values, schema.find? "enum" = some (.arr values) ∧ value ∈ values) ∨
    schema.find? "default" = some value

/-- No integer from `2 ^ 63` on stands below a smaller one, or for one in the `enum`. -/
structure Wide (schema : Document) : Prop where
  bounds : ∀ low high, schema.find? "minimum" = some (.integer low) →
    schema.find? "maximum" = some (.integer high) → SameSide low high
  above : ∀ low n, schema.find? "minimum" = some (.integer low) → Stated schema (.integer n) →
    SameSide low n
  under : ∀ high n, schema.find? "maximum" = some (.integer high) → Stated schema (.integer n) →
    SameSide n high
  fallback : ∀ values n, schema.find? "enum" = some (.arr values) →
    schema.find? "default" = some (.integer n) →
      ∃ m, .integer m ∈ values ∧ signed m = signed n ∧ (2 ^ 63 ≤ m.value ↔ 2 ^ 63 ≤ n.value)

structure PropertyAgrees (property : Document) (kind : Kind) : Prop where
  wide : Wide property
  lists : kind = .array → ∀ values, property.find? "enum" = some (.arr values) →
    ∀ value ∈ values, ∀ element ∈ value.items, hasKind element .string = true
  matched : ∀ pattern, property.find? "pattern" = some pattern → property.find? "enum" = none →
    ∃ value, Allowed host property .string value

structure NarrowingAgrees (property : Document) (kind : Kind) (narrowing : Document) : Prop where
  wide : Wide narrowing
  below : ListsBelow host property narrowing
  common : Meets host property kind narrowing

/-- What an accepted declaration needs besides. -/
structure Agrees (root : Document) : Prop where
  properties : ∀ property kind, Below root .property property →
    property.find? "type" = some (.str kind.name) → PropertyAgrees host property kind
  narrowed : ∀ branches branch name narrowing property kind,
    root.find? "anyOf" = some (.arr branches) → branch ∈ branches →
      declared branch name = some narrowing → declared root name = some property →
        property.find? "type" = some (.str kind.name) → NarrowingAgrees host property kind narrowing
  reached : ∀ branches branch, root.find? "anyOf" = some (.arr branches) → branch ∈ branches →
    LeavesExcluded branch

/-! ## Passing a check -/

section

variable {host}
variable {schema : Document} {kind : Kind} {path : Text} {value : Document}
  {clauses : ValueClauses}

theorem bind_eq_ok {α β : Type} {x : Except Refusal α} {f : α → Except Refusal β} {b : β} :
    (x >>= f) = .ok b ↔ ∃ a, x = .ok a ∧ f a = .ok b := by
  constructor
  · exact Tables.bind_ok
  · rintro ⟨a, rfl, h⟩
    exact h

theorem fail_ne_ok {α : Type} {path reason : Text} {a : α} : fail path reason ≠ .ok a := by
  rintro ⟨⟩

theorem refuse_eq_ok {wrong : Bool} {path reason : Text} {u : Unit} :
    refuse wrong path reason = .ok u ↔ wrong = false := by
  cases wrong with
  | false => exact ⟨fun _ => rfl, fun _ => rfl⟩
  | true => exact ⟨fun h => absurd h fail_ne_ok, fun h => nomatch h⟩

theorem option_forM_eq_ok {α : Type} {o : Option α} {check : α → Check} {u : Unit} :
    o.forM check = .ok u ↔ ∀ a, o = some a → check a = .ok () := by
  cases o with
  | none => exact ⟨fun _ _ h => (nomatch h), fun _ => rfl⟩
  | some a => exact ⟨fun h b hb => by cases hb; exact h, fun h => h a rfl⟩

theorem checkEach_ok {α : Type} {check : Nat → α → Check} {xs : List α} {u : Unit} :
    ∀ {index : Nat}, checkEach check index xs = .ok u → ∀ x ∈ xs, ∃ i, check i x = .ok () := by
  induction xs with
  | nil => exact fun _ x hx => absurd hx List.not_mem_nil
  | cons y rest ih =>
    intro index h x hx
    obtain ⟨_, hHead, hRest⟩ := bind_eq_ok.mp h
    rcases List.mem_cons.mp hx with rfl | hMem
    · exact ⟨index, hHead⟩
    · exact ih hRest x hMem

theorem lookup_mem {fields : List (Text × Document)} {key : Text}
    (h : fields.lookup key = some value) : (key, value) ∈ fields := by
  induction fields with
  | nil => cases h
  | cons field rest ih =>
    rw [List.lookup_cons] at h
    split at h
    · rename_i hKey
      rw [beq_iff_eq] at hKey
      rw [Option.some.injEq] at h
      rw [hKey, ← h]
      exact List.mem_cons_self
    · exact List.mem_cons_of_mem _ (ih h)

theorem checkKeys_ok {fields : List (Text × Document)} {supported : List Text}
    {reason : Text → Text} (h : checkKeys fields supported path reason = .ok ()) :
    Keys (.obj fields) supported := by
  intro key hKey
  obtain ⟨value, hValue⟩ := Option.isSome_iff_exists.mp hKey
  have hEntry := Tables.forM_ok h _ (lookup_mem hValue)
  rw [refuse_eq_ok, Bool.not_eq_false', List.contains_iff_mem] at hEntry
  exact hEntry

theorem requireKind_ok {property : Document} (h : requireKind property path = .ok kind) :
    property.find? "type" = some (.str kind.name) := by
  unfold requireKind at h
  split at h
  · exact absurd h fail_ne_ok
  · rename_i given hGiven
    split at h
    · rename_i found hFound
      cases h
      have hName := List.find?_some hFound
      rw [beq_iff_eq] at hName
      rw [hGiven, hName]
    · exact absurd h fail_ne_ok
  · exact absurd h fail_ne_ok

theorem Kind.name_injective : Function.Injective Kind.name := by
  intro a b h
  cases a <;> cases b <;> first | rfl | exact absurd h (by decide)

theorem hasKind_string (h : hasKind value .string = true) : ∃ text, value = .str text := by
  cases value <;> first | exact ⟨_, rfl⟩ | cases h

/-! ## Clauses as they are read -/

variable {schema value : Document} {bound : Option JsonInteger}

theorem integerClause_ok {kind on : Kind} {path key article : Text}
    (h : integerClause schema kind path key on article = .ok bound) :
    schema.find? key = bound.map .integer ∧ (bound.isSome = true → kind = on) := by
  unfold integerClause at h
  split at h
  · rename_i hNone
    cases h
    exact ⟨hNone, fun h => (nomatch h)⟩
  · rename_i stated hStated
    obtain ⟨_, hKind, h⟩ := bind_eq_ok.mp h
    rw [refuse_eq_ok, decide_eq_false_iff_not, not_not] at hKind
    cases stated <;> first | exact absurd h fail_ne_ok | skip
    cases h
    exact ⟨hStated, fun _ => hKind⟩

theorem nonneg_of_signed {n : JsonInteger} (h : ¬signed n < 0) :
    signed n = n.value ∧ 0 ≤ n.value := by
  have hUpper := n.upper
  unfold signed at h ⊢
  split at h <;> omega

theorem minLengthClause_ok (h : minLengthClause schema kind path = .ok bound) :
    schema.find? "minLength" = bound.map .integer ∧ (bound.isSome = true → kind = .string) ∧
      ∀ n, bound = some n → ¬signed n < 0 := by
  obtain ⟨length, hLength, h⟩ := bind_eq_ok.mp h
  obtain ⟨_, hSign, h⟩ := bind_eq_ok.mp h
  cases h
  obtain ⟨hStated, hKind⟩ := integerClause_ok hLength
  refine ⟨hStated, hKind, ?_⟩
  rintro n rfl
  rw [refuse_eq_ok] at hSign
  simpa using hSign

theorem sizeClause_ok {kind on : Kind} {path key : Text}
    (h : sizeClause schema kind path key on = .ok bound) :
    schema.find? key = bound.map .integer ∧ (bound.isSome = true → kind = on) ∧
      ∀ n, bound = some n → ¬signed n < 0 := by
  unfold sizeClause at h
  split at h
  · rename_i hNone
    cases h
    exact ⟨hNone, fun h => (nomatch h), fun _ h => (nomatch h)⟩
  · rename_i n hStated
    obtain ⟨_, hWrong, h⟩ := bind_eq_ok.mp h
    cases h
    rw [refuse_eq_ok, Bool.or_eq_false_iff, decide_eq_false_iff_not, decide_eq_false_iff_not,
      not_not] at hWrong
    exact ⟨hStated, fun _ => hWrong.1, fun m hm => by cases hm; exact hWrong.2⟩
  · exact absurd h fail_ne_ok

theorem patternClause_ok {pattern : Option Text}
    (h : patternClause host schema kind path = .ok pattern) :
    schema.find? "pattern" = pattern.map .str ∧
      ∀ text, pattern = some text → kind = .string ∧ host.compiles text = true := by
  unfold patternClause at h
  split at h
  · rename_i hNone
    cases h
    exact ⟨hNone, fun _ h => (nomatch h)⟩
  · rename_i stated hStated
    obtain ⟨_, hForm, h⟩ := bind_eq_ok.mp h
    obtain ⟨_, hCompiles, h⟩ := bind_eq_ok.mp h
    cases h
    rw [refuse_eq_ok, Bool.or_eq_false_iff, decide_eq_false_iff_not, not_not,
      Bool.not_eq_false'] at hForm
    obtain ⟨text, rfl⟩ := hasKind_string hForm.2
    rw [refuse_eq_ok, Bool.not_eq_false'] at hCompiles
    exact ⟨hStated, fun other hOther => by cases hOther; exact ⟨hForm.1, hCompiles⟩⟩

theorem enumClause_ok {values : Option (List Document)}
    (h : enumClause schema kind path = .ok values) : schema.find? "enum" = values.map .arr ∧
      ∀ stated, values = some stated → ∃ first rest, stated = first :: rest := by
  unfold enumClause at h
  split at h
  · rename_i hNone
    cases h
    exact ⟨hNone, fun _ h => (nomatch h)⟩
  · rename_i first rest hStated
    cases h
    exact ⟨hStated, fun stated h => by cases h; exact ⟨first, rest, rfl⟩⟩
  · exact absurd h fail_ne_ok

/-- The clauses of a schema, as `checkClauses` hands them on. -/
structure Read (schema : Document) (kind : Kind) (clauses : ValueClauses) : Prop where
  listed : schema.find? "enum" = clauses.allowedValues.map .arr
  minimum : schema.find? "minimum" = clauses.minimum.map .integer
  maximum : schema.find? "maximum" = clauses.maximum.map .integer
  minLength : schema.find? "minLength" = clauses.minLength.map .integer
  maxLength : schema.find? "maxLength" = clauses.maxLength.map .integer
  pattern : schema.find? "pattern" = clauses.pattern.map .str
  minItems : schema.find? "minItems" = clauses.minItems.map .integer
  small : ∀ n, (clauses.minLength = some n ∨ clauses.maxLength = some n ∨
    clauses.minItems = some n) → signed n = n.value
  ordered : crossed clauses.minimum clauses.maximum = false
  room : crossed clauses.minLength clauses.maxLength = false

theorem checkClauses_ok (h : checkClauses host schema kind path = .ok clauses) :
    Read schema kind clauses ∧ Applied host schema kind ∧
      ∀ values, clauses.allowedValues = some values → ∀ value ∈ values, ∃ here,
        checkValueAgainstClauses host value kind clauses here = .ok () := by
  obtain ⟨allowedValues, hEnum, h⟩ := bind_eq_ok.mp h
  obtain ⟨minimum, hMinimum, h⟩ := bind_eq_ok.mp h
  obtain ⟨maximum, hMaximum, h⟩ := bind_eq_ok.mp h
  obtain ⟨_, hOrdered, h⟩ := bind_eq_ok.mp h
  obtain ⟨minLength, hMinLength, h⟩ := bind_eq_ok.mp h
  obtain ⟨maxLength, hMaxLength, h⟩ := bind_eq_ok.mp h
  obtain ⟨minItems, hMinItems, h⟩ := bind_eq_ok.mp h
  obtain ⟨_, hRoom, h⟩ := bind_eq_ok.mp h
  obtain ⟨pattern, hPattern, h⟩ := bind_eq_ok.mp h
  obtain ⟨_, hMembers, h⟩ := bind_eq_ok.mp h
  cases h
  rw [refuse_eq_ok] at hOrdered hRoom
  rw [option_forM_eq_ok] at hMembers
  obtain ⟨hEnum, hSome⟩ := enumClause_ok hEnum
  obtain ⟨hMinimum, hMinimumKind⟩ := integerClause_ok hMinimum
  obtain ⟨hMaximum, hMaximumKind⟩ := integerClause_ok hMaximum
  obtain ⟨hMinLength, hMinLengthKind, hMinLengthSign⟩ := minLengthClause_ok hMinLength
  obtain ⟨hMaxLength, hMaxLengthKind, hMaxLengthSign⟩ := sizeClause_ok hMaxLength
  obtain ⟨hMinItems, hMinItemsKind, hMinItemsSign⟩ := sizeClause_ok hMinItems
  obtain ⟨hPattern, hPatternKind⟩ := patternClause_ok hPattern
  refine ⟨⟨hEnum, hMinimum, hMaximum, hMinLength, hMaxLength, hPattern, hMinItems, ?_, hOrdered,
    hRoom⟩, ⟨?_, ?_, ?_, ?_, ?_⟩, ?_⟩
  · rintro n (hn | hn | hn)
    · exact (nonneg_of_signed (hMinLengthSign n hn)).1
    · exact (nonneg_of_signed (hMaxLengthSign n hn)).1
    · exact (nonneg_of_signed (hMinItemsSign n hn)).1
  · intro stated hStated
    obtain ⟨values, hValues, rfl⟩ := Option.map_eq_some_iff.mp (hEnum.symm.trans hStated)
    obtain ⟨first, rest, rfl⟩ := hSome values hValues
    exact ⟨first, rest, rfl⟩
  · intro key hKey stated hStated
    rcases List.mem_pair.mp hKey with rfl | rfl
    · obtain ⟨n, rfl, rfl⟩ := Option.map_eq_some_iff.mp (hMinimum.symm.trans hStated)
      exact ⟨hMinimumKind rfl, n, rfl⟩
    · obtain ⟨n, rfl, rfl⟩ := Option.map_eq_some_iff.mp (hMaximum.symm.trans hStated)
      exact ⟨hMaximumKind rfl, n, rfl⟩
  · intro key hKey stated hStated
    rcases List.mem_pair.mp hKey with rfl | rfl
    · obtain ⟨n, rfl, rfl⟩ := Option.map_eq_some_iff.mp (hMinLength.symm.trans hStated)
      exact ⟨hMinLengthKind rfl, n, rfl, (nonneg_of_signed (hMinLengthSign n rfl)).2⟩
    · obtain ⟨n, rfl, rfl⟩ := Option.map_eq_some_iff.mp (hMaxLength.symm.trans hStated)
      exact ⟨hMaxLengthKind rfl, n, rfl, (nonneg_of_signed (hMaxLengthSign n rfl)).2⟩
  · intro stated hStated
    obtain ⟨text, rfl, rfl⟩ := Option.map_eq_some_iff.mp (hPattern.symm.trans hStated)
    obtain ⟨hKind, hCompiles⟩ := hPatternKind text rfl
    exact ⟨hKind, text, rfl, hCompiles⟩
  · intro stated hStated
    obtain ⟨n, rfl, rfl⟩ := Option.map_eq_some_iff.mp (hMinItems.symm.trans hStated)
    exact ⟨hMinItemsKind rfl, n, rfl, (nonneg_of_signed (hMinItemsSign n rfl)).2⟩
  · rintro values rfl value hValue
    obtain ⟨index, hValue⟩ := checkEach_ok (hMembers values rfl) value hValue
    exact ⟨_, hValue⟩

structure Passed (host : Host) (schema : Document) (kind : Kind) (value : Document) : Prop where
  kind : hasKind value kind = true
  listed : ∀ values, schema.find? "enum" = some (.arr values) →
    ∃ member ∈ values, member.equal value = true
  atLeast : ∀ low n, schema.find? "minimum" = some (.integer low) → value = .integer n →
    signed low ≤ signed n
  atMost : ∀ high n, schema.find? "maximum" = some (.integer high) → value = .integer n →
    signed n ≤ signed high
  longEnough : ∀ low, schema.find? "minLength" = some (.integer low) →
    ∃ chars, value = .str (Utf8.encode chars) ∧ low.value ≤ chars.length
  shortEnough : ∀ high, schema.find? "maxLength" = some (.integer high) →
    ∃ chars, value = .str (Utf8.encode chars) ∧ chars.length ≤ high.value
  matching : ∀ pattern, schema.find? "pattern" = some (.str pattern) →
    host.search pattern value.bytes = true
  many : ∀ low, schema.find? "minItems" = some (.integer low) → low.value ≤ value.items.length

theorem of_map {α : Type} {f : α → Document} (hInjective : Function.Injective f)
    {o : Option α} {stated : Option Document} {a : α} (hRead : stated = o.map f)
    (hStated : stated = some (f a)) : o = some a :=
  Option.map_injective hInjective (hRead.symm.trans hStated)

theorem integer_injective : Function.Injective Document.integer := fun _ _ h => by cases h; rfl

theorem str_injective : Function.Injective Document.str := fun _ _ h => by cases h; rfl

theorem arr_injective : Function.Injective Document.arr := fun _ _ h => by cases h; rfl

theorem stringLength_ok {text path : Text} {length : Nat}
    (h : stringLength text path = .ok length) :
    ∃ chars, text = Utf8.encode chars ∧ chars.length = length := by
  obtain ⟨_, hValid, h⟩ := bind_eq_ok.mp h
  cases h
  rw [refuse_eq_ok, Bool.not_eq_false', ByteArray.validateUTF8_eq_true_iff] at hValid
  obtain ⟨chars, hChars⟩ := hValid
  have hText : text = Utf8.encode chars := List.toByteArray_inj.mp hChars
  refine ⟨chars, hText, ?_⟩
  rw [hText, Utf8.countP_encode]

theorem checkLengths_ok (hKind : hasKind value .string = true)
    (hSome : (clauses.minLength.isSome || clauses.maxLength.isSome) = true)
    (h : checkLengths host value clauses path = .ok ()) :
    ∃ chars, value = .str (Utf8.encode chars) ∧
      (∀ low, clauses.minLength = some low → low.value ≤ chars.length) ∧
      ∀ high, clauses.maxLength = some high → chars.length ≤ high.value.toNat := by
  obtain ⟨text, rfl⟩ := hasKind_string hKind
  rw [checkLengths, if_pos hSome] at h
  obtain ⟨length, hLength, h⟩ := bind_eq_ok.mp h
  obtain ⟨_, hLong, hShort⟩ := bind_eq_ok.mp h
  rw [option_forM_eq_ok] at hLong hShort
  obtain ⟨chars, hText, rfl⟩ := stringLength_ok hLength
  refine ⟨chars, congrArg _ hText, ?_, ?_⟩
  · intro low hLow
    have hLess := hLong low hLow
    rw [refuse_eq_ok, decide_eq_false_iff_not] at hLess
    omega
  · intro high hHigh
    have hLess := hShort high hHigh
    rw [refuse_eq_ok, decide_eq_false_iff_not] at hLess
    omega

theorem checkValue_ok (hRead : Read schema kind clauses) (hApplied : Applied host schema kind)
    (h : checkValueAgainstClauses host value kind clauses path = .ok ()) :
    Passed host schema kind value := by
  obtain ⟨_, hKind, h⟩ := bind_eq_ok.mp h
  obtain ⟨_, hListed, h⟩ := bind_eq_ok.mp h
  obtain ⟨_, hMinimum, h⟩ := bind_eq_ok.mp h
  obtain ⟨_, hMaximum, h⟩ := bind_eq_ok.mp h
  obtain ⟨_, hLength, h⟩ := bind_eq_ok.mp h
  obtain ⟨_, hPattern, hItems⟩ := bind_eq_ok.mp h
  rw [refuse_eq_ok, Bool.not_eq_false'] at hKind
  rw [option_forM_eq_ok] at hListed hMinimum hMaximum hPattern hItems
  have hChars : ∀ key ∈ [word "minLength", "maxLength"], ∀ n, schema.find? key = some (.integer n) →
      ∃ chars, value = .str (Utf8.encode chars) ∧
        (∀ low, clauses.minLength = some low → low.value ≤ chars.length) ∧
        ∀ high, clauses.maxLength = some high → chars.length ≤ high.value.toNat := by
    intro key hKey n hStated
    have hString := (hApplied.lengths key hKey _ hStated).1
    have hSome : clauses.minLength.isSome || clauses.maxLength.isSome := by
      rcases List.mem_pair.mp hKey with rfl | rfl
      · rw [of_map integer_injective hRead.minLength hStated]
        rfl
      · rw [of_map integer_injective hRead.maxLength hStated, Bool.or_eq_true]
        exact Or.inr rfl
    exact checkLengths_ok (hString ▸ hKind) hSome hLength
  refine ⟨hKind, ?_, ?_, ?_, ?_, ?_, ?_, ?_⟩
  · intro values hStated
    have hAny := hListed values (of_map arr_injective hRead.listed hStated)
    rwa [refuse_eq_ok, Bool.not_eq_false', List.any_eq_true] at hAny
  · rintro low n hStated rfl
    have hLess := hMinimum low (of_map integer_injective hRead.minimum hStated)
    rw [refuse_eq_ok, Document.lessThan, decide_eq_false_iff_not] at hLess
    exact Int.not_lt.mp hLess
  · rintro high n hStated rfl
    have hLess := hMaximum high (of_map integer_injective hRead.maximum hStated)
    rw [refuse_eq_ok, Document.greaterThan, decide_eq_false_iff_not] at hLess
    exact Int.not_lt.mp hLess
  · intro low hStated
    obtain ⟨chars, hValue, hLong, -⟩ := hChars _ List.mem_cons_self low hStated
    exact ⟨chars, hValue, hLong low (of_map integer_injective hRead.minLength hStated)⟩
  · intro high hStated
    have hMem : word "maxLength" ∈ [word "minLength", "maxLength"] := List.mem_pair.mpr (Or.inr rfl)
    obtain ⟨chars, hValue, -, hShort⟩ := hChars _ hMem high hStated
    have hLe := hShort high (of_map integer_injective hRead.maxLength hStated)
    obtain ⟨-, n, hn, hSign⟩ := hApplied.lengths _ hMem _ hStated
    cases hn
    exact ⟨chars, hValue, by omega⟩
  · intro pattern hStated
    have hFound := hPattern pattern (of_map str_injective hRead.pattern hStated)
    rwa [refuse_eq_ok, Bool.not_eq_false'] at hFound
  · intro low hStated
    have hFew := hItems low (of_map integer_injective hRead.minItems hStated)
    rw [refuse_eq_ok, decide_eq_false_iff_not] at hFew
    omega

structure ClausesPassed (host : Host) (schema : Document) (kind : Kind) : Prop where
  applied : Applied host schema kind
  ordered : ∀ low high, schema.find? "minimum" = some (.integer low) →
    schema.find? "maximum" = some (.integer high) → signed low ≤ signed high
  room : ∀ low high, schema.find? "minLength" = some (.integer low) →
    schema.find? "maxLength" = some (.integer high) → low.value ≤ high.value
  members : ∀ values, schema.find? "enum" = some (.arr values) →
    ∀ value ∈ values, Passed host schema kind value

theorem Read.passed (h : checkClauses host schema kind path = .ok clauses) :
    ClausesPassed host schema kind := by
  obtain ⟨hRead, hApplied, hMembers⟩ := checkClauses_ok h
  refine ⟨hApplied, ?_, ?_, ?_⟩
  · intro low high hLow hHigh
    have hOrdered := hRead.ordered
    rw [of_map integer_injective hRead.minimum hLow, of_map integer_injective hRead.maximum hHigh,
      crossed, decide_eq_false_iff_not] at hOrdered
    exact Int.not_lt.mp hOrdered
  · intro low high hLow hHigh
    have hRoom := hRead.room
    have hLow := of_map integer_injective hRead.minLength hLow
    have hHigh := of_map integer_injective hRead.maxLength hHigh
    rw [hLow, hHigh, crossed, decide_eq_false_iff_not, hRead.small low (Or.inl hLow),
      hRead.small high (Or.inr (Or.inl hHigh))] at hRoom
    exact Int.not_lt.mp hRoom
  · intro values hValues value hValue
    obtain ⟨here, hPass⟩ := hMembers values (of_map arr_injective hRead.listed hValues) value hValue
    exact checkValue_ok hRead hApplied hPass

/-! ## Values that pass -/

theorem le_of_signed {low high : JsonInteger} (h : signed low ≤ signed high)
    (hSide : SameSide low high) : low.value ≤ high.value := by
  have hLow := low.upper
  have hHigh := high.lower
  unfold SameSide at hSide
  unfold signed at h
  split at h <;> split at h <;> omega

theorem Passed.allowed (h : Passed host schema kind value) (hWide : Wide schema)
    (hStated : Stated schema value)
    (hListed : ∀ values, schema.find? "enum" = some (.arr values) → value ∈ values) :
    Allowed host schema kind value where
  kind := h.kind
  listed := hListed
  atLeast := by
    rintro low n hLow rfl
    exact le_of_signed (h.atLeast low n hLow rfl) (hWide.above low n hLow hStated)
  atMost := by
    rintro high n hHigh rfl
    exact le_of_signed (h.atMost high n hHigh rfl) (hWide.under high n hHigh hStated)
  longEnough := h.longEnough
  shortEnough := h.shortEnough
  matching := h.matching
  many := h.many

theorem equal_str {text : Text} (h : value.equal (.str text) = true) : value = .str text := by
  cases value <;> simp [Document.equal] at h
  rw [h]

theorem equal_bool {b : Bool} (h : value.equal (.bool b) = true) : value = .bool b := by
  cases value <;> simp [Document.equal] at h
  rw [h]

theorem equalItems_strings : ∀ {xs ys : List Document}, Document.equalItems xs ys = true →
    (∀ y ∈ ys, hasKind y .string = true) → xs = ys := by
  intro xs
  induction xs with
  | nil =>
    intro ys h _
    cases ys with
    | nil => rfl
    | cons y ys => simp [Document.equalItems] at h
  | cons x xs ih =>
    intro ys h hStrings
    cases ys with
    | nil => simp [Document.equalItems] at h
    | cons y ys =>
      rw [Document.equalItems, Bool.and_eq_true] at h
      obtain ⟨text, rfl⟩ := hasKind_string (hStrings y List.mem_cons_self)
      rw [equal_str h.1, ih h.2 fun z hz => hStrings z (List.mem_cons_of_mem _ hz)]

theorem equal_strings {items : List Document} (h : value.equal (.arr items) = true)
    (hStrings : ∀ y ∈ items, hasKind y .string = true) : value = .arr items := by
  cases value <;> simp only [Document.equal, Bool.false_eq_true] at h
  rw [equalItems_strings h hStrings]

theorem Passed.mem_of_default {values : List Document} (h : Passed host schema kind value)
    (hClauses : ClausesPassed host schema kind) (hWide : Wide schema)
    (hDefault : schema.find? "default" = some value)
    (hValues : schema.find? "enum" = some (.arr values)) (hObject : kind ≠ .object)
    (hStrings : kind = .array → ∀ element ∈ value.items, hasKind element .string = true) :
    value ∈ values := by
  obtain ⟨member, hMember, hEqual⟩ := h.listed values hValues
  have hMemberKind := (hClauses.members values hValues member hMember).kind
  have hKind := h.kind
  cases kind with
  | string =>
    obtain ⟨text, rfl⟩ := hasKind_string hKind
    exact equal_str hEqual ▸ hMember
  | boolean =>
    cases value <;> cases hKind
    exact equal_bool hEqual ▸ hMember
  | integer =>
    cases value <;> cases hKind
    rename_i n
    obtain ⟨m, hm, hSigned, hSide⟩ := hWide.fallback values n hValues hDefault
    have hSame : m = n := by
      apply JsonInteger.ext
      unfold signed at hSigned
      split at hSigned <;> split at hSigned <;> omega
    exact hSame ▸ hm
  | array =>
    cases value <;> cases hKind
    exact equal_strings hEqual (hStrings rfl) ▸ hMember
  | object => exact absurd rfl hObject

theorem allowed_of_applied (h : Applied host schema kind) (hEnum : schema.find? "enum" = none)
    (hKind : hasKind value kind = true)
    (hInteger : kind = .integer → ∀ n, value = .integer n → (∀ low, schema.find? "minimum" = some (.integer low) → low.value ≤ n.value) ∧ ∀ high, schema.find? "maximum" = some (.integer high) → n.value ≤ high.value)
    (hString : kind = .string → schema.find? "pattern" = none ∧ ∃ chars, value = .str (Utf8.encode chars) ∧ (∀ low, schema.find? "minLength" = some (.integer low) → low.value ≤ chars.length) ∧ ∀ high, schema.find? "maxLength" = some (.integer high) → chars.length ≤ high.value)
    (hArray : kind = .array → ∀ low, schema.find? "minItems" = some (.integer low) → low.value ≤ value.items.length) :
    Allowed host schema kind value where
  kind := hKind
  listed := fun values hValues => by
    rw [hEnum] at hValues
    cases hValues
  atLeast := fun low n hLow hn =>
    (hInteger (h.bounds _ List.mem_cons_self _ hLow).1 n hn).1 low hLow
  atMost := fun high n hHigh hn =>
    (hInteger (h.bounds _ (List.mem_pair.mpr (Or.inr rfl)) _ hHigh).1 n hn).2 high hHigh
  longEnough := fun low hLow => by
    obtain ⟨-, chars, hValue, hLong, -⟩ := hString (h.lengths _ List.mem_cons_self _ hLow).1
    exact ⟨chars, hValue, hLong low hLow⟩
  shortEnough := fun high hHigh => by
    obtain ⟨-, chars, hValue, -, hShort⟩ :=
      hString (h.lengths _ (List.mem_pair.mpr (Or.inr rfl)) _ hHigh).1
    exact ⟨chars, hValue, hShort high hHigh⟩
  matching := fun pattern hPattern => by
    rw [(hString (h.pattern _ hPattern).1).1] at hPattern
    cases hPattern
  many := fun low hLow => hArray (h.sizes _ hLow).1 low hLow

section

variable (h : ClausesPassed host schema kind)
include h

theorem ClausesPassed.exists_integer (hWide : Wide schema) : ∃ n : JsonInteger,
      (∀ low, schema.find? "minimum" = some (.integer low) → low.value ≤ n.value) ∧
        ∀ high, schema.find? "maximum" = some (.integer high) → n.value ≤ high.value := by
  cases hLow : schema.find? "minimum" with
  | some stated =>
    obtain ⟨-, low, rfl⟩ := h.applied.bounds _ List.mem_cons_self _ hLow
    refine ⟨low, fun other hOther => by cases hOther; exact Int.le_refl _, fun high hHigh => ?_⟩
    exact le_of_signed (h.ordered low high hLow hHigh) (hWide.bounds low high hLow hHigh)
  | none =>
    cases hHigh : schema.find? "maximum" with
    | none => exact ⟨default, fun low h => (nomatch h), fun high h => (nomatch h)⟩
    | some stated =>
      obtain ⟨-, high, rfl⟩ := h.applied.bounds _ (List.mem_pair.mpr (Or.inr rfl)) _ hHigh
      exact ⟨high, fun low h => (nomatch h), fun other hOther => by cases hOther; rfl⟩

theorem ClausesPassed.exists_length :
    ∃ n : Nat, (∀ low, schema.find? "minLength" = some (.integer low) → low.value ≤ n) ∧
      ∀ high, schema.find? "maxLength" = some (.integer high) → n ≤ high.value := by
  cases hLow : schema.find? "minLength" with
  | some stated =>
    obtain ⟨-, low, rfl, hSign⟩ := h.applied.lengths _ List.mem_cons_self _ hLow
    refine ⟨low.value.toNat, fun other hOther => ?_, fun high hHigh => ?_⟩
    · cases hOther
      exact Int.self_le_toNat _
    · rw [Int.toNat_of_nonneg hSign]
      exact h.room low high hLow hHigh
  | none =>
    refine ⟨0, fun low h => (nomatch h), fun high hHigh => ?_⟩
    obtain ⟨-, n, hn, hSign⟩ :=
      h.applied.lengths _ (List.mem_pair.mpr (Or.inr rfl)) _ hHigh
    cases hn
    exact hSign

theorem ClausesPassed.consistent (hWide : Wide schema)
    (hMatched : ∀ pattern, schema.find? "pattern" = some pattern → schema.find? "enum" = none → ∃ value, Allowed host schema .string value) :
    ∃ value, Allowed host schema kind value := by
  cases hEnum : schema.find? "enum" with
  | some stated =>
    obtain ⟨first, rest, rfl⟩ := h.applied.listed stated hEnum
    refine ⟨first, (h.members _ hEnum first List.mem_cons_self).allowed hWide
      (Or.inl ⟨_, hEnum, List.mem_cons_self⟩) fun values hValues => ?_⟩
    rw [hEnum, Option.some.injEq] at hValues
    exact arr_injective hValues ▸ List.mem_cons_self
  | none =>
    cases kind with
    | string =>
      cases hPattern : schema.find? "pattern" with
      | some pattern => exact hMatched pattern hPattern hEnum
      | none =>
        obtain ⟨n, hLow, hHigh⟩ := h.exists_length
        refine ⟨.str (Utf8.encode (List.replicate n 'a')), allowed_of_applied h.applied hEnum
          rfl (fun h => (nomatch h)) (fun _ => ⟨hPattern, _, rfl, ?_⟩) fun h => (nomatch h)⟩
        rw [List.length_replicate]
        exact ⟨hLow, hHigh⟩
    | boolean =>
      exact ⟨.bool true, allowed_of_applied h.applied hEnum rfl (fun h => (nomatch h))
        (fun h => (nomatch h)) fun h => (nomatch h)⟩
    | integer =>
      obtain ⟨n, hn⟩ := h.exists_integer hWide
      refine ⟨.integer n, allowed_of_applied h.applied hEnum rfl (fun _ m hm => ?_)
        (fun h => (nomatch h)) fun h => (nomatch h)⟩
      cases hm
      exact hn
    | array =>
      cases hLow : schema.find? "minItems" with
      | none =>
        exact ⟨.arr [], allowed_of_applied h.applied hEnum rfl (fun h => (nomatch h))
          (fun h => (nomatch h)) fun _ low h => by rw [hLow] at h; cases h⟩
      | some stated =>
        obtain ⟨-, low, rfl, hSign⟩ := h.applied.sizes _ hLow
        refine ⟨.arr (List.replicate low.value.toNat .null), allowed_of_applied h.applied
          hEnum rfl (fun h => (nomatch h)) (fun h => (nomatch h)) fun _ other hOther => ?_⟩
        rw [hLow] at hOther
        cases hOther
        rw [Document.items, List.length_replicate]
        exact Int.self_le_toNat _
    | object =>
      exact ⟨.obj [], allowed_of_applied h.applied hEnum rfl (fun h => (nomatch h))
        (fun h => (nomatch h)) fun h => (nomatch h)⟩

end

end

end SimplexAgent.Tools.Declaration
