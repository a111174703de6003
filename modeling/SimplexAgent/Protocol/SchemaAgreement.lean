import SimplexAgent.Protocol.CodecLanguage

/-!
# The codec and the published schema

Two interpreters read the same descriptors: `fromJson` and the schema that
`jsonSchema` generates from them. They differ in two places. The codec refuses an
explicit null wherever a field is not nullable, but an open field without constraints is
published as the empty schema, which null satisfies. The codec refuses a number in
floating form at an integer field, but to a schema a number without a fractional part is
an integer.

`Strict` says that a value has neither, at any place where a field is read. The codec
accepts exactly the strict values that the schema validates.
-/

namespace SimplexAgent.Protocol

open Dataclass

/-! ## Strict values -/

def Field.Strict (nested : Language) (field : Field) (value : Json) : Prop :=
  match field.kind with
  | .integer => ∀ q, value = .float q → q.den ≠ 1
  | .any =>
    value = .null → field.nullable = true ∨ field.constraints.objectOnly = true ∨
        field.constraints.emptyObject = true
  | .record name => nested name value
  | .records name => ∀ items, value = .arr items → ∀ item ∈ items, nested name item
  | .textOrRecord name => (∀ s, value ≠ .str s) → nested name value
  | .projectedBatch name marker => ∀ items, value = .arr items → ∀ item ∈ items,
      nested (if isMarker "display_omitted" item then marker else name) item
  | _ => True

def RecordDescriptor.Strict (nested : Language) (r : RecordDescriptor) (value : Json) : Prop :=
  ∀ field ∈ r.fields, ¬ r.Ignores value field.name →
    ∀ w, value.find? field.name = some w → field.Strict nested w

def strict (declared : List RecordDescriptor) : Language :=
  match declared with
  | [] => fun _ _ => True
  | r :: above => fun name value =>
    if r.name = name then r.Strict (strict above) value else strict above name value

def language (declared : List RecordDescriptor) : Language :=
  match declared with
  | [] => fun _ _ => False
  | r :: above => fun name value =>
    if r.name = name then r.Admits (language above) value else language above name value

variable (declared : List RecordDescriptor)

theorem reads_fromJson (hRules : ∀ r ∈ declared, r.RulesReadable) :
    Reads (fromJson declared) (language declared) := by
  induction declared with
  | nil =>
    intro name value path
    simp [fromJson, language]
  | cons r above ih =>
    have hAbove := ih fun r' hMem => hRules r' (List.mem_cons_of_mem _ hMem)
    intro name value path
    by_cases hName : r.name = name
    · simp only [fromJson, language, if_pos hName]
      exact RecordDescriptor.accepted_read hAbove (hRules r (by simp))
    · simp only [fromJson, language, if_neg hName]
      exact hAbove name value path

theorem find?_null (name : String) : Json.find? .null name = none := rfl

theorem not_language_null (name : String) : ¬ language declared name .null := by
  induction declared with
  | nil => simp [language]
  | cons r above ih =>
    by_cases hName : r.name = name
    · simp only [language, if_pos hName]
      rintro ⟨⟨entries, hObj, -⟩, -⟩
      cases hObj
    · simpa only [language, if_neg hName] using ih

theorem strict_null (name : String) : strict declared name .null := by
  induction declared with
  | nil => simp [strict]
  | cons r above ih =>
    by_cases hName : r.name = name
    · simp only [strict, if_pos hName]
      intro field _ _ w hFind
      rw [find?_null] at hFind
      cases hFind
    · simpa only [strict, if_neg hName] using ih

/-! ## Field types -/

def Kind.nestedNames : Kind → List String
  | .record name | .records name | .textOrRecord name => [name]
  | .projectedBatch name marker => [name, marker]
  | _ => []

def Kind.vocabularies : Kind → List EnumDescriptor
  | .enumeration vocabulary | .enumerations vocabulary => [vocabulary]
  | _ => []

/-- The constraints fit the kind: a fixed spelling on a string, bounds on an integer, an
object requirement on an open value. -/
def Field.Fitting (field : Field) : Prop :=
  (field.constraints.constant ≠ none →
    field.kind = .text ∨ ∃ vocabulary ∈ field.kind.vocabularies, field.kind = .enumeration vocabulary) ∧
  (field.constraints.minimum = none ∧ field.constraints.maximum = none) ∧
  ((field.constraints.objectOnly || field.constraints.emptyObject) = true → field.kind = .any)

/-- From some depth on, the definition of a nested record validates the strict part of
its language. -/
structure Published (defs : Definitions) (bound : Nat) (nested strictly : Language)
    (name : String) : Prop where
  agrees : ∀ depth, bound ≤ depth → ∀ value, nested name value ↔
    (defs.lookup name).any (fun target => target.holds defs depth value) = true ∧
      strictly name value
  notNull : ¬ nested name .null
  strictNull : strictly name .null

section FieldTypes

variable {defs : Definitions} {bound : Nat} {nested strictly : Language}
variable {field : Field}

variable (depth : Nat)

theorem holds_type (type : JsonType) (value : Json) :
    Schema.holds defs (depth + 1) { type := some type } value = type.holds value := by
  cases value <;>
    simp [Schema.holds, Schema.assertions, Schema.childrenHold, Schema.combinedHold, Json.number?]

theorem holds_ref (name : String) (value : Json) :
    Schema.holds defs (depth + 1) { ref := some name } value =
      (defs.lookup name).any fun target => target.holds defs depth value := by
  cases value <;>
    simp [Schema.holds, Schema.assertions, Schema.childrenHold, Schema.combinedHold, Json.number?]

theorem equals_str_iff (value : Json) (s : String) :
    Json.equals value (.str s) = true ↔ value = .str s := by
  cases value <;> simp [Json.equals, Json.number?]

/-- A schema without the keywords that constraints add. -/
structure Schema.Plain (s : Schema) : Prop where
  const : s.const = none
  utf8Bytes : s.utf8Bytes = (none, none)
  minItems : s.minItems = 0
  maxProperties : s.maxProperties = none
  properties : s.properties = []
  additionalProperties : s.additionalProperties = true

theorem plain_kindSchema (kind : Kind) (c : Constraints) : (kindSchema kind c).Plain := by
  cases kind with
  | any =>
    by_cases h : (c.objectOnly || c.emptyObject) = true
    · simp only [kindSchema, if_pos h]
      constructor <;> rfl
    · simp only [kindSchema, if_neg h]
      constructor <;> rfl
  | _ => constructor <;> rfl

def Constraints.Keywords (c : Constraints) (value : Json) : Prop :=
  (∀ constant ∈ c.constant, value = .str constant) ∧
  match value with
  | .str s =>
    (∀ least ∈ c.minLength, least ≤ s.utf8ByteSize) ∧
    ∀ largest ∈ c.maxLength, s.utf8ByteSize ≤ largest
  | .arr items => c.nonEmpty = true → items ≠ []
  | .obj fields => c.emptyObject = true → fields = []
  | _ => True

theorem option_all_iff {α : Type} (o : Option α) (p : α → Bool) :
    o.all p = true ↔ ∀ a ∈ o, p a = true := by
  cases o <;> simp

theorem assertions_constrain {c : Constraints}
    (hRange : c.minimum = none ∧ c.maximum = none) {s : Schema} (hPlain : s.Plain) (value : Json) :
    (constrain s c).assertions value = true ↔ s.assertions value = true ∧ c.Keywords value := by
  have hConst : (c.constant.map Json.str).all (Json.equals value ·) = true ↔
      ∀ constant ∈ c.constant, value = .str constant := by
    cases c.constant <;> simp [equals_str_iff]
  unfold Schema.assertions Constraints.Keywords
  simp only [constrain, hPlain.const, hPlain.utf8Bytes, hPlain.minItems, hPlain.maxProperties,
    hPlain.properties, hPlain.additionalProperties, hRange.1, hRange.2, Option.none_or,
    Bool.and_eq_true, hConst, Option.all_none, and_true]
  cases value with
  | str s =>
    simp only [Bool.and_eq_true, option_all_iff, decide_eq_true_eq]
    tauto
  | arr items =>
    have hItems : (if c.nonEmpty = true then 1 else 0) ≤ items.length ↔
        (c.nonEmpty = true → items ≠ []) := by
      cases c.nonEmpty
      · simp
      · simp [Nat.one_le_iff_ne_zero]
    simp only [Bool.and_eq_true, decide_eq_true_eq, hItems, Nat.zero_le, true_and]
    tauto
  | obj entries =>
    have hEmpty : (if c.emptyObject = true then some 0 else none).all
          (fun largest => decide (entries.length ≤ largest)) = true ∧
        (!c.emptyObject || entries.all fun entry =>
          (List.lookup entry.1 ([] : List (String × Schema))).isSome) = true ↔
        (c.emptyObject = true → entries = []) := by
      cases c.emptyObject
      · simp
      · cases entries <;> simp
    simp only [Bool.and_eq_true, Bool.true_or, and_true, true_and]
    tauto
  | _ => tauto

theorem holds_constrain {c : Constraints} (hRange : c.minimum = none ∧ c.maximum = none)
    {s : Schema} (hPlain : s.Plain) (depth : Nat) (value : Json) :
    Schema.holds defs (depth + 1) (constrain s c) value = true ↔
      Schema.holds defs (depth + 1) s value = true ∧ c.Keywords value := by
  have hChildren : ∀ sub, (constrain s c).childrenHold sub value = s.childrenHold sub value :=
    fun _ => rfl
  have hCombined : ∀ sub, (constrain s c).combinedHold sub value = s.combinedHold sub value :=
    fun _ => rfl
  have hRef : (constrain s c).ref = s.ref := rfl
  simp only [Schema.holds, Bool.and_eq_true, assertions_constrain hRange hPlain, hChildren,
    hCombined, hRef]
  tauto

theorem holds_array (item : Schema) (value : Json) :
    Schema.holds defs (depth + 1) { type := some .array, items := some item } value = true ↔
      ∃ items, value = .arr items ∧ ∀ w ∈ items, item.holds defs depth w = true := by
  cases value <;>
    simp [Schema.holds, Schema.assertions, Schema.childrenHold, Schema.combinedHold, JsonType.holds]

theorem holds_vocabulary (vocabulary : EnumDescriptor) (value : Json) :
    vocabulary.entry.holds defs (depth + 1) value = true ↔
      ∃ s ∈ vocabulary.spellings, value = .str s := by
  have hEnum : ((vocabulary.spellings.map Json.str).any (Json.equals value ·)) = true ↔
      ∃ s ∈ vocabulary.spellings, value = .str s := by
    simp [equals_str_iff]
  have hHolds : vocabulary.entry.holds defs (depth + 1) value = (JsonType.string.holds value &&
        (vocabulary.spellings.map Json.str).any (Json.equals value ·)) := by
    rw [Schema.holds]
    cases value <;>
      simp only [EnumDescriptor.entry, Schema.assertions, Schema.childrenHold, Schema.combinedHold,
        Json.number?, Option.all_none, Option.all_some, Bool.true_and, Bool.and_true, List.all_nil,
        Bool.true_or, Nat.zero_le, decide_true]
  rw [hHolds, Bool.and_eq_true, hEnum]
  constructor
  · exact fun h => h.2
  · rintro ⟨s, hMem, rfl⟩
    exact ⟨rfl, s, hMem, rfl⟩

theorem holds_bounded (depth largest : Nat) (n : JsonInteger) : Schema.holds defs (depth + 1)
        { type := some .integer, minimum := some 0, maximum := some largest } (.integer n) = true ↔
      0 ≤ n.value ∧ n.value ≤ largest := by
  have hLower : ((0 : Nat) : Rat) ≤ (n.value : Rat) ↔ 0 ≤ n.value := by
    exact_mod_cast Iff.rfl
  have hUpper : (n.value : Rat) ≤ (largest : Rat) ↔ n.value ≤ largest := by
    exact_mod_cast Iff.rfl
  simp only [Schema.holds, Schema.assertions, Schema.childrenHold, Schema.combinedHold,
    JsonType.holds, Json.number?, Option.all_none, Option.all_some, Bool.true_and, Bool.and_true,
    List.all_nil, Bool.and_eq_true, decide_eq_true_eq, hLower, hUpper]

theorem holds_integer (value : Json) (hStrict : ∀ q, value = .float q → q.den ≠ 1)
    (c : Constraints) : Schema.holds defs (depth + 1) (kindSchema .integer c) value = true ↔
      ∃ n, value = .integer n ∧ 0 ≤ n.value := by
  cases value with
  | integer n =>
    have hUpper : n.value ≤ ((2 ^ 64 - 1 : Nat) : Int) := by
      have := n.upper
      omega
    rw [kindSchema, holds_bounded]
    constructor
    · intro h
      exact ⟨n, rfl, h.1⟩
    · rintro ⟨m, hEq, hSign⟩
      cases hEq
      exact ⟨hSign, hUpper⟩
  | float q => simp [kindSchema, Schema.holds, Schema.assertions, JsonType.holds, hStrict q rfl]
  | _ => simp [kindSchema, Schema.holds, Schema.assertions, JsonType.holds]

theorem holds_marker (value : Json) :
    Schema.holds defs (depth + 1) { type := some .object, required := ["display_omitted"] } value =
      isMarker "display_omitted" value := by
  cases value <;>
    simp [Schema.holds, Schema.assertions, Schema.childrenHold, Schema.combinedHold,
      JsonType.holds, isMarker, Json.find?]

theorem holds_element (name marker : String) (value : Json) : Schema.holds defs (depth + 2)
        { ifSchema := some { type := some .object, required := ["display_omitted"] }
          thenSchema := some { ref := some marker }
          elseSchema := some { ref := some name } } value =
      (defs.lookup (if isMarker "display_omitted" value then marker else name)).any
        fun target => target.holds defs depth value := by
  rw [Schema.holds]
  cases hMarker : isMarker "display_omitted" value <;>
    cases value <;>
      simp [Schema.assertions, Schema.childrenHold, Schema.combinedHold, holds_marker, hMarker,
        holds_ref, Json.number?]

theorem countP_le_one_of_onlyLast {key : String} {items : List Json}
    (hLast : onlyLast key items = true) : items.countP (isMarker key) ≤ 1 := by
  rcases List.eq_nil_or_concat items with rfl | ⟨init, last, rfl⟩
  · simp
  · have hInit : init.countP (isMarker key) = 0 := by
      rw [List.countP_eq_zero]
      intro item hItem hMarker
      simp only [onlyLast, List.concat_eq_append, List.dropLast_concat, List.all_eq_true] at hLast
      simpa [hMarker] using hLast item hItem
    rw [List.concat_eq_append, List.countP_append, hInit, List.countP_singleton]
    split <;> omega

theorem holds_batch (name marker : String) (c : Constraints) (value : Json) :
    Schema.holds defs (depth + 3) (kindSchema (.projectedBatch name marker) c) value = true ↔
      ∃ items, value = .arr items ∧ onlyLast "display_omitted" items = true ∧ ∀ item ∈ items,
          ((defs.lookup (if isMarker "display_omitted" item then marker else name)).any
            fun target => target.holds defs depth item) = true := by
  cases value with
  | arr items =>
    have hCount : onlyLast "display_omitted" items = true → _ := countP_le_one_of_onlyLast
    rw [kindSchema, Schema.holds]
    simp only [Schema.assertions, Schema.childrenHold, Schema.combinedHold, JsonType.holds,
      holds_element, Option.all_none, Option.all_some, Bool.true_and, Bool.and_true, List.all_nil,
      Bool.and_eq_true, decide_eq_true_eq, Nat.zero_le, true_and, List.all_eq_true,
      Json.arr.injEq, exists_eq_left']
    have hMarkers : items.countP (Schema.holds defs (depth + 2)
        { type := some .object, required := ["display_omitted"] }) =
        items.countP (isMarker "display_omitted") := by
      congr 1
      funext item
      exact holds_marker (depth + 1) item
    rw [hMarkers]
    constructor
    · intro h
      exact ⟨h.1, h.2.1⟩
    · intro h
      exact ⟨h.1, h.2, hCount h.1⟩
  | _ => simp [kindSchema, Schema.holds, Schema.assertions, JsonType.holds]

theorem holds_textOrRecord (name : String) (c : Constraints) (value : Json) :
    Schema.holds defs (depth + 2) (kindSchema (.textOrRecord name) c) value = true ↔
      (∃ s, value = .str s) ∨
        ((defs.lookup name).any fun target => target.holds defs depth value) = true := by
  rw [kindSchema, Schema.holds]
  cases value <;>
    simp [Schema.assertions, Schema.childrenHold, Schema.combinedHold, holds_type, holds_ref,
      JsonType.holds, Json.number?]

theorem holds_any (c : Constraints) (value : Json) :
    Schema.holds defs (depth + 1) (kindSchema .any c) value = true ↔
      ((c.objectOnly || c.emptyObject) = true → ∃ entries, value = .obj entries) := by
  rw [kindSchema]
  by_cases h : (c.objectOnly || c.emptyObject) = true
  · rw [if_pos h, holds_type]
    cases value <;> simp [JsonType.holds, h]
  · rw [if_neg h]
    cases value <;>
      simp [Schema.holds, Schema.assertions, Schema.childrenHold, Schema.combinedHold, h,
        Json.number?]

def Constraints.Container (c : Constraints) (value : Json) : Prop :=
  (c.objectOnly || c.emptyObject) = true → ∃ entries, value = .obj entries

theorem admit_iff (hFit : field.Fitting) {value : Json} (hKind : field.kind.Admits nested value) :
    field.constraints.Admit value ↔
      field.constraints.Container value ∧ field.constraints.Keywords value := by
  obtain ⟨hConstant, hRange, -⟩ := hFit
  have hText : ∀ constant ∈ field.constraints.constant, ∃ s, value = .str s := by
    intro constant hMem
    rcases hConstant (by rw [Option.mem_def] at hMem; simp [hMem]) with h | ⟨vocabulary, -, h⟩
    · rw [h] at hKind
      exact hKind
    · rw [h] at hKind
      obtain ⟨s, -, hEq⟩ := hKind
      exact ⟨s, hEq⟩
  cases value with
  | obj entries =>
    have hNone : ∀ constant ∈ field.constraints.constant, False := by
      intro constant hMem
      obtain ⟨s, hEq⟩ := hText constant hMem
      cases hEq
    simp only [Constraints.Admit, Constraints.Container, Constraints.Keywords]
    constructor
    · intro h
      exact ⟨fun _ => ⟨entries, rfl⟩, fun constant hMem => (hNone constant hMem).elim, h⟩
    · intro h
      exact h.2.2
  | str s =>
    simp only [Constraints.Admit, Constraints.Container, Constraints.Keywords, Bool.or_eq_true,
      reduceCtorEq, exists_false, imp_false, not_or, Bool.not_eq_true, Json.str.injEq]
    tauto
  | _ =>
    have hNone : ∀ constant ∈ field.constraints.constant, False := by
      intro constant hMem
      obtain ⟨s, hEq⟩ := hText constant hMem
      cases hEq
    simp only [Constraints.Admit, Constraints.Container, Constraints.Keywords, Bool.or_eq_true,
      reduceCtorEq, exists_false, imp_false, not_or, Bool.not_eq_true, hRange, and_self, true_or,
      and_true]
    tauto

theorem kind_agrees (hFit : field.Fitting)
    (hNested : ∀ name ∈ field.kind.nestedNames, Published defs bound nested strictly name)
    (hVocabulary : ∀ vocabulary ∈ field.kind.vocabularies, defs.lookup vocabulary.name = some vocabulary.entry)
    {depth : Nat} (hDepth : bound ≤ depth) {value : Json} (hNull : value ≠ .null) :
    Schema.holds defs (depth + 3) (kindSchema field.kind field.constraints) value = true ∧
        field.Strict strictly value ↔
      field.kind.Admits nested value ∧ field.constraints.Container value := by
  have hContainer : field.kind ≠ .any → field.constraints.Container value :=
    fun h hFlags => absurd (hFit.2.2 hFlags) h
  unfold Field.Strict
  cases hKind : field.kind with
  | any =>
    rw [holds_any]
    simp [Kind.Admits, Constraints.Container, hNull]
  | text | boolean =>
    rw [kindSchema, holds_type]
    cases value <;> simp [Kind.Admits, JsonType.holds, hContainer, hKind]
  | integer =>
    simp only [Kind.Admits, hContainer (by simp [hKind]), and_true]
    constructor
    · rintro ⟨hHolds, hStrict⟩
      exact (holds_integer _ value hStrict _).mp hHolds
    · rintro ⟨n, rfl, hSign⟩
      exact ⟨(holds_integer _ _ (by simp) _).mpr ⟨n, rfl, hSign⟩, by simp⟩
  | enumeration vocabulary =>
    rw [hKind] at hVocabulary
    rw [kindSchema, holds_ref, hVocabulary vocabulary (by simp [Kind.vocabularies]),
      Option.any_some, holds_vocabulary]
    simp [Kind.Admits, hContainer, hKind]
  | enumerations vocabulary =>
    rw [hKind] at hVocabulary
    have hItem : ∀ w : Json, Schema.holds defs (depth + 2) { ref := some vocabulary.name } w = true ↔
        ∃ s ∈ vocabulary.spellings, w = .str s := by
      intro w
      rw [holds_ref, hVocabulary vocabulary (by simp [Kind.vocabularies]), Option.any_some,
        holds_vocabulary]
    simp only [kindSchema, holds_array, hItem]
    simp [Kind.Admits, hContainer, hKind]
  | texts =>
    have hItem : ∀ w : Json, Schema.holds defs (depth + 2) { type := some .string } w = true ↔
        ∃ s, w = .str s := by
      intro w
      rw [holds_type]
      cases w <;> simp [JsonType.holds]
    simp only [kindSchema, holds_array, hItem]
    simp [Kind.Admits, hContainer, hKind]
  | record name =>
    rw [hKind] at hNested
    have hName := hNested name (by simp [Kind.nestedNames])
    rw [kindSchema, holds_ref]
    simp only [Kind.Admits, hContainer (by simp [hKind]), and_true]
    exact (hName.agrees (depth + 2) (by omega) value).symm
  | records name =>
    rw [hKind] at hNested
    have hName := hNested name (by simp [Kind.nestedNames])
    simp only [kindSchema, holds_array, holds_ref, Kind.Admits, hContainer (by simp [hKind]),
      and_true]
    constructor
    · rintro ⟨⟨items, rfl, hItems⟩, hStrict⟩
      exact ⟨items, rfl, fun item hItem =>
        (hName.agrees (depth + 1) (by omega) item).mpr
          ⟨hItems item hItem, hStrict items rfl item hItem⟩⟩
    · rintro ⟨items, rfl, hItems⟩
      refine ⟨⟨items, rfl, fun item hItem => ?_⟩, ?_⟩
      · exact ((hName.agrees (depth + 1) (by omega) item).mp (hItems item hItem)).1
      · rintro items' hEq item hItem
        cases hEq
        exact ((hName.agrees (depth + 1) (by omega) item).mp (hItems item hItem)).2
  | textOrRecord name =>
    rw [hKind] at hNested
    have hName := hNested name (by simp [Kind.nestedNames])
    rw [holds_textOrRecord]
    simp only [Kind.Admits, hContainer (by simp [hKind]), and_true]
    by_cases hText : ∃ s, value = .str s
    · obtain ⟨s, rfl⟩ := hText
      simp
    · have hNot : ∀ s, value ≠ .str s := fun s hEq => hText ⟨s, hEq⟩
      simp only [hText, false_or]
      rw [hName.agrees (depth + 1) (by omega) value]
      simp [hNot]
  | projectedBatch name marker =>
    rw [hKind] at hNested
    have hElement : ∀ item, nested (if isMarker "display_omitted" item then marker else name) item ↔
        ((defs.lookup (if isMarker "display_omitted" item then marker else name)).any
          fun target => target.holds defs depth item) = true ∧
        strictly (if isMarker "display_omitted" item then marker else name) item := by
      intro item
      cases isMarker "display_omitted" item
      · exact (hNested name (by simp [Kind.nestedNames])).agrees depth hDepth item
      · exact (hNested marker (by simp [Kind.nestedNames])).agrees depth hDepth item
    rw [holds_batch]
    simp only [Kind.Admits, hContainer (by simp [hKind]), and_true]
    constructor
    · rintro ⟨⟨items, rfl, hLast, hItems⟩, hStrict⟩
      exact ⟨items, rfl, hLast, fun item hItem =>
        (hElement item).mpr ⟨hItems item hItem, hStrict items rfl item hItem⟩⟩
    · rintro ⟨items, rfl, hLast, hItems⟩
      refine ⟨⟨items, rfl, hLast, fun item hItem => ((hElement item).mp (hItems item hItem)).1⟩, ?_⟩
      rintro items' hEq item hItem
      cases hEq
      exact ((hElement item).mp (hItems item hItem)).2

theorem kind_refuses_null (hNullable : field.nullable = false)
    (hNested : ∀ name ∈ field.kind.nestedNames, Published defs bound nested strictly name)
    (hVocabulary : ∀ vocabulary ∈ field.kind.vocabularies, defs.lookup vocabulary.name = some vocabulary.entry)
    {depth : Nat} (hDepth : bound ≤ depth) :
    ¬ (Schema.holds defs (depth + 3) (kindSchema field.kind field.constraints) .null = true ∧
        field.Strict strictly .null) := by
  rintro ⟨hHolds, hStrict⟩
  unfold Field.Strict at hStrict
  cases hKind : field.kind with
  | any =>
    rw [hKind, holds_any] at hHolds
    simp only [hKind, hNullable, forall_const, Bool.false_eq_true, false_or] at hStrict
    obtain ⟨entries, hObj⟩ := hHolds (by simpa using hStrict)
    cases hObj
  | enumeration vocabulary =>
    rw [hKind] at hVocabulary
    rw [hKind, kindSchema, holds_ref, hVocabulary vocabulary (by simp [Kind.vocabularies]),
      Option.any_some, holds_vocabulary] at hHolds
    obtain ⟨s, -, hEq⟩ := hHolds
    cases hEq
  | record name =>
    rw [hKind] at hNested
    rw [hKind, kindSchema, holds_ref] at hHolds
    simp only [hKind] at hStrict
    have hName := hNested name (by simp [Kind.nestedNames])
    exact hName.notNull ((hName.agrees (depth + 2) (by omega) _).mpr ⟨hHolds, hStrict⟩)
  | textOrRecord name =>
    rw [hKind] at hNested
    rw [hKind, holds_textOrRecord] at hHolds
    simp only [hKind, ne_eq, reduceCtorEq, not_false_eq_true, implies_true, forall_const] at hStrict
    have hName := hNested name (by simp [Kind.nestedNames])
    rcases hHolds with ⟨s, hEq⟩ | hHolds
    · cases hEq
    · exact hName.notNull ((hName.agrees (depth + 1) (by omega) _).mpr ⟨hHolds, hStrict⟩)
  | projectedBatch name marker =>
    rw [hKind, holds_batch] at hHolds
    obtain ⟨items, hEq, -⟩ := hHolds
    cases hEq
  | _ =>
    rw [hKind] at hHolds
    simp [kindSchema, Schema.holds, Schema.assertions, JsonType.holds] at hHolds

theorem holds_nullable (type : Schema) (value : Json) :
    Schema.holds defs (depth + 2) { anyOf := some [type, { type := some .null }] } value = true ↔
      type.holds defs (depth + 1) value = true ∨ value = .null := by
  rw [Schema.holds]
  cases value <;>
    simp [Schema.assertions, Schema.childrenHold, Schema.combinedHold, holds_type, JsonType.holds,
      Json.number?]

theorem strict_of_null (hNullable : field.nullable = true)
    (hNested : ∀ name ∈ field.kind.nestedNames, Published defs bound nested strictly name) :
    field.Strict strictly .null := by
  unfold Field.Strict
  cases hKind : field.kind with
  | any => simp [hNullable]
  | record name =>
    rw [hKind] at hNested
    exact (hNested name (by simp [Kind.nestedNames])).strictNull
  | textOrRecord name =>
    rw [hKind] at hNested
    exact fun _ => (hNested name (by simp [Kind.nestedNames])).strictNull
  | _ => simp

theorem field_agrees (hFit : field.Fitting)
    (hNested : ∀ name ∈ field.kind.nestedNames, Published defs bound nested strictly name)
    (hVocabulary : ∀ vocabulary ∈ field.kind.vocabularies, defs.lookup vocabulary.name = some vocabulary.entry)
    {depth : Nat} (hDepth : bound ≤ depth) (value : Json) :
    Schema.holds defs (depth + 4) (RecordDescriptor.property field).2 value = true ∧
        field.Strict strictly value ↔
      field.Admits nested value := by
  have hDefault : Schema.holds defs (depth + 4) (RecordDescriptor.property field).2 value =
      Schema.holds defs (depth + 4) (schemaType field) value := by
    rw [Schema.holds, Schema.holds]
    rfl
  have hType : ∀ depth', bound ≤ depth' → value ≠ .null → (Schema.holds defs (depth' + 3)
          (constrain (kindSchema field.kind field.constraints) field.constraints) value = true ∧
        field.Strict strictly value ↔
      field.kind.Admits nested value ∧ field.constraints.Admit value) := by
    intro depth' hDepth' hNull
    have hKind := kind_agrees hFit hNested hVocabulary hDepth' hNull
    rw [holds_constrain hFit.2.1 (plain_kindSchema _ _)]
    constructor
    · rintro ⟨⟨hHolds, hKeywords⟩, hStrict⟩
      obtain ⟨hAdmits, hContainer⟩ := hKind.mp ⟨hHolds, hStrict⟩
      exact ⟨hAdmits, (admit_iff hFit hAdmits).mpr ⟨hContainer, hKeywords⟩⟩
    · rintro ⟨hAdmits, hAdmit⟩
      obtain ⟨hContainer, hKeywords⟩ := (admit_iff hFit hAdmits).mp hAdmit
      obtain ⟨hHolds, hStrict⟩ := hKind.mpr ⟨hAdmits, hContainer⟩
      exact ⟨⟨hHolds, hKeywords⟩, hStrict⟩
  rw [hDefault, schemaType, Field.Admits]
  by_cases hNull : value = .null
  · subst hNull
    rw [if_pos rfl]
    cases hNullable : field.nullable with
    | true =>
      simp only [if_true, holds_nullable, or_true, true_and, iff_true]
      exact strict_of_null hNullable hNested
    | false =>
      simp only [Bool.false_eq_true, if_false, iff_false]
      rw [holds_constrain hFit.2.1 (plain_kindSchema _ _)]
      rintro ⟨⟨hHolds, -⟩, hStrict⟩
      have hDeeper : bound ≤ depth + 1 := by omega
      exact kind_refuses_null hNullable hNested hVocabulary hDeeper ⟨hHolds, hStrict⟩
  · rw [if_neg hNull]
    cases hNullable : field.nullable with
    | true =>
      simp only [if_true, holds_nullable, hNull, or_false]
      exact hType depth hDepth hNull
    | false =>
      simp only [Bool.false_eq_true, if_false]
      exact hType (depth + 1) (by omega) hNull

end FieldTypes

/-! ## Record definitions -/

structure RecordDescriptor.RulesPublished (r : RecordDescriptor) : Prop where
  described : ∀ rule ∈ r.rules, ∀ name ∈ rule.ignoresFields, name ∈ r.names
  optional : ∀ rule ∈ r.rules, ∀ field ∈ r.fields, field.name ∈ rule.ignoresFields →
    field.isRequired = false
  covered : ∀ rule ∈ r.rules, rule.ignoresFields ≠ [] → ∀ field ∈ r.fields,
    field.name = rule.whenField → ∀ vocabulary ∈ field.kind.vocabularies,
      ∀ spelling ∈ vocabulary.spellings, ∃ rule' ∈ r.rules, rule'.whenEquals = spelling

section Properties

theorem assignProperty_map (fields : List Field) (hNodup : (fields.map (·.name)).Nodup)
    (type : Field → Schema) (name : String) (hName : name ∈ fields.map (·.name)) (s : Schema) :
    assignProperty (fields.map fun field => (field.name, type field)) name s =
      fields.map fun field => (field.name, if field.name = name then s else type field) := by
  induction fields with
  | nil => simp at hName
  | cons first rest ih =>
    rw [List.map_cons, List.nodup_cons] at hNodup
    rw [List.map_cons, List.map_cons, assignProperty]
    by_cases hFirst : first.name = name
    · have hOthers : ∀ field ∈ rest, field.name ≠ name := by
        intro field hField hEq
        exact hNodup.1 (hFirst ▸ hEq ▸ List.mem_map_of_mem hField)
      simp only [hFirst, if_true, List.cons.injEq, true_and]
      exact List.map_congr_left fun field hField => by rw [if_neg (hOthers field hField)]
    · have hRest : name ∈ rest.map (·.name) := by
        rw [List.map_cons, List.mem_cons] at hName
        exact hName.resolve_left fun h => hFirst h.symm
      simp only [hFirst, if_false, ih hNodup.2 hRest]

theorem ignoring_map (fields : List Field) (hNodup : (fields.map (·.name)).Nodup)
    (names : List String) (hNames : ∀ name ∈ names, name ∈ fields.map (·.name))
    (type : Field → Schema) :
    RecordDescriptor.ignoring (fields.map fun field => (field.name, type field)) names =
      fields.map fun field => (field.name, if field.name ∈ names then {} else type field) := by
  unfold RecordDescriptor.ignoring
  induction names generalizing type with
  | nil => simp
  | cons name rest ih =>
    rw [List.foldl_cons, assignProperty_map fields hNodup type name (hNames name (by simp)),
      ih fun n hMem => hNames n (List.mem_cons_of_mem _ hMem)]
    refine List.map_congr_left fun field _ => ?_
    by_cases hRest : field.name ∈ rest
    · simp [hRest]
    · by_cases hFirst : field.name = name
      · simp [hFirst]
      · simp [hRest, hFirst]

theorem foldl_ignoring_map (fields : List Field) (hNodup : (fields.map (·.name)).Nodup)
    (rules : List Rule)
    (hNames : ∀ rule ∈ rules, ∀ name ∈ rule.ignoresFields, name ∈ fields.map (·.name))
    (type : Field → Schema) :
    rules.foldl (fun acc rule => RecordDescriptor.ignoring acc rule.ignoresFields)
        (fields.map fun field => (field.name, type field)) =
      fields.map fun field => (field.name,
        if ∃ rule ∈ rules, field.name ∈ rule.ignoresFields then {} else type field) := by
  induction rules generalizing type with
  | nil => simp
  | cons rule rest ih =>
    rw [List.foldl_cons, ignoring_map fields hNodup _ (hNames rule (by simp)),
      ih fun r hMem => hNames r (List.mem_cons_of_mem _ hMem)]
    refine List.map_congr_left fun field _ => ?_
    by_cases hRest : ∃ rule ∈ rest, field.name ∈ rule.ignoresFields
    · have hAny : ∃ r ∈ rule :: rest, field.name ∈ r.ignoresFields := by
        obtain ⟨r, hMem, hName⟩ := hRest
        exact ⟨r, List.mem_cons_of_mem _ hMem, hName⟩
      rw [if_pos hRest, if_pos hAny]
    · rw [if_neg hRest]
      by_cases hFirst : field.name ∈ rule.ignoresFields
      · rw [if_pos hFirst, if_pos ⟨rule, by simp, hFirst⟩]
      · have hNone : ¬ ∃ r ∈ rule :: rest, field.name ∈ r.ignoresFields := by
          rintro ⟨r, hMem, hName⟩
          rcases List.mem_cons.mp hMem with rfl | hMem
          · exact hFirst hName
          · exact hRest ⟨r, hMem, hName⟩
        rw [if_neg hFirst, if_neg hNone]

end Properties

section Records

variable {defs : Definitions} {r : RecordDescriptor} {value : Json}

variable (depth : Nat)

theorem holds_empty (value : Json) : Schema.holds defs (depth + 1) {} value = true := by
  cases value <;>
    simp [Schema.holds, Schema.assertions, Schema.childrenHold, Schema.combinedHold, Json.number?]

theorem holds_const (s : String) (value : Json) :
    Schema.holds defs (depth + 1) { const := some (.str s) } value = true ↔ value = .str s := by
  have hHolds : Schema.holds defs (depth + 1) { const := some (.str s) } value =
      Json.equals value (.str s) := by
    rw [Schema.holds]
    cases value <;>
      simp only [Schema.assertions, Schema.childrenHold, Schema.combinedHold, Json.number?,
        Option.all_none, Option.all_some, Bool.true_and, Bool.and_true, List.all_nil,
        Bool.true_or, Nat.zero_le, decide_true]
  rw [hHolds, equals_str_iff]

theorem holds_anyRequired (names : List String) (entries : List (String × Json)) :
    (anyRequired names).all (fun s => !s.holds defs (depth + 2) (.obj entries)) = true ↔
      ∀ name ∈ names, Json.find? (.obj entries) name = none := by
  have hName : ∀ name, Schema.holds defs (depth + 1) { required := [name] } (.obj entries) =
      (Json.find? (.obj entries) name).isSome := by
    intro name
    simp [Schema.holds, Schema.assertions, Schema.childrenHold, Schema.combinedHold]
  unfold anyRequired
  cases names with
  | nil => simp
  | cons first rest =>
    rw [if_neg (by simp), Option.all_some, Schema.holds]
    simp [Schema.assertions, Schema.childrenHold, Schema.combinedHold, hName]

theorem holds_condition (rule : Rule) (entries : List (String × Json)) :
    Schema.holds defs (depth + 2)
        { properties := [(rule.whenField, { const := some (.str rule.whenEquals) })]
          required := [rule.whenField] } (.obj entries) = true ↔
      rule.Selected (.obj entries) := by
  rw [Schema.holds]
  simp only [Schema.assertions, Schema.childrenHold, Schema.combinedHold, Option.all_none,
    Bool.true_and, Bool.and_true, List.all_nil, List.all_cons, Bool.true_or, Bool.and_eq_true,
    Rule.Selected]
  cases hFind : Json.find? (.obj entries) rule.whenField with
  | none => simp
  | some w => simp [holds_const]

theorem isSome_lookup_map (fields : List Field) (type : Field → Schema) (key : String) :
    ((fields.map fun field => (field.name, type field)).lookup key).isSome = true ↔
      key ∈ fields.map (·.name) := by
  induction fields with
  | nil => simp
  | cons first rest ih =>
    rw [List.map_cons, List.lookup_cons, List.map_cons, List.mem_cons]
    by_cases h : key = first.name
    · simp [h]
    · simpa [h, beq_eq_false_iff_ne.mpr h] using ih

theorem holds_object (type : Option JsonType) (fields : List Field) (schema : Field → Schema)
    (required forbids : List String) (additional : Bool) (branches : List Schema)
    (entries : List (String × Json)) (hType : type.all (·.holds (.obj entries)) = true) :
    Schema.holds defs (depth + 3)
        { type := type
          properties := fields.map fun field => (field.name, schema field)
          required := required
          not := anyRequired forbids
          additionalProperties := additional
          allOf := branches } (.obj entries) = true ↔
      (∀ name ∈ required, (Json.find? (.obj entries) name).isSome = true) ∧
      (additional = false → ∀ entry ∈ entries, entry.1 ∈ fields.map (·.name)) ∧
      (∀ field ∈ fields, ∀ w, Json.find? (.obj entries) field.name = some w →
        (schema field).holds defs (depth + 2) w = true) ∧
      (∀ name ∈ forbids, Json.find? (.obj entries) name = none) ∧
      ∀ branch ∈ branches, branch.holds defs (depth + 2) (.obj entries) = true := by
  have hKnown : (additional || entries.all fun entry =>
        ((fields.map fun field => (field.name, schema field)).lookup entry.1).isSome) = true ↔
      (additional = false → ∀ entry ∈ entries, entry.1 ∈ fields.map (·.name)) := by
    cases additional
    · simp only [Bool.false_or, List.all_eq_true, isSome_lookup_map, forall_const]
    · simp
  have hProperties : ((fields.map fun field => (field.name, schema field)).all fun property =>
        (Json.find? (.obj entries) property.1).all (property.2.holds defs (depth + 2))) = true ↔
      ∀ field ∈ fields, ∀ w, Json.find? (.obj entries) field.name = some w →
        (schema field).holds defs (depth + 2) w = true := by
    simp only [List.all_map, List.all_eq_true, Function.comp_apply, option_all_iff, Option.mem_def]
  rw [Schema.holds]
  simp only [Schema.assertions, Schema.childrenHold, Schema.combinedHold, Option.all_none,
    Bool.true_and, Bool.and_true, Bool.and_eq_true, hType, hKnown, hProperties,
    holds_anyRequired, List.all_eq_true]
  tauto

theorem holds_branch (hNames : r.names.Nodup) {rule : Rule}
    (hDescribed : ∀ name ∈ rule.ignoresFields, name ∈ r.names) (depth : Nat)
    (entries : List (String × Json)) :
    (r.branch rule).holds defs (depth + 4) (.obj entries) = true ↔ (rule.Selected (.obj entries) →
        (∀ name ∈ rule.requiresFields, (Json.find? (.obj entries) name).isSome = true) ∧
        (rule.closed = true → ∀ entry ∈ entries, entry.1 ∈ r.names) ∧
        (∀ field ∈ r.fields, field.name ∉ rule.ignoresFields →
          ∀ w, Json.find? (.obj entries) field.name = some w →
            (RecordDescriptor.property field).2.holds defs (depth + 2) w = true) ∧
        ∀ name ∈ rule.forbidsFields, Json.find? (.obj entries) name = none) := by
  have hProps : RecordDescriptor.ignoring r.properties rule.ignoresFields =
      r.fields.map fun field => (field.name,
        if field.name ∈ rule.ignoresFields then {} else (RecordDescriptor.property field).2) :=
    ignoring_map r.fields hNames _ hDescribed _
  have hFields : (∀ field ∈ r.fields, ∀ w, Json.find? (.obj entries) field.name = some w →
      Schema.holds defs (depth + 2)
        (if field.name ∈ rule.ignoresFields then {} else (RecordDescriptor.property field).2)
        w = true) ↔
      ∀ field ∈ r.fields, field.name ∉ rule.ignoresFields →
        ∀ w, Json.find? (.obj entries) field.name = some w →
          (RecordDescriptor.property field).2.holds defs (depth + 2) w = true := by
    refine forall₂_congr fun field _ => ?_
    by_cases h : field.name ∈ rule.ignoresFields
    · simp [h, holds_empty]
    · simp [h]
  rw [RecordDescriptor.branch, Schema.holds]
  simp only [Schema.assertions, Schema.childrenHold, Schema.combinedHold, Option.all_none,
    Bool.true_and, Bool.and_true, List.all_nil, Option.all_some, Bool.true_or, hProps]
  have hCondition : Schema.holds defs (depth + 3) _ (.obj entries) = true ↔ _ :=
    holds_condition (depth + 1) rule entries
  by_cases hSelected : rule.Selected (.obj entries)
  · rw [if_pos (hCondition.mpr hSelected), holds_object depth none r.fields _ rule.requiresFields
      rule.forbidsFields (!rule.closed) [] entries (by simp), hFields]
    simp only [hSelected, forall_const, Bool.not_eq_false', List.not_mem_nil, false_implies,
      implies_true, and_true]
    rfl
  · rw [if_neg fun h => hSelected (hCondition.mp h)]
    simp [hSelected]

theorem holds_entry (hNames : r.names.Nodup) (hPublished : r.RulesPublished) (depth : Nat)
    (entries : List (String × Json)) : r.entry.holds defs (depth + 3) (.obj entries) = true ↔
      (∀ field ∈ r.fields, field.isRequired = true →
        (Json.find? (.obj entries) field.name).isSome = true) ∧
      (r.unknown = .reject → ∀ entry ∈ entries, entry.1 ∈ r.names) ∧
      (∀ field ∈ r.fields, (∀ rule ∈ r.rules, field.name ∉ rule.ignoresFields) →
        ∀ w, Json.find? (.obj entries) field.name = some w →
          (RecordDescriptor.property field).2.holds defs (depth + 2) w = true) ∧
      (∀ name ∈ r.forbidden, Json.find? (.obj entries) name = none) ∧
      ∀ rule ∈ r.rules, (r.branch rule).holds defs (depth + 2) (.obj entries) = true := by
  have hProps : r.rules.foldl (fun acc rule => RecordDescriptor.ignoring acc rule.ignoresFields)
        r.properties =
      r.fields.map fun field => (field.name,
        if ∃ rule ∈ r.rules, field.name ∈ rule.ignoresFields then {}
        else (RecordDescriptor.property field).2) :=
    foldl_ignoring_map r.fields hNames r.rules hPublished.described _
  have hFields : (∀ field ∈ r.fields, ∀ w, Json.find? (.obj entries) field.name = some w →
      Schema.holds defs (depth + 2)
        (if ∃ rule ∈ r.rules, field.name ∈ rule.ignoresFields then {}
          else (RecordDescriptor.property field).2) w = true) ↔
      ∀ field ∈ r.fields, (∀ rule ∈ r.rules, field.name ∉ rule.ignoresFields) →
        ∀ w, Json.find? (.obj entries) field.name = some w →
          (RecordDescriptor.property field).2.holds defs (depth + 2) w = true := by
    refine forall₂_congr fun field _ => ?_
    by_cases h : ∃ rule ∈ r.rules, field.name ∈ rule.ignoresFields
    · obtain ⟨rule, hRule, hName⟩ := h
      have hNot : ¬ ∀ rule ∈ r.rules, field.name ∉ rule.ignoresFields :=
        fun hAll => hAll rule hRule hName
      simp [if_pos (show ∃ rule ∈ r.rules, field.name ∈ rule.ignoresFields from
        ⟨rule, hRule, hName⟩), hNot, holds_empty]
    · have hAll : ∀ rule ∈ r.rules, field.name ∉ rule.ignoresFields :=
        fun rule hRule hName => h ⟨rule, hRule, hName⟩
      rw [if_neg h]
      exact ⟨fun hHolds _ => hHolds, fun hHolds => hHolds hAll⟩
  rw [RecordDescriptor.entry, hProps, holds_object depth (some .object) r.fields _ _ r.forbidden
    (r.unknown != .reject) _ entries rfl, hFields]
  simp only [List.forall_mem_map, List.mem_filter, and_imp, bne_eq_false_iff_eq]
  rfl

theorem not_holds_entry (hObject : ∀ entries, value ≠ .obj entries) :
    ¬ r.entry.holds defs (depth + 1) value = true := by
  have hType : JsonType.object.holds value = false := by
    cases value with
    | obj entries => exact absurd rfl (hObject entries)
    | _ => rfl
  simp [Schema.holds, Schema.assertions, RecordDescriptor.entry, hType]

variable {bound : Nat} {nested strictly : Language}

theorem record_agrees (hReadable : r.RulesReadable) (hPublished : r.RulesPublished)
    (hFit : ∀ field ∈ r.fields, field.Fitting)
    (hNested : ∀ field ∈ r.fields, ∀ name ∈ field.kind.nestedNames,
      Published defs bound nested strictly name)
    (hVocabulary : ∀ field ∈ r.fields, ∀ vocabulary ∈ field.kind.vocabularies,
      defs.lookup vocabulary.name = some vocabulary.entry)
    {depth : Nat} (hDepth : bound ≤ depth) (value : Json) : r.Admits nested value ↔
      r.entry.holds defs (depth + 8) value = true ∧ r.Strict strictly value := by
  have hField : ∀ field ∈ r.fields, ∀ depth', bound ≤ depth' → ∀ w,
      Schema.holds defs (depth' + 4) (RecordDescriptor.property field).2 w = true ∧
        field.Strict strictly w ↔ field.Admits nested w :=
    fun field hMem depth' hDepth' w =>
      field_agrees (hFit field hMem) (hNested field hMem) (hVocabulary field hMem) hDepth' w
  by_cases hObject : ∃ entries, value = .obj entries
  swap
  · have hNot : ¬ r.entry.holds defs (depth + 8) value = true :=
      not_holds_entry (depth + 7) fun entries hEq => hObject ⟨entries, hEq⟩
    constructor
    · rintro ⟨⟨entries, hEq, -⟩, -⟩
      exact absurd ⟨entries, hEq⟩ hObject
    · exact fun h => absurd h.1 hNot
  obtain ⟨entries, rfl⟩ := hObject
  have hBranch : ∀ rule ∈ r.rules, (r.branch rule).holds defs (depth + 7) (.obj entries) = true ↔ _ :=
    fun rule hRule => holds_branch hReadable.names (hPublished.described rule hRule) (depth + 3) entries
  rw [holds_entry hReadable.names hPublished (depth + 5)]
  constructor
  · intro hAdmits
    obtain ⟨entries', hEq, hKnown⟩ := hAdmits.object
    cases hEq
    have hPresent : ∀ field ∈ r.fields, ¬ r.Ignores (.obj entries) field.name →
        ∀ w, Json.find? (.obj entries) field.name = some w → field.Admits nested w := by
      intro field hMem hNot w hFind
      simpa [Field.AdmittedIn, hFind] using hAdmits.fields field hMem hNot
    refine ⟨⟨?_, ?_, ?_, hAdmits.forbidden, ?_⟩, ?_⟩
    · intro field hMem hRequired
      have hNot : ¬ r.Ignores (.obj entries) field.name := by
        rintro ⟨rule, hRule, -, hName⟩
        simp [hPublished.optional rule hRule field hMem hName] at hRequired
      have hAdmitted := hAdmits.fields field hMem hNot
      cases hFind : Json.find? (.obj entries) field.name with
      | none => simp [Field.AdmittedIn, hFind, hRequired] at hAdmitted
      | some w => rfl
    · exact fun hReject => hKnown (.inl hReject)
    · intro field hMem hNone w hFind
      have hNot : ¬ r.Ignores (.obj entries) field.name := by
        rintro ⟨rule, hRule, -, hName⟩
        exact hNone rule hRule hName
      exact ((hField field hMem (depth + 3) (by omega) w).mpr (hPresent field hMem hNot w hFind)).1
    · intro rule hRule
      rw [hBranch rule hRule]
      intro hSelected
      refine ⟨hAdmits.requires rule hRule hSelected, ?_, ?_, hAdmits.forbids rule hRule hSelected⟩
      · exact fun hClosed => hKnown (.inr ⟨rule, hRule, hClosed, hSelected⟩)
      · intro field hMem hName w hFind
        have hNot : ¬ r.Ignores (.obj entries) field.name := by
          rintro ⟨rule', hRule', hSelected', hName'⟩
          exact hName (hReadable.selected_unique hRule' hRule hSelected' hSelected ▸ hName')
        exact ((hField field hMem (depth + 1) (by omega) w).mpr
          (hPresent field hMem hNot w hFind)).1
    · intro field hMem hNot w hFind
      exact ((hField field hMem depth hDepth w).mpr (hPresent field hMem hNot w hFind)).2
  · rintro ⟨⟨hRequired, hKnown, hTyped, hForbidden, hRules⟩, hStrict⟩
    have hPresent : ∀ field ∈ r.fields, ¬ r.Ignores (.obj entries) field.name →
        ∀ w, Json.find? (.obj entries) field.name = some w → field.Admits nested w := by
      intro field hMem hNot w hFind
      have hFieldStrict := hStrict field hMem hNot w hFind
      by_cases hNone : ∀ rule ∈ r.rules, field.name ∉ rule.ignoresFields
      · exact (hField field hMem (depth + 3) (by omega) w).mp
          ⟨hTyped field hMem hNone w hFind, hFieldStrict⟩
      · simp only [not_forall, not_not] at hNone
        obtain ⟨rule, hRule, hName⟩ := hNone
        -- some rule ignores the field, so the rules cover the selector: another one is selected
        obtain ⟨before, selector, after, hFields, hSelector, hWhen, hBefore⟩ :=
          hReadable.selector (List.ne_nil_of_mem hRule)
        have hSelMem : selector ∈ r.fields := by simp [hFields]
        have hSelNone : ∀ rule ∈ r.rules, selector.name ∉ rule.ignoresFields :=
          fun rule hRule => hBefore rule hRule selector (by simp)
        have hSelNot : ¬ r.Ignores (.obj entries) selector.name := by
          rintro ⟨rule', hRule', -, hName'⟩
          exact hSelNone rule' hRule' hName'
        obtain ⟨selected, hFound⟩ := Option.isSome_iff_exists.mp
          (hRequired selector hSelMem hSelector.2.1)
        have hSelAdmits := (hField selector hSelMem (depth + 3) (by omega) selected).mp
          ⟨hTyped selector hSelMem hSelNone selected hFound,
            hStrict selector hSelMem hSelNot selected hFound⟩
        obtain ⟨vocabulary, hKind⟩ := hSelector.2.2.2
        have hSpelling : ∃ s ∈ vocabulary.spellings, selected = .str s := by
          unfold Field.Admits at hSelAdmits
          by_cases hNull : selected = .null
          · simp [hNull, hSelector.2.2.1] at hSelAdmits
          · rw [if_neg hNull, hKind] at hSelAdmits
            exact hSelAdmits.1
        obtain ⟨spelling, hVocab, rfl⟩ := hSpelling
        obtain ⟨rule', hRule', hEquals⟩ := hPublished.covered rule hRule
          (List.ne_nil_of_mem hName) selector hSelMem (hWhen rule hRule).symm vocabulary
          (by simp [hKind, Kind.vocabularies]) spelling hVocab
        have hSelected' : rule'.Selected (.obj entries) := by
          rw [Rule.Selected, hWhen rule' hRule', hFound, hEquals]
        have hName' : field.name ∉ rule'.ignoresFields :=
          fun h => hNot ⟨rule', hRule', hSelected', h⟩
        have hThen := (hBranch rule' hRule').mp (hRules rule' hRule') hSelected'
        exact (hField field hMem (depth + 1) (by omega) w).mp
          ⟨hThen.2.2.1 field hMem hName' w hFind, hFieldStrict⟩
    exact
      { object := by
          refine ⟨entries, rfl, ?_⟩
          rintro (hReject | ⟨rule, hRule, hClosed, hSelected⟩)
          · exact hKnown hReject
          · exact ((hBranch rule hRule).mp (hRules rule hRule) hSelected).2.1 hClosed
        fields := by
          intro field hMem hNot
          unfold Field.AdmittedIn
          cases hFind : Json.find? (.obj entries) field.name with
          | none =>
            by_contra hReq
            have := hRequired field hMem (by simpa using hReq)
            simp [hFind] at this
          | some w => exact hPresent field hMem hNot w hFind
        forbidden := hForbidden
        requires := fun rule hRule hSelected =>
          ((hBranch rule hRule).mp (hRules rule hRule) hSelected).1
        forbids := fun rule hRule hSelected =>
          ((hBranch rule hRule).mp (hRules rule hRule) hSelected).2.2.2 }

end Records

/-! ## The declared records -/

def WellDeclared (defs : Definitions) : List RecordDescriptor → Prop
  | [] => True
  | r :: above =>
    (r.RulesReadable ∧ r.RulesPublished ∧ defs.lookup r.name = some r.entry ∧
      ∀ field ∈ r.fields, field.Fitting ∧
        (∀ name ∈ field.kind.nestedNames, name ∈ above.map (·.name)) ∧
        ∀ vocabulary ∈ field.kind.vocabularies,
          defs.lookup vocabulary.name = some vocabulary.entry) ∧
    WellDeclared defs above

theorem WellDeclared.readable {defs : Definitions} {declared : List RecordDescriptor}
    (hDeclared : WellDeclared defs declared) : ∀ r ∈ declared, r.RulesReadable := by
  induction declared with
  | nil => simp
  | cons r above ih =>
    intro r' hMem
    rcases List.mem_cons.mp hMem with rfl | hMem
    · exact hDeclared.1.1
    · exact ih hDeclared.2 r' hMem

theorem published_declared {defs : Definitions} (hDeclared : WellDeclared defs declared) :
    ∀ name ∈ declared.map (·.name),
      Published defs (8 * declared.length) (language declared) (strict declared) name := by
  induction declared with
  | nil => simp
  | cons r above ih =>
    obtain ⟨⟨hReadable, hPublished, hLookup, hFields⟩, hAbove⟩ := hDeclared
    have hNested := ih hAbove
    intro name hName
    refine ⟨?_, not_language_null _ name, strict_null _ name⟩
    intro depth hDepth value
    rw [List.length_cons] at hDepth
    by_cases hFirst : r.name = name
    · obtain ⟨deeper, rfl⟩ : ∃ deeper, depth = deeper + 8 := ⟨depth - 8, by omega⟩
      have hDeeper : 8 * above.length ≤ deeper := by omega
      simp only [language, strict, if_pos hFirst]
      rw [← hFirst, hLookup, Option.any_some]
      exact record_agrees hReadable hPublished (fun field hMem => (hFields field hMem).1)
        (fun field hMem nestedName hNestedName =>
          hNested nestedName ((hFields field hMem).2.1 nestedName hNestedName))
        (fun field hMem => (hFields field hMem).2.2) hDeeper value
    · have hRest : name ∈ above.map (·.name) := by
        rw [List.map_cons, List.mem_cons] at hName
        exact hName.resolve_left fun h => hFirst h.symm
      simp only [language, strict, if_neg hFirst]
      exact (hNested name hRest).agrees depth (by omega) value

/-! ## The wire records -/

section Lookup

variable {records : List RecordDescriptor} {vocabularies : List EnumDescriptor}

theorem lookup_append_left {α : Type} {xs ys : List (String × α)} {key : String} {value : α}
    (h : xs.lookup key = some value) : (xs ++ ys).lookup key = some value := by
  rw [List.lookup_append, h]
  rfl

theorem lookup_map_of_mem {α β : Type} {items : List α} {name : α → String} {entry : α → β}
    (hNodup : (items.map name).Nodup) {item : α} (hMem : item ∈ items) :
    (items.map fun i => (name i, entry i)).lookup (name item) = some (entry item) := by
  induction items with
  | nil => cases hMem
  | cons first rest ih =>
    rw [List.map_cons, List.nodup_cons] at hNodup
    rcases List.mem_cons.mp hMem with rfl | hMem
    · simp
    · have hNe : name item ≠ name first := by
        intro hEq
        exact hNodup.1 (hEq ▸ List.mem_map_of_mem hMem)
      rw [List.map_cons, List.lookup_cons, beq_eq_false_iff_ne.mpr hNe]
      exact ih hNodup.2 hMem

theorem lookup_map_of_not_mem {α β : Type} {items : List α} {name : α → String} {entry : α → β}
    {key : String} (hKey : key ∉ items.map name) :
    (items.map fun i => (name i, entry i)).lookup key = none := by
  induction items with
  | nil => rfl
  | cons first rest ih =>
    rw [List.map_cons, List.mem_cons, not_or] at hKey
    rw [List.map_cons, List.lookup_cons, beq_eq_false_iff_ne.mpr hKey.1]
    exact ih hKey.2

theorem lookup_record (hNames : (records.map (·.name) ++ vocabularies.map (·.name)).Nodup)
    {r : RecordDescriptor} (hMem : r ∈ records) :
    (definitions records vocabularies).lookup r.name = some r.entry :=
  lookup_append_left (lookup_map_of_mem (List.nodup_append.mp hNames).1 hMem)

theorem lookup_vocabulary (hNames : (records.map (·.name) ++ vocabularies.map (·.name)).Nodup)
    {vocabulary : EnumDescriptor} (hMem : vocabulary ∈ vocabularies) :
    (definitions records vocabularies).lookup vocabulary.name = some vocabulary.entry := by
  have hApart : vocabulary.name ∉ records.map (·.name) := by
    intro hName
    exact (List.nodup_append.mp hNames).2.2 _ hName _ (List.mem_map_of_mem hMem) rfl
  rw [definitions, List.lookup_append, lookup_map_of_not_mem hApart, Option.none_or]
  exact lookup_map_of_mem (List.nodup_append.mp hNames).2.1 hMem

end Lookup

/-! ## The audit of the descriptors

The conditions above, as a check that can be run on a list of declarations. -/

def Kind.isEnumeration : Kind → Bool
  | .enumeration _ => true
  | _ => false

theorem Kind.isEnumeration_iff (kind : Kind) :
    kind.isEnumeration = true ↔ ∃ vocabulary, kind = .enumeration vocabulary := by
  cases kind <;> simp [isEnumeration]

def Field.fits (field : Field) : Bool :=
  (field.constraints.constant.isNone || field.kind = .text || field.kind.isEnumeration) &&
  field.constraints.minimum.isNone && field.constraints.maximum.isNone &&
  (!(field.constraints.objectOnly || field.constraints.emptyObject) || field.kind = .any)

theorem Field.fitting_of_fits {field : Field} (h : field.fits = true) : field.Fitting := by
  simp only [fits, Bool.and_eq_true, Bool.or_eq_true, decide_eq_true_eq, Option.isNone_iff_eq_none,
    Kind.isEnumeration_iff] at h
  obtain ⟨⟨⟨hConstant, hMin⟩, hMax⟩, hObject⟩ := h
  refine ⟨?_, ⟨hMin, hMax⟩, ?_⟩
  · intro hSome
    rcases hConstant with (hNone | hText) | ⟨vocabulary, hKind⟩
    · exact absurd hNone hSome
    · exact .inl hText
    · exact .inr ⟨vocabulary, by simp [hKind, Kind.vocabularies], hKind⟩
  · intro hFlags
    rcases hObject with hNot | hAny
    · simp [hFlags] at hNot
    · exact hAny

def Field.selects (field : Field) : Bool :=
  !field.optional && field.isRequired && !field.nullable && field.kind.isEnumeration

theorem Field.isSelector_iff (field : Field) :
    RecordDescriptor.IsSelector field ↔ field.selects = true := by
  simp [RecordDescriptor.IsSelector, selects, Kind.isEnumeration_iff, and_assoc]

namespace RecordDescriptor

/-- The selector of the rules stands before every field that one of them ignores. -/
def auditSelector (r : RecordDescriptor) : Bool :=
  match r.rules with
  | [] => true
  | rule :: _ =>
    match r.fields.dropWhile (·.name ≠ rule.whenField) with
    | [] => false
    | selector :: _ =>
      selector.selects && r.rules.all (·.whenField = selector.name) &&
      r.rules.all fun rule' =>
        (r.fields.takeWhile (·.name ≠ rule.whenField) ++ [selector]).all
          fun field => !rule'.ignoresFields.contains field.name

/-- What the rules require or forbid is an optional field that they do not ignore. -/
def auditSubjects (r : RecordDescriptor) : Bool :=
  r.rules.all fun rule =>
    (rule.requiresFields ++ rule.forbidsFields).all fun name =>
      !rule.ignoresFields.contains name &&
      r.fields.any fun field => field.name = name && field.optional && !field.nullable

/-- What the rules ignore is optional, and the rules cover the selector. -/
def auditIgnored (r : RecordDescriptor) : Bool :=
  r.rules.all fun rule =>
    rule.ignoresFields.all (r.names.contains ·) &&
    r.fields.all (fun field => !rule.ignoresFields.contains field.name || !field.isRequired) &&
    (rule.ignoresFields.isEmpty || r.fields.all fun field =>
      field.name ≠ rule.whenField || field.kind.vocabularies.all fun vocabulary =>
        vocabulary.spellings.all fun spelling => r.rules.any (·.whenEquals = spelling))

def auditEnvelope (r : RecordDescriptor) : Bool :=
  r.wireValidate.all fun spelling =>
    r.rules.isEmpty && r.fields.any fun field =>
      field.name = "type" && field.selects && field.constraints.constant = some spelling

def audit (r : RecordDescriptor) : Bool :=
  r.names.Nodup && (r.rules.map (·.whenEquals)).Nodup &&
  r.fields.all (fun field => !field.optional || field.initial.isNone) &&
  r.auditSelector && r.auditSubjects && r.auditIgnored && r.auditEnvelope

theorem selector_of_audit {r : RecordDescriptor} (h : r.auditSelector = true)
    (hRules : r.rules ≠ []) : ∃ before selector after,
    r.fields = before ++ selector :: after ∧ IsSelector selector ∧
    (∀ rule ∈ r.rules, rule.whenField = selector.name) ∧
    ∀ rule ∈ r.rules, ∀ field ∈ before ++ [selector], field.name ∉ rule.ignoresFields := by
  unfold auditSelector at h
  split at h
  · rename_i hNone
    exact absurd hNone hRules
  · rename_i rule others hCons
    split at h
    · cases h
    · rename_i selector after hDrop
      simp only [Bool.and_eq_true, List.all_eq_true, decide_eq_true_eq, Bool.not_eq_true',
        List.contains_eq_mem, decide_eq_false_iff_not] at h
      refine ⟨_, selector, after, ?_, (Field.isSelector_iff selector).mpr h.1.1, h.1.2, h.2⟩
      rw [← hDrop, List.takeWhile_append_dropWhile]

theorem readable_of_audit {r : RecordDescriptor} (h : r.audit = true) : r.RulesReadable := by
  simp only [audit, Bool.and_eq_true, decide_eq_true_eq, List.all_eq_true, Bool.or_eq_true,
    Bool.not_eq_true'] at h
  obtain ⟨⟨⟨⟨⟨⟨hNames, hSpellings⟩, hInitial⟩, hSelector⟩, hSubjects⟩, -⟩, hEnvelope⟩ := h
  refine
    { names := hNames
      spellings := hSpellings
      initial := fun field hMem hOptional =>
        (hInitial field hMem).resolve_left (by simp [hOptional])
      selector := selector_of_audit hSelector
      subjects := ?_
      envelope := ?_ }
  · intro rule hRule name hName
    simp only [auditSubjects, List.all_eq_true, Bool.and_eq_true, List.any_eq_true,
      decide_eq_true_eq, Bool.not_eq_true', List.contains_eq_mem, decide_eq_false_iff_not]
      at hSubjects
    obtain ⟨hKept, field, hMem, ⟨hField, hOptional⟩, hNullable⟩ := hSubjects rule hRule name hName
    exact ⟨hKept, field, hMem, hField, hOptional, hNullable⟩
  · intro spelling hSpelling
    rw [Option.mem_def] at hSpelling
    simp only [auditEnvelope, hSpelling, Option.all_some, Bool.and_eq_true, List.isEmpty_iff,
      List.any_eq_true, decide_eq_true_eq] at hEnvelope
    obtain ⟨hNone, field, hMem, ⟨hName, hSelects⟩, hConstant⟩ := hEnvelope
    exact ⟨hNone, field, hMem, hName, (Field.isSelector_iff field).mpr hSelects, hConstant⟩

theorem published_of_audit {r : RecordDescriptor} (h : r.audit = true) : r.RulesPublished := by
  simp only [audit, Bool.and_eq_true] at h
  have hIgnored := h.1.2
  simp only [auditIgnored, List.all_eq_true, Bool.and_eq_true, Bool.or_eq_true, Bool.not_eq_true',
    List.contains_eq_mem, decide_eq_true_eq, decide_eq_false_iff_not, List.isEmpty_iff,
    List.any_eq_true] at hIgnored
  exact
    { described := fun rule hRule => (hIgnored rule hRule).1.1
      optional := fun rule hRule field hMem hName =>
        ((hIgnored rule hRule).1.2 field hMem).resolve_left fun hNot => hNot hName
      covered := by
        intro rule hRule hSome field hMem hWhen vocabulary hVocabulary spelling hSpelling
        have hAll := (hIgnored rule hRule).2.resolve_left hSome
        exact (hAll field hMem).resolve_left (fun hNot => hNot hWhen) vocabulary hVocabulary
          spelling hSpelling }

end RecordDescriptor

def auditDeclared (vocabularies : List EnumDescriptor) : List RecordDescriptor → Bool
  | [] => true
  | r :: above =>
    r.audit &&
    r.fields.all (fun field =>
      field.fits && field.kind.nestedNames.all ((above.map (·.name)).contains ·) &&
      field.kind.vocabularies.all (vocabularies.contains ·)) &&
    auditDeclared vocabularies above

theorem wellDeclared_of_audit {records : List RecordDescriptor} {vocabularies : List EnumDescriptor}
    (hNames : (records.map (·.name) ++ vocabularies.map (·.name)).Nodup)
    (declared : List RecordDescriptor) (hRecords : ∀ r ∈ declared, r ∈ records)
    (hAudit : auditDeclared vocabularies declared = true) :
    WellDeclared (definitions records vocabularies) declared := by
  induction declared with
  | nil => trivial
  | cons r above ih =>
    simp only [auditDeclared, Bool.and_eq_true, List.all_eq_true, List.contains_iff_mem] at hAudit
    obtain ⟨⟨hRecord, hFields⟩, hAbove⟩ := hAudit
    refine ⟨⟨RecordDescriptor.readable_of_audit hRecord,
      RecordDescriptor.published_of_audit hRecord,
      lookup_record hNames (hRecords r (by simp)), ?_⟩,
      ih (fun r' hMem => hRecords r' (List.mem_cons_of_mem _ hMem)) hAbove⟩
    intro field hMem
    obtain ⟨⟨hFits, hNested⟩, hVocabulary⟩ := hFields field hMem
    exact ⟨Field.fitting_of_fits hFits, hNested,
      fun vocabulary hIn => lookup_vocabulary hNames (hVocabulary vocabulary hIn)⟩

theorem wire_wellDeclared : WellDeclared jsonSchema Wire.declarations := by
  apply wellDeclared_of_audit
  · decide +kernel
  · intro r hMem
    rw [Wire.declarations, List.mem_reverse, List.mem_cons] at hMem
    rcases hMem with rfl | hMem
    · simp [Wire.recordRegistry]
    · exact hMem
  · decide +kernel

/-! ## Agreement -/

def Validates (depth : Nat) (name : String) (value : Json) : Prop :=
  (jsonSchema.lookup name).any (fun target => target.holds jsonSchema depth value) = true

def schemaDepth : Nat := 8 * Wire.declarations.length

/-- The codec accepts a registered record exactly when the published schema validates it
and it is strict; so the two agree on a value unless it is valid and not strict. -/
theorem accepts_iff_validates_iff_strict (r : RecordDescriptor) (hMem : r ∈ Wire.recordRegistry)
    (depth : Nat) (hDepth : schemaDepth ≤ depth) (value : Json) (path : String) :
    ((fromJson Wire.declarations r.name value path).isOk = true ↔ Validates depth r.name value) ↔
      (Validates depth r.name value → strict Wire.declarations r.name value) := by
  have hName : r.name ∈ Wire.declarations.map (·.name) := by
    rw [Wire.declarations, List.map_reverse, List.mem_reverse, List.map_cons]
    exact List.mem_cons_of_mem _ (List.mem_map_of_mem hMem)
  have hAgrees := (published_declared Wire.declarations wire_wellDeclared r.name hName).agrees
    depth hDepth value
  have hReads := reads_fromJson Wire.declarations wire_wellDeclared.readable r.name value path
  rw [← accepted_iff_isOk, hReads, hAgrees]
  unfold Validates
  tauto

/-- A content part whose open metadata field is an explicit null. -/
def nullExtras : Json :=
  .obj [("extras", .null), ("modality", .str "text"), ("raw", .str ""), ("type", .str "text")]

/-- A usage report with one count in floating form. -/
def floatingPrompt : Json :=
  .obj [("cache_hit", Json.uint 0), ("generated", Json.uint 0), ("prompt", .float 1)]

theorem nullExtras_and_floatingPrompt_disagree :
    ¬ ((fromJson Wire.declarations Wire.content.name nullExtras "").isOk = true ↔
        Validates schemaDepth Wire.content.name nullExtras) ∧
    ¬ ((fromJson Wire.declarations Wire.usage.name floatingPrompt "").isOk = true ↔
        Validates schemaDepth Wire.usage.name floatingPrompt) := by
  unfold Validates
  constructor
  · decide +kernel
  · decide +kernel

theorem accepts_iff_validates_nullExtras : ¬ (Validates schemaDepth Wire.content.name nullExtras →
      strict Wire.declarations Wire.content.name nullExtras) := by
  rw [← accepts_iff_validates_iff_strict Wire.content (by simp [Wire.recordRegistry]) schemaDepth
    (Nat.le_refl _) nullExtras ""]
  unfold Validates
  decide +kernel

end SimplexAgent.Protocol
