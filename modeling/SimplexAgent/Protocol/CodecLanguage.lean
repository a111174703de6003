import SimplexAgent.Protocol.Schema

/-!
# The language of the codec

What `fromJson` accepts, without the paths, the messages and the order in which fields
are read. The language of a record is stated over the languages of the records it
nests: every field that the selected rule does not ignore is admitted, the forbidden
names are absent, a closed scope has only described keys, and the selected rule's
requirements hold.

The reader decides which fields to ignore from the members it has read so far. That
agrees with the value itself because the selector of the rules is read before every
field that some rule ignores, `Selects` below.
-/

namespace SimplexAgent.Protocol

open Dataclass

/-! ## Acceptance -/

section Accepted

variable {ε α β : Type}

/-- The reader returned. -/
def Accepted (result : Except ε α) : Prop := ∃ value, result = .ok value

@[simp] theorem accepted_ok (value : α) : Accepted (.ok value : Except ε α) := ⟨value, rfl⟩

@[simp] theorem not_accepted_error (error : ε) : ¬ Accepted (.error error : Except ε α) := by
  rintro ⟨value, h⟩
  cases h

theorem accepted_iff_isOk (result : Except ε α) : Accepted result ↔ result.isOk = true := by
  cases result <;> simp [Except.isOk, Except.toBool]

theorem accepted_bind (x : Except ε α) (f : α → Except ε β) :
    Accepted (x >>= f) ↔ ∃ value, x = .ok value ∧ Accepted (f value) := by
  cases x with
  | error error | ok value => simp [bind, Except.bind]

/-- A computation followed by one that does not use its result. -/
@[simp] theorem accepted_seq (x : Except ε α) (y : Except ε β) :
    Accepted (x >>= fun _ => y) ↔ Accepted x ∧ Accepted y := by
  cases x with
  | error error | ok value => simp [bind, Except.bind]

@[simp] theorem accepted_map (x : Except ε α) (f : α → β) :
    Accepted (x >>= fun value => .ok (f value)) ↔ Accepted x := by
  cases x with
  | error error | ok value => simp [bind, Except.bind]

theorem accepted_refuse (c : Prop) [Decidable c] (error : ε) (x : Except ε α) :
    Accepted (if c then .error error else x) ↔ ¬ c ∧ Accepted x := by
  by_cases h : c
  · simp [h]
  · simp [h]

theorem accepted_require (c : Prop) [Decidable c] (value : α) (error : ε) :
    Accepted (if c then .ok value else .error error) ↔ c := by
  by_cases h : c
  · simp [h]
  · simp [h]

theorem option_any_eq_false (o : Option α) (p : α → Bool) :
    ¬ o.any p = true ↔ ∀ value ∈ o, p value = false := by
  cases o <;> simp

theorem accepted_forM (f : α → Except ε PUnit) (items : List α) :
    Accepted (items.forM f) ↔ ∀ item ∈ items, Accepted (f item) := by
  induction items with
  | nil => simp [pure, Except.pure]
  | cons item rest ih =>
    show Accepted (f item >>= fun _ => rest.forM f) ↔ _
    rw [accepted_seq, ih]
    simp

theorem accepted_mapM (f : α → Except ε β) (items : List α) :
    Accepted (items.mapM f) ↔ ∀ item ∈ items, Accepted (f item) := by
  induction items with
  | nil => simp [pure, Except.pure]
  | cons item rest ih =>
    rw [List.mapM_cons]
    constructor
    · intro h
      obtain ⟨first, hFirst, h⟩ := (accepted_bind _ _).mp h
      obtain ⟨others, hOthers, -⟩ := (accepted_bind _ _).mp h
      intro entry hEntry
      rcases List.mem_cons.mp hEntry with rfl | hEntry
      · exact ⟨first, hFirst⟩
      · exact ih.mp ⟨others, hOthers⟩ entry hEntry
    · intro h
      obtain ⟨first, hFirst⟩ := h item (by simp)
      obtain ⟨others, hOthers⟩ := ih.mpr fun entry hEntry =>
        h entry (List.mem_cons_of_mem _ hEntry)
      exact ⟨first :: others, by simp [hFirst, hOthers, bind, Except.bind, pure, Except.pure]⟩

end Accepted

/-! ## Values -/

/-- The values of the nested records, by wire name. -/
abbrev Language := String → Json → Prop

def Kind.Admits (nested : Language) (kind : Kind) (value : Json) : Prop :=
  match kind with
  | .any => True
  | .text => ∃ s, value = .str s
  | .boolean => ∃ b, value = .bool b
  | .integer => ∃ n, value = .integer n ∧ 0 ≤ n.value
  | .enumeration vocabulary => ∃ s ∈ vocabulary.spellings, value = .str s
  | .enumerations vocabulary =>
    ∃ items, value = .arr items ∧ ∀ item ∈ items, ∃ s ∈ vocabulary.spellings, item = .str s
  | .record name => nested name value
  | .records name => ∃ items, value = .arr items ∧ ∀ item ∈ items, nested name item
  | .texts => ∃ items, value = .arr items ∧ ∀ item ∈ items, ∃ s, item = .str s
  | .textOrRecord name => (∃ s, value = .str s) ∨ nested name value
  | .projectedBatch name marker =>
    ∃ items, value = .arr items ∧ onlyLast "display_omitted" items = true ∧ ∀ item ∈ items,
        nested (if isMarker "display_omitted" item then marker else name) item

def Constraints.Admit (c : Constraints) (value : Json) : Prop :=
  match value with
  | .obj fields => c.emptyObject = true → fields = []
  | other =>
    c.objectOnly = false ∧ c.emptyObject = false ∧
    match other with
    | .arr items => c.nonEmpty = true → items ≠ []
    | .str s =>
      (∀ least ∈ c.minLength, least ≤ s.utf8ByteSize) ∧
      (∀ largest ∈ c.maxLength, s.utf8ByteSize ≤ largest) ∧
      ∀ constant ∈ c.constant, s = constant
    | .integer n =>
      (c.minimum = none ∧ c.maximum = none) ∨
      (0 ≤ n.value ∧ (∀ least ∈ c.minimum, (least : Int) ≤ n.value) ∧
        ∀ largest ∈ c.maximum, n.value ≤ largest)
    | _ => True

def Field.Admits (nested : Language) (field : Field) (value : Json) : Prop :=
  if value = .null then field.nullable = true
  else field.kind.Admits nested value ∧ field.constraints.Admit value

section Values

variable {reader : NestedReader} {nested : Language}

def Reads (reader : NestedReader) (nested : Language) : Prop :=
  ∀ name value path, Accepted (reader name value path) ↔ nested name value

theorem accepted_decodeText (value : Json) (path : String) :
    Accepted (decodeText value path) ↔ ∃ s, value = .str s := by
  cases value <;> simp [decodeText]

theorem accepted_decodeEnumeration (vocabulary : EnumDescriptor) (value : Json) (path : String) :
    Accepted (decodeEnumeration vocabulary value path) ↔
      ∃ s ∈ vocabulary.spellings, value = .str s := by
  cases value with
  | str s =>
    by_cases h : s ∈ vocabulary.spellings
    · simp [decodeEnumeration, enumFrom, h]
    · simp [decodeEnumeration, enumFrom, h]
  | _ => simp [decodeEnumeration]

theorem accepted_decodeArray {decode : Json → String → Except ValidationError Member}
    {admits : Json → Prop} (hDecode : ∀ item path, Accepted (decode item path) ↔ admits item)
    (value : Json) (path : String) : Accepted (decodeArray decode value path) ↔
      ∃ items, value = .arr items ∧ ∀ item ∈ items, admits item := by
  cases value with
  | arr items =>
    simp only [decodeArray, accepted_map, accepted_mapM, hDecode, Json.arr.injEq, exists_eq_left']
    constructor
    · intro h item hItem
      obtain ⟨index, hIndex, rfl⟩ := List.mem_iff_getElem.mp hItem
      exact h (items[index], index) (by simp [List.mk_mem_zipIdx_iff_getElem?])
    · intro h entry hEntry
      exact h entry.1 (List.fst_mem_of_mem_zipIdx hEntry)
  | _ => simp [decodeArray]

theorem onlyLast_iff (key : String) (items : List Json) : onlyLast key items = true ↔
      ∀ entry ∈ items.zipIdx, isMarker key entry.1 = true → entry.2 + 1 = items.length := by
  simp only [onlyLast, List.all_eq_true, Bool.not_eq_true']
  constructor
  · intro h entry hEntry hMarker
    obtain ⟨hIndex, hItem⟩ := List.getElem?_eq_some_iff.mp (List.mem_zipIdx_iff_getElem?.mp hEntry)
    by_contra hNotLast
    have hInit : entry.2 < items.dropLast.length := by
      rw [List.length_dropLast]
      omega
    have hMem := List.getElem_mem hInit
    rw [List.getElem_dropLast, hItem] at hMem
    rw [h _ hMem] at hMarker
    exact Bool.false_ne_true hMarker
  · intro h item hItem
    obtain ⟨index, hIndex, rfl⟩ := List.mem_iff_getElem.mp hItem
    rw [List.length_dropLast] at hIndex
    rw [List.getElem_dropLast]
    by_contra hMarker
    have := h (items[index], index) (by simp [List.mk_mem_zipIdx_iff_getElem?])
      (by simpa using hMarker)
    omega

section

variable (hReads : Reads reader nested)
include hReads

theorem accepted_validateProjectedBatch (name marker : String) (value : Json) (path : String) :
    Accepted (validateProjectedBatch reader name marker value path) ↔
      (Kind.projectedBatch name marker).Admits nested value := by
  cases value with
  | arr items =>
    have hStep : ∀ entry : Json × Nat,
        Accepted (if isMarker "display_omitted" entry.1 = true then
            if entry.2 + 1 ≠ items.length then
              Except.error ⟨elementPath path entry.2,
                "an omission marker must be the final element"⟩
            else do
              let _ ← reader marker entry.1 (elementPath path entry.2)
              Except.ok ()
          else do
            let _ ← reader name entry.1 (elementPath path entry.2)
            Except.ok ()) ↔
        (isMarker "display_omitted" entry.1 = true → entry.2 + 1 = items.length) ∧
          nested (if isMarker "display_omitted" entry.1 = true then marker else name)
            entry.1 := by
      intro entry
      by_cases hMarker : isMarker "display_omitted" entry.1 = true
      · by_cases hLast : entry.2 + 1 = items.length
        · simp [hMarker, hLast, hReads _ _ _]
        · simp [hMarker, hLast]
      · simp [hMarker, hReads _ _ _]
    show Accepted (items.zipIdx.forM _) ↔ ∃ items', _
    rw [accepted_forM]
    simp only [Json.arr.injEq, exists_eq_left', onlyLast_iff]
    constructor
    · intro h
      constructor
      · intro entry hEntry
        exact ((hStep entry).mp (h entry hEntry)).1
      · intro item hItem
        obtain ⟨index, hIndex, rfl⟩ := List.mem_iff_getElem.mp hItem
        have hEntry : (items[index], index) ∈ items.zipIdx := by
          simp [List.mk_mem_zipIdx_iff_getElem?]
        exact ((hStep _).mp (h _ hEntry)).2
    · intro h entry hEntry
      exact (hStep entry).mpr ⟨h.1 entry hEntry, h.2 entry.1 (List.fst_mem_of_mem_zipIdx hEntry)⟩
  | _ => simp [validateProjectedBatch, Kind.Admits]

theorem accepted_validateTextOrRecord (name : String) (value : Json) (path : String) :
    Accepted (validateTextOrRecord reader name value path) ↔
      (Kind.textOrRecord name).Admits nested value := by
  cases value with
  | str s => simp [validateTextOrRecord, Kind.Admits]
  | _ => simp [validateTextOrRecord, Kind.Admits, hReads _ _ _]

theorem accepted_decodeOne (kind : Kind) (value : Json) (path : String) :
    Accepted (decodeOne reader kind value path) ∧ Accepted (validateJson reader kind value path) ↔
      kind.Admits nested value := by
  cases kind with
  | any => simp [decodeOne, validateJson, Kind.Admits]
  | text => simp [decodeOne, validateJson, Kind.Admits, accepted_decodeText]
  | boolean => cases value <;> simp [decodeOne, validateJson, Kind.Admits]
  | integer =>
    cases value with
    | integer n =>
      by_cases h : n.value < 0
      · simp [decodeOne, validateJson, Kind.Admits, h]
      · simp [decodeOne, validateJson, Kind.Admits, h, Int.not_lt.mp h]
    | _ => simp [decodeOne, validateJson, Kind.Admits]
  | enumeration vocabulary =>
    simp [decodeOne, validateJson, Kind.Admits, accepted_decodeEnumeration]
  | enumerations vocabulary =>
    simp [decodeOne, validateJson, Kind.Admits,
      accepted_decodeArray (accepted_decodeEnumeration vocabulary)]
  | record name => simp [decodeOne, validateJson, Kind.Admits, hReads _ _ _]
  | records name =>
    have hItem : ∀ item here, Accepted (do
        let members ← reader name item here
        Except.ok (Member.record members)) ↔ nested name item := by
      intro item here
      rw [accepted_map, hReads]
    simp only [decodeOne, validateJson, Kind.Admits, accepted_decodeArray hItem, accepted_ok,
      and_true]
  | texts =>
    simp [decodeOne, validateJson, Kind.Admits, accepted_decodeArray accepted_decodeText]
  | textOrRecord name =>
    simp [decodeOne, validateJson, accepted_validateTextOrRecord hReads]
  | projectedBatch name marker =>
    simp [decodeOne, validateJson, accepted_validateProjectedBatch hReads]

end

theorem accepted_checkText (c : Constraints) (s path : String) : Accepted (checkText c s path) ↔
      (∀ least ∈ c.minLength, least ≤ s.utf8ByteSize) ∧
      (∀ largest ∈ c.maxLength, s.utf8ByteSize ≤ largest) ∧
      ∀ constant ∈ c.constant, s = constant := by
  unfold checkText
  rw [accepted_refuse, accepted_refuse, option_any_eq_false, option_any_eq_false]
  refine and_congr (by simp) (and_congr (by simp) ?_)
  cases c.constant with
  | none => simp
  | some constant => simp [accepted_require]

theorem accepted_checkRange (c : Constraints) (n : Int) (path : String) :
    Accepted (checkRange c n path) ↔ (c.minimum = none ∧ c.maximum = none) ∨
      (0 ≤ n ∧ (∀ least ∈ c.minimum, (least : Int) ≤ n) ∧ ∀ largest ∈ c.maximum, n ≤ largest) := by
  unfold checkRange
  by_cases hNone : c.minimum = none ∧ c.maximum = none
  · simp [hNone]
  · rw [if_neg hNone, accepted_refuse, accepted_refuse, accepted_refuse, option_any_eq_false,
      option_any_eq_false]
    simp [hNone]

theorem accepted_checkContainer (c : Constraints) (value : Json) (path : String) :
    Accepted (checkContainer c value path) ↔
      match value with
      | .obj fields => c.emptyObject = true → fields = []
      | other =>
        c.objectOnly = false ∧ c.emptyObject = false ∧
        match other with
        | .arr items => c.nonEmpty = true → items ≠ []
        | _ => True := by
  cases value with
  | obj fields => simp [checkContainer, accepted_refuse]
  | arr items => simp [checkContainer, accepted_refuse, and_assoc]
  | _ => simp [checkContainer, accepted_refuse]

theorem accepted_checkConstraints (field : Field) (value : Json) (path : String) :
    Accepted (checkConstraints reader field value path) ↔
      Accepted (validateJson reader field.kind value path) ∧ field.constraints.Admit value := by
  unfold checkConstraints
  cases value with
  | str s =>
    simp only [accepted_seq, accepted_checkContainer, accepted_checkText, Constraints.Admit,
      and_true, and_assoc]
  | integer n =>
    simp only [accepted_seq, accepted_checkContainer, accepted_checkRange, Constraints.Admit,
      and_true, and_assoc]
  | _ =>
    simp only [accepted_seq, accepted_checkContainer, accepted_ok, Constraints.Admit, and_true]

end Values

/-! ## Records -/

def Rule.Selected (rule : Rule) (value : Json) : Prop :=
  value.find? rule.whenField = some (.str rule.whenEquals)

def Field.AdmittedIn (nested : Language) (field : Field) (value : Json) : Prop :=
  match value.find? field.name with
  | none => field.isRequired = false
  | some w => field.Admits nested w

namespace RecordDescriptor

def names (r : RecordDescriptor) : List String := r.fields.map (·.name)

def Ignores (r : RecordDescriptor) (value : Json) (name : String) : Prop :=
  ∃ rule ∈ r.rules, rule.Selected value ∧ name ∈ rule.ignoresFields

def Closed (r : RecordDescriptor) (value : Json) : Prop :=
  r.unknown = .reject ∨ ∃ rule ∈ r.rules, rule.closed = true ∧ rule.Selected value

structure Admits (nested : Language) (r : RecordDescriptor) (value : Json) : Prop where
  object : ∃ entries, value = .obj entries ∧ (r.Closed value → ∀ entry ∈ entries, entry.1 ∈ r.names)
  fields : ∀ field ∈ r.fields, ¬ r.Ignores value field.name → field.AdmittedIn nested value
  forbidden : ∀ name ∈ r.forbidden, value.find? name = none
  requires : ∀ rule ∈ r.rules, rule.Selected value →
    ∀ name ∈ rule.requiresFields, (value.find? name).isSome = true
  forbids : ∀ rule ∈ r.rules, rule.Selected value →
    ∀ name ∈ rule.forbidsFields, value.find? name = none

/-- A field whose value selects between rules or envelopes: an enumeration that is
always there. -/
def IsSelector (field : Field) : Prop :=
  field.optional = false ∧ field.isRequired = true ∧ field.nullable = false ∧
    ∃ vocabulary, field.kind = .enumeration vocabulary

structure RulesReadable (r : RecordDescriptor) : Prop where
  names : r.names.Nodup
  initial : ∀ field ∈ r.fields, field.optional = true → field.initial.isNone = true
  selector : r.rules ≠ [] → ∃ before selector after,
    r.fields = before ++ selector :: after ∧ IsSelector selector ∧
    (∀ rule ∈ r.rules, rule.whenField = selector.name) ∧
    ∀ rule ∈ r.rules, ∀ field ∈ before ++ [selector], field.name ∉ rule.ignoresFields
  spellings : (r.rules.map (·.whenEquals)).Nodup
  subjects : ∀ rule ∈ r.rules, ∀ name ∈ rule.requiresFields ++ rule.forbidsFields,
    name ∉ rule.ignoresFields ∧
    ∃ field ∈ r.fields, field.name = name ∧ field.optional = true ∧ field.nullable = false
  envelope : ∀ spelling ∈ r.wireValidate, r.rules = [] ∧
    ∃ field ∈ r.fields, field.name = "type" ∧ IsSelector field ∧
      field.constraints.constant = some spelling

end RecordDescriptor

/-! ## Reading the fields -/

theorem Record.member_setMember (record : Record) (name name' : String) (value : Option Member) :
    (record.setMember name value).member name' =
      if name' = name then value else record.member name' := by
  induction record with
  | nil =>
    by_cases h : name' = name
    · simp [setMember, member, h]
    · simp [setMember, member, List.lookup_cons, List.lookup_nil, h, beq_eq_false_iff_ne.mpr h]
  | cons entry rest ih =>
    obtain ⟨k, v⟩ := entry
    unfold setMember
    by_cases hEntry : k = name
    · by_cases h : name' = name
      · simp [member, hEntry, h]
      · simp [member, List.lookup_cons, hEntry, h, beq_eq_false_iff_ne.mpr h]
    · by_cases hHead : name' = k
      · have hNe : ¬ name' = name := hHead ▸ hEntry
        simp [member, hEntry, hHead]
      · simpa [member, List.lookup_cons, hEntry, beq_eq_false_iff_ne.mpr hHead] using ih

namespace RecordDescriptor

section Reading

variable {reader : NestedReader} {nested : Language} {r : RecordDescriptor} {value : Json}
variable {record : Record} {field : Field} {inv : Record → Prop}
variable {record record' : Record} {selector : Field}

  {path : String}

theorem readField_present {w : Json} (hRead : r.ignoredField record field.name = false)
    (hFind : value.find? field.name = some w) (hNull : w ≠ .null) :
    r.readField reader value path record field = (do
      let member ← decodeOne reader field.kind w (joinPath path field.name)
      checkConstraints reader field w (joinPath path field.name)
      .ok (record.setMember field.name (some member))) := by
  unfold readField
  rw [if_neg (by simp [hRead]), hFind]
  cases w with
  | null => exact absurd rfl hNull
  | _ => rfl

theorem accepted_readField (hReads : Reads reader nested) (record : Record) (field : Field) :
    Accepted (r.readField reader value path record field) ↔
      r.ignoredField record field.name = true ∨ field.AdmittedIn nested value := by
  cases hRead : r.ignoredField record field.name with
  | true => simp [readField, hRead]
  | false =>
    simp only [Bool.false_eq_true, false_or]
    cases hFind : value.find? field.name with
    | none => simp [readField, hRead, Field.AdmittedIn, hFind, accepted_refuse]
    | some w =>
      by_cases hNull : w = .null
      · subst hNull
        simp only [readField, hRead, hFind, Field.AdmittedIn, Field.Admits, Bool.false_eq_true,
          if_false, if_true, accepted_refuse]
        cases hHolds : (!field.optional && field.kind.holdsJson) <;> simp
      · have hDecode := accepted_decodeOne hReads field.kind w (joinPath path field.name)
        rw [readField_present hRead hFind hNull, accepted_bind]
        simp only [Field.AdmittedIn, hFind, Field.Admits, if_neg hNull, ← hDecode,
          accepted_seq, accepted_checkConstraints, accepted_ok, and_true]
        constructor
        · rintro ⟨member, hMember, hJson, hAdmit⟩
          exact ⟨⟨⟨member, hMember⟩, hJson⟩, hAdmit⟩
        · rintro ⟨⟨⟨member, hMember⟩, hJson⟩, hAdmit⟩
          exact ⟨member, hMember, hJson, hAdmit⟩

def Stored (reader : NestedReader) (value : Json) (record : Record) (field : Field) : Prop :=
  match value.find? field.name with
  | none => record.member field.name = field.initial
  | some w => w ≠ .null → ∃ path member, decodeOne reader field.kind w path = .ok member ∧
        record.member field.name = some member

theorem readField_ok (hOk : r.readField reader value path record field = .ok record') :
    (record' = record ∨ ∃ member, record' = record.setMember field.name member) ∧
    (r.ignoredField record field.name = false → record.member field.name = field.initial →
      Stored reader value record' field) := by
  cases hRead : r.ignoredField record field.name with
  | true =>
    simp only [readField, hRead, if_true, Except.ok.injEq] at hOk
    exact ⟨.inl hOk.symm, by simp⟩
  | false =>
    cases hFind : value.find? field.name with
    | none =>
      simp only [readField, hRead, hFind, Bool.false_eq_true, if_false] at hOk
      split at hOk
      · cases hOk
      · simp only [Except.ok.injEq] at hOk
        subst hOk
        exact ⟨.inl rfl, fun _ hInitial => by simpa [Stored, hFind] using hInitial⟩
    | some w =>
      by_cases hNull : w = .null
      · subst hNull
        refine ⟨?_, fun _ _ => by simp [Stored, hFind]⟩
        simp only [readField, hRead, hFind, Bool.false_eq_true, if_false] at hOk
        split at hOk
        · cases hOk
        · split at hOk
          · exact .inr ⟨_, (Except.ok.inj hOk).symm⟩
          · exact .inl (Except.ok.inj hOk).symm
      · rw [readField_present hRead hFind hNull] at hOk
        obtain ⟨member, hMember⟩ : Accepted (decodeOne reader field.kind w
            (joinPath path field.name)) := by
          cases hDecode : decodeOne reader field.kind w (joinPath path field.name) with
          | ok member => exact ⟨member, rfl⟩
          | error error => simp [hDecode, bind, Except.bind] at hOk
        have hSet : record' = record.setMember field.name (some member) := by
          cases hCheck : checkConstraints reader field w (joinPath path field.name) with
          | ok _ => simpa [hMember, hCheck, bind, Except.bind, eq_comm] using hOk
          | error error => simp [hMember, hCheck, bind, Except.bind] at hOk
        subst hSet
        refine ⟨.inr ⟨_, rfl⟩, fun _ _ => ?_⟩
        simp only [Stored, hFind]
        exact fun _ => ⟨_, member, hMember, by rw [Record.member_setMember, if_pos rfl]⟩

/-- Fields that are read while `inv` holds of the record: it settles which of them the
rules ignore, and no assignment to one of them breaks it. -/
structure Phase (r : RecordDescriptor) (value : Json) (todo : List Field)
    (inv : Record → Prop) : Prop where
  ignored : ∀ record, inv record → ∀ field ∈ todo,
    (r.ignoredField record field.name = true ↔ r.Ignores value field.name)
  frame : ∀ record, inv record → ∀ field ∈ todo, ∀ member,
    inv (record.setMember field.name member)

theorem Phase.tail {todo : List Field} (hPhase : Phase r value (field :: todo) inv) :
    Phase r value todo inv where
  ignored := fun record hInv f hMem => hPhase.ignored record hInv f (List.mem_cons_of_mem _ hMem)
  frame := fun record hInv f hMem => hPhase.frame record hInv f (List.mem_cons_of_mem _ hMem)

theorem Phase.step {todo : List Field} (hPhase : Phase r value (field :: todo) inv)
    (hInv : inv record) (hOk : r.readField reader value path record field = .ok record') :
    inv record' := by
  rcases (readField_ok hOk).1 with rfl | ⟨member, rfl⟩
  · exact hInv
  · exact hPhase.frame record hInv field (by simp) member

theorem accepted_foldlM_readField (hReads : Reads reader nested) (todo : List Field)
    (hPhase : Phase r value todo inv) (record : Record) (hInv : inv record) :
    Accepted (todo.foldlM (r.readField reader value path) record) ↔
      ∀ field ∈ todo, ¬ r.Ignores value field.name → field.AdmittedIn nested value := by
  induction todo generalizing record with
  | nil => simp [pure, Except.pure]
  | cons field rest ih =>
    have hIgnored := hPhase.ignored record hInv field (by simp)
    have hField : Accepted (r.readField reader value path record field) ↔ _ :=
      accepted_readField hReads record field
    rw [hIgnored] at hField
    rw [List.foldlM_cons, accepted_bind]
    constructor
    · rintro ⟨record', hOk, hRest⟩
      have hAdmitted := hField.mp ⟨record', hOk⟩
      have hOthers := (ih hPhase.tail record' (hPhase.step hInv hOk)).mp hRest
      intro f hMem hNot
      rcases List.mem_cons.mp hMem with rfl | hMem
      · exact hAdmitted.resolve_left hNot
      · exact hOthers f hMem hNot
    · intro h
      obtain ⟨record', hOk⟩ := hField.mpr (by
        by_cases hNot : r.Ignores value field.name
        · exact .inl hNot
        · exact .inr (h field (by simp) hNot))
      refine ⟨record', hOk, (ih hPhase.tail record' (hPhase.step hInv hOk)).mpr ?_⟩
      exact fun f hMem => h f (List.mem_cons_of_mem _ hMem)

theorem readField_frame (hOk : r.readField reader value path record field = .ok record')
    {name : String} (hName : name ≠ field.name) : record'.member name = record.member name := by
  rcases (readField_ok hOk).1 with rfl | ⟨member, rfl⟩
  · rfl
  · rw [Record.member_setMember, if_neg hName]

theorem foldlM_readField_ok (todo : List Field) (hPhase : Phase r value todo inv)
    (hNodup : (todo.map (·.name)).Nodup) (record final : Record) (hInv : inv record)
    (hInitial : ∀ field ∈ todo, record.member field.name = field.initial)
    (hOk : todo.foldlM (r.readField reader value path) record = .ok final) :
    inv final ∧ (∀ name ∉ todo.map (·.name), final.member name = record.member name) ∧
      ∀ field ∈ todo, ¬ r.Ignores value field.name → Stored reader value final field := by
  induction todo generalizing record with
  | nil =>
    simp only [List.foldlM_nil, pure, Except.pure, Except.ok.injEq] at hOk
    subst hOk
    exact ⟨hInv, fun _ _ => rfl, by simp⟩
  | cons field rest ih =>
    rw [List.map_cons, List.nodup_cons] at hNodup
    rw [List.foldlM_cons] at hOk
    cases hStep : r.readField reader value path record field with
    | error error => simp [hStep, bind, Except.bind] at hOk
    | ok record' =>
      have hRest : rest.foldlM (r.readField reader value path) record' = .ok final := by
        simpa [hStep, bind, Except.bind] using hOk
      have hOthers : ∀ f ∈ rest, record'.member f.name = f.initial := by
        intro f hMem
        have hNe : f.name ≠ field.name := by
          intro hEq
          exact hNodup.1 (hEq ▸ List.mem_map_of_mem hMem)
        rw [readField_frame hStep hNe]
        exact hInitial f (List.mem_cons_of_mem _ hMem)
      have hLater := ih hPhase.tail hNodup.2 record' (hPhase.step hInv hStep) hOthers hRest
      refine ⟨hLater.1, ?_, ?_⟩
      · intro name hName
        rw [List.map_cons, List.mem_cons, not_or] at hName
        rw [hLater.2.1 name hName.2, readField_frame hStep hName.1]
      · intro f hMem hNot
        rcases List.mem_cons.mp hMem with rfl | hMem
        · have hIgnored := hPhase.ignored record hInv f (by simp)
          have hStored := (readField_ok hStep).2 (by simpa [hNot] using hIgnored)
            (hInitial f (by simp))
          unfold Stored at hStored ⊢
          rwa [hLater.2.1 f.name hNodup.1]
        · exact hLater.2.2 f hMem hNot

def Tells (r : RecordDescriptor) (value : Json) (record : Record) : Prop :=
  ∀ rule ∈ r.rules, (r.ruleMatches record rule = true ↔ rule.Selected value)

theorem Tells.ignored (hTells : r.Tells value record) (name : String) :
    r.ignoredField record name = true ↔ r.Ignores value name := by
  simp only [ignoredField, List.any_eq_true, Bool.and_eq_true, List.contains_iff_mem, Ignores]
  constructor
  · rintro ⟨rule, hRule, hMatches, hName⟩
    exact ⟨rule, hRule, (hTells rule hRule).mp hMatches, hName⟩
  · rintro ⟨rule, hRule, hSelected, hName⟩
    exact ⟨rule, hRule, (hTells rule hRule).mpr hSelected, hName⟩

theorem Tells.closed (hTells : r.Tells value record) :
    r.closedScope record = true ↔ r.Closed value := by
  simp only [closedScope, Bool.or_eq_true, decide_eq_true_eq, List.any_eq_true,
    Bool.and_eq_true, Closed]
  constructor
  · rintro (h | ⟨rule, hRule, hClosed, hMatches⟩)
    · exact .inl h
    · exact .inr ⟨rule, hRule, hClosed, (hTells rule hRule).mp hMatches⟩
  · rintro (h | ⟨rule, hRule, hClosed, hSelected⟩)
    · exact .inl h
    · exact .inr ⟨rule, hRule, hClosed, (hTells rule hRule).mpr hSelected⟩

theorem stored_selector (hSelector : IsSelector field) (hAdmitted : field.AdmittedIn nested value)
    (hStored : Stored reader value record field) :
    ∃ spelling, value.find? field.name = some (.str spelling) ∧
      record.member field.name = some (.enumerator spelling) := by
  obtain ⟨-, hRequired, hNullable, vocabulary, hKind⟩ := hSelector
  unfold Field.AdmittedIn at hAdmitted
  unfold Stored at hStored
  cases hFind : value.find? field.name with
  | none => simp [hFind, hRequired] at hAdmitted
  | some w =>
    simp only [hFind, Field.Admits, hNullable] at hAdmitted hStored
    by_cases hNull : w = .null
    · simp [hNull] at hAdmitted
    · rw [if_neg hNull, hKind] at hAdmitted
      obtain ⟨⟨spelling, hSpelling, rfl⟩, -⟩ := hAdmitted
      obtain ⟨path, member, hDecode, hMember⟩ := hStored hNull
      have hEnumerator : member = .enumerator spelling := by
        simpa [hKind, decodeOne, decodeEnumeration, enumFrom, hSpelling, eq_comm] using hDecode
      exact ⟨spelling, rfl, hEnumerator ▸ hMember⟩

theorem ruleMatches_iff (hMem : selector ∈ r.fields) (hOptional : selector.optional = false)
    {rule : Rule} (hWhen : rule.whenField = selector.name) {spelling : String}
    (hMember : record.member selector.name = some (.enumerator spelling)) :
    r.ruleMatches record rule = true ↔ spelling = rule.whenEquals := by
  simp only [ruleMatches, List.any_eq_true, Bool.and_eq_true, decide_eq_true_eq, Bool.not_eq_true']
  constructor
  · rintro ⟨field, -, ⟨hName, -⟩, hSpells⟩
    rw [hName, hWhen, hMember] at hSpells
    simpa using hSpells
  · intro hSpells
    refine ⟨selector, hMem, ⟨hWhen.symm, hOptional⟩, ?_⟩
    rw [hMember]
    simpa using hSpells

theorem tells_of_selector (hMem : selector ∈ r.fields) (hOptional : selector.optional = false)
    (hWhen : ∀ rule ∈ r.rules, rule.whenField = selector.name) {spelling : String}
    (hFind : value.find? selector.name = some (.str spelling))
    (hMember : record.member selector.name = some (.enumerator spelling)) :
    r.Tells value record := by
  intro rule hRule
  rw [ruleMatches_iff hMem hOptional (hWhen rule hRule) hMember, Rule.Selected, hWhen rule hRule,
    hFind]
  simp

theorem member_initial (hNames : r.names.Nodup) (hMem : field ∈ r.fields) :
    r.initial.member field.name = field.initial := by
  unfold names at hNames
  unfold initial Record.member
  generalize r.fields = fields at hNames hMem ⊢
  induction fields with
  | nil => cases hMem
  | cons first rest ih =>
    rw [List.map_cons, List.nodup_cons] at hNames
    rcases List.mem_cons.mp hMem with rfl | hMem
    · simp
    · have hNe : field.name ≠ first.name := by
        intro hEq
        exact hNames.1 (hEq ▸ List.mem_map_of_mem hMem)
      rw [List.map_cons, List.lookup_cons, beq_eq_false_iff_ne.mpr hNe]
      exact ih hNames.2 hMem

theorem phase_before {before : List Field}
    (hBefore : ∀ rule ∈ r.rules, ∀ field ∈ before, field.name ∉ rule.ignoresFields) :
    Phase r value before (fun _ => True) where
  ignored := by
    intro record _ field hMem
    have hNot : ∀ rule ∈ r.rules, field.name ∉ rule.ignoresFields :=
      fun rule hRule => hBefore rule hRule field hMem
    constructor
    · intro h
      simp only [ignoredField, List.any_eq_true, Bool.and_eq_true, List.contains_iff_mem] at h
      obtain ⟨rule, hRule, -, hName⟩ := h
      exact absurd hName (hNot rule hRule)
    · rintro ⟨rule, hRule, -, hName⟩
      exact absurd hName (hNot rule hRule)
  frame := fun _ _ _ _ _ => trivial

def Holds (value : Json) (selector : Field) (record : Record) : Prop :=
  ∃ spelling, value.find? selector.name = some (.str spelling) ∧
    record.member selector.name = some (.enumerator spelling)

theorem phase_after {after : List Field} (hMem : selector ∈ r.fields)
    (hOptional : selector.optional = false)
    (hWhen : ∀ rule ∈ r.rules, rule.whenField = selector.name)
    (hOther : ∀ field ∈ after, field.name ≠ selector.name) :
    Phase r value after (Holds value selector) where
  ignored := by
    rintro record ⟨spelling, hFind, hMember⟩ field -
    exact (tells_of_selector hMem hOptional hWhen hFind hMember).ignored field.name
  frame := by
    rintro record ⟨spelling, hFind, hMember⟩ field hField member
    refine ⟨spelling, hFind, ?_⟩
    rwa [Record.member_setMember, if_neg (hOther field hField).symm]

theorem accepted_fields_of_selector (hReads : Reads reader nested) (hRules : r.RulesReadable)
    {before after : List Field} (hFields : r.fields = before ++ selector :: after)
    (hSelector : IsSelector selector) (hWhen : ∀ rule ∈ r.rules, rule.whenField = selector.name)
    (hBefore : ∀ rule ∈ r.rules, ∀ field ∈ before ++ [selector], field.name ∉ rule.ignoresFields) :
    (Accepted (r.fields.foldlM (r.readField reader value path) r.initial) ↔
      ∀ field ∈ r.fields, ¬ r.Ignores value field.name → field.AdmittedIn nested value) ∧
    ∀ final, r.fields.foldlM (r.readField reader value path) r.initial = .ok final →
      r.Tells value final ∧
      ∀ field ∈ r.fields, ¬ r.Ignores value field.name → Stored reader value final field := by
  have hSplit : r.fields = (before ++ [selector]) ++ after := by simp [hFields]
  have hMem : selector ∈ r.fields := by simp [hFields]
  have hNodup : ((before ++ [selector]).map (·.name) ++ after.map (·.name)).Nodup := by
    rw [← List.map_append, ← hSplit]
    exact hRules.names
  have hApart : ∀ field ∈ after, field.name ∉ (before ++ [selector]).map (·.name) := by
    intro field hField hName
    exact (List.nodup_append.mp hNodup).2.2 _ hName _ (List.mem_map_of_mem hField) rfl
  have hFirst : Phase r value (before ++ [selector]) (fun _ => True) := phase_before hBefore
  have hSecond : Phase r value after (Holds value selector) :=
    phase_after hMem hSelector.1 hWhen fun field hField hEq =>
      hApart field hField (by rw [hEq]; simp)
  have hUnread : ¬ r.Ignores value selector.name := by
    rintro ⟨rule, hRule, -, hName⟩
    exact hBefore rule hRule selector (by simp) hName
  have hInitial : ∀ field ∈ r.fields, r.initial.member field.name = field.initial :=
    fun field hField => member_initial hRules.names hField
  have hMiddle : ∀ middle,
      (before ++ [selector]).foldlM (r.readField reader value path) r.initial = .ok middle →
      Holds value selector middle ∧
      (∀ field ∈ after, middle.member field.name = field.initial) ∧
      ∀ field ∈ before ++ [selector], ¬ r.Ignores value field.name →
        Stored reader value middle field := by
    intro middle hOk
    have hDone := foldlM_readField_ok _ hFirst (List.nodup_append.mp hNodup).1 _ middle trivial
      (fun field hField => hInitial field (by rw [hSplit]; exact List.mem_append_left _ hField)) hOk
    have hAdmitted := (accepted_foldlM_readField hReads _ hFirst _ trivial).mp ⟨middle, hOk⟩
    refine ⟨?_, ?_, hDone.2.2⟩
    · exact stored_selector hSelector (hAdmitted selector (by simp) hUnread)
        (hDone.2.2 selector (by simp) hUnread)
    · intro field hField
      rw [hDone.2.1 field.name (hApart field hField)]
      exact hInitial field (by rw [hSplit]; exact List.mem_append_right _ hField)
  rw [hSplit, List.foldlM_append]
  constructor
  · rw [accepted_bind]
    constructor
    · rintro ⟨middle, hOk, hRest⟩ field hField
      rcases List.mem_append.mp hField with hField | hField
      · exact (accepted_foldlM_readField hReads _ hFirst _ trivial).mp ⟨middle, hOk⟩ field hField
      · exact (accepted_foldlM_readField hReads _ hSecond _ (hMiddle middle hOk).1).mp hRest
          field hField
    · intro h
      obtain ⟨middle, hOk⟩ := (accepted_foldlM_readField hReads _ hFirst _ trivial).mpr
        fun field hField => h field (List.mem_append_left _ hField)
      exact ⟨middle, hOk, (accepted_foldlM_readField hReads _ hSecond _ (hMiddle middle hOk).1).mpr
        fun field hField => h field (List.mem_append_right _ hField)⟩
  · intro final hOk
    cases hStep : (before ++ [selector]).foldlM (r.readField reader value path) r.initial with
    | error error => simp [hStep, bind, Except.bind] at hOk
    | ok middle =>
      have hRest : after.foldlM (r.readField reader value path) middle = .ok final := by
        simpa [hStep, bind, Except.bind] using hOk
      have hMid := hMiddle middle hStep
      have hDone := foldlM_readField_ok _ hSecond (List.nodup_append.mp hNodup).2.1 _ final
        hMid.1 hMid.2.1 hRest
      obtain ⟨spelling, hFind, hMember⟩ := hDone.1
      refine ⟨tells_of_selector hMem hSelector.1 hWhen hFind hMember, ?_⟩
      intro field hField hNot
      rcases List.mem_append.mp hField with hField | hField
      · have hKept : field.name ∉ after.map (·.name) := by
          intro hName
          exact (List.nodup_append.mp hNodup).2.2 _ (List.mem_map_of_mem hField) _ hName rfl
        have hStored := hMid.2.2 field hField hNot
        unfold Stored at hStored ⊢
        rwa [hDone.2.1 field.name hKept]
      · exact hDone.2.2 field hField hNot

theorem accepted_fields (hReads : Reads reader nested) (hRules : r.RulesReadable) :
    (Accepted (r.fields.foldlM (r.readField reader value path) r.initial) ↔
      ∀ field ∈ r.fields, ¬ r.Ignores value field.name → field.AdmittedIn nested value) ∧
    ∀ final, r.fields.foldlM (r.readField reader value path) r.initial = .ok final →
      r.Tells value final ∧
      ∀ field ∈ r.fields, ¬ r.Ignores value field.name → Stored reader value final field := by
  have hInitial : ∀ field ∈ r.fields, r.initial.member field.name = field.initial :=
    fun field hMem => member_initial hRules.names hMem
  by_cases hNone : r.rules = []
  · have hPhase : Phase r value r.fields (fun _ => True) :=
      { ignored := by simp [ignoredField, Ignores, hNone]
        frame := fun _ _ _ _ _ => trivial }
    refine ⟨accepted_foldlM_readField hReads _ hPhase _ trivial, fun final hOk => ?_⟩
    have hFinal := foldlM_readField_ok _ hPhase hRules.names _ _ trivial hInitial hOk
    exact ⟨by simp [Tells, hNone], hFinal.2.2⟩
  · obtain ⟨before, selector, after, hFields, hSelector, hWhen, hBefore⟩ := hRules.selector hNone
    exact accepted_fields_of_selector hReads hRules hFields hSelector hWhen hBefore

/-! ## The checks after reading -/

theorem accepted_checkForbidden :
    Accepted (r.checkForbidden value path) ↔ ∀ name ∈ r.forbidden, value.find? name = none := by
  rw [checkForbidden, accepted_forM]
  simp [accepted_refuse]

theorem accepted_checkKnown (keys : List String) :
    Accepted (r.checkKnown keys path) ↔ ∀ key ∈ keys, key ∈ r.names := by
  rw [checkKnown, accepted_forM]
  simp [accepted_require, names]

theorem RulesReadable.selected_unique (hReadable : r.RulesReadable) {rule rule' : Rule}
    (hRule : rule ∈ r.rules) (hRule' : rule' ∈ r.rules) (hSelected : rule.Selected value)
    (hSelected' : rule'.Selected value) : rule = rule' := by
  obtain ⟨before, selector, after, -, -, hWhen, -⟩ :=
    hReadable.selector (List.ne_nil_of_mem hRule)
  have hEquals : rule.whenEquals = rule'.whenEquals := by
    unfold Rule.Selected at hSelected hSelected'
    rw [hWhen rule' hRule', ← hWhen rule hRule, hSelected] at hSelected'
    simpa using hSelected'
  exact List.inj_on_of_nodup_map hReadable.spellings hRule hRule' hEquals

theorem fieldPresent_iff (hRules : r.RulesReadable) {rule : Rule} (hRule : rule ∈ r.rules)
    (hSelected : rule.Selected value)
    (hAdmitted : ∀ field ∈ r.fields, ¬ r.Ignores value field.name → field.AdmittedIn nested value)
    (hStored : ∀ field ∈ r.fields, ¬ r.Ignores value field.name → Stored reader value record field)
    {name : String} (hName : name ∈ rule.requiresFields ++ rule.forbidsFields) :
    r.fieldPresent record name = true ↔ (value.find? name).isSome = true := by
  obtain ⟨hKept, field, hMem, rfl, hOptional, hNullable⟩ := hRules.subjects rule hRule name hName
  have hUnread : ¬ r.Ignores value field.name := by
    rintro ⟨rule', hRule', hSelected', hIgnored⟩
    have hSame := hRules.selected_unique hRule' hRule hSelected' hSelected
    exact hKept (hSame ▸ hIgnored)
  have hPresent : r.fieldPresent record field.name = true ↔
      (record.member field.name).isSome = true := by
    simp only [fieldPresent, List.any_eq_true, Bool.and_eq_true, decide_eq_true_eq,
      Bool.or_eq_true, Bool.not_eq_true']
    constructor
    · rintro ⟨other, hOther, hSame, hEither⟩
      have hEq : other = field := List.inj_on_of_nodup_map hRules.names hOther hMem hSame
      subst hEq
      rcases hEither with h | h
      · simp [hOptional] at h
      · exact h
    · intro h
      exact ⟨field, hMem, rfl, .inr h⟩
  have hAdm := hAdmitted field hMem hUnread
  have hSto := hStored field hMem hUnread
  rw [hPresent]
  unfold Field.AdmittedIn at hAdm
  unfold Stored at hSto
  cases hFind : value.find? field.name with
  | none =>
    have hInitial := hRules.initial field hMem hOptional
    simp only [hFind] at hSto
    rw [hSto]
    simpa using hInitial
  | some w =>
    simp only [hFind, Field.Admits, hNullable] at hAdm hSto
    by_cases hNull : w = .null
    · simp [hNull] at hAdm
    · obtain ⟨-, member, -, hMember⟩ := hSto hNull
      simp [hMember]

theorem accepted_checkRules (hTells : r.Tells value record)
    (hPresent : ∀ rule ∈ r.rules, rule.Selected value → ∀ name ∈ rule.requiresFields ++ rule.forbidsFields, (r.fieldPresent record name = true ↔ (value.find? name).isSome = true)) :
    Accepted (r.rules.forM (r.checkRule record path)) ↔ (∀ rule ∈ r.rules, rule.Selected value →
        ∀ name ∈ rule.requiresFields, (value.find? name).isSome = true) ∧
      ∀ rule ∈ r.rules, rule.Selected value →
        ∀ name ∈ rule.forbidsFields, value.find? name = none := by
  have hRule : ∀ rule ∈ r.rules, Accepted (r.checkRule record path rule) ↔ (rule.Selected value →
        (∀ name ∈ rule.requiresFields, (value.find? name).isSome = true) ∧
        ∀ name ∈ rule.forbidsFields, value.find? name = none) := by
    intro rule hMem
    have hMatches := hTells rule hMem
    unfold checkRule
    by_cases hSelected : rule.Selected value
    · rw [if_pos (hMatches.mpr hSelected), accepted_seq, accepted_forM, accepted_forM]
      have hAll := hPresent rule hMem hSelected
      simp only [hSelected, forall_const, accepted_require, accepted_refuse, accepted_ok, and_true]
      refine and_congr (forall₂_congr fun name hName => ?_) (forall₂_congr fun name hName => ?_)
      · exact hAll name (List.mem_append_left _ hName)
      · rw [hAll name (List.mem_append_right _ hName)]
        simp
    · rw [if_neg (fun h => hSelected (hMatches.mp h))]
      simp [hSelected]
  rw [accepted_forM]
  constructor
  · intro h
    exact ⟨fun rule hMem hSelected => ((hRule rule hMem).mp (h rule hMem) hSelected).1,
      fun rule hMem hSelected => ((hRule rule hMem).mp (h rule hMem) hSelected).2⟩
  · intro h rule hMem
    exact (hRule rule hMem).mpr fun hSelected => ⟨h.1 rule hMem hSelected, h.2 rule hMem hSelected⟩

theorem accepted_checkEnvelope (hRules : r.RulesReadable)
    (hAdmitted : ∀ field ∈ r.fields, ¬ r.Ignores value field.name → field.AdmittedIn nested value)
    (hStored : ∀ field ∈ r.fields, ¬ r.Ignores value field.name → Stored reader value record field) :
    Accepted (r.checkEnvelope record) := by
  unfold checkEnvelope
  cases hValidate : r.wireValidate with
  | none => simp
  | some spelling =>
    obtain ⟨hNone, field, hMem, hName, hSelector, hConstant⟩ :=
      hRules.envelope spelling hValidate
    have hUnread : ¬ r.Ignores value field.name := by simp [Ignores, hNone]
    have hAdm := hAdmitted field hMem hUnread
    obtain ⟨found, hFind, hMember⟩ := stored_selector hSelector hAdm (hStored field hMem hUnread)
    have hSame : found = spelling := by
      simp only [Field.AdmittedIn, hFind, Field.Admits, reduceCtorEq, if_false,
        Constraints.Admit] at hAdm
      exact hAdm.2.2.2.2.2 spelling hConstant
    rw [← hName, hMember]
    simp [hSame]

/-- `from_json` accepts the language of the record. -/
theorem accepted_read (hReads : Reads reader nested) (hRules : r.RulesReadable) :
    Accepted (r.read reader value path) ↔ r.Admits nested value := by
  cases value with
  | obj entries =>
    have hFields : (Accepted (r.fields.foldlM (r.readField reader (.obj entries) path)
        r.initial) ↔ _) ∧ _ := accepted_fields hReads hRules
    have hChecks : ∀ record,
        r.fields.foldlM (r.readField reader (.obj entries) path) r.initial = .ok record →
        (∀ field ∈ r.fields, ¬ r.Ignores (.obj entries) field.name →
          field.AdmittedIn nested (.obj entries)) →
        (Accepted (do
          r.checkForbidden (.obj entries) path
          if r.closedScope record then r.checkKnown (entries.map (·.1)) path
          r.rules.forM (r.checkRule record path)
          r.checkEnvelope record
          Except.ok record) ↔ r.Admits nested (.obj entries)) := by
      intro record hOk hAdmitted
      obtain ⟨hTells, hStored⟩ := hFields.2 record hOk
      have hRule : Accepted (r.rules.forM (r.checkRule record path)) ↔ _ :=
        accepted_checkRules hTells fun rule hRule hSelected name hName =>
          fieldPresent_iff hRules hRule hSelected hAdmitted hStored hName
      have hEnvelope := accepted_checkEnvelope hRules hAdmitted hStored
      have hKnown : Accepted (r.checkKnown (entries.map (·.1)) path) ↔
          ∀ entry ∈ entries, entry.1 ∈ r.names := by
        rw [accepted_checkKnown, List.forall_mem_map]
      have hClosed := hTells.closed
      constructor
      · intro h
        rw [accepted_seq] at h
        obtain ⟨hForbidden, hRest⟩ := h
        have hScope : (r.Closed (.obj entries) → ∀ entry ∈ entries, entry.1 ∈ r.names) ∧
            Accepted (r.rules.forM (r.checkRule record path)) := by
          by_cases hScope : r.closedScope record = true
          · rw [if_pos hScope, accepted_seq, accepted_seq] at hRest
            exact ⟨fun _ => hKnown.mp hRest.1, hRest.2.1⟩
          · rw [if_neg hScope, accepted_seq] at hRest
            exact ⟨fun h => absurd (hClosed.mpr h) hScope, hRest.1⟩
        exact
          { object := ⟨entries, rfl, hScope.1⟩
            fields := hAdmitted
            forbidden := accepted_checkForbidden.mp hForbidden
            requires := (hRule.mp hScope.2).1
            forbids := (hRule.mp hScope.2).2 }
      · intro hAdmits
        obtain ⟨entries', hObj, hKeys⟩ := hAdmits.object
        cases hObj
        have hTail := hRule.mpr ⟨hAdmits.requires, hAdmits.forbids⟩
        rw [accepted_seq]
        refine ⟨accepted_checkForbidden.mpr hAdmits.forbidden, ?_⟩
        by_cases hScope : r.closedScope record = true
        · rw [if_pos hScope, accepted_seq, accepted_seq, accepted_seq]
          exact ⟨hKnown.mpr (hKeys (hClosed.mp hScope)), hTail, hEnvelope, accepted_ok _⟩
        · rw [if_neg hScope, accepted_seq, accepted_seq]
          exact ⟨hTail, hEnvelope, accepted_ok _⟩
    unfold read
    rw [accepted_bind]
    constructor
    · rintro ⟨record, hOk, hRest⟩
      exact (hChecks record hOk (hFields.1.mp ⟨record, hOk⟩)).mp hRest
    · intro hAdmits
      obtain ⟨record, hOk⟩ := hFields.1.mpr hAdmits.fields
      exact ⟨record, hOk, (hChecks record hOk hAdmits.fields).mpr hAdmits⟩
  | _ =>
    simp only [read, not_accepted_error, false_iff]
    rintro ⟨⟨entries, hObj, -⟩, -⟩
    cases hObj

end Reading

end RecordDescriptor

end SimplexAgent.Protocol
