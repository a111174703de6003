import SimplexAgent.Protocol.CodecLanguage

/-!
# Writing wire records

`to_json` and `encode_one` from `protocol/codec.hpp`: the other direction of the codec,
driven by the same descriptors. The writer knows nothing of the conditional rules. It
emits every member that is engaged, an explicit null for a required nullable member
without a value, and leaves every other absent member out.

`conforms` says which records a descriptor describes: the members have the types of
their fields and pass the checks stated there, and the rules the record selects hold of
it. It speaks about the record alone, never about the text that the writer makes of it.
-/

namespace SimplexAgent.Protocol

open Dataclass

/-! ## The writer -/

abbrev NestedWriter := String → Record → Json

def Kind.nestedName : Kind → String
  | .record name | .records name => name
  | _ => ""

/-- `encode_one` of one element of an array. -/
def encodeElement (nested : NestedWriter) (name : String) (item : Member) : Json :=
  match item with
  | .text s | .enumerator s => .str s
  | .record members => nested name members
  | _ => .null

/-- `encode_one`. -/
def encodeOne (nested : NestedWriter) (kind : Kind) (value : Member) : Json :=
  match value with
  | .json value => value
  | .text s | .enumerator s => .str s
  | .number n => Json.uint n
  | .flag b => .bool b
  | .record members => nested kind.nestedName members
  | .vector items => .arr (items.map (encodeElement nested kind.nestedName))

namespace RecordDescriptor

def emitted (nested : NestedWriter) (record : Record) (field : Field) : Option Json :=
  match record.member field.name with
  | some value => some (encodeOne nested field.kind value)
  | none => if field.optional && field.isRequired && field.nullable then some .null else none

/-- `to_json` of one record, over the writer of the records it nests. -/
def write (nested : NestedWriter) (r : RecordDescriptor) (record : Record) : Json :=
  r.fields.foldl
    (fun output field => output.setOptional field.name (emitted nested record field)) (.obj [])

end RecordDescriptor

/-- `to_json` of a declared record. -/
def toJson (declared : List RecordDescriptor) : NestedWriter :=
  match declared with
  | [] => fun _ _ => .null
  | r :: above => fun name record =>
    if r.name = name then r.write (toJson above) record else toJson above name record

/-! ## Described records -/

/-- The records that a nested name stands for. -/
abbrev Described := String → Record → Prop

def Kind.Holds (language : Language) (nested : Described) (kind : Kind) (value : Member) : Prop :=
  match kind with
  | .text => ∃ s, value = .text s
  | .integer => ∃ n, value = .number n
  | .boolean => ∃ b, value = .flag b
  | .enumeration vocabulary => ∃ s ∈ vocabulary.spellings, value = .enumerator s
  | .record name => ∃ members, value = .record members ∧ nested name members
  | .records name =>
    ∃ items, value = .vector items ∧
      ∀ item ∈ items, ∃ members, item = .record members ∧ nested name members
  | .texts => ∃ items, value = .vector items ∧ ∀ item ∈ items, ∃ s, item = .text s
  | .enumerations vocabulary =>
    ∃ items, value = .vector items ∧
      ∀ item ∈ items, ∃ s ∈ vocabulary.spellings, item = .enumerator s
  | .any | .textOrRecord _ | .projectedBatch _ _ =>
    ∃ j, value = .json j ∧ kind.Admits language j

/-- What a field says of its member. A member is absent only as a `std::optional`. A JSON
member is null only where null is one of the field's values, so not in a `std::optional`. -/
def Field.Conforms (language : Language) (writer : NestedWriter) (nested : Described)
    (field : Field) (member : Option Member) : Prop :=
  match member with
  | none => field.optional = true ∧ (field.isRequired = true → field.nullable = true)
  | some value =>
    (value = .json .null →
      field.optional = false ∧ field.nullable = true ∧ field.kind.holdsJson = true) ∧
    (value ≠ .json .null → field.kind.Holds language nested value ∧
      field.constraints.Admit (encodeOne writer field.kind value))

namespace RecordDescriptor

/-- The record satisfies its own wire rules. -/
structure Conforms (language : Language) (writer : NestedWriter) (nested : Described)
    (r : RecordDescriptor) (record : Record) : Prop where
  layout : record.map (·.1) = r.names
  members : ∀ field ∈ r.fields,
    field.Conforms language writer nested (record.member field.name)
  rules : ∀ rule ∈ r.rules, r.ruleMatches record rule = true →
    (∀ name ∈ rule.requiresFields, r.fieldPresent record name = true) ∧
    ∀ name ∈ rule.forbidsFields, r.fieldPresent record name = false
  envelope : ∀ spelling ∈ r.wireValidate,
    record.member "type" = some (.enumerator spelling)

/-- No field that a matching rule ignores holds a value of its own. -/
def LeavesIgnored (r : RecordDescriptor) (record : Record) : Prop :=
  ∀ field ∈ r.fields, r.ignoredField record field.name = true →
    record.member field.name = field.initial

/-! ## What the writer emits -/

section Emitted

variable {nested : NestedWriter} {r : RecordDescriptor}

variable (record : Record)

theorem isObject_foldl_emitted (fields : List Field) {output : Json} (hObject : output.IsObject) :
    (fields.foldl (fun output field =>
      output.setOptional field.name (emitted nested record field)) output).IsObject := by
  induction fields generalizing output with
  | nil => exact hObject
  | cons field rest ih => exact ih ((Json.isObject_setOptional _ _ _).mpr hObject)

theorem write_isObject : (r.write nested record).IsObject :=
  isObject_foldl_emitted record r.fields trivial

theorem find?_foldl_other (fields : List Field) {output : Json} (hObject : output.IsObject)
    {key : String} (hOther : key ∉ fields.map (·.name)) : (fields.foldl (fun output field =>
      output.setOptional field.name (emitted nested record field)) output).find? key =
      output.find? key := by
  induction fields generalizing output with
  | nil => rfl
  | cons field rest ih =>
    rw [List.map_cons, List.mem_cons, not_or] at hOther
    rw [List.foldl_cons, ih ((Json.isObject_setOptional _ _ _).mpr hObject) hOther.2,
      Json.find?_setOptional hObject, if_neg hOther.1]

theorem find?_foldl_field (fields : List Field) {output : Json} (hObject : output.IsObject)
    (hNodup : (fields.map (·.name)).Nodup) {field : Field} (hMem : field ∈ fields)
    (hAbsent : output.find? field.name = none) : (fields.foldl (fun output field =>
      output.setOptional field.name (emitted nested record field)) output).find? field.name =
      emitted nested record field := by
  induction fields generalizing output with
  | nil => cases hMem
  | cons first rest ih =>
    have hObject' := (Json.isObject_setOptional output first.name
      (emitted nested record first)).mpr hObject
    rw [List.map_cons, List.nodup_cons] at hNodup
    rw [List.foldl_cons]
    by_cases hFirst : field = first
    · subst hFirst
      rw [find?_foldl_other record rest hObject' hNodup.1, Json.find?_setOptional hObject,
        if_pos rfl, hAbsent, Option.or_none]
    · have hRest := (List.mem_cons.mp hMem).resolve_left hFirst
      have hNe : field.name ≠ first.name := by
        intro hEq
        exact hNodup.1 (hEq ▸ List.mem_map_of_mem hRest)
      refine ih hObject' hNodup.2 hRest ?_
      rw [Json.find?_setOptional hObject, if_neg hNe, hAbsent]

theorem find?_write (hNames : r.names.Nodup) (record : Record) {field : Field}
    (hMem : field ∈ r.fields) :
    (r.write nested record).find? field.name = emitted nested record field :=
  find?_foldl_field record r.fields (show (Json.obj []).IsObject from trivial) hNames hMem rfl

theorem find?_write_other {key : String} (hOther : key ∉ r.names) :
    (r.write nested record).find? key = none :=
  find?_foldl_other record r.fields (show (Json.obj []).IsObject from trivial) hOther

theorem write_keys {entries : List (String × Json)}
    (hWrite : r.write nested record = .obj entries) : ∀ entry ∈ entries, entry.1 ∈ r.names := by
  intro entry hEntry
  by_contra hOther
  have hNone : (r.write nested record).find? entry.1 = none := find?_write_other record hOther
  rw [hWrite, Json.find?, List.lookup_eq_none_iff] at hNone
  have hSelf := hNone entry hEntry
  simp at hSelf

end Emitted

end RecordDescriptor

end SimplexAgent.Protocol
