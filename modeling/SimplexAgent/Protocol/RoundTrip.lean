import SimplexAgent.Protocol.Writer
import SimplexAgent.Protocol.SchemaAgreement
import Mathlib

/-!
# The codec round trip

Reading what was written gives the record back, for every record that satisfies its own
wire rules and leaves the fields that its operation ignores alone; and a record that was
read is such a record, so that writing and reading it again changes nothing.

Both directions go field by field. The reader decides from the members it has read so
far which fields to skip. The record that is being read agrees with the finished one on
everything before the current field, and the selector of the rules is among that, so the
decision is the one that the finished record tells.
-/

namespace SimplexAgent.Protocol

open Dataclass Verified.Tables

/-! ## Values -/

section Values

variable {reader : NestedReader} {writer : NestedWriter} {language : Language}
  {nested : Described}

/-- Reading the output of the writer gives the record back, at any path. -/
def Restores (reader : NestedReader) (writer : NestedWriter) (nested : Described) : Prop :=
  ∀ name members, nested name members → ∀ path, reader name (writer name members) path = .ok members

theorem mapM_decode_encode {decode : Json → String → Except ValidationError Member}
    {encode : Member → Json} (path : String) (items : List Member)
    (hItem : ∀ item ∈ items, ∀ here, decode (encode item) here = .ok item) (start : Nat) :
    ((items.map encode).zipIdx start).mapM
      (fun item => decode item.1 (elementPath path item.2)) = .ok items := by
  induction items generalizing start with
  | nil => rfl
  | cons item rest ih =>
    have hRest := ih (fun other hOther => hItem other (List.mem_cons_of_mem _ hOther)) (start + 1)
    rw [List.map_cons, List.zipIdx_cons, List.mapM_cons, hItem item (by simp)]
    simp only [bind, Except.bind, hRest, pure, Except.pure]

theorem decodeArray_encode {decode : Json → String → Except ValidationError Member}
    {encode : Member → Json} (path : String) (items : List Member)
    (hItem : ∀ item ∈ items, ∀ here, decode (encode item) here = .ok item) :
    decodeArray decode (.arr (items.map encode)) path = .ok (.vector items) := by
  simp only [decodeArray, mapM_decode_encode path items hItem, bind, Except.bind]

theorem decodeEnumeration_str {vocabulary : EnumDescriptor} {s : String}
    (hSpelling : s ∈ vocabulary.spellings) (path : String) :
    decodeEnumeration vocabulary (.str s) path = .ok (.enumerator s) := by
  simp [decodeEnumeration, enumFrom, hSpelling]

theorem ofInt_toNat (n : UInt64) : UInt64.ofInt (n.toNat : Int) = n := by
  have hLt := n.toNat_lt
  apply UInt64.toNat_inj.mp
  simp only [UInt64.ofInt, UInt64.toNat_ofNat']
  omega

theorem decodeOne_encodeOne (hRestores : Restores reader writer nested) {kind : Kind}
    {value : Member} (hHolds : kind.Holds language nested value) (path : String) :
    decodeOne reader kind (encodeOne writer kind value) path = .ok value := by
  cases kind with
  | text =>
    obtain ⟨s, rfl⟩ := hHolds
    rfl
  | integer =>
    obtain ⟨n, rfl⟩ := hHolds
    have hNat : ¬ (n.toNat : Int) < 0 := by omega
    simp only [decodeOne, encodeOne, Json.uint, if_neg hNat, ofInt_toNat]
  | boolean =>
    obtain ⟨b, rfl⟩ := hHolds
    rfl
  | enumeration vocabulary =>
    obtain ⟨s, hSpelling, rfl⟩ := hHolds
    exact decodeEnumeration_str hSpelling path
  | record name =>
    obtain ⟨members, rfl, hNested⟩ := hHolds
    simp only [decodeOne, encodeOne, Kind.nestedName, hRestores name members hNested path,
      bind, Except.bind]
  | records name =>
    obtain ⟨items, rfl, hItems⟩ := hHolds
    simp only [decodeOne, encodeOne, Kind.nestedName]
    refine decodeArray_encode path items fun item hItem here => ?_
    obtain ⟨members, rfl, hNested⟩ := hItems item hItem
    simp only [encodeElement, hRestores name members hNested here, bind, Except.bind]
  | texts =>
    obtain ⟨items, rfl, hItems⟩ := hHolds
    refine decodeArray_encode path items fun item hItem here => ?_
    obtain ⟨s, rfl⟩ := hItems item hItem
    rfl
  | enumerations vocabulary =>
    obtain ⟨items, rfl, hItems⟩ := hHolds
    refine decodeArray_encode path items fun item hItem here => ?_
    obtain ⟨s, hSpelling, rfl⟩ := hItems item hItem
    exact decodeEnumeration_str hSpelling here
  | _ =>
    obtain ⟨j, rfl, -⟩ := hHolds
    rfl

section

variable (hReads : Reads reader language)
include hReads

theorem language_written (hRestores : Restores reader writer nested) {name : String}
    {members : Record} (hNested : nested name members) : language name (writer name members) :=
  (hReads name _ "").mp ⟨members, hRestores name members hNested ""⟩

theorem admits_encodeOne (hRestores : Restores reader writer nested) {kind : Kind} {value : Member}
    (hHolds : kind.Holds language nested value) :
    kind.Admits language (encodeOne writer kind value) := by
  cases kind with
  | text =>
    obtain ⟨s, rfl⟩ := hHolds
    exact ⟨s, rfl⟩
  | integer =>
    obtain ⟨n, rfl⟩ := hHolds
    exact ⟨_, rfl, Int.natCast_nonneg _⟩
  | boolean =>
    obtain ⟨b, rfl⟩ := hHolds
    exact ⟨b, rfl⟩
  | enumeration vocabulary =>
    obtain ⟨s, hSpelling, rfl⟩ := hHolds
    exact ⟨s, hSpelling, rfl⟩
  | record name =>
    obtain ⟨members, rfl, hNested⟩ := hHolds
    exact language_written hReads hRestores hNested
  | records name =>
    obtain ⟨items, rfl, hItems⟩ := hHolds
    refine ⟨_, rfl, List.forall_mem_map.mpr fun item hItem => ?_⟩
    obtain ⟨members, rfl, hNested⟩ := hItems item hItem
    exact language_written hReads hRestores hNested
  | texts =>
    obtain ⟨items, rfl, hItems⟩ := hHolds
    refine ⟨_, rfl, List.forall_mem_map.mpr fun item hItem => ?_⟩
    obtain ⟨s, rfl⟩ := hItems item hItem
    exact ⟨s, rfl⟩
  | enumerations vocabulary =>
    obtain ⟨items, rfl, hItems⟩ := hHolds
    refine ⟨_, rfl, List.forall_mem_map.mpr fun item hItem => ?_⟩
    obtain ⟨s, hSpelling, rfl⟩ := hItems item hItem
    exact ⟨s, hSpelling, rfl⟩
  | _ =>
    obtain ⟨j, rfl, hAdmits⟩ := hHolds
    exact hAdmits

theorem encodeOne_ne_null (hRestores : Restores reader writer nested)
    (hNull : ∀ name, ¬ language name .null) {kind : Kind} {value : Member}
    (hHolds : kind.Holds language nested value) (hValue : value ≠ .json .null) :
    encodeOne writer kind value ≠ .null := by
  intro hEncoded
  have hAdmits := admits_encodeOne hReads hRestores hHolds
  cases value with
  | json j => exact hValue (by rw [show j = .null from hEncoded])
  | record members =>
    cases kind with
    | record name =>
      rw [hEncoded] at hAdmits
      exact hNull name hAdmits
    | _ => simp [Kind.Holds] at hHolds
  | _ => simp [encodeOne, Json.uint] at hEncoded

end

end Values

/-! ## Records in the making -/

namespace Record

theorem member_cons (name key : String) (value : Option Member) (rest : Record) :
    member ((key, value) :: rest) name = if name = key then value else member rest name := by
  by_cases h : name = key
  · simp [member, h]
  · simp [member, List.lookup_cons, h, beq_eq_false_iff_ne.mpr h]

theorem setMember_append {before : Record} {name : String} (hBefore : name ∉ before.map (·.1))
    (value value' : Option Member) (after : Record) :
    setMember (before ++ (name, value) :: after) name value' =
      before ++ (name, value') :: after := by
  induction before with
  | nil => simp [setMember]
  | cons entry rest ih =>
    rw [List.map_cons, List.mem_cons, not_or] at hBefore
    rw [List.cons_append, setMember, if_neg (Ne.symm hBefore.1), ih hBefore.2, List.cons_append]

theorem map_member {record : Record} (hNodup : (record.map (·.1)).Nodup) :
    (record.map (·.1)).map (fun name => (name, record.member name)) = record := by
  induction record with
  | nil => rfl
  | cons entry rest ih =>
    rw [List.map_cons, List.nodup_cons] at hNodup
    have hRest : (rest.map (·.1)).map (fun name => (name, member (entry :: rest) name)) =
        (rest.map (·.1)).map (fun name => (name, member rest name)) := by
      apply List.map_congr_left
      intro name hName
      have hNe : name ≠ entry.1 := by
        intro hEq
        exact hNodup.1 (hEq ▸ hName)
      rw [member_cons, if_neg hNe]
    rw [List.map_cons, List.map_cons, hRest, ih hNodup.2, member_cons, if_pos rfl]

/-- The members of `record` in the fields that are done and the initial ones in the rest. -/
def restored (record : Record) (done todo : List Field) : Record :=
  done.map (fun field => (field.name, record.member field.name)) ++
    todo.map fun field => (field.name, field.initial)

theorem member_restored (record : Record) {done todo : List Field} {name : String}
    (hDone : name ∈ done.map (·.name)) :
    (record.restored done todo).member name = record.member name := by
  induction done with
  | nil => cases hDone
  | cons field rest ih =>
    rw [restored, List.map_cons, List.cons_append, member_cons]
    by_cases hName : name = field.name
    · rw [if_pos hName, hName]
    · rw [if_neg hName]
      exact ih ((List.mem_cons.mp hDone).resolve_left hName)

theorem setMember_restored (record : Record) {done todo : List Field} {field : Field}
    (hDone : field.name ∉ done.map (·.name)) :
    (record.restored done (field :: todo)).setMember field.name (record.member field.name) =
      record.restored (done ++ [field]) todo := by
  have hKeys : field.name ∉
      (done.map fun field => (field.name, record.member field.name)).map (·.1) := by
    rwa [List.map_map]
  rw [restored, List.map_cons, setMember_append hKeys, restored, List.map_append, List.append_assoc]
  rfl

theorem restored_step (record : Record) (done todo : List Field) {field : Field}
    (hInitial : record.member field.name = field.initial) :
    record.restored done (field :: todo) = record.restored (done ++ [field]) todo := by
  simp [restored, hInitial]

end Record

namespace RecordDescriptor

/-! ## Which fields are ignored -/

section Ignored

variable {r : RecordDescriptor}

theorem ruleMatches_congr {record record' : Record} {rule : Rule}
    (hMember : record.member rule.whenField = record'.member rule.whenField) :
    r.ruleMatches record rule = r.ruleMatches record' rule := by
  unfold ruleMatches
  congr 1
  funext field
  by_cases hName : field.name = rule.whenField
  · rw [hName, hMember]
  · simp [hName]

theorem ignoredField_congr {record record' : Record} {name : String}
    (hMember : ∀ rule ∈ r.rules, name ∈ rule.ignoresFields →
      record.member rule.whenField = record'.member rule.whenField) :
    r.ignoredField record name = r.ignoredField record' name := by
  rw [Bool.eq_iff_iff]
  simp only [ignoredField, List.any_eq_true, Bool.and_eq_true, List.contains_iff_mem]
  constructor
  · rintro ⟨rule, hRule, hMatches, hName⟩
    exact ⟨rule, hRule, ruleMatches_congr (hMember rule hRule hName) ▸ hMatches, hName⟩
  · rintro ⟨rule, hRule, hMatches, hName⟩
    exact ⟨rule, hRule, ruleMatches_congr (hMember rule hRule hName) ▸ hMatches, hName⟩

theorem selector_before (hRules : r.RulesReadable) {before after : List Field} {field : Field}
    (hFields : r.fields = before ++ field :: after) {rule : Rule} (hRule : rule ∈ r.rules)
    (hName : field.name ∈ rule.ignoresFields) : rule.whenField ∈ before.map (·.name) := by
  obtain ⟨first, selector, others, hSplit, -, hWhen, hRead⟩ :=
    hRules.selector (List.ne_nil_of_mem hRule)
  have hLater : ∀ f ∈ first ++ [selector], f ≠ field := by
    intro f hMem hEq
    exact hRead rule hRule f hMem (hEq ▸ hName)
  rw [hWhen rule hRule]
  rw [hSplit] at hFields
  rcases List.append_eq_append_iff.mp hFields with ⟨extra, hBefore, hRest⟩ | ⟨extra, hFirst, hRest⟩
  · cases extra with
    | nil => exact absurd (List.cons.inj hRest).1 (hLater selector (by simp))
    | cons f rest =>
      rw [hBefore, ← (List.cons.inj hRest).1]
      simp
  · cases extra with
    | nil => exact absurd (List.cons.inj hRest).1.symm (hLater selector (by simp))
    | cons f rest =>
      exact absurd (List.cons.inj hRest).1.symm (hLater f (by simp [hFirst]))

end Ignored

/-! ## Reading what was written -/

section Written

variable {reader : NestedReader} {writer : NestedWriter} {language : Language}
  {nested : Described} {r : RecordDescriptor} {record : Record}

theorem eq_ok_of_accepted {result : Except ValidationError Unit} (h : Accepted result) :
    result = .ok () := by
  obtain ⟨⟨⟩, rfl⟩ := h
  rfl

/-- What the codec needs of the records a descriptor nests. -/
structure Nesting (reader : NestedReader) (writer : NestedWriter) (language : Language)
    (nested : Described) : Prop where
  reads : Reads reader language
  restores : Restores reader writer nested
  notNull : ∀ name, ¬ language name .null

theorem readField_engaged (hNesting : Nesting reader writer language nested)
    {field : Field} {value : Member}
    (hConforms : field.Conforms language writer nested (some value)) {input : Json} (hFind : input.find? field.name = some (encodeOne writer field.kind value))
    {path : String} {current : Record} (hRead : r.ignoredField current field.name = false) :
    r.readField reader input path current field =
      .ok (current.setMember field.name (some value)) := by
  by_cases hNull : value = .json .null
  · subst hNull
    obtain ⟨hOptional, hNullable, hJson⟩ := hConforms.1 rfl
    have hWritten : input.find? field.name = some .null := hFind
    simp [readField, hRead, hWritten, hOptional, hNullable, hJson]
  · obtain ⟨hHolds, hAdmit⟩ := hConforms.2 hNull
    have hText := encodeOne_ne_null hNesting.reads hNesting.restores hNesting.notNull hHolds hNull
    have hChecked : Accepted (checkConstraints reader field (encodeOne writer field.kind value)
        (joinPath path field.name)) := by
      rw [accepted_checkConstraints]
      exact ⟨((accepted_decodeOne hNesting.reads _ _ _).mpr
        (admits_encodeOne hNesting.reads hNesting.restores hHolds)).2, hAdmit⟩
    rw [readField_present hRead hFind hText,
      decodeOne_encodeOne hNesting.restores hHolds (joinPath path field.name)]
    simp only [bind, Except.bind, eq_ok_of_accepted hChecked]

theorem readField_absent {field : Field} (hConforms : field.Conforms language writer nested none)
    (hNone : record.member field.name = none) {input : Json}
    (hFind : input.find? field.name = emitted writer record field) {path : String}
    {current : Record} (hRead : r.ignoredField current field.name = false) :
    r.readField reader input path current field = .ok current := by
  obtain ⟨hOptional, hPresence⟩ := hConforms
  rw [emitted, hNone] at hFind
  by_cases hRequired : field.isRequired = true
  · have hNullable := hPresence hRequired
    have hWritten : input.find? field.name = some .null := by
      simpa [hOptional, hRequired, hNullable] using hFind
    simp [readField, hRead, hWritten, hOptional, hNullable]
  · have hWritten : input.find? field.name = none := by
      simpa [hRequired] using hFind
    simp [readField, hRead, hWritten, hRequired]

section

variable (hNesting : Nesting reader writer language nested)
include hNesting

theorem readField_written (hRules : r.RulesReadable)
    (hConforms : r.Conforms language writer nested record) (hLeaves : r.LeavesIgnored record)
    {done todo : List Field} {field : Field} (hFields : r.fields = done ++ field :: todo)
    (path : String) :
    r.readField reader (r.write writer record) path (record.restored done (field :: todo)) field =
      .ok (record.restored (done ++ [field]) todo) := by
  have hMem : field ∈ r.fields := by simp [hFields]
  have hDone : field.name ∉ done.map (·.name) := by
    have hNodup := hRules.names
    rw [names, hFields, List.map_append, List.map_cons] at hNodup
    intro hName
    exact (List.nodup_append.mp hNodup).2.2 _ hName _ (by simp) rfl
  have hSame : r.ignoredField (record.restored done (field :: todo)) field.name =
      r.ignoredField record field.name :=
    ignoredField_congr fun rule hRule hName =>
      Record.member_restored record (selector_before hRules hFields hRule hName)
  cases hIgnored : r.ignoredField record field.name with
  | true =>
    rw [← Record.restored_step record done todo (hLeaves field hMem hIgnored), readField,
      if_pos (hSame.trans hIgnored)]
  | false =>
    have hFind : (r.write writer record).find? field.name = emitted writer record field :=
      find?_write hRules.names record hMem
    have hField := hConforms.members field hMem
    cases hMember : record.member field.name with
    | some value =>
      rw [hMember] at hField
      have hEngaged : (r.write writer record).find? field.name =
          some (encodeOne writer field.kind value) := by
        rw [hFind, emitted, hMember]
      rw [readField_engaged hNesting hField hEngaged (hSame.trans hIgnored),
        ← hMember, Record.setMember_restored record hDone]
    | none =>
      rw [hMember] at hField
      have hInitial : record.member field.name = field.initial := by
        rw [hMember, Option.isNone_iff_eq_none.mp (hRules.initial field hMem hField.1)]
      rw [readField_absent hField hMember hFind (hSame.trans hIgnored),
        Record.restored_step record done todo hInitial]

theorem foldlM_written (hRules : r.RulesReadable)
    (hConforms : r.Conforms language writer nested record) (hLeaves : r.LeavesIgnored record)
    (path : String) (todo : List Field) (done : List Field) (hFields : r.fields = done ++ todo) :
    todo.foldlM (r.readField reader (r.write writer record) path) (record.restored done todo) =
      .ok record := by
  induction todo generalizing done with
  | nil =>
    have hNodup : (record.map (·.1)).Nodup := hConforms.layout ▸ hRules.names
    have hWhole : record.restored done [] = record := by
      rw [List.append_nil] at hFields
      have hMap := Record.map_member hNodup
      rw [hConforms.layout, names, hFields, List.map_map] at hMap
      rw [Record.restored, List.map_nil, List.append_nil]
      exact hMap
    rw [hWhole]
    rfl
  | cons field rest ih =>
    rw [List.foldlM_cons, readField_written hNesting hRules hConforms hLeaves hFields path]
    exact ih (done ++ [field]) (by simp [hFields])

theorem read_write (hRules : r.RulesReadable) (hForbidden : ∀ name ∈ r.forbidden, name ∉ r.names)
    (hConforms : r.Conforms language writer nested record) (hLeaves : r.LeavesIgnored record)
    (path : String) : r.read reader (r.write writer record) path = .ok record := by
  have hFold := foldlM_written hNesting hRules hConforms hLeaves path r.fields [] rfl
  have hStart : record.restored [] r.fields = r.initial := rfl
  have hAbsent : r.checkForbidden (r.write writer record) path = .ok () :=
    eq_ok_of_accepted (accepted_checkForbidden.mpr fun name hName =>
      find?_write_other record (hForbidden name hName))
  have hRulesHold : r.rules.forM (r.checkRule record path) = .ok () := by
    apply eq_ok_of_accepted
    rw [accepted_forM]
    intro rule hRule
    unfold checkRule
    split
    · rename_i hMatches
      obtain ⟨hRequires, hForbids⟩ := hConforms.rules rule hRule hMatches
      rw [accepted_seq, accepted_forM, accepted_forM]
      exact ⟨fun name hName => by simp [hRequires name hName],
        fun name hName => by simp [hForbids name hName]⟩
    · exact accepted_ok _
  have hEnvelope : r.checkEnvelope record = .ok () := by
    unfold checkEnvelope
    split
    · rfl
    · rename_i spelling hSpelling
      rw [hConforms.envelope spelling hSpelling]
      simp
  rw [hStart] at hFold
  cases hWritten : r.write writer record with
  | obj entries =>
    rw [hWritten] at hFold hAbsent
    have hKnown : r.checkKnown (entries.map (·.1)) path = .ok () := by
      apply eq_ok_of_accepted
      rw [accepted_checkKnown, List.forall_mem_map]
      exact write_keys record hWritten
    simp only [read, hFold, hAbsent, hKnown, hRulesHold, hEnvelope, bind, Except.bind, ite_self]
  | _ =>
    have hObject : (r.write writer record).IsObject := write_isObject record
    simp [hWritten, Json.IsObject] at hObject

end

end Written

end RecordDescriptor

/-! ## Decoded members -/

section Decoded

variable {reader : NestedReader} {writer : NestedWriter} {language : Language}
variable {path : String} {member : Member}

  {nested : Described}

/-- What reading gives of the records a descriptor nests. -/
structure Yielding (reader : NestedReader) (writer : NestedWriter) (language : Language)
    (nested : Described) : Prop where
  reads : Reads reader language
  yields : ∀ name value path members, reader name value path = .ok members → nested name members
  written : ∀ name members, nested name members → (writer name members).IsObject
  object : ∀ name value, language name value → value.IsObject

/-- Every element of a decoded array was decoded. -/
theorem mapM_ok_iff {α β ε : Type} (f : α → Except ε β) (items : List α) (results : List β) :
    items.mapM f = .ok results ↔
      List.Forall₂ (fun item result => f item = .ok result) items results := by
  induction items generalizing results with
  | nil =>
    rw [List.mapM_nil, List.forall₂_nil_left_iff, eq_comm]
    simp [pure, Except.pure]
  | cons item rest ih =>
    rw [List.mapM_cons, List.forall₂_cons_left_iff]
    constructor
    · intro h
      obtain ⟨result, hItem, h⟩ := bind_ok h
      obtain ⟨others, hRest, h⟩ := bind_ok h
      exact ⟨result, others, hItem, (ih others).mp hRest, (Except.ok.inj h).symm⟩
    · rintro ⟨result, others, hItem, hRest, rfl⟩
      simp only [hItem, (ih others).mpr hRest, bind, Except.bind, pure, Except.pure]

theorem decodeArray_ok {decode : Json → String → Except ValidationError Member} {items : List Json}
    {value : Member} (h : decodeArray decode (.arr items) path = .ok value) :
    ∃ members, value = .vector members ∧ members.length = items.length ∧
      ∀ member ∈ members, ∃ item ∈ items, ∃ here, decode item here = .ok member := by
  obtain ⟨members, hMembers, h⟩ := bind_ok h
  have hAll := (mapM_ok_iff _ _ _).mp hMembers
  refine ⟨members, (Except.ok.inj h).symm, ?_, ?_⟩
  · rw [← hAll.length_eq, List.length_zipIdx]
  · intro member hMember
    obtain ⟨index, hIndex, rfl⟩ := List.mem_iff_getElem.mp hMember
    have hItem := hAll.get (by rw [hAll.length_eq]; exact hIndex) hIndex
    exact ⟨_, List.fst_mem_of_mem_zipIdx (List.get_mem _ _), _, hItem⟩

theorem decodeText_ok {value : Json} (h : decodeText value path = .ok member) :
    ∃ s, value = .str s ∧ member = .text s := by
  cases value with
  | str s => exact ⟨s, rfl, (Except.ok.inj h).symm⟩
  | _ => cases h

theorem decodeEnumeration_ok {vocabulary : EnumDescriptor} {value : Json}
    (h : decodeEnumeration vocabulary value path = .ok member) :
    ∃ s ∈ vocabulary.spellings, value = .str s ∧ member = .enumerator s := by
  cases value with
  | str s =>
    simp only [decodeEnumeration, enumFrom, List.contains_iff_mem] at h
    split at h
    · rename_i hSpelling
      exact ⟨s, hSpelling, rfl, (Except.ok.inj h).symm⟩
    · cases h
  | _ => cases h

/-- Two values that no constraint of a field with nested records tells apart. -/
def SameShape (value value' : Json) : Prop :=
  value = value' ∨ (value.IsObject ∧ value'.IsObject) ∨
    ∃ items items', value = .arr items ∧ value' = .arr items' ∧ items'.length = items.length

/-- A number that was read is written as the same number. -/
theorem uint_ofInt {n : JsonInteger} (hSign : 0 ≤ n.value) :
    Json.uint (UInt64.ofInt n.value) = .integer n := by
  have hUpper := n.upper
  unfold Json.uint
  congr 1
  apply JsonInteger.ext
  simp only [UInt64.ofInt, UInt64.toNat_ofNat']
  omega

theorem holds_of_decodeOne (hYielding : Yielding reader writer language nested) {kind : Kind}
    {value : Json} (hDecode : decodeOne reader kind value path = .ok member)
    (hAdmits : kind.Admits language value) :
    kind.Holds language nested member ∧ SameShape value (encodeOne writer kind member) ∧
      (kind = .any → encodeOne writer kind member = value) := by
  cases kind with
  | text =>
    obtain ⟨s, rfl, rfl⟩ := decodeText_ok hDecode
    exact ⟨⟨s, rfl⟩, .inl rfl, by simp⟩
  | integer =>
    obtain ⟨n, rfl, hSign⟩ := hAdmits
    rw [decodeOne, if_neg (by omega)] at hDecode
    cases hDecode
    exact ⟨⟨_, rfl⟩, .inl (uint_ofInt hSign).symm, by simp⟩
  | boolean =>
    obtain ⟨b, rfl⟩ := hAdmits
    cases hDecode
    exact ⟨⟨b, rfl⟩, .inl rfl, by simp⟩
  | enumeration vocabulary =>
    obtain ⟨s, hSpelling, rfl, rfl⟩ := decodeEnumeration_ok hDecode
    exact ⟨⟨s, hSpelling, rfl⟩, .inl rfl, by simp⟩
  | record name =>
    obtain ⟨members, hMembers, h⟩ := bind_ok hDecode
    cases h
    have hNested := hYielding.yields name value path members hMembers
    exact ⟨⟨members, rfl, hNested⟩,
      .inr (.inl ⟨hYielding.object name value hAdmits, hYielding.written name members hNested⟩),
      by simp⟩
  | records name =>
    obtain ⟨items, rfl, -⟩ := hAdmits
    rw [decodeOne] at hDecode
    obtain ⟨members, rfl, hLength, hItems⟩ := decodeArray_ok hDecode
    refine ⟨⟨members, rfl, fun member hMember => ?_⟩,
      .inr (.inr ⟨items, _, rfl, rfl, by rw [List.length_map, hLength]⟩), by simp⟩
    obtain ⟨item, -, here, hItem⟩ := hItems member hMember
    obtain ⟨entries, hEntries, h⟩ := bind_ok hItem
    cases h
    exact ⟨entries, rfl, hYielding.yields name item here entries hEntries⟩
  | texts =>
    obtain ⟨items, rfl, -⟩ := hAdmits
    obtain ⟨members, rfl, hLength, hItems⟩ := decodeArray_ok hDecode
    refine ⟨⟨members, rfl, fun member hMember => ?_⟩,
      .inr (.inr ⟨items, _, rfl, rfl, by rw [List.length_map, hLength]⟩), by simp⟩
    obtain ⟨item, -, here, hItem⟩ := hItems member hMember
    obtain ⟨s, -, hText⟩ := decodeText_ok hItem
    exact ⟨s, hText⟩
  | enumerations vocabulary =>
    obtain ⟨items, rfl, -⟩ := hAdmits
    obtain ⟨members, rfl, hLength, hItems⟩ := decodeArray_ok hDecode
    refine ⟨⟨members, rfl, fun member hMember => ?_⟩,
      .inr (.inr ⟨items, _, rfl, rfl, by rw [List.length_map, hLength]⟩), by simp⟩
    obtain ⟨item, -, here, hItem⟩ := hItems member hMember
    obtain ⟨s, hSpelling, -, hText⟩ := decodeEnumeration_ok hItem
    exact ⟨s, hSpelling, hText⟩
  | _ =>
    cases hDecode
    exact ⟨⟨value, rfl, hAdmits⟩, .inl rfl, fun _ => rfl⟩

theorem admit_of_sameShape {c : Constraints} {value value' : Json}
    (hShape : SameShape value value') (hSame : c.emptyObject = true → value' = value)
    (hAdmit : c.Admit value) : c.Admit value' := by
  by_cases hEmpty : c.emptyObject = true
  · rwa [hSame hEmpty]
  · rcases hShape with rfl | ⟨-, hObject⟩ | ⟨items, items', rfl, rfl, hLength⟩
    · exact hAdmit
    · cases value' with
      | obj entries => exact fun h => absurd h hEmpty
      | _ => exact absurd hObject (by simp [Json.IsObject])
    · obtain ⟨hObjectOnly, hEmptyObject, hItems⟩ := hAdmit
      refine ⟨hObjectOnly, hEmptyObject, fun hNonEmpty hNil => hItems hNonEmpty ?_⟩
      rw [← List.length_eq_zero_iff, ← hLength, hNil, List.length_nil]

theorem conforms_of_decodeOne (hYielding : Yielding reader writer language nested) {field : Field}
    (hFitting : field.Fitting) {value : Json} (hValue : value ≠ .null)
    (hDecode : decodeOne reader field.kind value path = .ok member)
    (hCheck : Accepted (checkConstraints reader field value path)) :
    field.Conforms language writer nested (some member) := by
  obtain ⟨hJson, hAdmit⟩ := (accepted_checkConstraints field value path).mp hCheck
  have hAdmits := (accepted_decodeOne hYielding.reads field.kind value path).mp
    ⟨⟨member, hDecode⟩, hJson⟩
  obtain ⟨hHolds, hShape, hAny⟩ := holds_of_decodeOne hYielding hDecode hAdmits
  refine ⟨?_, fun _ => ⟨hHolds, admit_of_sameShape hShape (fun hEmpty => ?_) hAdmit⟩⟩
  · rintro rfl
    cases hKind : field.kind <;> simp [Kind.Holds, hKind] at hHolds
    all_goals
      rw [hKind] at hDecode
      exact absurd (by simpa [decodeOne] using hDecode) hValue
  · exact hAny (hFitting.2.2 (by simp [hEmpty]))

end Decoded

namespace RecordDescriptor

/-! ## What was read -/

section Read

variable {reader : NestedReader} {writer : NestedWriter} {language : Language}
  {nested : Described} {r : RecordDescriptor} {value : Json} {path : String}

/-- What the descriptor says beyond its rules: a plain member is required and is nullable
only as a JSON member, the rules ignore optional members only, and no field has a forbidden
name. -/
structure Presentable (r : RecordDescriptor) : Prop where
  plain : ∀ field ∈ r.fields, field.optional = false →
    field.isRequired = true ∧ (field.nullable = true → field.kind.holdsJson = true)
  ignored : ∀ rule ∈ r.rules, ∀ field ∈ r.fields, field.name ∈ rule.ignoresFields →
    field.optional = true ∧ field.isRequired = false
  forbidden : ∀ name ∈ r.forbidden, name ∉ r.names
  fitting : ∀ field ∈ r.fields, field.Fitting

theorem setMember_layout (record : Record) {name : String} (hName : name ∈ record.map (·.1))
    (member : Option Member) : (record.setMember name member).map (·.1) = record.map (·.1) := by
  induction record with
  | nil => cases hName
  | cons entry rest ih =>
    rw [Record.setMember]
    by_cases hEntry : entry.1 = name
    · simp [hEntry]
    · rw [if_neg hEntry, List.map_cons, List.map_cons,
        ih ((List.mem_cons.mp hName).resolve_left (Ne.symm hEntry))]

theorem readField_layout {record record' : Record} {field : Field}
    (hOk : r.readField reader value path record field = .ok record')
    (hName : field.name ∈ record.map (·.1)) : record'.map (·.1) = record.map (·.1) := by
  rcases (readField_ok hOk).1 with rfl | ⟨member, rfl⟩
  · rfl
  · exact setMember_layout record hName member

theorem foldlM_frame (todo : List Field) {start final : Record}
    (hOk : todo.foldlM (r.readField reader value path) start = .ok final)
    (hTodo : ∀ field ∈ todo, field.name ∈ start.map (·.1)) : final.map (·.1) = start.map (·.1) ∧
      ∀ name ∉ todo.map (·.name), final.member name = start.member name := by
  induction todo generalizing start with
  | nil =>
    cases hOk
    exact ⟨rfl, fun _ _ => rfl⟩
  | cons field rest ih =>
    rw [List.foldlM_cons] at hOk
    obtain ⟨next, hStep, hRest⟩ := bind_ok hOk
    have hLayout := readField_layout hStep (hTodo field (by simp))
    obtain ⟨hFinal, hFrame⟩ := ih hRest fun other hOther => by
      rw [hLayout]
      exact hTodo other (List.mem_cons_of_mem _ hOther)
    refine ⟨hFinal.trans hLayout, fun name hName => ?_⟩
    rw [List.map_cons, List.mem_cons, not_or] at hName
    rw [hFrame name hName.2, readField_frame hStep hName.1]

theorem field_read (hNames : r.names.Nodup) {final : Record}
    (hOk : r.fields.foldlM (r.readField reader value path) r.initial = .ok final)
    {before after : List Field} {field : Field} (hFields : r.fields = before ++ field :: after) :
    ∃ current next, r.readField reader value path current field = .ok next ∧
      (∀ name ∈ before.map (·.name), current.member name = final.member name) ∧
      current.member field.name = field.initial ∧
      final.member field.name = next.member field.name := by
  have hInitial : r.initial.map (·.1) = r.names := by simp [initial, names]
  have hKeys : ∀ f ∈ r.fields, f.name ∈ r.initial.map (·.1) := by
    intro f hMem
    rw [hInitial]
    exact List.mem_map_of_mem hMem
  have hMem : field ∈ r.fields := by simp [hFields]
  have hNodup := hNames
  rw [names, hFields, List.map_append, List.map_cons, List.nodup_append] at hNodup
  obtain ⟨-, hRest, hApart⟩ := hNodup
  rw [List.nodup_cons] at hRest
  rw [hFields, List.foldlM_append] at hOk
  obtain ⟨current, hBefore, hOk⟩ := bind_ok hOk
  rw [List.foldlM_cons] at hOk
  obtain ⟨next, hStep, hAfter⟩ := bind_ok hOk
  have hFirst := foldlM_frame before hBefore fun f hF => hKeys f (by simp [hFields, hF])
  have hLayout := readField_layout hStep (by rw [hFirst.1]; exact hKeys field hMem)
  have hLast := foldlM_frame after hAfter fun f hF => by
    rw [hLayout, hFirst.1]
    exact hKeys f (by simp [hFields, hF])
  refine ⟨current, next, hStep, ?_, ?_, hLast.2 _ hRest.1⟩
  · intro name hName
    have hNe : name ≠ field.name := hApart name hName field.name (by simp)
    have hNot : name ∉ after.map (·.name) := by
      intro hLater
      exact hApart name hName name (List.mem_cons_of_mem _ hLater) rfl
    rw [hLast.2 name hNot, readField_frame hStep hNe]
  · have hNot : field.name ∉ before.map (·.name) := by
      intro hName
      exact hApart field.name hName field.name (by simp) rfl
    rw [hFirst.2 _ hNot, member_initial hNames hMem]

theorem conforms_of_readField (hYielding : Yielding reader writer language nested)
    (hPresentable : r.Presentable) (hRules : r.RulesReadable) {field : Field}
    (hMem : field ∈ r.fields) {current next : Record}
    (hInitial : current.member field.name = field.initial)
    (hRead : r.ignoredField current field.name = false)
    (hOk : r.readField reader value path current field = .ok next) :
    field.Conforms language writer nested (next.member field.name) := by
  cases hFind : value.find? field.name with
  | none =>
    simp only [readField, hRead, hFind, Bool.false_eq_true, if_false] at hOk
    split at hOk
    · cases hOk
    · rename_i hRequired
      cases hOk
      have hOptional : field.optional = true := by
        by_contra hNot
        exact hRequired (hPresentable.plain field hMem (by simpa using hNot)).1
      rw [hInitial, Option.isNone_iff_eq_none.mp (hRules.initial field hMem hOptional)]
      exact ⟨hOptional, fun h => absurd h hRequired⟩
  | some w =>
    by_cases hNull : w = .null
    · subst hNull
      simp only [readField, hRead, hFind, Bool.false_eq_true, if_false] at hOk
      split at hOk
      · cases hOk
      · rename_i hNullable
        have hNullable : field.nullable = true := by simpa using hNullable
        split at hOk
        · rename_i hJson
          cases hOk
          rw [Bool.and_eq_true, Bool.not_eq_true'] at hJson
          rw [Record.member_setMember, if_pos rfl]
          exact ⟨fun _ => ⟨hJson.1, hNullable, hJson.2⟩, fun h => absurd rfl h⟩
        · rename_i hJson
          cases hOk
          have hOptional : field.optional = true := by
            by_contra hNot
            have hPlain := hPresentable.plain field hMem (by simpa using hNot)
            exact hJson (by simp [hNot, hPlain.2 hNullable])
          rw [hInitial, Option.isNone_iff_eq_none.mp (hRules.initial field hMem hOptional)]
          exact ⟨hOptional, fun _ => hNullable⟩
    · rw [readField_present hRead hFind hNull] at hOk
      obtain ⟨member, hDecode, hOk⟩ := bind_ok hOk
      obtain ⟨⟨⟩, hCheck, hOk⟩ := bind_ok hOk
      cases hOk
      rw [Record.member_setMember, if_pos rfl]
      exact conforms_of_decodeOne hYielding (hPresentable.fitting field hMem) hNull hDecode
        ⟨_, hCheck⟩

theorem read_parts {entries : List (String × Json)} {record : Record}
    (hOk : r.read reader (.obj entries) path = .ok record) :
    r.fields.foldlM (r.readField reader (.obj entries) path) r.initial = .ok record ∧
      r.rules.forM (r.checkRule record path) = .ok () ∧ r.checkEnvelope record = .ok () := by
  obtain ⟨final, hFold, hOk⟩ := bind_ok hOk
  obtain ⟨-, -, hOk⟩ := bind_ok hOk
  have hRest : (r.rules.forM (r.checkRule final path)).bind (fun _ =>
      (r.checkEnvelope final).bind fun _ => Except.ok final) = .ok record := by
    dsimp only at hOk
    split at hOk
    · obtain ⟨-, -, hOk⟩ := bind_ok hOk
      exact hOk
    · exact hOk
  obtain ⟨⟨⟩, hChecked, hRest⟩ := bind_ok hRest
  obtain ⟨⟨⟩, hEnvelope, hRest⟩ := bind_ok hRest
  cases hRest
  exact ⟨hFold, hChecked, hEnvelope⟩

theorem conforms_of_read (hYielding : Yielding reader writer language nested)
    (hPresentable : r.Presentable) (hRules : r.RulesReadable) {record : Record}
    (hOk : r.read reader value path = .ok record) :
    r.Conforms language writer nested record ∧ r.LeavesIgnored record := by
  cases value with
  | obj entries =>
    obtain ⟨hFold, hChecked, hEnvelope⟩ := read_parts hOk
    have hField : ∀ field ∈ r.fields,
        field.Conforms language writer nested (record.member field.name) ∧
        (r.ignoredField record field.name = true → record.member field.name = field.initial) := by
      intro field hMem
      obtain ⟨before, after, hFields⟩ := List.append_of_mem hMem
      obtain ⟨current, next, hStep, hBefore, hInitial, hFinal⟩ :=
        field_read hRules.names hFold hFields
      have hSame : r.ignoredField current field.name = r.ignoredField record field.name :=
        ignoredField_congr fun rule hRule hName =>
          hBefore _ (selector_before hRules hFields hRule hName)
      rw [hFinal, ← hSame]
      cases hIgnored : r.ignoredField current field.name with
      | true =>
        rw [readField, if_pos hIgnored] at hStep
        cases hStep
        simp only [ignoredField, List.any_eq_true, Bool.and_eq_true,
          List.contains_iff_mem] at hIgnored
        obtain ⟨rule, hRule, -, hName⟩ := hIgnored
        obtain ⟨hOptional, hRequired⟩ := hPresentable.ignored rule hRule field hMem hName
        refine ⟨?_, fun _ => hInitial⟩
        rw [hInitial, Option.isNone_iff_eq_none.mp (hRules.initial field hMem hOptional)]
        exact ⟨hOptional, fun h => by simp [h] at hRequired⟩
      | false =>
        exact ⟨conforms_of_readField hYielding hPresentable hRules hMem hInitial hIgnored hStep,
          by simp⟩
    refine ⟨⟨?_, fun field hMem => (hField field hMem).1, ?_, ?_⟩,
      fun field hMem => (hField field hMem).2⟩
    · have hInitial : r.initial.map (·.1) = r.names := by simp [initial, names]
      rw [(foldlM_frame r.fields hFold fun field hMem => by
        rw [hInitial]
        exact List.mem_map_of_mem hMem).1, hInitial]
    · intro rule hRule hMatches
      have hRuleOk := (accepted_forM _ _).mp ⟨_, hChecked⟩ rule hRule
      rw [checkRule, if_pos hMatches, accepted_seq, accepted_forM, accepted_forM] at hRuleOk
      simpa [accepted_require, accepted_refuse] using hRuleOk
    · intro spelling hSpelling
      rw [Option.mem_def] at hSpelling
      simp only [checkEnvelope, hSpelling] at hEnvelope
      split at hEnvelope
      · rename_i found hMember
        split at hEnvelope
        · rename_i hSame
          rw [hMember, hSame]
        · cases hEnvelope
      · cases hEnvelope
  | _ => cases hOk

end Read

end RecordDescriptor

/-! ## The declared records -/

/-- The records of a wire name that satisfy their own wire rules, and `also`, at every
level of nesting. -/
def conforms (also : RecordDescriptor → Record → Prop) (declared : List RecordDescriptor) :
    Described :=
  match declared with
  | [] => fun _ _ => False
  | r :: above => fun name record =>
    if r.name = name then
      r.Conforms (language above) (toJson above) (conforms also above) record ∧ also r record
    else conforms also above name record

section Declared

variable {declared : List RecordDescriptor}

variable (declared : List RecordDescriptor)

theorem language_isObject (name : String) (value : Json)
    (hLanguage : language declared name value) : value.IsObject := by
  induction declared with
  | nil => exact absurd hLanguage id
  | cons r above ih =>
    by_cases hName : r.name = name
    · simp only [language, if_pos hName] at hLanguage
      obtain ⟨entries, rfl, -⟩ := hLanguage.object
      trivial
    · simp only [language, if_neg hName] at hLanguage
      exact ih hLanguage

theorem toJson_isObject {also : RecordDescriptor → Record → Prop} (name : String) (record : Record)
    (hConforms : conforms also declared name record) : (toJson declared name record).IsObject := by
  induction declared with
  | nil => exact absurd hConforms id
  | cons r above ih =>
    by_cases hName : r.name = name
    · simp only [toJson, if_pos hName]
      exact RecordDescriptor.write_isObject record
    · simp only [conforms, if_neg hName] at hConforms
      simp only [toJson, if_neg hName]
      exact ih hConforms

theorem restores_declared (hDeclared : ∀ r ∈ declared, r.RulesReadable ∧ r.Presentable) :
    Restores (fromJson declared) (toJson declared)
      (conforms RecordDescriptor.LeavesIgnored declared) := by
  induction declared with
  | nil => exact fun _ _ h => absurd h id
  | cons r above ih =>
    have hAbove := fun r' (hMem : r' ∈ above) => hDeclared r' (List.mem_cons_of_mem _ hMem)
    obtain ⟨hRules, hPresentable⟩ := hDeclared r (by simp)
    intro name record hConforms path
    by_cases hName : r.name = name
    · simp only [conforms, if_pos hName] at hConforms
      simp only [fromJson, toJson, if_pos hName]
      exact RecordDescriptor.read_write
        { reads := reads_fromJson above fun r' hMem => (hAbove r' hMem).1
          restores := ih hAbove
          notNull := not_language_null above }
        hRules hPresentable.forbidden hConforms.1 hConforms.2 path
    · simp only [conforms, if_neg hName] at hConforms
      simp only [fromJson, toJson, if_neg hName]
      exact ih hAbove name record hConforms path

theorem yields_declared (hDeclared : ∀ r ∈ declared, r.RulesReadable ∧ r.Presentable)
    (name : String) (value : Json) (path : String) (record : Record)
    (hOk : fromJson declared name value path = .ok record) :
    conforms RecordDescriptor.LeavesIgnored declared name record := by
  induction declared generalizing name value path record with
  | nil => cases hOk
  | cons r above ih =>
    have hAbove := fun r' (hMem : r' ∈ above) => hDeclared r' (List.mem_cons_of_mem _ hMem)
    obtain ⟨hRules, hPresentable⟩ := hDeclared r (by simp)
    by_cases hName : r.name = name
    · simp only [fromJson, if_pos hName] at hOk
      simp only [conforms, if_pos hName]
      exact RecordDescriptor.conforms_of_read
        { reads := reads_fromJson above fun r' hMem => (hAbove r' hMem).1
          yields := ih hAbove
          written := toJson_isObject above
          object := language_isObject above }
        hPresentable hRules hOk
    · simp only [fromJson, if_neg hName] at hOk
      simp only [conforms, if_neg hName]
      exact ih hAbove name value path record hOk

theorem conforms_append {also : RecordDescriptor → Record → Prop}
    {before above : List RecordDescriptor} {r : RecordDescriptor}
    (hBefore : ∀ other ∈ before, other.name ≠ r.name) (record : Record) :
    conforms also (before ++ r :: above) r.name record ↔
      r.Conforms (language above) (toJson above) (conforms also above) record ∧ also r record := by
  induction before with
  | nil => simp [conforms]
  | cons other rest ih =>
    simp only [List.cons_append, conforms, if_neg (hBefore other (by simp))]
    exact ih fun other' hMem => hBefore other' (List.mem_cons_of_mem _ hMem)

end Declared

/-! ## The wire records -/

namespace RecordDescriptor

def auditPresentable (r : RecordDescriptor) : Bool :=
  r.fields.all (fun field => field.fits &&
    (field.optional || (field.isRequired && (!field.nullable || field.kind.holdsJson)))) &&
  r.rules.all (fun rule => r.fields.all fun field =>
    !rule.ignoresFields.contains field.name || (field.optional && !field.isRequired)) &&
  r.forbidden.all fun name => !r.names.contains name

theorem presentable_of_audit {r : RecordDescriptor} (h : r.auditPresentable = true) :
    r.Presentable := by
  simp only [auditPresentable, Bool.and_eq_true, List.all_eq_true, Bool.or_eq_true,
    Bool.not_eq_true', List.contains_eq_mem, decide_eq_false_iff_not] at h
  obtain ⟨⟨hFields, hRules⟩, hForbidden⟩ := h
  refine
    { plain := ?_
      ignored := fun rule hRule field hMem hName =>
        (hRules rule hRule field hMem).resolve_left fun hNot => hNot hName
      forbidden := hForbidden
      fitting := fun field hMem => Field.fitting_of_fits (hFields field hMem).1 }
  intro field hMem hOptional
  obtain ⟨hRequired, hNullable⟩ :=
    (hFields field hMem).2.resolve_left fun h => by simp [hOptional] at h
  exact ⟨hRequired, fun h => hNullable.resolve_left fun hNot => by simp [h] at hNot⟩

end RecordDescriptor

theorem wire_presentable : ∀ r ∈ Wire.declarations, r.RulesReadable ∧ r.Presentable := by
  have hAudit : Wire.declarations.all RecordDescriptor.auditPresentable = true := by
    decide +kernel
  intro r hMem
  exact ⟨wire_wellDeclared.readable r hMem,
    RecordDescriptor.presentable_of_audit (List.all_eq_true.mp hAudit r hMem)⟩

/-- `to_json(from_json(value))`, when the value is accepted. -/
def rewritten (name : String) (value : Json) (path : String) : Except ValidationError Json :=
  (fromJson Wire.declarations name value path).map (toJson Wire.declarations name)

/-- The codec restores every record that satisfies its own wire rules and holds nothing in
a field that they ignore; what it reads is such a record; and rewriting an accepted value
gives an accepted value that rewriting leaves alone. -/
theorem codec_round_trip (name : String) :
    (∀ record, conforms RecordDescriptor.LeavesIgnored Wire.declarations name record →
      ∀ path, fromJson Wire.declarations name (toJson Wire.declarations name record) path =
        .ok record) ∧
    (∀ value path record, fromJson Wire.declarations name value path = .ok record →
      conforms RecordDescriptor.LeavesIgnored Wire.declarations name record) ∧
    ∀ value path output, rewritten name value path = .ok output →
      ∀ path', rewritten name output path' = .ok output := by
  have hRestores := restores_declared Wire.declarations wire_presentable
  have hYields := yields_declared Wire.declarations wire_presentable
  refine ⟨hRestores name, hYields name, ?_⟩
  intro value path output hOk path'
  unfold rewritten at hOk ⊢
  cases hRead : fromJson Wire.declarations name value path with
  | error error => simp [hRead, Except.map] at hOk
  | ok record =>
    rw [hRead] at hOk
    cases hOk
    rw [hRestores name record (hYields name value path record hRead) path']
    rfl

def partialQuery : Json :=
  .obj [("operation", .str "history"), ("request_id", .str "q"), ("limit", Json.uint 5),
    ("part", Json.uint 7)]

/-- Rewriting keeps the limit, drops the part and settles. -/
theorem codec_round_trip_partialQuery :
    ∃ output, rewritten Wire.payloadRequest.name partialQuery "" = .ok output ∧
      output.find? "limit" = some (Json.uint 5) ∧ output.find? "part" = none ∧
      rewritten Wire.payloadRequest.name output "data" = .ok output := by
  have hDecide : (rewritten Wire.payloadRequest.name partialQuery "").toOption.map (fun output =>
      (output.find? "limit", output.find? "part")) = some (some (Json.uint 5), none) := by
    decide +kernel
  cases hCase : rewritten Wire.payloadRequest.name partialQuery "" with
  | error error => simp [hCase, Except.toOption] at hDecide
  | ok output =>
    rw [hCase] at hDecide
    obtain ⟨hLimit, hPart⟩ := Prod.mk.inj (Option.some.inj hDecide)
    exact ⟨output, rfl, hLimit, hPart,
      (codec_round_trip Wire.payloadRequest.name).2.2 partialQuery "" output hCase "data"⟩

def historyWithPart : Record :=
  [("operation", some (.enumerator "history")), ("request_id", some (.text "q")),
   ("content", none), ("options", none), ("start", none), ("step", none), ("limit", none),
   ("source", none), ("part", some (.number 5)), ("offset", none)]

/-- The query satisfies its wire rules and holds no JSON value, yet loses its part. -/
theorem historyWithPart_not_restored :
    conforms (fun _ _ => True) Wire.declarations Wire.payloadRequest.name historyWithPart ∧
    (∀ entry ∈ historyWithPart, ∀ value, entry.2 ≠ some (.json value)) ∧
    fromJson Wire.declarations Wire.payloadRequest.name
      (toJson Wire.declarations Wire.payloadRequest.name historyWithPart) "" ≠
        .ok historyWithPart := by
  have hSplit : Wire.declarations =
      Wire.declarations.take 30 ++ Wire.payloadRequest :: Wire.declarations.drop 31 := rfl
  refine ⟨?_, by simp [historyWithPart], ?_⟩
  · rw [hSplit, conforms_append (by decide +kernel)]
    refine ⟨⟨by decide +kernel, ?_, by decide +kernel, by simp [Wire.payloadRequest]⟩, trivial⟩
    simp [Wire.payloadRequest, historyWithPart, Field.Conforms, Record.member, enumeration, text,
      records, opaqueJson, integer, record, Field.opt, Field.objectOnly, Field.defaultValue,
      Field.isRequired, Kind.Holds, Constraints.Admit, encodeOne, Json.uint, Wire.inputOperation,
      List.lookup]
  · intro hOk
    have hPart : ((fromJson Wire.declarations Wire.payloadRequest.name
        (toJson Wire.declarations Wire.payloadRequest.name historyWithPart) "").toOption.bind
          fun record => record.member "part").isSome = false := by
      decide +kernel
    rw [hOk] at hPart
    cases hPart

end SimplexAgent.Protocol
