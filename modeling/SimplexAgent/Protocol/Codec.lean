import SimplexAgent.Dataclass.Json

/-!
# The record codec of the worker protocol

A wire record is described once, as a list of fields with their kinds, presence,
nullability and constraints, and a table of conditional rules. This module holds the
descriptors and the reader that interprets them: `fromJson` from
`protocol/codec.hpp`, with the paths and the texts of its errors.

A field names the record it nests by that record's wire name, and the reader takes the
table of declared records, the latest first: the declarations stand in dependency
order, so a record only nests records declared before it. The members of a record that
is being read are kept by field name. An optional member without a value is `none`.
-/

namespace SimplexAgent.Protocol

open Dataclass

/-! ## Descriptors -/

/-- A closed vocabulary with its exact wire spellings. -/
structure EnumDescriptor where
  name : String
  spellings : List String
  deriving DecidableEq

/-- How a described value is spelled on the wire, with the vocabulary or the records
it refers to. -/
inductive Kind where
  | text
  | integer
  | boolean
  | any
  | enumeration (vocabulary : EnumDescriptor)
  | enumerations (vocabulary : EnumDescriptor)
  | record (name : String)
  | records (name : String)
  | texts
  | textOrRecord (name : String)
  | projectedBatch (name marker : String)
  deriving DecidableEq

inductive UnknownFields where
  | ignore
  | reject
  deriving DecidableEq

inductive Presence where
  | inferred
  | required
  | optional
  deriving DecidableEq

/-- Acceptance rules that need no application state. Lengths count bytes. -/
structure Constraints where
  minLength : Option Nat := none
  maxLength : Option Nat := none
  minimum : Option Nat := none
  maximum : Option Nat := none
  objectOnly : Bool := false
  emptyObject : Bool := false
  nonEmpty : Bool := false
  constant : Option String := none
  deriving DecidableEq

/-- One conditional requirement attached to a record. -/
structure Rule where
  whenField : String
  whenEquals : String
  requiresFields : List String := []
  forbidsFields : List String := []
  closed : Bool := false
  ignoresFields : List String := []
  deriving DecidableEq

inductive Member where
  | json (value : Json)
  | text (value : String)
  | number (value : UInt64)
  | flag (value : Bool)
  | enumerator (spelling : String)
  | record (members : List (String × Option Member))
  | vector (items : List Member)

abbrev Record := List (String × Option Member)

/-- A field bound to one member of its record; `optional` says that the member is a
`std::optional`, `initial` is the member of a new record. -/
structure Field where
  name : String
  kind : Kind
  optional : Bool := false
  presence : Presence := .inferred
  nullable : Bool := false
  constraints : Constraints := {}
  defaultJson : Option Json := none
  initial : Option Member

/-- Presence after inference. -/
def Field.isRequired (field : Field) : Bool :=
  match field.presence with
  | .required => true
  | .optional => false
  | .inferred => !field.optional

structure RecordDescriptor where
  name : String
  fields : List Field
  unknown : UnknownFields := .ignore
  forbidden : List String := []
  rules : List Rule := []
  /-- The spelling that `wire_validate` of an envelope insists on. -/
  wireValidate : Option String := none

/-! ## Field builders -/

def text (name : String) : Field where
  name := name
  kind := .text
  initial := some (.text "")

def integer (name : String) : Field where
  name := name
  kind := .integer
  initial := some (.number 0)

def boolean (name : String) (initial : Bool := false) : Field where
  name := name
  kind := .boolean
  initial := some (.flag initial)

/-- `opaque`: an open JSON value. -/
def opaqueJson (name : String) (initial : Json := .obj []) : Field where
  name := name
  kind := .any
  initial := some (.json initial)

def enumeration (vocabulary : EnumDescriptor) (name initial : String) : Field where
  name := name
  kind := .enumeration vocabulary
  initial := some (.enumerator initial)

def record (nested name : String) : Field where
  name := name
  kind := .record nested
  initial := some (.record [])

def records (nested name : String) : Field where
  name := name
  kind := .records nested
  initial := some (.vector [])

def texts (name : String) : Field where
  name := name
  kind := .texts
  initial := some (.vector [])

def textOrRecord (nested name : String) : Field where
  name := name
  kind := .textOrRecord nested
  initial := some (.json (.str ""))

def projectedBatch (nested marker name : String) : Field where
  name := name
  kind := .projectedBatch nested marker
  initial := some (.json .null)

namespace Field

/-- The member is a `std::optional`. -/
def opt (field : Field) : Field := { field with optional := true, initial := none }

def required (field : Field) : Field := { field with presence := .required }

def nullableValue (field : Field) : Field := { field with nullable := true }

def objectOnly (field : Field) : Field :=
  { field with constraints := { field.constraints with objectOnly := true } }

def constant (field : Field) (spelling : String) : Field :=
  { field with constraints := { field.constraints with constant := some spelling } }

def defaultValue (field : Field) (value : Json) : Field :=
  { field with defaultJson := some value }

end Field

/-! ## Errors -/

structure ValidationError where
  path : String
  message : String
  deriving DecidableEq

def ValidationError.what (error : ValidationError) : String :=
  if error.path = "" then error.message else error.path ++ ": " ++ error.message

def joinPath (path name : String) : String :=
  if path = "" then name else path ++ "." ++ name

def elementPath (path : String) (index : Nat) : String :=
  path ++ "[" ++ toString index ++ "]"

/-! ## Rules on a record -/

namespace Record

def member (record : Record) (name : String) : Option Member :=
  (record.lookup name).join

def setMember (record : Record) (name : String) (value : Option Member) : Record :=
  match record with
  | [] => [(name, value)]
  | entry :: rest =>
    if entry.1 = name then (name, value) :: rest else entry :: setMember rest name value

end Record

namespace RecordDescriptor

/-- `R record{}`. -/
def initial (r : RecordDescriptor) : Record :=
  r.fields.map fun field => (field.name, field.initial)

/-- `rule_matches`: the member of the rule's field is an enumerator or a text, and
spells the rule's value. An optional member never matches. -/
def ruleMatches (r : RecordDescriptor) (record : Record) (rule : Rule) : Bool :=
  r.fields.any fun field =>
    field.name = rule.whenField && !field.optional &&
      match record.member field.name with
      | some (.enumerator spelling) => spelling = rule.whenEquals
      | some (.text value) => value = rule.whenEquals
      | _ => false

/-- `field_present`. -/
def fieldPresent (r : RecordDescriptor) (record : Record) (name : String) : Bool :=
  r.fields.any fun field =>
    field.name = name && (!field.optional || (record.member name).isSome)

/-- `ignored_field`. -/
def ignoredField (r : RecordDescriptor) (record : Record) (name : String) : Bool :=
  r.rules.any fun rule => r.ruleMatches record rule && rule.ignoresFields.contains name

/-- `closed_scope`. -/
def closedScope (r : RecordDescriptor) (record : Record) : Bool :=
  r.unknown = .reject || r.rules.any fun rule => rule.closed && r.ruleMatches record rule

end RecordDescriptor

/-! ## Reading -/

abbrev NestedReader := String → Json → String → Except ValidationError Record

/-- `enum_from`. -/
def enumFrom (vocabulary : EnumDescriptor) (spelling path : String) :
    Except ValidationError Member :=
  if vocabulary.spellings.contains spelling then .ok (.enumerator spelling)
  else .error ⟨path, "expected one of " ++ ", ".intercalate vocabulary.spellings⟩

def decodeText (input : Json) (path : String) : Except ValidationError Member :=
  match input with
  | .str value => .ok (.text value)
  | _ => .error ⟨path, "expected a string"⟩

def decodeEnumeration (vocabulary : EnumDescriptor) (input : Json) (path : String) :
    Except ValidationError Member :=
  match input with
  | .str spelling => enumFrom vocabulary spelling path
  | _ => .error ⟨path, "expected an enumeration spelling"⟩

def decodeArray (decode : Json → String → Except ValidationError Member) (input : Json)
    (path : String) : Except ValidationError Member :=
  match input with
  | .arr items => do
    let members ← items.zipIdx.mapM fun item => decode item.1 (elementPath path item.2)
    .ok (.vector members)
  | _ => .error ⟨path, "expected an array"⟩

/-- `decode_one`. The library holds no integer beyond the unsigned 64-bit range, so of
the range checks only the sign can fail. -/
def decodeOne (nested : NestedReader) (kind : Kind) (input : Json) (path : String) :
    Except ValidationError Member :=
  match kind with
  | .any | .textOrRecord _ | .projectedBatch _ _ => .ok (.json input)
  | .text => decodeText input path
  | .boolean =>
    match input with
    | .bool value => .ok (.flag value)
    | _ => .error ⟨path, "expected a boolean"⟩
  | .integer =>
    match input with
    | .integer n =>
      if n.value < 0 then .error ⟨path, "expected a nonnegative integer"⟩
      else .ok (.number (UInt64.ofInt n.value))
    | _ => .error ⟨path, "expected an integer"⟩
  | .enumeration vocabulary => decodeEnumeration vocabulary input path
  | .record name => do
    let members ← nested name input path
    .ok (.record members)
  | .records name =>
    decodeArray (fun item here => do
      let members ← nested name item here
      .ok (.record members)) input path
  | .texts => decodeArray decodeText input path
  | .enumerations vocabulary => decodeArray (decodeEnumeration vocabulary) input path

def isMarker (key : String) (item : Json) : Bool := (item.find? key).isSome

/-- `validate_text_or_record`. -/
def validateTextOrRecord (nested : NestedReader) (name : String) (value : Json)
    (path : String) : Except ValidationError Unit :=
  match value with
  | .str _ => .ok ()
  | other => do
    let _ ← nested name other path
    .ok ()

/-- `validate_projected_batch`. -/
def validateProjectedBatch (nested : NestedReader) (name marker : String) (value : Json)
    (path : String) : Except ValidationError Unit :=
  match value with
  | .arr items =>
    items.zipIdx.forM fun (item, index) => do
      let here := elementPath path index
      if isMarker "display_omitted" item then
        if index + 1 ≠ items.length then
          .error ⟨here, "an omission marker must be the final element"⟩
        else
          let _ ← nested marker item here
          .ok ()
      else
        let _ ← nested name item here
        .ok ()
  | _ => .error ⟨path, "expected an array"⟩

/-- The `validate_json` hook of a field. -/
def validateJson (nested : NestedReader) (kind : Kind) (value : Json) (path : String) :
    Except ValidationError Unit :=
  match kind with
  | .textOrRecord name => validateTextOrRecord nested name value path
  | .projectedBatch name marker => validateProjectedBatch nested name marker value path
  | _ => .ok ()

def checkContainer (constraints : Constraints) (value : Json) (path : String) :
    Except ValidationError Unit :=
  match value with
  | .obj fields =>
    if constraints.emptyObject && !fields.isEmpty then
      .error ⟨path, "must be an empty object"⟩
    else .ok ()
  | other =>
    if constraints.objectOnly || constraints.emptyObject then
      .error ⟨path, "expected a JSON object"⟩
    else
      match other with
      | .arr items =>
        if constraints.nonEmpty && items.isEmpty then
          .error ⟨path, "must be a nonempty array"⟩
        else .ok ()
      | _ => .ok ()

/-- The constraints on a string: its byte length and its fixed spelling. -/
def checkText (constraints : Constraints) (value path : String) :
    Except ValidationError Unit :=
  if constraints.minLength.any (value.utf8ByteSize < ·) then
    .error ⟨path, "value is shorter than the minimum length"⟩
  else if constraints.maxLength.any (· < value.utf8ByteSize) then
    .error ⟨path, "value is longer than the maximum length"⟩
  else
    match constraints.constant with
    | some constant =>
      if value = constant then .ok ()
      else .error ⟨path, "must be \"" ++ constant ++ "\""⟩
    | none => .ok ()

def checkRange (constraints : Constraints) (value : Int) (path : String) :
    Except ValidationError Unit :=
  if constraints.minimum = none ∧ constraints.maximum = none then .ok ()
  else if value < 0 then .error ⟨path, "expected a nonnegative integer"⟩
  else if constraints.minimum.any fun (least : Nat) => value < (least : Int) then
    .error ⟨path, "value is below the minimum"⟩
  else if constraints.maximum.any fun (largest : Nat) => (largest : Int) < value then
    .error ⟨path, "value is above the maximum"⟩
  else .ok ()

/-- `check_constraints`. -/
def checkConstraints (nested : NestedReader) (field : Field) (value : Json)
    (path : String) : Except ValidationError Unit := do
  validateJson nested field.kind value path
  checkContainer field.constraints value path
  match value with
  | .str s => checkText field.constraints s path
  | .integer n => checkRange field.constraints n.value path
  | _ => .ok ()

/-- A JSON member keeps an explicit null as its value. -/
def Kind.holdsJson : Kind → Bool
  | .any | .textOrRecord _ | .projectedBatch _ _ => true
  | _ => false

namespace RecordDescriptor

/-- `read_field`. A field the matching rules ignore is not even type-checked. -/
def readField (nested : NestedReader) (r : RecordDescriptor) (input : Json)
    (path : String) (record : Record) (field : Field) : Except ValidationError Record :=
  if r.ignoredField record field.name then .ok record
  else
    let here := joinPath path field.name
    match input.find? field.name with
    | none =>
      if field.isRequired then .error ⟨here, "missing required field"⟩ else .ok record
    | some .null =>
      if !field.nullable then .error ⟨here, "explicit null is not accepted"⟩
      else if !field.optional && field.kind.holdsJson then
        .ok (record.setMember field.name (some (.json .null)))
      else .ok record
    | some value => do
      let member ← decodeOne nested field.kind value here
      checkConstraints nested field value here
      .ok (record.setMember field.name (some member))

def checkForbidden (r : RecordDescriptor) (input : Json) (path : String) :
    Except ValidationError Unit :=
  r.forbidden.forM fun name =>
    if (input.find? name).isSome then
      .error ⟨joinPath path name, "this record does not accept that field"⟩
    else .ok ()

/-- Every key of a closed scope is the name of a field. -/
def checkKnown (r : RecordDescriptor) (keys : List String) (path : String) :
    Except ValidationError Unit :=
  keys.forM fun key =>
    if r.fields.any (·.name = key) then .ok ()
    else .error ⟨joinPath path key, "unknown field"⟩

def checkRule (r : RecordDescriptor) (record : Record) (path : String) (rule : Rule) :
    Except ValidationError Unit :=
  if r.ruleMatches record rule then do
    rule.requiresFields.forM fun name =>
      if r.fieldPresent record name then .ok ()
      else .error ⟨joinPath path name,
        "required when " ++ rule.whenField ++ " is " ++ rule.whenEquals⟩
    rule.forbidsFields.forM fun name =>
      if r.fieldPresent record name then .error ⟨joinPath path name,
        "not accepted when " ++ rule.whenField ++ " is " ++ rule.whenEquals⟩
      else .ok ()
  else .ok ()

/-- `wire_validate` of the three connection envelopes; its path is the bare field. -/
def checkEnvelope (r : RecordDescriptor) (record : Record) : Except ValidationError Unit :=
  match r.wireValidate with
  | none => .ok ()
  | some spelling =>
    match record.member "type" with
    | some (.enumerator found) =>
      if found = spelling then .ok ()
      else .error ⟨"type", "expected \"" ++ spelling ++ "\""⟩
    | _ => .error ⟨"type", "expected \"" ++ spelling ++ "\""⟩

/-- `from_json` of one record, over the reader of the records it nests. -/
def read (nested : NestedReader) (r : RecordDescriptor) (input : Json) (path : String) :
    Except ValidationError Record :=
  match input with
  | .obj entries => do
    let record ← r.fields.foldlM (r.readField nested input path) r.initial
    r.checkForbidden input path
    if r.closedScope record then r.checkKnown (entries.map (·.1)) path
    r.rules.forM (r.checkRule record path)
    r.checkEnvelope record
    .ok record
  | _ => .error ⟨path, "expected a JSON object"⟩

end RecordDescriptor

/-- `from_json` of a declared record. The declarations are the latest first, so the
rest of the list is what the record may nest. -/
def fromJson (declared : List RecordDescriptor) : NestedReader :=
  match declared with
  | [] => fun name _ path => .error ⟨path, "undeclared record " ++ name⟩
  | r :: above => fun name input path =>
    if r.name = name then r.read (fromJson above) input path
    else fromJson above name input path

end SimplexAgent.Protocol
