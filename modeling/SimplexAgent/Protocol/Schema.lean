import SimplexAgent.Protocol.Wire

/-!
# The published schema

`json_schema()` from `protocol/manifest.cpp` walks the registries and publishes one
JSON Schema definition per record and per vocabulary. A schema is kept here as the
record of its keywords, an absent keyword being `none` (or the keyword's neutral value),
so that the generator reads as the assignments of the source.

`Schema.holds` is Draft 2020-12 validation for the keywords the generator emits. The
byte-length and the trailing-marker annotations are read as the codec reads them. A
number with a zero fractional part is an integer, however it is written. Following a
reference does not shrink the schema, so validation counts its own nesting; every result
below is for every depth from some bound on.
-/

namespace SimplexAgent.Protocol

open Dataclass

/-! ## Schemas -/

inductive JsonType where
  | object
  | array
  | string
  | integer
  | boolean
  | null
  deriving DecidableEq

structure Schema where
  ref : Option String := none
  type : Option JsonType := none
  const : Option Json := none
  enum : Option (List Json) := none
  minimum : Option Nat := none
  maximum : Option Nat := none
  minItems : Nat := 0
  maxProperties : Option Nat := none
  required : List String := []
  properties : List (String × Schema) := []
  additionalProperties : Bool := true
  items : Option Schema := none
  contains : Option Schema := none
  minContains : Nat := 1
  maxContains : Option Nat := none
  anyOf : Option (List Schema) := none
  allOf : List Schema := []
  not : Option Schema := none
  ifSchema : Option Schema := none
  thenSchema : Option Schema := none
  elseSchema : Option Schema := none
  defaultValue : Option Json := none
  /-- `x-simplex-utf8-bytes`: the least and the largest byte length of a string. -/
  utf8Bytes : Option Nat × Option Nat := (none, none)
  /-- `x-simplex-trailing-marker`: only the last element may carry this key. -/
  trailingMarker : Option String := none

abbrev Definitions := List (String × Schema)

/-! ## Validation -/

def JsonType.holds : JsonType → Json → Bool
  | .object, .obj _ => true
  | .array, .arr _ => true
  | .string, .str _ => true
  | .integer, .integer _ => true
  | .integer, .float q => q.den = 1
  | .boolean, .bool _ => true
  | .null, .null => true
  | _, _ => false

def onlyLast (key : String) (items : List Json) : Bool :=
  items.dropLast.all fun item => !isMarker key item

namespace Schema

/-- The assertions on a string, a number, an array or an object that look at no
subschema. -/
def assertions (s : Schema) (v : Json) : Bool :=
  s.type.all (·.holds v) &&
  s.const.all (Json.equals v ·) &&
  s.enum.all (·.any (Json.equals v ·)) &&
  match v with
  | .integer _ | .float _ =>
    v.number?.all fun q =>
      s.minimum.all (fun (least : Nat) => (least : Rat) ≤ q) &&
      s.maximum.all fun (largest : Nat) => q ≤ (largest : Rat)
  | .str value =>
    s.utf8Bytes.1.all (· ≤ value.utf8ByteSize) && s.utf8Bytes.2.all (value.utf8ByteSize ≤ ·)
  | .arr items =>
    s.minItems ≤ items.length && s.trailingMarker.all (onlyLast · items)
  | .obj entries =>
    s.maxProperties.all (entries.length ≤ ·) &&
    s.required.all (fun name => (v.find? name).isSome) &&
    (s.additionalProperties || entries.all fun entry => (s.properties.lookup entry.1).isSome)
  | _ => true

/-- The keywords that apply a subschema to an element or a property. -/
def childrenHold (sub : Schema → Json → Bool) (s : Schema) (v : Json) : Bool :=
  match v with
  | .arr items =>
    s.items.all (fun schema => items.all (sub schema)) &&
    s.contains.all fun schema =>
      let count := items.countP (sub schema)
      s.minContains ≤ count && s.maxContains.all (count ≤ ·)
  | .obj _ =>
    s.properties.all fun property => (v.find? property.1).all (sub property.2)
  | _ => true

/-- The keywords that apply a subschema to the value itself. -/
def combinedHold (sub : Schema → Json → Bool) (s : Schema) (v : Json) : Bool :=
  s.anyOf.all (·.any (sub · v)) &&
  s.allOf.all (sub · v) &&
  s.not.all (!sub · v) &&
  match s.ifSchema with
  | some condition =>
    if sub condition v then s.thenSchema.all (sub · v) else s.elseSchema.all (sub · v)
  | none => true

/-- The value is valid under the schema; `depth` bounds the nesting of schemas. -/
def holds (definitions : Definitions) : Nat → Schema → Json → Bool
  | 0, _, _ => false
  | depth + 1, s, v =>
    s.ref.all (fun name =>
      (definitions.lookup name).any fun target => holds definitions depth target v) &&
    s.assertions v &&
    s.childrenHold (holds definitions depth) v &&
    s.combinedHold (holds definitions depth) v

end Schema

/-! ## The generator -/

def kindSchema (kind : Kind) (constraints : Constraints) : Schema :=
  match kind with
  | .textOrRecord name =>
    { anyOf := some [{ type := some .string }, { ref := some name }] }
  | .projectedBatch name marker =>
    let markerSchema : Schema := { type := some .object, required := ["display_omitted"] }
    { type := some .array
      items := some
        { ifSchema := some markerSchema
          thenSchema := some { ref := some marker }
          elseSchema := some { ref := some name } }
      contains := some markerSchema
      minContains := 0
      maxContains := some 1
      trailingMarker := some "display_omitted" }
  | .enumerations vocabulary =>
    { type := some .array, items := some { ref := some vocabulary.name } }
  | .text => { type := some .string }
  | .integer => { type := some .integer, minimum := some 0, maximum := some (2 ^ 64 - 1) }
  | .boolean => { type := some .boolean }
  | .any =>
    if constraints.objectOnly || constraints.emptyObject then { type := some .object } else {}
  | .enumeration vocabulary => { ref := some vocabulary.name }
  | .record name => { ref := some name }
  | .records name => { type := some .array, items := some { ref := some name } }
  | .texts => { type := some .array, items := some { type := some .string } }

def constrain (type : Schema) (constraints : Constraints) : Schema :=
  { type with
    const := constraints.constant.map Json.str
    utf8Bytes := (constraints.minLength, constraints.maxLength)
    minimum := constraints.minimum.or type.minimum
    maximum := constraints.maximum.or type.maximum
    minItems := if constraints.nonEmpty then 1 else 0
    maxProperties := if constraints.emptyObject then some 0 else none
    additionalProperties := !constraints.emptyObject }

/-- `schema_type`. -/
def schemaType (field : Field) : Schema :=
  let type := constrain (kindSchema field.kind field.constraints) field.constraints
  if field.nullable then { anyOf := some [type, { type := some .null }] } else type

def assignProperty (properties : List (String × Schema)) (name : String) (schema : Schema) :
    List (String × Schema) :=
  match properties with
  | [] => [(name, schema)]
  | property :: rest =>
    if property.1 = name then (name, schema) :: rest
    else property :: assignProperty rest name schema

/-- Some of the names are present: the schema under a `not`. -/
def anyRequired (names : List String) : Option Schema :=
  if names.isEmpty then none
  else some { anyOf := some (names.map fun name => { required := [name] }) }

namespace RecordDescriptor

def property (field : Field) : String × Schema :=
  (field.name, { schemaType field with defaultValue := field.defaultJson })

def properties (r : RecordDescriptor) : List (String × Schema) := r.fields.map property

/-- An ignored field is published without a type. -/
def ignoring (properties : List (String × Schema)) (names : List String) :
    List (String × Schema) :=
  names.foldl (fun acc name => assignProperty acc name {}) properties

def branch (r : RecordDescriptor) (rule : Rule) : Schema where
  ifSchema := some
    { properties := [(rule.whenField, { const := some (.str rule.whenEquals) })]
      required := [rule.whenField] }
  thenSchema := some
    { properties := ignoring r.properties rule.ignoresFields
      required := rule.requiresFields
      not := anyRequired rule.forbidsFields
      additionalProperties := !rule.closed }

def entry (r : RecordDescriptor) : Schema where
  type := some .object
  additionalProperties := r.unknown != .reject
  properties :=
    r.rules.foldl (fun acc rule => ignoring acc rule.ignoresFields) r.properties
  not := anyRequired r.forbidden
  allOf := r.rules.map r.branch
  required := (r.fields.filter (·.isRequired)).map (·.name)

end RecordDescriptor

def EnumDescriptor.entry (vocabulary : EnumDescriptor) : Schema where
  type := some .string
  enum := some (vocabulary.spellings.map Json.str)

/-- The `$defs` of `json_schema`. -/
def definitions (records : List RecordDescriptor) (vocabularies : List EnumDescriptor) :
    Definitions :=
  records.map (fun r => (r.name, r.entry)) ++ vocabularies.map fun e => (e.name, e.entry)

/-- `json_schema`. -/
def jsonSchema : Definitions := definitions Wire.recordRegistry Wire.enumRegistry

end SimplexAgent.Protocol
