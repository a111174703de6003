import SimplexAgent.Dataclass.Json
import SimplexAgent.Verified.Rounding
import SimplexAgent.Verified.Utf8
import Mathlib.Data.List.DropRight

/-!
# Tool declarations

The checks of a tool declaration, whose argument schema goes on the wire as it is. Texts are
bytes, which need not be UTF-8. A document is what the YAML boundary hands on: an integer is held
signed where 64 bits are wide enough for that, and unsigned from `2 ^ 63` on.
-/

namespace SimplexAgent.Tools.Declaration

open Dataclass (JsonInteger)
open Verified

abbrev Text := List UInt8

def word (s : String) : Text := Utf8.encode s.toList

instance : Coe String Text := ⟨word⟩

inductive Document where
  | null
  | bool (value : Bool)
  | integer (value : JsonInteger)
  | float (value : Rat)
  | str (value : Text)
  | arr (items : List Document)
  | obj (fields : List (Text × Document))

/-- What is not under the program's control: the regular expressions, and how a value is
written. -/
structure Host where
  compiles : (pattern : Text) → Bool
  search : (pattern value : Text) → Bool
  dump : Document → Text

/-- The integer after a cast to `std::int64_t`. -/
def signed (n : JsonInteger) : Int := if n.value < 2 ^ 63 then n.value else n.value - 2 ^ 64

/-- The integer after a cast to `double` is that floating value. -/
def sameDouble (n : JsonInteger) (q : Rat) : Bool :=
  match Rounding.toDouble n.value with
  | .finite p => p == q
  | .infinite _ => false

namespace Document

mutual

/-- `operator==`. Of two integers one of which is unsigned, that one is cast. -/
def equal : Document → Document → Bool
  | .null, .null => true
  | .bool x, .bool y => x == y
  | .integer x, .integer y => signed x == signed y
  | .integer x, .float q => sameDouble x q
  | .float p, .integer y => sameDouble y p
  | .float p, .float q => p == q
  | .str x, .str y => x == y
  | .arr xs, .arr ys => equalItems xs ys
  | .obj xs, .obj ys => equalFields xs ys
  | _, _ => false

def equalItems : List Document → List Document → Bool
  | [], [] => true
  | x :: xs, y :: ys => equal x y && equalItems xs ys
  | _, _ => false

def equalFields : List (Text × Document) → List (Text × Document) → Bool
  | [], [] => true
  | (k, x) :: xs, (l, y) :: ys => k == l && equal x y && equalFields xs ys
  | _, _ => false

end

def find? (document : Document) (key : Text) : Option Document :=
  match document with
  | .obj fields => fields.lookup key
  | _ => none

def contains (document : Document) (key : Text) : Bool := (document.find? key).isSome

def typeName : Document → Text
  | .null => "null"
  | .bool _ => "boolean"
  | .integer _ | .float _ => "number"
  | .str _ => "string"
  | .arr _ => "array"
  | .obj _ => "object"

/-- The elements of an array. -/
def items : Document → List Document
  | .arr items => items
  | _ => []

def bytes : Document → Text
  | .str value => value
  | _ => []

/-- `operator<` of an integer and a bound. -/
def lessThan (value : Document) (bound : JsonInteger) : Bool :=
  match value with
  | .integer n => signed n < signed bound
  | _ => false

def greaterThan (value : Document) (bound : JsonInteger) : Bool :=
  match value with
  | .integer n => signed bound < signed n
  | _ => false

end Document

/-! ## Refusals -/

structure Refusal where
  path : Text
  reason : Text

abbrev Check := Except Refusal Unit

def fail {α : Type} (path reason : Text) : Except Refusal α :=
  .error ⟨if path.isEmpty then "/" else path, reason⟩

def refuse (wrong : Bool) (path reason : Text) : Check :=
  if wrong then fail path reason else .ok ()

/-- The elements of an array with their positions. -/
def checkEach {α : Type} (check : Nat → α → Check) : Nat → List α → Check
  | _, [] => .ok ()
  | index, x :: rest => do
    check index x
    checkEach check (index + 1) rest

def position (index : Nat) : Text := toString index

def checkKeys (fields : List (Text × Document)) (supported : List Text) (path : Text)
    (reason : Text → Text) : Check :=
  fields.forM fun entry =>
    refuse (!supported.contains entry.1) (path ++ "/" ++ entry.1) (reason entry.1)

def isSpace (byte : UInt8) : Bool := byte == 0x20 || byte == 0x09 || byte == 0x0d || byte == 0x0a

def trimmed (text : Text) : Text := text.rdropWhile isSpace

def requireStringAt (object : Document) (key path what : Text) : Except Refusal Text :=
  match object.find? key with
  | none => fail (path ++ "/" ++ key) (what ++ " is missing")
  | some (.str text) => do
    refuse (trimmed text).isEmpty (path ++ "/" ++ key) (what ++ " must not be empty")
    return trimmed text
  | some other => fail (path ++ "/" ++ key) (what ++ " must be a string, got " ++ other.typeName)

/-! ## Kinds -/

inductive Kind where
  | string | boolean | integer | array | object
  deriving DecidableEq

def Kind.name : Kind → Text
  | .string => "string"
  | .boolean => "boolean"
  | .integer => "integer"
  | .array => "array"
  | .object => "object"

def kSchemaVocabulary : Text := "type, properties, required, additionalProperties, anyOf"

def kPropertyVocabulary : Text :=
  "type, description, default, enum, minimum, maximum, minLength, maxLength, pattern, minItems, " ++
  "items, properties, required, additionalProperties"

def kNarrowingVocabulary : Text :=
  "enum, minimum, maximum, minLength, maxLength, pattern, minItems"

def kTypeVocabulary : Text := "string, boolean, integer, array, object"

def hasKind : Document → Kind → Bool
  | .str _, .string | .bool _, .boolean | .integer _, .integer | .arr _, .array
  | .obj _, .object => true
  | _, _ => false

def requireKind (property : Document) (path : Text) : Except Refusal Kind :=
  match property.find? "type" with
  | none =>
    fail (path ++ "/type")
      ("a property must declare its type (type: one of " ++ kTypeVocabulary ++ ")")
  | some (.str given) =>
    match [Kind.string, .boolean, .integer, .array, .object].find? (·.name == given) with
    | some kind => .ok kind
    | none =>
      fail (path ++ "/type") ("\"" ++ given ++ "\" is not a kind of argument this project's " ++
        "tools take; the vocabulary is " ++ kTypeVocabulary)
  | some other =>
    fail (path ++ "/type") ("the declared type must be a string, got " ++ other.typeName)

/-! ## Value clauses -/

structure ValueClauses where
  allowedValues : Option (List Document)
  minimum : Option JsonInteger
  maximum : Option JsonInteger
  minLength : Option JsonInteger
  maxLength : Option JsonInteger
  pattern : Option Text
  minItems : Option JsonInteger

def ValueClauses.saysNothing (clauses : ValueClauses) : Bool :=
  clauses.allowedValues.isNone && clauses.minimum.isNone && clauses.maximum.isNone &&
    clauses.minLength.isNone && clauses.maxLength.isNone && clauses.pattern.isNone &&
    clauses.minItems.isNone

/-- Code points, counted by their leading bytes in a text that is UTF-8. -/
def stringLength (text path : Text) : Except Refusal Nat := do
  refuse (!text.toByteArray.validateUTF8) path "string must contain valid UTF-8"
  return text.countP fun byte => !Utf8.isContinuation byte

variable (host : Host)

def checkLengths (value : Document) (clauses : ValueClauses) (path : Text) : Check :=
  if clauses.minLength.isSome || clauses.maxLength.isSome then do
    let length ← stringLength value.bytes path
    clauses.minLength.forM fun bound =>
      refuse (length < bound.value.toNat) path (host.dump value ++ " is shorter than the " ++
        "minLength this declaration states (" ++ host.dump (.integer bound) ++ ")")
    clauses.maxLength.forM fun bound =>
      refuse (bound.value.toNat < length) path "value exceeds maxLength"
  else .ok ()

def checkValueAgainstClauses (value : Document) (kind : Kind) (clauses : ValueClauses)
    (path : Text) : Check := do
  refuse (!hasKind value kind) path ("must be a " ++ kind.name ++ ", got " ++ value.typeName)
  clauses.allowedValues.forM fun values =>
    refuse (!values.any (·.equal value)) path
      (host.dump value ++ " is not one of the values this declaration lists in its enum")
  clauses.minimum.forM fun bound =>
    refuse (value.lessThan bound) path (host.dump value ++ " is below the minimum this " ++
      "declaration states (" ++ host.dump (.integer bound) ++ ")")
  clauses.maximum.forM fun bound =>
    refuse (value.greaterThan bound) path (host.dump value ++ " is above the maximum this " ++
      "declaration states (" ++ host.dump (.integer bound) ++ ")")
  checkLengths host value clauses path
  clauses.pattern.forM fun pattern =>
    refuse (!host.search pattern value.bytes) path "value does not match pattern"
  clauses.minItems.forM fun bound =>
    refuse (value.items.length < bound.value.toNat) path "array has fewer than minItems elements"

def enumClause (schema : Document) (kind : Kind) (path : Text) :
    Except Refusal (Option (List Document)) :=
  match schema.find? "enum" with
  | none => .ok none
  | some (.arr (first :: rest)) => .ok (some (first :: rest))
  | some other =>
    fail (path ++ "/enum")
      ("enum must be a non-empty array of " ++ kind.name ++ " values, got " ++ other.typeName)

def integerClause (schema : Document) (kind : Kind) (path key : Text) (on : Kind)
    (article : Text) : Except Refusal (Option JsonInteger) :=
  match schema.find? key with
  | none => .ok none
  | some bound => do
    refuse (kind ≠ on) (path ++ "/" ++ key)
      (key ++ " applies to " ++ article ++ " property, and this one is a " ++ kind.name)
    match bound with
    | .integer n => .ok (some n)
    | other =>
      fail (path ++ "/" ++ key) (key ++ " must be an integer, got " ++ other.typeName)

def minLengthClause (schema : Document) (kind : Kind) (path : Text) :
    Except Refusal (Option JsonInteger) := do
  let length ← integerClause schema kind path "minLength" .string "a string"
  refuse (length.any (signed · < 0)) (path ++ "/minLength")
    ("minLength must not be negative: no string is shorter than zero characters, so it would " ++
      "say nothing")
  return length

/-- `maxLength` and `minItems`. -/
def sizeClause (schema : Document) (kind : Kind) (path key : Text) (on : Kind) :
    Except Refusal (Option JsonInteger) :=
  match schema.find? key with
  | none => .ok none
  | some (.integer n) => do
    refuse (kind ≠ on || signed n < 0) (path ++ "/" ++ key)
      "bound must be a nonnegative integer on its corresponding kind"
    return some n
  | some _ =>
    fail (path ++ "/" ++ key) "bound must be a nonnegative integer on its corresponding kind"

def patternClause (schema : Document) (kind : Kind) (path : Text) :
    Except Refusal (Option Text) :=
  match schema.find? "pattern" with
  | none => .ok none
  | some pattern => do
    refuse (kind ≠ .string || !hasKind pattern .string) (path ++ "/pattern")
      "pattern must be a string on a string property"
    refuse (!host.compiles pattern.bytes) (path ++ "/pattern")
      "invalid ECMAScript regular expression"
    return some pattern.bytes

/-- The lower bound is above the upper one. -/
def crossed : Option JsonInteger → Option JsonInteger → Bool
  | some low, some high => signed high < signed low
  | _, _ => false

def checkClauses (schema : Document) (kind : Kind) (path : Text) :
    Except Refusal ValueClauses := do
  let allowedValues ← enumClause schema kind path
  let minimum ← integerClause schema kind path "minimum" .integer "an integer"
  let maximum ← integerClause schema kind path "maximum" .integer "an integer"
  refuse (crossed minimum maximum) (path ++ "/maximum") "maximum must not be below minimum"
  let minLength ← minLengthClause schema kind path
  let maxLength ← sizeClause schema kind path "maxLength" .string
  let minItems ← sizeClause schema kind path "minItems" .array
  refuse (crossed minLength maxLength) (path ++ "/maxLength")
    "maxLength must not be below minLength"
  let pattern ← patternClause host schema kind path
  let clauses : ValueClauses :=
    { allowedValues, minimum, maximum, minLength, maxLength, pattern, minItems }
  allowedValues.forM fun values =>
    checkEach (fun index value =>
      checkValueAgainstClauses host value kind clauses (path ++ "/enum/" ++ position index))
      0 values
  return clauses

/-! ## Properties -/

def checkRequiredList (names : Document) (properties : List (Text × Document)) (path : Text) :
    Check :=
  match names with
  | .arr entries =>
    checkEach (fun index entry =>
      match entry with
      | .str name =>
        refuse (properties.lookup name).isNone (path ++ "/" ++ position index)
          ("\"" ++ name ++ "\" is required but no such property is declared under properties")
      | _ =>
        fail (path ++ "/" ++ position index)
          "required entries must be property names (strings)")
      0 entries
  | _ => fail path "required must be an array of property names"

def propertiesOf (schema : Document) (path : Text) (reason : Document → Text) :
    Except Refusal (List (Text × Document)) :=
  match schema.find? "properties" with
  | none => .ok []
  | some (.obj fields) => .ok fields
  | some other => fail (path ++ "/properties") (reason other)

def checkFields (checkProperty : Document → Text → Check) (schema : Document) (path : Text) :
    Check := do
  let properties ← propertiesOf schema path fun _ => "properties must be a mapping"
  (schema.find? "additionalProperties").forM fun additional =>
    refuse (!hasKind additional .boolean) (path ++ "/additionalProperties")
      "additionalProperties must be a boolean"
  properties.forM fun entry => checkProperty entry.2 (path ++ "/properties/" ++ entry.1)
  (schema.find? "required").forM fun names =>
    checkRequiredList names properties (path ++ "/required")

def checkItems (objectFields : Document → Text → Check) (items : Document) (path : Text) :
    Check :=
  match items with
  | .obj fields => do
    let kind ← requireKind items path
    if kind = .object then do
      checkKeys fields ["type", "properties", "required", "additionalProperties"] path
        fun _ => "unknown object item schema keyword"
      objectFields items path
    else do
      checkKeys fields ["type"] path fun key =>
        "\"" ++ key ++ "\" is not something this project declares about an array's elements: " ++
        "`type: string` is the whole of it"
      refuse (kind ≠ .string) (path ++ "/type")
        ("an array's elements must be strings, got " ++ kind.name ++ ": " ++
        "optional_string_list() is the only array this tree reads")
  | other =>
    fail path ("items must be a mapping describing the elements (\x7btype: string\x7d), got " ++
      other.typeName)

def itemsClause (objectFields : Document → Text → Check) (property : Document) (kind : Kind)
    (path : Text) : Check :=
  match property.find? "items" with
  | some items => do
    refuse (kind ≠ .array) (path ++ "/items")
      ("only an array property takes items, and this one declares type: " ++ kind.name)
    checkItems objectFields items (path ++ "/items")
  | none =>
    refuse (kind = .array) (path ++ "/items")
      "an array property must declare what its elements are (items: \x7btype: string\x7d)"

def objectClause (objectFields : Document → Text → Check) (property : Document) (kind : Kind)
    (path : Text) : Check :=
  if kind = .object then objectFields property path
  else [word "properties", "required", "additionalProperties"].forM fun key =>
    refuse (property.contains key) (path ++ "/" ++ key) "object keyword requires type: object"

/-- A property whose values are objects, or arrays of them. -/
def structured (property : Document) (kind : Kind) : Bool :=
  kind = .object || kind = .array &&
    ((property.find? "items").bind (·.find? "type")).any (·.equal (.str "object"))

def defaultClause (property : Document) (kind : Kind) (clauses : ValueClauses) (path : Text) :
    Check :=
  (property.find? "default").forM fun fallback => do
    refuse (structured property kind) (path ++ "/default")
      "structured defaults are not supported; omit default for object arguments"
    checkValueAgainstClauses host fallback kind clauses (path ++ "/default")
    if kind = .array then
      checkEach (fun index element =>
        refuse (!hasKind element .string) (path ++ "/default/" ++ position index)
          ("every element of an array default must be a string, got " ++ element.typeName))
        0 fallback.items
    else .ok ()

def propertyKeys : List Text :=
  ["type", "description", "default", "enum", "minimum", "maximum", "minLength", "maxLength",
    "pattern", "minItems", "items", "properties", "required", "additionalProperties"]

def checkPropertyWith (objectFields : Document → Text → Check) (property : Document)
    (path : Text) : Check :=
  match property with
  | .obj fields => do
    checkKeys fields propertyKeys path fun key =>
      "\"" ++ key ++ "\" is not part of the argument-schema vocabulary this project supports (" ++
      kPropertyVocabulary ++ "); a keyword the loader does not check is one nothing " ++
      "downstream would notice was wrong"
    let kind ← requireKind property path
    let _ ← requireStringAt property "description" path "the property's description"
    itemsClause objectFields property kind path
    objectClause objectFields property kind path
    let clauses ← checkClauses host property kind path
    refuse (structured property kind && property.contains "enum") (path ++ "/enum")
      "structured enums are not supported; omit enum for object arguments"
    defaultClause host property kind clauses path
  | other => fail path ("every property must be a mapping, got " ++ other.typeName)

/-- The check of an object's fields that may go so many levels deep: what is at depth `d` of the
source has `33 - d` levels. -/
def checkObjectFields : (levels : Nat) → Document → Text → Check
  | 0, _, path => fail path "argument schema nesting exceeds 32 levels"
  | levels + 1, schema, path =>
    checkFields (checkPropertyWith host (checkObjectFields levels)) schema path

def checkProperty : Document → Text → Check := checkPropertyWith host (checkObjectFields host 32)

/-! ## Alternatives -/

def checkAbsence (properties : List (Text × Document)) (branchRequired rootRequired : List Document)
    (names : Document) (path : Text) : Check := do
  checkRequiredList names properties (path ++ "/required")
  match names with
  | .arr [name] =>
    refuse (branchRequired.any (·.equal name) || rootRequired.any (·.equal name))
      (path ++ "/required") "a branch cannot both require and exclude a property"
  | _ => fail (path ++ "/required") "not must exclude exactly one declared property"

mutual

/-- What an alternative excludes. Only the alternatives of an absence have an `anyOf` above
them, and those must have a `required` in its place. -/
def checkExclusion (properties : List (Text × Document))
    (branchRequired rootRequired : List Document) : Document → Text → Check
  | .obj [(key, value)], path =>
    if key = "anyOf" then
      match value with
      | .arr (first :: rest) =>
        checkAlternatives properties branchRequired rootRequired 0 (first :: rest) path
      | _ => fail path "absence anyOf must be nonempty"
    else if key = "required" then
      checkAbsence properties branchRequired rootRequired value path
    else fail path "not must contain a required list"
  | _, path => fail path "not must contain only required or anyOf absence predicates"

def checkAlternatives (properties : List (Text × Document))
    (branchRequired rootRequired : List Document) : Nat → List Document → Text → Check
  | _, [], _ => .ok ()
  | index, alternative :: rest, path => do
    refuse (!alternative.contains "required") path
      "absence alternatives must contain a required list"
    checkExclusion properties branchRequired rootRequired alternative
      (path ++ "/anyOf/" ++ position index)
    checkAlternatives properties branchRequired rootRequired (index + 1) rest path

end

def namesContain (names : List Document) (name : Text) : Bool := names.any (·.bytes == name)

def narrowingKeys : List Text :=
  ["enum", "minimum", "maximum", "minLength", "maxLength", "pattern", "minItems"]

def checkNarrowing (properties : List (Text × Document)) (path : Text)
    (entry : Text × Document) : Check :=
  match properties.lookup entry.1, entry.2 with
  | none, _ =>
    fail (path ++ "/properties/" ++ entry.1) ("\"" ++ entry.1 ++ "\" is not a property this " ++
      "schema declares: an alternative narrows a property, it does not introduce one")
  | some property, .obj clauses => do
    checkKeys clauses narrowingKeys (path ++ "/properties/" ++ entry.1) fun key =>
      "\"" ++ key ++ "\" is not something an alternative may narrow (" ++ kNarrowingVocabulary ++
      "): the type and the description come from the property itself"
    let kind ← requireKind property ("/argument_schema/properties/" ++ entry.1)
    let stated ← checkClauses host entry.2 kind (path ++ "/properties/" ++ entry.1)
    refuse stated.saysNothing (path ++ "/properties/" ++ entry.1)
      ("a narrowing must state one of " ++ kNarrowingVocabulary ++ "; leave the entry out to " ++
      "require the property as it stands")
  | some _, other =>
    fail (path ++ "/properties/" ++ entry.1)
      ("a narrowing must be a mapping, got " ++ other.typeName)

def checkNarrowings (branch : Document) (properties : List (Text × Document)) (path : Text) :
    Check :=
  match branch.find? "properties" with
  | none => .ok ()
  | some (.obj narrowed) => narrowed.forM (checkNarrowing host properties path)
  | some other =>
    fail (path ++ "/properties")
      ("an alternative's properties must be a mapping, got " ++ other.typeName)

/-- What an alternative requires and excludes. -/
def checkDemands (branch names : Document) (properties : List (Text × Document))
    (required : List Document) (path : Text) : Check := do
  checkRequiredList names properties (path ++ "/required")
  (branch.find? "not").forM fun excluded =>
    checkExclusion properties names.items required excluded (path ++ "/not")
  refuse (!(names.items.any fun name => !namesContain required name.bytes) &&
      !branch.contains "not") (path ++ "/required")
    ("an alternative must require a property the schema does not already require, or declare " ++
      "a checked not absence predicate")

def checkBranch (properties : List (Text × Document)) (required : List Document) (index : Nat)
    (branch : Document) : Check :=
  let path := word "/argument_schema/anyOf/" ++ position index
  match branch with
  | .obj fields => do
    checkKeys fields ["required", "properties", "not"] path fun key =>
      "\"" ++ key ++ "\" is not something an alternative may state (required, properties, " ++
      "not); what an alternative does is require properties of the call, and narrow the values they " ++
      "may carry"
    match branch.find? "required" with
    | none =>
      fail (path ++ "/required") ("an alternative must state a required list; use required: " ++
        "[] only with a checked not absence predicate")
    | some names => do
      checkDemands branch names properties required path
      checkNarrowings host branch properties path
  | other => fail path ("every alternative must be a mapping, got " ++ other.typeName)

/-! ## The declaration -/

def checkAnyOf (schema : Document) (properties : List (Text × Document))
    (required : List Document) (path : Text) : Check :=
  match schema.find? "anyOf" with
  | none => .ok ()
  | some (.arr (first :: rest)) =>
    checkEach (checkBranch host properties required) 0 (first :: rest)
  | some other =>
    fail (path ++ "/anyOf")
      ("anyOf must be a non-empty array of alternatives, got " ++ other.typeName)

def checkSchema (schema : Document) (fields : List (Text × Document)) : Check := do
  let path := word "/argument_schema"
  checkKeys fields ["type", "properties", "required", "additionalProperties", "anyOf"] path
    fun key => "\"" ++ key ++ "\" is not part of the argument-schema vocabulary this project " ++
      "supports (" ++ kSchemaVocabulary ++ "); the subtree goes on the wire verbatim, so a " ++
      "keyword the loader cannot check is one nothing downstream would notice was wrong"
  refuse (!(schema.find? "type").any (·.equal (.str "object"))) (path ++ "/type")
    "the argument schema must describe an object (type: object)"
  let properties ← propertiesOf schema path fun other =>
    "properties must be a mapping, got " ++ other.typeName
  (schema.find? "additionalProperties").forM fun additional =>
    refuse (!additional.equal (.bool false)) (path ++ "/additionalProperties")
      "additionalProperties must be false to exclude undeclared arguments"
  properties.forM fun entry => checkProperty host entry.2 (path ++ "/properties/" ++ entry.1)
  (schema.find? "required").forM fun names =>
    checkRequiredList names properties (path ++ "/required")
  checkAnyOf host schema properties ((schema.find? "required").elim [] Document.items) path

def requireArgumentSchema (document : Document) : Except Refusal Document :=
  match document.find? "argument_schema" with
  | none => fail "/argument_schema" "a declaration must carry the tool's argument schema"
  | some (.obj fields) => do
    checkSchema host (.obj fields) fields
    return .obj fields
  | some other =>
    fail "/argument_schema" ("the argument schema must be a mapping, got " ++ other.typeName)

structure ToolDeclaration where
  name : Text
  description : Text
  argumentSchema : Document
  config : Document

/-- What becomes of a document that the YAML boundary has read. -/
def loadToolDeclaration (document : Document) : Except Refusal ToolDeclaration :=
  match document with
  | .obj _ => do
    let name ← requireStringAt document "name" [] "the tool's name"
    let description ← requireStringAt document "description" [] "the tool's description"
    let argumentSchema ← requireArgumentSchema host document
    let config := (document.find? "config").getD (.obj [])
    refuse (!hasKind config .object) "/config" "config must be a mapping"
    return { name, description, argumentSchema, config }
  | other => fail [] ("a tool declaration must be a YAML mapping, got " ++ other.typeName)

end SimplexAgent.Tools.Declaration
