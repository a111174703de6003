import SimplexAgent.Dataclass.ModelIoJson

/-!
# Tool invocation failures

`tools/invoke_exception.hpp`. A failure at any checkpoint of a tool call is one
type, and it converts to the record the conversation carries: prose for the model
in `output.raw`, a machine-readable marker in `extras`.

The record answers the call its caller made. A failure raised against another
call keeps that call under `extras.cause_query`, and never as the record's own
query; `correlate` is the same rule for a record that a successful call produced.
So whoever produced a record or an exception, the query it ends up with is the
one the converting layer supplies (`correlate_query`).
-/

namespace SimplexAgent.Tools

open Dataclass

/-- The checkpoint an invocation failed at, in the order the checkpoints run. -/
inductive Stage where
  | dispatch
  | argumentParse
  | securityCheck
  | invoke
  | resultCheck
  | unknown
  deriving DecidableEq, Repr, Inhabited

namespace Stage

def phrase : Stage → String
  | dispatch => "while dispatching the invocation to a tool"
  | argumentParse => "while parsing the invocation arguments"
  | securityCheck => "while validating the invocation's security"
  | invoke => "while invoking the tool"
  | resultCheck => "while validating the tool result"
  | unknown => "at an unknown stage"

/-- The stable token the failure marker spells a stage with. -/
def key : Stage → String
  | dispatch => "dispatch"
  | argumentParse => "argument_parse"
  | securityCheck => "security_check"
  | invoke => "invoke"
  | resultCheck => "result_check"
  | unknown => "unknown"

def values : List Stage :=
  [dispatch, argumentParse, securityCheck, invoke, resultCheck, unknown]

/-- The stage a token names, if this build knows it. -/
def fromKey (token : String) : Option Stage :=
  values.find? fun stage => decide (token = stage.key)

theorem fromKey_key (stage : Stage) : fromKey stage.key = some stage :=
  find_named (fun a b => by cases a <;> cases b <;> simp [key])
    (by cases stage <;> simp [values])

end Stage

/-- A failed invocation: where it failed, the bare message, the call it is about,
the text of the error code behind it when one is set, and the call it was really
about once it has been correlated to another one. -/
structure InvokeException where
  stage : Stage
  message : String
  query : InvokeQuery := {}
  errorCode : Option String := none
  cause : Option InvokeQuery := none

namespace InvokeException

/-- The parenthetical pieces of the rendering, those that are set. -/
def contextPieces (errorCode : Option String) (query : InvokeQuery) : List String :=
  errorCode.toList ++ (if query.name = "" then [] else ["tool " ++ query.name]) ++
    (if query.id = "" then [] else ["call " ++ query.id])

/-- The one-line rendering, which is also the text the model reads. -/
def what (e : InvokeException) : String :=
  let pieces := contextPieces e.errorCode e.query
  "Failed " ++ e.stage.phrase ++ ": " ++ e.message ++
    (if pieces = [] then "" else " (" ++ "; ".intercalate pieces ++ ")")

def extrasKey : String := "error"

def causeKey : String := "cause_query"

def namesADifferentCall (e : InvokeException) (call : InvokeQuery) : Bool :=
  e.query.id ≠ "" && e.query.id ≠ call.id

/-- The call to preserve beside a record that answers `answering`. -/
def effectiveCause (e : InvokeException) (answering : InvokeQuery) : Option InvokeQuery :=
  if e.namesADifferentCall answering then some e.query else e.cause

def marker (e : InvokeException) : Json :=
  Json.object [("stage", .str e.stage.key), ("message", .str e.message)]

def buildRecord (e : InvokeException) (answering : InvokeQuery) (cause : Option InvokeQuery) :
    InvokeReturn :=
  { query := answering
    output := { type := .text, raw := e.what }
    extras := some (((Json.object []).set extrasKey e.marker).setOptional causeKey
      (cause.map InvokeQuery.toJson)) }

/-- The record answering the exception's own call. -/
def toInvokeReturn (e : InvokeException) : InvokeReturn :=
  e.buildRecord e.query (e.effectiveCause e.query)

/-- The same failure about `call`, rendered for it. -/
def correlatedTo (e : InvokeException) (call : InvokeQuery) : InvokeException :=
  { stage := e.stage, message := e.message, query := call, errorCode := e.errorCode,
    cause := e.effectiveCause call }

/-- The record answering `call`, whatever call the exception names. -/
def toInvokeReturnFor (e : InvokeException) (call : InvokeQuery) : InvokeReturn :=
  (e.correlatedTo call).toInvokeReturn

end InvokeException

/-! ## Reading the marker back -/

def errorMarker (record : InvokeReturn) : Option Json :=
  (record.extras.bind fun extras => extras.find? InvokeException.extrasKey).filter
    fun found => decide found.IsObject

def isError (record : InvokeReturn) : Bool := (errorMarker record).isSome

def errorStage (record : InvokeReturn) : Option Stage :=
  match (errorMarker record).bind fun marker => marker.find? "stage" with
  | some (.str token) => Stage.fromKey token
  | _ => none

theorem errorMarker_toInvokeReturn (e : InvokeException) :
    errorMarker e.toInvokeReturn = some e.marker := by
  have hObject : (Json.object []).IsObject := by simp
  have hFound : (((Json.object []).set InvokeException.extrasKey e.marker).setOptional
      InvokeException.causeKey ((e.effectiveCause e.query).map InvokeQuery.toJson)).find?
        InvokeException.extrasKey = some e.marker := by
    rw [Json.find?_setOptional (by simp), if_neg (by decide), Json.find?_set hObject]
    simp
  have hMarker : e.marker.IsObject := by simp [InvokeException.marker]
  simp [errorMarker, InvokeException.toInvokeReturn, InvokeException.buildRecord, hFound, hMarker]

/-- A failure record says at which checkpoint the call failed. -/
theorem errorStage_toInvokeReturn (e : InvokeException) :
    errorStage e.toInvokeReturn = some e.stage := by
  have hStage : e.marker.find? "stage" = some (.str e.stage.key) := by
    simp [InvokeException.marker]
  simp [errorStage, errorMarker_toInvokeReturn, hStage, Stage.fromKey_key]

/-! ## Records of successful calls -/

/-- A record answering `call`, whatever query its producer put in it. A query
naming another call is kept as the cause, over extras that are not an object. -/
def correlate (record : InvokeReturn) (call : InvokeQuery) : InvokeReturn :=
  if record.query.id ≠ "" ∧ record.query.id ≠ call.id then
    { record with
      query := call
      extras := some ((match record.extras with
        | some extras => if extras.IsObject then extras else Json.object []
        | none => Json.object []).set InvokeException.causeKey record.query.toJson) }
  else
    { record with query := call }

@[simp] theorem correlate_query (record : InvokeReturn) (call : InvokeQuery) :
    (correlate record call).query = call := by
  unfold correlate
  split <;> rfl

/-! ## How a call into a tool or a set can end -/

/-- A returned value, or what was thrown: the module's own failure, another
standard exception with its text, or something that is no standard exception. -/
inductive Outcome (α : Type) where
  | returned (value : α)
  | failed (e : InvokeException)
  | threw (what : String)
  | unknown

/-- What the catch-all handlers report for a throw that has no text. -/
def unknownError : String := "an unknown error, not a std::exception"

end SimplexAgent.Tools
