import SimplexAgent.Dataclass.PromptTemplate

/-!
# The model-io data contract

The records of `dataclass/model_io.hpp` with their `to_json` and `from_json`
functions, field by field. A plain field keeps its default when its key is
missing; an optional field is written when it is engaged and read through
`read_optional`, which takes an explicit null for an absent key.

Enumerations come in two kinds. Those decoded through the library's macro fall
back to their first value on anything they do not recognise; `Modality`,
`LoopStatus` and `LoopPhase` are decoded by hand and refuse it.
-/

namespace SimplexAgent.Dataclass

/-! ## Enumerations -/

section Enumerations

variable {α : Type}

def decodeNamed (values : List α) (nameOf : α → String) (first : α) (j : Json) :
    Except JsonError α :=
  .ok ((values.find? fun v => decide (j = .str (nameOf v))).getD first)

def decodeStrict (values : List α) (nameOf : α → String) (enumName : String) (j : Json) :
    Except JsonError α := do
  let name ← j.getString
  match values.find? fun v => decide (name = nameOf v) with
  | some v => return v
  | none => throw (.invalidArgument ("unknown " ++ enumName ++ " name: " ++ name))

theorem find_named {values : List α} {nameOf : α → String} (hName : nameOf.Injective)
    {v : α} (hMem : v ∈ values) :
    values.find? (fun w => decide (nameOf v = nameOf w)) = some v := by
  induction values with
  | nil => simp at hMem
  | cons w rest ih =>
    by_cases h : nameOf v = nameOf w
    · rw [List.find?_cons_of_pos (by simpa using h), hName h]
    · rw [List.find?_cons_of_neg (by simpa using h)]
      rcases List.mem_cons.mp hMem with rfl | hRest
      · exact absurd rfl h
      · exact ih hRest

theorem decodeNamed_name {values : List α} {nameOf : α → String} (hName : nameOf.Injective)
    (first : α) {v : α} (hMem : v ∈ values) :
    decodeNamed values nameOf first (.str (nameOf v)) = .ok v := by
  simp [decodeNamed, find_named hName hMem]

theorem decodeStrict_name {values : List α} {nameOf : α → String} (hName : nameOf.Injective)
    (enumName : String) {v : α} (hMem : v ∈ values) :
    decodeStrict values nameOf enumName (.str (nameOf v)) = .ok v := by
  simp [decodeStrict, Json.getString, find_named hName hMem, bind, Except.bind, pure, Except.pure]

end Enumerations

/-- How the bytes of a content payload are encoded. -/
inductive ContentType where
  | text
  | binary
  | externalRef
  deriving DecidableEq, Repr, Inhabited

namespace ContentType

def nameOf : ContentType → String
  | text => "text"
  | binary => "binary"
  | externalRef => "external_ref"

def values : List ContentType := [text, binary, externalRef]

def toJson (v : ContentType) : Json := .str v.nameOf

def fromJson : Json → Except JsonError ContentType := decodeNamed values nameOf text

theorem fromJson_toJson (v : ContentType) : fromJson v.toJson = .ok v :=
  decodeNamed_name (fun a b => by cases a <;> cases b <;> simp [nameOf]) text
    (by cases v <;> simp [values])

end ContentType

/-- What the content is, whatever its encoding. -/
inductive Modality where
  | text
  | image
  | audio
  | video
  | document
  deriving DecidableEq, Repr, Inhabited

namespace Modality

def nameOf : Modality → String
  | text => "text"
  | image => "image"
  | audio => "audio"
  | video => "video"
  | document => "document"

def values : List Modality := [text, image, audio, video, document]

def toJson (v : Modality) : Json := .str v.nameOf

def fromJson : Json → Except JsonError Modality := decodeStrict values nameOf "Modality"

theorem fromJson_toJson (v : Modality) : fromJson v.toJson = .ok v :=
  decodeStrict_name (fun a b => by cases a <;> cases b <;> simp [nameOf]) "Modality"
    (by cases v <;> simp [values])

end Modality

/-- How a tool invocation may be scheduled. -/
inductive InvokeType where
  | readOnly
  | parallWrite
  | serialWrite
  deriving DecidableEq, Repr, Inhabited

namespace InvokeType

def nameOf : InvokeType → String
  | readOnly => "read_only"
  | parallWrite => "parall_write"
  | serialWrite => "serial_write"

def values : List InvokeType := [readOnly, parallWrite, serialWrite]

def toJson (v : InvokeType) : Json := .str v.nameOf

def fromJson : Json → Except JsonError InvokeType := decodeNamed values nameOf readOnly

theorem fromJson_toJson (v : InvokeType) : fromJson v.toJson = .ok v :=
  decodeNamed_name (fun a b => by cases a <;> cases b <;> simp [nameOf]) readOnly
    (by cases v <;> simp [values])

end InvokeType

inductive InvokeSecurity where
  | defaultDeny
  | requireConfirm
  | trusted
  deriving DecidableEq, Repr, Inhabited

namespace InvokeSecurity

def nameOf : InvokeSecurity → String
  | defaultDeny => "default_deny"
  | requireConfirm => "require_confirm"
  | trusted => "trusted"

def values : List InvokeSecurity := [defaultDeny, requireConfirm, trusted]

def toJson (v : InvokeSecurity) : Json := .str v.nameOf

def fromJson : Json → Except JsonError InvokeSecurity := decodeNamed values nameOf defaultDeny

theorem fromJson_toJson (v : InvokeSecurity) : fromJson v.toJson = .ok v :=
  decodeNamed_name (fun a b => by cases a <;> cases b <;> simp [nameOf]) defaultDeny
    (by cases v <;> simp [values])

end InvokeSecurity

inductive MessageItemType where
  | userInput
  | modelResponse
  | invokeReturn
  deriving DecidableEq, Repr, Inhabited

namespace MessageItemType

def nameOf : MessageItemType → String
  | userInput => "user_input"
  | modelResponse => "model_response"
  | invokeReturn => "invoke_return"

def values : List MessageItemType := [userInput, modelResponse, invokeReturn]

def toJson (v : MessageItemType) : Json := .str v.nameOf

def fromJson : Json → Except JsonError MessageItemType := decodeNamed values nameOf userInput

theorem fromJson_toJson (v : MessageItemType) : fromJson v.toJson = .ok v :=
  decodeNamed_name (fun a b => by cases a <;> cases b <;> simp [nameOf]) userInput
    (by cases v <;> simp [values])

end MessageItemType

/-- Retention preference of steps and turns. -/
inductive RetainPriority where
  | normal
  | discardable
  | pinned
  deriving DecidableEq, Repr, Inhabited

namespace RetainPriority

def nameOf : RetainPriority → String
  | normal => "normal"
  | discardable => "discardable"
  | pinned => "pinned"

def values : List RetainPriority := [normal, discardable, pinned]

def toJson (v : RetainPriority) : Json := .str v.nameOf

def fromJson : Json → Except JsonError RetainPriority := decodeNamed values nameOf normal

theorem fromJson_toJson (v : RetainPriority) : fromJson v.toJson = .ok v :=
  decodeNamed_name (fun a b => by cases a <;> cases b <;> simp [nameOf]) normal
    (by cases v <;> simp [values])

end RetainPriority

inductive SessionStatus where
  | active
  | completed
  | failed
  deriving DecidableEq, Repr, Inhabited

namespace SessionStatus

def nameOf : SessionStatus → String
  | active => "active"
  | completed => "completed"
  | failed => "failed"

def values : List SessionStatus := [active, completed, failed]

def toJson (v : SessionStatus) : Json := .str v.nameOf

def fromJson : Json → Except JsonError SessionStatus := decodeNamed values nameOf active

theorem fromJson_toJson (v : SessionStatus) : fromJson v.toJson = .ok v :=
  decodeNamed_name (fun a b => by cases a <;> cases b <;> simp [nameOf]) active
    (by cases v <;> simp [values])

end SessionStatus

/-- Invocation lifecycle. -/
inductive LoopStatus where
  | idle
  | running
  | completed
  | cancelled
  | exchangeLimit
  | failed
  | autoCompactRequired
  deriving DecidableEq, Repr, Inhabited

namespace LoopStatus

def nameOf : LoopStatus → String
  | idle => "idle"
  | running => "running"
  | completed => "completed"
  | cancelled => "cancelled"
  | exchangeLimit => "exchange_limit"
  | failed => "failed"
  | autoCompactRequired => "auto_compact_required"

def values : List LoopStatus :=
  [idle, running, completed, cancelled, exchangeLimit, failed, autoCompactRequired]

def toJson (v : LoopStatus) : Json := .str v.nameOf

def fromJson : Json → Except JsonError LoopStatus := decodeStrict values nameOf "LoopStatus"

theorem fromJson_toJson (v : LoopStatus) : fromJson v.toJson = .ok v :=
  decodeStrict_name (fun a b => by cases a <;> cases b <;> simp [nameOf]) "LoopStatus"
    (by cases v <;> simp [values])

end LoopStatus

inductive LoopPhase where
  | ready
  | model
  | tools
  | projection
  | blocked
  deriving DecidableEq, Repr, Inhabited

namespace LoopPhase

def nameOf : LoopPhase → String
  | ready => "ready"
  | model => "model"
  | tools => "tools"
  | projection => "projection"
  | blocked => "blocked"

def values : List LoopPhase := [ready, model, tools, projection, blocked]

def toJson (v : LoopPhase) : Json := .str v.nameOf

def fromJson : Json → Except JsonError LoopPhase := decodeStrict values nameOf "LoopPhase"

theorem fromJson_toJson (v : LoopPhase) : fromJson v.toJson = .ok v :=
  decodeStrict_name (fun a b => by cases a <;> cases b <;> simp [nameOf]) "LoopPhase"
    (by cases v <;> simp [values])

end LoopPhase

/-! ## Records -/

/-- One part of a message. -/
@[ext]
structure Content where
  type : ContentType := .text
  raw : String := ""
  extras : Option Json := none
  modality : Modality := .text
  deriving DecidableEq, Inhabited

/-- A tool call. -/
@[ext]
structure InvokeQuery where
  type : InvokeType := .readOnly
  security : InvokeSecurity := .defaultDeny
  id : String := ""
  name : String := ""
  arguments : Json := .obj []
  extras : Option Json := none
  deriving DecidableEq, Inhabited

/-- A tool call with its result. -/
@[ext]
structure InvokeReturn where
  query : InvokeQuery := {}
  output : Content := {}
  extras : Option Json := none
  deriving DecidableEq, Inhabited

structure TokenCost where
  prompt : UInt64 := 0
  generated : UInt64 := 0
  cacheHit : UInt64 := 0
  deriving DecidableEq, Inhabited

@[ext]
structure MessageItem where
  type : MessageItemType := .userInput
  role : String := ""
  content : List Content := []
  reasoning : Option Content := none
  actionStatus : Option Content := none
  invokes : Option (List InvokeQuery) := none
  cost : Option TokenCost := none
  invokeReturn : Option InvokeReturn := none
  extras : Option Json := none
  deriving DecidableEq, Inhabited

/-- A model response and the tool results its calls produced. -/
@[ext]
structure AgentLoopStep where
  modelResponse : MessageItem := {}
  invokeReturns : Option (List MessageItem) := none
  extras : Option Json := none
  commitSequence : UInt64 := 0
  retainPriority : RetainPriority := .normal
  deriving DecidableEq, Inhabited

@[ext]
structure UserLoopStep where
  userInput : MessageItem := {}
  agentLoopStep : List AgentLoopStep := []
  extras : Option Json := none
  retainPriority : RetainPriority := .normal
  deriving DecidableEq, Inhabited

/-- A tool exposed to the model. -/
@[ext]
structure Invocable where
  name : String := ""
  description : String := ""
  argumentSchema : Json := .obj []
  remoteType : Option String := none
  extras : Option Json := none
  deriving DecidableEq, Inhabited

/-- Host-written session bookkeeping. -/
@[ext]
structure MetaInfo where
  schemaVersion : UInt32 := 1
  sessionId : String := ""
  createdAt : String := ""
  updatedAt : String := ""
  status : SessionStatus := .active
  error : Option Json := none
  deriving DecidableEq, Inhabited

@[ext]
structure LoopProgress where
  status : LoopStatus := .idle
  phase : LoopPhase := .ready
  completedExchanges : UInt64 := 0
  committedResponseSequence : UInt64 := 0
  error : String := ""
  pendingResults : List InvokeReturn := []
  deriving DecidableEq, Inhabited

/-- Everything one model invocation needs. -/
@[ext]
structure AgentInputState where
  loop : Option LoopProgress := none
  metaInfo : MetaInfo := {}
  systemPrompt : PromptTemplate := .empty
  tools : List Invocable := []
  turns : List UserLoopStep := []
  extras : Option Json := none
  deriving DecidableEq

/-! ## The JSON values inside a state

`JsonFields P Q` says that `P` holds of every optional JSON value that is engaged
and `Q` of every JSON value that is always there.
-/

section JsonFields

variable (P Q : Json → Prop)

def Content.JsonFields (c : Content) : Prop := ∀ j, c.extras = some j → P j

def InvokeQuery.JsonFields (q : InvokeQuery) : Prop :=
  Q q.arguments ∧ ∀ j, q.extras = some j → P j

def InvokeReturn.JsonFields (r : InvokeReturn) : Prop :=
  r.query.JsonFields P Q ∧ r.output.JsonFields P ∧ ∀ j, r.extras = some j → P j

structure MessageItem.JsonFields (m : MessageItem) : Prop where
  content : ∀ c ∈ m.content, c.JsonFields P
  reasoning : ∀ c, m.reasoning = some c → c.JsonFields P
  actionStatus : ∀ c, m.actionStatus = some c → c.JsonFields P
  invokes : ∀ qs, m.invokes = some qs → ∀ q ∈ qs, q.JsonFields P Q
  invokeReturn : ∀ r, m.invokeReturn = some r → r.JsonFields P Q
  extras : ∀ j, m.extras = some j → P j

structure AgentLoopStep.JsonFields (s : AgentLoopStep) : Prop where
  modelResponse : s.modelResponse.JsonFields P Q
  invokeReturns : ∀ ms, s.invokeReturns = some ms → ∀ m ∈ ms, m.JsonFields P Q
  extras : ∀ j, s.extras = some j → P j

structure UserLoopStep.JsonFields (u : UserLoopStep) : Prop where
  userInput : u.userInput.JsonFields P Q
  agentLoopStep : ∀ s ∈ u.agentLoopStep, s.JsonFields P Q
  extras : ∀ j, u.extras = some j → P j

def Invocable.JsonFields (v : Invocable) : Prop :=
  Q v.argumentSchema ∧ ∀ j, v.extras = some j → P j

def MetaInfo.JsonFields (m : MetaInfo) : Prop := ∀ j, m.error = some j → P j

def LoopProgress.JsonFields (p : LoopProgress) : Prop :=
  ∀ r ∈ p.pendingResults, r.JsonFields P Q

structure AgentInputState.JsonFields (s : AgentInputState) : Prop where
  loop : ∀ p, s.loop = some p → p.JsonFields P Q
  metaInfo : s.metaInfo.JsonFields P
  tools : ∀ v ∈ s.tools, v.JsonFields P Q
  turns : ∀ u ∈ s.turns, u.JsonFields P Q
  extras : ∀ j, s.extras = some j → P j

end JsonFields

end SimplexAgent.Dataclass
