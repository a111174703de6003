import SimplexAgent.Dataclass.ModelIoJson

/-!
# SQLite snapshots

The relational form of a session state, from `persistence/sqlite_snapshot.cpp`: a
header row and the rows of its prompt sections, tools, turns, agent steps,
messages and loop progress, written one insert at a time and reassembled by keys
and ordinals.

A table is the list of its rows. What the code takes from outside is a parameter
of the model: `dump` and `parse` are the text form of a JSON value, and `newRowid`
is the row id the database picks for a row inserted without one, given those in
use.

Optional values have three presence encodings. An optional JSON column is NULL
when absent and holds the text `null` for an engaged null; an optional list has a
flag beside its rows; an optional record is a row that is there or not.
-/

namespace SimplexAgent.Persistence

open Dataclass Verified.Tables

/-! ## Rows -/

structure SessionRow where
  sessionId : String
  createdAt : String
  updatedAt : String
  deriving DecidableEq

structure SnapshotRow where
  snapshotId : Int
  sessionId : String
  kind : String
  revision : Int
  operationId : String
  metaSchemaVersion : Int
  sessionStatus : String
  metaErrorJson : Option String
  createdAt : String
  updatedAt : String
  headingLevel : Int
  extrasJson : Option String
  deriving DecidableEq

structure PromptSectionRow where
  snapshotId : Int
  ordinal : Nat
  name : String
  title : String
  stability : String
  body : String
  deriving DecidableEq

structure ToolRow where
  snapshotId : Int
  ordinal : Nat
  name : String
  description : String
  argumentSchemaJson : String
  remoteType : Option String
  extrasJson : Option String
  deriving DecidableEq

structure TurnRow where
  turnId : Int
  snapshotId : Int
  ordinal : Nat
  retainPriority : String
  extrasJson : Option String
  deriving DecidableEq

structure AgentStepRow where
  stepId : Int
  snapshotId : Int
  turnId : Int
  ordinal : Nat
  retainPriority : String
  commitSequenceU64 : String
  invokeReturnsPresent : Int
  extrasJson : Option String
  deriving DecidableEq

structure MessageRow where
  messageId : Int
  snapshotId : Int
  turnId : Option Int
  stepId : Option Int
  slot : String
  ordinal : Nat
  type : String
  role : String
  invokesPresent : Int
  extrasJson : Option String
  deriving DecidableEq

structure ContentColumns where
  type : String
  modality : String
  raw : String
  extrasJson : Option String
  deriving DecidableEq

structure ContentRow where
  messageId : Int
  slot : String
  ordinal : Nat
  content : ContentColumns
  deriving DecidableEq

structure CostRow where
  messageId : Int
  promptU64 : String
  generatedU64 : String
  cacheHitU64 : String
  deriving DecidableEq

structure QueryColumns where
  queryType : String
  querySecurity : String
  wireCallId : String
  name : String
  argumentsJson : String
  extrasJson : Option String
  deriving DecidableEq

structure InvokeRow where
  messageId : Int
  ordinal : Nat
  query : QueryColumns
  deriving DecidableEq

structure ReturnColumns where
  query : QueryColumns
  output : ContentColumns
  extrasJson : Option String
  deriving DecidableEq

structure InvokeReturnRow where
  messageId : Int
  result : ReturnColumns
  deriving DecidableEq

structure LoopRow where
  snapshotId : Int
  status : String
  phase : String
  completedExchangesU64 : String
  committedResponseSequenceU64 : String
  error : String
  deriving DecidableEq

structure PendingRow where
  snapshotId : Int
  ordinal : Nat
  result : ReturnColumns
  deriving DecidableEq

/-- The tables that hold snapshots. -/
structure Database where
  sessions : List SessionRow := []
  snapshots : List SnapshotRow := []
  promptSections : List PromptSectionRow := []
  toolDefinitions : List ToolRow := []
  turns : List TurnRow := []
  agentSteps : List AgentStepRow := []
  messages : List MessageRow := []
  messageContents : List ContentRow := []
  messageCosts : List CostRow := []
  messageInvokes : List InvokeRow := []
  messageInvokeReturns : List InvokeReturnRow := []
  loopProgress : List LoopRow := []
  pendingResults : List PendingRow := []

inductive SnapshotKind where
  | current
  | archive
  deriving DecidableEq

def SnapshotKind.name : SnapshotKind → String
  | .current => "current"
  | .archive => "archive"

/-- `SnapshotError` with its reason, and a constraint the database enforces. -/
inductive SnapshotError where
  | unknownSession (message : String)
  | sessionMismatch (message : String)
  | snapshotNotFound (message : String)
  | corruptSnapshot (message : String)
  | constraint (message : String)

/-! ## Column encodings -/

/-- `%020llu`: the last `width` decimal digits. -/
def decimalDigits : Nat → Nat → List Char
  | 0, _ => []
  | width + 1, value =>
    decimalDigits width (value / 10) ++ [Char.ofNat ('0'.toNat + value % 10)]

/-- `format_u64`. -/
def formatU64 (value : UInt64) : String := String.ofList (decimalDigits 20 value.toNat)

/-- One digit of `parse_u64`; the value read so far may not overflow. -/
def parseDigit (column : String) (value : Nat) (byte : Char) : Except SnapshotError Nat :=
  if byte < '0' ∨ '9' < byte then
    .error (.corruptSnapshot (column ++ " is not a decimal uint64"))
  else
    let digit := byte.toNat - '0'.toNat
    if value > (2 ^ 64 - 1 - digit) / 10 then
      .error (.corruptSnapshot (column ++ " overflows uint64"))
    else .ok (value * 10 + digit)

/-- `parse_u64`. -/
def parseU64 (text column : String) : Except SnapshotError UInt64 :=
  if text.toList.length ≠ 20 then
    .error (.corruptSnapshot (column ++ " is not a 20-digit uint64"))
  else (text.toList.foldlM (parseDigit column) 0).map UInt64.ofNat

def enumValue {α : Type} (fromJson : Json → Except JsonError α) (name column : String) :
    Except SnapshotError α :=
  match fromJson (.str name) with
  | .ok v => .ok v
  | .error _ =>
    .error (.corruptSnapshot ("unknown " ++ column ++ " value '" ++ name ++ "'"))

section Codec

variable (dump : Json → String) (parse : String → Option Json) (newRowid : List Int → Int)

/-- NULL stays absent; the text `null` is an engaged null value. -/
def encodeOptionalJson (value : Option Json) : Option String :=
  match value with
  | none => none
  | some j => some (if j.isNull then "null" else dump j)

def parseJson (text column : String) : Except SnapshotError Json :=
  match parse text with
  | some j => .ok j
  | none => .error (.corruptSnapshot ("invalid JSON in " ++ column))

def decodeOptionalJson (text : Option String) (column : String) :
    Except SnapshotError (Option Json) :=
  match text with
  | none => .ok none
  | some t => (parseJson parse t column).map some

/-! ## Writing -/

def contentColumns (c : Content) : ContentColumns where
  type := c.type.nameOf
  modality := c.modality.nameOf
  raw := c.raw
  extrasJson := encodeOptionalJson dump c.extras

def queryColumns (q : InvokeQuery) : QueryColumns where
  queryType := q.type.nameOf
  querySecurity := q.security.nameOf
  wireCallId := q.id
  name := q.name
  argumentsJson := dump q.arguments
  extrasJson := encodeOptionalJson dump q.extras

def returnColumns (r : InvokeReturn) : ReturnColumns where
  query := queryColumns dump r.query
  output := contentColumns dump r.output
  extrasJson := encodeOptionalJson dump r.extras

/-- `insert_snapshot_header`: an explicit id keeps a replacement's identity. -/
def insertSnapshotHeader (db : Database) (sessionId : String) (state : AgentInputState)
    (kind : SnapshotKind) (explicitId : Option Int) : Except SnapshotError (Int × Database) :=
  let snapshotId := explicitId.getD (newRowid (db.snapshots.map SnapshotRow.snapshotId))
  let row : SnapshotRow :=
    { snapshotId := snapshotId
      sessionId := sessionId
      kind := kind.name
      revision := 0
      operationId := ""
      metaSchemaVersion := state.metaInfo.schemaVersion.toNat
      sessionStatus := state.metaInfo.status.nameOf
      metaErrorJson := encodeOptionalJson dump state.metaInfo.error
      createdAt := state.metaInfo.createdAt
      updatedAt := state.metaInfo.updatedAt
      headingLevel := state.systemPrompt.headingLevel.toInt
      extrasJson := encodeOptionalJson dump state.extras }
  if snapshotId ∈ db.snapshots.map SnapshotRow.snapshotId then
    .error (.constraint "UNIQUE constraint failed: snapshots.snapshot_id")
  else if kind = .current ∧
      db.snapshots.any (fun r => r.sessionId = sessionId ∧ r.kind = "current") then
    .error (.constraint "UNIQUE constraint failed: snapshots.session_id")
  else .ok (snapshotId, { db with snapshots := db.snapshots ++ [row] })

def promptSectionRow (snapshotId : Int) (ordinal : Nat) (s : PromptSection) :
    PromptSectionRow where
  snapshotId := snapshotId
  ordinal := ordinal
  name := s.name
  title := s.title
  stability := s.stability.nameOf
  body := s.text

def insertPromptSections (db : Database) (snapshotId : Int) (ordinal : Nat) :
    List PromptSection → Database
  | [] => db
  | s :: rest =>
    insertPromptSections
      { db with promptSections := db.promptSections ++ [promptSectionRow snapshotId ordinal s] }
      snapshotId (ordinal + 1) rest

def toolRow (snapshotId : Int) (ordinal : Nat) (v : Invocable) : ToolRow where
  snapshotId := snapshotId
  ordinal := ordinal
  name := v.name
  description := v.description
  argumentSchemaJson := dump v.argumentSchema
  remoteType := v.remoteType
  extrasJson := encodeOptionalJson dump v.extras

def insertTools (db : Database) (snapshotId : Int) (ordinal : Nat) :
    List Invocable → Database
  | [] => db
  | v :: rest =>
    insertTools
      { db with toolDefinitions := db.toolDefinitions ++ [toolRow dump snapshotId ordinal v] }
      snapshotId (ordinal + 1) rest

def contentRow (messageId : Int) (slot : String) (ordinal : Nat) (c : Content) :
    ContentRow where
  messageId := messageId
  slot := slot
  ordinal := ordinal
  content := contentColumns dump c

def insertContent (db : Database) (messageId : Int) (slot : String) (ordinal : Nat)
    (c : Content) : Database :=
  { db with messageContents := db.messageContents ++ [contentRow dump messageId slot ordinal c] }

def insertContents (db : Database) (messageId : Int) (slot : String) (ordinal : Nat) :
    List Content → Database
  | [] => db
  | c :: rest =>
    insertContents (insertContent dump db messageId slot ordinal c) messageId slot
      (ordinal + 1) rest

def invokeRow (messageId : Int) (ordinal : Nat) (q : InvokeQuery) : InvokeRow where
  messageId := messageId
  ordinal := ordinal
  query := queryColumns dump q

/-- `insert_invoke_query` for each call of a message. -/
def insertInvokes (db : Database) (messageId : Int) (ordinal : Nat) :
    List InvokeQuery → Database
  | [] => db
  | q :: rest =>
    insertInvokes
      { db with messageInvokes := db.messageInvokes ++ [invokeRow dump messageId ordinal q] }
      messageId (ordinal + 1) rest

def costRow (messageId : Int) (c : TokenCost) : CostRow where
  messageId := messageId
  promptU64 := formatU64 c.prompt
  generatedU64 := formatU64 c.generated
  cacheHitU64 := formatU64 c.cacheHit

def messageRow (messageId snapshotId : Int) (turnId stepId : Option Int) (slot : String)
    (ordinal : Nat) (m : MessageItem) : MessageRow where
  messageId := messageId
  snapshotId := snapshotId
  turnId := turnId
  stepId := stepId
  slot := slot
  ordinal := ordinal
  type := m.type.nameOf
  role := m.role
  invokesPresent := if m.invokes.isSome then 1 else 0
  extrasJson := encodeOptionalJson dump m.extras

/-- `insert_message`. -/
def insertMessage (db : Database) (snapshotId : Int) (turnId stepId : Option Int)
    (slot : String) (ordinal : Nat) (m : MessageItem) : Database :=
  let messageId := newRowid (db.messages.map MessageRow.messageId)
  let db := { db with
    messages := db.messages ++ [messageRow dump messageId snapshotId turnId stepId slot ordinal m] }
  let db := insertContents dump db messageId "body" 0 m.content
  let db := insertContents dump db messageId "reasoning" 0 m.reasoning.toList
  let db := insertContents dump db messageId "action_status" 0 m.actionStatus.toList
  let db :=
    match m.invokes with
    | some qs => insertInvokes dump db messageId 0 qs
    | none => db
  let db :=
    match m.cost with
    | some c => { db with messageCosts := db.messageCosts ++ [costRow messageId c] }
    | none => db
  match m.invokeReturn with
  | some r => { db with
      messageInvokeReturns := db.messageInvokeReturns ++
        [{ messageId := messageId, result := returnColumns dump r }] }
  | none => db

/-- The messages of a step's tool results, in order. -/
def insertInvokeReturns (db : Database) (snapshotId stepId : Int) (ordinal : Nat) :
    List MessageItem → Database
  | [] => db
  | m :: rest =>
    insertInvokeReturns
      (insertMessage dump newRowid db snapshotId none (some stepId) "invoke_return" ordinal m)
      snapshotId stepId (ordinal + 1) rest

def agentStepRow (stepId snapshotId turnId : Int) (ordinal : Nat) (s : AgentLoopStep) :
    AgentStepRow where
  stepId := stepId
  snapshotId := snapshotId
  turnId := turnId
  ordinal := ordinal
  retainPriority := s.retainPriority.nameOf
  commitSequenceU64 := formatU64 s.commitSequence
  invokeReturnsPresent := if s.invokeReturns.isSome then 1 else 0
  extrasJson := encodeOptionalJson dump s.extras

def insertAgentSteps (db : Database) (snapshotId turnId : Int) (ordinal : Nat) :
    List AgentLoopStep → Database
  | [] => db
  | s :: rest =>
    let stepId := newRowid (db.agentSteps.map AgentStepRow.stepId)
    let db := { db with
      agentSteps := db.agentSteps ++ [agentStepRow dump stepId snapshotId turnId ordinal s] }
    let db := insertMessage dump newRowid db snapshotId none (some stepId) "model_response" 0
      s.modelResponse
    let db := insertInvokeReturns dump newRowid db snapshotId stepId 0
      (s.invokeReturns.getD [])
    insertAgentSteps db snapshotId turnId (ordinal + 1) rest

def turnRow (turnId snapshotId : Int) (ordinal : Nat) (u : UserLoopStep) : TurnRow where
  turnId := turnId
  snapshotId := snapshotId
  ordinal := ordinal
  retainPriority := u.retainPriority.nameOf
  extrasJson := encodeOptionalJson dump u.extras

/-- `insert_turns`. -/
def insertTurns (db : Database) (snapshotId : Int) (ordinal : Nat) :
    List UserLoopStep → Database
  | [] => db
  | u :: rest =>
    let turnId := newRowid (db.turns.map TurnRow.turnId)
    let db := { db with turns := db.turns ++ [turnRow dump turnId snapshotId ordinal u] }
    let db := insertMessage dump newRowid db snapshotId (some turnId) none "user_input" 0
      u.userInput
    let db := insertAgentSteps dump newRowid db snapshotId turnId 0 u.agentLoopStep
    insertTurns db snapshotId (ordinal + 1) rest

def loopRow (snapshotId : Int) (p : LoopProgress) : LoopRow where
  snapshotId := snapshotId
  status := p.status.nameOf
  phase := p.phase.nameOf
  completedExchangesU64 := formatU64 p.completedExchanges
  committedResponseSequenceU64 := formatU64 p.committedResponseSequence
  error := p.error

def pendingRow (snapshotId : Int) (ordinal : Nat) (r : InvokeReturn) : PendingRow where
  snapshotId := snapshotId
  ordinal := ordinal
  result := returnColumns dump r

def insertPending (db : Database) (snapshotId : Int) (ordinal : Nat) :
    List InvokeReturn → Database
  | [] => db
  | r :: rest =>
    insertPending
      { db with pendingResults := db.pendingResults ++ [pendingRow dump snapshotId ordinal r] }
      snapshotId (ordinal + 1) rest

/-- `insert_loop`. -/
def insertLoop (db : Database) (snapshotId : Int) (p : LoopProgress) : Database :=
  insertPending dump { db with loopProgress := db.loopProgress ++ [loopRow snapshotId p] }
    snapshotId 0 p.pendingResults

/-- `insert_graph`. -/
def insertGraph (db : Database) (snapshotId : Int) (state : AgentInputState) : Database :=
  let db := insertPromptSections db snapshotId 0 state.systemPrompt.sections
  let db := insertTools dump db snapshotId 0 state.tools
  let db := insertTurns dump newRowid db snapshotId 0 state.turns
  match state.loop with
  | some p => insertLoop dump db snapshotId p
  | none => db

/-- `require_matching_session`. -/
def requireMatchingSession (sessionId : String) (m : MetaInfo) : Except SnapshotError Unit :=
  if m.sessionId = sessionId then .ok ()
  else .error (.sessionMismatch
    ("state belongs to session '" ++ m.sessionId ++ "', not '" ++ sessionId ++ "'"))

/-- `require_session`. -/
def requireSession (db : Database) (sessionId : String) : Except SnapshotError Unit :=
  if (db.sessions.filter fun r => r.sessionId = sessionId).length = 1 then .ok ()
  else .error (.unknownSession
    ("session store has no row for session '" ++ sessionId ++ "'"))

/-- `encode_snapshot`. -/
def encodeSnapshot (db : Database) (sessionId : String) (state : AgentInputState)
    (kind : SnapshotKind) : Except SnapshotError (Int × Database) := do
  requireMatchingSession sessionId state.metaInfo
  requireSession db sessionId
  let (snapshotId, db) ← insertSnapshotHeader dump newRowid db sessionId state kind none
  return (snapshotId, insertGraph dump newRowid db snapshotId state)

/-- `find_current`. -/
def findCurrent (db : Database) (sessionId : String) : Except SnapshotError (Option Int) :=
  match db.snapshots.filter fun r => r.sessionId = sessionId ∧ r.kind = "current" with
  | [] => .ok none
  | [row] => .ok (some row.snapshotId)
  | _ => .error (.corruptSnapshot "session store has more than one current snapshot")

/-- Deleting a header; the foreign keys cascade to every row below it. -/
def deleteSnapshot (db : Database) (snapshotId : Int) : Database :=
  let turns := db.turns.filter fun r => r.snapshotId ≠ snapshotId
  let agentSteps := db.agentSteps.filter fun r => r.snapshotId ≠ snapshotId
  let messages := db.messages.filter fun r => r.snapshotId ≠ snapshotId
  let deleted := (db.messages.filter fun r => r.snapshotId = snapshotId).map MessageRow.messageId
  { db with
    snapshots := db.snapshots.filter fun r => r.snapshotId ≠ snapshotId
    promptSections := db.promptSections.filter fun r => r.snapshotId ≠ snapshotId
    toolDefinitions := db.toolDefinitions.filter fun r => r.snapshotId ≠ snapshotId
    turns := turns
    agentSteps := agentSteps
    messages := messages
    messageContents := db.messageContents.filter fun r => r.messageId ∉ deleted
    messageCosts := db.messageCosts.filter fun r => r.messageId ∉ deleted
    messageInvokes := db.messageInvokes.filter fun r => r.messageId ∉ deleted
    messageInvokeReturns := db.messageInvokeReturns.filter fun r => r.messageId ∉ deleted
    loopProgress := db.loopProgress.filter fun r => r.snapshotId ≠ snapshotId
    pendingResults := db.pendingResults.filter fun r => r.snapshotId ≠ snapshotId }

def updateSessionTimestamp (db : Database) (sessionId updatedAt : String) : Database :=
  { db with
    sessions := db.sessions.map fun r =>
      if r.sessionId = sessionId then { r with updatedAt := updatedAt } else r }

def clearCurrent (db : Database) : Option Int → Database
  | some snapshotId => deleteSnapshot db snapshotId
  | none => db

/-- `replace_current`: the graph is replaced under the identity it had. -/
def replaceCurrent (db : Database) (sessionId : String) (state : AgentInputState) :
    Except SnapshotError (Int × Database) := do
  requireMatchingSession sessionId state.metaInfo
  requireSession db sessionId
  let current ← findCurrent db sessionId
  let (snapshotId, db) ←
    insertSnapshotHeader dump newRowid (clearCurrent db current) sessionId state .current current
  let db := insertGraph dump newRowid db snapshotId state
  return (snapshotId, updateSessionTimestamp db sessionId state.metaInfo.updatedAt)

/-! ## Reading -/

def decodeContentColumns (c : ContentColumns) : Except SnapshotError Content := do
  let type ← enumValue ContentType.fromJson c.type "content.type"
  let modality ← enumValue Modality.fromJson c.modality "content.modality"
  let extras ← decodeOptionalJson parse c.extrasJson "content.extras_json"
  return { type, raw := c.raw, extras, modality }

/-- `decode_contents`: the parts of one slot, in order. -/
def decodeContents (db : Database) (messageId : Int) (slot : String) :
    Except SnapshotError (List Content) :=
  (orderBy ContentRow.ordinal
    (db.messageContents.filter fun r => r.messageId = messageId ∧ r.slot = slot)).mapM
      fun r => decodeContentColumns parse r.content

/-- `decode_single_content`. -/
def decodeSingleContent (db : Database) (messageId : Int) (slot : String) :
    Except SnapshotError (Option Content) := do
  match ← decodeContents parse db messageId slot with
  | [] => return none
  | [c] => return some c
  | _ => throw (.corruptSnapshot
      ("message has more than one content row for slot '" ++ slot ++ "'"))

def decodeQueryColumns (q : QueryColumns) : Except SnapshotError InvokeQuery := do
  let type ← enumValue InvokeType.fromJson q.queryType "invoke.type"
  let security ← enumValue InvokeSecurity.fromJson q.querySecurity "invoke.security"
  let arguments ← parseJson parse q.argumentsJson "invoke.arguments_json"
  let extras ← decodeOptionalJson parse q.extrasJson "invoke.extras_json"
  return { type, security, id := q.wireCallId, name := q.name, arguments, extras }

def decodeReturnColumns (r : ReturnColumns) : Except SnapshotError InvokeReturn := do
  let query ← decodeQueryColumns parse r.query
  let output ← decodeContentColumns parse r.output
  let extras ← decodeOptionalJson parse r.extrasJson "invoke_return.extras_json"
  return { query, output, extras }

def decodeInvokes (db : Database) (messageId : Int) (invokesPresent : Bool) :
    Except SnapshotError (Option (List InvokeQuery)) := do
  let rows ← (orderBy InvokeRow.ordinal
    (db.messageInvokes.filter fun r => r.messageId = messageId)).mapM
      fun r => decodeQueryColumns parse r.query
  if invokesPresent then return some rows
  else if rows.isEmpty then return none
  else throw (.corruptSnapshot "message has invoke rows but invokes_present is zero")

def decodeCost (db : Database) (messageId : Int) : Except SnapshotError (Option TokenCost) :=
  match db.messageCosts.filter fun r => r.messageId = messageId with
  | [] => .ok none
  | row :: _ => do
    let prompt ← parseU64 row.promptU64 "message_costs.prompt_u64"
    let generated ← parseU64 row.generatedU64 "message_costs.generated_u64"
    let cacheHit ← parseU64 row.cacheHitU64 "message_costs.cache_hit_u64"
    return some { prompt, generated, cacheHit }

def decodeInvokeReturn (db : Database) (messageId : Int) :
    Except SnapshotError (Option InvokeReturn) :=
  match db.messageInvokeReturns.filter fun r => r.messageId = messageId with
  | [] => .ok none
  | row :: _ => (decodeReturnColumns parse row.result).map some

/-- `decode_message`. -/
def decodeMessage (db : Database) (messageId : Int) : Except SnapshotError MessageItem :=
  match db.messages.filter fun r => r.messageId = messageId with
  | [] => .error (.corruptSnapshot "snapshot references a missing message row")
  | row :: _ => do
    let type ← enumValue MessageItemType.fromJson row.type "message.type"
    let extras ← decodeOptionalJson parse row.extrasJson "message.extras_json"
    let content ← decodeContents parse db messageId "body"
    let reasoning ← decodeSingleContent parse db messageId "reasoning"
    let actionStatus ← decodeSingleContent parse db messageId "action_status"
    let invokes ← decodeInvokes parse db messageId (row.invokesPresent ≠ 0)
    let cost ← decodeCost db messageId
    let invokeReturn ← decodeInvokeReturn parse db messageId
    return { type, role := row.role, content, reasoning, actionStatus, invokes, cost,
             invokeReturn, extras }

def stepMessages (db : Database) (stepId : Int) (slot : String) : List MessageRow :=
  db.messages.filter fun r => r.stepId = some stepId ∧ r.slot = slot

def turnMessages (db : Database) (turnId : Int) (slot : String) : List MessageRow :=
  db.messages.filter fun r => r.turnId = some turnId ∧ r.slot = slot

def turnSteps (db : Database) (turnId : Int) : List AgentStepRow :=
  orderBy AgentStepRow.ordinal (db.agentSteps.filter fun r => r.turnId = turnId)

/-- The id of the one message that `rows` must hold. -/
def messageForSlot (rows : List MessageRow) (slot : String) : Except SnapshotError Int :=
  match rows with
  | [] => .error (.corruptSnapshot ("message slot '" ++ slot ++ "' is missing"))
  | [row] => .ok row.messageId
  | _ => .error (.corruptSnapshot ("message slot '" ++ slot ++ "' is not unique"))

/-- `decode_invoke_returns`. -/
def decodeInvokeReturns (db : Database) (stepId : Int) :
    Except SnapshotError (List MessageItem) :=
  (orderBy MessageRow.ordinal (stepMessages db stepId "invoke_return")).mapM
    fun r => decodeMessage parse db r.messageId

def decodeAgentStep (db : Database) (row : AgentStepRow) :
    Except SnapshotError AgentLoopStep := do
  let retainPriority ←
    enumValue RetainPriority.fromJson row.retainPriority "agent_steps.retain_priority"
  let commitSequence ← parseU64 row.commitSequenceU64 "agent_steps.commit_sequence_u64"
  let extras ← decodeOptionalJson parse row.extrasJson "agent_steps.extras_json"
  let responseId ←
    messageForSlot (stepMessages db row.stepId "model_response") "model_response"
  let modelResponse ← decodeMessage parse db responseId
  let results ← decodeInvokeReturns parse db row.stepId
  let invokeReturns ←
    if row.invokeReturnsPresent ≠ 0 then pure (some results)
    else if results.isEmpty then pure none
    else throw (.corruptSnapshot
      "agent step has invoke result rows but invoke_returns_present is zero")
  return { modelResponse, invokeReturns, extras, commitSequence, retainPriority }

def decodeTurn (db : Database) (row : TurnRow) : Except SnapshotError UserLoopStep := do
  let retainPriority ←
    enumValue RetainPriority.fromJson row.retainPriority "turns.retain_priority"
  let extras ← decodeOptionalJson parse row.extrasJson "turns.extras_json"
  let inputId ← messageForSlot (turnMessages db row.turnId "user_input") "user_input"
  let userInput ← decodeMessage parse db inputId
  let agentLoopStep ← (turnSteps db row.turnId).mapM (decodeAgentStep parse db)
  return { userInput, agentLoopStep, extras, retainPriority }

/-- `decode_turns`. -/
def decodeTurns (db : Database) (snapshotId : Int) :
    Except SnapshotError (List UserLoopStep) :=
  (orderBy TurnRow.ordinal (db.turns.filter fun r => r.snapshotId = snapshotId)).mapM
    (decodeTurn parse db)

/-- `decode_loop`. -/
def decodeLoop (db : Database) (snapshotId : Int) :
    Except SnapshotError (Option LoopProgress) :=
  match db.loopProgress.filter fun r => r.snapshotId = snapshotId with
  | [] => .ok none
  | row :: _ => do
    let status ← enumValue LoopStatus.fromJson row.status "loop_progress.status"
    let phase ← enumValue LoopPhase.fromJson row.phase "loop_progress.phase"
    let completedExchanges ←
      parseU64 row.completedExchangesU64 "loop_progress.completed_exchanges_u64"
    let committedResponseSequence ← parseU64 row.committedResponseSequenceU64
      "loop_progress.committed_response_sequence_u64"
    let pendingResults ← (orderBy PendingRow.ordinal
      (db.pendingResults.filter fun r => r.snapshotId = snapshotId)).mapM
        fun r => decodeReturnColumns parse r.result
    return some { status, phase, completedExchanges, committedResponseSequence,
                  error := row.error, pendingResults }

/-- `decode_tools`. -/
def decodeTools (db : Database) (snapshotId : Int) : Except SnapshotError (List Invocable) :=
  (orderBy ToolRow.ordinal
    (db.toolDefinitions.filter fun r => r.snapshotId = snapshotId)).mapM fun r => do
      let argumentSchema ←
        parseJson parse r.argumentSchemaJson "tool_definitions.argument_schema_json"
      let extras ← decodeOptionalJson parse r.extrasJson "tool_definitions.extras_json"
      return { name := r.name, description := r.description, argumentSchema,
               remoteType := r.remoteType, extras }

/-- The diagnostic of a template that refuses a stored section. -/
def promptError : JsonError → String
  | .logicError what | .invalidArgument what => what
  | .typeError expected _ => "type must be " ++ expected
  | .outOfRange key => "key '" ++ key ++ "' not found"

/-- `decode_prompt`: sections are admitted again one by one. -/
def decodePrompt (db : Database) (snapshotId headingLevel : Int) :
    Except SnapshotError PromptTemplate :=
  if headingLevel < -2 ^ 31 ∨ 2 ^ 31 - 1 < headingLevel then
    .error (.corruptSnapshot "snapshots.heading_level does not fit int")
  else
    (orderBy PromptSectionRow.ordinal
      (db.promptSections.filter fun r => r.snapshotId = snapshotId)).foldlM
        (fun t r => do
          let stability ←
            enumValue SectionStability.fromJson r.stability "prompt_sections.stability"
          match t.addSection r.name r.title r.body stability with
          | .ok t => return t
          | .error e => throw (.corruptSnapshot
              ("snapshot has an invalid prompt layout: " ++ promptError e)))
        { PromptTemplate.empty with headingLevel := Int32.ofInt headingLevel }

/-- `decode_snapshot_impl`. -/
def decodeSnapshot (db : Database) (snapshotId : Int) :
    Except SnapshotError AgentInputState :=
  match db.snapshots.filter fun r => r.snapshotId = snapshotId with
  | [] => .error (.snapshotNotFound
      ("session store has no snapshot " ++ toString snapshotId))
  | header :: _ => do
    if header.metaSchemaVersion < 0 ∨ 2 ^ 32 - 1 < header.metaSchemaVersion then
      throw (.corruptSnapshot "snapshots.meta_schema_version does not fit uint32")
    let status ←
      enumValue SessionStatus.fromJson header.sessionStatus "snapshots.session_status"
    let error ← decodeOptionalJson parse header.metaErrorJson "snapshots.meta_error_json"
    let systemPrompt ← decodePrompt db snapshotId header.headingLevel
    let extras ← decodeOptionalJson parse header.extrasJson "snapshots.extras_json"
    let tools ← decodeTools parse db snapshotId
    let turns ← decodeTurns parse db snapshotId
    let loop ← decodeLoop parse db snapshotId
    return {
      loop, systemPrompt, tools, turns, extras
      metaInfo := {
        schemaVersion := UInt32.ofNat header.metaSchemaVersion.toNat
        sessionId := header.sessionId
        createdAt := header.createdAt
        updatedAt := header.updatedAt
        status, error } }

/-- `load_current`. -/
def loadCurrent (db : Database) (sessionId : String) :
    Except SnapshotError (Option AgentInputState) := do
  requireSession db sessionId
  match ← findCurrent db sessionId with
  | none => return none
  | some snapshotId => return some (← decodeSnapshot parse db snapshotId)

end Codec

end SimplexAgent.Persistence
