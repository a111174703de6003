import SimplexAgent.Dataclass.Json

/-!
# The event outbox

`core/event_outbox.hpp` and `core/event_admission.hpp`: the ledger through which every
event of a worker passes. It numbers the events, bounds what waits for the transport,
replaces a waiting latest-value event by a newer one, and counts what it left out until
a settlement event reports the counts.

The encoded size of a message is that of the JSON library; it is a parameter. Sizes and
counters are natural numbers: bytes stay below the write capacity, and a counter would
need 2^64 operations to wrap. On the wire they are 64-bit numbers.
-/

namespace SimplexAgent.Core

open Dataclass

/-! ## Events -/

/-- `protocol::EventName`. -/
inductive EventName where
  | ready
  | status
  | options
  | history
  | answer
  | answerError
  | historyError
  | inputAdmitted
  | inputRejected
  | runStarted
  | inputCommitted
  | modelResponse
  | toolCalls
  | toolResults
  | persisted
  | compactFinished
  | exportError
  | error
  | runFinished
  deriving DecidableEq, Repr

def EventName.spelling : EventName → String
  | .ready => "ready"
  | .status => "status"
  | .options => "options"
  | .history => "history"
  | .answer => "answer"
  | .answerError => "answer_error"
  | .historyError => "history_error"
  | .inputAdmitted => "input_admitted"
  | .inputRejected => "input_rejected"
  | .runStarted => "run_started"
  | .inputCommitted => "input_committed"
  | .modelResponse => "model_response"
  | .toolCalls => "tool_calls"
  | .toolResults => "tool_results"
  | .persisted => "persisted"
  | .compactFinished => "compact_finished"
  | .exportError => "export_error"
  | .error => "error"
  | .runFinished => "run_finished"

def counter (n : Nat) : Json := Json.uint (UInt64.ofNat n)

structure EventEnvelope where
  event : EventName := .ready
  sessionId : String := ""
  workerId : String := ""
  requestId : String := ""
  runId : String := ""
  sequence : Nat := 0
  data : Json := .obj []
  deriving DecidableEq

/-- `protocol::to_json`. -/
def EventEnvelope.toJson (envelope : EventEnvelope) : Json :=
  Json.object
    [("type", .str "event"), ("event", .str envelope.event.spelling),
     ("session_id", .str envelope.sessionId),
     ("worker_id", .str envelope.workerId),
     ("request_id", .str envelope.requestId),
     ("run_id", .str envelope.runId),
     ("sequence", counter envelope.sequence),
     ("data", envelope.data)]

def EventEnvelope.key (envelope : EventEnvelope) : EventName × String × String :=
  (envelope.event, envelope.requestId, envelope.runId)

/-- `value(key, fallback)` for a boolean. -/
def valueBool (data : Json) (key : String) (fallback : Bool) : Except JsonError Bool :=
  match data with
  | .obj fields =>
    match fields.lookup key with
    | none => .ok fallback
    | some (.bool b) => .ok b
    | some other => .error (.typeError "boolean" other)
  | other => .error (.typeError "object" other)

/-- `value(key, fallback)` for a string. -/
def valueString (data : Json) (key fallback : String) : Except JsonError String :=
  match data with
  | .obj fields =>
    match fields.lookup key with
    | none => .ok fallback
    | some (.str s) => .ok s
    | some other => .error (.typeError "string" other)
  | other => .error (.typeError "object" other)

/-! ## Kinds -/

/-- `EventOutbox::Kind`. -/
inductive Kind where
  | preview
  | query
  | feedback
  | metadata
  | lifecycle
  deriving DecidableEq, Repr

/-- `classify_event`. -/
def classifyEvent (name : EventName) (data : Json) (storageFailed : Bool) :
    Except JsonError Kind :=
  match name with
  | .modelResponse | .toolCalls | .toolResults => .ok .preview
  | .history | .answer | .historyError | .answerError => .ok .query
  | .persisted | .status | .options | .exportError => .ok .metadata
  | .error => .ok (if storageFailed then .lifecycle else .metadata)
  | .compactFinished => do
    let origin ← valueString data "origin" ""
    return if origin = "automatic" then .metadata else .lifecycle
  | .ready | .inputAdmitted | .runStarted | .inputCommitted | .runFinished => .ok .lifecycle
  | .inputRejected => .ok .feedback

/-! ## The ledger -/

/-- `intercom::default_write_byte_capacity`. -/
def writeByteCapacity : Nat := 16 * 1024 * 1024

def displayEventMaxBytes : Nat := 1024 * 1024

def historyEventMaxBytes : Nat := 256 * 1024

def lifecycleSlots : Nat := 8

def metadataSlots : Nat := 6

/-- What ordinary and metadata events may fill. -/
def softBytes : Nat := writeByteCapacity - (lifecycleSlots + 1) * displayEventMaxBytes

/-- A queued event. The message of the entry in flight has been moved out. -/
structure Entry where
  message : Option EventEnvelope
  bytes : Nat
  kind : Kind
  deriving DecidableEq

structure EventOutbox where
  queue : List Entry := []
  capacity : Nat
  bytes : Nat := 0
  ordinaryCount : Nat := 0
  metadataCount : Nat := 0
  lifecycleCount : Nat := 0
  omittedDisplay : Nat := 0
  omittedQueries : Nat := 0
  coalescedMetadata : Nat := 0
  omittedFeedback : Nat := 0
  sequence : Nat := 0
  inFlight : Bool := false
  noncriticalPaused : Bool := false
  closed : Bool := false
  deriving DecidableEq

/-- `EventOutbox::Admission`. -/
inductive Admission where
  | added
  | replaced
  | omitted
  deriving DecidableEq, Repr

/-- What an operation can throw. -/
inductive OutboxError where
  | lengthError (what : String)
  | logicError (what : String)
  | json (error : JsonError)

/-- `fits`. -/
def fits (own transport added limit : Nat) : Bool :=
  own ≤ limit ∧ transport ≤ limit - own ∧ added ≤ limit - own - transport

namespace EventOutbox

def noteOmission (o : EventOutbox) : Kind → EventOutbox
  | .preview => { o with omittedDisplay := o.omittedDisplay + 1 }
  | .query => { o with omittedQueries := o.omittedQueries + 1 }
  | .metadata => { o with coalescedMetadata := o.coalescedMetadata + 1 }
  | .feedback | .lifecycle => { o with omittedFeedback := o.omittedFeedback + 1 }

/-- `++count(kind)`. -/
def countUp (o : EventOutbox) : Kind → EventOutbox
  | .lifecycle => { o with lifecycleCount := o.lifecycleCount + 1 }
  | .metadata => { o with metadataCount := o.metadataCount + 1 }
  | .preview | .query | .feedback => { o with ordinaryCount := o.ordinaryCount + 1 }

/-- `--count(kind)`. -/
def countDown (o : EventOutbox) : Kind → EventOutbox
  | .lifecycle => { o with lifecycleCount := o.lifecycleCount - 1 }
  | .metadata => { o with metadataCount := o.metadataCount - 1 }
  | .preview | .query | .feedback => { o with ordinaryCount := o.ordinaryCount - 1 }

def slot (o : EventOutbox) : Kind → Bool
  | .lifecycle => o.lifecycleCount < lifecycleSlots
  | .metadata => o.metadataCount < metadataSlots
  | .preview | .query | .feedback => o.ordinaryCount < o.capacity

def byteLimit : Kind → Nat
  | .lifecycle => writeByteCapacity
  | .preview | .query | .feedback | .metadata => softBytes

/-- `omit_query_when_congested`. -/
def omitQueryWhenCongested (o : EventOutbox) (transportBytes : Nat) : Bool × EventOutbox :=
  if o.closed then (true, o)
  else if o.noncriticalPaused ∨ o.ordinaryCount ≥ o.capacity ∨
      ¬fits o.bytes transportBytes historyEventMaxBytes softBytes then
    (true, o.noteOmission .query)
  else (false, o)

/-! ### Admission -/

def settlement (envelope : EventEnvelope) : Except JsonError Bool :=
  if envelope.event = .runFinished then .ok true
  else if envelope.event = .error then do
    let durable ← valueBool envelope.data "durable" true
    return !durable
  else .ok false

/-- `data[key] = n` when there is something to report. -/
def reportCounter (key : String) (n : Nat) (data : Json) : Except JsonError Json :=
  if n = 0 then .ok data
  else
    match data with
    | .obj fields => .ok (.obj (Json.setField fields key (counter n)))
    | .null => .ok (.obj [(key, counter n)])
    | other => .error (.typeError "object" other)

/-- What has been left out and not been reported. -/
structure Tally where
  display : Nat := 0
  queries : Nat := 0
  metadata : Nat := 0
  feedback : Nat := 0
  deriving DecidableEq

/-- The counters in a settlement event. -/
def Tally.report (t : Tally) (data : Json) : Except JsonError Json := do
  let data ← reportCounter "omitted_display_events" t.display data
  let data ← reportCounter "omitted_query_events" t.queries data
  let data ← reportCounter "coalesced_metadata_events" t.metadata data
  reportCounter "omitted_feedback_events" t.feedback data

def tally (o : EventOutbox) : Tally where
  display := o.omittedDisplay
  queries := o.omittedQueries
  metadata := o.coalescedMetadata
  feedback := o.omittedFeedback

/-- The index of a waiting metadata entry with this key. -/
def findReplaceable (o : EventOutbox) (message : EventEnvelope) : Option Nat :=
  let first := if o.inFlight then 1 else 0
  ((o.queue.drop first).findIdx? fun old =>
    old.kind = .metadata ∧ old.message.map EventEnvelope.key = some message.key).map (· + first)

def resetCounters (o : EventOutbox) : EventOutbox :=
  { o with omittedDisplay := 0, omittedQueries := 0, coalescedMetadata := 0, omittedFeedback := 0 }

/-- A new entry at the end of the queue. -/
def push (o : EventOutbox) (message : EventEnvelope) (bytes : Nat) (kind : Kind) : EventOutbox :=
  let entry : Entry := { message := some message, bytes, kind }
  let o := { o with queue := o.queue ++ [entry], bytes := o.bytes + bytes }
  let o := o.countUp kind
  { o with sequence := o.sequence + 1 }

/-- The tail of `admit`: a slot and enough room, or an omission. -/
def append (o : EventOutbox) (message : EventEnvelope) (bytes : Nat) (kind : Kind)
    (settles : Bool) (transportBytes : Nat) : Admission × EventOutbox :=
  if ¬o.slot kind ∨ ¬fits o.bytes transportBytes bytes (byteLimit kind) then
    if kind = .lifecycle then (.omitted, o) else (.omitted, o.noteOmission kind)
  else
    let pushed := o.push message bytes kind
    (.added, if settles then pushed.resetCounters else pushed)

variable (encodedBytes : Json → Nat)

def messageBytes (message : EventEnvelope) : Nat := encodedBytes message.toJson

/-- Replacement of a waiting metadata entry: the sequence number stays. When the newer
value does not fit the loop is left with the older number and size. -/
def replaceAt (o : EventOutbox) (i : Nat) (message : EventEnvelope) (settles : Bool)
    (transportBytes : Nat) : Admission × EventOutbox :=
  match o.queue[i]? with
  | none => (.omitted, o)
  | some old =>
    let message := { message with sequence := (old.message.map EventEnvelope.sequence).getD 0 }
    let bytes := messageBytes encodedBytes message
    if fits (o.bytes - old.bytes) transportBytes bytes softBytes then
      (.replaced,
        { o with
          bytes := o.bytes - old.bytes + bytes
          queue := o.queue.set i ⟨some message, bytes, .metadata⟩
          coalescedMetadata := o.coalescedMetadata + 1 })
    else o.append message bytes .metadata settles transportBytes

/-- `admit`, once the message is complete and within the transport budget. -/
def place (o : EventOutbox) (message : EventEnvelope) (kind : Kind) (settles : Bool)
    (transportBytes : Nat) : Admission × EventOutbox :=
  if o.closed then (.omitted, o)
  else if o.noncriticalPaused ∧ kind ≠ .lifecycle then (.omitted, o.noteOmission kind)
  else
    match if kind = .metadata then o.findReplaceable message else none with
    | some i => o.replaceAt encodedBytes i message settles transportBytes
    | none =>
      o.append message (messageBytes encodedBytes message) kind settles transportBytes

def messageData (o : EventOutbox) (settles : Bool) (data : Json) : Except JsonError Json :=
  if settles then o.tally.report data else .ok data

/-- The message of an envelope, and whether it settles the counters. -/
def prepare (o : EventOutbox) (envelope : EventEnvelope) :
    Except JsonError (EventEnvelope × Bool) := do
  let settles ← settlement envelope
  let data ← o.messageData settles envelope.data
  return ({ envelope with data, sequence := o.sequence + 1 }, settles)

/-- `admit`; a thrown error leaves the ledger as it was. -/
def admitEvent (o : EventOutbox) (envelope : EventEnvelope) (kind : Kind) (transportBytes : Nat) :
    Except OutboxError (Admission × EventOutbox) := do
  let (message, settles) ← (o.prepare envelope).mapError .json
  if messageBytes encodedBytes message > displayEventMaxBytes then
    .error (.lengthError "display event exceeds the transport budget")
  else if message.event = .history ∧ messageBytes encodedBytes message > historyEventMaxBytes then
    .error (.lengthError "history event exceeds the display budget")
  else .ok (o.place encodedBytes message kind settles transportBytes)

/-! ### Sending -/

/-- `begin_send`: the front message moves out, its reservation stays. -/
def beginSend (o : EventOutbox) : Except OutboxError (Option EventEnvelope × EventOutbox) :=
  match o.queue with
  | [] => .error (.logicError "invalid outbox send")
  | front :: rest =>
    if o.inFlight then .error (.logicError "invalid outbox send")
    else
      .ok (front.message, { o with inFlight := true, queue := { front with message := none } :: rest })

/-- `complete_send`. -/
def completeSend (o : EventOutbox) : Except OutboxError EventOutbox :=
  match o.queue with
  | [] => .error (.logicError "outbox has no active send")
  | front :: rest =>
    if o.inFlight then
      let o := { o with bytes := o.bytes - front.bytes }
      let o := o.countDown front.kind
      .ok { o with queue := rest, inFlight := false }
    else .error (.logicError "outbox has no active send")

def close (o : EventOutbox) : EventOutbox := { o with closed := true }

def pauseNoncritical (o : EventOutbox) (paused : Bool) : EventOutbox :=
  { o with noncriticalPaused := paused }

end EventOutbox

end SimplexAgent.Core
