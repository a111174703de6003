import Mathlib

/-!
# The operation ledger of a session

`Operations` of `subagents/service.ts`: the receipts of a caller, and the requests that a child
was sent with what is known of them. The ledger is kept in memory and in a file; it is marked
dirty when the file could not be written, and read from the file again when the hub is started.

Saving a ledger that has grown too large drops its oldest requests. The size of a ledger in its
file is a parameter, as is whether a write goes through.
-/

namespace SimplexAgent.Hub

inductive OperationState where
  | intent
  | sent
  | admitted
  | rejected
  | unknown
  | finished
  deriving DecidableEq, Repr

/-- `Operation`. -/
structure Operation where
  requestId : String
  operation : String
  state : OperationState
  runId : String
  status : Option String
  detail : Option String
  summary : Option String
  createdAt : String
  deriving DecidableEq, Repr

/-- What a caller is told of an operation, and is told again when it asks again. -/
inductive OperationResult where
  | fork (subagentId : String)
  | send (subagentId requestId operation : String)
  | stop (subagentId operationId : String)
  deriving DecidableEq, Repr

/-- `Receipt`; the time is in milliseconds. The key and the digest are hashes. -/
structure Receipt (Digest : Type) where
  key : Digest
  digest : Digest
  route : String
  committedAt : Nat
  result : OperationResult

/-- `Operations`. -/
structure Operations (Digest : Type) where
  receipts : List (Receipt Digest)
  requests : List Operation

/-- `MAX_OPERATION_BYTES`. -/
def maxOperationBytes : Nat := 512 * 1024

def maxRequests : Nat := 200

/-- `slice(-count)`. -/
def lastOf {α : Type} (count : Nat) (items : List α) : List α := items.drop (items.length - count)

namespace OperationState

/-- `['intent', 'sent', 'admitted'].includes`. -/
def unsettled : OperationState → Bool
  | .intent | .sent | .admitted => true
  | _ => false

/-- `['intent', 'sent', 'unknown'].includes`. -/
def unanswered : OperationState → Bool
  | .intent | .sent | .unknown => true
  | _ => false

/-- The outcomes. -/
def settled : OperationState → Bool
  | .rejected | .finished => true
  | _ => false

end OperationState

/-! ## One operation -/

structure OperationEvent where
  event : String
  requestId : String
  runId : String
  /-- `data.request_id`, if it is a string. -/
  rejectedId : Option String
  message : Option String
  status : Option String
  durable : Bool
  summary : Option String
  deriving DecidableEq, Repr

/-- `slice(0, count)`, in UTF-16 code units. A character that would be cut in half is left
out. -/
def sliceUnits : Nat → List Char → List Char
  | _, [] => []
  | count, c :: rest =>
    let units := if c.val < 0x10000 then 1 else 2
    if units ≤ count then c :: sliceUnits (count - units) rest else []

def sliceText (count : Nat) (text : String) : String := String.ofList (sliceUnits count text.toList)

namespace OperationEvent

def about (e : OperationEvent) : Option String :=
  if e.event = "input_rejected" then e.rejectedId else some e.requestId

end OperationEvent

namespace Operation

/-- The changes of `onEvent`, or none. The four events are different ones. -/
def observe (entry : Operation) (e : OperationEvent) : Option Operation :=
  if e.event = "input_admitted" ∧ entry.state.unanswered = true then
    some { entry with state := .admitted, runId := e.runId }
  else if e.event = "input_rejected" ∧ entry.state.unanswered = true then
    some { entry with
      state := .rejected
      detail := some ((e.message.map (sliceText 512)).getD "worker rejected input") }
  else if e.event = "run_finished" ∧ (entry.state = .admitted ∨ entry.state = .unknown) ∧
      (entry.runId = "" ∨ entry.runId = e.runId) then
    some { entry with
      state := .finished
      status := some ((e.status.map (sliceText 32)).getD "unknown") }
  else if entry.operation = "compact" ∧ e.event = "compact_finished" ∧ e.durable = true ∧
      e.summary.isSome = true ∧ entry.summary ≠ e.summary then
    some { entry with summary := e.summary }
  else none

/-- What a lost connection and a restart make of an operation. -/
def forget (entry : Operation) : Operation :=
  if entry.state.unsettled = true then { entry with state := .unknown } else entry

end Operation

/-! ## The ledger -/

structure Ledger (Digest : Type) where
  memory : Operations Digest
  file : Option (Operations Digest)
  dirty : Bool
  closing : Bool
  removed : Bool

/-- The sizes of ledgers in their files, and `maxReceipts`. -/
structure LedgerLimits (Digest : Type) where
  bytes : Operations Digest → Nat
  maxReceipts : Nat

/-- How a request whose intent was saved ended on its way to the child. -/
inductive SendOutcome where
  /-- The caller got no receipt, so nothing was written. -/
  | receiptUncommitted
  /-- The transport failed. -/
  | threw
  | enqueued
  | refused
  deriving DecidableEq, Repr

variable {Digest : Type}

/-- The loop of `saveOps`: whole older requests go until the ledger fits, but for the last
one. -/
def fitRequests (limits : LedgerLimits Digest) (receipts : List (Receipt Digest)) :
    List Operation → List Operation
  | [] => []
  | [entry] => [entry]
  | entry :: next :: rest =>
    if maxOperationBytes ≤ limits.bytes { receipts := receipts, requests := entry :: next :: rest }
    then fitRequests limits receipts (next :: rest)
    else entry :: next :: rest

namespace Operations

def empty : Operations Digest where
  receipts := []
  requests := []

def fit (limits : LedgerLimits Digest) (operations : Operations Digest) : Operations Digest :=
  { operations with requests := fitRequests limits operations.receipts operations.requests }

/-- What `ops` makes of a file. -/
def reload (limits : LedgerLimits Digest) (saved : Operations Digest) : Operations Digest where
  receipts := lastOf limits.maxReceipts saved.receipts
  requests := (lastOf maxRequests saved.requests).map Operation.forget

def pushRequest (operations : Operations Digest) (entry : Operation) : Operations Digest :=
  { operations with requests := lastOf maxRequests (operations.requests ++ [entry]) }

def pushReceipt (limits : LedgerLimits Digest) (operations : Operations Digest)
    (receipt : Receipt Digest) : Operations Digest :=
  { operations with receipts := lastOf limits.maxReceipts (operations.receipts ++ [receipt]) }

end Operations

namespace Ledger

/-- The ledger of a session without a file. -/
def new : Ledger Digest where
  memory := .empty
  file := none
  dirty := false
  closing := false
  removed := false

/-- `saveOps`: whether it returned, and the ledger then. `stored` tells whether a write goes
through; a ledger that is too large even so is not written. -/
def saveOps (limits : LedgerLimits Digest) (stored : Bool) (l : Ledger Digest) :
    Bool × Ledger Digest :=
  if l.removed = true then (true, l)
  else
    let fitted := l.memory.fit limits
    if stored = true ∧ limits.bytes fitted < maxOperationBytes then
      (true, { l with memory := fitted, file := some fitted, dirty := false })
    else (false, { l with memory := fitted, dirty := true })

def updateFirst (id : String) (f : Operation → Operation) : List Operation → List Operation
  | [] => []
  | entry :: rest =>
    if entry.requestId = id then f entry :: rest else entry :: updateFirst id f rest

/-- `requests.find`. -/
def find (l : Ledger Digest) (id : Option String) : Option Operation :=
  l.memory.requests.find? fun entry => some entry.requestId = id

def setRequests (l : Ledger Digest) (requests : List Operation) : Ledger Digest :=
  { l with memory := { l.memory with requests := requests } }

/-- What an event does to the entry it is about, or none if that is nothing. -/
def observed (l : Ledger Digest) (e : OperationEvent) : Option (Ledger Digest) :=
  match l.find e.about with
  | none => none
  | some entry =>
    if (entry.observe e).isSome = true then
      some (l.setRequests (updateFirst entry.requestId
        (fun entry => (entry.observe e).getD entry) l.memory.requests))
    else none

/-- `onEvent`. -/
def onEvent (limits : LedgerLimits Digest) (stored : Bool) (e : OperationEvent)
    (l : Ledger Digest) : Ledger Digest :=
  if l.closing = true ∨ l.removed = true then l
  else
    match l.observed e with
    | some changed => (changed.saveOps limits stored).2
    | none => if l.dirty = true then (l.saveOps limits stored).2 else l

/-- `onConnection` without a connection. -/
def onDisconnected (limits : LedgerLimits Digest) (stored : Bool) (l : Ledger Digest) :
    Ledger Digest :=
  if l.removed = true ∨ l.closing = true then l
  else ((l.setRequests (l.memory.requests.map Operation.forget)).saveOps limits stored).2

/-- The intent of `send` in the ledger of the child. -/
def noteIntent (requestId operation createdAt : String) (l : Ledger Digest) : Ledger Digest :=
  { l with memory := l.memory.pushRequest {
      requestId := requestId
      operation := operation
      state := .intent
      runId := ""
      status := none
      detail := none
      summary := none
      createdAt := createdAt } }

/-- What `send` notes of a delivery in the entry, or none when it gets no further. -/
def delivered : SendOutcome → Option (Operation → Operation)
  | .receiptUncommitted => none
  | .threw => some fun entry => { entry with
      state := .unknown
      detail := some "transport failed after dispatch intent; delivery is uncertain" }
  | .enqueued => some fun entry => { entry with state := .sent }
  | .refused => some fun entry => { entry with
      state := .rejected
      detail := some "payload was not enqueued" }

/-- What `send` does to the ledger of the child, from the intent on: its two saves go through
or not. -/
def send (limits : LedgerLimits Digest) (requestId operation createdAt : String)
    (intentStored : Bool) (outcome : SendOutcome) (stored : Bool) (l : Ledger Digest) :
    Ledger Digest :=
  if l.closing = true ∨ l.removed = true then l
  else
    let (saved, l) := (l.noteIntent requestId operation createdAt).saveOps limits intentStored
    match saved, delivered outcome with
    | true, some f =>
      ((l.setRequests (updateFirst requestId f l.memory.requests)).saveOps limits stored).2
    | _, _ => l

/-- `commitReceipt`: a receipt that is not saved is taken back. -/
def commitReceipt (limits : LedgerLimits Digest) (stored : Bool) (receipt : Receipt Digest)
    (l : Ledger Digest) : Bool × Ledger Digest :=
  let result := { l with memory := l.memory.pushReceipt limits receipt }.saveOps limits stored
  if result.1 = true then result
  else (false, { result.2 with memory := { result.2.memory with receipts := l.memory.receipts } })

/-- The session is stopping. -/
def freeze (l : Ledger Digest) : Ledger Digest := { l with closing := true }

/-- The cleanup has ended: the file is gone, and a few outcomes stay in memory. -/
def terminal (l : Ledger Digest) : Ledger Digest where
  memory := {
    receipts := []
    requests := (lastOf 20 l.memory.requests).map fun entry => { entry with summary := none } }
  file := none
  dirty := false
  closing := l.closing
  removed := true

/-- The hub starts again. -/
def restart (limits : LedgerLimits Digest) (closing : Bool) (l : Ledger Digest) : Ledger Digest :=
  { l with
    memory := (l.file.map (·.reload limits)).getD .empty
    dirty := false
    closing := closing }

end Ledger

end SimplexAgent.Hub
