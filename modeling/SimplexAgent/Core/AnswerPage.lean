import SimplexAgent.Verified.Framing
import SimplexAgent.Verified.Paging
import SimplexAgent.Verified.Utf8
import SimplexAgent.Dataclass.ModelIo
import SimplexAgent.Protocol.RoundTrip

/-!
# Exact answers by pages

`answer_page` from `core/display.cpp`: a client reads a committed response part by part,
32 KiB at a time. A page is cut back to the start of a character. The client names the
response by its position, its commit sequence and a fingerprint of its content, and copies
that locator into every request; the worker looks the position up anew each time and
refuses when another response stands there.

The model holds of the conversation what the query reads: for each turn its committed
steps, for each step its commit sequence and the parts of its answer. The raw content of a
part is its bytes, which need not be text. The digest of the fingerprint is a parameter.
-/

namespace SimplexAgent.Core.AnswerPage

open Dataclass Verified
open Protocol (fromJson toJson Record Member)

/-! ## The conversation -/

/-- One part of an answer. A `std::string` is no longer than `size_t` can count. -/
structure Part where
  type : ContentType
  modality : Modality
  raw : List UInt8
  fits : raw.length < 2 ^ 64
  deriving DecidableEq

/-- One step of a turn, `commit_sequence` and the content of its response. -/
structure Committed where
  commitSequence : UInt64
  content : List Part
  fits : content.length < 2 ^ 64
  deriving DecidableEq

abbrev Turns := List (List Committed)

def committedAt (turns : Turns) (turn step : UInt64) : Option Committed :=
  turns[turn.toNat]?.bind fun steps => steps[step.toNat]?

/-! ## The fingerprint -/

def bytesOf (text : String) : List UInt8 := Utf8.encode text.toList

structure PartKey where
  bytes : Nat
  modality : Modality
  type : ContentType
  deriving DecidableEq

/-- `Json{...}.dump()`, with the keys in their order. -/
def PartKey.identity (key : PartKey) : List UInt8 :=
  bytesOf "\x7b\"bytes\":" ++ bytesOf (toString key.bytes) ++ bytesOf ",\"modality\":\"" ++
    bytesOf key.modality.nameOf ++ bytesOf "\",\"type\":\"" ++ bytesOf key.type.nameOf ++
    bytesOf "\"\x7d"

def Part.key (part : Part) : PartKey where
  bytes := part.raw.length
  modality := part.modality
  type := part.type

def digested (content : List Part) : List UInt8 :=
  content.flatMap fun part => part.key.identity ++ part.raw

def hexDigit (n : Nat) : Char := "0123456789abcdef".toList.getD n '0'

/-- Two digits a byte. -/
def hex (bytes : List UInt8) : String :=
  String.ofList (bytes.flatMap fun b => [hexDigit (b.toNat / 16), hexDigit (b.toNat % 16)])

def fingerprint (digest : List UInt8 → List UInt8) (content : List Part) : String :=
  hex (digest (digested content))

/-! ## Requests -/

/-- The locator of a response. -/
structure AnswerSource where
  workerId : String
  turn : UInt64
  step : UInt64
  commitSequence : String
  fingerprint : String
  deriving DecidableEq

/-- `source`: the locator of one committed response. -/
def source (digest : List UInt8 → List UInt8) (response : Committed) (turn step : UInt64)
    (workerId : String) : AnswerSource where
  workerId := workerId
  turn := turn
  step := step
  commitSequence := toString response.commitSequence.toNat
  fingerprint := fingerprint digest response.content

structure PayloadRequest where
  operation : String
  requestId : String
  source : Option AnswerSource
  part : Option UInt64
  offset : Option UInt64
  deriving DecidableEq

def textMember (record : Record) (name : String) : String :=
  match record.member name with
  | some (.text s) | some (.enumerator s) => s
  | _ => ""

def numberMember (record : Record) (name : String) : Option UInt64 :=
  match record.member name with
  | some (.number n) => some n
  | _ => none

def AnswerSource.ofRecord (record : Record) : AnswerSource where
  workerId := textMember record "worker_id"
  turn := (numberMember record "turn").getD 0
  step := (numberMember record "step").getD 0
  commitSequence := textMember record "commit_sequence"
  fingerprint := textMember record "fingerprint"

def PayloadRequest.ofRecord (record : Record) : PayloadRequest where
  operation := textMember record "operation"
  requestId := textMember record "request_id"
  source :=
    match record.member "source" with
    | some (.record members) => some (AnswerSource.ofRecord members)
    | _ => none
  part := numberMember record "part"
  offset := numberMember record "offset"

def PayloadRequest.decode (query : Json) : Except String PayloadRequest :=
  match fromJson Protocol.Wire.declarations "PayloadRequest" query "" with
  | .ok record => .ok (ofRecord record)
  | .error error => .error error.what

/-! ## The page -/

structure Page where
  requestId : String
  source : AnswerSource
  part : Nat
  offset : Nat
  nextOffset : Nat
  bytes : Nat
  totalParts : Nat
  nextPart : Nat
  done : Bool
  type : ContentType
  modality : Modality
  raw : List UInt8
  deriving DecidableEq

def PayloadRequest.locator (request : PayloadRequest) (workerId : String) :
    Except String AnswerSource :=
  if request.operation ≠ "answer" then .error "expected answer query"
  else if request.requestId = "" ∨ 128 < request.requestId.utf8ByteSize then
    .error "invalid request_id"
  else
    match request.source with
    | none => .error "answer source is unavailable in this worker"
    | some source =>
      if source.workerId ≠ workerId then
        .error "answer source is unavailable in this worker"
      else .ok source

/-- The response that a locator names, if it still stands where it was. -/
def AnswerSource.resolve (digest : List UInt8 → List UInt8) (turns : Turns)
    (locator : AnswerSource) : Except String Committed :=
  match committedAt turns locator.turn locator.step with
  | none => .error "answer source expired after state replacement"
  | some committed =>
    if locator.commitSequence ≠ toString committed.commitSequence.toNat ∨
        committed.commitSequence = 0 then
      .error "answer commit identity does not match"
    else if locator.fingerprint ≠ AnswerPage.fingerprint digest committed.content then
      .error "answer content changed; refresh history before reading it"
    else .ok committed

def continues (raw : List UInt8) (n : Nat) : Prop :=
  (raw[n]?).any Utf8.isContinuation = true

instance (raw : List UInt8) (n : Nat) : Decidable (continues raw n) :=
  inferInstanceAs (Decidable (_ = _))

/-- The loop that moves a cut back out of a character. -/
def stepBack (raw : List UInt8) (offset : Nat) : Nat → Nat
  | 0 => 0
  | n + 1 =>
    if offset < n + 1 ∧ n + 1 < raw.length ∧ continues raw (n + 1) then stepBack raw offset n
    else n + 1

def pageBytes : Nat := 32 * 1024

def pageEnd (raw : List UInt8) (offset : Nat) : Nat :=
  stepBack raw offset (offset + min pageBytes (raw.length - offset))

def pageFrom (requestId : String) (locator : AnswerSource) (parts : List Part) (part : Nat)
    (found : Part) (offset : Nat) : Page :=
  let stop := pageEnd found.raw offset
  let finished := decide (stop = found.raw.length)
  { requestId := requestId
    source := locator
    part := part
    offset := offset
    nextOffset := stop
    bytes := found.raw.length
    totalParts := parts.length
    nextPart := if finished then part + 1 else part
    done := finished && decide (part + 1 = parts.length)
    type := found.type
    modality := found.modality
    raw := (found.raw.drop offset).take (stop - offset) }

def pageAt (requestId : String) (locator : AnswerSource) (parts : List Part)
    (part offset : Nat) : Except String Page :=
  match parts[part]? with
  | none => .error "answer part is unavailable"
  | some found =>
    if found.type = .binary then .error "binary answer content is not available as text"
    else if found.raw.length < offset ∨ (offset < found.raw.length ∧ continues found.raw offset)
    then .error "answer offset is outside a UTF-8 boundary"
    else .ok (pageFrom requestId locator parts part found offset)

/-- `answer_page`, before the page is written as JSON. -/
def answerPage (digest : List UInt8 → List UInt8) (turns : Turns) (query : Json)
    (workerId : String) : Except String Page := do
  let request ← PayloadRequest.decode query
  let locator ← request.locator workerId
  let committed ← locator.resolve digest turns
  pageAt request.requestId locator committed.content (request.part.getD 0).toNat
    (request.offset.getD 0).toNat

/-! ## The client -/

/-- A place in the answer. -/
structure Cursor where
  part : Nat
  offset : Nat
  deriving DecidableEq

def answerRequest (requestId : String) (source : AnswerSource) (part offset : UInt64) : Record :=
  [("operation", some (.enumerator "answer")), ("request_id", some (.text requestId)),
   ("content", none), ("options", none), ("start", none), ("step", none), ("limit", none),
   ("source", some (.record
     [("worker_id", some (.text source.workerId)), ("turn", some (.number source.turn)),
      ("step", some (.number source.step)),
      ("commit_sequence", some (.text source.commitSequence)),
      ("fingerprint", some (.text source.fingerprint))])),
   ("part", some (.number part)), ("offset", some (.number offset))]

def answerQuery (requestId : String) (source : AnswerSource) (cursor : Cursor) : Json :=
  toJson Protocol.Wire.declarations "PayloadRequest"
    (answerRequest requestId source (UInt64.ofNat cursor.part) (UInt64.ofNat cursor.offset))

/-- The cursor to continue with: the offset starts over when the part advances. -/
def Page.follow (page : Page) : Cursor where
  part := page.nextPart
  offset := if page.nextPart = page.part then page.nextOffset else 0

/-- A client that asks for page after page until one is the last. -/
inductive Walk (fetch : Nat → Cursor → Except String Page) : Nat → Cursor → List Page → Prop
  | last {n : Nat} {cursor : Cursor} {page : Page} (hPage : fetch n cursor = .ok page)
      (hDone : page.done = true) : Walk fetch n cursor [page]
  | more {n : Nat} {cursor : Cursor} {page : Page} {rest : List Page}
      (hPage : fetch n cursor = .ok page) (hDone : page.done = false)
      (hRest : Walk fetch (n + 1) page.follow rest) : Walk fetch n cursor (page :: rest)

end SimplexAgent.Core.AnswerPage
