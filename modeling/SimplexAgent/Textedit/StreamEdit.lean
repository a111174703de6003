import SimplexAgent.Textedit.StreamEditScan
import Mathlib

/-!
# A streaming edit of a file

`str_replace_file` of `textedit/stream_edit.cpp`: one scan with the matcher, which spools the
candidate; the decision; and the publication, or for an edit that changes nothing a second pass
for the previews. The previews are a function of what the observer was given.
-/

namespace SimplexAgent.Textedit

open Verified.Interruptible Fileio

/-- `kStreamBufferBytes`. -/
def streamBufferBytes : Nat := 64 * 1024

/-- `kMaxContextLines`. -/
def maxContextLines : Nat := 20

/-- The largest `size_t`. -/
def sizeMax : Nat := 2 ^ 64 - 1

inductive EditStatus where
  | modified
  | unchanged
  | notFound
  | ambiguous
  | conflict
  | publishedSyncFailed
  deriving DecidableEq

/-- `EditResult`, with the positions and excerpts in one. -/
structure EditResult (α : Type) where
  status : EditStatus
  matchesAtLeast : Nat
  secondMatchByte : Option Nat
  matchByte : Nat
  beforeBytes : Nat
  afterBytes : Nat
  previews : Option α
  persistenceError : Bool

structure EditRequest where
  oldText : List UInt8
  newText : List UInt8
  contextLines : Nat
  maxFileBytes : Nat

/-- What a call of `next_source` meets: reads that are interrupted, and then one that fails or
returns bytes. -/
structure SourceRead where
  interruptions : Nat
  outcome : Option (List UInt8)

structure EditSurroundings where
  opened : FileIdentity
  scanned : List SourceRead
  kernel : List SourceReply
  reads : List SourceReply
  scannedAgain : List SourceRead
  publication : Surroundings

variable {α : Type}

/-! ## The source -/

def openReplacement (opened : FileIdentity) : Work Unit := do
  checkCancelled
  systemCall "open editable file"
  checkedRegular opened
  systemCall "open editable file directory"

/-- A check before each try to read. -/
def attempts : Nat → Work Unit
  | 0 => checkCancelled
  | n + 1 => do
    checkCancelled
    attempts n

/-- `next_source`. -/
def nextSource (read : SourceRead) : Work (List UInt8) := do
  checkCancelled
  attempts read.interruptions
  match read.outcome with
  | none => Prog.raise (.system "read editable file")
  | some data => do
    changeStaged fun s =>
      { s with sourceBytes := s.sourceBytes + (data.take streamBufferBytes).length }
    pure (data.take streamBufferBytes)

/-- `restart_source`. -/
def restartSource : Work Unit := do
  systemCall "rewind editable file"
  changeStaged fun s => { s with sourceBytes := 0 }

/-! ## The scan -/

def scanBytes (env : EditSurroundings) : List UInt8 → Nat → StreamingMatcher → CandidateWriter →
    Work (StreamingMatcher × CandidateWriter)
  | [], _, matcher, writer => pure (matcher, writer)
  | byte :: rest, offset, matcher, writer => do
    let writer ← writer.performAll env.kernel env.reads (matcher.step byte offset).2
    scanBytes env rest (offset + 1) (matcher.step byte offset).1 writer

/-- The loop over the chunks; after what is listed here, the file has ended. -/
def scan (env : EditSurroundings) (maxFileBytes : Nat) : List SourceRead → Nat →
    StreamingMatcher → CandidateWriter → Work (StreamingMatcher × CandidateWriter)
  | [], _, matcher, writer => do
    let _ ← nextSource { interruptions := 0, outcome := some [] }
    pure (matcher, writer)
  | read :: rest, offset, matcher, writer => do
    let chunk ← nextSource read
    if chunk.length = 0 then pure (matcher, writer)
    else do
      let w ← get
      if maxFileBytes < w.staged.sourceBytes then
        Prog.raise (.lengthError "file exceeds the configured byte limit")
      else do
        let (matcher, writer) ← scanBytes env chunk offset matcher writer
        scan env maxFileBytes rest (offset + chunk.length) matcher writer

/-- The second pass of an edit that changes nothing. -/
def scanAgain : List SourceRead → Work Unit
  | [] => do
    let _ ← nextSource { interruptions := 0, outcome := some [] }
    pure ()
  | read :: rest => do
    let chunk ← nextSource read
    if chunk.length = 0 then pure ()
    else do
      let w ← get
      observe (w.staged.sourceBytes - chunk.length) chunk
      scanAgain rest

/-! ## The edit -/

def scanResult (matcher : StreamingMatcher) (sourceBytes : Nat) : EditResult α where
  status := .notFound
  matchesAtLeast := if matcher.found = true then (if matcher.ambiguous = true then 2 else 1) else 0
  secondMatchByte := none
  matchByte := matcher.matchByte
  beforeBytes := sourceBytes
  afterBytes := sourceBytes
  previews := none
  persistenceError := false

/-- The end of an edit that found its match: what the observer was given becomes previews. -/
def withPreviews (capture : List (Nat × List UInt8) → Except Fault α) (result : EditResult α) :
    Work (EditResult α) := do
  let w ← get
  let previews ← Prog.check (capture w.observed)
  pure { result with previews := some previews }

/-- What `str_replace_file` catches of the publication: the status, or none for what it lets
through. -/
def caughtStatus : Fault → Option EditStatus
  | .conflict _ => some .conflict
  | .publishedUnsynced => some .publishedSyncFailed
  | _ => none

def publishChanged (env : EditSurroundings) (matcher : StreamingMatcher)
    (writer : CandidateWriter) : Work EditStatus :=
  Prog.handle
    (do
      let _ ← writer.flush
      publish env.publication matcher.matchByte matcher.span
      pure .modified)
    fun fault =>
      match caughtStatus fault with
      | some status => pure status
      | none => Prog.raise fault

def finishChanged (env : EditSurroundings)
    (capture : List (Nat × List UInt8) → Except Fault α) (matcher : StreamingMatcher)
    (writer : CandidateWriter) (result : EditResult α) : Work (EditResult α) := do
  let status ← publishChanged env matcher writer
  if status = .conflict then pure { result with status := .conflict }
  else
    withPreviews capture { result with
      status := status
      persistenceError := status = .publishedSyncFailed }

/-- After the scan: the same text. -/
def finishUnchanged (env : EditSurroundings)
    (capture : List (Nat × List UInt8) → Except Fault α) (result : EditResult α) :
    Work (EditResult α) := do
  restartSource
  scanAgain env.scannedAgain
  let w ← get
  if w.staged.sourceBytes ≠ result.beforeBytes then pure { result with status := .conflict }
  else do
    let result ← withPreviews capture { result with status := .unchanged }
    discard
    pure result

/-- After the scan: one match. -/
def finishFound (env : EditSurroundings) (request : EditRequest)
    (capture : List (Nat × List UInt8) → Except Fault α) (matcher : StreamingMatcher)
    (writer : CandidateWriter) (sourceBytes : Nat) : Work (EditResult α) :=
  if matcher.span.length ≠ request.oldText.length then
    Prog.raise (.logicError "streaming matcher lost the matched span")
  else if sourceBytes < matcher.span.length then
    Prog.raise (.logicError "matched span exceeds the scanned source")
  else if request.maxFileBytes < sourceBytes - matcher.span.length ∨
      request.maxFileBytes - (sourceBytes - matcher.span.length) < request.newText.length then
    Prog.raise (.lengthError "edited text exceeds the configured byte limit")
  else if request.oldText ≠ request.newText then
    finishChanged env capture matcher writer
      { scanResult matcher sourceBytes with
        afterBytes := sourceBytes - matcher.span.length + request.newText.length }
  else
    finishUnchanged env capture
      { scanResult matcher sourceBytes with
        afterBytes := sourceBytes - matcher.span.length + request.newText.length }

def startMatcher (request : EditRequest) : StreamingMatcher :=
  .new request.oldText request.newText

def startWriter (request : EditRequest) : CandidateWriter where
  limit := request.maxFileBytes
  written := 0
  buffer := []
  enabled := request.oldText ≠ request.newText

/-- What is done with the replacement object. -/
def editOpened (env : EditSurroundings) (request : EditRequest)
    (capture : List (Nat × List UInt8) → Except Fault α) : Work (EditResult α) := do
  let (matcher, writer) ←
    scan env request.maxFileBytes env.scanned 0 (startMatcher request) (startWriter request)
  let w ← get
  if matcher.ambiguous = true then do
    discard
    pure { scanResult matcher w.staged.sourceBytes with
      status := .ambiguous
      secondMatchByte := some matcher.secondMatchByte }
  else if matcher.found = false then do
    discard
    pure (scanResult matcher w.staged.sourceBytes)
  else finishFound env request capture matcher writer w.staged.sourceBytes

/-- The destructor of the replacement object runs, however its scope is left. -/
def withReplacement (body : Work (EditResult α)) : Work (EditResult α) := do
  let result ← Prog.handle body fun fault => do
    discard
    Prog.raise fault
  discard
  pure result

/-- `str_replace_file`. -/
def strReplaceFile (env : EditSurroundings) (request : EditRequest)
    (capture : List (Nat × List UInt8) → Except Fault α) : Work (EditResult α) :=
  if request.oldText.length = 0 then
    Prog.raise (.invalidArgument "old_text must not be empty")
  else if maxContextLines < request.contextLines then
    Prog.raise (.invalidArgument "context_lines must not exceed 20")
  else if request.maxFileBytes = sizeMax then
    Prog.raise (.invalidArgument "file byte limit must leave room for one lookahead byte")
  else if request.maxFileBytes < request.newText.length then
    Prog.raise (.lengthError "edited text exceeds the configured byte limit")
  else do
    openReplacement env.opened
    withReplacement (editOpened env request capture)

def Workspace.start (stops : List Bool) (replies : List Reply) (env : EditSurroundings) :
    Workspace where
  stops := stops
  replies := replies
  observed := []
  staged := {
    identity := env.opened
    sourceBytes := 0
    candidateBytes := 0
    candidate := false
    consumed := false
    temporary := none
    published := none }

end SimplexAgent.Textedit
