import SimplexAgent.Verified.Interruptible

/-!
# One streaming replacement of a file

`fileio/staged_replace.cpp`: the content of an existing file is replaced by that of a private
candidate, which is written while the file is scanned. The prefix before the change is copied
from the file once its length is known, and before the candidate takes the place of the file
both are read again and compared everywhere but in the changed region.

Other programs may change the file between any two calls. So what a read of the file returns
while it is scanned or copied is an input; only the file that is opened for the comparison has
one content. How many bytes a call transfers, whether it is interrupted or fails, and whether
a stop is requested at a check are inputs, too: two lists of answers, which are used up in
order. When they are used up, calls succeed in full and no stop is requested.
-/

namespace SimplexAgent.Fileio

open Verified.Interruptible

/-- What leaves an operation as an exception. -/
inductive Fault where
  /-- `operation_canceled`. -/
  | cancelled
  /-- `ReplaceConflict`. -/
  | conflict (reason : String)
  /-- `system_error`, by the operation that failed. -/
  | system (operation : String)
  | invalidArgument (what : String)
  | lengthError (what : String)
  | logicError (what : String)
  /-- `AtomicWriteError`: the directory could not be synced after the rename. -/
  | publishedUnsynced
  deriving DecidableEq

/-- What `fstat` tells of a file, and `FileIdentity`, which keeps all of it. -/
structure FileIdentity where
  device : Nat
  inode : Nat
  size : Nat
  mode : Nat
  owner : Nat
  group : Nat
  links : Nat
  modifiedSeconds : Int
  changedSeconds : Int
  modifiedNanoseconds : Nat
  changedNanoseconds : Nat
  deriving DecidableEq

/-- A file that was opened and does not change, with what `fstat` says of it. -/
structure OpenedFile where
  info : FileIdentity
  content : List UInt8
  size_eq : info.size = content.length

/-- The answer to a system call. -/
inductive Reply where
  | interrupted
  | failed
  /-- It goes through, and transfers this many bytes and one more, if so many are asked for. -/
  | transfers (more : Nat)

/-- The answer to a read of a file that other programs may be changing. -/
inductive SourceReply where
  | interrupted
  | failed
  | bytes (data : List UInt8)

/-- The object, and the two files it is about: the candidate as long as its name exists, and
the content that was renamed over the destination. -/
structure StagedReplacement where
  identity : FileIdentity
  sourceBytes : Nat
  candidateBytes : Nat
  /-- The descriptor of the candidate is open. -/
  candidate : Bool
  consumed : Bool
  temporary : Option (List UInt8)
  published : Option (List UInt8)

/-- The state of an operation: the answers to come, and what the observer was given. -/
structure Workspace where
  stops : List Bool
  replies : List Reply
  staged : StagedReplacement
  observed : List (Nat × List UInt8)

abbrev Work := Prog Workspace Fault

/-- What the calls of `publish` find. -/
structure Surroundings where
  /-- `fstat` of the candidate and of the source descriptor. -/
  created : FileIdentity
  source : FileIdentity
  /-- What the path of the destination opens for the comparison. -/
  reopened : Option OpenedFile
  /-- `fstat` of it after the comparison. -/
  compared : FileIdentity
  /-- `fstat` of the source descriptor and `lstat` of the path before the rename. -/
  original : FileIdentity
  current : Option FileIdentity

/-- `kCompareChunk`. -/
def compareChunk : Nat := 64 * 1024

/-! ## Calls -/

def changeStaged (f : StagedReplacement → StagedReplacement) : Work Unit :=
  modify fun w => { w with staged := f w.staged }

/-- `check_cancelled`. -/
def checkCancelled : Work Unit :=
  Prog.call fun w => match w.stops with
    | true :: rest => (.error .cancelled, { w with stops := rest })
    | false :: rest => (.ok (), { w with stops := rest })
    | [] => (.ok (), w)

def systemCall (operation : String) : Work Unit :=
  Prog.call fun w => match w.replies with
    | .failed :: rest => (.error (.system operation), { w with replies := rest })
    | _ :: rest => (.ok (), { w with replies := rest })
    | [] => (.ok (), w)

/-- The loop of `read_some`: how many bytes it gets of a file with so many left. -/
def readLoop : List Reply → Nat → Nat → Except Fault Nat × List Reply
  | replies, _, 0 => (.ok 0, replies)
  | [], available, want + 1 => (.ok (min available (want + 1)), [])
  | .interrupted :: rest, available, want + 1 => readLoop rest available (want + 1)
  | .failed :: rest, _, _ + 1 => (.error (.system "read replacement file"), rest)
  | .transfers more :: rest, available, want + 1 =>
    let received := min (min (more + 1) (want + 1)) available
    if received = 0 then (.ok 0, rest)
    else
      match readLoop rest (available - received) (want + 1 - received) with
      | (.ok count, rest) => (.ok (received + count), rest)
      | (.error fault, rest) => (.error fault, rest)

/-- `read_some` on a file with these bytes left. -/
def readSome (left : List UInt8) (count : Nat) : Work (List UInt8) :=
  Prog.call fun w =>
    let result := readLoop w.replies left.length count
    (result.1.map left.take, { w with replies := result.2 })

/-- The loop of `write_all`: how many bytes go out, and whether all do. -/
def writeLoop : List Reply → Nat → Nat × Bool × List Reply
  | replies, 0 => (0, true, replies)
  | [], left + 1 => (left + 1, true, [])
  | .interrupted :: rest, left + 1 => writeLoop rest (left + 1)
  | .failed :: rest, _ + 1 => (0, false, rest)
  | .transfers more :: rest, left + 1 =>
    let count := min (more + 1) (left + 1)
    let result := writeLoop rest (left + 1 - count)
    (count + result.1, result.2)

/-- `write_all` to the candidate. -/
def writeAll (bytes : List UInt8) : Work Unit :=
  Prog.call fun w =>
    let result := writeLoop w.replies bytes.length
    (if result.2.1 then .ok () else .error (.system "write replacement file"),
      { w with
        replies := result.2.2
        staged := { w.staged with
          temporary := w.staged.temporary.map (· ++ bytes.take result.1) } })

def observe (offset : Nat) (bytes : List UInt8) : Work Unit :=
  Prog.call fun w =>
    let seen := { w with observed := w.observed ++ [(offset, bytes)] }
    match w.replies with
    | .failed :: rest => (.error (.logicError "observer"), { seen with replies := rest })
    | _ :: rest => (.ok (), { seen with replies := rest })
    | [] => (.ok (), seen)

/-! ## Comparisons -/

/-- `compare_exact`: the next bytes of both files are the same. What is left of both. -/
def compareExact (remaining : Nat) (left right : List UInt8) (offset : Nat) :
    Work (List UInt8 × List UInt8) :=
  if remaining = 0 then pure (left, right)
  else do
    checkCancelled
    let first ← readSome left (min compareChunk remaining)
    let second ← readSome right (min compareChunk remaining)
    if first.length ≠ second.length then
      Prog.raise (.conflict "file changed before replacement")
    else if _hFirst : first.length = 0 then
      Prog.raise (.conflict "file changed before replacement")
    else if first ≠ second then
      Prog.raise (.conflict "file contents changed before replacement")
    else do
      observe offset first
      compareExact (remaining - first.length) (left.drop first.length) (right.drop first.length)
        (offset + first.length)
termination_by remaining

/-- `compare_expected`: the next bytes of the file are these. -/
def compareExpected (expected left : List UInt8) : Work (List UInt8) :=
  if expected.length = 0 then pure left
  else do
    checkCancelled
    let chunk ← readSome left (min compareChunk expected.length)
    if _hChunk : chunk.length = 0 then
      Prog.raise (.conflict "matched region changed before replacement")
    else if chunk ≠ expected.take chunk.length then
      Prog.raise (.conflict "matched region changed before replacement")
    else
      compareExpected (expected.drop chunk.length) (left.drop chunk.length)
termination_by expected.length
decreasing_by
  simp only [List.length_drop]
  omega

/-- `compare_to_end`: both files go on with the same bytes and end together. A file with
nothing left gives nothing, which is said here only because the recursion ends by it. -/
def compareToEnd (left right : List UInt8) (offset : Nat) : Work Unit := do
  checkCancelled
  let first ← readSome left compareChunk
  let second ← readSome right compareChunk
  if first.length ≠ second.length then
    Prog.raise (.conflict "file length changed before replacement")
  else if _hFirst : first.length = 0 ∨ left.length = 0 then pure ()
  else if first ≠ second then
    Prog.raise (.conflict "file contents changed before replacement")
  else do
    observe offset first
    compareToEnd (left.drop first.length) (right.drop first.length) (offset + first.length)
termination_by left.length
decreasing_by
  rw [not_or] at _hFirst
  simp only [List.length_drop]
  omega

/-- `skip_bytes`. -/
def skipBytes (remaining : Nat) (left : List UInt8) : Work (List UInt8) :=
  if remaining = 0 then pure left
  else do
    checkCancelled
    let chunk ← readSome left (min compareChunk remaining)
    if _hChunk : chunk.length = 0 then
      Prog.raise (.conflict "replacement region is missing")
    else
      skipBytes (remaining - chunk.length) (left.drop chunk.length)
termination_by remaining

/-! ## The candidate -/

/-- `ensure_candidate`. -/
def ensureCandidate : Work Unit := do
  let w ← get
  if w.staged.candidate = true then pure ()
  else do
    systemCall "create replacement file"
    changeStaged fun s => { s with candidate := true, temporary := some [] }

def copyKernel (bytes copied : Nat) : List SourceReply → Work Nat
  | [] => if copied < bytes then do checkCancelled; pure copied else pure copied
  | reply :: rest =>
    if copied < bytes then do
      checkCancelled
      match reply with
      | .interrupted => copyKernel bytes copied rest
      | .failed => pure copied
      | .bytes data =>
        let data := data.take (min (bytes - copied) compareChunk)
        if data.length = 0 then pure copied
        else do
          changeStaged fun s => { s with temporary := s.temporary.map (· ++ data) }
          copyKernel bytes (copied + data.length) rest
    else pure copied

/-- What the kernel left is read and written; the end of the file is a failure. -/
def copyReads (bytes copied : Nat) : List SourceReply → Work Unit
  | [] =>
    if copied < bytes then do
      checkCancelled
      Prog.raise (.system "copy editable file prefix")
    else pure ()
  | reply :: rest =>
    if copied < bytes then do
      checkCancelled
      match reply with
      | .interrupted => copyReads bytes copied rest
      | .failed => Prog.raise (.system "copy editable file prefix")
      | .bytes data =>
        let data := data.take (min compareChunk (bytes - copied))
        if data.length = 0 then Prog.raise (.system "copy editable file prefix")
        else do
          writeAll data
          copyReads bytes (copied + data.length) rest
    else pure ()

/-- `copy_prefix`, with what the copies and reads return. -/
def copyPrefix (kernel reads : List SourceReply) (bytes : Nat) : Work Unit := do
  let w ← get
  if w.staged.sourceBytes < bytes then
    Prog.raise (.logicError "prefix copy exceeds the scanned source")
  else if bytes = 0 then pure ()
  else do
    ensureCandidate
    let copied ← copyKernel bytes 0 kernel
    copyReads bytes copied reads
    changeStaged fun s => { s with candidateBytes := s.candidateBytes + bytes }

/-- The loop of `write`. -/
def writeChunks (bytes : List UInt8) : Work Unit :=
  if bytes.length = 0 then pure ()
  else do
    checkCancelled
    writeAll (bytes.take compareChunk)
    changeStaged fun s =>
      { s with candidateBytes := s.candidateBytes + min bytes.length compareChunk }
    writeChunks (bytes.drop compareChunk)
termination_by bytes.length
decreasing_by
  simp only [List.length_drop, compareChunk]
  omega

/-- `write`. -/
def write (bytes : List UInt8) : Work Unit := do
  let w ← get
  if w.staged.consumed = true then Prog.raise (.logicError "replacement candidate is closed")
  else do
    ensureCandidate
    writeChunks bytes

/-- The candidate gets the owner of the source, where it is another one. -/
def preserveOwner (env : Surroundings) : Work Unit := do
  let w ← get
  if env.created.owner ≠ w.staged.identity.owner ∨ env.created.group ≠ w.staged.identity.group then
    systemCall "preserve editable file owner"
  else pure ()

/-- `finish_candidate`. -/
def finishCandidate (env : Surroundings) : Work Unit := do
  ensureCandidate
  systemCall "inspect replacement file"
  let w ← get
  if (w.staged.temporary.getD []).length ≠ w.staged.candidateBytes then
    Prog.raise (.system "replacement file does not match the written byte count")
  else do
    preserveOwner env
    systemCall "preserve editable file permissions"
    checkCancelled
    systemCall "sync replacement file"
    changeStaged fun s => { s with candidate := false }
    systemCall "close replacement file"

/-! ## Publication -/

def isRegular (info : FileIdentity) : Bool := info.mode / 4096 % 16 = 8

/-- `checked_regular`: a regular file with one name and no special mode bits. -/
def checkedRegular (info : FileIdentity) : Work Unit := do
  systemCall "inspect editable file"
  if isRegular info = false ∨ info.links ≠ 1 ∨ info.mode / 512 % 8 ≠ 0 then
    Prog.raise (.system
      "editing requires a single-link regular file without special mode bits")
  else pure ()

/-- `same_file`. -/
def sameFile (left right : FileIdentity) : Bool :=
  isRegular right = true ∧ right.links = 1 ∧ left.device = right.device ∧
    left.inode = right.inode ∧ left.size = right.size ∧ left.mode = right.mode ∧
    left.owner = right.owner ∧ left.group = right.group ∧
    left.modifiedSeconds = right.modifiedSeconds ∧
    left.modifiedNanoseconds = right.modifiedNanoseconds ∧
    left.changedSeconds = right.changedSeconds ∧
    left.changedNanoseconds = right.changedNanoseconds

/-- `confirm_source_unchanged`. -/
def confirmSourceUnchanged (current : FileIdentity) : Work Unit := do
  systemCall "inspect editable file"
  let w ← get
  if current ≠ w.staged.identity ∨ current.size ≠ w.staged.sourceBytes then
    Prog.raise (.conflict "file changed during the edit")
  else pure ()

/-- The comparison of `verify_against_source`, with the file it has opened. -/
def compareFiles (env : Surroundings) (file : OpenedFile) (candidate : List UInt8)
    (replaced matchByte : Nat) (matched : List UInt8) : Work Unit := do
  let (left, right) ← compareExact matchByte file.content candidate 0
  let right ← skipBytes replaced right
  let left ← compareExpected matched left
  compareToEnd left right (matchByte + matched.length)
  systemCall "inspect compared file"
  let w ← get
  if env.compared ≠ w.staged.identity then
    Prog.raise (.conflict "file changed during comparison")
  else pure ()

/-- `verify_against_source`. -/
def verifyAgainstSource (env : Surroundings) (matchByte : Nat) (matched : List UInt8) :
    Work Unit := do
  let w ← get
  if w.staged.sourceBytes < matchByte ∨ w.staged.sourceBytes - matchByte < matched.length then
    Prog.raise (.conflict "matched region is outside the scanned source")
  else if w.staged.candidateBytes < w.staged.sourceBytes - matched.length then
    Prog.raise (.conflict "replacement output is shorter than the removed span")
  else
    match env.reopened with
    | none => Prog.raise (.system "open editable file")
    | some file => do
      checkedRegular file.info
      confirmSourceUnchanged file.info
      systemCall "open editable file"
      compareFiles env file (w.staged.temporary.getD [])
        (w.staged.candidateBytes - (w.staged.sourceBytes - matched.length)) matchByte matched

/-- The rename of `publish` and what comes after it. -/
def renameCandidate : Work Unit := do
  systemCall "publish replacement file"
  changeStaged fun s =>
    { s with published := s.temporary, temporary := none, consumed := true }
  Prog.handle (systemCall "sync directory") fun _ => Prog.raise .publishedUnsynced

/-- What `publish` checks after the comparison, and the rename. -/
def publishChecked (env : Surroundings) : Work Unit := do
  systemCall "inspect editable file"
  match env.current with
  | none => Prog.raise (.conflict "file disappeared before replacement")
  | some current => do
    systemCall "inspect file before replacement"
    if sameFile env.original current = false then
      Prog.raise (.conflict "file changed before replacement")
    else do
      checkCancelled
      renameCandidate

/-- `publish`. -/
def publish (env : Surroundings) (matchByte : Nat) (matched : List UInt8) : Work Unit := do
  checkCancelled
  let w ← get
  if w.staged.consumed = true then
    Prog.raise (.logicError "replacement candidate is already consumed")
  else do
    ensureCandidate
    finishCandidate env
    confirmSourceUnchanged env.source
    verifyAgainstSource env matchByte matched
    publishChecked env

/-- `discard`, and the destructor: the name of the candidate is removed. -/
def discard : Work Unit :=
  changeStaged fun s => { s with candidate := false, temporary := none }

end SimplexAgent.Fileio
