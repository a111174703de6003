import SimplexAgent.Persistence.SqliteSnapshot

/-!
# The SQLite session store

`SqliteStore` from `persistence/sqlite_store.cpp`: checkpoints, compact archives and
their settlement over the tables of one session database.

The durable part is the file: absent, or the snapshot tables with the `archives`
table beside them. The object in memory holds the latch for an uncertain commit,
whether it has reconciled abandoned attempts, and its reservations; a restart
starts a new object on the same file.

Every mutation runs in one transaction. What can go wrong outside the tables is a
`Fault` of the call: a failure before the commit, which rolls everything back, or a
commit whose outcome is not known and which may or may not have been applied. The
foreign key of an archive on its snapshot is a constraint that the database
enforces, so deleting a referenced snapshot is refused.
-/

namespace SimplexAgent.Persistence

open Dataclass Verified.Tables

/-! ## Contracts of the store interface -/

inductive Backend where
  | json
  | sqlite
  deriving DecidableEq

inductive ArchiveKind where
  | jsonState
  | sqliteSnapshot
  | legacyReadable
  deriving DecidableEq

inductive CommitStatus where
  | notCommitted
  | committed
  | unknown
  deriving DecidableEq

inductive Boundary where
  | beforeTools
  | resultsReady
  | stepFinished
  | runFinished
  | cancelled
  | shutdown
  | compaction
  deriving DecidableEq

structure ArchiveRef where
  sessionId : String
  archiveId : String
  backend : Backend := .json
  kind : ArchiveKind := .legacyReadable
  payload : String := ""
  deriving DecidableEq

structure CompactAttempt where
  runId : String
  automatic : Bool := false
  callId : String := ""
  deriving DecidableEq

/-- How an attempt ended without a committed replacement. -/
inductive ArchiveOutcome where
  | failed
  | cancelled
  | interrupted
  deriving DecidableEq

structure ArchivePruneRequest where
  current : ArchiveRef
  referenced : List ArchiveRef := []
  maxArchives : Nat := 5

structure CommitReceipt where
  status : CommitStatus := .notCommitted
  operationId : String := ""
  revision : Option Nat := none
  deriving DecidableEq

structure StoredState where
  state : AgentInputState
  revision : Nat
  operationId : String

/-- A `StoreError`, or an exception for a caller's mistake. -/
inductive StoreFailure where
  | storeError (message : String) (status : CommitStatus) (operationId : String)
  | invalidArgument (what : String)

/-! ## Tables -/

/-- The `outcome` column of an archive. -/
inductive AttemptOutcome where
  | prepared
  | succeeded
  | failed
  | cancelled
  | interrupted
  deriving DecidableEq

structure ArchiveRow where
  archiveId : String
  sessionId : String
  archiveKind : String
  sequence : Int
  storageKind : String
  originalSnapshotId : Option Int
  mode : String
  runId : String
  callId : Option String
  outcome : AttemptOutcome
  createdAt : String
  replacementRevision : Option Int
  deriving DecidableEq

structure StoreTables where
  database : Database
  archives : List ArchiveRow

structure StoreMemory where
  uncertain : Bool := false
  reconciled : Bool := false
  reservations : List (String × CompactAttempt) := []

structure Store where
  file : Option StoreTables
  memory : StoreMemory := {}

/-- What happens to a call outside the tables. -/
inductive Fault where
  | none
  /-- A failure before the commit: a file, a lock or a statement. -/
  | refused (message : String)
  /-- The commit or the directory sync failed; the commit may have happened. -/
  | uncertain (message : String) (applied : Bool)

structure Call where
  /-- The random identity of the operation. -/
  operation : String
  timestamp : String
  fault : Fault := .none

section Store

variable (dump : Json → String) (parse : String → Option Json) (newRowid : List Int → Int)
  (session : String)

/-- What `open_store` creates in a new file. -/
def createStore (timestamp : String) : StoreTables where
  database := { sessions := [⟨session, timestamp, timestamp⟩] }
  archives := []

def currentRow (tables : StoreTables) : Option SnapshotRow :=
  (tables.database.snapshots.filter fun r => r.sessionId = session ∧ r.kind = "current").head?

/-- `current_metadata`: revision and operation of the current snapshot. -/
def currentMetadata (tables : StoreTables) : Except String (Nat × String) :=
  match currentRow session tables with
  | .none => .ok (0, "")
  | some row =>
    if row.revision < 0 then .error "invalid SQLite revision"
    else .ok (row.revision.toNat, row.operationId)

/-- `UPDATE snapshots SET revision, operation_id WHERE snapshot_id`. -/
def setSnapshotMetadata (db : Database) (snapshotId : Int) (revision : Nat)
    (operation : String) : Database :=
  { db with
    snapshots := db.snapshots.map fun r =>
      if r.snapshotId = snapshotId then
        { r with revision := (revision : Int), operationId := operation }
      else r }

def snapshotMessage : SnapshotError → String
  | .unknownSession m | .sessionMismatch m | .snapshotNotFound m | .corruptSnapshot m
  | .constraint m => m

def snapshotResult {α : Type} (r : Except SnapshotError α) : Except String α :=
  r.mapError snapshotMessage

/-- The foreign key of `archives.original_snapshot_id`. -/
def referenced (archives : List ArchiveRow) (snapshotId : Int) : Bool :=
  archives.any fun a => a.originalSnapshotId = some snapshotId

/-- The archived row that replacing the current snapshot would delete. -/
def replacedReference (tables : StoreTables) : Bool :=
  match findCurrent tables.database session with
  | .ok (some snapshotId) => referenced tables.archives snapshotId
  | _ => false

/-- `replace`: a new current state under the next revision. -/
def replace (tables : StoreTables) (state : AgentInputState) (expected : Option Nat)
    (operation : String) : Except String (StoreTables × Nat) := do
  let (previous, _) ← currentMetadata session tables
  if expected.any (fun e => e ≠ previous) then
    throw "stale SQLite checkpoint revision"
  else if previous ≥ 2 ^ 63 - 1 then
    throw "SQLite revision exhausted"
  else if replacedReference session tables then
    throw "FOREIGN KEY constraint failed"
  else
    let (snapshot, db) ←
      snapshotResult (replaceCurrent dump newRowid tables.database session state)
    return ({ tables with database := setSnapshotMetadata db snapshot (previous + 1) operation },
      previous + 1)

/-- `reconcile`: attempts left prepared by others are interrupted. -/
def reconcile (tables : StoreTables) (target : String) : StoreTables :=
  { tables with
    archives := tables.archives.map fun a =>
      if a.outcome = .prepared ∧ a.archiveId ≠ target then { a with outcome := .interrupted }
      else a }

/-- `validate`: the identity of a reference, before any disk access. -/
def validReference (archive : ArchiveRef) : Bool :=
  archive.sessionId = session ∧ archive.backend = .sqlite ∧ archive.kind = .sqliteSnapshot ∧
    archive.archiveId ≠ "" ∧ archive.payload = ""

/-- `require_archive`. -/
def requireArchive (tables : StoreTables) (archive : ArchiveRef) : Except String Unit :=
  if tables.archives.any (fun a => a.archiveId = archive.archiveId ∧ a.sessionId = session ∧
      a.storageKind = "sqlite") then .ok ()
  else .error "SQLite archive does not exist"

/-- `write`: one transaction, with the first writer's reconciliation inside it. -/
def write (store : Store) (call : Call) (action target : String)
    (mutation : StoreTables → Except String (StoreTables × Nat)) :
    Except StoreFailure CommitReceipt × Store :=
  if store.memory.uncertain then
    (.error (.storeError "reopen SQLite store after an uncertain commit" .unknown ""), store)
  else
    let notCommitted := fun message =>
      (Except.error (StoreFailure.storeError
        ("SQLite " ++ action ++ " " ++ call.operation ++ " (not_committed): " ++ message)
        .notCommitted call.operation), store)
    let opened := store.file.getD (createStore session call.timestamp)
    let tables := if store.memory.reconciled then opened else reconcile opened target
    match call.fault with
    | .refused message => notCommitted message
    | .none =>
      match mutation tables with
      | .error message => notCommitted message
      | .ok (changed, revision) =>
        (.ok { status := .committed, operationId := call.operation, revision := revision },
          { file := some changed, memory := { store.memory with reconciled := true } })
    | .uncertain message applied =>
      match mutation tables with
      | .error message => notCommitted message
      | .ok (changed, _) =>
        (.error (.storeError
            ("SQLite " ++ action ++ " " ++ call.operation ++ " (unknown): " ++ message)
            .unknown call.operation),
          { file := some (if applied then changed else opened)
            memory := { store.memory with uncertain := true } })

/-- `checkpoint`. -/
def checkpoint (store : Store) (call : Call) (state : AgentInputState) (_ : Boundary)
    (expected : Option Nat) : Except StoreFailure CommitReceipt × Store :=
  if state.metaInfo.sessionId ≠ session then
    (.error (.storeError "SQLite checkpoint session mismatch" .notCommitted ""), store)
  else
    write session store call "checkpoint" "" fun tables =>
      replace dump newRowid session tables state expected call.operation

/-- `reserve_archive`: an identity that the generator returned, and no I/O. -/
def reserveArchive (store : Store) (attempt : CompactAttempt) (id : String) :
    Except StoreFailure ArchiveRef × Store :=
  if attempt.runId = "" then
    (.error (.invalidArgument "compact requires a run identity"), store)
  else
    (.ok { sessionId := session, archiveId := id, backend := .sqlite, kind := .sqliteSnapshot },
      { store with memory := { store.memory with
          reservations := store.memory.reservations ++ [(id, attempt)] } })

/-- `COALESCE(MAX(sequence), 0)`. -/
def lastSequence (archives : List ArchiveRow) : Int :=
  (archives.map ArchiveRow.sequence).foldr max 0

def archiveRow (archive : ArchiveRef) (attempt : CompactAttempt) (sequence snapshot : Int)
    (timestamp : String) : ArchiveRow where
  archiveId := archive.archiveId
  sessionId := session
  archiveKind := "snapshot"
  sequence := sequence
  storageKind := "sqlite"
  originalSnapshotId := some snapshot
  mode := if attempt.automatic then "automatic" else "manual"
  runId := attempt.runId
  callId := if attempt.callId = "" then none else some attempt.callId
  outcome := .prepared
  createdAt := timestamp
  replacementRevision := none

/-- The transaction of `begin_archive`: the original state, twice, and its attempt. -/
def prepareArchive (tables : StoreTables) (archive : ArchiveRef) (attempt : CompactAttempt)
    (original : AgentInputState) (expected : Option Nat) (call : Call) :
    Except String (StoreTables × Nat) := do
  let (tables, revision) ←
    replace dump newRowid session tables original expected call.operation
  let (snapshot, db) ←
    snapshotResult (encodeSnapshot dump newRowid tables.database session original .archive)
  let db := setSnapshotMetadata db snapshot revision call.operation
  if lastSequence tables.archives = 2 ^ 63 - 1 then
    throw "SQLite archive sequence exhausted"
  else if tables.archives.any (fun a => a.archiveId = archive.archiveId) then
    throw "UNIQUE constraint failed: archives.archive_id"
  else
    return ({ database := db
              archives := tables.archives ++ [archiveRow session archive attempt
                (lastSequence tables.archives + 1) snapshot call.timestamp] }, revision)

/-- `begin_archive`: the reservation is consumed even when the write fails. -/
def beginArchive (store : Store) (call : Call) (archive : ArchiveRef)
    (original : AgentInputState) (expected : Option Nat) :
    Except StoreFailure CommitReceipt × Store :=
  if ¬validReference session archive then
    (.error (.invalidArgument "foreign SQLite archive reference"), store)
  else if original.metaInfo.sessionId ≠ session then
    (.error (.storeError "SQLite archive session mismatch" .notCommitted ""), store)
  else
    match store.memory.reservations.lookup archive.archiveId with
    | none => (.error (.invalidArgument "SQLite archive was not reserved by this store"), store)
    | some attempt =>
      let store := { store with memory := { store.memory with
        reservations := store.memory.reservations.filter fun r => r.1 ≠ archive.archiveId } }
      write session store call "archive preparation" "" fun tables =>
        prepareArchive dump newRowid session tables archive attempt original expected call

def originalRow (tables : StoreTables) (a : ArchiveRow) : Option SnapshotRow :=
  tables.database.snapshots.find? fun s =>
    some s.snapshotId = a.originalSnapshotId ∧ s.sessionId = session ∧ s.kind = "archive"

def preparedRevision (tables : StoreTables) (archiveId : String) : Option Nat :=
  (tables.archives.find? fun a => a.archiveId = archiveId ∧ a.sessionId = session ∧
    a.outcome = .prepared ∧ a.storageKind = "sqlite").bind fun a =>
      (originalRow session tables a).map fun s => s.revision.toNat

/-- The transaction of `commit_compaction`. -/
def settleCompaction (tables : StoreTables) (archive : ArchiveRef)
    (replacement : AgentInputState) (expected : Option Nat) (operation : String) :
    Except String (StoreTables × Nat) :=
  match preparedRevision session tables archive.archiveId with
  | none => .error "SQLite compact attempt is not prepared"
  | some base =>
    if expected.any (fun e => e ≠ base) then .error "stale SQLite compact revision"
    else do
      let (tables, revision) ←
        replace dump newRowid session tables replacement (some base) operation
      return ({ tables with
        archives := tables.archives.map fun a =>
          if a.archiveId = archive.archiveId then
            { a with outcome := .succeeded, replacementRevision := some (revision : Int) }
          else a }, revision)

/-- `commit_compaction`. -/
def commitCompaction (store : Store) (call : Call) (archive : ArchiveRef)
    (replacement : AgentInputState) (expected : Option Nat) :
    Except StoreFailure CommitReceipt × Store :=
  if ¬validReference session archive then
    (.error (.invalidArgument "foreign SQLite archive reference"), store)
  else
    write session store call "compaction" archive.archiveId fun tables =>
      settleCompaction dump newRowid session tables archive replacement expected call.operation

def ArchiveOutcome.attempt : ArchiveOutcome → AttemptOutcome
  | .failed => .failed
  | .cancelled => .cancelled
  | .interrupted => .interrupted

/-- The transaction of `finish_archive_attempt`: only a prepared attempt is settled. -/
def settleAttempt (tables : StoreTables) (archive : ArchiveRef) (outcome : ArchiveOutcome) :
    Except String (StoreTables × Nat) := do
  requireArchive session tables archive
  let tables := { tables with
    archives := tables.archives.map fun a =>
      if a.archiveId = archive.archiveId ∧ a.outcome = .prepared then
        { a with outcome := outcome.attempt }
      else a }
  let (revision, _) ← currentMetadata session tables
  return (tables, revision)

/-- `finish_archive_attempt`. -/
def finishArchiveAttempt (store : Store) (call : Call) (archive : ArchiveRef)
    (outcome : ArchiveOutcome) : Except StoreFailure CommitReceipt × Store :=
  if ¬validReference session archive then
    (.error (.invalidArgument "foreign SQLite archive reference"), store)
  else
    write session store call "archive settlement" archive.archiveId fun tables =>
      settleAttempt session tables archive outcome

/-- `release_archive`. -/
def releaseArchive (store : Store) (archive : ArchiveRef) : Store :=
  { store with memory := { store.memory with
      reservations := store.memory.reservations.filter fun r => r.1 ≠ archive.archiveId } }

/-- A row of the retention query. -/
structure Candidate where
  id : String
  snapshot : Int
  protectedArchive : Bool

/-- Unresolved attempts and recent evidence are protected. -/
def candidates (tables : StoreTables) (protectedIds : List String) (authoritative : Nat) :
    List Candidate :=
  (orderBy (fun a : ArchiveRow => a.sequence.toNat)
    (tables.archives.filter fun a =>
      a.sessionId = session ∧ a.storageKind = "sqlite")).reverse.filterMap
    fun a =>
      (originalRow session tables a).map fun s =>
        { id := a.archiveId
          snapshot := s.snapshotId
          protectedArchive := protectedIds.contains a.archiveId || a.outcome == .prepared ||
            (a.outcome == .interrupted && decide (s.revision.toNat ≥ authoritative)) }

def deleteArchive (tables : StoreTables) (c : Candidate) : Except String StoreTables :=
  let archives := tables.archives.filter fun a => a.archiveId ≠ c.id
  if referenced archives c.snapshot then .error "FOREIGN KEY constraint failed"
  else .ok { database := deleteSnapshot tables.database c.snapshot, archives }

/-- The deletion loop of `prune_archives`. -/
def pruneCandidates (maxArchives : Nat) :
    List Candidate → Nat → StoreTables → Except String StoreTables
  | [], _, tables => .ok tables
  | c :: rest, kept, tables =>
    if c.protectedArchive then pruneCandidates maxArchives rest kept tables
    else if kept < maxArchives then pruneCandidates maxArchives rest (kept + 1) tables
    else do
      let tables ← deleteArchive tables c
      pruneCandidates maxArchives rest kept tables

/-- The transaction of `prune_archives`. -/
def pruneTables (tables : StoreTables) (request : ArchivePruneRequest) :
    Except String (StoreTables × Nat) := do
  requireArchive session tables request.current
  let (authoritative, _) ← currentMetadata session tables
  if request.maxArchives = 0 then
    return (tables, authoritative)
  else
    let found := candidates session tables
      (request.current.archiveId :: request.referenced.map ArchiveRef.archiveId) authoritative
    let kept := (found.filter Candidate.protectedArchive).length
    let tables ← pruneCandidates request.maxArchives found kept tables
    let (revision, _) ← currentMetadata session tables
    return (tables, revision)

/-- `prune_archives`. -/
def pruneArchives (store : Store) (call : Call) (request : ArchivePruneRequest) :
    Except StoreFailure CommitReceipt × Store :=
  if ¬validReference session request.current ∨
      request.referenced.any (fun r => !validReference session r) then
    (.error (.invalidArgument "foreign SQLite archive reference"), store)
  else
    write session store call "archive retention" request.current.archiveId fun tables =>
      pruneTables session tables request

/-- `load_current`: read-only. -/
def loadStore (store : Store) (call : Call) : Except StoreFailure (Option StoredState) :=
  let refused := fun message =>
    Except.error (StoreFailure.storeError message .notCommitted "")
  match call.fault, store.file with
  | .refused message, _ | .uncertain message _, _ => refused message
  | .none, .none => .ok .none
  | .none, some tables =>
    match loadCurrent parse tables.database session with
    | .error e => refused (snapshotMessage e)
    | .ok .none => .ok .none
    | .ok (some state) =>
      match currentMetadata session tables with
      | .error message => refused message
      | .ok (revision, operationId) => .ok (some { state, revision, operationId })

/-- A new object on the same file. -/
def restart (store : Store) : Store := { store with memory := {} }

/-! ## Operations -/

inductive Operation where
  | checkpoint (call : Call) (state : AgentInputState) (boundary : Boundary)
      (expected : Option Nat)
  | reserve (attempt : CompactAttempt) (id : String)
  | beginArchive (call : Call) (archive : ArchiveRef) (original : AgentInputState)
      (expected : Option Nat)
  | commitCompaction (call : Call) (archive : ArchiveRef) (replacement : AgentInputState)
      (expected : Option Nat)
  | finishArchiveAttempt (call : Call) (archive : ArchiveRef) (outcome : ArchiveOutcome)
  | release (archive : ArchiveRef)
  | prune (call : Call) (request : ArchivePruneRequest)
  | load (call : Call)
  | restart

inductive Response where
  | receipt (outcome : Except StoreFailure CommitReceipt)
  | reference (outcome : Except StoreFailure ArchiveRef)
  | loaded (outcome : Except StoreFailure (Option StoredState))
  | done

def step (store : Store) : Operation → Response × Store
  | .checkpoint call state boundary expected =>
    let (outcome, store) := checkpoint dump newRowid session store call state boundary expected
    (.receipt outcome, store)
  | .reserve attempt id =>
    let (outcome, store) := reserveArchive session store attempt id
    (.reference outcome, store)
  | .beginArchive call archive original expected =>
    let (outcome, store) := beginArchive dump newRowid session store call archive original expected
    (.receipt outcome, store)
  | .commitCompaction call archive replacement expected =>
    let (outcome, store) :=
      commitCompaction dump newRowid session store call archive replacement expected
    (.receipt outcome, store)
  | .finishArchiveAttempt call archive outcome =>
    let (outcome, store) := finishArchiveAttempt session store call archive outcome
    (.receipt outcome, store)
  | .release archive => (.done, releaseArchive store archive)
  | .prune call request =>
    let (outcome, store) := pruneArchives session store call request
    (.receipt outcome, store)
  | .load call => (.loaded (loadStore parse session store call), store)
  | .restart => (.done, restart store)

def runOperations (store : Store) (ops : List Operation) : Store :=
  ops.foldl (fun store op => (step dump parse newRowid session store op).2) store

end Store

end SimplexAgent.Persistence
