import SimplexAgent.Persistence.ArchiveLedger
import SimplexAgent.Persistence.SqliteSnapshotRoundTrip

/-!
# The store follows its ledger

Each transaction of the session store is a write of the ledger read off its tables.
The argument is about two tables only. Replacing the current snapshot touches no row
an archive refers to, because the foreign key would refuse it; a new archive
snapshot has an id of its own; and settlement and reconciliation change nothing but
outcomes. Pruning removes settled attempts and the snapshots that only they used.
-/

namespace SimplexAgent.Persistence

open Dataclass Verified.Tables

/-! ## Snapshot rows through the snapshot operations -/

section Snapshots

variable (dump : Json → String) (newRowid : List Int → Int)

theorem insertInvokeReturns_snapshots (snapshotId stepId : Int) (ms : List MessageItem) :
    ∀ (db : Database) (n : Nat),
      (insertInvokeReturns dump newRowid db snapshotId stepId n ms).snapshots = db.snapshots := by
  induction ms with
  | nil => exact fun _ _ => rfl
  | cons m ms ih =>
    intro db n
    rw [insertInvokeReturns, ih, insertMessage_eq]
    rfl

theorem insertAgentSteps_snapshots (snapshotId turnId : Int) (ss : List AgentLoopStep) :
    ∀ (db : Database) (n : Nat),
      (insertAgentSteps dump newRowid db snapshotId turnId n ss).snapshots = db.snapshots := by
  induction ss with
  | nil => exact fun _ _ => rfl
  | cons s ss ih =>
    intro db n
    rw [insertAgentSteps, ih, insertInvokeReturns_snapshots, insertMessage_eq]
    rfl

theorem insertTurns_snapshots (snapshotId : Int) (us : List UserLoopStep) :
    ∀ (db : Database) (n : Nat),
      (insertTurns dump newRowid db snapshotId n us).snapshots = db.snapshots := by
  induction us with
  | nil => exact fun _ _ => rfl
  | cons u us ih =>
    intro db n
    rw [insertTurns, ih, insertAgentSteps_snapshots, insertMessage_eq]
    rfl

theorem insertGraph_snapshots (db : Database) (snapshotId : Int) (state : AgentInputState) :
    (insertGraph dump newRowid db snapshotId state).snapshots = db.snapshots := by
  unfold insertGraph
  cases state.loop with
  | none =>
    simp only [insertTurns_snapshots, insertTools_eq, insertPromptSections_eq]
  | some p =>
    simp only [insertLoop, insertPending_eq, insertTurns_snapshots, insertTools_eq,
      insertPromptSections_eq]

variable {dump newRowid}
variable {state : AgentInputState} {session : String}

theorem insertSnapshotHeader_rows {db db' : Database} {kind : SnapshotKind}
    {explicitId : Option Int} {id : Int}
    (h : insertSnapshotHeader dump newRowid db session state kind explicitId = .ok (id, db')) :
    ∃ row : SnapshotRow, db'.snapshots = db.snapshots ++ [row] ∧ row.snapshotId = id ∧
      row.sessionId = session ∧ row.kind = kind.name ∧ row.revision = 0 ∧
      id ∉ db.snapshots.map SnapshotRow.snapshotId ∧
      id = explicitId.getD (newRowid (db.snapshots.map SnapshotRow.snapshotId)) := by
  unfold insertSnapshotHeader at h
  dsimp only at h
  split at h
  · cases h
  · rename_i hFresh
    split at h
    · cases h
    · injection h with hEq
      injection hEq with hId hDb
      subst hId hDb
      exact ⟨_, rfl, rfl, rfl, rfl, rfl, hFresh, rfl⟩

theorem encodeSnapshot_rows {db db' : Database} {kind : SnapshotKind} {id : Int}
    (h : encodeSnapshot dump newRowid db session state kind = .ok (id, db')) :
    ∃ row : SnapshotRow, db'.snapshots = db.snapshots ++ [row] ∧ row.snapshotId = id ∧
      row.sessionId = session ∧ row.kind = kind.name ∧
      id ∉ db.snapshots.map SnapshotRow.snapshotId := by
  unfold encodeSnapshot at h
  obtain ⟨_, -, h⟩ := bind_ok h
  obtain ⟨_, -, h⟩ := bind_ok h
  obtain ⟨⟨i, d⟩, hInsert, h⟩ := bind_ok h
  injection h with hEq
  injection hEq with hId hDb
  subst hId hDb
  obtain ⟨row, hRows, hId, hOwner, hKind, -, hFresh, -⟩ := insertSnapshotHeader_rows hInsert
  exact ⟨row, by rw [insertGraph_snapshots, hRows], hId, hOwner, hKind, hFresh⟩

theorem clearCurrent_rows {db : Database} {current : Option Int}
    (hFind : findCurrent db session = .ok current) : (clearCurrent db current).snapshots =
        db.snapshots.filter (fun r => current ≠ some r.snapshotId) ∧
      ((db.snapshots.filter fun r => current ≠ some r.snapshotId).filter fun r =>
        r.sessionId = session ∧ r.kind = "current") = [] := by
  unfold findCurrent at hFind
  split at hFind
  · rename_i hNone
    injection hFind with hEq
    subst hEq
    simp only [clearCurrent, ne_eq, reduceCtorEq, not_false_eq_true, decide_true, List.filter_true]
    exact ⟨trivial, hNone⟩
  · rename_i row hOne
    injection hFind with hEq
    subst hEq
    refine ⟨by simp [clearCurrent, deleteSnapshot, eq_comm], ?_⟩
    rw [List.filter_eq_nil_iff]
    intro r hr hCurrent
    obtain ⟨hMem, hOther⟩ := List.mem_filter.mp hr
    have hRow : r ∈ db.snapshots.filter fun r => r.sessionId = session ∧ r.kind = "current" :=
      List.mem_filter.mpr ⟨hMem, hCurrent⟩
    rw [hOne, List.mem_singleton] at hRow
    rw [hRow] at hOther
    simp at hOther
  · cases hFind

theorem replaceCurrent_rows {db db' : Database} {id : Int}
    (h : replaceCurrent dump newRowid db session state = .ok (id, db')) :
    ∃ (kept : List SnapshotRow) (row : SnapshotRow) (current : Option Int),
      findCurrent db session = .ok current ∧
      kept = db.snapshots.filter (fun r => current ≠ some r.snapshotId) ∧
      db'.snapshots = kept ++ [row] ∧ row.snapshotId = id ∧ row.sessionId = session ∧
      row.kind = "current" ∧ id ∉ kept.map SnapshotRow.snapshotId ∧
      (kept.filter fun r => r.sessionId = session ∧ r.kind = "current") = [] := by
  unfold replaceCurrent at h
  obtain ⟨_, -, h⟩ := bind_ok h
  obtain ⟨_, -, h⟩ := bind_ok h
  obtain ⟨current, hFind, h⟩ := bind_ok h
  obtain ⟨⟨i, d⟩, hInsert, h⟩ := bind_ok h
  injection h with hEq
  injection hEq with hId hDb
  subst hId hDb
  obtain ⟨row, hRows, hId, hOwner, hKind, -, hFresh, -⟩ := insertSnapshotHeader_rows hInsert
  obtain ⟨hKept, hNone⟩ := clearCurrent_rows hFind
  rw [hKept] at hRows hFresh
  refine ⟨_, row, current, hFind, rfl, ?_, hId, hOwner, hKind, hFresh, hNone⟩
  show (insertGraph dump newRowid d i state).snapshots = _
  rw [insertGraph_snapshots, hRows]

end Snapshots

/-! ## The ledger of the tables -/

variable (session : String)

def attemptOf (tables : StoreTables) (a : ArchiveRow) : Attempt where
  outcome := a.outcome
  base := (originalRow session tables a).map fun s => s.revision.toNat

/-- Revision and attempts, read off the tables. -/
def ledger (tables : StoreTables) : Ledger where
  revision := ((currentRow session tables).map fun r => r.revision.toNat).getD 0
  attempt k := (tables.archives.find? fun a => a.archiveId = k).map (attemptOf session tables)

/-- The keys and the foreign key that the schema declares. -/
structure StoreTables.Consistent (tables : StoreTables) : Prop where
  snapshotKeys : (tables.database.snapshots.map SnapshotRow.snapshotId).Nodup
  archiveKeys : (tables.archives.map ArchiveRow.archiveId).Nodup
  originals : ∀ a ∈ tables.archives, ∀ k, a.originalSnapshotId = some k →
    k ∈ tables.database.snapshots.map SnapshotRow.snapshotId

variable {session}
variable {tables tables' : StoreTables} {revision : Nat} {expected : Option Nat}
variable {tables : StoreTables} {operation : String}

theorem currentMetadata_ok (h : currentMetadata session tables = .ok (revision, operation)) :
    revision = (ledger session tables).revision := by
  unfold currentMetadata at h
  simp only [ledger]
  split at h
  · rename_i hNone
    rw [hNone]
    injection h with hEq
    exact (congrArg Prod.fst hEq).symm
  · rename_i row hRow
    rw [hRow]
    split at h
    · cases h
    · injection h with hEq
      exact (congrArg Prod.fst hEq).symm

theorem ledger_attempt_congr {archives : List ArchiveRow} (hArchives : tables.archives = archives)
    (hArchives' : tables'.archives = archives)
    (hRows : ∀ a ∈ archives, (originalRow session tables' a).map (fun s => s.revision.toNat) = (originalRow session tables a).map fun s => s.revision.toNat) :
    (ledger session tables').attempt = (ledger session tables).attempt := by
  funext k
  simp only [ledger, hArchives, hArchives']
  cases hFind : archives.find? fun a => a.archiveId = k with
  | none => rfl
  | some a =>
    simp only [Option.map_some, attemptOf, Option.some.injEq, Attempt.mk.injEq, true_and]
    exact hRows a (List.mem_of_find?_eq_some hFind)

theorem find?_filter_of_imp {α : Type} {p q : α → Bool} {xs : List α}
    (h : ∀ x ∈ xs, q x = true → p x = true) : (xs.filter p).find? q = xs.find? q := by
  induction xs with
  | nil => rfl
  | cons x xs ih =>
    have hRest := ih fun y hy => h y (by simp [hy])
    cases hq : q x with
    | true =>
      have hp := h x (by simp) hq
      simp [hp, hq]
    | false =>
      cases hp : p x with
      | true | false => simp [hp, hq, hRest]

theorem find?_append_of_not {α : Type} {q : α → Bool} {xs : List α} {y : α} (h : q y = false) :
    (xs ++ [y]).find? q = xs.find? q := by
  rw [List.find?_append]
  simp [h]

theorem setSnapshotMetadata_rows {db : Database} {kept : List SnapshotRow} {row : SnapshotRow}
    {id : Int} (hRows : db.snapshots = kept ++ [row]) (hId : row.snapshotId = id)
    (hFresh : id ∉ kept.map SnapshotRow.snapshotId) (revision : Nat) (operation : String) :
    (setSnapshotMetadata db id revision operation).snapshots =
      kept ++ [{ row with revision := (revision : Int), operationId := operation }] := by
  have hKept : kept.map (fun r => if r.snapshotId = id then
      { r with revision := (revision : Int), operationId := operation } else r) = kept := by
    calc kept.map (fun r => if r.snapshotId = id then
          { r with revision := (revision : Int), operationId := operation } else r)
        = kept.map fun r => r := by
          apply List.map_congr_left
          intro r hr
          apply if_neg
          intro hEq
          exact hFresh (hEq ▸ List.mem_map_of_mem hr)
      _ = kept := List.map_id' kept
  simp only [setSnapshotMetadata, hRows, List.map_append, hKept, List.map_cons, List.map_nil,
    if_pos hId]

variable {dump : Json → String} {newRowid : List Int → Int}

theorem replace_ok {state : AgentInputState}
    (h : replace dump newRowid session tables state expected operation = .ok (tables', revision)) :
    expected.all (fun e => e = (ledger session tables).revision) = true ∧
      revision = (ledger session tables).revision + 1 ∧
      tables'.archives = tables.archives ∧
      replacedReference session tables = false ∧
      ∃ snapshot db, replaceCurrent dump newRowid tables.database session state =
          .ok (snapshot, db) ∧
        tables'.database = setSnapshotMetadata db snapshot revision operation := by
  unfold replace at h
  obtain ⟨⟨previous, current⟩, hMetadata, h⟩ := bind_ok h
  have hPrevious := currentMetadata_ok hMetadata
  dsimp only at h
  split at h
  · cases h
  · rename_i hExpected
    split at h
    · cases h
    · split at h
      · cases h
      · rename_i hReferenced
        obtain ⟨⟨snapshot, db⟩, hReplace, h⟩ := bind_ok h
        injection h with hEq
        injection hEq with hTables hRevision
        subst hTables hRevision
        have hReplace' : replaceCurrent dump newRowid tables.database session state =
            .ok (snapshot, db) := by
          cases hr : replaceCurrent dump newRowid tables.database session state with
          | error e => simp [snapshotResult, hr, Except.mapError] at hReplace
          | ok p =>
            rw [hr] at hReplace
            injection hReplace with hp
            rw [hp]
        refine ⟨?_, by rw [hPrevious], rfl, by simpa using hReferenced, snapshot, db, hReplace',
          rfl⟩
        cases expected with
        | none => rfl
        | some e =>
          simp only [Option.any_some, ne_eq, decide_not, Bool.not_eq_true', decide_eq_false_iff_not,
            not_not] at hExpected
          simp [hExpected, hPrevious]

/-- **A replaced state** moves the revision by one and leaves the attempts alone. -/
theorem replace_moves {state : AgentInputState} (hTables : tables.Consistent)
    (h : replace dump newRowid session tables state expected operation = .ok (tables', revision)) :
    (ledger session tables).Moves (ledger session tables') .save ∧ tables'.Consistent ∧
      (ledger session tables').revision = revision := by
  obtain ⟨-, hRevision, hArchives, hReferenced, snapshot, db, hReplace, hDatabase⟩ := replace_ok h
  obtain ⟨kept, row, current, hFind, hKept, hRows, hId, hOwner, hKind, hFresh, hNone⟩ :=
    replaceCurrent_rows hReplace
  have hSnapshots : tables'.database.snapshots =
      kept ++ [{ row with revision := (revision : Int), operationId := operation }] := by
    rw [hDatabase]
    exact setSnapshotMetadata_rows hRows hId hFresh revision operation
  have hKeptIds : ∀ a ∈ tables.archives, ∀ k, a.originalSnapshotId = some k → current ≠ some k := by
    rintro a ha k hk rfl
    have hAny : referenced tables.archives k = true :=
      List.any_eq_true.mpr ⟨a, ha, by simp [hk]⟩
    rw [replacedReference, hFind] at hReferenced
    simp only [hAny] at hReferenced
    cases hReferenced
  have hCurrent : (ledger session tables').revision = revision := by
    simp only [ledger, currentRow, hSnapshots]
    rw [List.filter_append, hNone, List.nil_append, List.filter_cons_of_pos (by simp [hOwner, hKind])]
    rfl
  refine ⟨⟨by rw [hCurrent, hRevision], ?_⟩, ?_, hCurrent⟩
  · refine ledger_attempt_congr rfl hArchives ?_
    intro a ha
    congr 1
    unfold originalRow
    rw [hSnapshots, find?_append_of_not (by simp [hKind]), hKept]
    apply find?_filter_of_imp
    intro r _ hr
    simp only [decide_eq_true_eq] at hr ⊢
    exact hKeptIds a ha r.snapshotId hr.1.symm
  · refine ⟨?_, by rw [hArchives]; exact hTables.archiveKeys, ?_⟩
    · rw [hSnapshots, List.map_append, List.map_cons, List.map_nil]
      refine nodup_append_fresh ?_ (by simpa [hId] using hFresh)
      rw [hKept]
      exact hTables.snapshotKeys.sublist (List.filter_sublist.map _)
    · intro a ha k hk
      rw [hArchives] at ha
      obtain ⟨r, hr, rfl⟩ := List.mem_map.mp (hTables.originals a ha k hk)
      rw [hSnapshots, List.map_append]
      refine List.mem_append_left _ (List.mem_map_of_mem ?_)
      rw [hKept]
      refine List.mem_filter.mpr ⟨hr, ?_⟩
      simpa using hKeptIds a ha r.snapshotId hk

theorem snapshotResult_ok {α : Type} {r : Except SnapshotError α} {a : α}
    (h : snapshotResult r = .ok a) : r = .ok a := by
  cases r with
  | error e => cases h
  | ok b =>
    injection h with hEq
    rw [hEq]

theorem ledger_addArchive {db : Database} {row : SnapshotRow} (a : ArchiveRow)
    (hTables : tables.Consistent) (hRows : db.snapshots = tables.database.snapshots ++ [row])
    (hFresh : row.snapshotId ∉ tables.database.snapshots.map SnapshotRow.snapshotId)
    (hOwner : row.sessionId = session) (hKind : row.kind = "archive")
    (hOriginal : a.originalSnapshotId = some row.snapshotId)
    (hUnused : ∀ b ∈ tables.archives, b.archiveId ≠ a.archiveId) :
    let tables' : StoreTables := { database := db, archives := tables.archives ++ [a] }
    (ledger session tables).attempt a.archiveId = none ∧
      (ledger session tables').revision = (ledger session tables).revision ∧
      (ledger session tables').attempt = Function.update (ledger session tables).attempt
        a.archiveId (some ⟨a.outcome, some row.revision.toNat⟩) ∧
      tables'.Consistent := by
  intro tables'
  have hNoRow : tables.archives.find? (fun b => b.archiveId = a.archiveId) = none := by
    rw [List.find?_eq_none]
    intro b hb
    simpa using hUnused b hb
  have hOld : ∀ b ∈ tables.archives, originalRow session tables' b =
      originalRow session tables b := by
    intro b hb
    unfold originalRow
    rw [show tables'.database.snapshots = _ from hRows, find?_append_of_not]
    simp only [decide_eq_false_iff_not, not_and]
    intro hk
    exact absurd (hTables.originals b hb _ hk.symm) hFresh
  have hNew : originalRow session tables' a = some row := by
    unfold originalRow
    rw [show tables'.database.snapshots = _ from hRows, List.find?_append, List.find?_eq_none.mpr, Option.none_or,
      List.find?_cons_of_pos (by simp [hOriginal, hOwner, hKind])]
    intro r hr hMatch
    simp only [decide_eq_true_eq, hOriginal, Option.some.injEq] at hMatch
    exact hFresh (hMatch.1 ▸ List.mem_map_of_mem hr)
  refine ⟨by simp [ledger, hNoRow], ?_, ?_, ⟨?_, ?_, ?_⟩⟩
  · simp only [ledger, currentRow, tables', hRows, List.filter_append]
    rw [List.filter_cons_of_neg (by simp [hKind]), List.filter_nil, List.append_nil]
  · funext k
    simp only [ledger]
    by_cases hk : k = a.archiveId
    · subst hk
      rw [Function.update_self, List.find?_append, hNoRow, Option.none_or,
        List.find?_cons_of_pos (by simp), Option.map_some, attemptOf, hNew]
      rfl
    · rw [Function.update_of_ne hk, find?_append_of_not (by simpa using Ne.symm hk)]
      cases hFind : tables.archives.find? fun b => b.archiveId = k with
      | none => rfl
      | some b =>
        simp only [Option.map_some, attemptOf, hOld b (List.mem_of_find?_eq_some hFind)]
  · show (db.snapshots.map SnapshotRow.snapshotId).Nodup
    rw [hRows, List.map_append]
    exact nodup_append_fresh hTables.snapshotKeys hFresh
  · show ((tables.archives ++ [a]).map ArchiveRow.archiveId).Nodup
    rw [List.map_append]
    refine nodup_append_fresh hTables.archiveKeys ?_
    intro hMem
    obtain ⟨b, hb, hSame⟩ := List.mem_map.mp hMem
    exact hUnused b hb hSame
  · intro b hb k hk
    show k ∈ db.snapshots.map SnapshotRow.snapshotId
    rw [hRows, List.map_append]
    rcases List.mem_append.mp hb with hMem | hLast
    · exact List.mem_append_left _ (hTables.originals b hMem k hk)
    · rw [List.mem_singleton.mp hLast, hOriginal] at hk
      injection hk with hk
      subst hk
      exact List.mem_append_right _ (by simp)

/-- **A preparation** saves the original and adds one prepared attempt. -/
theorem prepareArchive_moves {archive : ArchiveRef} {attempt : CompactAttempt}
    {original : AgentInputState} {call : Call} (hTables : tables.Consistent)
    (h : prepareArchive dump newRowid session tables archive attempt original expected call = .ok (tables', revision)) :
    (ledger session tables).Moves (ledger session tables') (.prepare archive.archiveId) ∧
      tables'.Consistent ∧ (ledger session tables').revision = revision ∧
      expected.all (fun e => e = (ledger session tables).revision) = true := by
  unfold prepareArchive at h
  obtain ⟨⟨saved, r⟩, hReplace, h⟩ := bind_ok h
  have hExpected := (replace_ok hReplace).1
  obtain ⟨⟨hRevision, hAttempts⟩, hSaved, hCurrent⟩ := replace_moves hTables hReplace
  obtain ⟨⟨snapshot, db⟩, hEncode, h⟩ := bind_ok h
  obtain ⟨row, hRows, hId, hOwner, hKind, hFresh⟩ := encodeSnapshot_rows (snapshotResult_ok hEncode)
  dsimp only at h
  split at h
  · cases h
  · split at h
    · cases h
    · rename_i hUnused
      injection h with hEq
      injection hEq with hTables' hr
      subst hTables' hr
      have hSnapshots := setSnapshotMetadata_rows hRows hId hFresh r call.operation
      have hUnused : ∀ a ∈ saved.archives, a.archiveId ≠ archive.archiveId := by
        intro a ha hSame
        exact hUnused (List.any_eq_true.mpr ⟨a, ha, by simpa using hSame⟩)
      obtain ⟨hNone, hRevision', hAttempt', hConsistent⟩ := ledger_addArchive
        (archiveRow session archive attempt (lastSequence saved.archives + 1) snapshot
          call.timestamp) hSaved hSnapshots (by rw [hId]; exact hFresh) hOwner hKind
        (by rw [hId]; rfl) hUnused
      refine ⟨⟨?_, ?_, ?_⟩, hConsistent, hRevision'.trans hCurrent, hExpected⟩
      · rw [← hAttempts]
        exact hNone
      · rw [← hRevision]
        exact hRevision'
      · rw [hAttempt', hAttempts, ← hRevision, hCurrent]
        rfl

/-! ## Outcomes -/

theorem ledger_mapArchives (f : ArchiveRow → ArchiveRow)
    (g : String → AttemptOutcome → AttemptOutcome) (hId : ∀ a, (f a).archiveId = a.archiveId)
    (hOriginal : ∀ a, (f a).originalSnapshotId = a.originalSnapshotId)
    (hOutcome : ∀ a, (f a).outcome = g a.archiveId a.outcome) :
    let tables' : StoreTables := { tables with archives := tables.archives.map f }
    (ledger session tables').revision = (ledger session tables).revision ∧
      (∀ k, (ledger session tables').attempt k = ((ledger session tables).attempt k).map
        fun x => { x with outcome := g k x.outcome }) ∧
      (tables.Consistent → tables'.Consistent) := by
  refine ⟨rfl, ?_, ?_⟩
  · intro k
    simp only [ledger, List.find?_map, Function.comp_def, hId, Option.map_map]
    cases hFind : tables.archives.find? fun a => a.archiveId = k with
    | none => rfl
    | some a =>
      have hk : a.archiveId = k := by simpa using List.find?_some hFind
      simp [attemptOf, originalRow, hOriginal, hOutcome, hk]
  · intro hTables
    refine ⟨hTables.snapshotKeys, ?_, ?_⟩
    · simpa [List.map_map, Function.comp_def, hId] using hTables.archiveKeys
    · intro a ha k hk
      obtain ⟨b, hb, rfl⟩ := List.mem_map.mp ha
      exact hTables.originals b hb k (by rw [← hOriginal]; exact hk)

theorem reconcile_ledger (tables : StoreTables) (target : String) :
    ledger session (reconcile tables target) = (ledger session tables).reconcile target ∧
      (tables.Consistent → (reconcile tables target).Consistent) := by
  obtain ⟨hRevision, hAttempt, hConsistent⟩ := @ledger_mapArchives session tables
    (fun a => if a.outcome = .prepared ∧ a.archiveId ≠ target then
      { a with outcome := .interrupted } else a)
    (fun k outcome => if outcome = .prepared ∧ k ≠ target then .interrupted else outcome)
    (by intro a; split <;> rfl) (by intro a; split <;> rfl) (by intro a; split <;> simp_all)
  refine ⟨Ledger.ext hRevision ?_, hConsistent⟩
  funext k
  refine (hAttempt k).trans ?_
  simp only [Ledger.reconcile]
  congr 1
  funext x
  split <;> rfl

/-- What the query of `commit_compaction` finds. -/
theorem preparedRevision_some {k : String} {base : Nat} (hTables : tables.Consistent)
    (h : preparedRevision session tables k = some base) :
    (ledger session tables).attempt k = some ⟨.prepared, some base⟩ := by
  obtain ⟨a, hFind, hBase⟩ := Option.bind_eq_some_iff.mp h
  have hRow := List.find?_some hFind
  simp only [decide_eq_true_eq] at hRow
  obtain ⟨hId, -, hPrepared, -⟩ := hRow
  have hFirst : tables.archives.find? (fun b => b.archiveId = k) = some a := by
    have hMem := List.mem_of_find?_eq_some hFind
    cases hOther : tables.archives.find? fun b => b.archiveId = k with
    | none => exact absurd (by simpa using hId) (List.find?_eq_none.mp hOther a hMem)
    | some b =>
      have hb : b.archiveId = k := by simpa using List.find?_some hOther
      have hSame := List.inj_on_of_nodup_map hTables.archiveKeys
        (List.mem_of_find?_eq_some hOther) hMem (hb.trans hId.symm)
      rw [hSame]
  simp only [ledger, hFirst, Option.map_some, attemptOf, hPrepared, hBase]

/-- **A compaction** replaces the state at the recorded revision and succeeds. -/
theorem settleCompaction_moves {archive : ArchiveRef} {replacement : AgentInputState}
    (hTables : tables.Consistent)
    (h : settleCompaction dump newRowid session tables archive replacement expected operation = .ok (tables', revision)) :
    (ledger session tables).Moves (ledger session tables') (.compact archive.archiveId) ∧
      tables'.Consistent ∧ (ledger session tables').revision = revision ∧
      expected.all (fun e => e = (ledger session tables).revision) = true ∧
      ∃ snapshot db, replaceCurrent dump newRowid tables.database session replacement =
          .ok (snapshot, db) ∧
        tables'.database = setSnapshotMetadata db snapshot revision operation := by
  unfold settleCompaction at h
  split at h
  · cases h
  · rename_i base hBase
    split at h
    · cases h
    · rename_i hExpected
      obtain ⟨⟨saved, r⟩, hReplace, h⟩ := bind_ok h
      injection h with hEq
      injection hEq with hTables' hr
      subst hTables' hr
      obtain ⟨hGuard, hNext, hArchives, -, snapshot, db, hCurrent, hDatabase⟩ := replace_ok hReplace
      obtain ⟨⟨hRevision, hAttempts⟩, hSaved, hSavedRevision⟩ := replace_moves hTables hReplace
      have hAt : base = (ledger session tables).revision := by simpa using hGuard
      have hPrepared := preparedRevision_some hTables hBase
      obtain ⟨hRevision', hAttempt', hConsistent⟩ := @ledger_mapArchives session saved
        (fun a => if a.archiveId = archive.archiveId then
          { a with outcome := .succeeded, replacementRevision := some (r : Int) } else a)
        (fun k outcome => if k = archive.archiveId then .succeeded else outcome)
        (by intro a; split <;> rfl) (by intro a; split <;> rfl)
        (by intro a; split <;> simp_all)
      refine ⟨⟨?_, ?_, ?_⟩, hConsistent hSaved, hRevision'.trans hSavedRevision, ?_,
        snapshot, db, hCurrent, hDatabase⟩
      · rw [hPrepared, hAt]
      · exact hRevision'.trans hRevision
      · funext k
        refine (hAttempt' k).trans ?_
        rw [hAttempts]
        by_cases hk : k = archive.archiveId
        · subst hk
          rw [Function.update_self, hPrepared, hAt]
          simp
        · rw [Function.update_of_ne hk]
          simp only [if_neg hk]
          exact congrFun Option.map_id _
      · cases expected with
        | none => rfl
        | some e => simpa [hAt] using hExpected

theorem ArchiveOutcome.attempt_terminal (outcome : ArchiveOutcome) :
    outcome.attempt ≠ .prepared ∧ outcome.attempt ≠ .succeeded := by
  cases outcome <;> simp [ArchiveOutcome.attempt]

/-- **A settlement** ends a prepared attempt and changes nothing else. -/
theorem settleAttempt_moves {archive : ArchiveRef} {outcome : ArchiveOutcome}
    (hTables : tables.Consistent)
    (h : settleAttempt session tables archive outcome = .ok (tables', revision)) :
    (ledger session tables).Moves (ledger session tables')
        (.settle archive.archiveId outcome.attempt) ∧
      tables'.Consistent ∧ (ledger session tables').revision = revision := by
  unfold settleAttempt at h
  obtain ⟨_, -, h⟩ := bind_ok h
  obtain ⟨⟨r, operation⟩, hMetadata, h⟩ := bind_ok h
  injection h with hEq
  injection hEq with hTables' hr
  subst hTables' hr
  obtain ⟨hRevision, hAttempt, hConsistent⟩ := @ledger_mapArchives session tables
    (fun a => if a.archiveId = archive.archiveId ∧ a.outcome = .prepared then
      { a with outcome := outcome.attempt } else a)
    (fun k old => if k = archive.archiveId ∧ old = .prepared then outcome.attempt else old)
    (by intro a; split <;> rfl) (by intro a; split <;> rfl) (by intro a; split <;> simp_all)
  refine ⟨⟨hRevision, outcome.attempt_terminal.1, outcome.attempt_terminal.2, ?_⟩,
    hConsistent hTables, (currentMetadata_ok hMetadata).symm⟩
  funext k
  refine (hAttempt k).trans ?_
  by_cases hk : k = archive.archiveId
  · subst hk
    rw [Function.update_self]
    congr 1
    funext x
    by_cases hPrepared : x.outcome = .prepared <;> simp [hPrepared]
  · rw [Function.update_of_ne hk]
    simp only [hk, false_and, if_false]
    exact congrFun Option.map_id _

/-! ## Retention -/

/-- What the candidates of a retention pass promise while it runs. -/
structure Prunable (session : String) (tables : StoreTables) (c : Candidate) : Prop where
  /-- An unprotected attempt is settled. -/
  settled : c.protectedArchive = false →
    ∀ a ∈ tables.archives, a.archiveId = c.id → a.outcome ≠ .prepared
  /-- Its snapshot is not the current one. -/
  archived : ∀ r ∈ tables.database.snapshots, r.kind = "current" → r.snapshotId ≠ c.snapshot

theorem candidates_prunable (hTables : tables.Consistent) (protectedIds : List String)
    (authoritative : Nat) :
    ∀ c ∈ candidates session tables protectedIds authoritative, Prunable session tables c := by
  intro c hc
  unfold candidates at hc
  obtain ⟨a, ha, hRow⟩ := List.mem_filterMap.mp hc
  obtain ⟨s, hs, rfl⟩ := Option.map_eq_some_iff.mp hRow
  have hArchive : a ∈ tables.archives := by
    rw [List.mem_reverse, orderBy, List.mem_insertionSort] at ha
    exact (List.mem_filter.mp ha).1
  have hOriginal := List.find?_some hs
  simp only [decide_eq_true_eq] at hOriginal
  refine ⟨?_, ?_⟩
  · intro hOpen b hb hSame
    have hb' := List.inj_on_of_nodup_map hTables.archiveKeys hb hArchive hSame
    subst hb'
    intro hPrepared
    simp [hPrepared] at hOpen
  · intro r hr hCurrent hSame
    have hr' := List.inj_on_of_nodup_map hTables.snapshotKeys hr
      (List.mem_of_find?_eq_some hs) hSame
    rw [hr', hOriginal.2.2] at hCurrent
    exact absurd hCurrent (by decide)

theorem deleteArchive_moves {c : Candidate} (hTables : tables.Consistent)
    (hCandidate : Prunable session tables c) (hOpen : c.protectedArchive = false)
    (h : deleteArchive tables c = .ok tables') :
    (ledger session tables).Moves (ledger session tables') .prune ∧ tables'.Consistent ∧
      ∀ d, Prunable session tables d → Prunable session tables' d := by
  unfold deleteArchive at h
  dsimp only at h
  split at h
  · cases h
  · rename_i hUnreferenced
    injection h with hEq
    subst hEq
    have hOther : ∀ a ∈ tables.archives, a.archiveId ≠ c.id →
        a.originalSnapshotId ≠ some c.snapshot := by
      intro a ha hId hk
      refine hUnreferenced (List.any_eq_true.mpr ⟨a, ?_, by simpa using hk⟩)
      exact List.mem_filter.mpr ⟨ha, by simpa using hId⟩
    have hRows : (deleteSnapshot tables.database c.snapshot).snapshots =
        tables.database.snapshots.filter fun r => r.snapshotId ≠ c.snapshot := rfl
    have hOriginal : ∀ a ∈ tables.archives, a.archiveId ≠ c.id → originalRow session
          { database := deleteSnapshot tables.database c.snapshot,
            archives := tables.archives.filter fun a => a.archiveId ≠ c.id } a =
          originalRow session tables a := by
      intro a ha hId
      unfold originalRow
      rw [hRows]
      apply find?_filter_of_imp
      intro r _ hr
      simp only [decide_eq_true_eq] at hr ⊢
      intro hSame
      exact hOther a ha hId (by rw [← hr.1, hSame])
    refine ⟨⟨?_, ?_⟩, ⟨?_, ?_, ?_⟩, ?_⟩
    · simp only [ledger, currentRow, hRows]
      rw [List.filter_filter]
      congr 3
      apply List.filter_congr
      intro r hr
      by_cases hCurrent : r.sessionId = session ∧ r.kind = "current"
      · simp [hCurrent, hCandidate.archived r hr hCurrent.2]
      · simp [hCurrent]
    · intro k
      simp only [ledger]
      by_cases hk : k = c.id
      · subst hk
        have hGone : (tables.archives.filter fun a => a.archiveId ≠ c.id).find?
            (fun a => a.archiveId = c.id) = none := by
          rw [List.find?_eq_none]
          intro a ha
          have := (List.mem_filter.mp ha).2
          simpa using this
        cases hFind : tables.archives.find? fun a => a.archiveId = c.id with
        | none =>
          refine Or.inl ?_
          rw [hGone]
          rfl
        | some a =>
          refine Or.inr ⟨by rw [hGone]; rfl, attemptOf session tables a, rfl, ?_⟩
          exact hCandidate.settled hOpen a (List.mem_of_find?_eq_some hFind)
            (by simpa using List.find?_some hFind)
      · refine Or.inl ?_
        have hKept : (tables.archives.filter fun a => a.archiveId ≠ c.id).find?
            (fun a => a.archiveId = k) = tables.archives.find? fun a => a.archiveId = k := by
          apply find?_filter_of_imp
          intro a _ ha
          simp only [decide_eq_true_eq] at ha ⊢
          rw [ha]
          exact hk
        rw [hKept]
        cases hFind : tables.archives.find? fun a => a.archiveId = k with
        | none => rfl
        | some a =>
          have ha : a.archiveId ≠ c.id := by
            have hId : a.archiveId = k := by simpa using List.find?_some hFind
            rw [hId]
            exact hk
          simp only [Option.map_some, attemptOf, hOriginal a (List.mem_of_find?_eq_some hFind) ha]
    · exact hTables.snapshotKeys.sublist (List.filter_sublist.map _)
    · exact hTables.archiveKeys.sublist (List.filter_sublist.map _)
    · intro a ha k hk
      obtain ⟨hMem, hId⟩ := List.mem_filter.mp ha
      obtain ⟨r, hr, rfl⟩ := List.mem_map.mp (hTables.originals a hMem k hk)
      refine List.mem_map_of_mem (List.mem_filter.mpr ⟨hr, ?_⟩)
      simp only [decide_eq_true_eq]
      intro hSame
      exact hOther a hMem (by simpa using hId) (by rw [hk, hSame])
    · intro d hd
      exact ⟨fun hp a ha => hd.settled hp a (List.mem_filter.mp ha).1,
        fun r hr => hd.archived r (List.mem_filter.mp hr).1⟩

theorem moves_prune_trans {l m n : Ledger} (h : l.Moves m .prune) (h' : m.Moves n .prune) :
    l.Moves n .prune := by
  refine ⟨h'.1.trans h.1, fun k => ?_⟩
  rcases h'.2 k with hSame | ⟨hGone, x, hRow, hTerminal⟩
  · rcases h.2 k with hSame' | ⟨hGone', hRow'⟩
    · exact Or.inl (hSame.trans hSame')
    · exact Or.inr ⟨hSame.trans hGone', hRow'⟩
  · rcases h.2 k with hSame' | ⟨hGone', -⟩
    · exact Or.inr ⟨hGone, x, hSame' ▸ hRow, hTerminal⟩
    · rw [hGone'] at hRow
      cases hRow

/-- The deletion loop only forgets settled attempts. -/
theorem pruneCandidates_moves (maxArchives : Nat) (cs : List Candidate) :
    ∀ {kept : Nat} {tables tables' : StoreTables}, tables.Consistent →
      (∀ c ∈ cs, Prunable session tables c) →
      pruneCandidates maxArchives cs kept tables = .ok tables' →
      (ledger session tables).Moves (ledger session tables') .prune ∧ tables'.Consistent := by
  induction cs with
  | nil =>
    intro kept tables tables' hTables _ h
    injection h with hEq
    subst hEq
    exact ⟨⟨rfl, fun _ => Or.inl rfl⟩, hTables⟩
  | cons c rest ih =>
    intro kept tables tables' hTables hAll h
    have hRest : ∀ d ∈ rest, Prunable session tables d := fun d hd => hAll d (by simp [hd])
    unfold pruneCandidates at h
    split at h
    · exact ih hTables hRest h
    · rename_i hOpen
      split at h
      · exact ih hTables hRest h
      · obtain ⟨next, hDelete, h⟩ := bind_ok h
        obtain ⟨hMove, hNext, hStill⟩ := deleteArchive_moves hTables (hAll c (by simp))
          (by simpa using hOpen) hDelete
        obtain ⟨hMoves, hEnd⟩ := ih hNext (fun d hd => hStill d (hRest d hd)) h
        exact ⟨moves_prune_trans hMove hMoves, hEnd⟩

/-- **Retention** only forgets settled attempts. -/
theorem pruneTables_moves {request : ArchivePruneRequest} (hTables : tables.Consistent)
    (h : pruneTables session tables request = .ok (tables', revision)) :
    (ledger session tables).Moves (ledger session tables') .prune ∧ tables'.Consistent ∧
      (ledger session tables').revision = revision := by
  unfold pruneTables at h
  obtain ⟨_, -, h⟩ := bind_ok h
  obtain ⟨⟨authoritative, operation⟩, hMetadata, h⟩ := bind_ok h
  dsimp only at h
  split at h
  · injection h with hEq
    injection hEq with hTables' hr
    subst hTables' hr
    exact ⟨⟨rfl, fun _ => Or.inl rfl⟩, hTables, (currentMetadata_ok hMetadata).symm⟩
  · obtain ⟨pruned, hPrune, h⟩ := bind_ok h
    obtain ⟨⟨r, operation'⟩, hMetadata', h⟩ := bind_ok h
    injection h with hEq
    injection hEq with hTables' hr
    subst hTables' hr
    obtain ⟨hMoves, hConsistent⟩ := pruneCandidates_moves request.maxArchives _ hTables
      (candidates_prunable hTables _ _) hPrune
    exact ⟨hMoves, hConsistent, (currentMetadata_ok hMetadata').symm⟩

end SimplexAgent.Persistence
