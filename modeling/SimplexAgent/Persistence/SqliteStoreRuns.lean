import SimplexAgent.Persistence.SqliteStoreLedger

/-!
# Runs of the session store

A run is any sequence of operations, with their faults and with restarts. One step
either leaves the file alone, or makes one write of the ledger, or ends without
knowing whether it made that write and latches the object. What a run may do to the
revision, to an attempt and after an unknown commit follows by induction on the run.
-/

namespace SimplexAgent.Persistence

open Dataclass Verified.Tables

/-! ## Operations and their writes -/

def Operation.effect : Operation → Option Effect
  | .checkpoint _ _ _ _ => some .save
  | .beginArchive _ archive _ _ => some (.prepare archive.archiveId)
  | .commitCompaction _ archive _ _ => some (.compact archive.archiveId)
  | .finishArchiveAttempt _ archive outcome => some (.settle archive.archiveId outcome.attempt)
  | .prune _ _ => some .prune
  | .reserve _ _ | .release _ | .load _ | .restart => none

def Operation.expected : Operation → Option Nat
  | .checkpoint _ _ _ expected | .beginArchive _ _ _ expected
  | .commitCompaction _ _ _ expected => expected
  | _ => none

/-- Checkpoints, preparations and compactions publish a state. -/
def Operation.Publishes (op : Operation) : Prop :=
  ∃ effect, op.effect = some effect ∧ Ledger.Publishes effect

/-- A write that returned a receipt. -/
def Response.Committed (response : Response) : Prop :=
  ∃ receipt, response = .receipt (.ok receipt)

/-- A write whose commit has an unknown outcome. -/
def Response.Unknown (response : Response) : Prop :=
  ∃ message operation,
    response = .receipt (.error (.storeError message .unknown operation))

/-- A call that ended with an error. -/
def Response.Refused (response : Response) : Prop :=
  ∃ failure, response = .receipt (.error failure)

section Ledger

variable (session : String)

def Store.ledger (store : Store) : Ledger :=
  (store.file.map (Persistence.ledger session)).getD .empty

/-- The schema holds of the file, if there is one. -/
def Store.Consistent (store : Store) : Prop :=
  ∀ tables, store.file = some tables → tables.Consistent

def Store.opened (store : Store) (timestamp : String) : StoreTables :=
  store.file.getD (createStore session timestamp)

theorem createStore_ledger (timestamp : String) :
    Persistence.ledger session (createStore session timestamp) = .empty := rfl

theorem createStore_consistent (timestamp : String) :
    (createStore session timestamp).Consistent where
  snapshotKeys := List.nodup_nil
  archiveKeys := List.nodup_nil
  originals _ ha := absurd ha List.not_mem_nil

theorem Store.opened_ledger (store : Store) (timestamp : String) :
    Persistence.ledger session (store.opened session timestamp) = store.ledger session := by
  unfold Store.opened Store.ledger
  cases store.file with
  | none => exact createStore_ledger session timestamp
  | some tables => rfl

variable {session}

theorem Store.ledger_of_file {store store' : Store} (h : store'.file = store.file) :
    store'.ledger session = store.ledger session := by
  simp only [Store.ledger, h]

theorem Store.Consistent.opened {store : Store} (h : store.Consistent) (timestamp : String) :
    (store.opened session timestamp).Consistent := by
  unfold Store.opened
  cases hFile : store.file with
  | none => exact createStore_consistent session timestamp
  | some tables => exact h tables hFile

theorem Store.Consistent.of_file {store store' : Store} (h : store.Consistent)
    (hFile : store'.file = store.file) : store'.Consistent := by
  intro tables hTables
  exact h tables (hFile ▸ hTables)

end Ledger

/-! ## One write -/

section Write

variable (dump : Json → String) (newRowid : List Int → Int) (session : String)

/-- What else a write guarantees: the expected revision was the current one, and a
compaction put its replacement in the place of the current snapshot. -/
def Operation.Guarantees (before after : StoreTables) (op : Operation) : Prop :=
  op.expected.all (fun e => e = (ledger session before).revision) = true ∧
    ∀ call archive replacement expected,
      op = .commitCompaction call archive replacement expected →
      ∃ snapshot db,
        replaceCurrent dump newRowid before.database session replacement = .ok (snapshot, db) ∧
        after.database = setSnapshotMetadata db snapshot (ledger session after).revision
          call.operation

/-- The write of an operation reached the file. -/
def Store.Wrote (store store' : Store) (op : Operation) (effect : Effect) : Prop :=
  (store.ledger session).Applies (store'.ledger session) effect ∧
    ∃ timestamp after, store'.file = some after ∧
      op.Guarantees dump newRowid session (store.opened session timestamp) after

inductive StepLaw (store : Store) (op : Operation) : Response → Store → Prop
  /-- Reads, reservations and restarts leave the file alone. -/
  | silent {response : Response} {store' : Store} (hOp : op.effect = none)
      (hFile : store'.file = store.file)
      (hQuiet : ¬response.Committed ∧ ¬response.Unknown)
      (hLatch : op ≠ .restart → store'.memory.uncertain = store.memory.uncertain) :
      StepLaw store op response store'
  /-- A refused write leaves the file alone. -/
  | refused {failure : StoreFailure} {store' : Store}
      (hKnown : store.memory.uncertain = true ∨ ¬(Response.receipt (.error failure)).Unknown)
      (hFile : store'.file = store.file)
      (hLatch : store'.memory.uncertain = store.memory.uncertain) :
      StepLaw store op (.receipt (.error failure)) store'
  | committed {receipt : CommitReceipt} {store' : Store} {effect : Effect}
      (hOp : op.effect = some effect) (hOpen : store.memory.uncertain = false)
      (hStatus : receipt.status = .committed)
      (hRevision : receipt.revision = some (store'.ledger session).revision)
      (hLatch : store'.memory.uncertain = false)
      (hWrote : Store.Wrote dump newRowid session store store' op effect) :
      StepLaw store op (.receipt (.ok receipt)) store'
  /-- The outcome of the commit is not known, and the object is latched. -/
  | unknown {message operation : String} {store' : Store} {effect : Effect}
      (hOp : op.effect = some effect) (hOpen : store.memory.uncertain = false)
      (hLatch : store'.memory.uncertain = true)
      (hWrote : Store.Wrote dump newRowid session store store' op effect ∨
        store'.ledger session = store.ledger session)
      (hGuard : op.expected.all (fun e => e = (store.ledger session).revision) = true) :
      StepLaw store op (.receipt (.error (.storeError message .unknown operation))) store'

variable {dump newRowid session}

/-- **One transaction.** The mutation is a write of the ledger it finds, and `write`
makes it, refuses it, or latches. -/
theorem write_law {store : Store} {call : Call} {action target : String} {op : Operation}
    {effect : Effect} {mutation : StoreTables → Except String (StoreTables × Nat)}
    (hStore : store.Consistent) (hOp : op.effect = some effect)
    (hTarget : Ledger.Targets effect target)
    (hMutation : ∀ tables tables' revision, tables.Consistent →
      mutation tables = .ok (tables', revision) →
      (ledger session tables).Moves (ledger session tables') effect ∧ tables'.Consistent ∧
        (ledger session tables').revision = revision ∧
        op.Guarantees dump newRowid session tables tables') :
    let result := write session store call action target mutation
    StepLaw dump newRowid session store op (.receipt result.1) result.2 ∧ result.2.Consistent := by
  intro result
  let opened := store.opened session call.timestamp
  let tables := if store.memory.reconciled then opened else reconcile opened target
  obtain ⟨hLedger, hKept⟩ := @reconcile_ledger session opened target
  have hOpened : ledger session opened = store.ledger session := store.opened_ledger session _
  have hOpenedConsistent : opened.Consistent := hStore.opened call.timestamp
  have hTables : tables.Consistent ∧ tables.database = opened.database ∧
      (ledger session tables).revision = (ledger session opened).revision := by
    show (if store.memory.reconciled then opened else reconcile opened target).Consistent ∧ _
    simp only [tables]
    split
    · exact ⟨hOpenedConsistent, rfl, rfl⟩
    · exact ⟨hKept hOpenedConsistent, rfl, by rw [hLedger]; rfl⟩
  have hWrote : ∀ changed revision memory, mutation tables = .ok (changed, revision) →
      Store.Wrote dump newRowid session store { file := some changed, memory := memory } op effect ∧
        changed.Consistent ∧ (ledger session changed).revision = revision := by
    intro changed revision memory hChanged
    obtain ⟨hMoves, hConsistent, hNext, hGuard, hReplaced⟩ :=
      hMutation tables changed revision hTables.1 hChanged
    refine ⟨⟨?_, call.timestamp, changed, rfl, ?_, ?_⟩, hConsistent, hNext⟩
    · show (store.ledger session).Applies (ledger session changed) effect
      rw [← hOpened]
      cases hReconciled : store.memory.reconciled with
      | true =>
        refine Or.inl ?_
        simpa only [tables, hReconciled, if_true] using hMoves
      | false =>
        refine Or.inr ⟨target, hTarget, ?_⟩
        rw [← hLedger]
        simpa only [tables, hReconciled, Bool.false_eq_true, if_false] using hMoves
    · rw [← hTables.2.2]
      exact hGuard
    · rw [← hTables.2.1]
      exact hReplaced
  have hRefused : ∀ message : String, store.memory.uncertain = false →
      StepLaw dump newRowid session store op
        (.receipt (.error (.storeError ("SQLite " ++ action ++ " " ++ call.operation ++
          " (not_committed): " ++ message) .notCommitted call.operation))) store ∧
        store.Consistent := by
    intro message _
    refine ⟨.refused (Or.inr ?_) rfl rfl, hStore⟩
    rintro ⟨m, o, hEq⟩
    cases hEq
  simp only [result]
  unfold write
  by_cases hLatched : store.memory.uncertain = true
  · rw [if_pos hLatched]
    exact ⟨.refused (Or.inl hLatched) rfl rfl, hStore⟩
  · have hOpen : store.memory.uncertain = false := by simpa using hLatched
    rw [if_neg hLatched]
    cases hFault : call.fault with
    | refused message => exact hRefused message hOpen
    | none =>
      cases hChanged : mutation tables with
      | error message =>
        simp only [tables, opened, Store.opened] at hChanged
        simp only [hChanged]
        exact hRefused message hOpen
      | ok pair =>
        obtain ⟨hDone, hConsistent, hNext⟩ := hWrote pair.1 pair.2
          { store.memory with reconciled := true } hChanged
        simp only [tables, opened, Store.opened] at hChanged
        simp only [hChanged]
        refine ⟨.committed hOp hOpen rfl ?_ hOpen hDone, ?_⟩
        · exact congrArg some hNext.symm
        · rintro _ ⟨⟩
          exact hConsistent
    | uncertain message applied =>
      cases hChanged : mutation tables with
      | error message' =>
        simp only [tables, opened, Store.opened] at hChanged
        simp only [hChanged]
        exact hRefused message' hOpen
      | ok pair =>
        obtain ⟨hDone, hConsistent, -⟩ := hWrote pair.1 pair.2
          { store.memory with uncertain := true } hChanged
        have hGuard := (hMutation tables pair.1 pair.2 hTables.1 hChanged).2.2.2.1
        rw [hTables.2.2, hOpened] at hGuard
        simp only [tables, opened, Store.opened] at hChanged
        simp only [hChanged]
        cases applied with
        | true =>
          refine ⟨.unknown hOp hOpen rfl (Or.inl hDone) hGuard, ?_⟩
          rintro _ ⟨⟩
          exact hConsistent
        | false =>
          refine ⟨.unknown hOp hOpen rfl (Or.inr hOpened) hGuard, ?_⟩
          rintro _ ⟨⟩
          exact hOpenedConsistent

theorem Store.Wrote.of_file {store next store' : Store} {op : Operation} {effect : Effect}
    (hFile : next.file = store.file) (h : Store.Wrote dump newRowid session next store' op effect) :
    Store.Wrote dump newRowid session store store' op effect := by
  simpa only [Store.Wrote, Store.ledger, Store.opened, hFile] using h

theorem StepLaw.of_file {store next store' : Store} {op : Operation} {response : Response}
    (hFile : next.file = store.file) (hLatch : next.memory.uncertain = store.memory.uncertain)
    (h : StepLaw dump newRowid session next op response store') :
    StepLaw dump newRowid session store op response store' := by
  cases h with
  | silent hOp hSame hQuiet hKeep =>
    exact .silent hOp (hSame.trans hFile) hQuiet fun hOther => (hKeep hOther).trans hLatch
  | refused hKnown hSame hKeep =>
    exact .refused (hLatch ▸ hKnown) (hSame.trans hFile) (hKeep.trans hLatch)
  | committed hOp hOpen hStatus hRevision hKeep hWrote =>
    exact .committed hOp (hLatch ▸ hOpen) hStatus hRevision hKeep (hWrote.of_file hFile)
  | unknown hOp hOpen hKeep hWrote hGuard =>
    rw [Store.ledger_of_file hFile] at hWrote hGuard
    exact .unknown hOp (hLatch ▸ hOpen) hKeep (hWrote.imp_left (Store.Wrote.of_file hFile)) hGuard

/-- A call refused before it reaches `write`. -/
theorem stepLaw_rejected {store : Store} {op : Operation} {failure : StoreFailure}
    (hStore : store.Consistent) (hKnown : ¬(Response.receipt (.error failure)).Unknown) :
    StepLaw dump newRowid session store op (.receipt (.error failure)) store ∧ store.Consistent :=
  ⟨.refused (Or.inr hKnown) rfl rfl, hStore⟩

theorem not_unknown_invalidArgument (what : String) :
    ¬(Response.receipt (.error (.invalidArgument what))).Unknown := by
  rintro ⟨_, _, hEq⟩
  cases hEq

theorem not_unknown_notCommitted (message operation : String) :
    ¬(Response.receipt (.error (.storeError message .notCommitted operation))).Unknown := by
  rintro ⟨_, _, hEq⟩
  cases hEq

theorem quiet_of_not_receipt {response : Response} (h : ∀ outcome, response ≠ .receipt outcome) :
    ¬response.Committed ∧ ¬response.Unknown :=
  ⟨fun ⟨_, hEq⟩ => h _ hEq, fun ⟨_, _, hEq⟩ => h _ hEq⟩

variable (dump newRowid session)

/-- **One operation** follows the law and keeps the schema. -/
theorem step_law (parse : String → Option Json) (store : Store) (hStore : store.Consistent)
    (op : Operation) :
    let result := step dump parse newRowid session store op
    StepLaw dump newRowid session store op result.1 result.2 ∧ result.2.Consistent := by
  intro result
  cases op with
  | checkpoint call state boundary expected =>
    simp only [result, step, checkpoint]
    by_cases hSession : state.metaInfo.sessionId ≠ session
    · rw [if_pos hSession]
      exact stepLaw_rejected hStore (not_unknown_notCommitted _ _)
    · rw [if_neg hSession]
      refine write_law hStore rfl trivial ?_
      intro tables tables' revision hTables h
      obtain ⟨hMoves, hConsistent, hRevision⟩ := replace_moves hTables h
      exact ⟨hMoves, hConsistent, hRevision, (replace_ok h).1, by rintro _ _ _ _ ⟨⟩⟩
  | beginArchive call archive original expected =>
    simp only [result, step, beginArchive]
    by_cases hReference : ¬validReference session archive = true
    · rw [if_pos hReference]
      exact stepLaw_rejected hStore (not_unknown_invalidArgument _)
    · rw [if_neg hReference]
      by_cases hSession : original.metaInfo.sessionId ≠ session
      · rw [if_pos hSession]
        exact stepLaw_rejected hStore (not_unknown_notCommitted _ _)
      · rw [if_neg hSession]
        cases store.memory.reservations.lookup archive.archiveId with
        | none => exact stepLaw_rejected hStore (not_unknown_invalidArgument _)
        | some attempt =>
          let next : Store := { store with memory := { store.memory with
            reservations := store.memory.reservations.filter fun r =>
              r.1 ≠ archive.archiveId } }
          have hFile : next.file = store.file := rfl
          have hLatch : next.memory.uncertain = store.memory.uncertain := rfl
          obtain ⟨hLaw, hConsistent⟩ := @write_law dump newRowid session next call
            "archive preparation" "" (.beginArchive call archive original expected)
            (.prepare archive.archiveId)
            (fun tables => prepareArchive dump newRowid session tables archive attempt
              original expected call) (hStore.of_file hFile) rfl trivial
            fun tables tables' revision hTables h =>
              let ⟨hMoves, hKept, hRevision, hGuard⟩ := prepareArchive_moves hTables h
              ⟨hMoves, hKept, hRevision, hGuard, by rintro _ _ _ _ ⟨⟩⟩
          exact ⟨StepLaw.of_file hFile hLatch hLaw, hConsistent⟩
  | commitCompaction call archive replacement expected =>
    simp only [result, step, commitCompaction]
    by_cases hReference : ¬validReference session archive = true
    · rw [if_pos hReference]
      exact stepLaw_rejected hStore (not_unknown_invalidArgument _)
    · rw [if_neg hReference]
      refine write_law hStore rfl rfl ?_
      intro tables tables' revision hTables h
      obtain ⟨hMoves, hConsistent, hRevision, hGuard, snapshot, db, hReplace, hDatabase⟩ :=
        settleCompaction_moves hTables h
      refine ⟨hMoves, hConsistent, hRevision, hGuard, ?_⟩
      rintro _ _ _ _ ⟨⟩
      exact ⟨snapshot, db, hReplace, hRevision ▸ hDatabase⟩
  | finishArchiveAttempt call archive outcome =>
    simp only [result, step, finishArchiveAttempt]
    by_cases hReference : ¬validReference session archive = true
    · rw [if_pos hReference]
      exact stepLaw_rejected hStore (not_unknown_invalidArgument _)
    · rw [if_neg hReference]
      refine write_law hStore rfl rfl ?_
      intro tables tables' revision hTables h
      obtain ⟨hMoves, hConsistent, hRevision⟩ := settleAttempt_moves hTables h
      exact ⟨hMoves, hConsistent, hRevision, rfl, by rintro _ _ _ _ ⟨⟩⟩
  | prune call request =>
    simp only [result, step, pruneArchives]
    by_cases hReference : ¬validReference session request.current = true ∨
        request.referenced.any (fun r => !validReference session r) = true
    · rw [if_pos hReference]
      exact stepLaw_rejected hStore (not_unknown_invalidArgument _)
    · rw [if_neg hReference]
      refine write_law hStore rfl trivial ?_
      intro tables tables' revision hTables h
      obtain ⟨hMoves, hConsistent, hRevision⟩ := pruneTables_moves hTables h
      exact ⟨hMoves, hConsistent, hRevision, rfl, by rintro _ _ _ _ ⟨⟩⟩
  | reserve attempt id =>
    have hFile : (reserveArchive session store attempt id).2.file = store.file ∧
        (reserveArchive session store attempt id).2.memory.uncertain = store.memory.uncertain := by
      unfold reserveArchive
      split <;> exact ⟨rfl, rfl⟩
    exact ⟨.silent rfl hFile.1 (quiet_of_not_receipt (by rintro _ ⟨⟩)) fun _ => hFile.2,
      hStore.of_file hFile.1⟩
  | release archive | load call =>
    exact ⟨.silent rfl rfl (quiet_of_not_receipt (by rintro _ ⟨⟩)) fun _ => rfl,
      hStore.of_file rfl⟩
  | restart =>
    exact ⟨.silent rfl rfl (quiet_of_not_receipt (by rintro _ ⟨⟩)) fun h => absurd rfl h,
      hStore.of_file rfl⟩

end Write

/-! ## Runs -/

/-- Operations on a store whose file keeps to the schema. -/
structure StoreRun where
  dump : Json → String
  parse : String → Option Json
  newRowid : List Int → Int
  session : String
  start : Store
  ops : List Operation
  consistent : start.Consistent

namespace StoreRun

variable (run : StoreRun)

/-- The store after the first operations. -/
def stateAt (i : Nat) : Store :=
  runOperations run.dump run.parse run.newRowid run.session run.start (run.ops.take i)

/-- What the next operation answers. -/
def responseAt (i : Nat) (op : Operation) : Response :=
  (step run.dump run.parse run.newRowid run.session (run.stateAt i) op).1

/-- Revision and attempts after the first operations. -/
def ledgerAt (i : Nat) : Ledger :=
  (run.stateAt i).ledger run.session

/-- An attempt whose compaction was committed. -/
def SucceededAt (i : Nat) (k : String) : Prop :=
  ∃ x, (run.ledgerAt i).attempt k = some x ∧ x.outcome = .succeeded

/-- The attempt is in the store all along a part of the run. -/
def Kept (k : String) (i j : Nat) : Prop :=
  ∀ m, i ≤ m → m ≤ j → (run.ledgerAt m).attempt k ≠ none

variable {run}
variable {op : Operation} {k : String} {i : Nat}

theorem stateAt_succ (h : run.ops[i]? = some op) : run.stateAt (i + 1) =
      (step run.dump run.parse run.newRowid run.session (run.stateAt i) op).2 := by
  simp only [stateAt, runOperations, List.take_add_one, h, Option.toList_some, List.foldl_append,
    List.foldl_cons, List.foldl_nil]

theorem stateAt_end (h : run.ops[i]? = none) : run.stateAt (i + 1) = run.stateAt i := by
  simp only [stateAt, List.take_add_one, h, Option.toList_none, List.append_nil]

variable (run)

theorem stateAt_consistent (i : Nat) : (run.stateAt i).Consistent := by
  induction i with
  | zero => exact run.consistent
  | succ i ih =>
    cases hOp : run.ops[i]? with
    | none =>
      rw [stateAt_end hOp]
      exact ih
    | some op =>
      rw [stateAt_succ hOp]
      exact (step_law run.dump run.newRowid run.session run.parse _ ih op).2

theorem stateAt_law (hOp : run.ops[i]? = some op) :
    StepLaw run.dump run.newRowid run.session (run.stateAt i) op
      (run.responseAt i op)
      (run.stateAt (i + 1)) := by
  rw [stateAt_succ hOp]
  exact (step_law run.dump run.newRowid run.session run.parse _ (run.stateAt_consistent i) op).1

theorem ledgerAt_step (i : Nat) : run.ledgerAt (i + 1) = run.ledgerAt i ∨
      ∃ op effect, run.ops[i]? = some op ∧ op.effect = some effect ∧
        Store.Wrote run.dump run.newRowid run.session (run.stateAt i)
          (run.stateAt (i + 1)) op effect := by
  cases hOp : run.ops[i]? with
  | none =>
    refine Or.inl ?_
    simp only [ledgerAt, stateAt_end hOp]
  | some op =>
    have hLaw := run.stateAt_law hOp
    generalize run.responseAt i op = response at hLaw
    cases hLaw with
    | silent _ hFile _ _ | refused _ hFile _ => exact Or.inl (Store.ledger_of_file hFile)
    | committed hEffect _ _ _ _ hWrote => exact Or.inr ⟨op, _, rfl, hEffect, hWrote⟩
    | unknown hEffect _ _ hWrote _ =>
      rcases hWrote with hWrote | hSame
      · exact Or.inr ⟨op, _, rfl, hEffect, hWrote⟩
      · exact Or.inl hSame

theorem ledgerAt_revision_mono {i j : Nat} (hij : i ≤ j) : (run.ledgerAt i).revision ≤
      (run.ledgerAt j).revision := by
  induction j, hij using Nat.le_induction with
  | base => exact le_rfl
  | succ j _ ih =>
    rcases run.ledgerAt_step j with
      hSame | ⟨op, effect, -, -, hWrote⟩
    · rw [hSame]
      exact ih
    · obtain ⟨hPublished, hKept⟩ := hWrote.1.revision
      by_cases hPublishes : Ledger.Publishes effect
      · have hNext := hPublished hPublishes
        simp only [ledgerAt] at ih ⊢
        omega
      · have hNext := hKept hPublishes
        simp only [ledgerAt] at ih ⊢
        omega

theorem expected_eq_none (h : op.effect = none) : op.expected = none := by
  cases op <;> first | rfl | cases h

theorem effect_eq_prepare (h : op.effect = some (.prepare k)) :
    ∃ call archive original expected, op = .beginArchive call archive original expected ∧
      archive.archiveId = k := by
  cases op with
  | beginArchive call archive original expected =>
    cases h
    exact ⟨call, archive, original, expected, rfl, rfl⟩
  | _ => cases h

theorem effect_eq_compact (h : op.effect = some (.compact k)) : ∃ call archive replacement expected,
      op = .commitCompaction call archive replacement expected ∧ archive.archiveId = k := by
  cases op with
  | commitCompaction call archive replacement expected =>
    cases h
    exact ⟨call, archive, replacement, expected, rfl, rfl⟩
  | _ => cases h

variable {run}

theorem ledgerAt_attempt (i : Nat) (k : String) :
    (run.ledgerAt (i + 1)).attempt k = (run.ledgerAt i).attempt k ∨
      ∃ op effect, run.ops[i]? = some op ∧ op.effect = some effect ∧
        (run.ledgerAt i).AttemptLaw (run.ledgerAt (i + 1)) effect k := by
  rcases run.ledgerAt_step i with hSame | ⟨op, effect, hOp, hEffect, hWrote⟩
  · exact Or.inl (by rw [hSame])
  · exact Or.inr ⟨op, effect, hOp, hEffect, hWrote.1.attemptLaw k⟩

theorem created_prepared (hNone : (run.ledgerAt i).attempt k = none)
    (hSome : (run.ledgerAt (i + 1)).attempt k ≠ none) : (run.ledgerAt (i + 1)).attempt k =
        some ⟨.prepared, some (run.ledgerAt (i + 1)).revision⟩ ∧
      ∃ call archive original expected,
        run.ops[i]? = some (.beginArchive call archive original expected) ∧
          archive.archiveId = k := by
  rcases ledgerAt_attempt i k with hSame | ⟨op, effect, hOp, hEffect, hLaw⟩
  · exact absurd (hSame.trans hNone) hSome
  · rcases hLaw.created hNone with hStill | ⟨rfl, hPrepared⟩
    · exact absurd hStill hSome
    · obtain ⟨call, archive, original, expected, rfl, hId⟩ := effect_eq_prepare hEffect
      exact ⟨hPrepared, call, archive, original, expected, hOp, hId⟩

theorem forgotten_by_prune (hSome : (run.ledgerAt i).attempt k ≠ none)
    (hGone : (run.ledgerAt (i + 1)).attempt k = none) :
    ∃ call request, run.ops[i]? = some (.prune call request) := by
  rcases ledgerAt_attempt i k with hSame | ⟨op, effect, hOp, hEffect, hLaw⟩
  · exact absurd (hSame.symm.trans hGone) hSome
  · have hPrune := hLaw.kept hSome hGone
    subst hPrune
    cases op with
    | prune call request => exact ⟨call, request, hOp⟩
    | _ => cases hEffect

theorem terminal_stays {i j : Nat} {x : Attempt} (hij : i ≤ j) (hKept : run.Kept k i j)
    (hRow : (run.ledgerAt i).attempt k = some x) (hTerminal : x.outcome ≠ .prepared) :
    (run.ledgerAt j).attempt k = some x := by
  induction j, hij using Nat.le_induction with
  | base => exact hRow
  | succ j hij ih =>
    have hBefore := ih fun m hi hj => hKept m hi (by omega)
    rcases ledgerAt_attempt j k with hSame | ⟨-, effect, -, -, hLaw⟩
    · rw [hSame]
      exact hBefore
    · rcases hLaw.terminal x hBefore hTerminal with hStill | hGone
      · exact hStill
      · exact absurd hGone (hKept (j + 1) (by omega) le_rfl)

theorem recorded_stays {i j : Nat} {x : Attempt} (hij : i ≤ j) (hKept : run.Kept k i j)
    (hRow : (run.ledgerAt i).attempt k = some x) :
    ∃ y, (run.ledgerAt j).attempt k = some y ∧ y.base = x.base := by
  induction j, hij using Nat.le_induction with
  | base => exact ⟨x, hRow, rfl⟩
  | succ j hij ih =>
    obtain ⟨y, hBefore, hBase⟩ := ih fun m hi hj => hKept m hi (by omega)
    have hSome := hKept (j + 1) (by omega) le_rfl
    rcases ledgerAt_attempt j k with hSame | ⟨-, effect, -, -, hLaw⟩
    · exact ⟨y, by rw [hSame, hBefore], hBase⟩
    · by_cases hPrepared : y.outcome = .prepared
      · rcases hLaw.prepared y hBefore hPrepared with hGone | ⟨outcome, hAfter⟩
        · exact absurd hGone hSome
        · exact ⟨_, hAfter, hBase⟩
      · rcases hLaw.terminal y hBefore hPrepared with hAfter | hGone
        · exact ⟨y, hAfter, hBase⟩
        · exact absurd hGone hSome

theorem succeeded_by_compaction (hAfter : run.SucceededAt (i + 1) k)
    (hBefore : ¬run.SucceededAt i k) : (∃ call archive replacement expected,
      run.ops[i]? = some (.commitCompaction call archive replacement expected) ∧
        archive.archiveId = k) ∧
      (run.ledgerAt i).attempt k = some ⟨.prepared, some (run.ledgerAt i).revision⟩ ∧
      (run.ledgerAt (i + 1)).revision = (run.ledgerAt i).revision + 1 := by
  obtain ⟨x, hRow, hSucceeded⟩ := hAfter
  rcases run.ledgerAt_step i with hSame | ⟨op, effect, hOp, hEffect, hWrote⟩
  · exact absurd ⟨x, hSame ▸ hRow, hSucceeded⟩ hBefore
  · rcases (hWrote.1.attemptLaw k).succeeded x hRow hSucceeded with hOld | ⟨rfl, hPrepared⟩
    · exact absurd ⟨x, hOld, hSucceeded⟩ hBefore
    · obtain ⟨call, archive, replacement, expected, rfl, hId⟩ := effect_eq_compact hEffect
      exact ⟨⟨call, archive, replacement, expected, hOp, hId⟩, hPrepared,
        hWrote.1.revision.1 trivial⟩

theorem compaction_written {call : Call} {archive : ArchiveRef} {replacement : AgentInputState}
    {expected : Option Nat}
    (hOp : run.ops[i]? = some (.commitCompaction call archive replacement expected))
    (hRevision : (run.ledgerAt (i + 1)).revision = (run.ledgerAt i).revision + 1) :
    Store.Wrote run.dump run.newRowid run.session (run.stateAt i) (run.stateAt (i + 1))
      (.commitCompaction call archive replacement expected) (.compact archive.archiveId) := by
  rcases run.ledgerAt_step i with hSame | ⟨op, effect, hOp', hEffect, hWrote⟩
  · rw [hSame] at hRevision
    omega
  · rw [hOp] at hOp'
    cases hOp'
    cases hEffect
    exact hWrote

theorem unknown_latches (hOp : run.ops[i]? = some op) (hUnknown : (run.responseAt i op).Unknown) :
    (run.stateAt (i + 1)).memory.uncertain = true := by
  have hLaw := run.stateAt_law hOp
  generalize run.responseAt i op = response at hLaw hUnknown
  cases hLaw with
  | silent _ _ hQuiet _ => exact absurd hUnknown hQuiet.2
  | refused hKnown _ hLatch =>
    rcases hKnown with hLatched | hNot
    · rw [hLatch]
      exact hLatched
    · exact absurd hUnknown hNot
  | committed _ _ _ _ _ _ =>
    obtain ⟨_, _, hEq⟩ := hUnknown
    cases hEq
  | unknown _ _ hLatch _ _ => exact hLatch

theorem latched_step (hLatched : (run.stateAt i).memory.uncertain = true) :
    (run.stateAt (i + 1)).file = (run.stateAt i).file ∧
      (run.ops[i]? ≠ some .restart → (run.stateAt (i + 1)).memory.uncertain = true) ∧
      ∀ op, run.ops[i]? = some op → op.effect ≠ none → (run.responseAt i op).Refused := by
  cases hOp : run.ops[i]? with
  | none =>
    rw [stateAt_end hOp]
    exact ⟨rfl, fun _ => hLatched, by rintro _ ⟨⟩⟩
  | some op =>
    have hLaw := run.stateAt_law hOp
    have hOpen : (run.stateAt i).memory.uncertain ≠ false := by simp [hLatched]
    generalize hResponse : run.responseAt i op = response at hLaw
    cases hLaw with
    | silent hNone hFile _ hLatch =>
      refine ⟨hFile, fun hOther => ?_, ?_⟩
      · rw [hLatch fun h => hOther (by rw [h])]
        exact hLatched
      · rintro _ ⟨⟩ hSome
        exact absurd hNone hSome
    | refused _ hFile hLatch =>
      refine ⟨hFile, fun _ => hLatch.trans hLatched, ?_⟩
      rintro _ ⟨⟩ _
      exact ⟨_, hResponse⟩
    | committed _ hNotLatched _ _ _ _ | unknown _ hNotLatched _ _ _ =>
      exact absurd hNotLatched hOpen

theorem latched_stays {i j : Nat} (hij : i ≤ j) (hLatched : (run.stateAt i).memory.uncertain = true)
    (hOther : ∀ m, i ≤ m → m < j → run.ops[m]? ≠ some .restart) :
    (run.stateAt j).memory.uncertain = true ∧ (run.stateAt j).file = (run.stateAt i).file := by
  induction j, hij using Nat.le_induction with
  | base => exact ⟨hLatched, rfl⟩
  | succ j hij ih =>
    obtain ⟨hStill, hFile⟩ := ih fun m hi hj => hOther m hi (by omega)
    obtain ⟨hNext, hLatch, -⟩ := latched_step hStill
    exact ⟨hLatch (hOther j hij (by omega)), hNext.trans hFile⟩

theorem publishes_iff {effect : Effect} (h : op.effect = some effect) :
    op.Publishes ↔ Ledger.Publishes effect := by
  constructor
  · rintro ⟨other, hOther, hPublishes⟩
    rw [h] at hOther
    cases hOther
    exact hPublishes
  · exact fun hPublishes => ⟨effect, h, hPublishes⟩

theorem succeeded_iff_compaction (i : Nat) (k : String) :
    (run.SucceededAt (i + 1) k ∧ ¬run.SucceededAt i k) ↔ ∃ call archive replacement expected,
        run.ops[i]? = some (.commitCompaction call archive replacement expected) ∧
          archive.archiveId = k ∧
          (run.ledgerAt (i + 1)).revision = (run.ledgerAt i).revision + 1 := by
  constructor
  · rintro ⟨hAfter, hBefore⟩
    obtain ⟨⟨call, archive, replacement, expected, hOp, hId⟩, -, hRevision⟩ :=
      succeeded_by_compaction hAfter hBefore
    exact ⟨call, archive, replacement, expected, hOp, hId, hRevision⟩
  · rintro ⟨call, archive, replacement, expected, hOp, rfl, hRevision⟩
    have hWrote := compaction_written hOp hRevision
    obtain ⟨hPrepared, hDone⟩ := (hWrote.1.attemptLaw archive.archiveId).compacted rfl
    refine ⟨⟨_, hDone, rfl⟩, ?_⟩
    rintro ⟨x, hRow, hSucceeded⟩
    have hSame := hPrepared.symm.trans hRow
    cases hSame
    cases hSucceeded

theorem compaction_replaces {call : Call} {archive : ArchiveRef} {replacement : AgentInputState}
    {expected : Option Nat}
    (hOp : run.ops[i]? = some (.commitCompaction call archive replacement expected))
    (hRevision : (run.ledgerAt (i + 1)).revision = (run.ledgerAt i).revision + 1) :
    (run.ledgerAt i).attempt archive.archiveId = some ⟨.prepared, some (run.ledgerAt i).revision⟩ ∧
      ∃ before after snapshot db, (run.stateAt i).file = some before ∧
        (run.stateAt (i + 1)).file = some after ∧
        replaceCurrent run.dump run.newRowid before.database run.session replacement =
          .ok (snapshot, db) ∧
        after.database = setSnapshotMetadata db snapshot (run.ledgerAt (i + 1)).revision
          call.operation := by
  have hWrote := compaction_written hOp hRevision
  obtain ⟨hPrepared, -⟩ := (hWrote.1.attemptLaw archive.archiveId).compacted rfl
  obtain ⟨-, timestamp, after, hAfter, -, hReplaced⟩ := hWrote
  obtain ⟨snapshot, db, hReplace, hDatabase⟩ := hReplaced call archive replacement expected rfl
  refine ⟨hPrepared, ?_⟩
  cases hFile : (run.stateAt i).file with
  | none =>
    simp only [Store.ledger, hFile, Option.map_none, Option.getD_none, Ledger.empty] at hPrepared
    cases hPrepared
  | some before =>
    refine ⟨before, after, snapshot, db, rfl, hAfter, ?_, ?_⟩
    · simpa only [Store.opened, hFile, Option.getD_some] using hReplace
    · simpa only [ledgerAt, Store.ledger, hAfter, Option.map_some, Option.getD_some] using hDatabase

theorem prepared_undisturbed {i j : Nat} (hij : i < j) (hNone : (run.ledgerAt i).attempt k = none)
    (hKept : run.Kept k (i + 1) j) (hAfter : run.SucceededAt (j + 1) k)
    (hBefore : ¬run.SucceededAt j k) (m : Nat) (him : i < m) (hmj : m ≤ j) :
    (run.ledgerAt m).revision = (run.ledgerAt (i + 1)).revision := by
  obtain ⟨hCreated, -⟩ := created_prepared hNone (hKept (i + 1) le_rfl hij)
  obtain ⟨y, hRow, hBase⟩ := recorded_stays hij hKept hCreated
  obtain ⟨-, hPrepared, -⟩ := succeeded_by_compaction hAfter hBefore
  rw [hPrepared] at hRow
  cases hRow
  have hEnds : (run.ledgerAt j).revision = (run.ledgerAt (i + 1)).revision := by
    injection hBase
  have hLow : (run.ledgerAt (i + 1)).revision ≤ (run.ledgerAt m).revision :=
    run.ledgerAt_revision_mono him
  have hHigh : (run.ledgerAt m).revision ≤ (run.ledgerAt j).revision :=
    run.ledgerAt_revision_mono hmj
  omega

variable (run)

/-- What a run of the store keeps to. -/
structure Law : Prop where
  /-- A committed write moves the revision by one if it publishes a state, and not at all
  otherwise; its receipt names the new revision. -/
  committed : ∀ i op receipt, run.ops[i]? = some op → run.responseAt i op = .receipt (.ok receipt) →
    receipt.revision = some (run.ledgerAt (i + 1)).revision ∧
      (op.Publishes → (run.ledgerAt (i + 1)).revision = (run.ledgerAt i).revision + 1) ∧
      (¬op.Publishes → (run.ledgerAt (i + 1)).revision = (run.ledgerAt i).revision)
  /-- Without a receipt or an unknown commit the file stays as it was. -/
  unchanged : ∀ i op, run.ops[i]? = some op → ¬(run.responseAt i op).Committed →
    ¬(run.responseAt i op).Unknown → (run.stateAt (i + 1)).file = (run.stateAt i).file
  /-- An unknown commit is a committed write or none. -/
  unknown : ∀ i op, run.ops[i]? = some op → (run.responseAt i op).Unknown →
    (run.ledgerAt (i + 1)).revision = (run.ledgerAt i).revision ∨
      op.Publishes ∧ (run.ledgerAt (i + 1)).revision = (run.ledgerAt i).revision + 1
  /-- A stale write is refused and leaves the file as it was. -/
  stale : ∀ i op e, run.ops[i]? = some op → op.expected = some e → e ≠ (run.ledgerAt i).revision →
    (run.responseAt i op).Refused ∧ (run.stateAt (i + 1)).file = (run.stateAt i).file
  /-- An attempt begins prepared, and records the revision of its preparation. -/
  created : ∀ i k, (run.ledgerAt i).attempt k = none → (run.ledgerAt (i + 1)).attempt k ≠ none →
    (run.ledgerAt (i + 1)).attempt k = some ⟨.prepared, some (run.ledgerAt (i + 1)).revision⟩ ∧
      ∃ call archive original expected,
        run.ops[i]? = some (.beginArchive call archive original expected) ∧ archive.archiveId = k
  /-- A terminal outcome never changes while the attempt is kept. -/
  terminal : ∀ i j k x, i ≤ j → run.Kept k i j → (run.ledgerAt i).attempt k = some x →
    x.outcome ≠ .prepared → (run.ledgerAt j).attempt k = some x
  /-- Nor does the revision it recorded. -/
  recorded : ∀ i j k x, i ≤ j → run.Kept k i j → (run.ledgerAt i).attempt k = some x →
    ∃ y, (run.ledgerAt j).attempt k = some y ∧ y.base = x.base
  /-- An attempt is kept until retention removes it. -/
  forgotten : ∀ i k, (run.ledgerAt i).attempt k ≠ none → (run.ledgerAt (i + 1)).attempt k = none →
    ∃ call request, run.ops[i]? = some (.prune call request)
  /-- An attempt succeeds exactly when its compaction takes effect. -/
  succeeded : ∀ i k, (run.SucceededAt (i + 1) k ∧ ¬run.SucceededAt i k) ↔
    ∃ call archive replacement expected,
      run.ops[i]? = some (.commitCompaction call archive replacement expected) ∧
        archive.archiveId = k ∧
        (run.ledgerAt (i + 1)).revision = (run.ledgerAt i).revision + 1
  /-- Such a compaction found the attempt prepared at the current revision, and put its
  replacement in the place of the current state. -/
  compacted : ∀ i call archive replacement expected,
    run.ops[i]? = some (.commitCompaction call archive replacement expected) →
    (run.ledgerAt (i + 1)).revision = (run.ledgerAt i).revision + 1 →
    (run.ledgerAt i).attempt archive.archiveId = some ⟨.prepared, some (run.ledgerAt i).revision⟩ ∧
      ∃ before after snapshot db, (run.stateAt i).file = some before ∧
        (run.stateAt (i + 1)).file = some after ∧
        replaceCurrent run.dump run.newRowid before.database run.session replacement =
          .ok (snapshot, db) ∧
        after.database = setSnapshotMetadata db snapshot (run.ledgerAt (i + 1)).revision
          call.operation
  /-- Nothing is published between the preparation of an attempt and its success. -/
  undisturbed : ∀ i j k, i < j → (run.ledgerAt i).attempt k = none →
    run.Kept k (i + 1) j → run.SucceededAt (j + 1) k → ¬run.SucceededAt j k →
    ∀ m, i < m → m ≤ j → (run.ledgerAt m).revision = (run.ledgerAt (i + 1)).revision
  /-- After an unknown commit every write is refused until the store is reopened. -/
  latched : ∀ i j op op', i < j → run.ops[i]? = some op → run.ops[j]? = some op' →
    (run.responseAt i op).Unknown → (∀ m, i < m → m < j → run.ops[m]? ≠ some .restart) →
    op'.effect ≠ none →
    (run.responseAt j op').Refused ∧ (run.stateAt (j + 1)).file = (run.stateAt (i + 1)).file

/-- **Every run of the store keeps to its law.** -/
theorem store_run_law : run.Law where
  committed i op receipt hOp hReceipt := by
    have hLaw := run.stateAt_law hOp
    rw [hReceipt] at hLaw
    cases hLaw with
    | silent _ _ hQuiet _ => exact absurd ⟨_, rfl⟩ hQuiet.1
    | committed hEffect _ _ hRevision _ hWrote =>
      rw [publishes_iff hEffect]
      exact ⟨hRevision, hWrote.1.revision⟩
  unchanged i op hOp hNotCommitted hNotUnknown := by
    have hLaw := run.stateAt_law hOp
    generalize run.responseAt i op = response at hLaw hNotCommitted hNotUnknown
    cases hLaw with
    | silent _ hFile _ _ | refused _ hFile _ => exact hFile
    | committed _ _ _ _ _ _ => exact absurd ⟨_, rfl⟩ hNotCommitted
    | unknown _ _ _ _ _ => exact absurd ⟨_, _, rfl⟩ hNotUnknown
  unknown i op hOp _ := by
    rcases run.ledgerAt_step i with hSame | ⟨op', effect, hOp', hEffect, hWrote⟩
    · exact Or.inl (by rw [hSame])
    · rw [hOp] at hOp'
      cases hOp'
      obtain ⟨hPublished, hKept⟩ := hWrote.1.revision
      by_cases hPublishes : Ledger.Publishes effect
      · exact Or.inr ⟨(publishes_iff hEffect).mpr hPublishes, hPublished hPublishes⟩
      · exact Or.inl (hKept hPublishes)
  stale i op e hOp hExpected hStale := by
    have hLaw := run.stateAt_law hOp
    have hGuard : ¬op.expected.all (fun e => e = (run.ledgerAt i).revision) = true := by
      simpa [hExpected] using hStale
    generalize run.responseAt i op = response at hLaw
    cases hLaw with
    | silent hEffect _ _ _ =>
      rw [expected_eq_none hEffect] at hExpected
      cases hExpected
    | refused _ hFile _ => exact ⟨⟨_, rfl⟩, hFile⟩
    | committed _ _ _ _ _ hWrote =>
      obtain ⟨-, timestamp, after, -, hMet, -⟩ := hWrote
      rw [Store.opened_ledger] at hMet
      exact absurd hMet hGuard
    | unknown _ _ _ _ hMet => exact absurd hMet hGuard
  created i k := created_prepared
  terminal i j k x := terminal_stays
  recorded i j k x := recorded_stays
  forgotten i k := forgotten_by_prune
  succeeded := succeeded_iff_compaction
  compacted i call archive replacement expected := compaction_replaces
  undisturbed i j k := prepared_undisturbed
  latched i j op op' hij hOp hOp' hUnknown hOther hWrite := by
    obtain ⟨hLatched, hFile⟩ := latched_stays hij (unknown_latches hOp hUnknown)
      fun m hi hj => hOther m hi hj
    obtain ⟨hNext, -, hRefused⟩ := latched_step hLatched
    exact ⟨hRefused op' hOp' hWrite, hNext.trans hFile⟩

/-- A checkpoint whose commit fails, a reopened store, and the checkpoint again. -/
def reopened : StoreRun where
  dump := sampleDump
  parse := sampleParse
  newRowid := nextRowid
  session := "session"
  start := { file := none }
  ops :=
    [.checkpoint ⟨"first", "now", .uncertain "sync SQLite directory" true⟩
      { metaInfo := { sessionId := "session" } } .stepFinished none,
     .restart,
     .checkpoint ⟨"second", "now", .none⟩
      { metaInfo := { sessionId := "session" } } .stepFinished (some 1)]
  consistent := by rintro _ ⟨⟩

theorem reopened_store_writes :
    (∃ op, reopened.ops[0]? = some op ∧ (reopened.responseAt 0 op).Unknown) ∧
      ∃ op, reopened.ops[2]? = some op ∧ (reopened.responseAt 2 op).Committed ∧
        (reopened.ledgerAt 3).revision = 2 :=
  ⟨⟨_, rfl, _, _, rfl⟩, _, rfl, ⟨_, rfl⟩, rfl⟩

end StoreRun

end SimplexAgent.Persistence
