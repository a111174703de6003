import SimplexAgent.Hub.InstallReplace

/-!
# Installations that are cut off

Any number of transactions, each in a process that may be cut off between two operations or in
the middle of a removal, and whose operations may fail. What was published can always be had, and
a transaction that is opened finds it at the destination.
-/

namespace SimplexAgent.Hub.Install

open Verified.Interruptible Verified.Faults

variable {Id Entry ε : Type} [DecidableEq Id] [DecidableEq Entry]

/-! ## The parts of a transaction -/

variable {p : Publication Entry} {s : Files Id Entry}

theorem withstands_recover (p : Publication Entry) :
    Withstands (Safe p) (recover : Installer Id Entry ε Unit) (fun _ => Settled p) (Safe p) :=
  .of_runs (runs_recover Discipline.steady_anything p) fun _ _ hs => hs

omit [DecidableEq Id] [DecidableEq Entry] in
theorem Settled.congr {s t : Files Id Entry} (h : Settled p s) (hJournal : t.journal = s.journal)
    (hDestination : t.trees .destination = s.trees .destination)
    (hPublished : t.published = s.published) : Settled p t where
  journal := hJournal.trans h.journal
  destination := hDestination.trans h.destination
  published := hPublished.trans h.published

theorem settled_removeEntry (h : Settled p s) (entry : WorkEntry Id) (left : Left Id Entry) :
    Settled p (Files.removeEntry entry s : Except (Fault ε) Unit × Files Id Entry).2 ∧
      Settled p (s.removeEntryPart entry left) := by
  cases entry with
  | attempt id =>
    exact ⟨h.congr rfl rfl rfl, h.congr rfl rfl rfl⟩
  | prepared | previous =>
    exact ⟨h.congr rfl (setTree_other _ (by simp)) rfl,
      h.congr rfl (setTree_other _ (by simp)) rfl⟩

theorem withstands_cleanup (p : Publication Entry) :
    Withstands (Settled p) (cleanupObsolete : Installer Id Entry ε Unit) (fun _ => Settled p)
      (Settled p) := by
  unfold cleanupObsolete
  refine Withstands.bind (Q := fun _ => Settled p) (Withstands.handle (M := Settled p)
    ((Withstands.look Files.workEntries).conseq (fun _ hs => hs) (fun _ _ hs => hs.1)
      fun _ hs => hs) (fun _ hs => hs) fun e => Withstands.pure [] fun _ hs => hs) fun entries => ?_
  refine Withstands.forM (fun entry => ?_) entries
  refine Withstands.handle (M := Settled p) (Withstands.operate ?_ ?_ ?_) (fun _ hs => hs)
    fun e => Withstands.pure () fun _ hs => hs
  · intro s _ hs _
    exact (settled_removeEntry hs entry fun _ => none).1
  · intro s _ hs _
    exact (settled_removeEntry hs entry fun _ => none).1
  · intro s left hs
    exact (settled_removeEntry (ε := ε) hs entry left).2

theorem withstands_close (p : Publication Entry) :
    Withstands (Safe p) (close : Installer Id Entry ε Unit) (fun _ => Safe p) (Safe p) := by
  unfold close
  refine Withstands.finallyDo (M := Safe p) (Q := fun _ => Safe p) ?_ (fun _ hs => hs)
    (Withstands.keeps keeps_touch) fun _ _ hs => hs
  refine Withstands.bind
    (Withstands.look (P := Safe p) fun s : Files Id Entry => s.journal.isSome) fun present => ?_
  cases present with
  | true =>
    rw [if_pos rfl]
    exact Withstands.pure () fun s hs => hs.1
  | false =>
    rw [if_neg (by decide)]
    refine (withstands_cleanup p).conseq (fun s hs => ?_) (fun _ _ hs => Or.inl hs)
      fun _ hs => Or.inl hs
    rcases hs.1 with hSettled | ⟨a, hPending⟩
    · exact hSettled
    · rw [hPending.journal] at hs
      cases hs.2

theorem withstands_open (p : Publication Entry) :
    Withstands (Safe p) (openTransaction : Installer Id Entry ε Unit) (fun _ => Settled p)
      (Safe p) := by
  unfold openTransaction
  refine Withstands.bind (Withstands.keeps keeps_touch) fun _ => ?_
  refine Withstands.bind (Withstands.keeps keeps_touch) fun _ => ?_
  refine Withstands.bind (Withstands.keeps keeps_touch) fun _ => ?_
  refine Withstands.bind (Withstands.keeps keeps_touch) fun _ => ?_
  refine Withstands.bind (Withstands.keeps keeps_touch) fun _ => ?_
  refine Withstands.handle (M := Safe p) ?_ (fun _ hs => hs) fun e => ?_
  · exact Withstands.bind (withstands_recover p) fun _ =>
      (withstands_cleanup p).conseq (fun _ hs => hs) (fun _ _ hs => hs) fun _ hs => Or.inl hs
  · exact Withstands.bind (withstands_close p) fun _ => Triple.raise e fun _ hw => hw

theorem withstands_prepare (p : Publication Entry) (id : Id) (tree : List Entry) :
    Withstands (Settled p) (prepare id tree : Installer Id Entry ε Unit)
      (fun _ => Ready p tree id) (Settled p) := by
  unfold prepare
  refine Withstands.bind (Q := fun _ s => Settled p s ∧ s.trees (.prepared (some id)) = none ∧
    s.trees (.previous (some id)) = none) (Withstands.operate ?_ ?_ fun s _ hs => hs) fun _ =>
    Withstands.operate ?_ ?_ ?_
  · intro s a hs hOk
    unfold Files.makeAttempt at hOk ⊢
    split at hOk
    · cases hOk
    · rename_i hNew
      rw [if_neg hNew]
      exact ⟨hs.congr rfl rfl rfl, if_pos rfl, if_pos rfl⟩
  · intro s e hs hError
    unfold Files.makeAttempt at hError ⊢
    split at hError
    · rename_i hOld
      rw [if_pos hOld]
      exact hs
    · cases hError
  · intro s a hs _
    refine ⟨hs.1.congr rfl (setTree_other _ (by simp)) rfl, setTree_self _ _, ?_, ?_⟩
    · rw [setTree_other _ (by simp)]
      exact hs.2.1
    · rw [setTree_other _ (by simp)]
      exact hs.2.2
  · intro s e hs hError
    cases hError
  · intro s left hs
    exact hs.1.congr rfl (setTree_other _ (by simp)) rfl

/-- What was published before a transaction, or the tree that it installs. -/
def Follows (p : Publication Entry) (attempt : Attempt Id Entry) (s : Files Id Entry) : Prop :=
  Safe p s ∨ ∃ tree, attempt.tree = some tree ∧ Safe (p.next tree) s

theorem withstands_installTree (p : Publication Entry) (attempt : Attempt Id Entry) :
    Withstands (Settled p) (installTree attempt : Installer Id Entry ε Unit)
      (fun _ => Follows p attempt) (Follows p attempt) := by
  unfold installTree
  cases hTree : attempt.tree with
  | none => exact Withstands.pure () fun s hs => Or.inl (Or.inl hs)
  | some tree =>
    refine Withstands.bind ((withstands_prepare p attempt.id tree).conseq (fun _ hs => hs)
      (fun _ _ hs => hs) fun _ hs => Or.inl (Or.inl hs)) fun _ => ?_
    refine (Withstands.of_runs (runs_replace p tree attempt.id attempt.callback)
      (R := Follows p attempt) fun k s hs => ?_).conseq (fun _ hs => hs)
      (fun _ s hs => Or.inr ⟨tree, hTree, Or.inl hs⟩) fun _ hs => hs
    have hSafe := hs.1
    unfold owed at hSafe
    split at hSafe
    · exact Or.inl hSafe
    · exact Or.inr ⟨tree, hTree, hSafe⟩

theorem withstands_transact (p : Publication Entry) (attempt : Attempt Id Entry) :
    Withstands (Safe p) (transact attempt : Installer Id Entry ε Unit)
      (fun _ => Follows p attempt) (Follows p attempt) := by
  have hClose : Withstands (Follows p attempt) (close : Installer Id Entry ε Unit)
      (fun _ => Follows p attempt) (Follows p attempt) := by
    refine Triple.of_state fun w hw => ?_
    rcases hw with hSame | ⟨tree, hTree, hNew⟩
    · have hRun : Withstands (Safe p) (close : Installer Id Entry ε Unit)
          (fun _ => Follows p attempt) (Follows p attempt) :=
        (withstands_close p).conseq (fun _ hs => hs) (fun _ _ hs => Or.inl hs)
          fun _ hs => Or.inl hs
      refine Triple.pre hRun fun t ht => ?_
      rw [ht]
      exact hSame
    · have hRun : Withstands (Safe (p.next tree)) (close : Installer Id Entry ε Unit)
          (fun _ => Follows p attempt) (Follows p attempt) :=
        (withstands_close (p.next tree)).conseq (fun _ hs => hs)
          (fun _ _ hs => Or.inr ⟨tree, hTree, hs⟩) fun _ hs => Or.inr ⟨tree, hTree, hs⟩
      refine Triple.pre hRun fun t ht => ?_
      rw [ht]
      exact hNew
  unfold transact
  refine Withstands.bind ((withstands_open p).conseq (fun _ hs => hs) (fun _ _ hs => hs)
    fun _ hs => Or.inl hs) fun _ => ?_
  exact Withstands.finallyDo (withstands_installTree p attempt) (fun _ hs => hs) hClose
    fun _ _ hs => hs

/-! ## Any number of transactions -/

/-- Files that no transaction has left in the middle of a publication, with anything else in the
work directory. -/
def undisturbed (trees : Slot Id → Option (List Entry)) (attempts : List Id) :
    Files Id Entry where
  trees := trees
  attempts := attempts
  journal := none
  published := ⟨trees .destination, 0⟩

/-- While there is a journal it names an attempt, and the published tree is complete at the
destination or in the backup of this attempt. -/
def KeepsOld (s : Files Id Entry) : Prop :=
  match s.journal with
  | none => True
  | some .unreadable => False
  | some (.record had attempt) => had = s.published.tree.isSome ∧ ∀ t, s.published.tree = some t →
        s.trees .destination = some t ∨ s.trees (.previous attempt) = some t

/-- When a transaction is opened, the published tree is at the destination, or nothing if none was
published, and no publication is pending. -/
def OpensTo (s : Files Id Entry) (outcomes : List (Outcome (Fault ε) (Left Id Entry))) : Prop :=
  match (openTransaction : Installer Id Entry ε Unit).exec ⟨s, outcomes⟩ with
  | (.ok _, w) => w.state.trees .destination = s.published.tree ∧
      w.state.published = s.published ∧ w.state.journal = none
  | (.error _, _) => True

omit [DecidableEq Entry] in
theorem Safe.keepsOld (h : Safe p s) : KeepsOld s := by
  unfold KeepsOld
  cases hJournal : s.journal with
  | none => trivial
  | some record =>
    have hComplete : ∀ t, p.tree = some t → s.trees .destination = some t ∨
        ∃ had a, record = .record had a ∧ s.trees (.previous a) = some t :=
      fun t hOld => h.complete hJournal hOld
    rcases h with hSettled | ⟨a, hPending⟩
    · rw [hSettled.journal] at hJournal
      cases hJournal
    · rw [hPending.journal, Option.some.injEq] at hJournal
      rw [← hJournal, hPending.published]
      refine ⟨rfl, fun t hOld => ?_⟩
      rcases hComplete t hOld with hLive | ⟨had, a', hRecord, hBackup⟩
      · exact Or.inl hLive
      · rw [← hJournal] at hRecord
        injection hRecord with _ hSame
        exact Or.inr (hSame ▸ hBackup)

theorem Safe.opensTo (h : Safe p s) (outcomes : List (Outcome (Fault ε) (Left Id Entry))) :
    OpensTo s outcomes := by
  have hRun := withstands_open p ⟨s, outcomes⟩ h
  unfold OpensTo
  cases hExec : (openTransaction : Installer Id Entry ε Unit).exec ⟨s, outcomes⟩ with
  | mk result w =>
    rw [hExec] at hRun
    cases result with
    | error _ => trivial
    | ok _ =>
      have hSettled : Settled p w.state := hRun
      rw [h.published]
      exact ⟨hSettled.destination, hSettled.published, hSettled.journal⟩

theorem transact_follows (h : Safe p s) (attempt : Attempt Id Entry)
    (outcomes : List (Outcome (Fault ε) (Left Id Entry))) : Follows p attempt
      ((transact attempt : Installer Id Entry ε Unit).exec ⟨s, outcomes⟩).2.state := by
  have hRun := withstands_transact p attempt ⟨s, outcomes⟩ h
  cases hExec : (transact attempt : Installer Id Entry ε Unit).exec ⟨s, outcomes⟩ with
  | mk result w =>
    rw [hExec] at hRun
    cases result with
    | ok _ => exact hRun
    | error interrupt =>
      cases interrupt with
      | failure _ | halted => exact hRun

theorem transactions_safe (h : Safe p s)
    (runs : List (Attempt Id Entry × List (Outcome (Fault ε) (Left Id Entry)))) :
    ∃ q, Safe q (transactions s runs) := by
  induction runs generalizing p s with
  | nil => exact ⟨p, h⟩
  | cons run rest ih =>
    rcases transact_follows h run.1 run.2 with hSame | ⟨tree, -, hNew⟩
    · exact ih hSame
    · exact ih hNew

/--
**Interrupted installations**: after any number of transactions, each of which may fail or be cut
off at any of its operations, one more transaction leaves the publication as it was, or has
removed the journal and published its tree. Wherever it is cut off, the published tree is complete
while there is a journal, and the next transaction that is opened finds it at the destination.
-/
theorem transactions_recover (trees : Slot Id → Option (List Entry)) (attempts : List Id)
    (runs : List (Attempt Id Entry × List (Outcome (Fault ε) (Left Id Entry))))
    (attempt : Attempt Id Entry) (outcomes later : List (Outcome (Fault ε) (Left Id Entry))) :
    let before := transactions (undisturbed trees attempts) runs
    let after := ((transact attempt : Installer Id Entry ε Unit).exec ⟨before, outcomes⟩).2.state
    KeepsOld after ∧ OpensTo after later ∧ (after.published = before.published ∨
        ∃ tree, attempt.tree = some tree ∧ after.published = before.published.next tree) := by
  intro before after
  have hStart : Safe ⟨trees .destination, 0⟩ (undisturbed trees attempts) :=
    Or.inl ⟨rfl, rfl, rfl⟩
  obtain ⟨p, hSafe⟩ := transactions_safe hStart runs
  rw [hSafe.published]
  rcases transact_follows hSafe attempt outcomes with hSame | ⟨tree, hTree, hNew⟩
  · exact ⟨hSame.keepsOld, hSame.opensTo later, Or.inl hSame.published⟩
  · exact ⟨hNew.keepsOld, hNew.opensTo later, Or.inr ⟨tree, hTree, hNew.published⟩⟩

end SimplexAgent.Hub.Install
