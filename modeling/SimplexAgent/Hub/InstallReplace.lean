import SimplexAgent.Hub.InstallRecovery

/-!
# Replacing an installation

`replace` under a discipline, operation by operation. The operations up to the removal of the
journal are undone when one of them fails. The three after it, which make the removal durable,
are in the same `try`, and when one of them fails there is no journal left to undo: the call
rejects with the new tree in place.
-/

namespace SimplexAgent.Hub.Install

open Verified.Interruptible Verified.Faults

variable {Id Entry ε : Type} [DecidableEq Id]
variable {old : Publication Entry} {new : List Entry}

def Publication.next (p : Publication Entry) (tree : List Entry) : Publication Entry :=
  ⟨some tree, p.number + 1⟩

/-- An attempt whose tree is verified, in a settled installation. -/
structure Ready (old : Publication Entry) (new : List Entry) (id : Id) (s : Files Id Entry) :
    Prop where
  settled : Settled old s
  unpacked : s.trees (.unpacked id) = some new
  prepared : s.trees (.prepared (some id)) = none
  previous : s.trees (.previous (some id)) = none

/-- Before the old tree is moved. -/
structure Journaled (old : Publication Entry) (new : List Entry) (id : Id)
    (s : Files Id Entry) : Prop where
  pending : Pending old (some id) s
  destination : s.trees .destination = old.tree
  prepared : s.trees (.prepared (some id)) = some new
  previous : s.trees (.previous (some id)) = none

/-- After the old tree was moved, if there was one. -/
structure Vacated (old : Publication Entry) (new : List Entry) (id : Id)
    (s : Files Id Entry) : Prop where
  pending : Pending old (some id) s
  destination : s.trees .destination = none
  prepared : s.trees (.prepared (some id)) = some new
  previous : s.trees (.previous (some id)) = old.tree

/-- The number of the first operation after the journal is removed. -/
def committedAt (hadDestination callback : Bool) : Nat :=
  28 + hadDestination.toNat + callback.toNat

/-- The tree that an operation of `replace` leaves to be recovered. -/
def owed (old : Publication Entry) (new : List Entry) (callback : Bool) (k : Nat) :
    Publication Entry :=
  if k < committedAt old.tree.isSome callback then old else old.next new

theorem owed_before {callback : Bool} {k : Nat} (h : k < committedAt old.tree.isSome callback) :
    owed old new callback k = old := if_pos h

theorem owed_after {callback : Bool} {k : Nat} (h : committedAt old.tree.isSome callback ≤ k) :
    owed old new callback k = old.next new :=
  if_neg (Nat.not_lt.mpr h)

variable {D : Discipline (Fault ε) (Left Id Entry)} {n : Nat}

theorem runs_vacate {id : Id} : Runs D n (n + old.tree.isSome.toNat) (Journaled old new id)
      (vacate id old.tree.isSome : Installer Id Entry ε Unit)
      (fun _ => Vacated old new id) fun _ => Pending old (some id) := by
  unfold vacate
  cases hOld : old.tree with
  | none =>
    rw [if_neg (by simp)]
    exact Runs.pure () fun s hs => ⟨hs.pending, hs.destination.trans hOld, hs.prepared,
      hs.previous.trans hOld.symm⟩
  | some t =>
    rw [if_pos (show (some t).isSome = true from rfl)]
    refine runs_rename (fun s hs => ⟨t, hs.destination.trans hOld, hs.previous, ?_⟩)
      fun s hs => hs.pending
    have hBackup : ((s.setTree .destination none).setTree (.previous (some id)) (some t)).trees
        (.previous (some id)) = some t := setTree_self _ _
    refine ⟨⟨hs.pending.journal, hs.pending.found, hs.pending.published, .moved t hOld hBackup⟩,
      ?_, ?_, hBackup.trans hOld.symm⟩
    · rw [setTree_other _ (by simp), setTree_self]
    · rw [setTree_other _ (by simp), setTree_other _ (by simp)]
      exact hs.prepared

theorem runs_place {id : Id} : Runs D n (n + 1) (Vacated old new id)
      (rename (.prepared (some id)) .destination : Installer Id Entry ε Unit)
      (fun _ s => Pending old (some id) s ∧ s.trees .destination = some new)
      fun _ => Pending old (some id) := by
  refine runs_rename (fun s hs => ⟨new, hs.prepared, hs.destination, ?_⟩) fun s hs => hs.pending
  refine ⟨⟨hs.pending.journal, hs.pending.found, hs.pending.published, ?_⟩, setTree_self _ _⟩
  cases hOld : old.tree with
  | none =>
    refine .fresh rfl ?_ ?_
    · rw [setTree_other _ (by simp), setTree_other _ (by simp)]
      exact hs.previous.trans hOld
    · rw [setTree_other _ (by simp), setTree_self]
  | some t =>
    refine .moved t rfl ?_
    rw [setTree_other _ (by simp), setTree_other _ (by simp)]
    exact hs.previous.trans hOld

theorem runs_commit {id : Id} :
    Runs D n (n + 1) (fun s => Pending old (some id) s ∧ s.trees .destination = some new)
      (operate Files.commit fun _ s => s : Installer Id Entry ε Unit)
      (fun _ => Settled (old.next new)) fun _ => Pending old (some id) := by
  refine Runs.operate (fun s hs => ⟨(), ?_⟩) fun s _ hs => hs.1
  rw [Files.commit, if_pos (by rw [hs.1.journal]; rfl)]
  refine ⟨rfl, rfl, hs.2, ?_⟩
  dsimp only
  rw [hs.2, hs.1.published]
  rfl

omit [DecidableEq Id] in
theorem keeps_callback (callback : Bool) :
    Keeps callback.toNat (beforePublish callback : Installer Id Entry ε Unit) := by
  intro D n P
  cases callback with
  | false => exact Runs.pure () fun _ hs => hs
  | true => exact keeps_touch D n P

/-- What a failure in the part that is rolled back leaves: the old tree can be had, or the new
one was committed. -/
def Owes (old : Publication Entry) (new : List Entry) (callback : Bool) (k : Nat)
    (s : Files Id Entry) : Prop := Safe (owed old new callback k) s

theorem runs_publish {id : Id} (callback : Bool) :
    Runs D 14 (committedAt old.tree.isSome callback + 3) (Journaled old new id)
      (publish id old.tree.isSome callback : Installer Id Entry ε Unit)
      (fun _ => Settled (old.next new)) (Owes old new callback) := by
  have hCount : committedAt old.tree.isSome callback =
      14 + old.tree.isSome.toNat + 3 + 3 + callback.toNat + 1 + 3 + 3 + 1 := by
    unfold committedAt
    omega
  have hBefore : ∀ (k : Nat) (s : Files Id Entry), k < committedAt old.tree.isSome callback →
      Pending old (some id) s → Owes old new callback k s := by
    intro k s hk hs
    rw [Owes, owed_before hk]
    exact Or.inr ⟨_, hs⟩
  have hAfter : ∀ (k : Nat) (s : Files Id Entry), committedAt old.tree.isSome callback ≤ k →
      Settled (old.next new) s → Owes old new callback k s := by
    intro k s hk hs
    rw [Owes, owed_after hk]
    exact Or.inl hs
  unfold publish
  refine Runs.bind ((runs_vacate (n := 14)).conseq (fun _ hs => hs) (fun _ _ hs => hs)
    fun k s _ hk hs => hBefore k s (by omega) hs) (fun _ => ?_) (by omega) (by omega)
  refine Runs.bind (keeps_syncDirectory.runs (14 + old.tree.isSome.toNat)
    fun k s _ hk hs => hBefore k s (by omega) hs.pending) (fun _ => ?_) (by omega) (by omega)
  refine Runs.bind (keeps_syncDirectory.runs (14 + old.tree.isSome.toNat + 3)
    fun k s _ hk hs => hBefore k s (by omega) hs.pending) (fun _ => ?_) (by omega) (by omega)
  refine Runs.bind ((keeps_callback callback).runs (14 + old.tree.isSome.toNat + 3 + 3)
    fun k s _ hk hs => hBefore k s (by omega) hs.pending) (fun _ => ?_) (by omega) (by omega)
  refine Runs.bind ((runs_place (n := 14 + old.tree.isSome.toNat + 3 + 3 + callback.toNat)).conseq
    (fun _ hs => hs) (fun _ _ hs => hs) fun k s _ hk hs => hBefore k s (by omega) hs)
    (fun _ => ?_) (by omega) (by omega)
  refine Runs.bind (keeps_syncDirectory.runs (14 + old.tree.isSome.toNat + 3 + 3 + callback.toNat + 1)
    fun k s _ hk hs => hBefore k s (by omega) hs.1) (fun _ => ?_) (by omega) (by omega)
  refine Runs.bind (keeps_syncDirectory.runs
    (14 + old.tree.isSome.toNat + 3 + 3 + callback.toNat + 1 + 3)
    fun k s _ hk hs => hBefore k s (by omega) hs.1) (fun _ => ?_) (by omega) (by omega)
  refine Runs.bind ((runs_commit
    (n := 14 + old.tree.isSome.toNat + 3 + 3 + callback.toNat + 1 + 3 + 3)).conseq
    (fun _ hs => hs) (fun _ _ hs => hs) fun k s _ hk hs => hBefore k s (by omega) hs)
    (fun _ => ?_) (by omega) (by omega)
  rw [hCount]
  exact keeps_syncDirectory.runs _ fun k s hk _ hs => hAfter k s (by omega) hs

/-- Before the journal is written. -/
structure Staged (old : Publication Entry) (new : List Entry) (id : Id)
    (s : Files Id Entry) : Prop where
  settled : Settled old s
  found : id ∈ s.attempts
  prepared : s.trees (.prepared (some id)) = some new
  previous : s.trees (.previous (some id)) = none

/-- The old tree is safe and where it was. -/
def Untouched (old : Publication Entry) (s : Files Id Entry) : Prop :=
  Safe old s ∧ s.trees .destination = old.tree

theorem Staged.untouched {id : Id} {s : Files Id Entry} (h : Staged old new id s) :
    Untouched old s :=
  ⟨Or.inl h.settled, h.settled.destination⟩

theorem Journaled.untouched {id : Id} {s : Files Id Entry} (h : Journaled old new id s) :
    Untouched old s :=
  ⟨Or.inr ⟨_, h.pending⟩, h.destination⟩

theorem runs_writeJournal (old : Publication Entry) (new : List Entry) (id : Id) :
    Runs D 3 14 (Staged old new id)
      (writeJournal (.record old.tree.isSome (some id)) : Installer Id Entry ε Unit)
      (fun _ => Journaled old new id) fun _ => Untouched old := by
  have hStaged : ∀ (k : Nat) (s : Files Id Entry), Staged old new id s → Untouched old s :=
    fun _ _ hs => hs.untouched
  unfold writeJournal
  refine Runs.bind (keeps_touch.runs 3 fun k s _ _ hs => hStaged k s hs) (fun _ => ?_) (by omega)
    (by omega)
  refine Runs.finallyDo (m := 12) (c := 2) ?_ (keeps_touch.seq keeps_touch) (by omega)
    fun _ _ s _ _ hs => hs.untouched
  refine Runs.bind (keeps_touch.runs 4 fun k s _ _ hs => hStaged k s hs) (fun _ => ?_) (by omega)
    (by omega)
  refine Runs.bind (keeps_touch.runs 5 fun k s _ _ hs => hStaged k s hs) (fun _ => ?_) (by omega)
    (by omega)
  refine Runs.bind (keeps_touch.runs 6 fun k s _ _ hs => hStaged k s hs) (fun _ => ?_) (by omega)
    (by omega)
  refine Runs.bind (keeps_touch.runs 7 fun k s _ _ hs => hStaged k s hs) (fun _ => ?_) (by omega)
    (by omega)
  refine Runs.bind (Runs.operate (n := 8) (Q := fun _ => Journaled old new id)
    (fun s hs => ⟨(), rfl, ?_⟩) fun s _ hs => hs.untouched) (fun _ => ?_) (by omega) (by omega)
  · refine ⟨⟨rfl, ?_, hs.settled.published, .kept hs.previous hs.settled.destination⟩,
      hs.settled.destination, hs.prepared, hs.previous⟩
    simpa using hs.found
  · exact keeps_syncDirectory.runs 9 fun k s _ _ hs => hs.untouched

variable [DecidableEq Entry]

/-- What a `replace` that was not carried out leaves: the tree it owes can be had, and it is at
the destination if nothing else went wrong. -/
def Rejected (wild : Prop) (p : Publication Entry) (s : Files Id Entry) : Prop :=
  Safe p s ∧ (¬wild → s.trees .destination = p.tree)

theorem runs_replace (old : Publication Entry) (new : List Entry) (id : Id) (callback : Bool) :
    Runs D 0 (committedAt old.tree.isSome callback + 3) (Ready old new id)
      (replace id callback : Installer Id Entry ε Unit) (fun _ => Settled (old.next new))
      fun k => Rejected D.wild (owed old new callback k) := by
  have hEarly : ∀ (k : Nat) (s : Files Id Entry), k < 14 → Untouched old s →
      Rejected D.wild (owed old new callback k) s := by
    intro k s hk hs
    rw [owed_before (by unfold committedAt; omega)]
    exact ⟨hs.1, fun _ => hs.2⟩
  have hReady : ∀ s : Files Id Entry, Ready old new id s → Untouched old s :=
    fun s hs => ⟨Or.inl hs.settled, hs.settled.destination⟩
  have hTotal : 14 ≤ committedAt old.tree.isSome callback + 3 := by
    unfold committedAt
    omega
  unfold replace
  refine Runs.bind (Runs.operate (n := 0)
    (Q := fun _ s => Ready old new id s ∧ id ∈ s.attempts) (fun s hs => ⟨(), rfl, ?_⟩)
    fun s _ hs => hEarly 0 s (by omega) (hReady s hs)) (fun _ => ?_) (by omega) (by omega)
  · refine ⟨⟨⟨hs.settled.journal, hs.settled.destination, hs.settled.published⟩, hs.unpacked,
      hs.prepared, hs.previous⟩, ?_⟩
    dsimp only
    split
    · assumption
    · exact List.mem_cons_self
  refine Runs.bind (runs_rename (n := 1) (Q := fun _ => Staged old new id)
    (fun s hs => ⟨new, hs.1.unpacked, hs.1.prepared, ?_⟩)
    fun s hs => hEarly 1 s (by omega) (hReady s hs.1)) (fun _ => ?_) (by omega) (by omega)
  · refine ⟨⟨hs.1.settled.journal, ?_, hs.1.settled.published⟩, hs.2, setTree_self _ _, ?_⟩
    · rw [setTree_other _ (by simp), setTree_other _ (by simp)]
      exact hs.1.settled.destination
    · rw [setTree_other _ (by simp), setTree_other _ (by simp)]
      exact hs.1.previous
  refine Runs.bind (runs_exists _ (n := 2) (P := Staged old new id)
    fun s hs => hEarly 2 s (by omega) hs.untouched) (fun had => ?_) (by omega) (by omega)
  by_cases hHad : had = old.tree.isSome
  · rw [hHad]
    refine Runs.bind ((runs_writeJournal old new id).conseq (fun s hs => hs.1)
      (fun _ _ hs => hs) fun k s _ hk hs => hEarly k s (by omega) hs) (fun _ => ?_) (by omega) hTotal
    refine (runs_publish callback).handle_reraise (c := 1) (S := fun k => Settled (owed old new callback k))
      (fun k e _ _ => (runs_recover (D.steady_after k e) _).handle_rename (D.steady_after k e))
      (fun k s hs => ⟨Or.inl hs, fun _ => hs.destination⟩)
      (fun hWild k s hs => ⟨hs, fun hTame => absurd hWild hTame⟩)
      fun hWild k s hs => ⟨hs, fun hTame => absurd hWild hTame⟩
  · refine Runs.absurd fun s hs => hHad ?_
    rw [← hs.2, hs.1.settled.destination]

/-- What a caller may rely on: a call that rejects does so with the error that was raised and has
left the destination as it was, and one that resolves has the new tree in place. -/
def AllOrNothing (e : Fault ε) (before : Files Id Entry) (new : List Entry) :
    Except (Interrupt (Fault ε)) Unit × Machine (Files Id Entry) (Fault ε) (Left Id Entry) → Prop
  | (.ok _, w) => w.state.trees .destination = some new ∧ w.state.journal = none
  | (.error (.failure raised), w) =>
    raised = e ∧ w.state.trees .destination = before.trees .destination
  | (.error .halted, _) => False

/--
**One failure in `replace`**: the call is all or nothing unless the operation that fails is one of
the three that make the removal of the journal durable, and the trees differ.
-/
theorem replace_allOrNothing {old : Publication Entry} {new : List Entry} {id : Id}
    {before : Files Id Entry} (hReady : Ready old new id before) (callback : Bool) (k : Nat)
    (e : Fault ε) (part : Left Id Entry) :
    AllOrNothing e before new ((replace id callback : Installer Id Entry ε Unit).exec
        ⟨before, List.replicate k .done ++ [.fails e part]⟩) ↔
      ¬(committedAt old.tree.isSome callback ≤ k ∧ k < committedAt old.tree.isSome callback + 3) ∨
        old.tree = some new := by
  have hRun := runs_replace (D := Discipline.oneFault k e part) old new id callback ⟨before, List.replicate k .done ++ [.fails e part]⟩
    ⟨⟨Nat.zero_le k, rfl⟩, hReady⟩
  cases hExec : (replace id callback : Installer Id Entry ε Unit).exec
      ⟨before, List.replicate k .done ++ [.fails e part]⟩ with
  | mk result w =>
    rw [hExec] at hRun
    cases result with
    | ok _ =>
      obtain ⟨⟨hLe, -⟩, hSettled⟩ := hRun
      refine iff_of_true ⟨hSettled.destination, hSettled.journal⟩ (Or.inl ?_)
      omega
    | error interrupt =>
      cases interrupt with
      | halted => exact hRun.1.elim
      | failure raised =>
        obtain ⟨j, -, hTotal, hFault, -, hDestination⟩ := hRun
        obtain ⟨rfl, rfl, -⟩ := hFault.resolve_right fun h => h
        have hLeft := hDestination fun h => h
        simp only [AllOrNothing, true_and, hLeft, hReady.settled.destination]
        by_cases hEarly : j < committedAt old.tree.isSome callback
        · rw [owed_before hEarly]
          exact iff_of_true rfl (Or.inl fun h => Nat.not_le.mpr hEarly h.1)
        · rw [owed_after (Nat.not_lt.mp hEarly)]
          constructor
          · intro hSame
            exact Or.inr hSame.symm
          · intro h
            rcases h with hNot | hSame
            · exact absurd ⟨Nat.not_lt.mp hEarly, hTotal⟩ hNot
            · exact hSame.symm

def firstInstallation : Files Unit Nat where
  trees := Function.update (fun _ => none) (.unpacked ()) (some [1])
  attempts := [()]
  journal := none
  published := ⟨none, 0⟩

theorem ready_firstInstallation : Ready ⟨none, 0⟩ [1] () firstInstallation where
  settled := ⟨rfl, rfl, rfl⟩
  unpacked := rfl
  prepared := rfl
  previous := rfl

theorem replace_allOrNothing_first : AllOrNothing (.system ()) firstInstallation [1]
      ((replace () false : Installer Unit Nat Unit Unit).exec ⟨firstInstallation,
        List.replicate 27 .done ++ [.fails (.system ()) fun _ => none]⟩) :=
  (replace_allOrNothing ready_firstInstallation false 27 (.system ()) fun _ => none).mpr
    (Or.inl (by decide))

/-- The journal is removed, its directory cannot be synced, and the call rejects with the new tree
in place. -/
theorem replace_rejects_committed :
    ((replace () false : Installer Unit Nat Unit Unit).exec ⟨firstInstallation,
        List.replicate 28 .done ++ [.fails (.system ()) fun _ => none]⟩).1 =
        .error (.failure (.system ())) ∧
      firstInstallation.trees .destination = none ∧
      ((replace () false : Installer Unit Nat Unit Unit).exec ⟨firstInstallation,
        List.replicate 28 .done ++ [.fails (.system ()) fun _ => none]⟩).2.state.trees
          .destination = some [1] := ⟨rfl, rfl, rfl⟩

end SimplexAgent.Hub.Install
