import SimplexAgent.Hub.InstallTransaction

/-!
# Recovery of an installation

While there is a journal, the files say how to get back to the tree that was published: it has not
been moved, or it is the backup of the attempt, or there was none and what is at the destination
was never committed. Every operation of a recovery keeps one of the three, so a recovery may be cut
off anywhere and repeated, and one that gets to its end leaves the published tree at the
destination and no journal.
-/

namespace SimplexAgent.Hub.Install

open Verified.Interruptible Verified.Faults

variable {Id Entry ε : Type} [DecidableEq Id]
variable {p : Publication Entry} {a : Option Id}
variable {s : Files Id Entry}

/-- No transaction is pending, and what was published is at the destination. -/
structure Settled (p : Publication Entry) (s : Files Id Entry) : Prop where
  journal : s.journal = none
  destination : s.trees .destination = p.tree
  published : s.published = p

/-- The ways back to what was published. -/
inductive Recoverable (p : Option (List Entry)) (a : Option Id)
    (trees : Slot Id → Option (List Entry)) : Prop where
  /-- It was not moved, or is back. -/
  | kept (backup : trees (.previous a) = none) (destination : trees .destination = p)
  /-- It is the backup. -/
  | moved (t : List Entry) (had : p = some t) (backup : trees (.previous a) = some t)
  /-- There was none, and the prepared tree is gone from where it was prepared. -/
  | fresh (had : p = none) (backup : trees (.previous a) = none)
      (prepared : trees (.prepared a) = none)

structure Pending (p : Publication Entry) (a : Option Id) (s : Files Id Entry) : Prop where
  journal : s.journal = some (.record p.tree.isSome a)
  found : a.all (· ∈ s.attempts) = true
  published : s.published = p
  recoverable : Recoverable p.tree a s.trees

/-- What is published can be had. -/
def Safe (p : Publication Entry) (s : Files Id Entry) : Prop :=
  Settled p s ∨ ∃ a, Pending p a s

theorem Safe.published (h : Safe p s) : s.published = p := by
  rcases h with hSettled | ⟨a, hPending⟩
  · exact hSettled.published
  · exact hPending.published

theorem Safe.complete (h : Safe p s) {record : Journal Id} (hJournal : s.journal = some record)
    {t : List Entry} (hOld : p.tree = some t) : s.trees .destination = some t ∨
      ∃ had a, record = .record had a ∧ s.trees (.previous a) = some t := by
  rcases h with hSettled | ⟨a, hPending⟩
  · rw [hSettled.journal] at hJournal
    cases hJournal
  · rw [hPending.journal] at hJournal
    cases hPending.recoverable with
    | kept hBackup hDestination => exact Or.inl (hDestination.trans hOld)
    | moved t' hHad hBackup =>
      rw [hHad, Option.some.injEq] at hOld
      rw [← hOld]
      exact Or.inr ⟨_, a, (Option.some.inj hJournal).symm, hBackup⟩
    | fresh hHad => rw [hHad] at hOld; cases hOld

theorem Pending.backup (h : Pending p a s) (hBackup : (s.trees (.previous a)).isSome = true) :
    ∃ t, p.tree = some t ∧ s.trees (.previous a) = some t := by
  cases h.recoverable with
  | kept hNone | fresh _ hNone => rw [hNone] at hBackup; cases hBackup
  | moved t hHad hSome => exact ⟨t, hHad, hSome⟩

theorem Pending.noBackup (h : Pending p a s) (hBackup : (s.trees (.previous a)).isSome = false) :
    s.trees .destination = p.tree ∨ p.tree = none ∧ s.trees (.prepared a) = none := by
  cases h.recoverable with
  | kept _ hDestination => exact Or.inl hDestination
  | moved t _ hSome => rw [hSome] at hBackup; cases hBackup
  | fresh hNone _ hPrepared => exact Or.inr ⟨hNone, hPrepared⟩

/-! ## Files -/

section Files

variable {s : Files Id Entry}

variable (slot : Slot Id)

@[simp] theorem setTree_self (tree : Option (List Entry)) :
    (s.setTree slot tree).trees slot = tree := Function.update_self ..

theorem setTree_other {slot other : Slot Id} (tree : Option (List Entry)) (h : other ≠ slot) :
    (s.setTree slot tree).trees other = s.trees other := Function.update_of_ne h ..

theorem rename_ok {source target : Slot Id} {t : List Entry} (hSource : s.trees source = some t)
    (hTarget : s.trees target = none) :
    (Files.rename source target s : Except (Fault ε) Unit × Files Id Entry) =
      (.ok (), (s.setTree source none).setTree target (some t)) := by
  simp [Files.rename, hSource, hTarget]

theorem Pending.setDestination {p : Publication Entry} {a : Option Id} {t : List Entry}
    (h : Pending p a s) (hHad : p.tree = some t) (hBackup : s.trees (.previous a) = some t)
    (tree : Option (List Entry)) : Pending p a (s.setTree .destination tree) where
  journal := h.journal
  found := h.found
  published := h.published
  recoverable := .moved t hHad (by rw [setTree_other _ (by simp)]; exact hBackup)

end Files

/-! ## The programs -/

variable [DecidableEq Entry] {D : Discipline (Fault ε) (Left Id Entry)} {n : Nat}

omit [DecidableEq Id] [DecidableEq Entry] in
theorem keeps_syncDirectory : Keeps 3 (syncDirectory Id Entry ε) := by
  intro D n P
  refine Runs.bind (keeps_touch D n P) (fun _ => ?_) (by omega) (by omega)
  exact Runs.finallyDo (m := n + 1 + 1) (keeps_touch D (n + 1) P) keeps_touch (by omega)
    fun _ _ _ _ _ hs => hs

omit [DecidableEq Entry] in
theorem runs_rename {source target : Slot Id} {P : Files Id Entry → Prop}
    {Q : Unit → Files Id Entry → Prop} {R : Nat → Files Id Entry → Prop}
    (hMove : ∀ s, P s → ∃ t, s.trees source = some t ∧ s.trees target = none ∧
      Q () ((s.setTree source none).setTree target (some t)))
    (hKeep : ∀ s, P s → R n s) :
    Runs D n (n + 1) P (rename source target : Installer Id Entry ε Unit) Q R := by
  refine Runs.operate (fun s hs => ?_) fun s _ hs => hKeep s hs
  obtain ⟨t, hSource, hTarget, hQ⟩ := hMove s hs
  rw [rename_ok hSource hTarget]
  exact ⟨(), rfl, hQ⟩

theorem runs_removeDestination {P Q R : Files Id Entry → Prop}
    (hRemove : ∀ s, P s → Q (s.setTree .destination none))
    (hPart : ∀ s tree, P s → R (s.setTree .destination tree)) :
    Runs D n (n + 1) P (removeTree .destination : Installer Id Entry ε Unit) (fun _ => Q)
      fun _ => R :=
  Runs.operate (fun s hs => ⟨(), rfl, hRemove s hs⟩) fun s _ hs => hPart s _ hs

theorem runs_restoreBackup {t : List Entry} (hHad : p.tree = some t) :
    Runs D n (n + 9) (fun s => Pending p a s ∧ s.trees (.previous a) = some t)
      (do
        touch
        removeTree .destination
        rename (.previous a) .destination
        syncDirectory Id Entry ε
        syncDirectory Id Entry ε)
      (fun _ s => Pending p a s ∧ s.trees .destination = p.tree) fun _ => Pending p a := by
  refine Runs.bind ((keeps_touch D n _).conseq (fun _ hs => hs) (fun _ _ hs => hs)
    fun _ _ _ _ hs => hs.1) (fun _ => ?_) (by omega) (by omega)
  refine Runs.bind (runs_removeDestination
    (Q := fun s => (Pending p a s ∧ s.trees (.previous a) = some t) ∧ s.trees .destination = none)
    (fun s hs => ?_) fun s tree hs => hs.1.setDestination hHad hs.2 tree) (fun _ => ?_) (by omega)
    (by omega)
  · refine ⟨⟨hs.1.setDestination hHad hs.2 none, ?_⟩, setTree_self _ _⟩
    rw [setTree_other _ (by simp)]
    exact hs.2
  refine Runs.bind (runs_rename (Q := fun _ s => Pending p a s ∧ s.trees .destination = p.tree)
    (fun s hs => ⟨t, hs.1.2, hs.2, ?_⟩) fun s hs => hs.1.1) (fun _ => ?_) (by omega) (by omega)
  · obtain ⟨⟨hPending, -⟩, -⟩ := hs
    have hDestination : ((s.setTree (.previous a) none).setTree .destination (some t)).trees
        .destination = p.tree := by rw [setTree_self, hHad]
    refine ⟨⟨hPending.journal, hPending.found, hPending.published, .kept ?_ hDestination⟩,
      hDestination⟩
    rw [setTree_other _ (by simp), setTree_self]
  exact (keeps_syncDirectory.seq keeps_syncDirectory D (n + 3) _).conseq (fun _ hs => hs)
    (fun _ _ hs => hs) fun _ _ _ _ hs => hs.1

theorem runs_takeAway (hHad : p.tree = none) :
    Runs D n (n + 4) (fun s => Pending p a s ∧ s.trees (.prepared a) = none)
      (do
        removeTree .destination
        syncDirectory Id Entry ε)
      (fun _ s => Pending p a s ∧ s.trees .destination = p.tree) fun _ => Pending p a := by
  have hFresh : ∀ (s : Files Id Entry) tree, Pending p a s ∧ s.trees (.prepared a) = none →
      Pending p a (s.setTree .destination tree) := by
    intro s tree hs
    obtain ⟨hPending, hPrepared⟩ := hs
    refine ⟨hPending.journal, hPending.found, hPending.published, .fresh hHad ?_ ?_⟩
    · rw [setTree_other _ (by simp)]
      cases hPending.recoverable with
      | kept hBackup | fresh _ hBackup => exact hBackup
      | moved t hSome => rw [hHad] at hSome; cases hSome
    · rw [setTree_other _ (by simp)]
      exact hPrepared
  refine Runs.bind (runs_removeDestination
    (Q := fun s => Pending p a s ∧ s.trees .destination = p.tree) (fun s hs => ?_)
    fun s tree hs => hFresh s tree hs) (fun _ => ?_) (by omega) (by omega)
  · exact ⟨hFresh s none hs, by rw [setTree_self, hHad]⟩
  exact (keeps_syncDirectory D (n + 1) _).conseq (fun _ hs => hs) (fun _ _ hs => hs)
    fun _ _ _ _ hs => hs.1

omit [DecidableEq Id] [DecidableEq Entry] in
theorem runs_exists (slot : Slot Id) {P : Files Id Entry → Prop}
    {R : Nat → Files Id Entry → Prop} (hR : ∀ s, P s → R n s) :
    Runs D n (n + 1) P (exists? Id Entry ε slot)
      (fun b s => P s ∧ (s.trees slot).isSome = b) R :=
  Runs.look _ hR

omit [DecidableEq Entry] in
theorem runs_findKept {t : List Entry} (hHad : p.tree = some t) :
    Runs D n (n + 1) (fun s => Pending p a s ∧ (s.trees (.previous a)).isSome = false)
      (do
        if ← exists? Id Entry ε .destination then
          return
        else
          Prog.raise .cannotRecover)
      (fun _ s => Pending p a s ∧ s.trees .destination = p.tree) fun _ => Pending p a := by
  have hKept : ∀ s : Files Id Entry, Pending p a s ∧ (s.trees (.previous a)).isSome = false →
      s.trees .destination = p.tree := by
    intro s hs
    rcases hs.1.noBackup hs.2 with hDestination | ⟨hNone, -⟩
    · exact hDestination
    · rw [hHad] at hNone
      cases hNone
  refine Runs.bind (runs_exists _ fun s hs => hs.1) (fun live => ?_) (by omega) (Nat.le_refl _)
  cases live with
  | true =>
    rw [if_pos rfl]
    exact Runs.pure () fun s hs => ⟨hs.1.1, hKept s hs.1⟩
  | false =>
    refine Runs.absurd fun s hs => ?_
    rw [hKept s hs.1, hHad] at hs
    cases hs.2

theorem runs_findFresh (hSteady : D.Steady) (hHad : p.tree = none) :
    Runs D n (n + 5) (fun s => Pending p a s ∧ (s.trees (.previous a)).isSome = false)
      (do
        if ← exists? Id Entry ε (.prepared a) then
          return
        else
          removeTree .destination
          syncDirectory Id Entry ε)
      (fun _ s => Pending p a s ∧ s.trees .destination = p.tree) fun _ => Pending p a := by
  refine Runs.bind (runs_exists _ fun s hs => hs.1) (fun waiting => ?_) (by omega)
    (show n + 1 ≤ n + 5 by omega)
  cases waiting with
  | true =>
    rw [if_pos rfl]
    refine Runs.recount hSteady (n + 1) (n + 5) (n := n) (Runs.pure () fun s hs => ?_) (by omega)
    refine ⟨hs.1.1, ?_⟩
    rcases hs.1.1.noBackup hs.1.2 with hDestination | ⟨-, hPrepared⟩
    · exact hDestination
    · rw [hPrepared] at hs
      cases hs.2
  | false =>
    rw [if_neg (by decide)]
    exact (runs_takeAway (n := n + 1) hHad).conseq (fun s hs => ⟨hs.1.1, by simpa using hs.2⟩)
      (fun _ _ hs => hs) fun _ _ _ _ hs => hs

/-- Every way back is gone to its end. -/
theorem runs_restore (hSteady : D.Steady) (p : Publication Entry) (a : Option Id) :
    Runs D 0 1 (Pending p a) (restore p.tree.isSome a : Installer Id Entry ε Unit)
      (fun _ s => Pending p a s ∧ s.trees .destination = p.tree) fun _ => Pending p a := by
  have hFind : Runs D 0 1 (Pending p a) (findAttempt a : Installer Id Entry ε Unit)
      (fun _ => Pending p a) fun _ => Pending p a :=
    Runs.operate (fun s hs => ⟨(), by rw [if_pos hs.found], by rw [if_pos hs.found]; exact hs⟩)
      fun s _ hs => hs
  refine Runs.recount hSteady (n := 0) (m := 13) 0 1 ?_ (by omega)
  unfold restore
  refine Runs.bind hFind (fun _ => ?_) (by omega) (by omega)
  refine Runs.bind (runs_exists (.previous a) fun s hs => hs) (fun backup => ?_) (by omega)
    (by omega)
  cases backup with
  | true =>
    rw [if_pos rfl]
    cases hTree : p.tree with
    | none =>
      refine Runs.absurd fun s hs => ?_
      obtain ⟨t, hSome, -⟩ := hs.1.backup hs.2
      rw [hTree] at hSome
      cases hSome
    | some t =>
      rw [← hTree]
      refine Runs.recount hSteady 2 13 ((runs_restoreBackup (n := 2) hTree).conseq ?_
        (fun _ _ hs => hs) fun _ _ _ _ hs => hs) (by omega)
      intro s hs
      obtain ⟨t', hSome, hBackup⟩ := hs.1.backup hs.2
      exact ⟨hs.1, hBackup.trans (hSome.symm.trans hTree)⟩
  | false =>
    rw [if_neg (by decide)]
    cases hTree : p.tree with
    | some t =>
      rw [if_pos (show (some t).isSome = true from rfl), ← hTree]
      exact Runs.recount hSteady 2 13 (runs_findKept (n := 2) hTree) (by omega)
    | none =>
      rw [if_neg (by simp), ← hTree]
      exact Runs.recount hSteady 2 13 (runs_findFresh (n := 2) hSteady hTree) (by omega)

omit [DecidableEq Entry] in
theorem runs_endRecovery : Runs D n (n + 4) (fun s => Pending p a s ∧ s.trees .destination = p.tree)
      (do
        operate Files.removeJournal fun _ s => s
        syncDirectory Id Entry ε)
      (fun _ => Settled p) fun _ => Safe p := by
  refine Runs.bind (Runs.operate (Q := fun _ => Settled p) (fun s hs => ?_)
    fun s _ hs => Or.inr ⟨a, hs.1⟩) (fun _ => ?_) (Nat.le_add_right n 1) (by omega)
  · refine ⟨(), ?_⟩
    rw [Files.removeJournal, if_pos (by rw [hs.1.journal]; rfl)]
    exact ⟨rfl, rfl, hs.2, hs.1.published⟩
  exact (keeps_syncDirectory D (n + 1) _).conseq (fun _ hs => hs) (fun _ _ hs => hs)
    fun _ _ _ _ hs => Or.inl hs

theorem runs_recover (hSteady : D.Steady) (p : Publication Entry) :
    Runs D 0 1 (Safe p) (recover : Installer Id Entry ε Unit) (fun _ => Settled p)
      fun _ => Safe p := by
  refine Runs.recount hSteady (n := 0) (m := 8) 0 1 ?_ (by omega)
  unfold recover
  refine Runs.bind (Runs.look (fun s => s.journal.isSome) (P := Safe p) fun s hs => hs)
    (fun present => ?_) (Nat.le_add_right 0 1) (by omega)
  cases present with
  | false =>
    rw [if_neg (by decide)]
    refine Runs.recount hSteady 1 8 (n := 1) (Runs.pure () fun s hs => ?_) (by omega)
    rcases hs.1 with hSettled | ⟨a, hPending⟩
    · exact hSettled
    · rw [hPending.journal] at hs
      cases hs.2
  | true =>
    rw [if_pos rfl]
    refine Runs.bind ((keeps_touch D 1 _).conseq (fun _ hs => hs) (fun _ _ hs => hs)
      fun _ _ _ _ hs => hs.1) (fun _ => ?_) (Nat.le_add_right 1 1) (by omega)
    refine Runs.bind (Runs.look (fun s => s.journal)
      (P := fun s : Files Id Entry => Safe p s ∧ s.journal.isSome = true) fun s hs => hs.1)
      (fun journal => ?_) (Nat.le_add_right 2 1) (by omega)
    cases journal with
    | none =>
      refine Runs.absurd fun s hs => ?_
      rw [hs.2] at hs
      cases hs.1.2
    | some journal =>
      have hPending : ∀ s : Files Id Entry, (Safe p s ∧ s.journal.isSome = true) ∧
          s.journal = some journal → ∃ a, journal = .record p.tree.isSome a ∧ Pending p a s := by
        intro s hs
        rcases hs.1.1 with hSettled | ⟨a, hPending⟩
        · rw [hSettled.journal] at hs
          cases hs.2
        · rw [hPending.journal, Option.some.injEq] at hs
          exact ⟨a, hs.2.symm, hPending⟩
      cases journal with
      | unreadable =>
        refine Runs.absurd fun s hs => ?_
        obtain ⟨a, hRecord, -⟩ := hPending s hs
        cases hRecord
      | record had a =>
        by_cases hHad : had = p.tree.isSome
        · rw [hHad] at hPending ⊢
          refine Runs.bind ((Runs.recount hSteady 3 4 (runs_restore hSteady p a)
            (by omega)).conseq (fun s hs => ?_) (fun _ _ hs => hs)
            fun _ _ _ _ hs => Or.inr ⟨a, hs⟩) (fun _ => runs_endRecovery) (by omega)
            (by omega)
          obtain ⟨a', hRecord, hRest⟩ := hPending s hs
          injection hRecord with _ hSame
          exact hSame ▸ hRest
        · refine Runs.absurd fun s hs => ?_
          obtain ⟨a', hRecord, -⟩ := hPending s hs
          injection hRecord with hSame
          exact hHad hSame

end SimplexAgent.Hub.Install
