import SimplexAgent.Persistence.SqliteStore

/-!
# What the store keeps track of

Under the tables of the session store lies a small ledger: the revision of the
current state, and for every archive attempt its outcome and the revision that its
preparation recorded. This module says what each write does to the ledger and what
follows for a single attempt; the store is shown to follow it elsewhere.
-/

namespace SimplexAgent.Persistence

@[ext]
structure Attempt where
  outcome : AttemptOutcome
  /-- The revision of the state that was archived. -/
  base : Option Nat

@[ext]
structure Ledger where
  revision : Nat
  attempt : String → Option Attempt

/-- The writes of the store. -/
inductive Effect where
  | save
  | prepare (id : String)
  | compact (id : String)
  | settle (id : String) (outcome : AttemptOutcome)
  | prune

namespace Ledger

/-- A session without a store. -/
def empty : Ledger where
  revision := 0
  attempt := fun _ => none

/-- What a write does. -/
def Moves (l l' : Ledger) : Effect → Prop
  | .save => l'.revision = l.revision + 1 ∧ l'.attempt = l.attempt
  | .prepare id =>
    l.attempt id = none ∧ l'.revision = l.revision + 1 ∧
      l'.attempt = Function.update l.attempt id (some ⟨.prepared, some (l.revision + 1)⟩)
  | .compact id =>
    l.attempt id = some ⟨.prepared, some l.revision⟩ ∧ l'.revision = l.revision + 1 ∧
      l'.attempt = Function.update l.attempt id (some ⟨.succeeded, some l.revision⟩)
  | .settle id outcome =>
    l'.revision = l.revision ∧ outcome ≠ .prepared ∧ outcome ≠ .succeeded ∧
      l'.attempt = Function.update l.attempt id ((l.attempt id).map fun a =>
        if a.outcome = .prepared then { a with outcome := outcome } else a)
  | .prune =>
    l'.revision = l.revision ∧ ∀ k, l'.attempt k = l.attempt k ∨
      (l'.attempt k = none ∧ ∃ a, l.attempt k = some a ∧ a.outcome ≠ .prepared)

/-- The first write of an object interrupts what others left prepared. -/
def reconcile (l : Ledger) (target : String) : Ledger :=
  { l with
    attempt := fun k => (l.attempt k).map fun a =>
      if a.outcome = .prepared ∧ k ≠ target then { a with outcome := .interrupted } else a }

/-- The archive a write is about, which reconciliation leaves alone. -/
def Targets : Effect → String → Prop
  | .compact id, target => target = id
  | .settle id _, target => target = id
  | _, _ => True

/-- A write, possibly after reconciliation. -/
def Applies (l l' : Ledger) (effect : Effect) : Prop :=
  l.Moves l' effect ∨ ∃ target, Targets effect target ∧ (l.reconcile target).Moves l' effect

def Publishes : Effect → Prop
  | .save | .prepare _ | .compact _ => True
  | .settle _ _ | .prune => False

variable {effect : Effect} {l l' : Ledger}

theorem Applies.revision (h : l.Applies l' effect) :
    (Publishes effect → l'.revision = l.revision + 1) ∧
      (¬Publishes effect → l'.revision = l.revision) := by
  rcases h with h | ⟨target, -, h⟩ <;> cases effect <;>
    simp [Moves, Publishes, reconcile] at h ⊢ <;> tauto

structure AttemptLaw (l l' : Ledger) (effect : Effect) (k : String) : Prop where
  /-- Attempts are created prepared, at the revision of their own preparation. -/
  created : l.attempt k = none → l'.attempt k = none ∨
    (effect = .prepare k ∧ l'.attempt k = some ⟨.prepared, some l'.revision⟩)
  /-- A prepared attempt keeps the revision it recorded. -/
  prepared : ∀ x, l.attempt k = some x → x.outcome = .prepared →
    l'.attempt k = none ∨ ∃ outcome, l'.attempt k = some { x with outcome := outcome }
  /-- A terminal outcome stays for as long as the attempt is kept. -/
  terminal : ∀ x, l.attempt k = some x → x.outcome ≠ .prepared →
    l'.attempt k = some x ∨ l'.attempt k = none
  /-- Only a compaction at the recorded revision succeeds. -/
  succeeded : ∀ x, l'.attempt k = some x → x.outcome = .succeeded → l.attempt k = some x ∨
    (effect = .compact k ∧ l.attempt k = some ⟨.prepared, some l.revision⟩)
  compacted : effect = .compact k → l.attempt k = some ⟨.prepared, some l.revision⟩ ∧
    l'.attempt k = some ⟨.succeeded, some l.revision⟩
  /-- Only retention forgets an attempt. -/
  kept : l.attempt k ≠ none → l'.attempt k = none → effect = .prune

theorem attemptLaw_same {k : String} (hSame : l'.attempt k = l.attempt k)
    (hEffect : effect ≠ .compact k) : AttemptLaw l l' effect k where
  created h := Or.inl (hSame.trans h)
  prepared x h _ := Or.inr ⟨x.outcome, hSame.trans h⟩
  terminal _ h _ := Or.inl (hSame.trans h)
  succeeded _ h _ := Or.inl (hSame ▸ h)
  compacted h := absurd h hEffect
  kept hRow hGone := absurd (hSame.symm.trans hGone) hRow

theorem Moves.attemptLaw (h : l.Moves l' effect) (k : String) : AttemptLaw l l' effect k := by
  cases effect with
  | save => exact attemptLaw_same (by rw [h.2]) (by simp)
  | prepare id =>
    obtain ⟨hNone, hRevision, hAttempt⟩ := h
    by_cases hk : k = id
    · subst hk
      have hRow : l'.attempt k = some ⟨.prepared, some l'.revision⟩ := by
        rw [hAttempt, Function.update_self, hRevision]
      refine ⟨fun _ => Or.inr ⟨rfl, hRow⟩, ?_, ?_, ?_, by simp, fun h => absurd hNone h⟩
      · intro x hx
        simp [hNone] at hx
      · intro x hx
        simp [hNone] at hx
      · intro x hx hSucceeded
        rw [hRow] at hx
        cases hx
        cases hSucceeded
    · exact attemptLaw_same (by rw [hAttempt, Function.update_of_ne hk]) (by simp)
  | compact id =>
    obtain ⟨hPrepared, hRevision, hAttempt⟩ := h
    by_cases hk : k = id
    · subst hk
      have hRow : l'.attempt k = some ⟨.succeeded, some l.revision⟩ := by
        rw [hAttempt, Function.update_self]
      refine ⟨?_, ?_, ?_, fun x hx _ => Or.inr ⟨rfl, hPrepared⟩,
        fun _ => ⟨hPrepared, hRow⟩, by simp [hRow]⟩
      · intro hNone
        simp [hPrepared] at hNone
      · intro x hx _
        rw [hPrepared] at hx
        cases hx
        exact Or.inr ⟨.succeeded, hRow⟩
      · intro x hx hTerminal
        rw [hPrepared] at hx
        cases hx
        exact absurd rfl hTerminal
    · exact attemptLaw_same (by rw [hAttempt, Function.update_of_ne hk])
        (by simpa using Ne.symm hk)
  | settle id outcome =>
    obtain ⟨-, hTerminal, hFailed, hAttempt⟩ := h
    by_cases hk : k = id
    · subst hk
      cases hRow : l.attempt k with
      | none => exact attemptLaw_same (by rw [hAttempt, Function.update_self, hRow]; rfl) (by simp)
      | some x =>
        by_cases hPrepared : x.outcome = .prepared
        · have hRow' : l'.attempt k = some { x with outcome := outcome } := by
            rw [hAttempt, Function.update_self, hRow, Option.map_some, if_pos hPrepared]
          refine ⟨by simp [hRow], ?_, ?_, ?_, by simp, by simp [hRow']⟩
          · intro y hy _
            rw [hRow] at hy
            cases hy
            exact Or.inr ⟨outcome, hRow'⟩
          · intro y hy hOther
            rw [hRow] at hy
            cases hy
            exact absurd hPrepared hOther
          · intro y hy hSucceeded
            rw [hRow'] at hy
            cases hy
            exact absurd hSucceeded hFailed
        · exact attemptLaw_same (by
            rw [hAttempt, Function.update_self, hRow, Option.map_some, if_neg hPrepared])
            (by simp)
    · exact attemptLaw_same (by rw [hAttempt, Function.update_of_ne hk]) (by simp)
  | prune =>
    rcases h.2 k with hSame | ⟨hGone, x, hRow, hTerminal⟩
    · exact attemptLaw_same hSame (by simp)
    · refine ⟨fun _ => Or.inl hGone, fun _ _ _ => Or.inl hGone, fun _ _ _ => Or.inr hGone,
        ?_, by simp, fun _ _ => rfl⟩
      intro y hy
      simp [hGone] at hy

theorem reconcile_attempt (l : Ledger) (target k : String) :
    (l.reconcile target).attempt k = l.attempt k ∨
      ∃ x, l.attempt k = some x ∧ x.outcome = .prepared ∧ k ≠ target ∧
        (l.reconcile target).attempt k = some { x with outcome := .interrupted } := by
  simp only [reconcile]
  cases hk : l.attempt k with
  | none => exact Or.inl rfl
  | some x =>
    by_cases hPrepared : x.outcome = .prepared ∧ k ≠ target
    · exact Or.inr ⟨x, rfl, hPrepared.1, hPrepared.2, by simp [hPrepared]⟩
    · exact Or.inl (by simp [hPrepared])

/-- **One attempt under one write**, also when the write reconciles first. -/
theorem Applies.attemptLaw (h : l.Applies l' effect) (k : String) : AttemptLaw l l' effect k := by
  rcases h with h | ⟨target, hTarget, h⟩
  · exact h.attemptLaw k
  · have hLaw := h.attemptLaw k
    rcases l.reconcile_attempt target k with hSame | ⟨x, hRow, hPrepared, hOther, hMarked⟩
    · refine ⟨?_, ?_, ?_, ?_, ?_, ?_⟩
      · exact fun hNone => hLaw.created (hSame.trans hNone)
      · exact fun x hx => hLaw.prepared x (hSame.trans hx)
      · exact fun x hx => hLaw.terminal x (hSame.trans hx)
      · intro x hx hSucceeded
        rcases hLaw.succeeded x hx hSucceeded with hOld | ⟨hEffect, hBefore⟩
        · exact Or.inl (hSame.symm.trans hOld)
        · exact Or.inr ⟨hEffect, hSame.symm.trans hBefore⟩
      · intro hEffect
        obtain ⟨hBefore, hAfter⟩ := hLaw.compacted hEffect
        exact ⟨hSame.symm.trans hBefore, hAfter⟩
      · exact fun hBefore => hLaw.kept (by rw [hSame]; exact hBefore)
    · have hNotTarget : effect ≠ .compact k := by
        rintro rfl
        exact hOther hTarget.symm
      refine ⟨by simp [hRow], ?_, ?_, ?_, fun hEffect => absurd hEffect hNotTarget,
        fun _ => hLaw.kept (by simp [hMarked])⟩
      · intro y hy _
        rw [hRow] at hy
        cases hy
        rcases hLaw.terminal _ hMarked (by simp) with hKept | hGone
        · exact Or.inr ⟨.interrupted, hKept⟩
        · exact Or.inl hGone
      · intro y hy hTerminal
        rw [hRow] at hy
        cases hy
        exact absurd hPrepared hTerminal
      · intro y hy hSucceeded
        rcases hLaw.succeeded y hy hSucceeded with hOld | ⟨hEffect, -⟩
        · rw [hMarked] at hOld
          cases hOld
          cases hSucceeded
        · exact absurd hEffect hNotTarget

end Ledger

end SimplexAgent.Persistence
