import Mathlib.Tactic.Common

/-!
# Runs of a system that takes inputs

A system is a step function: an input moves a state to the next one, or is not possible
in it. A run feeds it a list of inputs.

`Along Q` says that every step of a run has `Q`, a property of the state before, the
input and the state after. Two rules are used for it: what every step keeps, it keeps
along the run, and two properties that agree on every step from a good state agree on
every run. The second one gives exact conditions: a run is free of a defect if and
only if none of its inputs hits it.
-/

namespace SimplexAgent.Verified.Runs

variable {σ ι : Type*} {step : σ → ι → Option σ}

/-- The state after a list of inputs, if each of them was possible. -/
def run (step : σ → ι → Option σ) (s : σ) : List ι → Option σ
  | [] => some s
  | i :: is => (step s i).bind fun next => run step next is

/-- Every step of the run has `Q`. -/
def Along (step : σ → ι → Option σ) (Q : σ → ι → σ → Prop) (s : σ) : List ι → Prop
  | [] => True
  | i :: is => ∀ next, step s i = some next → Q s i next ∧ Along step Q next is

@[simp] theorem run_nil (s : σ) : run step s [] = some s := rfl

theorem run_cons {s t : σ} {i : ι} {is : List ι} :
    run step s (i :: is) = some t ↔ ∃ next, step s i = some next ∧ run step next is = some t := by
  simp only [run, Option.bind_eq_some_iff]

theorem run_append {s t : σ} {before after : List ι} :
    run step s (before ++ after) = some t ↔
      ∃ mid, run step s before = some mid ∧ run step mid after = some t := by
  induction before generalizing s with
  | nil => simp
  | cons i is ih =>
    simp only [List.cons_append, run_cons, ih]
    constructor
    · rintro ⟨next, hStep, mid, hRun, hRest⟩
      exact ⟨mid, ⟨next, hStep, hRun⟩, hRest⟩
    · rintro ⟨mid, ⟨next, hStep, hRun⟩, hRest⟩
      exact ⟨next, hStep, mid, hRun, hRest⟩

theorem along_of_invariant {P : σ → Prop} {Q : σ → ι → σ → Prop} {s : σ} {inputs : List ι}
    (hKeep : ∀ s i next, P s → step s i = some next → P next)
    (hStep : ∀ s i next, P s → step s i = some next → Q s i next) (hStart : P s) :
    Along step Q s inputs := by
  induction inputs generalizing s with
  | nil => trivial
  | cons i is ih =>
    intro next hNext
    exact ⟨hStep s i next hStart hNext, ih (hKeep s i next hStart hNext)⟩

/-- If the inputs of a run all meet a condition under which a step has `Q` and ends in a good
state, every step of it has `Q`. -/
theorem along_imp {P : σ → Prop} {Q C : σ → ι → σ → Prop} {s : σ} {inputs : List ι}
    (hKeep : ∀ s i next, P s → step s i = some next → C s i next → P next)
    (hStep : ∀ s i next, P s → step s i = some next → C s i next → Q s i next) (hStart : P s)
    (h : Along step C s inputs) : Along step Q s inputs := by
  induction inputs generalizing s with
  | nil => trivial
  | cons i is ih =>
    intro next hNext
    obtain ⟨hFirst, hRest⟩ := h next hNext
    exact ⟨hStep s i next hStart hNext hFirst, ih (hKeep s i next hStart hNext hFirst) hRest⟩

theorem along_iff {P : σ → Prop} {Q C : σ → ι → σ → Prop} {s : σ} {inputs : List ι}
    (hKeep : ∀ s i next, P s → step s i = some next → Q s i next → P next)
    (hIff : ∀ s i next, P s → step s i = some next → (Q s i next ↔ C s i next)) (hStart : P s) :
    Along step Q s inputs ↔ Along step C s inputs := by
  induction inputs generalizing s with
  | nil => exact Iff.rfl
  | cons i is ih =>
    constructor
    · intro h next hNext
      obtain ⟨hFirst, hRest⟩ := h next hNext
      exact ⟨(hIff s i next hStart hNext).mp hFirst,
        (ih (hKeep s i next hStart hNext hFirst)).mp hRest⟩
    · intro h next hNext
      obtain ⟨hFirst, hRest⟩ := h next hNext
      have hHolds := (hIff s i next hStart hNext).mpr hFirst
      exact ⟨hHolds, (ih (hKeep s i next hStart hNext hHolds)).mpr hRest⟩

end SimplexAgent.Verified.Runs
