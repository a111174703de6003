import Mathlib.Tactic.Common

/-!
# Programs that keep their state when they fail

A program reads and writes a state and ends in one of three ways: with a value,
with a failure that a handler may catch, or halted, which nothing catches. In all
three the state it had reached is kept, as it is for code that mutates an object
it was handed and then throws. Halting stands for a run that is cut off: it carries
no promise of its own, so a statement about it is a statement about every point at
which the program can be cut.

`Triple P m Q E H` is the rule of the development for such programs: from a state
with `P` they end with `Q`, fail with `E` or halt with `H`. There is one rule for
each way of building a program.
-/

namespace SimplexAgent.Verified.Interruptible

variable {σ ε α β : Type}

/-- Ways to end other than with a value. -/
inductive Interrupt (ε : Type) where
  | failure (e : ε)
  | halted
  deriving DecidableEq

abbrev Prog (σ ε : Type) := ExceptT (Interrupt ε) (StateM σ)

namespace Prog

def exec (m : Prog σ ε α) (s : σ) : Except (Interrupt ε) α × σ := StateT.run m.run s

/-- An operation given by its effect on the state. -/
def call (f : σ → Except ε α × σ) : Prog σ ε α :=
  ExceptT.mk fun s => ((f s).1.mapError .failure, (f s).2)

def raise (e : ε) : Prog σ ε α := throw (.failure e)

def halt : Prog σ ε α := throw .halted

/-- `try … catch`: the handler sees failures and the state they left. -/
def handle (m : Prog σ ε α) (handler : ε → Prog σ ε α) : Prog σ ε α :=
  tryCatch m fun
    | .failure e => handler e
    | .halted => throw .halted

def check (r : Except ε α) : Prog σ ε α :=
  match r with
  | .ok a => pure a
  | .error e => raise e

theorem exec_bind (m : Prog σ ε α) (f : α → Prog σ ε β) (s : σ) : exec (m >>= f) s =
      match exec m s with
      | (.ok a, s') => exec (f a) s'
      | (.error e, s') => (.error e, s') := by
  simp only [exec, ExceptT.run, StateT.run, bind, ExceptT.bind, ExceptT.mk, StateT.bind,
    ExceptT.bindCont]
  cases m s with
  | mk r s' => cases r <;> rfl

theorem exec_handle (m : Prog σ ε α) (handler : ε → Prog σ ε α) (s : σ) :
    exec (handle m handler) s =
      match exec m s with
      | (.error (.failure e), s') => exec (handler e) s'
      | (r, s') => (r, s') := by
  simp only [exec, handle, tryCatch, tryCatchThe, MonadExceptOf.tryCatch, ExceptT.tryCatch,
    ExceptT.run, ExceptT.mk, StateT.run, bind, StateT.bind]
  cases m s with
  | mk r s' =>
    cases r with
    | ok a => rfl
    | error e => cases e <;> rfl

theorem exec_get (s : σ) : exec (get : Prog σ ε σ) s = (.ok s, s) := rfl

theorem exec_call (f : σ → Except ε α × σ) (s : σ) :
    exec (call f) s = ((f s).1.mapError .failure, (f s).2) := rfl

end Prog

/-- How a program ends from a state with `P`. -/
def Triple (P : σ → Prop) (m : Prog σ ε α) (Q : α → σ → Prop) (E : ε → σ → Prop)
    (H : σ → Prop) : Prop :=
  ∀ s, P s →
    match m.exec s with
    | (.ok a, s') => Q a s'
    | (.error (.failure e), s') => E e s'
    | (.error .halted, s') => H s'

namespace Triple

variable {P P' : σ → Prop} {Q Q' : α → σ → Prop} {E E' : ε → σ → Prop} {H H' : σ → Prop}

theorem pure (a : α) (hP : ∀ s, P s → Q a s) : Triple P (pure a : Prog σ ε α) Q E H :=
  fun s hs => hP s hs

theorem bind {m : Prog σ ε α} {f : α → Prog σ ε β} {R : α → σ → Prop} {S : β → σ → Prop}
    (hm : Triple P m R E H) (hf : ∀ a, Triple (R a) (f a) S E H) : Triple P (m >>= f) S E H := by
  intro s hs
  have hFirst := hm s hs
  rw [Prog.exec_bind]
  cases hRun : m.exec s with
  | mk r s' =>
    rw [hRun] at hFirst
    cases r with
    | ok a => exact hf a s' hFirst
    | error e =>
      cases e with
      | failure e | halted => exact hFirst

theorem handle {m : Prog σ ε α} {handler : ε → Prog σ ε α} {F : ε → σ → Prop}
    (hm : Triple P m Q F H) (hHandler : ∀ e, Triple (F e) (handler e) Q E H) :
    Triple P (m.handle handler) Q E H := by
  intro s hs
  have hFirst := hm s hs
  rw [Prog.exec_handle]
  cases hRun : m.exec s with
  | mk r s' =>
    rw [hRun] at hFirst
    cases r with
    | ok a => exact hFirst
    | error e =>
      cases e with
      | failure e => exact hHandler e s' hFirst
      | halted => exact hFirst

theorem raise (e : ε) (hP : ∀ s, P s → E e s) : Triple P (Prog.raise e : Prog σ ε α) Q E H :=
  fun s hs => hP s hs

theorem halt (hP : ∀ s, P s → H s) : Triple P (Prog.halt : Prog σ ε α) Q E H :=
  fun s hs => hP s hs

theorem get {Q : σ → σ → Prop} (hP : ∀ s, P s → Q s s) :
    Triple P (MonadState.get : Prog σ ε σ) Q E H :=
  fun s hs => hP s hs

theorem modify {Q : PUnit → σ → Prop} (f : σ → σ) (hP : ∀ s, P s → Q () (f s)) :
    Triple P (modify f : Prog σ ε PUnit) Q E H :=
  fun s hs => hP s hs

theorem call {f : σ → Except ε α × σ} (hOk : ∀ s a, P s → (f s).1 = .ok a → Q a (f s).2)
    (hError : ∀ s e, P s → (f s).1 = .error e → E e (f s).2) : Triple P (Prog.call f) Q E H := by
  intro s hs
  rw [Prog.exec_call]
  cases hResult : (f s).1 with
  | ok a => exact hOk s a hs hResult
  | error e => exact hError s e hs hResult

theorem check {r : Except ε α} (hOk : ∀ a, r = .ok a → ∀ s, P s → Q a s)
    (hError : ∀ e, r = .error e → ∀ s, P s → E e s) :
    Triple P (Prog.check r : Prog σ ε α) Q E H := by
  cases r with
  | ok a => exact fun s hs => hOk a rfl s hs
  | error e => exact fun s hs => hError e rfl s hs

theorem conseq {m : Prog σ ε α} (h : Triple P m Q E H) (hP : ∀ s, P' s → P s)
    (hQ : ∀ a s, Q a s → Q' a s) (hE : ∀ e s, E e s → E' e s) (hH : ∀ s, H s → H' s) :
    Triple P' m Q' E' H' := by
  intro s hs
  have hFirst := h s (hP s hs)
  cases hRun : m.exec s with
  | mk r s' =>
    rw [hRun] at hFirst
    cases r with
    | ok a => exact hQ a s' hFirst
    | error e =>
      cases e with
      | failure e => exact hE e s' hFirst
      | halted => exact hH s' hFirst

theorem pre {m : Prog σ ε α} (h : Triple P m Q E H) (hP : ∀ s, P' s → P s) : Triple P' m Q E H :=
  h.conseq hP (fun _ _ hq => hq) (fun _ _ he => he) fun _ hh => hh

theorem frame {m : Prog σ ε α} (h : Triple P m Q E H)
    (hFrame : Triple P' m (fun _ => P') (fun _ _ => True) fun _ => True) :
    Triple (fun s => P s ∧ P' s) m (fun a s => Q a s ∧ P' s) E H := by
  intro s hs
  have hFirst := h s hs.1
  have hKeep := hFrame s hs.2
  cases hRun : m.exec s with
  | mk r s' =>
    rw [hRun] at hFirst hKeep
    cases r with
    | ok a => exact ⟨hFirst, hKeep⟩
    | error e =>
      cases e with
      | failure e | halted => exact hFirst

theorem of_state {m : Prog σ ε α} (h : ∀ s, P s → Triple (fun t => t = s) m Q E H) :
    Triple P m Q E H :=
  fun s hs => h s hs s rfl

theorem ite {c : Prop} [Decidable c] {m n : Prog σ ε α} (hm : c → Triple P m Q E H)
    (hn : ¬c → Triple P n Q E H) : Triple P (if c then m else n) Q E H := by
  by_cases hc : c
  · rw [if_pos hc]
    exact hm hc
  · rw [if_neg hc]
    exact hn hc

end Triple

end SimplexAgent.Verified.Interruptible
