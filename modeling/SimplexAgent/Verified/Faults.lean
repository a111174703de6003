import SimplexAgent.Verified.Interruptible

/-!
# Programs whose operations may fail

A program works on a state through single operations, and a list of outcomes says what becomes
of each: it is done, it fails and raises an error, or the program is cut off there. An
operation that is not single may leave some part of its work in the last two cases. When the
list is used up, everything is done.

What can be said of such a program depends on how many faults there are. A `Discipline` says
which lists of outcomes are in play after so many operations (`live`), and which after one of
them has failed (`broken`). Whatever else may happen is `wild`. Two disciplines matter. Under
`anything` every list is in play. Under `oneFault` a given operation fails and nothing else
goes wrong, so a statement about the error that leaves the program is exact.

`Runs` is the rule for programs under a discipline; it counts operations. A handler runs under
the discipline `after` the fault.
-/

namespace SimplexAgent.Verified.Faults

open Verified.Interruptible

/-- What becomes of one operation. -/
inductive Outcome (η ℓ : Type) where
  | done
  | fails (e : η) (part : ℓ)
  | stops (part : ℓ)

/-- A state and what becomes of the operations to come. -/
structure Machine (σ η ℓ : Type) where
  state : σ
  outcomes : List (Outcome η ℓ)

variable {σ η ℓ α β : Type}

abbrev Work (σ η ℓ : Type) := Prog (Machine σ η ℓ) η

/-- One operation: what it does, and what it leaves when it does not get to its end. -/
def operate (act : σ → Except η α × σ) (partly : ℓ → σ → σ) : Work σ η ℓ α :=
  ExceptT.mk fun w =>
    match w.outcomes with
    | .fails e part :: rest => (.error (.failure e), ⟨partly part w.state, rest⟩)
    | .stops part :: rest => (.error .halted, ⟨partly part w.state, rest⟩)
    | _ => ((act w.state).1.mapError .failure, ⟨(act w.state).2, w.outcomes.tail⟩)

def look (g : σ → α) : Work σ η ℓ α := operate (fun s => (.ok (g s), s)) fun _ s => s

/-- An operation that changes nothing here. -/
def touch : Work σ η ℓ Unit := look fun _ => ()

/-- `try … finally`. -/
def finallyDo (m : Work σ η ℓ α) (last : Work σ η ℓ Unit) : Work σ η ℓ α := do
  let a ← m.handle fun e => do
    last
    Prog.raise e
  last
  return a

/-! ## Disciplines -/

/-- The lists of outcomes in play. -/
structure Discipline (η ℓ : Type) where
  /-- After so many operations, none of which failed. -/
  live : Nat → List (Outcome η ℓ) → Prop
  /-- After the failure of the operation of this number. -/
  broken : Nat → η → List (Outcome η ℓ) → Prop
  /-- More than one fault, or a stop. -/
  wild : Prop
  live_nil : ∀ {n}, live n [] → live (n + 1) []
  live_done : ∀ {n rest}, live n (.done :: rest) → live (n + 1) rest
  live_fails : ∀ {n e part rest}, live n (.fails e part :: rest) → broken n e rest
  live_stops : ∀ {n part rest}, live n (.stops part :: rest) → wild
  broken_done : ∀ {k e rest}, broken k e (.done :: rest) → broken k e rest
  broken_fails : ∀ {k e e' part rest}, broken k e (.fails e' part :: rest) → wild
  broken_stops : ∀ {k e part rest}, broken k e (.stops part :: rest) → wild

namespace Discipline

/-- Any operation may fail, and the program may be cut off anywhere. -/
def anything : Discipline η ℓ where
  live _ _ := True
  broken _ _ _ := True
  wild := True
  live_nil _ := trivial
  live_done _ := trivial
  live_fails _ := trivial
  live_stops _ := trivial
  broken_done _ := trivial
  broken_fails _ := trivial
  broken_stops _ := trivial

/-- Operation number `k` fails with `e`, and nothing else goes wrong. -/
def oneFault (k : Nat) (e : η) (part : ℓ) : Discipline η ℓ where
  live n outcomes :=
    (n ≤ k ∧ outcomes = List.replicate (k - n) .done ++ [.fails e part])
  broken n e' outcomes := n = k ∧ e' = e ∧ outcomes = []
  wild := False
  live_nil := by
    intro n h
    simp at h
  live_done := by
    intro n rest h
    obtain ⟨hLe, hList⟩ := h
    cases hRest : k - n with
    | zero =>
      rw [hRest] at hList
      simp at hList
    | succ m =>
      rw [hRest, List.replicate_succ, List.cons_append] at hList
      refine ⟨by omega, ?_⟩
      rw [show k - (n + 1) = m by omega]
      exact (List.cons.inj hList).2
  live_fails := by
    intro n e' part' rest h
    obtain ⟨hLe, hList⟩ := h
    cases hRest : k - n with
    | zero =>
      rw [hRest, List.replicate_zero, List.nil_append] at hList
      obtain ⟨hHead, hTail⟩ := List.cons.inj hList
      injection hHead with hError
      exact ⟨by omega, hError, hTail⟩
    | succ m =>
      rw [hRest, List.replicate_succ, List.cons_append] at hList
      cases (List.cons.inj hList).1
  live_stops := by
    intro n part' rest h
    obtain ⟨hLe, hList⟩ := h
    cases hRest : k - n with
    | zero =>
      rw [hRest] at hList
      cases (List.cons.inj hList).1
    | succ m =>
      rw [hRest, List.replicate_succ, List.cons_append] at hList
      cases (List.cons.inj hList).1
  broken_done h := nomatch h.2.2
  broken_fails h := nomatch h.2.2
  broken_stops h := nomatch h.2.2

/-- What is in play for a handler. -/
def after (D : Discipline η ℓ) (k : Nat) (e : η) : Discipline η ℓ where
  live _ outcomes := D.broken k e outcomes ∨ D.wild
  broken _ _ _ := D.wild
  wild := D.wild
  live_nil h := h
  live_done h := h.imp_left D.broken_done
  live_fails h := h.elim D.broken_fails id
  live_stops h := h.elim D.broken_stops id
  broken_done h := h
  broken_fails h := h
  broken_stops h := h

/-- A discipline that neither counts operations nor tells errors apart. -/
structure Steady (D : Discipline η ℓ) : Prop where
  live : ∀ {n outcomes} (m), D.live n outcomes → D.live m outcomes
  broken : ∀ {k e outcomes} (k' e'), D.broken k e outcomes → D.broken k' e' outcomes

theorem steady_anything : (anything : Discipline η ℓ).Steady :=
  ⟨fun _ _ => trivial, fun _ _ _ => trivial⟩

theorem steady_after (D : Discipline η ℓ) (k : Nat) (e : η) : (D.after k e).Steady :=
  ⟨fun _ h => h, fun _ _ h => h⟩

end Discipline

/-! ## The rule -/

/-- From a state with `P`, the program takes the operations from number `n` to number `m` and ends
with `Q`, or one of them fails and leaves `R`, or it is cut off there. -/
def Runs (D : Discipline η ℓ) (n m : Nat) (P : σ → Prop) (prog : Work σ η ℓ α)
    (Q : α → σ → Prop) (R : Nat → σ → Prop) : Prop :=
  Triple (fun w => D.live n w.outcomes ∧ P w.state) prog
    (fun a w => D.live m w.outcomes ∧ Q a w.state)
    (fun e w => ∃ k, n ≤ k ∧ k < m ∧ (D.broken k e w.outcomes ∨ D.wild) ∧ R k w.state)
    (fun w => D.wild ∧ ∃ k, n ≤ k ∧ k < m ∧ R k w.state)

namespace Runs

variable {D : Discipline η ℓ} {n m : Nat} {P P' : σ → Prop} {Q Q' : α → σ → Prop}
variable {prog : Work σ η ℓ α}

  {R R' : Nat → σ → Prop}

theorem operate {act : σ → Except η α × σ} {partly : ℓ → σ → σ}
    (hAct : ∀ s, P s → ∃ a, (act s).1 = .ok a ∧ Q a (act s).2)
    (hPart : ∀ s part, P s → R n (partly part s)) :
    Runs D n (n + 1) P (operate act partly) Q R := by
  intro w hw
  obtain ⟨hLive, hP⟩ := hw
  obtain ⟨state, outcomes⟩ := w
  obtain ⟨a, hOk, hQ⟩ := hAct state hP
  simp only [Prog.exec, Faults.operate, ExceptT.run, ExceptT.mk, StateT.run]
  cases outcomes with
  | nil =>
    simp only [hOk, Except.mapError]
    exact ⟨D.live_nil hLive, hQ⟩
  | cons outcome rest =>
    cases outcome with
    | done =>
      simp only [hOk, Except.mapError]
      exact ⟨D.live_done hLive, hQ⟩
    | fails e part =>
      exact ⟨n, Nat.le_refl n, Nat.lt_succ_self n, Or.inl (D.live_fails hLive), hPart state part hP⟩
    | stops part =>
      exact ⟨D.live_stops hLive, n, Nat.le_refl n, Nat.lt_succ_self n, hPart state part hP⟩

theorem conseq (h : Runs D n m P prog Q R) (hP : ∀ s, P' s → P s) (hQ : ∀ a s, Q a s → Q' a s)
    (hR : ∀ k s, n ≤ k → k < m → R k s → R' k s) : Runs D n m P' prog Q' R' := by
  refine Triple.conseq h (fun w hw => ⟨hw.1, hP _ hw.2⟩) (fun a w hw => ⟨hw.1, hQ a _ hw.2⟩) ?_ ?_
  · intro e w hw
    obtain ⟨k, hLow, hHigh, hBroken, hRest⟩ := hw
    exact ⟨k, hLow, hHigh, hBroken, hR k _ hLow hHigh hRest⟩
  · intro w hw
    obtain ⟨hWild, k, hLow, hHigh, hRest⟩ := hw
    exact ⟨hWild, k, hLow, hHigh, hR k _ hLow hHigh hRest⟩

theorem absurd (h : ∀ s, ¬P s) : Runs D n m P prog Q R :=
  fun w hw => (h w.state hw.2).elim

theorem pure (a : α) (h : ∀ s, P s → Q a s) : Runs D n n P (pure a : Work σ η ℓ α) Q R :=
  Triple.pure a fun _ hw => ⟨hw.1, h _ hw.2⟩

theorem widen {n' m' : Nat} {Q : α → Machine σ η ℓ → Prop}
    (h : Triple (fun w => D.live n w.outcomes ∧ P w.state) prog Q (fun e w => ∃ k, n ≤ k ∧ k < m ∧ (D.broken k e w.outcomes ∨ D.wild) ∧ R k w.state) (fun w => D.wild ∧ ∃ k, n ≤ k ∧ k < m ∧ R k w.state))
    (hLow : n' ≤ n) (hHigh : m ≤ m') : Triple (fun w => D.live n w.outcomes ∧ P w.state) prog Q
      (fun e w => ∃ k, n' ≤ k ∧ k < m' ∧ (D.broken k e w.outcomes ∨ D.wild) ∧ R k w.state)
      (fun w => D.wild ∧ ∃ k, n' ≤ k ∧ k < m' ∧ R k w.state) := by
  refine Triple.conseq h (fun w hw => hw) (fun a w hw => hw) ?_ ?_
  · intro e w hw
    obtain ⟨k, hFirst, hLast, hRest⟩ := hw
    exact ⟨k, by omega, by omega, hRest⟩
  · intro w hw
    obtain ⟨hWild, k, hFirst, hLast, hRest⟩ := hw
    exact ⟨hWild, k, by omega, by omega, hRest⟩

theorem bind {first : Work σ η ℓ α} {next : α → Work σ η ℓ β} {l : Nat} {S : β → σ → Prop}
    (hFirst : Runs D n m P first Q R) (hNext : ∀ a, Runs D m l (Q a) (next a) S R) (hLe : n ≤ m)
    (hLe' : m ≤ l) : Runs D n l P (first >>= next) S R :=
  Triple.bind (widen hFirst (Nat.le_refl n) hLe') fun a => widen (hNext a) hLe (Nat.le_refl l)

theorem recount {R : σ → Prop} (hSteady : D.Steady) (n' m' : Nat)
    (h : Runs D n m P prog Q fun _ => R) (hRange : n' < m') : Runs D n' m' P prog Q fun _ => R := by
  refine Triple.conseq h (fun w hw => ⟨hSteady.live n hw.1, hw.2⟩)
    (fun a w hw => ⟨hSteady.live m' hw.1, hw.2⟩) ?_ ?_
  · intro e w hw
    obtain ⟨k, -, -, hFault, hRest⟩ := hw
    exact ⟨n', Nat.le_refl n', hRange, hFault.imp_left (hSteady.broken n' e), hRest⟩
  · intro w hw
    obtain ⟨hWild, k, -, -, hRest⟩ := hw
    exact ⟨hWild, n', Nat.le_refl n', hRange, hRest⟩

theorem handle_rename {change : η → η} (hSteady : D.Steady) (h : Runs D n m P prog Q R) :
    Runs D n m P (prog.handle fun e => Prog.raise (change e)) Q R := by
  refine Triple.handle h fun e => Triple.raise _ fun w hw => ?_
  obtain ⟨k, hLow, hHigh, hFault, hRest⟩ := hw
  exact ⟨k, hLow, hHigh, hFault.imp_left (hSteady.broken k (change e)), hRest⟩

theorem handle_reraise {clean : η → Work σ η ℓ Unit} {c : Nat} {S S' : Nat → σ → Prop}
    (h : Runs D n m P prog Q R)
    (hClean : ∀ k e, n ≤ k → k < m → Runs (D.after k e) 0 c (R k) (clean e) (fun _ => S k) fun _ => S' k)
    (hEnd : ∀ k s, S k s → R' k s) (hWild : D.wild → ∀ k s, S' k s → R' k s)
    (hStop : D.wild → ∀ k s, R k s → R' k s) :
    Runs D n m P (prog.handle fun e => do clean e; Prog.raise e) Q R' := by
  have hAfter : ∀ e, Triple
      (fun w => ∃ k, n ≤ k ∧ k < m ∧ (D.broken k e w.outcomes ∨ D.wild) ∧ R k w.state)
      (do clean e; Prog.raise e : Work σ η ℓ α) (fun a w => D.live m w.outcomes ∧ Q a w.state)
      (fun e w => ∃ k, n ≤ k ∧ k < m ∧ (D.broken k e w.outcomes ∨ D.wild) ∧ R' k w.state)
      (fun w => D.wild ∧ ∃ k, n ≤ k ∧ k < m ∧ R' k w.state) := by
    intro e
    refine Triple.of_state fun w hw => ?_
    obtain ⟨k, hLow, hHigh, hFault, hRest⟩ := hw
    have hRun : Triple (fun t => (D.broken k e t.outcomes ∨ D.wild) ∧ R k t.state) (clean e)
        (fun _ t => (D.broken k e t.outcomes ∨ D.wild) ∧ S k t.state)
        (fun _ t => ∃ i, 0 ≤ i ∧ i < c ∧ (D.wild ∨ D.wild) ∧ S' k t.state)
        (fun t => D.wild ∧ ∃ i, 0 ≤ i ∧ i < c ∧ S' k t.state) := hClean k e hLow hHigh
    refine Triple.bind (hRun.conseq ?_ (fun _ _ h => h) ?_ ?_) fun _ => Triple.raise _ ?_
    · intro t ht
      rw [ht]
      exact ⟨hFault, hRest⟩
    · intro e' t ht
      obtain ⟨-, -, -, hBad, hS'⟩ := ht
      have hBad : D.wild := hBad.elim id id
      exact ⟨k, hLow, hHigh, Or.inr hBad, hWild hBad k _ hS'⟩
    · intro t ht
      obtain ⟨hBad, -, -, -, hS'⟩ := ht
      exact ⟨hBad, k, hLow, hHigh, hWild hBad k _ hS'⟩
    · intro t ht
      exact ⟨k, hLow, hHigh, ht.1, hEnd k _ ht.2⟩
  refine Triple.handle (Triple.conseq h (fun _ h => h) (fun _ _ h => h) (fun _ _ h => h) ?_) hAfter
  intro w hw
  obtain ⟨hBad, k, hLow, hHigh, hRest⟩ := hw
  exact ⟨hBad, k, hLow, hHigh, hStop hBad k _ hRest⟩

end Runs

/-- A program of so many operations that changes nothing here. -/
def Keeps (c : Nat) (prog : Work σ η ℓ Unit) : Prop :=
  ∀ (D : Discipline η ℓ) (n : Nat) (P : σ → Prop),
    Runs D n (n + c) P prog (fun _ => P) fun _ => P

theorem Runs.look {D : Discipline η ℓ} {n : Nat} {P : σ → Prop} {R : Nat → σ → Prop}
    (g : σ → α) (hR : ∀ s, P s → R n s) :
    Runs D n (n + 1) P (Faults.look g) (fun a s => P s ∧ g s = a) R := by
  unfold Faults.look
  exact Runs.operate (fun s hs => ⟨g s, rfl, hs, rfl⟩) fun s _ hs => hR s hs

theorem keeps_touch : Keeps 1 (touch : Work σ η ℓ Unit) := by
  intro D n P
  exact (Runs.look (fun _ => ()) fun _ hs => hs).conseq (fun _ hs => hs) (fun _ _ hs => hs.1)
    fun _ _ _ _ hs => hs

theorem Keeps.seq {c d : Nat} {first second : Work σ η ℓ Unit} (hFirst : Keeps c first)
    (hSecond : Keeps d second) : Keeps (c + d) (do first; second) := by
  intro D n P
  rw [← Nat.add_assoc]
  exact Runs.bind (hFirst D n P) (fun _ => hSecond D (n + c) P) (Nat.le_add_right n c)
    (Nat.le_add_right _ d)

/-- In front of what follows, with what a fault leaves there. -/
theorem Keeps.runs {c : Nat} {prog : Work σ η ℓ Unit} (h : Keeps c prog)
    {D : Discipline η ℓ} (n : Nat) {P : σ → Prop} {R : Nat → σ → Prop}
    (hR : ∀ k s, n ≤ k → k < n + c → P s → R k s) : Runs D n (n + c) P prog (fun _ => P) R :=
  (h D n P).conseq (fun _ hs => hs) (fun _ _ hs => hs) hR

theorem Runs.finallyDo {D : Discipline η ℓ} {n m c : Nat} {P : σ → Prop} {Q : α → σ → Prop}
    {R : Nat → σ → Prop} {prog : Work σ η ℓ α} {last : Work σ η ℓ Unit}
    (h : Runs D n m P prog Q R) (hLast : Keeps c last) (hLe : n ≤ m)
    (hQ : ∀ a k s, m ≤ k → k < m + c → Q a s → R k s) :
    Runs D n (m + c) P (Faults.finallyDo prog last) Q R := by
  have hFirst : Runs D n m P (prog.handle fun e => do last; Prog.raise e) Q R :=
    h.handle_reraise (c := 0 + c) (S := R)
      (fun k e _ _ => hLast (D.after k e) 0 (R k)) (fun _ _ hs => hs) (fun _ _ _ hs => hs)
      fun _ _ _ hs => hs
  refine Runs.bind hFirst (fun a => ?_) hLe (Nat.le_add_right m c)
  refine Runs.bind ((hLast D m (Q a)).conseq (fun _ hs => hs) (fun _ _ hs => hs)
    fun k s hLow hHigh hs => hQ a k s hLow hHigh hs) (fun _ => Runs.pure a fun _ hs => hs)
    (Nat.le_add_right m c) (Nat.le_refl _)

/-! ## Any faults -/

/-- From a state with `P` the program ends with `Q`, and wherever it fails or is cut off there is
`R`. -/
def Withstands (P : σ → Prop) (prog : Work σ η ℓ α) (Q : α → σ → Prop) (R : σ → Prop) : Prop :=
  Triple (fun w => P w.state) prog (fun a w => Q a w.state) (fun _ w => R w.state)
    fun w => R w.state

namespace Withstands

variable {P P' R R' : σ → Prop} {Q Q' : α → σ → Prop}
variable {prog : Work σ η ℓ α}

theorem of_runs {n m : Nat} {S : Nat → σ → Prop} (h : Runs Discipline.anything n m P prog Q S)
    (hR : ∀ k s, S k s → R s) : Withstands P prog Q R :=
  Triple.conseq h (fun _ hw => ⟨trivial, hw⟩) (fun _ _ hw => hw.2)
    (fun _ _ hw => by
      obtain ⟨k, -, -, -, hRest⟩ := hw
      exact hR k _ hRest)
    fun _ hw => by
      obtain ⟨-, k, -, -, hRest⟩ := hw
      exact hR k _ hRest

theorem operate {act : σ → Except η α × σ} {partly : ℓ → σ → σ}
    (hOk : ∀ s a, P s → (act s).1 = .ok a → Q a (act s).2)
    (hError : ∀ s e, P s → (act s).1 = .error e → R (act s).2)
    (hPart : ∀ s part, P s → R (partly part s)) : Withstands P (operate act partly) Q R := by
  intro w hw
  obtain ⟨state, outcomes⟩ := w
  simp only [Prog.exec, Faults.operate, ExceptT.run, ExceptT.mk, StateT.run]
  cases outcomes with
  | nil =>
    cases hResult : (act state).1 with
    | ok a => exact hOk state a hw hResult
    | error e => exact hError state e hw hResult
  | cons outcome rest =>
    cases outcome with
    | done =>
      cases hResult : (act state).1 with
      | ok a => exact hOk state a hw hResult
      | error e => exact hError state e hw hResult
    | fails e part | stops part => exact hPart state part hw

theorem conseq (h : Withstands P prog Q R) (hP : ∀ s, P' s → P s) (hQ : ∀ a s, Q a s → Q' a s)
    (hR : ∀ s, R s → R' s) : Withstands P' prog Q' R' :=
  Triple.conseq h (fun _ hw => hP _ hw) (fun a _ hw => hQ a _ hw) (fun _ _ hw => hR _ hw)
    fun _ hw => hR _ hw

theorem pure (a : α) (h : ∀ s, P s → Q a s) : Withstands P (pure a : Work σ η ℓ α) Q R :=
  Triple.pure a fun _ hw => h _ hw

theorem bind {first : Work σ η ℓ α} {next : α → Work σ η ℓ β} {S : β → σ → Prop}
    (hFirst : Withstands P first Q R) (hNext : ∀ a, Withstands (Q a) (next a) S R) :
    Withstands P (first >>= next) S R :=
  Triple.bind hFirst hNext

theorem look (g : σ → α) :
    Withstands P (Faults.look g : Work σ η ℓ α) (fun a s => P s ∧ g s = a) P :=
  of_runs (Runs.look (n := 0) (R := fun _ => P) g fun _ hs => hs) fun _ _ hs => hs

theorem keeps {c : Nat} {prog : Work σ η ℓ Unit} (h : Keeps c prog) :
    Withstands P prog (fun _ => P) P := of_runs (h Discipline.anything 0 P) fun _ _ hs => hs

/-- A failure that is passed over. -/
theorem handle {handler : η → Work σ η ℓ α} {M : σ → Prop} (h : Withstands P prog Q M)
    (hStop : ∀ s, M s → R s) (hHandler : ∀ e, Withstands M (handler e) Q R) :
    Withstands P (prog.handle handler) Q R :=
  Triple.handle (Triple.conseq h (fun _ h => h) (fun _ _ h => h) (fun _ _ h => h)
    fun _ hw => hStop _ hw) hHandler

theorem finallyDo {last : Work σ η ℓ Unit} {M : σ → Prop} (h : Withstands P prog Q M)
    (hStop : ∀ s, M s → R s) (hLast : Withstands M last (fun _ => M) R)
    (hEnd : ∀ a s, Q a s → M s) : Withstands P (finallyDo prog last) (fun _ => M) R := by
  refine bind (Q := fun _ => M) (handle (h.conseq (fun _ hs => hs) hEnd fun _ hs => hs) hStop
    fun e => ?_) fun a => ?_
  · exact bind hLast fun _ => Triple.raise e fun w hw => hStop _ hw
  · exact bind hLast fun _ => pure a fun _ hs => hs

/-- A loop that keeps what it starts with. -/
theorem forM {act : β → Work σ η ℓ PUnit} (h : ∀ b, Withstands P (act b) (fun _ => P) R)
    (items : List β) : Withstands P (items.forM act) (fun _ => P) R := by
  induction items with
  | nil => exact pure () fun _ hs => hs
  | cons b rest ih =>
    exact bind (h b) fun _ => ih

end Withstands

end SimplexAgent.Verified.Faults
