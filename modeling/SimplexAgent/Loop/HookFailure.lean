import SimplexAgent.Loop.MachineSound

/-!
# When an observer of a response fails

A response is committed before its observers are told. When one of them throws, the
batch of the response is closed without execution and the run fails. Between the two
the failure is carried as its text: `hook_error` is the empty string when there is none.

From the failed announcement on, the machine is on a path of its own (`Refusing`) as
long as the text is not empty. The path has no point at which the registry is called,
it ends, and it ends with status `failed`.
-/

namespace SimplexAgent.Loop

open Dataclass Verified.Interruptible

section Orbit

variable {W : Type} (env : Env W) (options : Options) (message : Option MessageItem)

/-- The configuration after a number of operations. -/
def advance (n : Nat) (c : Config W) : Config W := (step env options message)^[n] c

/-- A run ends by returning its result or with a failure of the last checkpoint. -/
def Final (c : Config W) : Prop := c.point = .returned ∨ ∃ f, c.point = .escaped f

end Orbit

section Path

variable {W : Type} {env : Env W} {options : Options} {message : Option MessageItem}
variable {c : Config W}
variable {response : MessageItem} {s₀ : RunState W}

theorem advance_add (n m : Nat) (c : Config W) : advance env options message (n + m) c =
      advance env options message m (advance env options message n c) := by
  rw [Nat.add_comm]
  exact Function.iterate_add_apply _ m n c

theorem reaches_advance (h : Reaches env options message s₀ c) :
    ∃ n, c = advance env options message n ⟨.start, s₀⟩ := by
  induction h with
  | start => exact ⟨0, rfl⟩
  | step _ ih =>
    obtain ⟨n, rfl⟩ := ih
    exact ⟨n + 1, (Function.iterate_succ_apply' _ n _).symm⟩

theorem advance_reaches (h : Reaches env options message s₀ c) (n : Nat) :
    Reaches env options message s₀ (advance env options message n c) := by
  induction n generalizing c with
  | zero => exact h
  | succ n ih => exact ih h.step

theorem final_advance (h : Final c) (n : Nat) : advance env options message n c = c := by
  apply Function.iterate_fixed
  obtain ⟨p, s⟩ := c
  rcases h with hReturned | ⟨f, hEscaped⟩
  · have hPoint : p = .returned := hReturned
    subst hPoint
    rfl
  · have hPoint : p = .escaped f := hEscaped
    subst hPoint
    rfl

/-- A run has one end. -/
theorem final_unique {c d : Config W} {n : Nat} (hc : Reaches env options message s₀ c)
    (hn : Final (advance env options message n c)) (hd : Reaches env options message s₀ d)
    (hFinal : Final d) : d = advance env options message n c := by
  obtain ⟨i, rfl⟩ := reaches_advance hc
  obtain ⟨j, rfl⟩ := reaches_advance hd
  rw [← advance_add] at hn ⊢
  rcases Nat.le_total j (i + n) with hle | hle
  · obtain ⟨k, hk⟩ := Nat.exists_eq_add_of_le hle
    rw [hk, advance_add, final_advance hFinal]
  · obtain ⟨k, hk⟩ := Nat.exists_eq_add_of_le hle
    rw [hk, advance_add, final_advance hn]

/-! ## The path of a refused batch -/

/-- The announcement of `response` fails with `f` at this moment. -/
def AnnouncementFails (env : Env W) (c : Config W) (round : Nat) (response : MessageItem)
    (f : Failure) : Prop :=
  (c.point = .committed round response ∧
    (env.publish .modelCommitted c.run.state c.run.world).1 = .error f) ∨
  (c.point = .noticed round response ∧
    (env.publish (.beforeToolBatch (response.invokes.getD [])) c.run.state c.run.world).1 =
      .error f)

/-- The points from a failed announcement to the end. -/
def Refusing (c : Config W) : Prop :=
  c.run.admitted = true ∧
  match c.point with
  | .announced _ response hookError => response.invokes.getD [] ≠ [] ∧ hookError ≠ ""
  | .marking _ _ hookError => hookError ≠ ""
  | .marked _ _ hookError => hookError ≠ ""
  | .dispatching _ _ hookError => hookError ≠ ""
  | .cleared _ _ hookError => hookError ≠ ""
  | .gathered _ hookError _ => hookError ≠ ""
  | .recorded _ hookError => hookError ≠ ""
  | .saving _ hookError => hookError ≠ ""
  | .projecting _ hookError => hookError ≠ ""
  | .projected _ hookError => hookError ≠ ""
  | .failed _ => True
  | .ended => c.run.result.status = .failed
  | .settling => c.run.result.status = .failed
  | .finishing => c.run.result.status = .failed
  | .finishFailed _ => c.run.result.status = .failed
  | .finished => c.run.result.status = .failed
  | .finalSaving => c.run.result.status = .failed
  | .returned => c.run.result.status = .failed
  | .escaped _ => c.run.result.status = .failed
  | _ => False

/-- How many operations such a path has left at most. -/
def refusingLeft : Point → Nat
  | .announced _ _ _ => 18
  | .marking _ _ _ => 17
  | .marked _ _ _ => 16
  | .dispatching _ _ _ => 15
  | .cleared _ _ _ => 14
  | .gathered _ _ _ => 13
  | .recorded _ _ => 12
  | .saving _ _ => 11
  | .projecting _ _ => 10
  | .projected _ _ => 9
  | .failed _ => 8
  | .ended => 7
  | .settling => 6
  | .finishing => 5
  | .finishFailed _ => 4
  | .finished => 3
  | .finalSaving => 2
  | _ => 0

/-- One step of the path: it stays on the path and gets closer to its end. -/
def Onward (c d : Config W) : Prop := Refusing d ∧ refusingLeft d.point < refusingLeft c.point

theorem step_refusing (h : Refusing c) : Onward c (step env options message c) ∨ Final c := by
  obtain ⟨p, s⟩ := c
  have hFail : ∀ (f : Failure) (w : W), 8 < refusingLeft p →
      Onward ⟨p, s⟩ ⟨.failed f, s.withWorld w⟩ := fun _ _ hLeft => ⟨⟨h.1, trivial⟩, hLeft⟩
  cases p with
  | announced round response hookError =>
    left
    show Onward _ (if _ then _ else _)
    rw [if_pos h.2.1]
    exact ⟨⟨h.1, h.2.2⟩, by simp [refusingLeft]⟩
  | marking round calls hookError | gathered round hookError records | settling =>
    exact Or.inl ⟨⟨h.1, h.2⟩, by simp [refusingLeft, step]⟩
  | marked round calls hookError | recorded round hookError =>
    exact Or.inl (published_rule (P := Onward _) (fun _ => ⟨h, by simp [refusingLeft]⟩)
      fun f w => hFail f w (by simp [refusingLeft]))
  | dispatching round calls hookError | saving round hookError =>
    exact Or.inl (saved_rule (P := Onward _) (fun _ => ⟨h, by simp [refusingLeft]⟩)
      fun f w => hFail f w (by simp [refusingLeft]))
  | cleared round calls hookError =>
    refine Or.inl (polled_rule (P := Onward _) (fun _ => ⟨h, by simp [refusingLeft]⟩) ?_)
    rw [if_pos h.2]
    exact ⟨h, by simp [refusingLeft]⟩
  | projecting round hookError =>
    exact Or.inl (checked_rule (P := Onward _) (fun _ _ => ⟨⟨h.1, h.2⟩, by simp [refusingLeft]⟩)
      fun f _ => hFail f s.world (by simp [refusingLeft]))
  | projected round hookError =>
    left
    show Onward _ (if _ then _ else _)
    rw [if_pos h.2]
    exact ⟨⟨h.1, trivial⟩, by simp [refusingLeft]⟩
  | failed f =>
    left
    show Onward _ (if _ then _ else _)
    have hAdmitted : s.admitted = true := h.1
    rw [if_neg (by simp [hAdmitted])]
    exact ⟨⟨hAdmitted, rfl⟩, by simp [refusingLeft]⟩
  | ended =>
    left
    show Onward _ (if _ then _ else _)
    rw [if_pos h.1]
    exact ⟨h, by simp [refusingLeft]⟩
  | finishing =>
    exact Or.inl (editedBy_rule (P := Onward _) ⟨h, by simp [refusingLeft]⟩
      (fun _ _ _ => ⟨⟨h.1, h.2⟩, by simp [refusingLeft]⟩)
      fun _ _ => ⟨h, by simp [refusingLeft]⟩)
  | finishFailed f => exact Or.inl ⟨⟨h.1, rfl⟩, by simp [refusingLeft, step]⟩
  | finished =>
    exact Or.inl (published_rule (P := Onward _) (fun _ => ⟨h, by simp [refusingLeft]⟩)
      fun _ _ => ⟨h, by simp [refusingLeft]⟩)
  | finalSaving =>
    exact Or.inl (saved_rule (P := Onward _) (fun _ => ⟨h, by simp [refusingLeft]⟩)
      fun _ _ => ⟨h, by simp [refusingLeft]⟩)
  | returned => exact Or.inr (Or.inl rfl)
  | escaped f => exact Or.inr (Or.inr ⟨f, rfl⟩)
  | _ => exact absurd h.2 id

/-- The whole path. -/
theorem advance_refusing (h : Refusing c) (n : Nat) :
    Refusing (advance env options message n c) := by
  induction n generalizing c with
  | zero => exact h
  | succ n ih =>
    have hStep : Onward c (step env options message c) ∨ Final c := step_refusing h
    rcases hStep with hOnward | hFinal
    · exact ih hOnward.1
    · rwa [final_advance hFinal]

theorem refusing_ends (h : Refusing c) : ∃ n, Final (advance env options message n c) := by
  induction hLeft : refusingLeft c.point using Nat.strong_induction_on generalizing c with
  | _ k ih =>
    have hStep : Onward c (step env options message c) ∨ Final c := step_refusing h
    rcases hStep with hOnward | hFinal
    · obtain ⟨n, hn⟩ := ih _ (hLeft ▸ hOnward.2) hOnward.1 rfl
      exact ⟨n + 1, hn⟩
    · exact ⟨0, hFinal⟩

theorem Refusing.failed (h : Refusing c) (hFinal : Final c) : c.run.result.status = .failed := by
  obtain ⟨p, s⟩ := c
  rcases hFinal with hReturned | ⟨e, hEscaped⟩
  · have hPoint : p = .returned := hReturned
    subst hPoint
    exact h.2
  · have hPoint : p = .escaped e := hEscaped
    subst hPoint
    exact h.2

theorem Refusing.not_executing (h : Refusing c) (round : Nat) (calls : List InvokeQuery) :
    c.point ≠ .executing round calls := by
  obtain ⟨p, s⟩ := c
  intro hPoint
  have hPoint : p = .executing round calls := hPoint
  subst hPoint
  exact h.2

/-! ## What becomes of the batch and of the run -/

/-- The registry is not called any more. -/
def Undispatched (env : Env W) (options : Options) (message : Option MessageItem)
    (c : Config W) : Prop :=
  ∀ n round calls, (advance env options message n c).point ≠ .executing round calls

def SkippedResults (env : Env W) (options : Options) (message : Option MessageItem)
    (c : Config W) (calls : List InvokeQuery) : Prop :=
  ∃ n step, lastStep? (advance env options message n c).run.state.turns = some step ∧
    stepCalls step = calls ∧ stepReturns step = (skipped calls).map resultItem

def EndsFailed (env : Env W) (options : Options) (message : Option MessageItem)
    (c : Config W) : Prop :=
  ∃ n, Final (advance env options message n c) ∧
    (advance env options message n c).run.result.status = .failed

/-- A checkpoint before or after a batch, or its observer, does not fail here. -/
def BarrierReturns (env : Env W) (c : Config W) : Prop :=
  match c.point with
  | .marked _ _ _ => (env.publish .toolDispatchCheckpoint c.run.state c.run.world).1 = .ok ()
  | .dispatching _ _ _ => ∀ save, env.checkpoint = some save →
      (save .beforeTools c.run.state c.run.world).1 = .ok ()
  | .recorded _ _ => (env.publish .toolResultsCheckpoint c.run.state c.run.world).1 = .ok ()
  | .saving _ _ => ∀ save, env.checkpoint = some save →
      (save .resultsReady c.run.state c.run.world).1 = .ok ()
  | _ => True

/-- The checkpoints that the run still comes to return. -/
def BarriersReturn (env : Env W) (options : Options) (message : Option MessageItem)
    (c : Config W) : Prop :=
  ∀ n, BarrierReturns env (advance env options message n c)

theorem announcementFails_step {round : Nat} {f : Failure}
    (hFails : AnnouncementFails env c round response f) (hCalls : response.invokes.getD [] ≠ []) :
    ∃ w, step env options message c =
      ⟨.announced round response (errorText f), c.run.withWorld w⟩ := by
  obtain ⟨p, s⟩ := c
  rcases hFails with ⟨hPoint, hPublish⟩ | ⟨hPoint, hPublish⟩
  · have hPoint : p = .committed round response := hPoint
    subst hPoint
    refine ⟨(env.publish .modelCommitted s.state s.world).2, ?_⟩
    simp only [step, published, called, hPublish]
  · have hPoint : p = .noticed round response := hPoint
    subst hPoint
    refine ⟨(env.publish (.beforeToolBatch (response.invokes.getD [])) s.state s.world).2, ?_⟩
    simp only [step, if_pos hCalls, published, called, hPublish]

theorem announcementFails_sound {round : Nat} {f : Failure} (hStart : s₀.admitted = false)
    (hReach : Reaches env options message s₀ c)
    (hFails : AnnouncementFails env c round response f) :
    Has (Waiting (response.invokes.getD []) .ready []) c.run := by
  have hSound := reaches_sound hStart hReach
  rcases hFails with ⟨hPoint, -⟩ | ⟨hPoint, -⟩
  · rw [hPoint] at hSound
    exact hSound
  · rw [hPoint] at hSound
    exact hSound

/-- The machine gets to a point with this conversation. -/
def LeadsTo (env : Env W) (options : Options) (message : Option MessageItem) (c : Config W)
    (p : Point) (state : AgentInputState) : Prop :=
  ∃ n s, advance env options message n c = ⟨p, s⟩ ∧ s.state = state

theorem LeadsTo.next {p q : Point} {state state' : AgentInputState}
    (h : LeadsTo env options message c p state)
    (hBarriers : BarriersReturn env options message c)
    (hStep : ∀ s : RunState W, s.state = state → BarrierReturns env ⟨p, s⟩ →
      ∃ s', step env options message ⟨p, s⟩ = ⟨q, s'⟩ ∧ s'.state = state') :
    LeadsTo env options message c q state' := by
  obtain ⟨n, s, hAdvance, hState⟩ := h
  obtain ⟨s', hNext, hState'⟩ := hStep s hState (hAdvance ▸ hBarriers n)
  refine ⟨n + 1, s', ?_, hState'⟩
  rw [advance_add, hAdvance]
  exact hNext

theorem LeadsTo.published {p q : Point} {state : AgentInputState} {event : Event}
    {otherwise : Failure → Point} (h : LeadsTo env options message c p state)
    (hBarriers : BarriersReturn env options message c)
    (hStep : ∀ s, step env options message ⟨p, s⟩ = published env s event q otherwise)
    (hOk : ∀ s, BarrierReturns env ⟨p, s⟩ → (env.publish event s.state s.world).1 = .ok ()) :
    LeadsTo env options message c q state := by
  refine h.next hBarriers fun s hs hHere =>
    ⟨s.withWorld (env.publish event s.state s.world).2, ?_, hs⟩
  rw [hStep]
  simp only [Loop.published, called, hOk s hHere]

theorem LeadsTo.saved {p q : Point} {state : AgentInputState} {boundary : Checkpoint}
    {otherwise : Failure → Point} (h : LeadsTo env options message c p state)
    (hBarriers : BarriersReturn env options message c)
    (hStep : ∀ s, step env options message ⟨p, s⟩ = saved env s boundary q otherwise)
    (hOk : ∀ s, BarrierReturns env ⟨p, s⟩ → ∀ save, env.checkpoint = some save →
      (save boundary s.state s.world).1 = .ok ()) :
    LeadsTo env options message c q state := by
  cases hSave : env.checkpoint with
  | none =>
    refine h.next hBarriers fun s hs _ => ⟨s, ?_, hs⟩
    rw [hStep]
    simp only [Loop.saved, hSave]
  | some save =>
    refine h.next hBarriers fun s hs hHere =>
      ⟨s.withWorld (save boundary s.state s.world).2, ?_, hs⟩
    rw [hStep]
    simp only [Loop.saved, hSave, called, hOk s hHere save hSave]

theorem announced_skips {round : Nat} {hookError : String} {s : RunState W}
    (hBarriers : BarriersReturn env options message ⟨.announced round response hookError, s⟩)
    (hCalls : response.invokes.getD [] ≠ []) (hHook : hookError ≠ "")
    (hState : Waiting (response.invokes.getD []) .ready [] s.state) :
    SkippedResults env options message ⟨.announced round response hookError, s⟩
      (response.invokes.getD []) := by
  have hStart : LeadsTo env options message ⟨.announced round response hookError, s⟩
      (.announced round response hookError) s.state := ⟨0, s, rfl, rfl⟩
  have hMarking : LeadsTo env options message _
      (.marking round (response.invokes.getD []) hookError) s.state :=
    hStart.next hBarriers fun t ht _ => ⟨t, if_pos hCalls, ht⟩
  have hMarked : LeadsTo env options message _ (.marked round (response.invokes.getD []) hookError)
      { s.state with loop := s.state.loop.map fun p => { p with phase := .tools } } :=
    hMarking.next hBarriers fun t ht _ =>
      ⟨t.mark (response.invokes.getD []), rfl, by rw [← ht]; rfl⟩
  have hDispatching := hMarked.published
    (q := .dispatching round (response.invokes.getD []) hookError) hBarriers (fun _ => rfl)
    fun _ h => h
  have hCleared := hDispatching.saved (q := .cleared round (response.invokes.getD []) hookError)
    hBarriers (fun _ => rfl) fun _ h => h
  have hGathered := hCleared.next
    (q := .gathered round hookError (skipped (response.invokes.getD []))) hBarriers
    fun t ht _ => ⟨t.withWorld (env.stopRequested t.world).2, by
      simp only [step, polled, if_pos hHook, ite_self], ht⟩
  have hRecorded : LeadsTo env options message _ (.recorded round hookError)
      { s.state with loop := s.state.loop.map fun p =>
        { p with phase := .projection, pendingResults := skipped (response.invokes.getD []) } } :=
    hGathered.next hBarriers fun t ht _ => ⟨t.record (skipped (response.invokes.getD [])), rfl, by
      simp only [RunState.record, ht, Option.map_map]
      rfl⟩
  have hSaving := hRecorded.published (q := .saving round hookError) hBarriers (fun _ => rfl)
    fun _ h => h
  have hProjecting := hSaving.saved (q := .projecting round hookError) hBarriers (fun _ => rfl)
    fun _ h => h
  have hWaiting : Waiting (response.invokes.getD []) .projection
      (skipped (response.invokes.getD []))
      { s.state with loop := s.state.loop.map fun p =>
        { p with phase := .projection, pendingResults := skipped (response.invokes.getD []) } } :=
    hState.withPhase _ (fun _ => rfl) fun _ _ => rfl
  obtain ⟨hRender, hOpen, p, hLoop, -, hRecords⟩ := hWaiting
  obtain ⟨state', step', hProject, hLast, hStepCalls, hReturns⟩ :=
    project_succeeds hLoop hRender hOpen (by rw [hRecords]; exact skipped_keys _)
  have hProjected : LeadsTo env options message _ (.projected round hookError) state' :=
    hProjecting.next hBarriers fun t ht _ => ⟨t.withState state', by
      simp only [step, ht, hProject, checked], rfl⟩
  obtain ⟨n, t, hAdvance, ht⟩ := hProjected
  refine ⟨n, step', ?_, hStepCalls, ?_⟩
  · rw [hAdvance]
    show lastStep? t.state.turns = _
    rw [ht, hLast]
  · rw [hReturns, hRecords]

end Path

/--
**A failed observer refuses the batch.** When an observer of a committed response or of
its batch throws an exception whose text is not empty, the registry is never called
again in that run, and the run ends as failed; `run` returns no other result. If the
checkpoints around the batch return, every call has received one `loop_skipped` result,
in call order.
-/
theorem hookFailure_refuses_batch {W : Type} (env : Env W) (options : Options)
    (message : Option MessageItem) (s₀ : RunState W) (hStart : s₀.admitted = false)
    (c : Config W) (hReach : Reaches env options message s₀ c) (round : Nat)
    (response : MessageItem) (f : Failure) (hFails : AnnouncementFails env c round response f)
    (hCalls : response.invokes.getD [] ≠ []) (hText : errorText f ≠ "") :
    Undispatched env options message c ∧ EndsFailed env options message c ∧
    (∀ fuel result s, (run env options message fuel).exec s₀ = (.ok result, s) →
      result.status = .failed) ∧
    (BarriersReturn env options message c →
      SkippedResults env options message c (response.invokes.getD [])) := by
  have hAnnounced : ∃ w, step env options message c =
      ⟨.announced round response (errorText f), c.run.withWorld w⟩ :=
    announcementFails_step hFails hCalls
  obtain ⟨w, hStep⟩ := hAnnounced
  have hState := announcementFails_sound hStart hReach hFails
  have hRefusing : Refusing (step env options message c) := by
    rw [hStep]
    exact ⟨hState.1, hCalls, hText⟩
  have hLater : ∀ n, Refusing (advance env options message (n + 1) c) :=
    advance_refusing hRefusing
  have hEnds : EndsFailed env options message c := by
    obtain ⟨n, hFinal⟩ := refusing_ends hRefusing
    exact ⟨n + 1, hFinal, (hLater n).failed hFinal⟩
  refine ⟨?_, hEnds, ?_, ?_⟩
  · intro n round' calls
    cases n with
    | zero =>
      intro hPoint
      rcases hFails with ⟨hCommitted, -⟩ | ⟨hNoticed, -⟩
      · exact absurd (hPoint.symm.trans hCommitted) (by simp)
      · exact absurd (hPoint.symm.trans hNoticed) (by simp)
    | succ n => exact (hLater n).not_executing round' calls
  · intro fuel result s hRun
    have hReached := run_reaches env options message fuel s₀
    rw [hRun] at hReached
    obtain ⟨n, hFinal, hStatus⟩ := hEnds
    have hSame := final_unique hReach hFinal hReached.2 (Or.inl rfl)
    rw [← hSame] at hStatus
    rw [hReached.1]
    exact hStatus
  · intro hBarriers
    have hSkips : SkippedResults env options message
        ⟨.announced round response (errorText f), c.run.withWorld w⟩
        (response.invokes.getD []) :=
      announced_skips (hStep ▸ fun n => hBarriers (n + 1)) hCalls hText hState.2
    obtain ⟨n, step', hLast⟩ := hSkips
    rw [← hStep] at hLast
    exact ⟨n + 1, step', hLast⟩

/-! ### A hook that throws -/

/-- `sampleEnv` with an observer of responses that throws. -/
def hookEnv (text : String) : Env Nat :=
  { sampleEnv with
    publish := fun event _ w =>
      match event with
      | .modelCommitted => (.error { what := text }, w)
      | _ => (.ok (), w) }

/-- The first message of a conversation. -/
def hookStart : RunState Nat := { state := {}, world := 0 }

def hookMessage : Option MessageItem := some { content := [{ raw := "hello" }] }

def hookResponse : MessageItem :=
  { type := .modelResponse, invokes := some [{ id := "call", name := "read" }] }

/-- The moment the first response is announced. -/
def hookCommitted (text : String) : Config Nat :=
  advance (hookEnv text) { maxExchanges := some 2 } hookMessage 25 ⟨.start, hookStart⟩

theorem hookCommitted_reached (text : String) :
    Reaches (hookEnv text) { maxExchanges := some 2 } hookMessage hookStart
      (hookCommitted text) :=
  advance_reaches Reaches.start 25

theorem hookEnv_barriers (text : String) (c : Config Nat) :
    BarriersReturn (hookEnv text) { maxExchanges := some 2 } hookMessage c := by
  intro n
  unfold BarrierReturns
  split <;> simp [hookEnv, sampleEnv]

theorem hookFailure_refuses_batch_sample :
    AnnouncementFails (hookEnv "no space left") (hookCommitted "no space left") 0 hookResponse
      { what := "no space left" } ∧
    BarriersReturn (hookEnv "no space left") { maxExchanges := some 2 } hookMessage
      (hookCommitted "no space left") ∧
    Undispatched (hookEnv "no space left") { maxExchanges := some 2 } hookMessage
      (hookCommitted "no space left") ∧
    EndsFailed (hookEnv "no space left") { maxExchanges := some 2 } hookMessage
      (hookCommitted "no space left") ∧
    SkippedResults (hookEnv "no space left") { maxExchanges := some 2 } hookMessage
      (hookCommitted "no space left") (hookResponse.invokes.getD []) := by
  have hFails : AnnouncementFails (hookEnv "no space left") (hookCommitted "no space left") 0
      hookResponse { what := "no space left" } := Or.inl ⟨rfl, rfl⟩
  have hBarriers := hookEnv_barriers "no space left" (hookCommitted "no space left")
  obtain ⟨hUndispatched, hFailed, -, hSkips⟩ :=
    hookFailure_refuses_batch (hookEnv "no space left") { maxExchanges := some 2 } hookMessage
      hookStart rfl (hookCommitted "no space left") (hookCommitted_reached _) 0 hookResponse
      { what := "no space left" } hFails (by decide) (by decide)
  exact ⟨hFails, hBarriers, hUndispatched, hFailed, hSkips hBarriers⟩

/-- An exception without a text: the batch runs and the run completes. -/
theorem emptyText_dispatches_batch :
    Reaches (hookEnv "") { maxExchanges := some 2 } hookMessage hookStart (hookCommitted "") ∧
    AnnouncementFails (hookEnv "") (hookCommitted "") 0 hookResponse { what := "" } ∧
    hookResponse.invokes.getD [] ≠ [] ∧
    BarriersReturn (hookEnv "") { maxExchanges := some 2 } hookMessage (hookCommitted "") ∧
    ¬Undispatched (hookEnv "") { maxExchanges := some 2 } hookMessage (hookCommitted "") ∧
    ¬EndsFailed (hookEnv "") { maxExchanges := some 2 } hookMessage (hookCommitted "") := by
  refine ⟨hookCommitted_reached "", Or.inl ⟨rfl, rfl⟩, by decide,
    hookEnv_barriers "" _, ?_, ?_⟩
  · intro hUndispatched
    exact hUndispatched 6 0 (hookResponse.invokes.getD []) rfl
  · rintro ⟨n, hFinal, hStatus⟩
    have hReach := hookCommitted_reached ""
    have hSame := final_unique hReach hFinal (advance_reaches hReach 40) (Or.inl rfl)
    rw [← hSame] at hStatus
    exact absurd hStatus (by decide)

end SimplexAgent.Loop
