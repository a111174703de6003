import SimplexAgent.Loop.HookFailure

/-!
# What is written ahead

A crash leaves what the last checkpoint has stored. The registry is called only in a state that a
checkpoint has stored just before (`step_ahead`). Results that were recorded are not lost either:
recovery makes of such a state what the run itself goes on with (`recover_projecting`).
-/

namespace SimplexAgent.Loop

open Dataclass
open Verified.Tables (bind_ok)

section Ahead

variable {W : Type} (env : Env W)

/-- A checkpoint before the tools, where the host has one, has stored the state and left this
world. -/
def Stored (state : AgentInputState) (world : W) : Prop :=
  ∀ save ∈ env.checkpoint, ∃ w, save .beforeTools state w = (.ok (), world)

/-- Between that checkpoint and the call of the registry there is one look at the stop flag. -/
def Ahead (c : Config W) : Prop :=
  match c.point with
  | .cleared _ _ _ => Stored env c.run.state c.run.world
  | .executing _ _ =>
    ∃ w, Stored env c.run.state w ∧ env.stopRequested w = (false, c.run.world)
  | _ => True

variable {env} {options : Options} {message : Option MessageItem}

/-- **One operation keeps it.** -/
theorem step_ahead (c : Config W) (h : Ahead env c) : Ahead env (step env options message c) := by
  obtain ⟨p, s⟩ := c
  cases p with
  | dispatching round calls hookError =>
    show Ahead env (saved env s .beforeTools _ _)
    unfold saved
    cases hSave : env.checkpoint with
    | none =>
      intro save hMem
      rw [hSave] at hMem
      cases hMem
    | some save =>
      refine called_rule (P := Ahead env) (fun _ hOk => ?_) fun _ _ => trivial
      intro other hMem
      rw [hSave, Option.mem_some_iff] at hMem
      exact ⟨s.world, hMem ▸ Prod.ext hOk rfl⟩
  | cleared round calls hookError =>
    show Ahead env (polled env s _ _)
    unfold polled
    by_cases hStop : (env.stopRequested s.world).1 = true
    · rw [if_pos hStop]
      trivial
    · rw [if_neg hStop]
      by_cases hHook : hookError ≠ ""
      · rw [if_pos hHook]
        trivial
      · rw [if_neg hHook]
        exact ⟨s.world, h, Prod.ext (Bool.eq_false_of_not_eq_true hStop) rfl⟩
  | started =>
    cases message with
    | none => trivial
    | some m => exact called_rule (P := Ahead env) (fun _ _ => trivial) fun _ _ => trivial
  | deciding round => exact deciding_rule (P := Ahead env) (fun _ _ => trivial) fun _ => trivial
  | _ =>
    -- Every other operation is of one of these kinds and leads elsewhere.
    first
    | trivial
    | exact h
    | exact checked_rule (P := Ahead env) (fun _ _ => trivial) fun _ _ => trivial
    | exact called_rule (P := Ahead env) (fun _ _ => trivial) fun _ _ => trivial
    | exact polled_rule (P := Ahead env) (fun _ => trivial) trivial
    | exact saved_rule (P := Ahead env) (fun _ => trivial) fun _ _ => trivial
    | exact editedBy_rule (P := Ahead env) trivial (fun _ _ _ => trivial) fun _ _ => trivial
    | show Ahead env (if _ then _ else _)
      split_ifs <;> first
        | trivial
        | exact checked_rule (P := Ahead env) (fun _ _ => trivial) fun _ _ => trivial
        | exact called_rule (P := Ahead env) (fun _ _ => trivial) fun _ _ => trivial

end Ahead

/-! ## States with an open step -/

variable {turns : List UserLoopStep} {calls : List InvokeQuery} {loop : Option LoopProgress}

theorem validateTurns_open (hOpen : OpenTurns turns calls)
    (hStep : ∀ step, SoundResponse step.modelResponse → stepCalls step = calls →
      stepReturns step = [] → validateStep loop true step = .ok ()) :
    validateTurns loop turns = .ok () := by
  obtain ⟨ts, turn, ss, step, rfl, hSteps, hTs, ⟨hType, hInvokes, hReturn⟩, hSs, hSound, hCalls,
    hReturns⟩ := hOpen
  have hLast : validateSteps loop true turn.agentLoopStep = .ok () := by
    rw [hSteps]
    clear hSteps
    induction ss with
    | nil => exact (congrArg (· >>= fun _ => .ok ()) (hStep step hSound hCalls hReturns) :)
    | cons first rest ih =>
      rw [List.cons_append, validateSteps, validateStep_closed loop _ (hSs first (by simp))]
      exact ih fun s hs => hSs s (by simp [hs])
  induction ts with
  | nil =>
    rw [List.nil_append, validateTurns, refuseIf_not (by simp [hType, hInvokes, hReturn])]
    exact (congrArg (· >>= fun _ => .ok ()) hLast :)
  | cons first rest ih =>
    obtain ⟨⟨hFirst, hNone, hNoReturn⟩, hClosed⟩ := hTs first (by simp)
    rw [List.cons_append, validateTurns, refuseIf_not (by simp [hFirst, hNone, hNoReturn])]
    show (validateSteps loop _ first.agentLoopStep >>= fun _ => validateTurns loop (rest ++ [turn])) = _
    rw [validateSteps_closed loop _ hClosed]
    exact ih fun t ht => hTs t (by simp [ht])

theorem validate_waiting {state : AgentInputState} {p : LoopProgress}
    (hRender : validateRender state.systemPrompt = .ok ()) (hOpen : OpenTurns state.turns calls)
    (hLoop : state.loop = some p) (hPhase : p.phase = .tools ∨ p.phase = .projection ∧
      p.pendingResults.map (fun r => callKey r.query) = calls.map callKey) :
    validateStateStructure state = .ok () := by
  unfold validateStateStructure
  rw [hRender]
  refine validateTurns_open hOpen fun step ⟨hType, hReturn, hSound⟩ hCalls hNone => ?_
  unfold validateStep
  rw [refuseIf_not (by simp [hType, hReturn]), hSound, hLoop]
  by_cases hNil : calls = []
  · simp [hCalls, hNil, hNone, validateReturns, bind, Except.bind]
  · rcases hPhase with hPhase | ⟨hPhase, hKeys⟩
    · simp [hCalls, hNil, hNone, hPhase, recovering, bind, Except.bind, eq_comm (a := 0)]
    · have hLength := congrArg List.length hKeys
      rw [List.length_map, List.length_map] at hLength
      simp [hCalls, hNil, hNone, hPhase, recovering, validatePending, hLength, hKeys, bind,
        Except.bind, eq_comm (a := 0)]

theorem keys_of_project {state after : AgentInputState} {p : LoopProgress}
    (hLoop : state.loop = some p) (hPhase : p.phase = .projection)
    (hOpen : OpenTurns state.turns calls) (h : project state = .ok after) :
    p.pendingResults.map (fun r => callKey r.query) = calls.map callKey := by
  have hClosed := (project_closed hLoop hPhase hOpen h).1
  obtain ⟨ts, turn, ss, step, hTurns, hSteps, -, -, -, -, rfl, hReturns⟩ := hOpen
  obtain ⟨returns, hValues, hProject⟩ := project_eq hLoop hTurns hSteps
  rw [hProject] at h
  obtain ⟨_, -, hAfter⟩ := bind_ok h
  obtain rfl := Except.ok.inj hAfter
  rw [hReturns, List.nil_append] at hValues
  obtain ⟨-, hLength, hValid⟩ := (hClosed _ (List.mem_append_right _ (List.mem_singleton_self _))).2
    { step with invokeReturns := returns } (List.mem_append_right _ (List.mem_singleton_self _))
  have hKeys := validateReturns_ok hLength hValid
  rw [show stepReturns { step with invokeReturns := returns } = _ from hValues, List.map_map] at hKeys
  refine List.map_injective_iff.mpr (Option.some_injective _) ?_
  rw [List.map_map, List.map_map]
  exact hKeys

/-- **Recovery finishes what was recorded** as the run itself does. -/
theorem recover_projecting {state after : AgentInputState} {p : LoopProgress}
    (hRender : validateRender state.systemPrompt = .ok ()) (hOpen : OpenTurns state.turns calls)
    (hLoop : state.loop = some p) (hPhase : p.phase = .projection) :
    recover state = .ok after ↔ project state = .ok after ∧ p.pendingResults ≠ [] := by
  unfold recover
  simp only [hLoop, hPhase, ne_eq, reduceCtorEq, not_true_eq_false, and_false, false_and, if_false,
    if_true]
  by_cases hNil : p.pendingResults = []
  · simp [hNil, refuse]
  rw [if_neg hNil]
  refine ⟨fun h => ⟨(bind_ok h).choose_spec.2, hNil⟩, fun ⟨h, _⟩ => ?_⟩
  rw [validate_waiting hRender hOpen hLoop (.inr ⟨hPhase, keys_of_project hLoop hPhase hOpen h⟩)]
  exact h

/-- What a crash may rely on. -/
def WrittenAhead {W : Type} (env : Env W) (c : Config W) : Prop :=
  match c.point with
  | .executing _ calls =>
    Has (Waiting calls .tools []) c.run ∧ validateStateStructure c.run.state = .ok () ∧
      ∃ w, Stored env c.run.state w ∧ env.stopRequested w = (false, c.run.world)
  | .saving _ _ | .projecting _ _ =>
    ∀ after, recover c.run.state = .ok after ↔
      project c.run.state = .ok after ∧ (progress c.run.state).pendingResults ≠ []
  | _ => True

/--
**Nothing is done before it is written.** At every moment of every run, whatever the environment
does: when the registry is about to be called, the last step is the committed response with exactly
these calls and no results, in phase `tools`, this state passes validation, and the last thing done
before a look at the stop flag was a checkpoint of it that returned. And while recorded results wait
for their projection, recovery of the state gives what the run makes of it, if there are any.
-/
theorem run_writesAhead {W : Type} (env : Env W) (options : Options)
    (message : Option MessageItem) (state : AgentInputState) (world : W) (n : Nat) :
    WrittenAhead env (advance env options message n ⟨.start, { state, world }⟩) := by
  have hReach : Reaches env options message { state, world } _ := advance_reaches .start n
  have hSound := reaches_sound rfl hReach
  have hAhead := reaches_invariant (P := Ahead env) hReach trivial step_ahead
  generalize advance env options message n ⟨.start, { state, world }⟩ = c at hSound hAhead ⊢
  obtain ⟨p, s⟩ := c
  have hRecover : (∃ calls records, Has (Waiting calls .projection records) s) → ∀ after,
      recover s.state = .ok after ↔
        project s.state = .ok after ∧ (progress s.state).pendingResults ≠ [] := by
    rintro ⟨calls, records, -, hRender, hOpen, p, hLoop, hPhase, -⟩ after
    rw [recover_projecting hRender hOpen hLoop hPhase, progress, hLoop]
    rfl
  cases p with
  | executing round calls =>
    refine ⟨hSound, ?_, hAhead⟩
    obtain ⟨-, hRender, hOpen, p, hLoop, hPhase, -⟩ := hSound
    exact validate_waiting hRender hOpen hLoop (.inl hPhase)
  | saving round hookError | projecting round hookError => exact hRecover hSound
  | _ => trivial

end SimplexAgent.Loop
