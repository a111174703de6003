import SimplexAgent.Loop.Machine
import SimplexAgent.Loop.RunExit

/-!
# What holds at every point of a run

The history a run works on passes `validate_state_structure` at every moment: its
closed steps are well formed and answered, and between a commit and its projection
the last step is open. `Sound` says this point by point. It needs no promise about
the registry, since projection validates what it was handed.

Two consequences are used by the results about whole runs: a batch that was committed
can always be projected once matching results are recorded, and the phase in the
progress record tells which of the points a state was taken at.
-/

namespace SimplexAgent.Loop

open Dataclass
open Verified.Tables (bind_ok)

/-! ## Closed and open histories -/

def SoundResponse (response : MessageItem) : Prop :=
  response.type = .modelResponse ∧ response.invokeReturn = none ∧ validateCalls response = .ok ()

def ClosedStep (step : AgentLoopStep) : Prop :=
  SoundResponse step.modelResponse ∧ (stepReturns step).length = (stepCalls step).length ∧
    validateReturns (stepCalls step) (stepReturns step) = .ok ()

def SoundInput (turn : UserLoopStep) : Prop :=
  turn.userInput.type = .userInput ∧ turn.userInput.invokes = none ∧
    turn.userInput.invokeReturn = none

def ClosedTurn (turn : UserLoopStep) : Prop :=
  SoundInput turn ∧ ∀ step ∈ turn.agentLoopStep, ClosedStep step

def ClosedTurns (turns : List UserLoopStep) : Prop := ∀ turn ∈ turns, ClosedTurn turn

/-- The last step waits for the results of `calls`. -/
def OpenTurns (turns : List UserLoopStep) (calls : List InvokeQuery) : Prop :=
  ∃ ts turn ss step, turns = ts ++ [turn] ∧ turn.agentLoopStep = ss ++ [step] ∧
    ClosedTurns ts ∧ SoundInput turn ∧ (∀ s ∈ ss, ClosedStep s) ∧
    SoundResponse step.modelResponse ∧ stepCalls step = calls ∧ stepReturns step = []

/-! ## Validation of such histories -/

theorem refuseIf_not {c : Prop} [Decidable c] {what : String} (h : ¬c) :
    refuseIf c what = .ok () := by
  rw [refuseIf, if_neg h]

theorem validateStep_closed (loop : Option LoopProgress) (lastStep : Bool) {step : AgentLoopStep}
    (hClosed : ClosedStep step) : validateStep loop lastStep step = .ok () := by
  obtain ⟨⟨hType, hReturn, hCalls⟩, hLength, hReturns⟩ := hClosed
  unfold validateStep
  rw [refuseIf_not (by simp [hType, hReturn]), hCalls]
  show (if (stepReturns step).length ≠ (stepCalls step).length then _ else
    validateReturns (stepCalls step) (stepReturns step)) = _
  rw [if_neg (by simp [hLength]), hReturns]

theorem validateSteps_closed (loop : Option LoopProgress) (lastTurn : Bool)
    {steps : List AgentLoopStep} (hClosed : ∀ step ∈ steps, ClosedStep step) :
    validateSteps loop lastTurn steps = .ok () := by
  induction steps with
  | nil => rfl
  | cons first rest ih =>
    rw [validateSteps, validateStep_closed loop _ (hClosed first (by simp))]
    exact ih fun step hStep => hClosed step (by simp [hStep])

theorem validateTurns_closed (loop : Option LoopProgress) {turns : List UserLoopStep}
    (hClosed : ClosedTurns turns) : validateTurns loop turns = .ok () := by
  induction turns with
  | nil => rfl
  | cons first rest ih =>
    obtain ⟨⟨hType, hInvokes, hReturn⟩, hSteps⟩ := hClosed first (by simp)
    rw [validateTurns, refuseIf_not (by simp [hType, hInvokes, hReturn])]
    show (validateSteps loop _ first.agentLoopStep >>= fun _ => validateTurns loop rest) = _
    rw [validateSteps_closed loop _ hSteps]
    exact ih fun turn hTurn => hClosed turn (by simp [hTurn])

theorem validateStep_sound {loop : Option LoopProgress} {lastStep : Bool} {step : AgentLoopStep}
    (hValid : validateStep loop lastStep step = .ok ()) : SoundResponse step.modelResponse ∧
      (ClosedStep step ∨ (recovering ((loop.map LoopProgress.phase).getD .ready) = true ∧
          stepReturns step = [] ∧ stepCalls step ≠ [])) := by
  have hOpen := validateStep_ok hValid
  unfold validateStep at hValid
  obtain ⟨_, hShape, hValid⟩ := bind_ok hValid
  obtain ⟨_, hCalls, hValid⟩ := bind_ok hValid
  have hShape := refuseIf_ok hShape
  simp only [not_or, ne_eq, Decidable.not_not, Bool.not_eq_true, Option.isSome_eq_false_iff,
    Option.isNone_iff_eq_none] at hShape
  have hSound : SoundResponse step.modelResponse := ⟨hShape.1, hShape.2, hCalls⟩
  refine ⟨hSound, ?_⟩
  by_cases hLength : (stepReturns step).length = (stepCalls step).length
  · simp only [ne_eq, hLength, not_true_eq_false, if_false] at hValid
    exact Or.inl ⟨hSound, hLength, hValid⟩
  · rcases hOpen with hAnswered | ⟨-, hPhase, hNone, hSome⟩
    · exact absurd (by simpa using congrArg List.length hAnswered) hLength
    · exact Or.inr ⟨hPhase, hNone, hSome⟩

theorem validateSteps_sound {loop : Option LoopProgress} {lastTurn : Bool}
    {steps : List AgentLoopStep} (hValid : validateSteps loop lastTurn steps = .ok ())
    (hPhase : recovering ((loop.map LoopProgress.phase).getD .ready) = false) :
    ∀ step ∈ steps, ClosedStep step := by
  induction steps with
  | nil => simp
  | cons first rest ih =>
    obtain ⟨_, hFirst, hRest⟩ := bind_ok hValid
    intro step hStep
    rcases List.mem_cons.mp hStep with rfl | hMem
    · rcases (validateStep_sound hFirst).2 with hClosed | ⟨hOpen, -⟩
      · exact hClosed
      · rw [hPhase] at hOpen
        cases hOpen
    · exact ih hRest step hMem

theorem validateTurns_sound {loop : Option LoopProgress} {turns : List UserLoopStep}
    (hValid : validateTurns loop turns = .ok ())
    (hPhase : recovering ((loop.map LoopProgress.phase).getD .ready) = false) :
    ClosedTurns turns := by
  induction turns with
  | nil => simp [ClosedTurns]
  | cons first rest ih =>
    obtain ⟨_, hInput, hSteps⟩ := bind_ok hValid
    obtain ⟨_, hFirst, hRest⟩ := bind_ok hSteps
    have hInput := refuseIf_ok hInput
    simp only [not_or, ne_eq, Decidable.not_not, Bool.not_eq_true, Option.isSome_eq_false_iff,
      Option.isNone_iff_eq_none] at hInput
    intro turn hTurn
    rcases List.mem_cons.mp hTurn with rfl | hMem
    · exact ⟨hInput, validateSteps_sound hFirst hPhase⟩
    · exact ih hRest turn hMem

theorem validateSteps_last {loop : Option LoopProgress} {lastTurn : Bool}
    {steps : List AgentLoopStep} {step : AgentLoopStep}
    (hValid : validateSteps loop lastTurn (steps ++ [step]) = .ok ()) :
    validateStep loop lastTurn step = .ok () := by
  induction steps with
  | nil =>
    obtain ⟨_, hStep, -⟩ := bind_ok hValid
    simpa using hStep
  | cons first rest ih =>
    obtain ⟨_, -, hRest⟩ := bind_ok hValid
    exact ih hRest

theorem validateTurns_last {loop : Option LoopProgress} {turns : List UserLoopStep}
    {turn : UserLoopStep} (hValid : validateTurns loop (turns ++ [turn]) = .ok ()) :
    validateSteps loop true turn.agentLoopStep = .ok () := by
  induction turns with
  | nil =>
    obtain ⟨_, -, hSteps⟩ := bind_ok hValid
    obtain ⟨_, hLast, -⟩ := bind_ok hSteps
    exact hLast
  | cons first rest ih =>
    obtain ⟨_, -, hSteps⟩ := bind_ok hValid
    obtain ⟨_, -, hRest⟩ := bind_ok hSteps
    exact ih hRest

theorem validateStep_projection {p : LoopProgress} {lastStep : Bool} {step : AgentLoopStep}
    (hPhase : p.phase = .projection) (hValid : validateStep (some p) lastStep step = .ok ())
    (hOpen : (stepReturns step).length ≠ (stepCalls step).length) :
    p.pendingResults.length = (stepCalls step).length := by
  unfold validateStep at hValid
  obtain ⟨_, -, hValid⟩ := bind_ok hValid
  obtain ⟨_, -, hValid⟩ := bind_ok hValid
  simp only [if_pos hOpen, Option.map_some, Option.getD_some, hPhase] at hValid
  split at hValid
  · cases hValid
  · simp only [if_true] at hValid
    unfold validatePending at hValid
    split at hValid
    · cases hValid
    · rename_i hLength
      exact Decidable.not_not.mp hLength

/-! ## What the loop does to such histories -/

theorem ClosedTurns.append {turns : List UserLoopStep} {turn : UserLoopStep}
    (hTurns : ClosedTurns turns) (hTurn : ClosedTurn turn) : ClosedTurns (turns ++ [turn]) := by
  intro t ht
  rcases List.mem_append.mp ht with hMem | hLast
  · exact hTurns t hMem
  · rwa [List.mem_singleton.mp hLast]

theorem ClosedTurns.userInput {state : AgentInputState} {item : MessageItem}
    (hTurns : ClosedTurns state.turns) (hUser : isUserMessage item = true) :
    ClosedTurns (modelIntegrate state item).turns := by
  simp only [isUserMessage, decide_eq_true_eq, Option.isNone_iff_eq_none] at hUser
  rw [modelIntegrate_userInput hUser.1]
  exact hTurns.append ⟨hUser, by simp⟩

theorem ClosedTurns.response {state state' : AgentInputState} {item : MessageItem}
    (hTurns : ClosedTurns state.turns) (hSound : SoundResponse item)
    (hCommit : integrateResponse state item = .ok state') :
    OpenTurns state'.turns (item.invokes.getD []) := by
  unfold integrateResponse at hCommit
  split at hCommit
  · cases hCommit
  · simp only [modelIntegrate, hSound.1] at hCommit
    split at hCommit
    · injection hCommit with hEq
      subst hEq
      rcases List.eq_nil_or_concat state.turns with hNil | ⟨ts, turn, hConcat⟩
      · simp only [hNil]
        exact ⟨[], _, [], { modelResponse := item, commitSequence := _ }, rfl, rfl,
          by simp [ClosedTurns], ⟨rfl, rfl, rfl⟩, by simp, hSound, rfl, rfl⟩
      · simp only [hConcat, List.concat_eq_append, updateLast_concat]
        rw [hConcat, List.concat_eq_append] at hTurns
        have hTurn := hTurns turn (by simp)
        exact ⟨ts, _, turn.agentLoopStep, { modelResponse := item, commitSequence := _ }, rfl, rfl,
          fun t ht => hTurns t (by simp [ht]), hTurn.1, hTurn.2, hSound, rfl, rfl⟩
    · cases hCommit

theorem validateReturns_resultItem {calls : List InvokeQuery} : ∀ {records : List InvokeReturn},
      records.map (fun r => callKey r.query) = calls.map callKey →
      validateReturns calls (records.map resultItem) = .ok () := by
  induction calls with
  | nil =>
    intro records hKeys
    rw [List.map_eq_nil_iff.mp hKeys]
    rfl
  | cons call calls ih =>
    intro records hKeys
    cases records with
    | nil => simp at hKeys
    | cons record records =>
      simp only [List.map_cons, List.cons.injEq] at hKeys
      simp only [List.map_cons, validateReturns]
      rw [if_neg (by simp [resultItem]), if_neg (by simp [resultItem, hKeys.1])]
      exact ih hKeys.2

def projectedState (state : AgentInputState) (p : LoopProgress) (ts : List UserLoopStep)
    (turn : UserLoopStep) (ss : List AgentLoopStep) (step : AgentLoopStep)
    (returns : Option (List MessageItem)) : AgentInputState :=
  { state with
    turns := ts ++ [{ turn with agentLoopStep := ss ++ [{ step with invokeReturns := returns }] }]
    loop := some { p with pendingResults := [], phase := .ready } }

theorem project_eq {state : AgentInputState} {p : LoopProgress} {ts : List UserLoopStep}
    {turn : UserLoopStep} {ss : List AgentLoopStep} {step : AgentLoopStep}
    (hLoop : state.loop = some p) (hTurns : state.turns = ts ++ [turn])
    (hSteps : turn.agentLoopStep = ss ++ [step]) :
    ∃ returns, returns.getD [] = stepReturns step ++ p.pendingResults.map resultItem ∧
      project state =
        (validateStateStructure { state with turns := ts ++ [{ turn with agentLoopStep := ss ++
            [{ step with invokeReturns := returns }] }] } >>=
          fun _ => .ok (projectedState state p ts turn ss step returns)) := by
  obtain ⟨returns, hFold, hReturns⟩ := foldl_resultItem p.pendingResults hTurns hSteps
  refine ⟨returns, hReturns, ?_⟩
  unfold project
  simp only [progress, hLoop, Option.getD_some, hFold]
  rfl

theorem project_closed {state state' : AgentInputState} {p : LoopProgress}
    {calls : List InvokeQuery} (hLoop : state.loop = some p) (hPhase : p.phase = .projection)
    (hOpen : OpenTurns state.turns calls) (h : project state = .ok state') :
    ClosedTurns state'.turns ∧ validateRender state'.systemPrompt = .ok () ∧
      state'.loop = some { p with pendingResults := [], phase := .ready } := by
  obtain ⟨ts, turn, ss, step, hTurns, hSteps, hTs, hInput, hSs, hSound, hCalls, hReturns⟩ := hOpen
  obtain ⟨returns, hValues, hProject⟩ := project_eq hLoop hTurns hSteps
  rw [hProject] at h
  obtain ⟨_, hValid, hEq⟩ := bind_ok h
  injection hEq with hEq
  subst hEq
  obtain ⟨_, hRender, hTurnsValid⟩ := bind_ok hValid
  refine ⟨hTs.append ⟨hInput, fun s hs => ?_⟩, hRender, rfl⟩
  rcases List.mem_append.mp hs with hMem | hLast
  · exact hSs s hMem
  · rw [List.mem_singleton.mp hLast]
    have hStep := validateSteps_last (validateTurns_last hTurnsValid)
    rw [hLoop] at hStep
    rcases (validateStep_sound hStep).2 with hClosed | ⟨-, hNone, hSome⟩
    · exact hClosed
    · have hNil : p.pendingResults = [] := by
        have hNone : returns.getD [] = [] := hNone
        rw [hValues, hReturns, List.nil_append, List.map_eq_nil_iff] at hNone
        exact hNone
      have hLength := validateStep_projection hPhase hStep (by
        rw [hNone]
        exact fun hZero => hSome (List.length_eq_zero_iff.mp hZero.symm))
      rw [hNil] at hLength
      exact absurd (List.length_eq_zero_iff.mp hLength.symm) hSome

/-- **A committed batch can be projected** once results under its names are recorded. -/
theorem project_succeeds {state : AgentInputState} {p : LoopProgress} {calls : List InvokeQuery}
    (hLoop : state.loop = some p) (hRender : validateRender state.systemPrompt = .ok ())
    (hOpen : OpenTurns state.turns calls)
    (hKeys : p.pendingResults.map (fun r => callKey r.query) = calls.map callKey) :
    ∃ state' step, project state = .ok state' ∧ lastStep? state'.turns = some step ∧
      stepCalls step = calls ∧ stepReturns step = p.pendingResults.map resultItem := by
  obtain ⟨ts, turn, ss, step, hTurns, hSteps, hTs, hInput, hSs, hSound, hCalls, hReturns⟩ := hOpen
  obtain ⟨returns, hValues, hProject⟩ := project_eq hLoop hTurns hSteps
  rw [hReturns, List.nil_append] at hValues
  have hStep : ClosedStep { step with invokeReturns := returns } := by
    refine ⟨hSound, ?_, ?_⟩
    · show (returns.getD []).length = (stepCalls step).length
      rw [hValues, hCalls]
      simpa using congrArg List.length hKeys
    · show validateReturns (stepCalls step) (returns.getD []) = _
      rw [hValues, hCalls]
      exact validateReturns_resultItem hKeys
  have hClosed : ClosedTurns (ts ++ [{ turn with agentLoopStep := ss ++
      [{ step with invokeReturns := returns }] }]) := by
    refine hTs.append ⟨hInput, fun s hs => ?_⟩
    rcases List.mem_append.mp hs with hMem | hLast
    · exact hSs s hMem
    · rwa [List.mem_singleton.mp hLast]
  refine ⟨projectedState state p ts turn ss step returns, { step with invokeReturns := returns },
    ?_, by simp [lastStep?, projectedState], hCalls, hValues⟩
  rw [hProject]
  unfold validateStateStructure
  simp only [hRender, validateTurns_closed _ hClosed]
  rfl

theorem integrateResponse_frame {state state' : AgentInputState} {item : MessageItem}
    {p : LoopProgress} (hType : item.type = .modelResponse) (hLoop : state.loop = some p)
    (h : integrateResponse state item = .ok state') : state'.systemPrompt = state.systemPrompt ∧
      state'.loop =
        some { p with committedResponseSequence := p.committedResponseSequence + 1 } := by
  unfold integrateResponse at h
  split at h
  · cases h
  · simp only [modelIntegrate, hType] at h
    split at h
    · injection h with hEq
      subst hEq
      exact ⟨rfl, by simp [progress, hLoop]⟩
    · cases h

/-! ## The invariant -/

/-- A settled conversation in phase `phase`. -/
def Closed (phase : LoopPhase) (state : AgentInputState) : Prop :=
  validateRender state.systemPrompt = .ok () ∧ ClosedTurns state.turns ∧
    ∃ p, state.loop = some p ∧ p.phase = phase ∧ p.pendingResults = []

/-- A conversation whose last step waits for the results of `calls`. -/
def Waiting (calls : List InvokeQuery) (phase : LoopPhase) (records : List InvokeReturn)
    (state : AgentInputState) : Prop :=
  validateRender state.systemPrompt = .ok () ∧ OpenTurns state.turns calls ∧
    ∃ p, state.loop = some p ∧ p.phase = phase ∧ p.pendingResults = records

section Invariant

variable {W : Type}

def Has (P : AgentInputState → Prop) (s : RunState W) : Prop := s.admitted = true ∧ P s.state

/-- The invariant of a run. A run that failed is past it. -/
def Sound : Point → RunState W → Prop
  | .start, s => s.admitted = false
  | .requested, s => s.admitted = false
  | .declining, s => s.admitted = false
  | .recovering, s => s.admitted = false
  | .recovered, s =>
    s.admitted = false ∧ recovering ((s.state.loop.map LoopProgress.phase).getD .ready) = false
  | .validated, s =>
    s.admitted = false ∧ validateRender s.state.systemPrompt = .ok () ∧ ClosedTurns s.state.turns
  | .admitting, s =>
    s.admitted = false ∧ validateRender s.state.systemPrompt = .ok () ∧ ClosedTurns s.state.turns
  | .accepting m, s => isUserMessage m = true ∧ Has (Closed .ready) s
  | .integrating m, s => isUserMessage m = true ∧ Has (Closed .ready) s
  | .rendered _ context, s =>
    validateRender context.systemPrompt = .ok () ∧ Has (Closed .ready) s
  | .requesting _ context, s =>
    validateRender context.systemPrompt = .ok () ∧ Has (Closed .ready) s
  | .model _, s => Has (Closed .model) s
  | .conversing _, s => Has (Closed .model) s
  | .aborted _, s => Has (Closed .model) s
  | .withdrawn _, s => Has (Closed .model) s
  | .withdrawing, s => Has (Closed .model) s
  | .unanswered _, s => Has (Closed .model) s
  | .responded _ _, s => Has (Closed .model) s
  | .committing _ response, s => SoundResponse response ∧ Has (Closed .model) s
  | .counting _ response, s => Has (Waiting (response.invokes.getD []) .model []) s
  | .committed _ response, s => Has (Waiting (response.invokes.getD []) .ready []) s
  | .noticed _ response, s => Has (Waiting (response.invokes.getD []) .ready []) s
  | .announced _ response _, s => Has (Waiting (response.invokes.getD []) .ready []) s
  | .marking _ calls _, s => Has (Waiting calls .ready []) s
  | .marked _ calls _, s => Has (Waiting calls .tools []) s
  | .dispatching _ calls _, s => Has (Waiting calls .tools []) s
  | .cleared _ calls _, s => Has (Waiting calls .tools []) s
  | .executing _ calls, s => Has (Waiting calls .tools []) s
  | .gathered _ _ _, s => ∃ calls, Has (Waiting calls .tools []) s
  | .recorded _ _, s => ∃ calls records, Has (Waiting calls .projection records) s
  | .saving _ _, s => ∃ calls records, Has (Waiting calls .projection records) s
  | .projecting _ _, s => ∃ calls records, Has (Waiting calls .projection records) s
  | .failed _, _ => True
  | .ended, _ => True
  | .settling, _ => True
  | .finishing, _ => True
  | .finishFailed _, _ => True
  | .finished, _ => True
  | .finalSaving, _ => True
  | .returned, _ => True
  | .escaped _, _ => True
  | _, s => Has (Closed .ready) s

theorem Closed.withPhase {phase phase' : LoopPhase} {state : AgentInputState}
    (hState : Closed phase state) (f : LoopProgress → LoopProgress)
    (hPhase : ∀ p, (f p).phase = phase') (hPending : ∀ p, (f p).pendingResults = p.pendingResults) :
    Closed phase' { state with loop := state.loop.map f } := by
  obtain ⟨hRender, hTurns, p, hLoop, -, hNone⟩ := hState
  exact ⟨hRender, hTurns, f p, by simp [hLoop], hPhase p, by rw [hPending, hNone]⟩

theorem Waiting.withPhase {calls : List InvokeQuery} {phase phase' : LoopPhase}
    {records records' : List InvokeReturn} {state : AgentInputState}
    (hState : Waiting calls phase records state) (f : LoopProgress → LoopProgress)
    (hPhase : ∀ p, (f p).phase = phase')
    (hPending : ∀ p, p.pendingResults = records → (f p).pendingResults = records') :
    Waiting calls phase' records' { state with loop := state.loop.map f } := by
  obtain ⟨hRender, hTurns, p, hLoop, -, hRecords⟩ := hState
  exact ⟨hRender, hTurns, f p, by simp [hLoop], hPhase p, hPending p hRecords⟩

theorem Closed.edit {state edited : AgentInputState} (hState : Closed .ready state)
    (hValid : validateStateEdit edited state = .ok ()) : Closed .ready edited := by
  obtain ⟨-, -, p, hLoop, hPhase, hNone⟩ := hState
  obtain ⟨q, hLoop', -, hPhase', -, -, -, hLength, -, hStructure, -⟩ :=
    validateStateEdit_ok hLoop hValid
  rw [hPhase] at hPhase'
  obtain ⟨_, hRender, hTurns⟩ := bind_ok hStructure
  refine ⟨hRender, validateTurns_sound hTurns ?_, q, hLoop', hPhase', ?_⟩
  · rw [hLoop', Option.map_some, Option.getD_some, hPhase']
    rfl
  · exact List.length_eq_zero_iff.mp (by rw [hLength, hNone]; rfl)

variable {env : Env W} {options : Options} {message : Option MessageItem}

def SoundAt (c : Config W) : Prop := Sound c.point c.run

/-- **One step keeps the invariant.** -/
theorem step_sound (c : Config W) (h : SoundAt c) : SoundAt (step env options message c) := by
  obtain ⟨p, s⟩ := c
  cases p with
  | start => exact checked_rule (P := SoundAt) (fun _ _ => h) fun _ _ => trivial
  | requested | polling round | model round | withdrawn failure | stepSaved round =>
    exact polled_rule (P := SoundAt) (fun _ => h) h
  | declining | cancelling | unanswered failure | settling | finishFailed failure | returned
  | escaped failure => trivial
  | recovering =>
    exact checked_rule (P := SoundAt) (fun _ hr => ⟨h, recover_phase hr⟩) fun _ _ => trivial
  | recovered =>
    refine checked_rule (P := SoundAt) (fun _ hr => ?_) fun _ _ => trivial
    obtain ⟨_, hRender, hTurns⟩ := bind_ok hr
    exact ⟨h.1, hRender, validateTurns_sound hTurns h.2⟩
  | validated => exact polled_rule (P := SoundAt) (fun _ => h.1) h
  | admitting => exact ⟨rfl, h.2.1, h.2.2, _, rfl, rfl, rfl⟩
  | opened | accepted | settled round | edited round =>
    exact published_rule (P := SoundAt) (fun _ => h) fun _ _ => trivial
  | started =>
    cases message with
    | none => exact h
    | some m => exact called_rule (P := SoundAt) (fun _ _ => h) fun _ _ => trivial
  | rewritten m =>
    show SoundAt (if isUserMessage m = true then _ else _)
    split
    · rename_i hUser
      exact ⟨hUser, h⟩
    · trivial
  | accepting m | rendered round context => exact polled_rule (P := SoundAt) (fun _ => h.2) h
  | integrating m =>
    obtain ⟨hUser, hAdmitted, hRender, hTurns, p, hLoop, hPhase, hNone⟩ := h
    refine ⟨hAdmitted, ?_, hTurns.userInput hUser, p, ?_, hPhase, hNone⟩
    · show validateRender (modelIntegrate s.state m).systemPrompt = _
      rw [modelIntegrate_userInput (isUserMessage_type hUser)]
      exact hRender
    · show (modelIntegrate s.state m).loop = _
      rw [modelIntegrate_userInput (isUserMessage_type hUser)]
      exact hLoop
  | entering => exact h
  | ready round | projected round hookError =>
    show SoundAt (if _ then _ else _)
    split
    · trivial
    · exact h
  | preparing round => exact called_rule (P := SoundAt) (fun _ _ => h) fun _ _ => trivial
  | prepared round context =>
    exact checked_rule (P := SoundAt) (fun _ hr => ⟨hr, h⟩) fun _ _ => trivial
  | requesting round context =>
    obtain ⟨hRender, hAdmitted, -, hTurns, hLoop⟩ := h
    exact ⟨hAdmitted, hRender, hTurns, hLoop⟩
  | opening round | withdrawing => exact ⟨h.1, h.2.withPhase _ (fun _ => rfl) fun _ => rfl⟩
  | conversing round => exact called_rule (P := SoundAt) (fun _ _ => h) fun _ _ => h
  | aborted failure =>
    show SoundAt (if _ then _ else _)
    split
    · exact h
    · exact h
  | responded round response =>
    show SoundAt (if _ then _ else _)
    split
    · trivial
    · rename_i hShape
      simp only [not_or, ne_eq, Decidable.not_not, Bool.not_eq_true,
        Option.isSome_eq_false_iff, Option.isNone_iff_eq_none] at hShape
      exact checked_rule (P := SoundAt) (fun _ hr => ⟨⟨hShape.1, hShape.2, hr⟩, h⟩)
        fun _ _ => trivial
  | committing round response =>
    refine checked_rule (P := SoundAt) (fun state hr => ?_) fun _ _ => trivial
    obtain ⟨hSound, hAdmitted, hRender, hTurns, p, hLoop, hPhase, hNone⟩ := h
    obtain ⟨hRender', hLoop'⟩ := integrateResponse_frame hSound.1 hLoop hr
    exact ⟨hAdmitted, by rw [← hRender]; exact congrArg validateRender hRender',
      hTurns.response hSound hr, _, hLoop', hPhase, hNone⟩
  | counting round response =>
    exact ⟨h.1, h.2.withPhase _ (fun _ => rfl) fun _ hp => hp⟩
  | committed round response => exact published_rule (P := SoundAt) (fun _ => h) fun _ _ => h
  | noticed round response =>
    show SoundAt (if _ then _ else _)
    split
    · exact published_rule (P := SoundAt) (fun _ => h) fun _ _ => h
    · exact h
  | announced round response hookError =>
    show SoundAt (if _ then _ else _)
    split
    · exact h
    · split
      · trivial
      · trivial
  | marking round calls hookError => exact ⟨h.1, h.2.withPhase _ (fun _ => rfl) fun _ hp => hp⟩
  | marked round calls hookError | recorded round hookError =>
    exact published_rule (P := SoundAt) (fun _ => h) fun _ _ => trivial
  | dispatching round calls hookError =>
    exact saved_rule (P := SoundAt) (fun _ => h) fun _ _ => trivial
  | cleared round calls hookError =>
    refine polled_rule (P := SoundAt) (fun _ => ⟨calls, h⟩) ?_
    by_cases hHook : hookError ≠ ""
    · rw [if_pos hHook]
      exact ⟨calls, h⟩
    · rw [if_neg hHook]
      exact h
  | executing round calls =>
    exact called_rule (P := SoundAt) (fun _ _ => ⟨calls, h⟩) fun _ _ => trivial
  | gathered round hookError records =>
    obtain ⟨calls, h⟩ := h
    exact ⟨calls, records, h.1, h.2.withPhase _ (fun _ => rfl) fun _ _ => rfl⟩
  | saving round hookError | stepSaving round =>
    exact saved_rule (P := SoundAt) (fun _ => h) fun _ _ => trivial
  | projecting round hookError =>
    refine checked_rule (P := SoundAt) (fun state hr => ?_) fun _ _ => trivial
    obtain ⟨calls, records, hAdmitted, -, hOpen, p, hLoop, hPhase, -⟩ := h
    obtain ⟨hClosed, hRender, hLoop'⟩ := project_closed hLoop hPhase hOpen hr
    exact ⟨hAdmitted, hRender, hClosed, _, hLoop', rfl, rfl⟩
  | editing round =>
    exact editedBy_rule (P := SoundAt) h (fun _ _ hValid => ⟨h.1, h.2.edit hValid⟩)
      fun _ _ => trivial
  | deciding round =>
    exact deciding_rule (P := SoundAt) (fun _ _ => trivial) fun _ => h
  | failed failure | ended =>
    show SoundAt (if _ then _ else _)
    split <;> trivial
  | finishing =>
    exact editedBy_rule (P := SoundAt) trivial (fun _ _ _ => trivial) fun _ _ => trivial
  | finished => exact published_rule (P := SoundAt) (fun _ => trivial) fun _ _ => trivial
  | finalSaving => exact saved_rule (P := SoundAt) (fun _ => trivial) fun _ _ => trivial

/-- **Every moment of a run is sound.** -/
theorem reaches_sound {s₀ : RunState W} {c : Config W} (hStart : s₀.admitted = false)
    (h : Reaches env options message s₀ c) : Sound c.point c.run :=
  reaches_invariant (P := SoundAt) h hStart step_sound

end Invariant

end SimplexAgent.Loop
