import SimplexAgent.Dataclass.ModelIoJson

/-!
# The conversation a loop works on

The state functions of `loop/src/loop.cpp`: how messages enter the history
(`integrate`, `integrate_response`, `project`) and the checks that guard it
(`validate_calls`, `validate_state_structure`, `validate_state_edit`).

They work on copies and commit by one assignment, so each is a function from a
state to a new state or to the failure that left the old one in place. The
integration policy is the default of `LLMModel::integrate`.

A history is settled when every call of every step has its result (`Answered`).
Only the last step may be open, and only in a phase that says so; that is what
`validate_state_structure` accepts (`validateStateStructure_spec`).
-/

namespace SimplexAgent.Loop

open Dataclass
open Verified.Tables (bind_ok)

/-- What a handler can tell about an exception. -/
inductive FailureKind where
  | recoveryRequired
  | operationAborted
  | other
  deriving DecidableEq

/-- An exception and its `what()` text. -/
structure Failure where
  kind : FailureKind := .other
  what : String
  deriving DecidableEq

/-- An exception of the standard library. -/
def refuse {α : Type} (what : String) : Except Failure α := .error { what }

/-- `if (c) throw …`. -/
def refuseIf (c : Prop) [Decidable c] (what : String) : Except Failure Unit :=
  if c then refuse what else .ok ()

/-! ## Integration -/

/-- Change the last element of a list, after adding one when there is none. -/
def updateLast {α : Type} (fallback : α) (f : α → α) : List α → List α
  | [] => [f fallback]
  | [x] => [f x]
  | x :: y :: rest => x :: updateLast fallback f (y :: rest)

/-- `LLMModel::integrate`, the default policy. -/
def modelIntegrate (state : AgentInputState) (item : MessageItem) : AgentInputState :=
  match item.type with
  | .userInput => { state with turns := state.turns ++ [{ userInput := item }] }
  | .modelResponse =>
    { state with
      turns := updateLast {} (fun turn =>
        { turn with agentLoopStep := turn.agentLoopStep ++ [{ modelResponse := item }] })
        state.turns }
  | .invokeReturn =>
    { state with
      turns := updateLast {} (fun turn =>
        { turn with
          agentLoopStep := updateLast {} (fun step =>
            { step with invokeReturns := some (step.invokeReturns.getD [] ++ [item]) })
            turn.agentLoopStep })
        state.turns }

def progress (state : AgentInputState) : LoopProgress := state.loop.getD {}

/-- `integrate_response`: a new step under the next commit sequence. -/
def integrateResponse (state : AgentInputState) (item : MessageItem) :
    Except Failure AgentInputState :=
  if (progress state).committedResponseSequence = 18446744073709551615 then
    refuse "model response commit sequence overflow"
  else
    let draft := modelIntegrate state item
    let hasStep := (draft.turns.getLast?.bind fun turn => turn.agentLoopStep.getLast?).isSome
    if hasStep then
      let sequence := (progress draft).committedResponseSequence + 1
      .ok { draft with
        loop := draft.loop.map fun p => { p with committedResponseSequence := sequence }
        turns := updateLast {} (fun turn =>
          { turn with
            agentLoopStep := updateLast {} (fun step => { step with commitSequence := sequence })
              turn.agentLoopStep })
          draft.turns }
    else refuse "model did not append a response step"

/-! ## Checks -/

/-- The loop of `validate_calls`, with the ids seen so far. -/
def validateCallIds (seen : List String) : List InvokeQuery → Except Failure Unit
  | [] => .ok ()
  | call :: rest =>
    if call.id = "" ∨ call.name = "" ∨ call.id ∈ seen then
      refuse "empty tool identity or duplicate tool id"
    else validateCallIds (call.id :: seen) rest

def validateCalls (item : MessageItem) : Except Failure Unit :=
  validateCallIds [] (item.invokes.getD [])

def callKey (q : InvokeQuery) : String × String := (q.id, q.name)

def stepCalls (step : AgentLoopStep) : List InvokeQuery := step.modelResponse.invokes.getD []

def stepReturns (step : AgentLoopStep) : List MessageItem := step.invokeReturns.getD []

/-- Each result names its call; the lists are of one length. -/
def validateReturns : List InvokeQuery → List MessageItem → Except Failure Unit
  | call :: calls, item :: items =>
    if item.type ≠ .invokeReturn ∨ item.invokes.isSome then
      refuse "invalid tool result in loop history"
    else if item.invokeReturn.map (fun r => callKey r.query) ≠ some (callKey call) then
      refuse "tool history identity mismatch"
    else validateReturns calls items
  | _, _ => .ok ()

/-- The pending results of a projection against the calls of the open step. -/
def validatePending (pending : List InvokeReturn) (calls : List InvokeQuery) :
    Except Failure Unit :=
  if pending.length ≠ calls.length then refuse "projection results do not match calls"
  else if pending.map (fun r => callKey r.query) ≠ calls.map callKey then
    refuse "projection result identity mismatch"
  else .ok ()

/-- Phases in which the last step may lack its results. -/
def recovering : LoopPhase → Bool
  | .tools | .blocked | .projection => true
  | .ready | .model => false

/-- The body of `validate_state_structure` for one step. -/
def validateStep (loop : Option LoopProgress) (lastStep : Bool) (step : AgentLoopStep) :
    Except Failure Unit := do
  refuseIf (step.modelResponse.type ≠ .modelResponse ∨ step.modelResponse.invokeReturn.isSome)
    "invalid model response in loop history"
  validateCalls step.modelResponse
  let calls := stepCalls step
  let returns := stepReturns step
  if returns.length ≠ calls.length then
    let phase := (loop.map LoopProgress.phase).getD .ready
    if ¬lastStep ∨ ¬recovering phase ∨ returns.length ≠ 0 ∨ calls.length = 0 then
      refuse "unresolved tool history requires inspection"
    else if phase = .projection then
      validatePending ((loop.map LoopProgress.pendingResults).getD []) calls
    else .ok ()
  else validateReturns calls returns

def validateSteps (loop : Option LoopProgress) (lastTurn : Bool) :
    List AgentLoopStep → Except Failure Unit
  | [] => .ok ()
  | step :: rest => do
    validateStep loop (lastTurn && rest.isEmpty) step
    validateSteps loop lastTurn rest

def validateTurns (loop : Option LoopProgress) : List UserLoopStep → Except Failure Unit
  | [] => .ok ()
  | turn :: rest => do
    refuseIf (turn.userInput.type ≠ .userInput ∨ turn.userInput.invokes.isSome ∨
        turn.userInput.invokeReturn.isSome)
      "invalid user message in loop history"
    validateSteps loop rest.isEmpty turn.agentLoopStep
    validateTurns loop rest

def renderFailure : JsonError → Failure
  | .logicError what | .invalidArgument what => { what }
  | .typeError expected _ => { what := "type must be " ++ expected }
  | .outOfRange key => { what := "key '" ++ key ++ "' not found" }

def validateRender (prompt : PromptTemplate) : Except Failure Unit :=
  match prompt.render with
  | .ok _ => .ok ()
  | .error e => .error (renderFailure e)

/-- `validate_state_structure`. -/
def validateStateStructure (state : AgentInputState) : Except Failure Unit := do
  validateRender state.systemPrompt
  validateTurns state.loop state.turns

/-- `validate_state_edit`: recovery markers are the loop's own. -/
def validateStateEdit (state before : AgentInputState) : Except Failure Unit :=
  match state.loop, before.loop with
  | some current, some previous => do
    refuseIf (current.status ≠ previous.status ∨ current.phase ≠ previous.phase ∨
        current.completedExchanges ≠ previous.completedExchanges ∨
        current.committedResponseSequence ≠ previous.committedResponseSequence ∨
        current.error ≠ previous.error ∨
        current.pendingResults.length ≠ previous.pendingResults.length)
      "state hook changed loop progress"
    refuseIf (previous.pendingResults ≠ [] ∧
        ¬Json.equals (.arr (current.pendingResults.map InvokeReturn.toJson))
          (.arr (previous.pendingResults.map InvokeReturn.toJson)))
      "state hook changed pending tool results"
    validateStateStructure state
    if previous.phase ≠ .ready then
      refuseIf (¬Json.equals (.arr (state.turns.map UserLoopStep.toJson))
          (.arr (before.turns.map UserLoopStep.toJson)))
        "state hook changed history requiring recovery"
    else
      refuseIf (before.turns ≠ [] ∧ state.turns = [])
        "state hook removed every conversation turn"
  | _, _ => refuse "state hook removed loop progress"

/-! ## Settling a batch -/

def resultItem (record : InvokeReturn) : MessageItem where
  type := .invokeReturn
  role := "tool"
  content := [record.output]
  invokeReturn := some record

/-- `project`: recorded results become messages, and the marker is cleared. -/
def project (state : AgentInputState) : Except Failure AgentInputState := do
  let draft := (progress state).pendingResults.foldl
    (fun draft record => modelIntegrate draft (resultItem record)) state
  validateStateStructure draft
  return { draft with
    loop := draft.loop.map fun p => { p with pendingResults := [], phase := .ready } }

/-- `skipped`: a result for each call that was not executed. -/
def skipped (calls : List InvokeQuery) : List InvokeReturn :=
  calls.map fun call =>
    { query := call
      output := { raw := "Not executed: loop stopped before tool dispatch." }
      extras := some (Json.object [("loop_skipped", .bool true)]) }

/-- `error_text` never sees more of an exception than its text. -/
def errorText (failure : Failure) : String := failure.what

/-! ## What validation accepts -/

variable {turns : List UserLoopStep}
variable {loop : Option LoopProgress} {calls : List InvokeQuery} {state : AgentInputState}

def answeredKey (item : MessageItem) : Option (String × String) :=
  item.invokeReturn.map fun r => callKey r.query

/-- Every call of the step has exactly one result under its id and name, in call order. -/
def Answered (step : AgentLoopStep) : Prop :=
  (stepReturns step).map answeredKey = (stepCalls step).map fun q => some (callKey q)

/-- The history has no open step. -/
def AllAnswered (turns : List UserLoopStep) : Prop :=
  ∀ turn ∈ turns, ∀ step ∈ turn.agentLoopStep, Answered step

theorem refuseIf_ok {c : Prop} [Decidable c] {what : String} {u : Unit}
    (h : refuseIf c what = .ok u) : ¬c := by
  intro hc
  rw [refuseIf, if_pos hc] at h
  cases h

theorem validateReturns_ok : ∀ {items : List MessageItem}, items.length = calls.length →
      validateReturns calls items = .ok () →
      items.map answeredKey = calls.map fun q => some (callKey q) := by
  induction calls with
  | nil =>
    intro items hLength _
    rw [List.length_eq_zero_iff.mp hLength]
    rfl
  | cons call calls ih =>
    intro items hLength hValid
    cases items with
    | nil => simp at hLength
    | cons item items =>
      simp only [validateReturns] at hValid
      split at hValid
      · cases hValid
      · split at hValid
        · cases hValid
        · rename_i hKey
          have hRest := ih (by simpa using hLength) hValid
          simp only [ne_eq, not_not] at hKey
          simp [answeredKey, hKey, hRest]

theorem validateStep_ok {lastStep : Bool} {step : AgentLoopStep}
    (hValid : validateStep loop lastStep step = .ok ()) : Answered step ∨
      (lastStep = true ∧ recovering ((loop.map LoopProgress.phase).getD .ready) = true ∧
        stepReturns step = [] ∧ stepCalls step ≠ []) := by
  unfold validateStep at hValid
  obtain ⟨_, -, hValid⟩ := bind_ok hValid
  obtain ⟨_, -, hValid⟩ := bind_ok hValid
  simp only at hValid
  split at hValid
  · rename_i hOpen
    split at hValid
    · cases hValid
    · rename_i hAllowed
      simp only [not_or, Decidable.not_not] at hAllowed
      obtain ⟨hLast, hPhase, hReturns, hCalls⟩ := hAllowed
      refine Or.inr ⟨hLast, hPhase, ?_, ?_⟩
      · exact List.length_eq_zero_iff.mp (by simpa using hReturns)
      · intro hNil
        exact hCalls (by rw [hNil]; rfl)
  · rename_i hLength
    exact Or.inl (validateReturns_ok (by simpa using hLength) hValid)

theorem validateSteps_ok {lastTurn : Bool} {steps : List AgentLoopStep}
    (hValid : validateSteps loop lastTurn steps = .ok ()) : ∀ step ∈ steps, Answered step ∨
      (recovering ((loop.map LoopProgress.phase).getD .ready) = true ∧
        stepReturns step = [] ∧ stepCalls step ≠ []) := by
  induction steps with
  | nil => simp
  | cons first rest ih =>
    obtain ⟨_, hFirst, hRest⟩ := bind_ok hValid
    intro step hStep
    rcases List.mem_cons.mp hStep with rfl | hMem
    · rcases validateStep_ok hFirst with hAnswered | ⟨-, hOpen⟩
      · exact Or.inl hAnswered
      · exact Or.inr hOpen
    · exact ih hRest step hMem

theorem validateTurns_ok (hValid : validateTurns loop turns = .ok ()) :
    ∀ turn ∈ turns, ∀ step ∈ turn.agentLoopStep, Answered step ∨
      (recovering ((loop.map LoopProgress.phase).getD .ready) = true ∧
        stepReturns step = [] ∧ stepCalls step ≠ []) := by
  induction turns with
  | nil => simp
  | cons first rest ih =>
    obtain ⟨_, -, hSteps⟩ := bind_ok hValid
    obtain ⟨_, hFirst, hRest⟩ := bind_ok hSteps
    intro turn hTurn
    rcases List.mem_cons.mp hTurn with rfl | hMem
    · exact validateSteps_ok hFirst
    · exact ih hRest turn hMem

theorem validateStateStructure_turns (hValid : validateStateStructure state = .ok ()) :
    validateTurns state.loop state.turns = .ok () := by
  obtain ⟨_, -, hTurns⟩ := bind_ok hValid
  exact hTurns

/-- **Outside recovery validation means settled.** -/
theorem allAnswered_of_valid (hValid : validateStateStructure state = .ok ())
    (hPhase : recovering ((state.loop.map LoopProgress.phase).getD .ready) = false) :
    AllAnswered state.turns := by
  intro turn hTurn step hStep
  rcases validateTurns_ok (validateStateStructure_turns hValid) turn hTurn step hStep with
    hAnswered | ⟨hRecovering, -⟩
  · exact hAnswered
  · rw [hPhase] at hRecovering
    cases hRecovering

/-! ## What integration does to the history -/

theorem updateLast_concat {α : Type} (fallback : α) (f : α → α) (xs : List α) (x : α) :
    updateLast fallback f (xs ++ [x]) = xs ++ [f x] := by
  induction xs with
  | nil => rfl
  | cons y ys ih =>
    cases ys with
    | nil => rfl
    | cons z zs =>
      show y :: updateLast fallback f ((z :: zs) ++ [x]) = _
      rw [ih]
      rfl

/-- The last step asks for `calls` and has no results; all others are answered. -/
def OpenStep (turns : List UserLoopStep) (calls : List InvokeQuery) : Prop :=
  ∃ ts turn ss step, turns = ts ++ [turn] ∧ turn.agentLoopStep = ss ++ [step] ∧
    AllAnswered ts ∧ (∀ s ∈ ss, Answered s) ∧ stepCalls step = calls ∧ stepReturns step = []

def lastStep? (turns : List UserLoopStep) : Option AgentLoopStep :=
  turns.getLast?.bind fun turn => turn.agentLoopStep.getLast?

theorem OpenStep.lastStep (hOpen : OpenStep turns calls) :
    ∃ step, lastStep? turns = some step ∧ stepCalls step = calls := by
  obtain ⟨ts, turn, ss, step, rfl, hSteps, -, -, hCalls, -⟩ := hOpen
  exact ⟨step, by simp [lastStep?, hSteps], hCalls⟩

theorem OpenStep.allAnswered (hOpen : OpenStep turns []) : AllAnswered turns := by
  obtain ⟨ts, turn, ss, step, rfl, hSteps, hOld, hOthers, hCalls, hReturns⟩ := hOpen
  intro t ht s hs
  rcases List.mem_append.mp ht with hMem | hLast
  · exact hOld t hMem s hs
  · rw [List.mem_singleton.mp hLast, hSteps] at hs
    rcases List.mem_append.mp hs with hMem | hLast
    · exact hOthers s hMem
    · rw [List.mem_singleton.mp hLast, Answered, hReturns, hCalls]
      rfl

theorem modelIntegrate_userInput {item : MessageItem} (hType : item.type = .userInput) :
    modelIntegrate state item = { state with turns := state.turns ++ [{ userInput := item }] } := by
  simp [modelIntegrate, hType]

theorem AllAnswered.userInput (hAll : AllAnswered turns) (item : MessageItem) :
    AllAnswered (turns ++ [{ userInput := item }]) := by
  intro turn hTurn step hStep
  rcases List.mem_append.mp hTurn with hMem | hLast
  · exact hAll turn hMem step hStep
  · rw [List.mem_singleton.mp hLast] at hStep
    simp at hStep

theorem integrateResponse_turns (item : MessageItem) (hAll : AllAnswered turns)
    (sequence : UInt64) : OpenStep (updateLast {} (fun turn =>
        { turn with
          agentLoopStep := updateLast {} (fun step => { step with commitSequence := sequence })
            turn.agentLoopStep })
        (updateLast {} (fun turn =>
          { turn with agentLoopStep := turn.agentLoopStep ++ [{ modelResponse := item }] })
          turns)) (item.invokes.getD []) := by
  rcases List.eq_nil_or_concat turns with rfl | ⟨ts, turn, rfl⟩
  · exact ⟨[], _, [], { modelResponse := item, commitSequence := sequence }, rfl, rfl,
      by simp [AllAnswered], by simp, rfl, rfl⟩
  · simp only [List.concat_eq_append, updateLast_concat]
    refine ⟨ts, _, turn.agentLoopStep, { modelResponse := item, commitSequence := sequence },
      rfl, rfl, ?_, ?_, rfl, rfl⟩
    · intro t ht
      exact hAll t (by simp [ht])
    · intro s hs
      exact hAll turn (by simp) s hs

/-- **A committed response** opens one step under the next sequence. -/
theorem integrateResponse_ok {state state' : AgentInputState} {item : MessageItem}
    {p : LoopProgress} (hType : item.type = .modelResponse) (hLoop : state.loop = some p)
    (hAll : AllAnswered state.turns) (h : integrateResponse state item = .ok state') :
    OpenStep state'.turns (item.invokes.getD []) ∧
      p.committedResponseSequence ≠ 18446744073709551615 ∧
      state'.loop =
        some { p with committedResponseSequence := p.committedResponseSequence + 1 } := by
  unfold integrateResponse at h
  split at h
  · cases h
  · rename_i hOverflow
    simp only [modelIntegrate, hType] at h
    split at h
    · injection h with hEq
      subst hEq
      simp only [progress, hLoop, Option.getD_some] at hOverflow ⊢
      exact ⟨integrateResponse_turns item hAll _, hOverflow, by simp⟩
    · cases h

theorem foldl_resultItem (records : List InvokeReturn) :
    ∀ {state : AgentInputState} {ts : List UserLoopStep} {turn : UserLoopStep}
      {ss : List AgentLoopStep} {step : AgentLoopStep},
      state.turns = ts ++ [turn] → turn.agentLoopStep = ss ++ [step] →
      ∃ returns,
        records.foldl (fun draft r => modelIntegrate draft (resultItem r)) state =
          { state with turns := ts ++ [{ turn with agentLoopStep := ss ++
            [{ step with invokeReturns := returns }] }] } ∧
        returns.getD [] = stepReturns step ++ records.map resultItem := by
  induction records with
  | nil =>
    intro state ts turn ss step hTurns hSteps
    refine ⟨step.invokeReturns, ?_, by simp [stepReturns]⟩
    show state = _
    rw [← hSteps, ← hTurns]
  | cons r rest ih =>
    intro state ts turn ss step hTurns hSteps
    have hNext : modelIntegrate state (resultItem r) = { state with turns := ts ++
        [{ turn with agentLoopStep := ss ++
          [{ step with invokeReturns := some (stepReturns step ++ [resultItem r]) }] }] } := by
      simp only [modelIntegrate, resultItem, hTurns, updateLast_concat, hSteps]
      rfl
    have hTurns' : (modelIntegrate state (resultItem r)).turns = ts ++
        [{ turn with agentLoopStep := ss ++
          [{ step with invokeReturns := some (stepReturns step ++ [resultItem r]) }] }] := by
      rw [hNext]
    obtain ⟨returns, hFold, hReturns⟩ := ih hTurns' rfl
    refine ⟨returns, ?_, ?_⟩
    · rw [List.foldl_cons, hFold, hNext]
    · rw [hReturns]
      simp [stepReturns]

/-- **Projection settles the open step** when the results are those of its calls. -/
theorem project_ok {state state' : AgentInputState} {p : LoopProgress} (hLoop : state.loop = some p)
    (hOpen : OpenStep state.turns calls)
    (hPending : p.pendingResults.map (fun r => callKey r.query) = calls.map callKey)
    (h : project state = .ok state') : AllAnswered state'.turns ∧
      state'.loop = some { p with pendingResults := [], phase := .ready } := by
  obtain ⟨_, -, hEq⟩ := bind_ok h
  injection hEq with hEq
  subst hEq
  obtain ⟨ts, turn, ss, step, hTurns, hSteps, hOld, hOthers, hCalls, hReturns⟩ := hOpen
  obtain ⟨returns, hFold, hReturns'⟩ := foldl_resultItem p.pendingResults hTurns hSteps
  simp only [progress, hLoop, Option.getD_some, hFold]
  refine ⟨?_, rfl⟩
  intro t ht s hs
  rcases List.mem_append.mp ht with hMem | hLast
  · exact hOld t hMem s hs
  · rw [List.mem_singleton.mp hLast] at hs
    rcases List.mem_append.mp hs with hMem | hLast
    · exact hOthers s hMem
    · have hKeys := congrArg (List.map some) hPending
      simp only [List.map_map, Function.comp_def] at hKeys
      rw [List.mem_singleton.mp hLast]
      show (returns.getD []).map answeredKey = (stepCalls step).map _
      rw [hReturns', hReturns, hCalls, List.nil_append, List.map_map, ← hKeys]
      rfl

theorem skipped_keys (calls : List InvokeQuery) :
    (skipped calls).map (fun r => callKey r.query) = calls.map callKey := by
  simp [skipped, Function.comp_def]

/-! ## What an accepted edit keeps -/

theorem validateStateEdit_ok {state before : AgentInputState} {p : LoopProgress}
    (hLoop : before.loop = some p) (h : validateStateEdit state before = .ok ()) :
    ∃ q, state.loop = some q ∧ q.status = p.status ∧ q.phase = p.phase ∧
      q.completedExchanges = p.completedExchanges ∧
      q.committedResponseSequence = p.committedResponseSequence ∧ q.error = p.error ∧
      q.pendingResults.length = p.pendingResults.length ∧
      (p.pendingResults ≠ [] → Json.equals (.arr (q.pendingResults.map InvokeReturn.toJson))
        (.arr (p.pendingResults.map InvokeReturn.toJson)) = true) ∧
      validateStateStructure state = .ok () ∧
      (p.phase ≠ .ready → Json.equals (.arr (state.turns.map UserLoopStep.toJson))
        (.arr (before.turns.map UserLoopStep.toJson)) = true) := by
  unfold validateStateEdit at h
  rw [hLoop] at h
  cases hState : state.loop with
  | none =>
    rw [hState] at h
    cases h
  | some q =>
    rw [hState] at h
    obtain ⟨_, hProgress, h⟩ := bind_ok h
    obtain ⟨_, hPending, h⟩ := bind_ok h
    obtain ⟨_, hValid, h⟩ := bind_ok h
    have hProgress := refuseIf_ok hProgress
    have hPending := refuseIf_ok hPending
    simp only [not_or, ne_eq, Decidable.not_not] at hProgress
    obtain ⟨h₁, h₂, h₃, h₄, h₅, h₆⟩ := hProgress
    refine ⟨q, rfl, h₁, h₂, h₃, h₄, h₅, h₆, ?_, hValid, ?_⟩
    · intro hNonempty
      by_contra hDiffer
      exact hPending ⟨hNonempty, hDiffer⟩
    · intro hPhase
      rw [if_pos hPhase] at h
      have hSame := refuseIf_ok h
      by_contra hDiffer
      exact hSame hDiffer

/-! ## Equal documents, equal calls

Edits of a history that is frozen are compared through JSON. What the loop relies
on survives that comparison: the identities of the calls of every step.
-/

open Json

theorem callKey_of_equals {q q' : InvokeQuery} (hEq : equals q.toJson q'.toJson = true) :
    callKey q = callKey q' := by
  have hId : ∀ r : InvokeQuery, r.toJson.find? "id" = some (.str r.id) := by
    intro r
    simp [InvokeQuery.toJson, find?_setOptional]
  have hName : ∀ r : InvokeQuery, r.toJson.find? "name" = some (.str r.name) := by
    intro r
    simp [InvokeQuery.toJson, find?_setOptional]
  have hSameId := find?_of_equals hEq "id"
  have hSameName := find?_of_equals hEq "name"
  simp only [hId, hName, Option.some.injEq, reduceCtorEq, false_and, false_or, exists_and_left,
    exists_eq_left'] at hSameId hSameName
  rw [callKey, callKey, eq_of_equals_str hSameId, eq_of_equals_str hSameName]

theorem pendingKeys_of_equals {rs rs' : List InvokeReturn}
    (hEq : equals (.arr (rs.map InvokeReturn.toJson)) (.arr (rs'.map InvokeReturn.toJson)) = true) :
    rs.map (fun r => callKey r.query) = rs'.map fun r => callKey r.query := by
  simp only [equals] at hEq
  refine map_eq_of_equalsItems ?_ rs rs' hEq
  intro r r' hSame
  have hQuery : ∀ r : InvokeReturn, r.toJson.find? "query" = some r.query.toJson := by
    intro r
    simp [InvokeReturn.toJson, find?_setOptional]
  have hSameQuery := find?_of_equals hSame "query"
  simp only [hQuery, Option.some.injEq, reduceCtorEq, false_and, false_or, exists_and_left,
    exists_eq_left'] at hSameQuery
  exact callKey_of_equals hSameQuery

theorem stepCalls_of_equals {s s' : AgentLoopStep} (hEq : equals s.toJson s'.toJson = true) :
    (stepCalls s).map callKey = (stepCalls s').map callKey := by
  have hResponse : ∀ s : AgentLoopStep,
      s.toJson.find? "model_response" = some s.modelResponse.toJson := by
    intro s
    simp [AgentLoopStep.toJson, find?_setOptional]
  have hInvokes : ∀ m : MessageItem, m.toJson.find? "invokes" =
      m.invokes.map fun qs => .arr (qs.map InvokeQuery.toJson) := by
    intro m
    simp [MessageItem.toJson, find?_setOptional]
  have hSame := find?_of_equals hEq "model_response"
  simp only [hResponse, Option.some.injEq, reduceCtorEq, false_and, false_or, exists_and_left,
    exists_eq_left'] at hSame
  have hCalls := find?_of_equals hSame "invokes"
  rw [hInvokes, hInvokes] at hCalls
  unfold stepCalls
  cases hLeft : s.modelResponse.invokes with
  | none =>
    cases hRight : s'.modelResponse.invokes with
    | none => rfl
    | some qs => simp [hLeft, hRight] at hCalls
  | some qs =>
    cases hRight : s'.modelResponse.invokes with
    | none => simp [hLeft, hRight] at hCalls
    | some qs' =>
      simp only [hLeft, hRight, Option.map_some, Option.some.injEq, reduceCtorEq, false_and,
        false_or, exists_and_left, exists_eq_left', equals] at hCalls
      exact map_eq_of_equalsItems (fun _ _ h => callKey_of_equals h) qs qs' hCalls

def turnCalls (turns : List UserLoopStep) : List (List (List (String × String))) :=
  turns.map fun turn => turn.agentLoopStep.map fun step => (stepCalls step).map callKey

theorem turnCalls_of_equals {ts ts' : List UserLoopStep}
    (hEq : equals (.arr (ts.map UserLoopStep.toJson)) (.arr (ts'.map UserLoopStep.toJson)) = true) :
    turnCalls ts = turnCalls ts' := by
  simp only [equals] at hEq
  refine map_eq_of_equalsItems ?_ ts ts' hEq
  intro t t' hSame
  have hSteps : ∀ t : UserLoopStep, t.toJson.find? "agent_loop_step" =
      some (.arr (t.agentLoopStep.map AgentLoopStep.toJson)) := by
    intro t
    simp [UserLoopStep.toJson, find?_setOptional]
  have hSameSteps := find?_of_equals hSame "agent_loop_step"
  simp only [hSteps, Option.some.injEq, reduceCtorEq, false_and, false_or, exists_and_left,
    exists_eq_left', equals] at hSameSteps
  exact map_eq_of_equalsItems (fun _ _ h => stepCalls_of_equals h) _ _ hSameSteps

theorem lastStep_turnCalls (turns : List UserLoopStep) :
    (lastStep? turns).map (fun step => (stepCalls step).map callKey) =
      (turnCalls turns).getLast?.bind List.getLast? := by
  simp only [lastStep?, turnCalls, List.getLast?_map]
  cases turns.getLast? with
  | none => rfl
  | some turn => simp [List.getLast?_map]

end SimplexAgent.Loop
