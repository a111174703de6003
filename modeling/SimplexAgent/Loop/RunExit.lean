import SimplexAgent.Loop.Run

/-!
# The state a run leaves behind

Whatever the model, the registry, the hooks and the checkpoint function do, the
state an admitted run leaves can be resumed: it is settled, or it holds the results
of its last step, or it is blocked because a batch was marked and its results were
never recorded.

The assertions below follow the phases. None of them mentions the world or the
result, so every outside operation keeps them, and the only steps that need an
argument are the writes of the run itself. A failure can leave any of the phases
(`Stopped`); settlement turns these into the phases a later run accepts.
-/

namespace SimplexAgent.Loop

open Dataclass Verified.Interruptible
open Verified.Tables (bind_ok)

/-! ## Assertions -/

/-- The history is settled, in phase `phase`. -/
def Settled (phase : LoopPhase) (state : AgentInputState) (_ : List Mark) : Prop :=
  ∃ p, state.loop = some p ∧ p.phase = phase ∧ p.pendingResults = [] ∧ AllAnswered state.turns

/-- The last step waits for the results of `calls`, which are not marked yet. -/
def Committed (calls : List InvokeQuery) (state : AgentInputState) (_ : List Mark) : Prop :=
  ∃ p, state.loop = some p ∧ p.phase = .ready ∧ p.pendingResults = [] ∧ OpenStep state.turns calls

def Dispatched (calls : List InvokeQuery) (state : AgentInputState) (marks : List Mark) : Prop :=
  ∃ p, state.loop = some p ∧ p.phase = .tools ∧ OpenStep state.turns calls ∧
    marks.getLast? = some (.dispatch calls)

def Recorded (calls : List InvokeQuery) (state : AgentInputState) (_ : List Mark) : Prop :=
  ∃ p, state.loop = some p ∧ p.phase = .projection ∧ OpenStep state.turns calls ∧
    p.pendingResults.map (fun r => callKey r.query) = calls.map callKey

/-- Where a failure can leave a run. -/
def Stopped (state : AgentInputState) (marks : List Mark) : Prop :=
  Settled .ready state marks ∨ Settled .model state marks ∨
    (∃ calls, Dispatched calls state marks) ∨ ∃ calls, Recorded calls state marks

/-- Pending results belong to the calls of the last step, one by one and in order. -/
def PendingMatch (pending : List InvokeReturn) (turns : List UserLoopStep) : Prop :=
  ∃ step, lastStep? turns = some step ∧
    pending.map (fun r => callKey r.query) = (stepCalls step).map callKey

/-- The last thing the run marked is a batch whose results it did not record. -/
def UnrecordedBatch (marks : List Mark) : Prop :=
  ∃ calls, marks.getLast? = some (.dispatch calls)

/-- A state that can be resumed or inspected. -/
def Recoverable (state : AgentInputState) (marks : List Mark) : Prop :=
  ∃ p, state.loop = some p ∧ ((p.phase = .ready ∧ p.pendingResults = [] ∧ AllAnswered state.turns) ∨
      (p.phase = .projection ∧ PendingMatch p.pendingResults state.turns) ∨
      (p.phase = .blocked ∧ UnrecordedBatch marks))

/-- The registry returns one record per call, in call order. -/
def Env.Correlated {W : Type} (env : Env W) : Prop :=
  ∀ calls w records, (env.execute calls w).1 = .ok records →
    records.map (fun r => callKey r.query) = calls.map callKey

section Triples

variable {W : Type} {env : Env W}

/-- An assertion about an admitted run. -/
def Holds (P : AgentInputState → List Mark → Prop) (s : RunState W) : Prop :=
  s.admitted = true ∧ P s.state s.marks

variable {P : AgentInputState → List Mark → Prop} {H : RunState W → Prop}

theorem settled_stopped : ∀ st ms, Settled .ready st ms → Stopped st ms :=
  fun _ _ h => Or.inl h

theorem model_stopped : ∀ st ms, Settled .model st ms → Stopped st ms :=
  fun _ _ h => Or.inr (Or.inl h)

variable (calls : List InvokeQuery) {state edited : AgentInputState} {marks : List Mark}

theorem dispatched_stopped : ∀ st ms, Dispatched calls st ms → Stopped st ms :=
  fun _ _ h => Or.inr (Or.inr (Or.inl ⟨calls, h⟩))

theorem recorded_stopped : ∀ st ms, Recorded calls st ms → Stopped st ms :=
  fun _ _ h => Or.inr (Or.inr (Or.inr ⟨calls, h⟩))

/-! ## Outside operations -/

variable {F : Failure → RunState W → Prop}

theorem external_keeps {α : Type} (f : AgentInputState → W → Except Failure α × W)
    (hP : ∀ e s, Holds P s → F e s) : Triple (Holds P) (external f) (fun _ => Holds P) F H :=
  Triple.call (fun _ _ hs _ => hs) fun s e hs _ =>
    hP e { s with world := (f s.state s.world).2 } hs

theorem publish_keeps (event : Event) (hP : ∀ e s, Holds P s → F e s) :
    Triple (Holds P) (publish env event) (fun _ => Holds P) F H :=
  external_keeps _ hP

theorem stopRequested_keeps : Triple (Holds P) (stopRequested env) (fun _ => Holds P) F H :=
  Triple.call (fun _ _ hs _ => hs) fun _ _ _ hError => by cases hError

theorem checkpoint_keeps (c : Checkpoint) (hP : ∀ e s, Holds P s → F e s) :
    Triple (Holds P) (checkpoint env c) (fun _ => Holds P) F H := by
  unfold checkpoint
  cases env.checkpoint with
  | none => exact Triple.pure () fun _ hs => hs
  | some save => exact external_keeps _ hP

theorem setResult_keeps (f : RunResult → RunResult) :
    Triple (Holds P) (setResult f) (fun _ => Holds P) F H :=
  Triple.modify _ fun _ hs => hs

/-! ## Edits -/

theorem editState_triple (event : EditEvent) {A : RunState W → Prop}
    (hWorld : ∀ s w, A s → A { s with world := w })
    (hEdit : ∀ s edited w, A s → validateStateEdit edited s.state = .ok () →
      A { s with state := edited, world := w }) :
    Triple A (editState env event) (fun _ => A) (fun _ => A) H := by
  apply Triple.call
  · intro s a hs
    dsimp only
    split
    · split
      · rename_i hOutcome
        obtain ⟨_, -, hValid⟩ := bind_ok hOutcome
        exact fun _ => hEdit s _ _ hs hValid
      · exact fun hOk => by cases hOk
    · exact fun _ => hs
  · intro s e hs
    dsimp only
    split
    · split
      · exact fun hError => by cases hError
      · exact fun _ => hWorld s _ hs
    · exact fun hError => by cases hError

theorem settled_edit (hSettled : Settled .ready state marks)
    (hValid : validateStateEdit edited state = .ok ()) : Settled .ready edited marks := by
  obtain ⟨p, hLoop, hPhase, hPending, -⟩ := hSettled
  obtain ⟨q, hLoop', -, hPhase', -, -, -, hLength, -, hStructure, -⟩ :=
    validateStateEdit_ok hLoop hValid
  rw [hPhase] at hPhase'
  refine ⟨q, hLoop', hPhase', ?_, ?_⟩
  · exact List.length_eq_zero_iff.mp (by rw [hLength, hPending]; rfl)
  · refine allAnswered_of_valid hStructure ?_
    rw [hLoop']
    show recovering q.phase = false
    rw [hPhase']
    rfl

theorem pendingMatch_edit {p q : LoopProgress} (hMatch : PendingMatch p.pendingResults state.turns)
    (hLength : q.pendingResults.length = p.pendingResults.length)
    (hPending : p.pendingResults ≠ [] → Json.equals (.arr (q.pendingResults.map InvokeReturn.toJson)) (.arr (p.pendingResults.map InvokeReturn.toJson)) = true)
    (hTurns : Json.equals (.arr (edited.turns.map UserLoopStep.toJson)) (.arr (state.turns.map UserLoopStep.toJson)) = true) :
    PendingMatch q.pendingResults edited.turns := by
  obtain ⟨step, hStep, hKeys⟩ := hMatch
  have hSame : q.pendingResults.map (fun r => callKey r.query) =
      p.pendingResults.map fun r => callKey r.query := by
    by_cases hNil : p.pendingResults = []
    · rw [hNil] at hLength ⊢
      rw [List.length_eq_zero_iff.mp hLength]
    · exact pendingKeys_of_equals (hPending hNil)
  have hLast := lastStep_turnCalls edited.turns
  rw [turnCalls_of_equals hTurns, ← lastStep_turnCalls, hStep, Option.map_some] at hLast
  obtain ⟨step', hStep', hCalls⟩ := Option.map_eq_some_iff.mp hLast
  exact ⟨step', hStep', by rw [hSame, hKeys, hCalls]⟩

theorem recoverable_edit (hState : Recoverable state marks)
    (hValid : validateStateEdit edited state = .ok ()) : Recoverable edited marks := by
  obtain ⟨p, hLoop, hReady | ⟨hPhase, hMatch⟩ | ⟨hPhase, hBatch⟩⟩ := hState
  · have hSettled : Settled .ready state marks := ⟨p, hLoop, hReady⟩
    obtain ⟨q, hLoop', hPhase', hPending', hAll⟩ := settled_edit hSettled hValid
    exact ⟨q, hLoop', Or.inl ⟨hPhase', hPending', hAll⟩⟩
  · obtain ⟨q, hLoop', -, hPhase', -, -, -, hLength, hPending, -, hTurns⟩ :=
      validateStateEdit_ok hLoop hValid
    refine ⟨q, hLoop', Or.inr (Or.inl ⟨hPhase'.trans hPhase, ?_⟩)⟩
    exact pendingMatch_edit hMatch hLength hPending (hTurns (by rw [hPhase]; decide))
  · obtain ⟨q, hLoop', -, hPhase', -⟩ := validateStateEdit_ok hLoop hValid
    exact ⟨q, hLoop', Or.inr (Or.inr ⟨hPhase'.trans hPhase, hBatch⟩)⟩

/-! ## Admission and input -/

theorem recover_phase {state state' : AgentInputState} (hRecover : recover state = .ok state') :
    recovering ((state'.loop.map LoopProgress.phase).getD .ready) = false := by
  unfold recover at hRecover
  split at hRecover
  · rename_i hLoop
    injection hRecover with hEq
    rw [← hEq, hLoop]
    rfl
  · rename_i p hLoop
    split at hRecover
    · cases hRecover
    · split at hRecover
      · cases hRecover
      · split at hRecover
        · split at hRecover
          · cases hRecover
          · obtain ⟨_, -, hProject⟩ := bind_ok hRecover
            obtain ⟨_, -, hDraft⟩ := bind_ok hProject
            injection hDraft with hEq
            rw [← hEq]
            dsimp only
            cases (List.foldl _ state _).loop <;> rfl
        · rename_i hPhase _ hOther
          injection hRecover with hEq
          rw [← hEq, hLoop]
          show recovering p.phase = false
          rcases hp : p.phase with _ | _ | _ | _ | _ <;> simp_all [recovering]

theorem recover_valid {state state' : AgentInputState} (hRecover : recover state = .ok state')
    (hValid : validateStateStructure state' = .ok ()) : AllAnswered state'.turns :=
  allAnswered_of_valid hValid (recover_phase hRecover)

/-- What a run is promised before admission. -/
def Unadmitted (s : RunState W) : Prop := s.admitted = false

theorem admission_triple (options : Options) (message : Option MessageItem) :
    Triple Unadmitted (admission env options message)
      (fun go s => if go = true then Holds (Settled .ready) s else Unadmitted s)
      (fun _ => Unadmitted) H := by
  unfold admission
  refine Triple.bind (R := fun t s => t = s ∧ Unadmitted s) (Triple.get fun s hs => ⟨rfl, hs⟩) ?_
  intro t
  refine Triple.bind (R := fun _ => Unadmitted)
    (Triple.check (fun _ _ _ hs => hs.2) fun _ _ _ hs => hs.2) ?_
  intro _
  refine Triple.bind (R := fun _ => Unadmitted) ?_ ?_
  · exact Triple.call (fun _ _ hs _ => hs) fun _ _ hs _ => hs
  intro stopped
  refine Triple.ite (fun _ => ?_) fun _ => ?_
  · refine Triple.bind (R := fun _ => Unadmitted) (Triple.modify _ fun _ hs => hs) ?_
    exact fun _ => Triple.pure false fun _ hs => by simpa using hs
  refine Triple.bind (R := fun t s => t = s ∧ Unadmitted s) (Triple.get fun s hs => ⟨rfl, hs⟩) ?_
  intro t
  refine Triple.bind (R := fun r s => recover t.state = .ok r ∧ Unadmitted s)
    (Triple.check (fun _ hr _ hs => ⟨hr, hs.2⟩) fun _ _ _ hs => hs.2) ?_
  intro recovered
  refine Triple.bind (R := fun _ s => recover t.state = .ok s.state ∧ Unadmitted s)
    (Triple.modify _ fun _ hs => hs) ?_
  intro _
  refine Triple.bind (R := fun u s => u = s ∧ recover t.state = .ok s.state ∧ Unadmitted s)
    (Triple.get fun s hs => ⟨rfl, hs⟩) ?_
  intro u
  refine Triple.bind (R := fun _ s => AllAnswered s.state.turns ∧ Unadmitted s)
    (Triple.check ?_ fun _ _ _ hs => hs.2.2) ?_
  · rintro _ hValid s ⟨rfl, hRecover, hOut⟩
    exact ⟨recover_valid hRecover hValid, hOut⟩
  intro _
  refine Triple.bind (R := fun _ s => AllAnswered s.state.turns ∧ Unadmitted s) ?_ ?_
  · exact Triple.call (fun _ _ hs _ => hs) fun _ _ hs _ => hs.2
  intro stopped
  refine Triple.ite (fun _ => ?_) fun _ => ?_
  · refine Triple.bind (R := fun _ => Unadmitted) (Triple.modify _ fun _ hs => hs.2) ?_
    exact fun _ => Triple.pure false fun _ hs => by simpa using hs
  · refine Triple.bind (R := fun _ => Holds (Settled .ready)) ?_ ?_
    · exact Triple.modify _ fun s hs => ⟨rfl, _, rfl, rfl, rfl, hs.1⟩
    · exact fun _ => Triple.pure true fun _ hs => by simpa using hs

theorem isUserMessage_type {message : MessageItem} (h : isUserMessage message = true) :
    message.type = .userInput := by
  simp only [isUserMessage, decide_eq_true_eq] at h
  exact h.1

theorem acceptInput_triple (message : MessageItem) :
    Triple (Holds (Settled .ready)) (acceptInput env message)
      (fun _ => Holds (Settled .ready)) (fun _ => Holds Stopped) H := by
  have hStop : ∀ (e : Failure) (s : RunState W), Holds (Settled .ready) s → Holds Stopped s :=
    fun _ _ hs => ⟨hs.1, settled_stopped _ _ hs.2⟩
  unfold acceptInput
  refine Triple.bind (external_keeps _ hStop) ?_
  intro message
  refine Triple.ite (fun _ => Triple.raise _ fun s hs => hStop {what := ""} s hs)
    fun hUser => ?_
  refine Triple.bind stopRequested_keeps ?_
  intro stopped
  refine Triple.ite (fun _ => Triple.pure () fun _ hs => hs) fun _ => ?_
  refine Triple.bind (R := fun t s => t = s ∧ Holds (Settled .ready) s)
    (Triple.get fun s hs => ⟨rfl, hs⟩) ?_
  intro t
  refine Triple.bind (R := fun _ => Holds (Settled .ready)) ?_ fun _ => publish_keeps _ hStop
  refine Triple.modify _ ?_
  rintro s ⟨rfl, hAdmitted, p, hLoop, hPhase, hPending, hAll⟩
  refine ⟨hAdmitted, p, ?_, hPhase, hPending, ?_⟩
  · rw [modelIntegrate_userInput (isUserMessage_type (by simpa using hUser))]
    exact hLoop
  · rw [modelIntegrate_userInput (isUserMessage_type (by simpa using hUser))]
    exact hAll.userInput message

/-! ## One exchange -/

theorem prepareModel_triple :
    Triple (Holds (Settled .ready)) (prepareModel env) (fun _ => Holds (Settled .ready))
      (fun _ => Holds Stopped) H := by
  have hStop : ∀ (e : Failure) (s : RunState W), Holds (Settled .ready) s → Holds Stopped s :=
    fun _ _ hs => ⟨hs.1, settled_stopped _ _ hs.2⟩
  unfold prepareModel
  refine Triple.of_state fun s₀ hs₀ => ?_
  obtain ⟨hAdmitted₀, p, hLoop, hPhase, hPending, hAll⟩ := hs₀
  have hStart : ∀ s : RunState W, s = s₀ → Holds (Settled .ready) s := by
    rintro s rfl
    exact ⟨hAdmitted₀, p, hLoop, hPhase, hPending, hAll⟩
  refine Triple.bind (R := fun t s => t.state = s₀.state ∧ Holds (Settled .ready) s)
    (Triple.get fun s hs => ⟨by rw [hs], hStart s hs⟩) ?_
  intro t
  refine Triple.of_state fun s₁ hs₁ => ?_
  have hState := hs₁.1
  refine Triple.pre ?_ fun s (hs : s = s₁) => (hs ▸ hs₁.2 : Holds (Settled .ready) s)
  refine Triple.bind (external_keeps _ hStop) ?_
  intro context
  refine Triple.bind (R := fun _ => Holds (Settled .ready))
    (Triple.check (fun _ _ _ hs => hs) fun e _ s hs => hStop e s hs) ?_
  intro _
  refine Triple.bind stopRequested_keeps ?_
  intro stopped
  refine Triple.ite (fun _ => ?_) fun _ => ?_
  · exact Triple.bind (setResult_keeps _) fun _ => Triple.pure false fun _ hs => hs
  · refine Triple.bind (R := fun _ => Holds (Settled .ready)) ?_
      fun _ => Triple.pure true fun _ hs => hs
    refine Triple.modify _ fun s hs => ⟨hs.1, p, ?_, hPhase, hPending, ?_⟩
    · show t.state.loop = some p
      rw [hState, hLoop]
    · show AllAnswered t.state.turns
      rw [hState]
      exact hAll

/-- A response leaves phase `model`; a cancellation goes back to `ready`. -/
theorem converse_triple : Triple (Holds (Settled .model)) (converse env)
      (fun response => Holds (Settled (if response.isSome then .model else .ready)))
      (fun _ => Holds Stopped) H := by
  have hKeep : ∀ (e : Failure) (s : RunState W), Holds (Settled .model) s →
      Holds (Settled .model) s := fun _ _ hs => hs
  unfold converse
  refine Triple.handle (F := fun _ => Holds (Settled .model)) ?_ ?_
  · refine Triple.bind stopRequested_keeps ?_
    intro stopped
    refine Triple.ite (fun _ => Triple.raise _ fun _ hs => hs) fun _ => ?_
    exact Triple.bind (external_keeps _ hKeep) fun response =>
      Triple.pure (some response) fun _ hs => hs
  · intro failure
    refine Triple.bind (R := fun _ => Holds (Settled .model)) ?_ ?_
    · unfold isCancellation
      exact Triple.ite (fun _ => stopRequested_keeps) fun _ => Triple.pure false fun _ hs => hs
    intro cancelled
    refine Triple.ite (fun _ => ?_) fun _ => ?_
    · refine Triple.bind (R := fun _ => Holds (Settled .ready)) ?_ ?_
      · refine Triple.modify _ ?_
        rintro s ⟨hAdmitted, p, hLoop, -, hPending, hAll⟩
        exact ⟨hAdmitted, { p with phase := .ready }, by simp [hLoop], rfl, hPending, hAll⟩
      · exact fun _ => Triple.bind (setResult_keeps _) fun _ => Triple.pure none fun _ hs => hs
    · exact Triple.bind (setResult_keeps _) fun _ =>
        Triple.raise _ fun _ hs => ⟨hs.1, model_stopped _ _ hs.2⟩

theorem commitResponse_triple (response : MessageItem) :
    Triple (Holds (Settled .model)) (commitResponse response)
      (fun _ => Holds (Committed (response.invokes.getD []))) (fun _ => Holds Stopped)
      H := by
  have hStop : ∀ s : RunState W, Holds (Settled .model) s → Holds Stopped s :=
    fun _ hs => ⟨hs.1, model_stopped _ _ hs.2⟩
  unfold commitResponse
  refine Triple.ite (fun _ => Triple.raise _ hStop) fun hType => ?_
  have hType : response.type = .modelResponse := by
    simp only [not_or, ne_eq, Decidable.not_not] at hType
    exact hType.1
  refine Triple.bind (R := fun _ => Holds (Settled .model))
    (Triple.check (fun _ _ _ hs => hs) fun _ _ s hs => hStop s hs) ?_
  intro _
  refine Triple.bind (R := fun t s => t = s ∧ Holds (Settled .model) s)
    (Triple.get fun s hs => ⟨rfl, hs⟩) ?_
  intro t
  refine Triple.bind
    (R := fun r s => s.admitted = true ∧ integrateResponse t.state response = .ok r ∧
      Settled .model t.state t.marks)
    (Triple.check ?_ fun _ _ s hs => hStop s hs.2) ?_
  · rintro r hr s ⟨rfl, hs⟩
    exact ⟨hs.1, hr, hs.2⟩
  intro committed
  refine Triple.bind (R := fun _ s => s.admitted = true ∧ ∃ p, s.state.loop = some p ∧
    p.pendingResults = [] ∧ OpenStep s.state.turns (response.invokes.getD [])) ?_ ?_
  · refine Triple.modify _ ?_
    rintro s ⟨hAdmitted, hIntegrate, p, hLoop, -, hPending, hAll⟩
    obtain ⟨hOpen, -, hLoop'⟩ := integrateResponse_ok hType hLoop hAll hIntegrate
    exact ⟨hAdmitted, _, hLoop', hPending, hOpen⟩
  intro _
  refine Triple.bind (R := fun _ s => s.admitted = true ∧ ∃ p, s.state.loop = some p ∧
    p.pendingResults = [] ∧ OpenStep s.state.turns (response.invokes.getD []))
    (Triple.get fun _ hs => hs) ?_
  intro t
  refine Triple.bind (R := fun _ => Holds (Committed (response.invokes.getD []))) ?_
    fun _ => setResult_keeps _
  refine Triple.modify _ ?_
  rintro s ⟨hAdmitted, p, hLoop, hPending, hOpen⟩
  exact ⟨hAdmitted,
    { p with phase := .ready, completedExchanges := t.result.completedExchanges + 1 },
    by simp [hLoop], rfl, hPending, hOpen⟩

theorem announceResponse_triple (response : MessageItem) :
    Triple (Holds P) (announceResponse env response) (fun _ => Holds P)
      (fun _ => Holds Stopped) H := by
  have hKeep : ∀ (e : Failure) (s : RunState W), Holds P s → Holds P s := fun _ _ hs => hs
  unfold announceResponse
  refine Triple.handle (F := fun _ => Holds P) ?_ fun _ => Triple.pure _ fun _ hs => hs
  refine Triple.bind (publish_keeps _ hKeep) fun _ => ?_
  refine Triple.ite (fun _ => ?_) fun _ => Triple.pure _ fun _ hs => hs
  exact Triple.bind (publish_keeps _ hKeep) fun _ => Triple.pure _ fun _ hs => hs

/-- Marking is the only write that opens the phase `tools`. -/
theorem markDispatch_triple :
    Triple (Holds (Committed calls)) (markDispatch calls) (fun _ => Holds (Dispatched calls)) F
      H := by
  refine Triple.modify _ ?_
  rintro s ⟨hAdmitted, p, hLoop, -, -, hOpen⟩
  exact ⟨hAdmitted, { p with phase := .tools }, by simp [hLoop], rfl, hOpen, by simp⟩

theorem dispatchBatch_triple (hRegistry : env.Correlated) (calls : List InvokeQuery)
    (hookError : String) : Triple (Holds (Committed calls)) (dispatchBatch env calls hookError)
      (fun records s => Holds (Dispatched calls) s ∧
        records.map (fun r => callKey r.query) = calls.map callKey)
      (fun _ => Holds Stopped) H := by
  have hStop : ∀ (e : Failure) (s : RunState W), Holds (Dispatched calls) s → Holds Stopped s :=
    fun _ _ hs => ⟨hs.1, dispatched_stopped calls _ _ hs.2⟩
  unfold dispatchBatch
  refine Triple.bind (markDispatch_triple calls) fun _ => ?_
  refine Triple.bind (publish_keeps _ hStop) fun _ => ?_
  refine Triple.bind (checkpoint_keeps _ hStop) fun _ => ?_
  refine Triple.bind stopRequested_keeps fun stopped => ?_
  refine Triple.ite (fun _ => Triple.pure _ fun _ hs => ⟨hs, skipped_keys calls⟩) fun _ => ?_
  exact Triple.call (fun s _ hs hOk => ⟨hs, hRegistry calls s.world _ hOk⟩) fun s e hs _ =>
    hStop e { s with world := (env.execute calls s.world).2 } hs

theorem projectBatch_triple (records : List InvokeReturn) :
    Triple (fun s => Holds (Dispatched calls) s ∧
        records.map (fun r => callKey r.query) = calls.map callKey)
      (projectBatch env records) (fun _ => Holds (Settled .ready)) (fun _ => Holds Stopped)
      H := by
  have hStop : ∀ (e : Failure) (s : RunState W), Holds (Recorded calls) s → Holds Stopped s :=
    fun _ _ hs => ⟨hs.1, recorded_stopped calls _ _ hs.2⟩
  unfold projectBatch
  refine Triple.bind (R := fun _ => Holds (Recorded calls)) ?_ fun _ => ?_
  · refine Triple.modify _ ?_
    rintro s ⟨⟨hAdmitted, p, hLoop, -, hOpen, -⟩, hKeys⟩
    exact ⟨hAdmitted, { p with phase := .projection, pendingResults := records },
      by simp [hLoop], rfl, hOpen, hKeys⟩
  refine Triple.bind (publish_keeps _ hStop) fun _ => ?_
  refine Triple.bind (checkpoint_keeps _ hStop) fun _ => ?_
  refine Triple.bind (R := fun t s => t = s ∧ Holds (Recorded calls) s)
    (Triple.get fun s hs => ⟨rfl, hs⟩) fun t => ?_
  refine Triple.bind (R := fun r s => s.admitted = true ∧ project t.state = .ok r ∧
    Recorded calls t.state t.marks) (Triple.check ?_ fun e _ s hs => hStop e s hs.2) ?_
  · rintro r hr s ⟨rfl, hs⟩
    exact ⟨hs.1, hr, hs.2⟩
  intro settled
  refine Triple.modify _ ?_
  rintro s ⟨hAdmitted, hProject, p, hLoop, -, hOpen, hKeys⟩
  obtain ⟨hAll, hLoop'⟩ := project_ok hLoop hOpen hKeys hProject
  exact ⟨hAdmitted, _, hLoop', rfl, rfl, hAll⟩

theorem finishStep_triple :
    Triple (Holds (Settled .ready)) (finishStep env) (fun _ => Holds (Settled .ready))
      (fun _ => Holds Stopped) H := by
  have hStop : ∀ (e : Failure) (s : RunState W), Holds (Settled .ready) s → Holds Stopped s :=
    fun _ _ hs => ⟨hs.1, settled_stopped _ _ hs.2⟩
  unfold finishStep
  refine Triple.bind (publish_keeps _ hStop) fun _ => ?_
  refine Triple.bind (R := fun _ => Holds (Settled .ready)) ?_ fun _ => ?_
  · refine (editState_triple .stepFinished (fun _ _ hs => hs) ?_).conseq (fun _ hs => hs)
      (fun _ _ hs => hs) (fun e s hs => hStop e s hs) fun _ hs => hs
    exact fun s edited w hs hValid => ⟨hs.1, settled_edit hs.2 hValid⟩
  exact Triple.bind (publish_keeps _ hStop) fun _ => checkpoint_keeps _ hStop

theorem settleBatch_triple (hRegistry : env.Correlated) (calls : List InvokeQuery)
    (hookError : String) : Triple (Holds (Committed calls)) (settleBatch env calls hookError)
      (fun _ => Holds (Settled .ready)) (fun _ => Holds Stopped) H := by
  unfold settleBatch
  refine Triple.bind (dispatchBatch_triple hRegistry calls hookError) fun records => ?_
  refine Triple.bind (projectBatch_triple calls records) fun _ => ?_
  refine Triple.ite (fun _ => Triple.raise _ ?_) fun _ => finishStep_triple
  exact fun s hs => ⟨hs.1, settled_stopped _ _ hs.2⟩

theorem boundary_triple (options : Options) :
    Triple (Holds P) (boundary env options) (fun _ => Holds P) F H := by
  unfold boundary
  refine Triple.bind stopRequested_keeps fun stopped => ?_
  refine Triple.ite (fun _ => ?_) fun _ => ?_
  · exact Triple.bind (setResult_keeps _) fun _ => Triple.pure _ fun _ hs => hs
  refine Triple.bind (R := fun _ => Holds P) (Triple.get fun _ hs => hs) fun t => ?_
  cases autoCompact options t.result with
  | none => exact Triple.pure _ fun _ hs => hs
  | some reason => exact Triple.bind (setResult_keeps _) fun _ => Triple.pure _ fun _ hs => hs

theorem settleResponse_triple (hRegistry : env.Correlated) (options : Options)
    (response : MessageItem) : Triple (Holds (Settled .model)) (settleResponse env options response)
      (fun _ => Holds (Settled .ready)) (fun _ => Holds Stopped) H := by
  unfold settleResponse
  refine Triple.bind (commitResponse_triple response) fun _ => ?_
  refine Triple.bind (announceResponse_triple response) fun hookError => ?_
  refine Triple.ite (fun _ => ?_) fun hNone => ?_
  · exact Triple.bind (settleBatch_triple hRegistry _ hookError) fun _ => boundary_triple options
  have hClosed : ∀ s : RunState W, Holds (Committed (response.invokes.getD [])) s →
      Holds (Settled .ready) s := by
    rintro s ⟨hAdmitted, p, hLoop, hPhase, hPending, hOpen⟩
    rw [Decidable.not_not.mp hNone] at hOpen
    exact ⟨hAdmitted, p, hLoop, hPhase, hPending, hOpen.allAnswered⟩
  refine Triple.pre ?_ hClosed
  refine Triple.ite (fun _ => Triple.raise _ fun s hs => ⟨hs.1, settled_stopped _ _ hs.2⟩) ?_
  exact fun _ => Triple.bind (setResult_keeps _) fun _ => Triple.pure _ fun _ hs => hs

/-- **One exchange** starts and ends settled, whatever happens in between. -/
theorem exchange_triple (hRegistry : env.Correlated) (options : Options) :
    Triple (Holds (Settled .ready)) (exchange env options) (fun _ => Holds (Settled .ready))
      (fun _ => Holds Stopped) H := by
  unfold exchange
  refine Triple.bind stopRequested_keeps fun stopped => ?_
  refine Triple.ite (fun _ => ?_) fun _ => ?_
  · exact Triple.bind (setResult_keeps _) fun _ => Triple.pure _ fun _ hs => hs
  refine Triple.bind prepareModel_triple fun ready => ?_
  refine Triple.ite (fun _ => ?_) fun _ => Triple.pure _ fun _ hs => hs
  refine Triple.bind (R := fun _ => Holds (Settled .model)) ?_ fun _ => ?_
  · refine Triple.modify _ ?_
    rintro s ⟨hAdmitted, p, hLoop, -, hPending, hAll⟩
    exact ⟨hAdmitted, { p with phase := .model }, by simp [hLoop], rfl, hPending, hAll⟩
  refine Triple.bind converse_triple fun response => ?_
  cases response with
  | none => exact Triple.pure _ fun _ hs => hs
  | some response => exact settleResponse_triple hRegistry options response

/-- A run may be cut off anywhere, or the rounds left suffice for its cap. -/
def MayEnd (H : RunState W → Prop) (options : Options) (fuel step : Nat) : Prop :=
  (∀ s, H s) ∨ ∃ n, options.maxExchanges = some n ∧ step ≤ n.toNat ∧ n.toNat < fuel + step

theorem exchanges_triple (hRegistry : env.Correlated) (options : Options) (fuel : Nat) :
    ∀ step, MayEnd H options fuel step →
      Triple (Holds (Settled .ready)) (exchanges env options fuel step)
        (fun _ => Holds (Settled .ready)) (fun _ => Holds Stopped) H := by
  induction fuel with
  | zero =>
    rintro step (hHalt | ⟨n, -, hStep, hEnough⟩)
    · exact Triple.halt fun s _ => hHalt s
    · omega
  | succ fuel ih =>
    intro step hEnd
    unfold exchanges
    refine Triple.ite (fun _ => Triple.pure _ fun _ hs => hs) fun hCap => ?_
    refine Triple.bind (exchange_triple hRegistry options) fun more => ?_
    refine Triple.ite (fun _ => ih (step + 1) ?_) fun _ => Triple.pure _ fun _ hs => hs
    rcases hEnd with hHalt | ⟨n, hMax, hStep, hEnough⟩
    · exact Or.inl hHalt
    · simp only [hMax, Option.any_some, decide_eq_true_eq] at hCap
      exact Or.inr ⟨n, hMax, by omega, by omega⟩

/-! ## The whole run -/

/-- Nothing before admission, `P` after it. -/
def AfterAdmission (P : AgentInputState → List Mark → Prop) (s : RunState W) : Prop :=
  s.admitted = true → P s.state s.marks

theorem work_triple (hRegistry : env.Correlated) (options : Options)
    (message : Option MessageItem) (fuel : Nat) (hEnd : MayEnd H options fuel 0) :
    Triple (Holds (Settled .ready)) (work env options message fuel)
      (fun _ => Holds (Settled .ready)) (fun _ => Holds Stopped) H := by
  unfold work
  refine Triple.bind (publish_keeps _ fun _ _ hs => ⟨hs.1, settled_stopped _ _ hs.2⟩) fun _ => ?_
  refine Triple.bind (R := fun _ => Holds (Settled .ready)) ?_ fun _ => ?_
  · cases message with
    | none => exact Triple.pure _ fun _ hs => hs
    | some m => exact acceptInput_triple m
  exact Triple.bind (setResult_keeps _) fun _ => exchanges_triple hRegistry options fuel 0 hEnd

theorem body_triple (hRegistry : env.Correlated) (options : Options)
    (message : Option MessageItem) (fuel : Nat) (hEnd : MayEnd H options fuel 0) :
    Triple Unadmitted (body env options message fuel) (fun _ => AfterAdmission Stopped)
      (fun _ => AfterAdmission Stopped) H := by
  have hOut : ∀ s : RunState W, Unadmitted s → AfterAdmission Stopped s := by
    intro s hs hAdmitted
    rw [hs] at hAdmitted
    cases hAdmitted
  unfold body
  refine Triple.bind ((admission_triple options message).conseq (fun _ hs => hs)
    (fun _ _ hs => hs) (fun _ s hs => hOut s hs) fun _ hs => hs) fun go => ?_
  cases go with
  | false => exact Triple.pure () fun s hs => hOut s (by simpa using hs)
  | true =>
    exact (work_triple hRegistry options message fuel hEnd).conseq (fun s hs => by simpa using hs)
      (fun _ s hs _ => settled_stopped _ _ hs.2) (fun _ _ hs _ => hs.2) fun _ hs => hs

theorem recoverable_settle {state : AgentInputState} (hStopped : Stopped state marks)
    (f : LoopProgress → LoopProgress) (hPhase : ∀ p, (f p).phase = settlePhase p.phase)
    (hPending : ∀ p, (f p).pendingResults = p.pendingResults) :
    Recoverable { state with loop := state.loop.map f } marks := by
  rcases hStopped with ⟨p, hLoop, hp, hNone, hAll⟩ | ⟨p, hLoop, hp, hNone, hAll⟩ |
    ⟨calls, p, hLoop, hp, hOpen, hMark⟩ | ⟨calls, p, hLoop, hp, hOpen, hKeys⟩
  · refine ⟨f p, by simp [hLoop], Or.inl ⟨?_, ?_, hAll⟩⟩
    · rw [hPhase, hp]
      rfl
    · rw [hPending, hNone]
  · refine ⟨f p, by simp [hLoop], Or.inl ⟨?_, ?_, hAll⟩⟩
    · rw [hPhase, hp]
      rfl
    · rw [hPending, hNone]
  · refine ⟨f p, by simp [hLoop], Or.inr (Or.inr ⟨?_, calls, hMark⟩)⟩
    rw [hPhase, hp]
    rfl
  · refine ⟨f p, by simp [hLoop], Or.inr (Or.inl ⟨?_, ?_⟩)⟩
    · rw [hPhase, hp]
      rfl
    · obtain ⟨step, hStep, hCalls⟩ := hOpen.lastStep
      exact ⟨step, hStep, by rw [hPending, hKeys, hCalls]⟩

theorem recoverable_progress {state : AgentInputState} (hState : Recoverable state marks)
    (f : LoopProgress → LoopProgress) (hPhase : ∀ p, (f p).phase = p.phase)
    (hPending : ∀ p, (f p).pendingResults = p.pendingResults) :
    Recoverable { state with loop := state.loop.map f } marks := by
  obtain ⟨p, hLoop, hCases⟩ := hState
  refine ⟨f p, by simp [hLoop], ?_⟩
  rw [hPhase, hPending]
  exact hCases

theorem finish_triple :
    Triple (Holds Stopped) (finish env) (fun _ => Holds Recoverable) (fun _ => Holds Recoverable)
      H := by
  have hKeep : ∀ (e : Failure) (s : RunState W), Holds Recoverable s → Holds Recoverable s :=
    fun _ _ hs => hs
  unfold finish
  refine Triple.bind (R := fun _ => Holds Stopped) (Triple.get fun _ hs => hs) fun t => ?_
  refine Triple.bind (R := fun _ => Holds Recoverable) ?_ fun _ => ?_
  · exact Triple.modify _ fun s hs =>
      ⟨hs.1, recoverable_settle hs.2 _ (fun _ => rfl) fun _ => rfl⟩
  refine Triple.bind (R := fun _ => Holds Recoverable) ?_ fun _ => ?_
  · refine Triple.handle (editState_triple _ (fun _ _ hs => hs) fun s edited w hs hValid =>
      ⟨hs.1, recoverable_edit hs.2 hValid⟩) fun failure => ?_
    refine Triple.bind (setResult_keeps _) fun _ => ?_
    refine Triple.bind (R := fun _ => Holds Recoverable) (Triple.get fun _ hs => hs) fun u => ?_
    exact Triple.modify _ fun s hs =>
      ⟨hs.1, recoverable_progress hs.2 _ (fun _ => rfl) fun _ => rfl⟩
  refine Triple.bind (R := fun _ => Holds Recoverable) (Triple.get fun _ hs => hs) fun u => ?_
  refine Triple.bind (R := fun _ => Holds Recoverable) ?_ fun _ => checkpoint_keeps _ hKeep
  exact Triple.handle (publish_keeps _ hKeep) fun _ => Triple.pure _ fun _ hs => hs

/-- **Every end of a run** leaves a recoverable state, once it was admitted. -/
theorem run_triple (hRegistry : env.Correlated) (options : Options)
    (message : Option MessageItem) (fuel : Nat) (hEnd : MayEnd H options fuel 0) :
    Triple Unadmitted (run env options message fuel) (fun _ => AfterAdmission Recoverable)
      (fun _ => AfterAdmission Recoverable) H := by
  unfold run
  refine Triple.bind (R := fun _ => AfterAdmission Stopped) ?_ fun _ => ?_
  · refine Triple.handle (body_triple hRegistry options message fuel hEnd) fun failure => ?_
    unfold recordFailure
    refine Triple.bind (R := fun t s => t = s ∧ AfterAdmission Stopped s)
      (Triple.get fun s hs => ⟨rfl, hs⟩) fun t => ?_
    refine Triple.ite (fun hRefused => ?_) fun _ => ?_
    · refine Triple.raise _ ?_
      rintro s ⟨rfl, -⟩ hAdmitted
      rw [hRefused.2] at hAdmitted
      cases hAdmitted
    · exact Triple.modify _ fun s hs => hs.2
  refine Triple.bind (R := fun t s => t = s ∧ AfterAdmission Stopped s)
    (Triple.get fun s hs => ⟨rfl, hs⟩) fun t => ?_
  refine Triple.ite (fun hAdmitted => ?_) fun hAdmitted => ?_
  · have hFinish : Triple (Holds Stopped) (finish env) (fun _ => AfterAdmission Recoverable)
        (fun _ => AfterAdmission Recoverable) H :=
      finish_triple.conseq (fun _ hs => hs) (fun _ _ hs _ => hs.2) (fun _ _ hs _ => hs.2)
        fun _ hs => hs
    refine Triple.bind (R := fun _ => AfterAdmission Recoverable) (hFinish.pre ?_) fun _ => ?_
    · rintro s ⟨rfl, hs⟩
      exact ⟨hAdmitted, hs hAdmitted⟩
    · exact Triple.bind (R := fun _ => AfterAdmission Recoverable) (Triple.get fun _ hs => hs)
        fun _ => Triple.pure _ fun _ hs => hs
  · refine Triple.bind (R := fun _ s => s.admitted = false) (Triple.get ?_) fun _ =>
      Triple.pure _ fun s hs hs' => ?_
    · rintro s ⟨rfl, -⟩
      simpa using hAdmitted
    · rw [hs] at hs'
      cases hs'

end Triples

/--
**What an admitted run leaves.** Whatever the model, the registry, the hooks and the
checkpoint function do, at every exit the phase is `ready`, `projection` or
`blocked`. A ready state has no pending results and every call of every step has
its one result, in call order; the pending results of a projection are those of the
calls of the last step; and a blocked run had marked a batch whose results it did
not record. A capped run always exits.
-/
theorem run_leaves_recoverable {W : Type} (env : Env W) (hRegistry : env.Correlated)
    (options : Options) (message : Option MessageItem) (fuel : Nat) (state : AgentInputState)
    (world : W) (outcome : Except (Interrupt Failure) RunResult) (s : RunState W)
    (hRun : (run env options message fuel).exec { state, world } = (outcome, s)) :
    (∀ n, options.maxExchanges = some n → n.toNat < fuel → outcome ≠ .error .halted) ∧
    (outcome ≠ .error .halted → s.admitted = true → ∃ p, s.state.loop = some p ∧
        (p.phase = .ready ∨ p.phase = .projection ∨ p.phase = .blocked) ∧
        (p.phase = .ready → p.pendingResults = [] ∧ AllAnswered s.state.turns) ∧
        (p.phase = .projection → PendingMatch p.pendingResults s.state.turns) ∧
        (p.phase = .blocked → UnrecordedBatch s.marks)) := by
  constructor
  · rintro n hMax hFuel rfl
    have hEnds := run_triple (H := fun _ => False) hRegistry options message fuel
      (Or.inr ⟨n, hMax, by omega, hFuel⟩) { state, world } rfl
    rw [hRun] at hEnds
    exact hEnds
  · intro hExit hAdmitted
    have hLeft := run_triple (H := fun _ => True) hRegistry options message fuel
      (Or.inl fun _ => trivial) { state, world } rfl
    rw [hRun] at hLeft
    have hState : Recoverable s.state s.marks := by
      cases outcome with
      | ok result => exact hLeft hAdmitted
      | error e =>
        cases e with
        | failure e => exact hLeft hAdmitted
        | halted => exact absurd rfl hExit
    obtain ⟨p, hLoop, hCases⟩ := hState
    refine ⟨p, hLoop, ?_⟩
    rcases hCases with ⟨hPhase, hReady⟩ | ⟨hPhase, hMatch⟩ | ⟨hPhase, hBatch⟩
    · simp [hPhase, hReady]
    · simp [hPhase, hMatch]
    · simp [hPhase, hBatch]

/-! ### A run with one tool batch -/

/-- Asks for one tool, then answers; the world counts the requests. -/
def sampleEnv : Env Nat where
  stopRequested w := (false, w)
  publish _ _ w := (.ok (), w)
  beforeInput m w := (.ok m, w)
  beforeModel _ c w := (.ok c, w)
  converse _ w :=
    (.ok { type := .modelResponse
           invokes := if w = 0 then some [{ id := "call", name := "read" }] else none }, w + 1)
  execute calls w := (.ok (calls.map fun query => { query }), w)
  checkpoint := none
  subscribed _ _ := false
  edit _ state w := ((.ok (), state), w)

theorem sampleEnv_correlated : sampleEnv.Correlated := by
  intro calls w records hOk
  injection hOk with hEq
  subst hEq
  simp [Function.comp_def]

def sampleRun : Except (Interrupt Failure) RunResult × RunState Nat :=
  (run sampleEnv { maxExchanges := some 2 } (some { content := [{ raw := "hello" }] }) 3).exec
    { state := {}, world := 0 }

theorem run_leaves_recoverable_sample : sampleRun.1 ≠ .error .halted ∧ sampleRun.2.admitted = true ∧
      ∃ p, sampleRun.2.state.loop = some p ∧
        (p.phase = .ready ∨ p.phase = .projection ∨ p.phase = .blocked) ∧
        (p.phase = .ready → p.pendingResults = [] ∧ AllAnswered sampleRun.2.state.turns) ∧
        (p.phase = .projection → PendingMatch p.pendingResults sampleRun.2.state.turns) ∧
        (p.phase = .blocked → UnrecordedBatch sampleRun.2.marks) := by
  have hAdmitted : sampleRun.2.admitted = true := by decide +kernel
  have hRun := run_leaves_recoverable sampleEnv sampleEnv_correlated { maxExchanges := some 2 }
    (some { content := [{ raw := "hello" }] }) 3 {} 0 sampleRun.1 sampleRun.2
    Prod.mk.eta.symm
  have hExit := hRun.1 2 rfl (by decide)
  exact ⟨hExit, hAdmitted, hRun.2 hExit hAdmitted⟩

end SimplexAgent.Loop
