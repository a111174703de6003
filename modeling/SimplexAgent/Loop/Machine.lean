import SimplexAgent.Loop.Run

/-!
# The control flow of a run

`run` as a machine that performs one operation at a time: one call of something
outside, one check or one assignment. A configuration is a point of the control flow
with the state of the run there, so an invariant of the machine is a statement about
every moment of a run, and about every moment at which it may be cut off.

`run_reaches` connects the machine to the program: however `run` ends, the machine
started in the same state arrives at the corresponding point with the same state. An
invariant then needs one argument per point and no reasoning about the program text.
-/

namespace SimplexAgent.Loop

open Dataclass Verified.Interruptible
open Verified.Tables (bind_ok)

/-! ## Points -/

/-- Where a run stands; what it is about to do. The round of the exchange loop, the
batch at hand and the text of a failed announcement are part of the point. -/
inductive Point where
  | start
  | requested
  | declining
  | recovering
  | recovered
  | validated
  | admitting
  | opened
  | started
  | rewritten (message : MessageItem)
  | accepting (message : MessageItem)
  | integrating (message : MessageItem)
  | accepted
  | entering
  | ready (round : Nat)
  | polling (round : Nat)
  | cancelling
  | preparing (round : Nat)
  | prepared (round : Nat) (context : ModelContext)
  | rendered (round : Nat) (context : ModelContext)
  | requesting (round : Nat) (context : ModelContext)
  | opening (round : Nat)
  | model (round : Nat)
  | conversing (round : Nat)
  | aborted (failure : Failure)
  | withdrawn (failure : Failure)
  | withdrawing
  | unanswered (failure : Failure)
  | responded (round : Nat) (response : MessageItem)
  | committing (round : Nat) (response : MessageItem)
  | counting (round : Nat) (response : MessageItem)
  | committed (round : Nat) (response : MessageItem)
  | noticed (round : Nat) (response : MessageItem)
  | announced (round : Nat) (response : MessageItem) (hookError : String)
  | marking (round : Nat) (calls : List InvokeQuery) (hookError : String)
  | marked (round : Nat) (calls : List InvokeQuery) (hookError : String)
  | dispatching (round : Nat) (calls : List InvokeQuery) (hookError : String)
  | cleared (round : Nat) (calls : List InvokeQuery) (hookError : String)
  | executing (round : Nat) (calls : List InvokeQuery)
  | gathered (round : Nat) (hookError : String) (records : List InvokeReturn)
  | recorded (round : Nat) (hookError : String)
  | saving (round : Nat) (hookError : String)
  | projecting (round : Nat) (hookError : String)
  | projected (round : Nat) (hookError : String)
  | settled (round : Nat)
  | editing (round : Nat)
  | edited (round : Nat)
  | stepSaving (round : Nat)
  | stepSaved (round : Nat)
  | deciding (round : Nat)
  | failed (failure : Failure)
  | ended
  | settling
  | finishing
  | finishFailed (failure : Failure)
  | finished
  | finalSaving
  | returned
  | escaped (failure : Failure)

structure Config (W : Type) where
  point : Point
  run : RunState W

/-! ## Steps -/

section Step

variable {W : Type} (env : Env W)

namespace RunState

def withWorld (s : RunState W) (world : W) : RunState W := { s with world }

def withState (s : RunState W) (state : AgentInputState) : RunState W := { s with state }

def withStatus (s : RunState W) (status : RunStatus) : RunState W :=
  { s with result := { s.result with status } }

def withProgress (s : RunState W) (f : LoopProgress → LoopProgress) : RunState W :=
  { s with state := { s.state with loop := s.state.loop.map f } }

/-- The state with what a hook changed before a request. -/
def withContext (s : RunState W) (context : ModelContext) : RunState W :=
  s.withState { s.state with
    systemPrompt := context.systemPrompt
    tools := context.tools
    extras := context.extras }

def countResponse (s : RunState W) (response : MessageItem) : RunState W :=
  let completed := s.result.completedExchanges + 1
  { s with
    state := { s.state with
      loop := s.state.loop.map fun p =>
        { p with phase := .ready, completedExchanges := completed } }
    result := { s.result with
      completedExchanges := completed
      lastExchangeTokens := exchangeTokens response } }

def mark (s : RunState W) (calls : List InvokeQuery) : RunState W :=
  { s with
    state := { s.state with loop := s.state.loop.map fun p => { p with phase := .tools } }
    marks := s.marks ++ [.dispatch calls] }

def record (s : RunState W) (records : List InvokeReturn) : RunState W :=
  { s with
    state := { s.state with
      loop := s.state.loop.map fun p =>
        { p with phase := .projection, pendingResults := records } }
    marks := s.marks ++ [.results records] }

/-- The progress record of a run that has ended. -/
def settle (s : RunState W) : RunState W :=
  s.withProgress fun p =>
    { p with
      phase := settlePhase p.phase
      status := progressStatus s.result.status
      error := s.result.error }

def failFinish (s : RunState W) (failure : Failure) : RunState W :=
  let result := finishFailure failure s.result
  ({ s with result } : RunState W).withProgress fun p =>
    { p with status := .failed, error := result.error }

end RunState

def checked {α : Type} (r : Except Failure α) (s : RunState W) (next : α → Config W) : Config W :=
  match r with
  | .ok a => next a
  | .error failure => ⟨.failed failure, s⟩

/-- Go on after an outside operation. -/
def called {α : Type} (s : RunState W) (f : AgentInputState → W → Except Failure α × W)
    (next : α → Point) (otherwise : Failure → Point) : Config W :=
  let s' := s.withWorld (f s.state s.world).2
  match (f s.state s.world).1 with
  | .ok a => ⟨next a, s'⟩
  | .error failure => ⟨otherwise failure, s'⟩

/-- Go on after asking whether to stop. -/
def polled (s : RunState W) (stopped going : Point) : Config W :=
  let s' := s.withWorld (env.stopRequested s.world).2
  if (env.stopRequested s.world).1 then ⟨stopped, s'⟩ else ⟨going, s'⟩

def published (s : RunState W) (event : Event) (next : Point)
    (otherwise : Failure → Point := .failed) : Config W :=
  called s (env.publish event) (fun _ => next) otherwise

def saved (s : RunState W) (boundary : Checkpoint) (next : Point)
    (otherwise : Failure → Point := .failed) : Config W :=
  match env.checkpoint with
  | some save => called s (save boundary) (fun _ => next) otherwise
  | none => ⟨next, s⟩

def editedBy (s : RunState W) (event : EditEvent) (next : Point)
    (otherwise : Failure → Point) : Config W :=
  if env.subscribed event s.world then
    let ((outcome, edited), world) := env.edit event s.state s.world
    match outcome >>= fun _ => validateStateEdit edited s.state with
    | .ok () => ⟨next, { s with state := edited, world }⟩
    | .error failure => ⟨otherwise failure, { s with world }⟩
  else ⟨next, s⟩

variable (options : Options) (message : Option MessageItem)

/-- One operation of a run. -/
def step (c : Config W) : Config W :=
  let s := c.run
  match c.point with
  | .start => checked (validateRequest options message s.state) s fun _ => ⟨.requested, s⟩
  | .requested => polled env s .declining .recovering
  | .declining => ⟨.ended, s.withStatus .cancelled⟩
  | .recovering => checked (recover s.state) s fun state => ⟨.recovered, s.withState state⟩
  | .recovered => checked (validateStateStructure s.state) s fun _ => ⟨.validated, s⟩
  | .validated => polled env s .declining .admitting
  | .admitting => ⟨.opened, startProgress s⟩
  | .opened => published env s .runStarted .started
  | .started =>
    match message with
    | none => ⟨.entering, s⟩
    | some m => called s (fun _ => env.beforeInput m) .rewritten .failed
  | .rewritten m =>
    if isUserMessage m then ⟨.accepting m, s⟩
    else ⟨.failed { what := "input hook produced an invalid user message" }, s⟩
  | .accepting m => polled env s .entering (.integrating m)
  | .integrating m => ⟨.accepted, s.withState (modelIntegrate s.state m)⟩
  | .accepted => published env s .inputCommitted .entering
  | .entering => ⟨.ready 0, s.withStatus .exchangeLimit⟩
  | .ready round =>
    if options.maxExchanges.any (fun n => n.toNat ≤ round) then ⟨.ended, s⟩
    else ⟨.polling round, s⟩
  | .polling round => polled env s .cancelling (.preparing round)
  | .cancelling => ⟨.ended, s.withStatus .cancelled⟩
  | .preparing round =>
    called s (fun state => env.beforeModel state ⟨state.systemPrompt, state.tools, state.extras⟩)
      (.prepared round) .failed
  | .prepared round context =>
    checked (validateRender context.systemPrompt) s fun _ => ⟨.rendered round context, s⟩
  | .rendered round context => polled env s .cancelling (.requesting round context)
  | .requesting round context => ⟨.opening round, s.withContext context⟩
  | .opening round => ⟨.model round, s.withProgress fun p => { p with phase := .model }⟩
  | .model round =>
    polled env s (.aborted { kind := .operationAborted, what := "Operation canceled" })
      (.conversing round)
  | .conversing round => called s env.converse (.responded round) .aborted
  | .aborted failure =>
    if failure.kind = .operationAborted then ⟨.withdrawn failure, s⟩ else ⟨.unanswered failure, s⟩
  | .withdrawn failure => polled env s .withdrawing (.unanswered failure)
  | .withdrawing => ⟨.cancelling, s.withProgress fun p => { p with phase := .ready }⟩
  | .unanswered failure =>
    ⟨.failed failure, { s with result := { s.result with failureStage := .modelRequest } }⟩
  | .responded round response =>
    if response.type ≠ .modelResponse ∨ response.invokeReturn.isSome then
      ⟨.failed { what := "model returned an invalid response type" }, s⟩
    else checked (validateCalls response) s fun _ => ⟨.committing round response, s⟩
  | .committing round response =>
    checked (integrateResponse s.state response) s fun state =>
      ⟨.counting round response, s.withState state⟩
  | .counting round response => ⟨.committed round response, s.countResponse response⟩
  | .committed round response =>
    published env s .modelCommitted (.noticed round response)
      fun failure => .announced round response (errorText failure)
  | .noticed round response =>
    if response.invokes.getD [] ≠ [] then
      published env s (.beforeToolBatch (response.invokes.getD [])) (.announced round response "")
        fun failure => .announced round response (errorText failure)
    else ⟨.announced round response "", s⟩
  | .announced round response hookError =>
    if response.invokes.getD [] ≠ [] then
      ⟨.marking round (response.invokes.getD []) hookError, s⟩
    else if hookError ≠ "" then ⟨.failed { what := hookError }, s⟩
    else ⟨.ended, s.withStatus .completed⟩
  | .marking round calls hookError => ⟨.marked round calls hookError, s.mark calls⟩
  | .marked round calls hookError =>
    published env s .toolDispatchCheckpoint (.dispatching round calls hookError)
  | .dispatching round calls hookError =>
    saved env s .beforeTools (.cleared round calls hookError)
  | .cleared round calls hookError =>
    polled env s (.gathered round hookError (skipped calls))
      (if hookError ≠ "" then .gathered round hookError (skipped calls)
        else .executing round calls)
  | .executing round calls =>
    called s (fun _ => env.execute calls) (.gathered round "") .failed
  | .gathered round hookError records => ⟨.recorded round hookError, s.record records⟩
  | .recorded round hookError =>
    published env s .toolResultsCheckpoint (.saving round hookError)
  | .saving round hookError => saved env s .resultsReady (.projecting round hookError)
  | .projecting round hookError =>
    checked (project s.state) s fun state => ⟨.projected round hookError, s.withState state⟩
  | .projected round hookError =>
    if hookError ≠ "" then ⟨.failed { what := hookError }, s⟩ else ⟨.settled round, s⟩
  | .settled round => published env s .toolResultsCommitted (.editing round)
  | .editing round => editedBy env s .stepFinished (.edited round) .failed
  | .edited round => published env s .stepFinished (.stepSaving round)
  | .stepSaving round => saved env s .stepFinished (.stepSaved round)
  | .stepSaved round => polled env s .cancelling (.deciding round)
  | .deciding round =>
    match autoCompact options s.result with
    | some reason =>
      ⟨.ended, { s with result := { s.result with
        status := .autoCompactRequired, autoCompactReason := reason } }⟩
    | none => ⟨.ready (round + 1), s⟩
  | .failed failure =>
    if failure.kind = .recoveryRequired ∧ s.admitted = false then ⟨.escaped failure, s⟩
    else ⟨.ended, { s with result := { s.result with
      status := .failed, error := errorText failure } }⟩
  | .ended => if s.admitted then ⟨.settling, s⟩ else ⟨.returned, s⟩
  | .settling => ⟨.finishing, s.settle⟩
  | .finishing => editedBy env s (.runFinished s.result) .finished .finishFailed
  | .finishFailed failure => ⟨.finished, s.failFinish failure⟩
  | .finished =>
    published env s (.runFinished s.result) .finalSaving fun _ => .finalSaving
  | .finalSaving => saved env s .runFinished .returned .escaped
  | .returned => c
  | .escaped _ => c

inductive Reaches (s : RunState W) : Config W → Prop
  | start : Reaches s ⟨.start, s⟩
  | step {c : Config W} (h : Reaches s c) : Reaches s (step env options message c)

end Step

/-! ## What a step can do

One rule per kind of operation. An invariant of the machine is proved point by point,
and at each point by the rule of its operation.
-/

section Rules

variable {W : Type} {env : Env W} {P : Config W → Prop} {s : RunState W}
variable {otherwise : Failure → Point}

theorem checked_rule {α : Type} {r : Except Failure α} {next : α → Config W}
    (hOk : ∀ a, r = .ok a → P (next a)) (hError : ∀ f, r = .error f → P ⟨.failed f, s⟩) :
    P (checked r s next) := by
  cases hr : r with
  | ok a => exact hOk a hr
  | error f => exact hError f hr

theorem called_rule {α : Type} {f : AgentInputState → W → Except Failure α × W} {next : α → Point}
    (hOk : ∀ a, (f s.state s.world).1 = .ok a → P ⟨next a, s.withWorld (f s.state s.world).2⟩)
    (hError : ∀ e, (f s.state s.world).1 = .error e → P ⟨otherwise e, s.withWorld (f s.state s.world).2⟩) :
    P (called s f next otherwise) := by
  unfold called
  cases hr : (f s.state s.world).1 with
  | ok a => exact hOk a hr
  | error e => exact hError e hr

theorem polled_rule {stopped going : Point} (hStopped : (env.stopRequested s.world).1 = true →
      P ⟨stopped, s.withWorld (env.stopRequested s.world).2⟩)
    (hGoing : P ⟨going, s.withWorld (env.stopRequested s.world).2⟩) :
    P (polled env s stopped going) := by
  unfold polled
  by_cases hStop : (env.stopRequested s.world).1 = true
  · simpa only [hStop, if_true] using hStopped hStop
  · simpa only [if_neg hStop] using hGoing

theorem published_rule {event : Event} {next : Point} (hOk : ∀ w, P ⟨next, s.withWorld w⟩)
    (hError : ∀ e w, P ⟨otherwise e, s.withWorld w⟩) : P (published env s event next otherwise) :=
  called_rule (fun _ _ => hOk _) fun e _ => hError e _

theorem saved_rule {boundary : Checkpoint} {next : Point} (hOk : ∀ w, P ⟨next, s.withWorld w⟩)
    (hError : ∀ e w, P ⟨otherwise e, s.withWorld w⟩) : P (saved env s boundary next otherwise) := by
  unfold saved
  cases env.checkpoint with
  | none => exact hOk s.world
  | some save => exact called_rule (fun _ _ => hOk _) fun e _ => hError e _

theorem deciding_rule {options : Options} {message : Option MessageItem} {round : Nat}
    (hStop : ∀ reason, autoCompact options s.result = some reason →
      P ⟨.ended, { s with result := { s.result with
        status := .autoCompactRequired, autoCompactReason := reason } }⟩)
    (hNext : autoCompact options s.result = none → P ⟨.ready (round + 1), s⟩) :
    P (step env options message ⟨.deciding round, s⟩) := by
  simp only [step]
  split
  · next reason hReason => exact hStop reason hReason
  · next hNone => exact hNext hNone

theorem editedBy_rule {event : EditEvent} {next : Point} (hSame : P ⟨next, s⟩)
    (hEdit : ∀ edited w, validateStateEdit edited s.state = .ok () → P ⟨next, { s with state := edited, world := w }⟩)
    (hError : ∀ e w, P ⟨otherwise e, s.withWorld w⟩) :
    P (editedBy env s event next otherwise) := by
  unfold editedBy
  by_cases hSubscribed : env.subscribed event s.world = true
  · rw [if_pos hSubscribed]
    dsimp only
    split
    · rename_i hOutcome
      obtain ⟨_, -, hValid⟩ := bind_ok hOutcome
      exact hEdit _ _ hValid
    · exact hError _ _
  · rw [if_neg hSubscribed]
    exact hSame

/-- **Invariants of a run.** -/
theorem reaches_invariant {options : Options} {message : Option MessageItem} {s₀ : RunState W}
    {c : Config W} (h : Reaches env options message s₀ c) (hStart : P ⟨.start, s₀⟩)
    (hStep : ∀ c, P c → P (step env options message c)) : P c := by
  induction h with
  | start => exact hStart
  | step _ ih => exact hStep _ ih

end Rules

/-! ## The program follows the machine -/

section Follow

variable {W : Type} {env : Env W} {options : Options} {message : Option MessageItem}
  {s₀ : RunState W}

/-- The machine stands at a point with a state. -/
def At (env : Env W) (options : Options) (message : Option MessageItem) (s₀ : RunState W)
    (p : Point) (s : RunState W) : Prop :=
  Reaches env options message s₀ ⟨p, s⟩

variable {E : Failure → RunState W → Prop} {H : RunState W → Prop} {p q : Point}
variable {round : Nat} {otherwise : Failure → Point}

theorem At.next {s : RunState W} {c : Config W} (h : At env options message s₀ p s)
    (hStep : step env options message ⟨p, s⟩ = c) : Reaches env options message s₀ c :=
  hStep ▸ Reaches.step h

theorem external_follows {α : Type} {f : AgentInputState → W → Except Failure α × W}
    {next : α → Point} (hStep : ∀ s, step env options message ⟨p, s⟩ = called s f next otherwise) :
    Triple (At env options message s₀ p) (external f)
      (fun a => At env options message s₀ (next a))
      (fun e => At env options message s₀ (otherwise e)) H := by
  apply Triple.call
  · intro s a hs hOk
    apply hs.next
    rw [hStep, called, hOk]
    rfl
  · intro s e hs hError
    apply hs.next
    rw [hStep, called, hError]
    rfl

theorem stopRequested_follows {stopped going : Point}
    (hStep : ∀ s, step env options message ⟨p, s⟩ = polled env s stopped going) :
    Triple (At env options message s₀ p) (stopRequested env)
      (fun stop => At env options message s₀ (if stop = true then stopped else going)) E H := by
  apply Triple.call
  · intro s stop hs hOk
    injection hOk with hOk
    apply hs.next
    rw [hStep, polled, hOk]
    cases stop <;> rfl
  · intro s e _ hError
    cases hError

theorem publish_follows {event : Event}
    (hStep : ∀ s, step env options message ⟨p, s⟩ = published env s event q otherwise) :
    Triple (At env options message s₀ p) (publish env event)
      (fun _ => At env options message s₀ q)
      (fun e => At env options message s₀ (otherwise e)) H :=
  external_follows hStep

theorem checkpoint_follows {boundary : Checkpoint}
    (hStep : ∀ s, step env options message ⟨p, s⟩ = saved env s boundary q otherwise) :
    Triple (At env options message s₀ p) (checkpoint env boundary)
      (fun _ => At env options message s₀ q)
      (fun e => At env options message s₀ (otherwise e)) H := by
  unfold checkpoint
  unfold saved at hStep
  cases hSave : env.checkpoint with
  | none =>
    refine Triple.pure () fun s hs => hs.next ?_
    rw [hStep, hSave]
  | some save =>
    refine external_follows fun s => ?_
    rw [hStep, hSave]

theorem editState_follows {event : EditEvent} {t : RunState W}
    (hStep : step env options message ⟨p, t⟩ = editedBy env t event q otherwise) :
    Triple (fun s => s = t ∧ At env options message s₀ p s) (editState env event)
      (fun _ => At env options message s₀ q)
      (fun e => At env options message s₀ (otherwise e)) H := by
  unfold editedBy at hStep
  dsimp only at hStep
  apply Triple.call
  · rintro s a ⟨rfl, hs⟩ hOk
    apply hs.next
    by_cases hSubscribed : env.subscribed event s.world
    · simp only [if_pos hSubscribed] at hStep hOk ⊢
      generalize ((env.edit event s.state s.world).1.1 >>= fun _ =>
        validateStateEdit (env.edit event s.state s.world).1.2 s.state) = outcome at hStep hOk ⊢
      cases outcome with
      | ok => exact hStep
      | error failure => cases hOk
    · simp only [if_neg hSubscribed] at hStep ⊢
      exact hStep
  · rintro s e ⟨rfl, hs⟩ hError
    apply hs.next
    by_cases hSubscribed : env.subscribed event s.world
    · simp only [if_pos hSubscribed] at hStep hError ⊢
      generalize ((env.edit event s.state s.world).1.1 >>= fun _ =>
        validateStateEdit (env.edit event s.state s.world).1.2 s.state) = outcome at hStep hError ⊢
      cases outcome with
      | ok => cases hError
      | error failure =>
        cases hError
        exact hStep
    · simp only [if_neg hSubscribed] at hError
      cases hError

theorem modify_follows {f : RunState W → RunState W}
    (hStep : ∀ s, step env options message ⟨p, s⟩ = ⟨q, f s⟩) :
    Triple (At env options message s₀ p) (modify f) (fun _ => At env options message s₀ q) E H :=
  Triple.modify f fun s hs => hs.next (hStep s)

theorem check_follows {α β : Type} {r : RunState W → Except Failure α}
    {next : α → RunState W → Config W} {k : α → Run W β} {Q : β → RunState W → Prop}
    (hStep : ∀ s, step env options message ⟨p, s⟩ = checked (r s) s fun a => next a s)
    (hRest : ∀ a, Triple (fun s => Reaches env options message s₀ (next a s)) (k a) Q
      (fun e => At env options message s₀ (.failed e)) H) :
    Triple (At env options message s₀ p) (get >>= fun s => Prog.check (r s) >>= k) Q
      (fun e => At env options message s₀ (.failed e)) H := by
  refine Triple.bind (R := fun t s => t = s ∧ At env options message s₀ p s)
    (Triple.get fun s hs => ⟨rfl, hs⟩) fun t => Triple.bind (Triple.check ?_ ?_) hRest
  · rintro a hOk s ⟨rfl, hs⟩
    apply hs.next
    rw [hStep, hOk]
    rfl
  · rintro e hError s ⟨rfl, hs⟩
    apply hs.next
    rw [hStep, hError]
    rfl

theorem setStatus_follows {status : RunStatus}
    (hStep : ∀ s, step env options message ⟨p, s⟩ = ⟨q, s.withStatus status⟩) :
    Triple (At env options message s₀ p) (setStatus status)
      (fun _ => At env options message s₀ q) E H :=
  modify_follows hStep

theorem stop_follows {β : Type} {stopped going : Point} {m n : Run W β} {Q : β → RunState W → Prop}
    (hStep : ∀ s, step env options message ⟨p, s⟩ = polled env s stopped going)
    (hStopped : Triple (At env options message s₀ stopped) m Q E H)
    (hGoing : Triple (At env options message s₀ going) n Q E H) :
    Triple (At env options message s₀ p)
      (stopRequested env >>= fun stop => if stop = true then m else n) Q E H := by
  refine Triple.bind (stopRequested_follows hStep) fun stop => ?_
  cases stop with
  | false => exact hGoing
  | true => exact hStopped

theorem admission_follows :
    Triple (At env options message s₀ .start) (admission env options message)
      (fun go => At env options message s₀ (if go = true then .opened else .ended))
      (fun e => At env options message s₀ (.failed e)) H := by
  have hDecline : Triple (At env options message s₀ .declining)
      (do setStatus .cancelled; return false)
      (fun go => At env options message s₀ (if go = true then .opened else .ended))
      (fun e => At env options message s₀ (.failed e)) H :=
    Triple.bind (setStatus_follows fun _ => rfl) fun _ => Triple.pure false fun _ hs => hs
  unfold admission
  refine check_follows (fun _ => rfl) fun _ => ?_
  refine stop_follows (fun _ => rfl) hDecline ?_
  refine check_follows (fun _ => rfl) fun state => ?_
  refine Triple.bind (R := fun _ => At env options message s₀ .recovered)
    (Triple.modify _ fun _ hs => hs) fun _ => ?_
  refine check_follows (fun _ => rfl) fun _ => ?_
  refine stop_follows (fun _ => rfl) hDecline ?_
  exact Triple.bind (modify_follows fun _ => rfl) fun _ => Triple.pure true fun _ hs => hs

theorem silent_follows {β : Type} {m : Run W β} {Q : β → RunState W → Prop}
    (hStep : ∀ s, step env options message ⟨p, s⟩ = ⟨q, s⟩)
    (hRest : Triple (At env options message s₀ q) m Q E H) :
    Triple (At env options message s₀ p) m Q E H :=
  hRest.pre fun s hs => hs.next (hStep s)

theorem acceptInput_follows {m : MessageItem} (hMessage : message = some m) :
    Triple (At env options message s₀ .started) (acceptInput env m)
      (fun _ => At env options message s₀ .entering)
      (fun e => At env options message s₀ (.failed e)) H := by
  unfold acceptInput
  have hRewrite : Triple (At env options message s₀ .started)
      (external fun _ w => env.beforeInput m w)
      (fun m => At env options message s₀ (.rewritten m))
      (fun e => At env options message s₀ (.failed e)) H := by
    subst hMessage
    exact external_follows fun _ => rfl
  refine Triple.bind hRewrite fun m => ?_
  refine Triple.ite (fun hInvalid => ?_) fun hValid => ?_
  · refine Triple.raise _ fun s hs => hs.next ?_
    show (if isUserMessage m = true then _ else _) = _
    rw [if_neg (by simpa using hInvalid)]
  have hUser : isUserMessage m = true := by simpa using hValid
  refine silent_follows (q := .accepting m) (fun s => if_pos hUser) ?_
  refine stop_follows (fun _ => rfl) (Triple.pure _ fun _ hs => hs) ?_
  refine Triple.bind (R := fun t s => t = s ∧ At env options message s₀ (.integrating m) s)
    (Triple.get fun s hs => ⟨rfl, hs⟩) fun t => ?_
  refine Triple.bind (R := fun _ => At env options message s₀ .accepted) ?_
    fun _ => publish_follows fun _ => rfl
  refine Triple.modify _ ?_
  rintro s ⟨rfl, hs⟩
  exact hs.next rfl

/-- Outside operations do not touch the conversation. -/
theorem external_frames {α : Type} (f : AgentInputState → W → Except Failure α × W)
    (state : AgentInputState) :
    Triple (fun s : RunState W => s.state = state) (external f) (fun _ s => s.state = state)
      (fun _ _ => True) fun _ => True :=
  Triple.call (fun _ _ hs _ => hs) fun _ _ _ _ => trivial

theorem prepareModel_follows :
    Triple (At env options message s₀ (.preparing round)) (prepareModel env)
      (fun ready => At env options message s₀ (if ready = true then .opening round else .ended))
      (fun e => At env options message s₀ (.failed e)) H := by
  have hPrepare : Triple (At env options message s₀ (.preparing round)) (external fun state w =>
        env.beforeModel state ⟨state.systemPrompt, state.tools, state.extras⟩ w)
      (fun context => At env options message s₀ (.prepared round context))
      (fun e => At env options message s₀ (.failed e)) H :=
    external_follows fun _ => rfl
  unfold prepareModel
  refine Triple.bind
    (R := fun t s => At env options message s₀ (.preparing round) s ∧ s.state = t.state)
    (Triple.get fun s hs => ⟨hs, rfl⟩) fun t => ?_
  refine Triple.bind (hPrepare.frame (external_frames _ t.state)) fun context => ?_
  refine Triple.bind
    (R := fun _ s => At env options message s₀ (.rendered round context) s ∧ s.state = t.state)
    (Triple.check ?_ ?_) fun _ => ?_
  · rintro _ hOk s ⟨hs, hState⟩
    refine ⟨hs.next ?_, hState⟩
    simp only [step, hOk, checked]
  · rintro e hError s ⟨hs, -⟩
    apply hs.next
    simp only [step, hError, checked]
  have hAsk : Triple (At env options message s₀ (.rendered round context)) (stopRequested env)
      (fun stop => At env options message s₀
        (if stop = true then .cancelling else .requesting round context))
      (fun e => At env options message s₀ (.failed e)) H :=
    stopRequested_follows fun _ => rfl
  refine Triple.bind (hAsk.frame (external_frames _ t.state)) fun stop => ?_
  refine Triple.ite (fun hStop => ?_) fun hGo => ?_
  · refine Triple.bind (R := fun _ => At env options message s₀ .ended) (Triple.modify _ ?_)
      fun _ => Triple.pure false fun _ hs => hs
    rintro s ⟨hs, -⟩
    rw [if_pos hStop] at hs
    exact hs.next rfl
  · refine Triple.bind (R := fun _ => At env options message s₀ (.opening round))
      (Triple.modify _ ?_) fun _ => Triple.pure true fun _ hs => hs
    rintro s ⟨hs, hState⟩
    rw [if_neg hGo] at hs
    apply hs.next
    simp only [step, RunState.withContext, RunState.withState, hState]

theorem converse_follows : Triple (At env options message s₀ (.model round)) (converse env)
      (fun response => At env options message s₀
        (match response with
          | some response => .responded round response
          | none => .ended))
      (fun e => At env options message s₀ (.failed e)) H := by
  unfold converse
  refine Triple.handle (F := fun e => At env options message s₀ (.aborted e)) ?_ fun failure => ?_
  · refine stop_follows (fun _ => rfl) (Triple.raise _ fun _ hs => hs) ?_
    exact Triple.bind (external_follows fun _ => rfl) fun response => Triple.pure _ fun _ hs => hs
  refine Triple.bind (R := fun cancelled => At env options message s₀
      (if cancelled = true then .withdrawing else .unanswered failure)) ?_ fun cancelled => ?_
  · unfold isCancellation
    refine Triple.ite (fun hKind => ?_) fun hKind => ?_
    · exact silent_follows (q := .withdrawn failure) (fun s => if_pos hKind)
        (stopRequested_follows fun _ => rfl)
    · exact Triple.pure false fun s hs => hs.next (if_neg hKind)
  refine Triple.ite (fun hCancelled => ?_) fun hCancelled => ?_
  · rw [if_pos hCancelled]
    refine Triple.bind (modify_follows (q := .cancelling) fun _ => rfl) fun _ => ?_
    exact Triple.bind (setStatus_follows (q := .ended) fun _ => rfl) fun _ =>
      Triple.pure none fun _ hs => hs
  · rw [if_neg hCancelled]
    exact Triple.bind (modify_follows (q := .failed failure) fun _ => rfl) fun _ =>
      Triple.raise _ fun _ hs => hs

theorem commitResponse_follows {response : MessageItem} :
    Triple (At env options message s₀ (.responded round response)) (commitResponse response)
      (fun _ => At env options message s₀ (.committed round response))
      (fun e => At env options message s₀ (.failed e)) H := by
  unfold commitResponse
  refine Triple.ite (fun hType => Triple.raise _ fun s hs => hs.next (if_pos hType)) fun hType => ?_
  refine Triple.bind (R := fun _ => At env options message s₀ (.committing round response))
    (Triple.check ?_ ?_) fun _ => ?_
  · intro _ hOk s hs
    apply hs.next
    simp only [step, if_neg hType, hOk, checked]
  · intro e hError s hs
    apply hs.next
    simp only [step, if_neg hType, hError, checked]
  refine check_follows (fun _ => rfl) fun state => ?_
  refine Triple.bind (R := fun _ => At env options message s₀ (.counting round response))
    (Triple.modify _ fun _ hs => hs) fun _ => ?_
  refine Triple.bind
    (R := fun t s => t = s ∧ At env options message s₀ (.counting round response) s)
    (Triple.get fun s hs => ⟨rfl, hs⟩) fun t => ?_
  refine Triple.bind (R := fun _ s => Reaches env options message s₀ ⟨.committed round response,
      { s with result := { s.result with
        completedExchanges := t.result.completedExchanges + 1
        lastExchangeTokens := exchangeTokens response } }⟩)
    (Triple.modify _ ?_) fun _ => Triple.modify _ fun s hs => ?_
  · rintro s ⟨rfl, hs⟩
    exact hs.next rfl
  · exact hs

theorem announceResponse_follows {response : MessageItem} :
    Triple (At env options message s₀ (.committed round response))
      (announceResponse env response)
      (fun hookError => At env options message s₀ (.announced round response hookError)) E H := by
  unfold announceResponse
  refine Triple.handle
    (F := fun e => At env options message s₀ (.announced round response (errorText e))) ?_
    fun failure => Triple.pure _ fun _ hs => hs
  refine Triple.bind (R := fun _ => At env options message s₀ (.noticed round response))
    (publish_follows fun _ => rfl) fun _ => ?_
  refine Triple.ite (fun hCalls => ?_) fun hCalls => ?_
  · exact Triple.bind (R := fun _ => At env options message s₀ (.announced round response ""))
      (publish_follows fun _ => if_pos hCalls) fun _ => Triple.pure "" fun _ hs => hs
  · exact Triple.pure "" fun s hs => hs.next (if_neg hCalls)

theorem dispatchBatch_follows {calls : List InvokeQuery} {hookError : String} :
    Triple (At env options message s₀ (.marking round calls hookError))
      (dispatchBatch env calls hookError)
      (fun records => At env options message s₀ (.gathered round hookError records))
      (fun e => At env options message s₀ (.failed e)) H := by
  unfold dispatchBatch
  refine Triple.bind (modify_follows (q := .marked round calls hookError) fun _ => rfl)
    fun _ => ?_
  refine Triple.bind (R := fun _ => At env options message s₀ (.dispatching round calls hookError))
    (publish_follows fun _ => rfl) fun _ => ?_
  refine Triple.bind (R := fun _ => At env options message s₀ (.cleared round calls hookError))
    (checkpoint_follows fun _ => rfl) fun _ => ?_
  refine Triple.bind (stopRequested_follows fun _ => rfl) fun stop => ?_
  refine Triple.ite (fun hSkip => Triple.pure _ fun s hs => ?_) fun hRun => ?_
  · by_cases hStop : stop = true
    · rwa [if_pos hStop] at hs
    · rwa [if_neg hStop, if_pos (hSkip.resolve_left hStop)] at hs
  · simp only [not_or, ne_eq, Decidable.not_not] at hRun
    obtain ⟨hStop, rfl⟩ := hRun
    rw [if_neg hStop, if_neg (by simp)]
    exact external_follows fun _ => rfl

theorem projectBatch_follows {hookError : String} {records : List InvokeReturn} :
    Triple (At env options message s₀ (.gathered round hookError records))
      (projectBatch env records)
      (fun _ => At env options message s₀ (.projected round hookError))
      (fun e => At env options message s₀ (.failed e)) H := by
  unfold projectBatch
  refine Triple.bind (modify_follows (q := .recorded round hookError) fun _ => rfl) fun _ => ?_
  refine Triple.bind (R := fun _ => At env options message s₀ (.saving round hookError))
    (publish_follows fun _ => rfl) fun _ => ?_
  refine Triple.bind (R := fun _ => At env options message s₀ (.projecting round hookError))
    (checkpoint_follows fun _ => rfl) fun _ => ?_
  exact check_follows (fun _ => rfl) fun state => Triple.modify _ fun _ hs => hs

theorem finishStep_follows : Triple (At env options message s₀ (.settled round)) (finishStep env)
      (fun _ => At env options message s₀ (.stepSaved round))
      (fun e => At env options message s₀ (.failed e)) H := by
  have hEdit : Triple (At env options message s₀ (.editing round)) (editState env .stepFinished)
      (fun _ => At env options message s₀ (.edited round))
      (fun e => At env options message s₀ (.failed e)) H := by
    refine Triple.of_state fun t ht => ?_
    have hFrom : Triple (fun s => s = t ∧ At env options message s₀ (.editing round) s)
        (editState env .stepFinished) (fun _ => At env options message s₀ (.edited round))
        (fun e => At env options message s₀ (.failed e)) H :=
      editState_follows rfl
    exact hFrom.pre fun s hs => ⟨hs, hs ▸ ht⟩
  unfold finishStep
  refine Triple.bind (R := fun _ => At env options message s₀ (.editing round))
    (publish_follows fun _ => rfl) fun _ => Triple.bind hEdit fun _ => ?_
  exact Triple.bind (R := fun _ => At env options message s₀ (.stepSaving round))
    (publish_follows fun _ => rfl) fun _ => checkpoint_follows fun _ => rfl

theorem settleBatch_follows {calls : List InvokeQuery} {hookError : String} :
    Triple (At env options message s₀ (.marking round calls hookError))
      (settleBatch env calls hookError)
      (fun _ => At env options message s₀ (.stepSaved round))
      (fun e => At env options message s₀ (.failed e)) H := by
  unfold settleBatch
  refine Triple.bind dispatchBatch_follows fun records => ?_
  refine Triple.bind projectBatch_follows fun _ => ?_
  refine Triple.ite (fun hHook => Triple.raise _ fun s hs => hs.next (if_pos hHook)) fun hHook => ?_
  exact silent_follows (fun s => if_neg hHook) finishStep_follows

theorem boundary_follows :
    Triple (At env options message s₀ (.stepSaved round)) (boundary env options)
      (fun more => At env options message s₀ (if more = true then .ready (round + 1) else .ended))
      E H := by
  unfold boundary
  refine stop_follows (fun _ => rfl) ?_ ?_
  · exact Triple.bind (setStatus_follows (q := .ended) fun _ => rfl) fun _ =>
      Triple.pure false fun _ hs => hs
  refine Triple.bind (R := fun t s => t = s ∧ At env options message s₀ (.deciding round) s)
    (Triple.get fun s hs => ⟨rfl, hs⟩) fun t => ?_
  cases hCompact : autoCompact options t.result with
  | none =>
    refine Triple.pure true ?_
    rintro s ⟨rfl, hs⟩
    apply hs.next
    simp only [step, hCompact, if_true]
  | some reason =>
    refine Triple.bind (R := fun _ => At env options message s₀ .ended) (Triple.modify _ ?_)
      fun _ => Triple.pure false fun _ hs => hs
    rintro s ⟨rfl, hs⟩
    apply hs.next
    simp only [step, hCompact]

theorem settleResponse_follows {response : MessageItem} :
    Triple (At env options message s₀ (.responded round response))
      (settleResponse env options response)
      (fun more => At env options message s₀ (if more = true then .ready (round + 1) else .ended))
      (fun e => At env options message s₀ (.failed e)) H := by
  unfold settleResponse
  refine Triple.bind commitResponse_follows fun _ => ?_
  refine Triple.bind announceResponse_follows fun hookError => ?_
  refine Triple.ite (fun hCalls => ?_) fun hCalls => ?_
  · refine silent_follows (q := .marking round (response.invokes.getD []) hookError)
      (fun s => if_pos hCalls) ?_
    exact Triple.bind settleBatch_follows fun _ => boundary_follows
  refine Triple.ite (fun hHook => Triple.raise _ fun s hs => hs.next ?_) fun hHook => ?_
  · simp only [step, if_neg hCalls, if_pos hHook]
  · refine Triple.bind (R := fun _ => At env options message s₀ .ended) (Triple.modify _ ?_)
      fun _ => Triple.pure false fun _ hs => hs
    intro s hs
    apply hs.next
    simp only [step, if_neg hCalls, if_neg hHook]
    rfl

theorem exchange_follows :
    Triple (At env options message s₀ (.polling round)) (exchange env options)
      (fun more => At env options message s₀ (if more = true then .ready (round + 1) else .ended))
      (fun e => At env options message s₀ (.failed e)) H := by
  unfold exchange
  refine stop_follows (fun _ => rfl) ?_ ?_
  · exact Triple.bind (setStatus_follows (q := .ended) fun _ => rfl) fun _ =>
      Triple.pure false fun _ hs => hs
  refine Triple.bind prepareModel_follows fun ready => ?_
  refine Triple.ite (fun hReady => ?_) fun hReady => ?_
  · rw [if_pos hReady]
    refine Triple.bind (modify_follows (q := .model round) fun _ => rfl) fun _ => ?_
    refine Triple.bind converse_follows fun response => ?_
    cases response with
    | none => exact Triple.pure false fun _ hs => hs
    | some response => exact settleResponse_follows
  · rw [if_neg hReady]
    exact Triple.pure false fun _ hs => hs

theorem exchanges_follows (fuel : Nat) :
    ∀ round, Triple (At env options message s₀ (.ready round)) (exchanges env options fuel round)
      (fun _ => At env options message s₀ .ended)
      (fun e => At env options message s₀ (.failed e))
      (fun s => ∃ n, At env options message s₀ (.ready n) s) := by
  induction fuel with
  | zero => exact fun round => Triple.halt fun s hs => ⟨round, hs⟩
  | succ fuel ih =>
    intro round
    unfold exchanges
    refine Triple.ite (fun hCap => Triple.pure _ fun s hs => hs.next (if_pos hCap))
      fun hCap => ?_
    refine silent_follows (fun s => if_neg hCap) (Triple.bind exchange_follows fun more => ?_)
    refine Triple.ite (fun hMore => ?_) fun hMore => ?_
    · rw [if_pos hMore]
      exact ih (round + 1)
    · rw [if_neg hMore]
      exact Triple.pure _ fun _ hs => hs

theorem body_follows (fuel : Nat) :
    Triple (At env options message s₀ .start) (body env options message fuel)
      (fun _ => At env options message s₀ .ended)
      (fun e => At env options message s₀ (.failed e))
      (fun s => ∃ n, At env options message s₀ (.ready n) s) := by
  unfold body
  refine Triple.bind admission_follows fun go => ?_
  refine Triple.ite (fun hGo => ?_) fun hGo => ?_
  · rw [if_pos hGo]
    unfold work
    refine Triple.bind (R := fun _ => At env options message s₀ .started)
      (publish_follows fun _ => rfl) fun _ => ?_
    refine Triple.bind (R := fun _ => At env options message s₀ .entering) ?_ fun _ => ?_
    · cases hMessage : message with
      | none =>
        subst hMessage
        exact Triple.pure _ fun s hs => hs.next rfl
      | some m =>
        subst hMessage
        exact acceptInput_follows rfl
    exact Triple.bind (setStatus_follows (q := .ready 0) fun _ => rfl) fun _ =>
      exchanges_follows fuel 0
  · rw [if_neg hGo]
    exact Triple.pure _ fun _ hs => hs

theorem finish_follows : Triple (At env options message s₀ .settling) (finish env)
      (fun _ => At env options message s₀ .returned)
      (fun e => At env options message s₀ (.escaped e)) H := by
  unfold finish
  refine Triple.bind (R := fun t s => t = s ∧ At env options message s₀ .settling s)
    (Triple.get fun s hs => ⟨rfl, hs⟩) fun t => ?_
  refine Triple.bind (R := fun _ s => s.result = t.result ∧ At env options message s₀ .finishing s)
    (Triple.modify _ ?_) fun _ => ?_
  · rintro s ⟨rfl, hs⟩
    exact ⟨rfl, hs.next rfl⟩
  refine Triple.bind (R := fun _ => At env options message s₀ .finished) ?_ fun _ => ?_
  · refine Triple.handle (F := fun e => At env options message s₀ (.finishFailed e)) ?_
      fun failure => ?_
    · refine Triple.of_state ?_
      rintro u ⟨hResult, hu⟩
      have hFrom : Triple (fun s => s = u ∧ At env options message s₀ .finishing s)
          (editState env (.runFinished u.result)) (fun _ => At env options message s₀ .finished)
          (fun e => At env options message s₀ (.finishFailed e)) H :=
        editState_follows rfl
      rw [← hResult]
      exact hFrom.pre fun s hs => ⟨hs, hs ▸ hu⟩
    · refine Triple.bind (R := fun _ s => Reaches env options message s₀ ⟨.finished,
          s.withProgress fun p => { p with status := .failed, error := s.result.error }⟩)
        (Triple.modify _ ?_) fun _ => ?_
      · exact fun s hs => hs.next rfl
      refine Triple.bind (R := fun t s => t = s ∧ Reaches env options message s₀ ⟨.finished,
          s.withProgress fun p => { p with status := .failed, error := s.result.error }⟩)
        (Triple.get fun s hs => ⟨rfl, hs⟩) fun u => Triple.modify _ ?_
      rintro s ⟨rfl, hs⟩
      exact hs
  refine Triple.bind (R := fun t s => t = s ∧ At env options message s₀ .finished s)
    (Triple.get fun s hs => ⟨rfl, hs⟩) fun u => ?_
  refine Triple.bind (R := fun _ => At env options message s₀ .finalSaving) ?_
    fun _ => checkpoint_follows fun _ => rfl
  refine Triple.handle (F := fun _ => At env options message s₀ .finalSaving) ?_
    fun _ => Triple.pure _ fun _ hs => hs
  apply Triple.call
  · rintro s a ⟨rfl, hs⟩ hOk
    apply hs.next
    dsimp only at hOk
    simp only [step, published, called, hOk, RunState.withWorld]
  · rintro s e ⟨rfl, hs⟩ hError
    apply hs.next
    dsimp only at hError
    simp only [step, published, called, hError, RunState.withWorld]

/-- **However a run ends, the machine gets there**: at its exit with the same state, or
at the start of the round the program may not begin any more. -/
theorem run_reaches (env : Env W) (options : Options) (message : Option MessageItem) (fuel : Nat)
    (s₀ : RunState W) : match (run env options message fuel).exec s₀ with
    | (.ok result, s) => result = s.result ∧ Reaches env options message s₀ ⟨.returned, s⟩
    | (.error (.failure e), s) => Reaches env options message s₀ ⟨.escaped e, s⟩
    | (.error .halted, s) => ∃ n, Reaches env options message s₀ ⟨.ready n, s⟩ := by
  have hRun : Triple (At env options message s₀ .start) (run env options message fuel)
      (fun result s => result = s.result ∧ At env options message s₀ .returned s)
      (fun e => At env options message s₀ (.escaped e))
      (fun s => ∃ n, At env options message s₀ (.ready n) s) := by
    unfold run
    refine Triple.bind (R := fun _ => At env options message s₀ .ended) ?_ fun _ => ?_
    · refine Triple.handle (body_follows fuel) fun failure => ?_
      unfold recordFailure
      refine Triple.bind (R := fun t s => t = s ∧ At env options message s₀ (.failed failure) s)
        (Triple.get fun s hs => ⟨rfl, hs⟩) fun t => ?_
      refine Triple.ite (fun hRefused => Triple.raise _ ?_) fun hRefused => Triple.modify _ ?_
      · rintro s ⟨rfl, hs⟩
        exact hs.next (if_pos hRefused)
      · rintro s ⟨rfl, hs⟩
        exact hs.next (if_neg hRefused)
    refine Triple.bind (R := fun t s => t = s ∧ At env options message s₀ .ended s)
      (Triple.get fun s hs => ⟨rfl, hs⟩) fun t => ?_
    have hReturn : Triple (At env options message s₀ .returned)
        (do return (← get).result : Run W RunResult)
        (fun result s => result = s.result ∧ At env options message s₀ .returned s)
        (fun e => At env options message s₀ (.escaped e))
        (fun s => ∃ n, At env options message s₀ (.ready n) s) := by
      refine Triple.bind (R := fun t s => t = s ∧ At env options message s₀ .returned s)
        (Triple.get fun s hs => ⟨rfl, hs⟩) fun t => Triple.pure _ ?_
      rintro s ⟨rfl, hs⟩
      exact ⟨rfl, hs⟩
    refine Triple.ite (fun hAdmitted => ?_) fun hAdmitted => ?_
    · refine Triple.pre (Triple.bind finish_follows fun _ => hReturn) ?_
      rintro s ⟨rfl, hs⟩
      exact hs.next (if_pos hAdmitted)
    · refine Triple.pre hReturn ?_
      rintro s ⟨rfl, hs⟩
      exact hs.next (if_neg hAdmitted)
  have hEnd := hRun s₀ Reaches.start
  cases hExec : (run env options message fuel).exec s₀ with
  | mk outcome s =>
    rw [hExec] at hEnd
    cases outcome with
    | ok result => exact hEnd
    | error e =>
      cases e with
      | failure e | halted => exact hEnd

end Follow

end SimplexAgent.Loop
