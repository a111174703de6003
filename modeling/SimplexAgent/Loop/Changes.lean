import SimplexAgent.Loop.MachineSound

/-!
# What a run does to a conversation

Every operation of the machine leaves the conversation as it is or changes it in one of
nine ways (`Change`). An invariant of conversations that is kept by each of them holds at
every moment of a run; it needs no look at the points of the machine.

A response that is committed is named by the change, so a history of the responses
committed so far can be kept beside the run (`Committing`).
-/

namespace SimplexAgent.Loop

open Dataclass
open Verified.Tables (bind_ok)

/-! ## Changes -/

section Change

variable {W : Type}

def openedProgress (s : AgentInputState) : LoopProgress where
  status := .running
  committedResponseSequence := (s.loop.map LoopProgress.committedResponseSequence).getD 0

/-- What one operation does to the conversation, and the responses it commits. -/
inductive Change (env : Env W) : AgentInputState → AgentInputState → List MessageItem → Prop
  | same (s : AgentInputState) : Change env s s []
  /-- Fields of the progress record other than the commit sequence. -/
  | progress (s : AgentInputState) (f : LoopProgress → LoopProgress)
      (hSequence : ∀ p, (f p).committedResponseSequence = p.committedResponseSequence) :
      Change env s { s with loop := s.loop.map f } []
  /-- A new progress record under the commit sequence of the old one. -/
  | admitted (s : AgentInputState) :
      Change env s { s with loop := some (openedProgress s) } []
  | recovered {s s' : AgentInputState} (h : recover s = .ok s') : Change env s s' []
  | accepted (s : AgentInputState) {m : MessageItem} (h : isUserMessage m = true) :
      Change env s (modelIntegrate s m) []
  /-- What the hooks before a request made of its context. -/
  | context (s : AgentInputState) {w : W} {context : ModelContext}
      (h : (env.beforeModel s ⟨s.systemPrompt, s.tools, s.extras⟩ w).1 = .ok context) :
      Change env s
        { s with
          systemPrompt := context.systemPrompt
          tools := context.tools
          extras := context.extras } []
  | committed {s s' : AgentInputState} {response : MessageItem} (hSound : SoundResponse response)
      (hLoop : s.loop.isSome) (h : integrateResponse s response = .ok s') :
      Change env s s' [response]
  | projected {s s' : AgentInputState} (h : project s = .ok s') : Change env s s' []
  | edited {s s' : AgentInputState} {event : EditEvent} {w w' : W}
      (h : env.edit event s w = ((.ok (), s'), w')) (hValid : validateStateEdit s' s = .ok ()) :
      Change env s s' []

def FromHooks (env : Env W) (s : AgentInputState) (context : ModelContext) : Prop :=
  ∃ w, (env.beforeModel s ⟨s.systemPrompt, s.tools, s.extras⟩ w).1 = .ok context

/-- The points between the hooks and the request. -/
def Prepared (env : Env W) (c : Config W) : Prop :=
  match c.point with
  | .prepared _ context | .rendered _ context | .requesting _ context =>
    FromHooks env c.run.state context
  | _ => True

def committing (c : Config W) : List MessageItem :=
  match c.point with
  | .committing _ response =>
    match integrateResponse c.run.state response with
    | .ok _ => [response]
    | .error _ => []
  | _ => []

variable {env : Env W} {options : Options} {message : Option MessageItem}

theorem editedBy_cases {P : Config W → Prop} {s : RunState W} {event : EditEvent} {next : Point}
    {otherwise : Failure → Point} (hSame : P ⟨next, s⟩)
    (hEdit : ∀ edited w, env.edit event s.state s.world = ((.ok (), edited), w) →
      validateStateEdit edited s.state = .ok () →
      P ⟨next, { s with state := edited, world := w }⟩)
    (hError : ∀ e, P ⟨otherwise e, s.withWorld (env.edit event s.state s.world).2⟩) :
    P (editedBy env s event next otherwise) := by
  unfold editedBy
  by_cases hSubscribed : env.subscribed event s.world = true
  · rw [if_pos hSubscribed]
    rcases hEdited : env.edit event s.state s.world with ⟨⟨outcome, edited⟩, w⟩
    rw [hEdited] at hError
    dsimp only
    cases outcome with
    | error e => exact hError e
    | ok u =>
      cases hValid : validateStateEdit edited s.state with
      | error e => exact hError e
      | ok v => exact hEdit edited w hEdited hValid
  · rw [if_neg hSubscribed]
    exact hSame

/-- **One operation changes the conversation in one of these ways.** -/
theorem step_change (c : Config W) (hSound : SoundAt c) (hPrepared : Prepared env c) :
    Change env c.run.state (step env options message c).run.state (committing c) := by
  obtain ⟨p, s⟩ := c
  have hChecked : ∀ {α : Type} {r : Except Failure α} {next : α → Config W},
      (∀ a, r = .ok a → Change env s.state (next a).run.state []) →
      Change env s.state (checked r s next).run.state [] := fun hOk =>
    checked_rule (P := fun c => Change env s.state c.run.state []) hOk fun _ _ => .same _
  have hCalled : ∀ {α : Type} {f : AgentInputState → W → Except Failure α × W}
      {next : α → Point} {otherwise : Failure → Point},
      Change env s.state (called s f next otherwise).run.state [] := fun {_ _ _ _} =>
    called_rule (P := fun c => Change env s.state c.run.state []) (fun _ _ => .same _)
      fun _ _ => .same _
  have hPolled : ∀ {stopped going : Point},
      Change env s.state (polled env s stopped going).run.state [] := fun {_ _} =>
    polled_rule (P := fun c => Change env s.state c.run.state []) (fun _ => .same _) (.same _)
  have hSaved : ∀ {boundary : Checkpoint} {next : Point} {otherwise : Failure → Point},
      Change env s.state (saved env s boundary next otherwise).run.state [] := fun {_ _ _} =>
    saved_rule (P := fun c => Change env s.state c.run.state []) (fun _ => .same _)
      fun _ _ => .same _
  have hEdited : ∀ {event : EditEvent} {next : Point} {otherwise : Failure → Point},
      Change env s.state (editedBy env s event next otherwise).run.state [] := fun {_ _ _} =>
    editedBy_cases (P := fun c => Change env s.state c.run.state []) (.same _)
      (fun _ _ hEdit hValid => .edited hEdit hValid) fun _ => .same _
  cases p with
  | start | recovered | prepared round context => exact hChecked fun _ _ => .same _
  | requested | validated | accepting m | polling round | rendered round context | model round
  | withdrawn failure | cleared round calls hookError | stepSaved round => exact hPolled
  | recovering => exact hChecked fun _ hr => .recovered hr
  | admitting => exact .admitted _
  | opened | accepted | preparing round | conversing round | committed round response
  | marked round calls hookError | executing round calls | recorded round hookError
  | settled round | edited round | finished => exact hCalled
  | started =>
    cases message with
    | none => exact .same _
    | some m => exact hCalled
  | rewritten m | ready round | aborted failure | projected round hookError | failed failure
  | ended =>
    show Change env s.state (if _ then _ else _ : Config W).run.state []
    split <;> exact .same _
  | integrating m => exact .accepted _ hSound.1
  | requesting round context =>
    obtain ⟨w, hHooks⟩ := hPrepared
    exact .context _ hHooks
  | opening round | withdrawing | counting round response | marking round calls hookError
  | gathered round hookError records | settling | finishFailed failure =>
    exact .progress _ _ fun _ => rfl
  | responded round response =>
    show Change env s.state (if _ then _ else _ : Config W).run.state []
    split
    · exact .same _
    · exact hChecked fun _ _ => .same _
  | committing round response =>
    show Change env s.state (checked (integrateResponse s.state response) s _).run.state
      (match integrateResponse s.state response with
        | .ok _ => [response]
        | .error _ => [])
    obtain ⟨hResponse, -, -, -, p, hLoop, -⟩ := hSound
    cases hCommit : integrateResponse s.state response with
    | error f => exact .same _
    | ok state => exact .committed hResponse (by rw [hLoop]; rfl) hCommit
  | noticed round response =>
    show Change env s.state (if _ then _ else _ : Config W).run.state []
    split
    · exact hCalled
    · exact .same _
  | announced round response hookError =>
    show Change env s.state (if _ then _ else _ : Config W).run.state []
    split
    · exact .same _
    · split <;> exact .same _
  | dispatching round calls hookError | saving round hookError | stepSaving round | finalSaving =>
    exact hSaved
  | projecting round hookError => exact hChecked fun _ hr => .projected hr
  | editing round | finishing => exact hEdited
  | deciding round =>
    exact deciding_rule (P := fun c => Change env s.state c.run.state [])
      (fun _ _ => .same _) fun _ => .same _
  | declining | entering | cancelling | unanswered failure | returned | escaped failure =>
    exact .same _

/-- The context stays that of the hooks up to the request. -/
theorem step_prepared (c : Config W) (h : Prepared env c) :
    Prepared env (step env options message c) := by
  obtain ⟨p, s⟩ := c
  have hPublished : ∀ {event : Event} {next : Point} {otherwise : Failure → Point},
      (∀ w, Prepared env ⟨next, s.withWorld w⟩) →
      (∀ e w, Prepared env ⟨otherwise e, s.withWorld w⟩) →
      Prepared env (published env s event next otherwise) := fun hOk hError =>
    published_rule (P := Prepared env) hOk hError
  cases p with
  | start => exact checked_rule (P := Prepared env) (fun _ _ => trivial) fun _ _ => trivial
  | requested => exact polled_rule (P := Prepared env) (fun _ => trivial) trivial
  | recovering => exact checked_rule (P := Prepared env) (fun _ _ => trivial) fun _ _ => trivial
  | recovered => exact checked_rule (P := Prepared env) (fun _ _ => trivial) fun _ _ => trivial
  | validated => exact polled_rule (P := Prepared env) (fun _ => trivial) trivial
  | opened => exact hPublished (fun _ => trivial) fun _ _ => trivial
  | started =>
    cases message with
    | none => trivial
    | some m => exact called_rule (P := Prepared env) (fun _ _ => trivial) fun _ _ => trivial
  | rewritten m =>
    show Prepared env (if _ then _ else _)
    split <;> trivial
  | accepting m => exact polled_rule (P := Prepared env) (fun _ => trivial) trivial
  | accepted => exact hPublished (fun _ => trivial) fun _ _ => trivial
  | ready round =>
    show Prepared env (if _ then _ else _)
    split <;> trivial
  | polling round => exact polled_rule (P := Prepared env) (fun _ => trivial) trivial
  | preparing round =>
    exact called_rule (P := Prepared env) (fun _ hOk => ⟨s.world, hOk⟩) fun _ _ => trivial
  | prepared round context =>
    exact checked_rule (P := Prepared env) (fun _ _ => h) fun _ _ => trivial
  | rendered round context => exact polled_rule (P := Prepared env) (fun _ => trivial) h
  | model round => exact polled_rule (P := Prepared env) (fun _ => trivial) trivial
  | conversing round =>
    exact called_rule (P := Prepared env) (fun _ _ => trivial) fun _ _ => trivial
  | aborted failure =>
    show Prepared env (if _ then _ else _)
    split <;> trivial
  | withdrawn failure => exact polled_rule (P := Prepared env) (fun _ => trivial) trivial
  | responded round response =>
    show Prepared env (if _ then _ else _)
    split
    · trivial
    · exact checked_rule (P := Prepared env) (fun _ _ => trivial) fun _ _ => trivial
  | committing round response =>
    exact checked_rule (P := Prepared env) (fun _ _ => trivial) fun _ _ => trivial
  | committed round response => exact hPublished (fun _ => trivial) fun _ _ => trivial
  | noticed round response =>
    show Prepared env (if _ then _ else _)
    split
    · exact hPublished (fun _ => trivial) fun _ _ => trivial
    · trivial
  | announced round response hookError =>
    show Prepared env (if _ then _ else _)
    split
    · trivial
    · split <;> trivial
  | marked round calls hookError => exact hPublished (fun _ => trivial) fun _ _ => trivial
  | dispatching round calls hookError =>
    exact saved_rule (P := Prepared env) (fun _ => trivial) fun _ _ => trivial
  | cleared round calls hookError =>
    refine polled_rule (P := Prepared env) (fun _ => trivial) ?_
    split <;> trivial
  | executing round calls =>
    exact called_rule (P := Prepared env) (fun _ _ => trivial) fun _ _ => trivial
  | recorded round hookError => exact hPublished (fun _ => trivial) fun _ _ => trivial
  | saving round hookError =>
    exact saved_rule (P := Prepared env) (fun _ => trivial) fun _ _ => trivial
  | projecting round hookError =>
    exact checked_rule (P := Prepared env) (fun _ _ => trivial) fun _ _ => trivial
  | projected round hookError =>
    show Prepared env (if _ then _ else _)
    split <;> trivial
  | settled round => exact hPublished (fun _ => trivial) fun _ _ => trivial
  | editing round =>
    exact editedBy_rule (P := Prepared env) trivial (fun _ _ _ => trivial) fun _ _ => trivial
  | edited round => exact hPublished (fun _ => trivial) fun _ _ => trivial
  | stepSaving round =>
    exact saved_rule (P := Prepared env) (fun _ => trivial) fun _ _ => trivial
  | stepSaved round => exact polled_rule (P := Prepared env) (fun _ => trivial) trivial
  | deciding round =>
    exact deciding_rule (P := Prepared env) (fun _ _ => trivial) fun _ => trivial
  | failed failure =>
    show Prepared env (if _ then _ else _)
    split <;> trivial
  | ended =>
    show Prepared env (if _ then _ else _)
    split <;> trivial
  | finishing =>
    exact editedBy_rule (P := Prepared env) trivial (fun _ _ _ => trivial) fun _ _ => trivial
  | finished => exact hPublished (fun _ => trivial) fun _ _ => trivial
  | finalSaving => exact saved_rule (P := Prepared env) (fun _ => trivial) fun _ _ => trivial
  | declining | admitting | integrating m | entering | cancelling | requesting round context
  | opening round | withdrawing | unanswered failure | counting round response
  | marking round calls hookError | gathered round hookError records | settling
  | finishFailed failure | returned | escaped failure => trivial

/-! ## What a run does to its world -/

/-- An environment none of whose operations changes what `view` sees. -/
structure Frames {α : Type} (env : Env W) (view : W → α) : Prop where
  stopRequested : ∀ w, view (env.stopRequested w).2 = view w
  publish : ∀ event s w, view (env.publish event s w).2 = view w
  beforeInput : ∀ m w, view (env.beforeInput m w).2 = view w
  beforeModel : ∀ s context w, view (env.beforeModel s context w).2 = view w
  converse : ∀ s w, view (env.converse s w).2 = view w
  execute : ∀ calls w, view (env.execute calls w).2 = view w
  checkpoint : ∀ save boundary s w, env.checkpoint = some save → view (save boundary s w).2 = view w
  edit : ∀ event s w, view (env.edit event s w).2 = view w

theorem Frames.step {α : Type} {view : W → α} (f : Frames env view) (c : Config W) :
    view (Loop.step env options message c).run.world = view c.run.world := by
  obtain ⟨p, s⟩ := c
  have hChecked : ∀ {β : Type} {r : Except Failure β} {next : β → Config W},
      (∀ b, view (next b).run.world = view s.world) →
      view (checked r s next).run.world = view s.world := fun hNext =>
    checked_rule (P := fun c => view c.run.world = view s.world) (fun b _ => hNext b) fun _ _ => rfl
  have hCalled : ∀ {β : Type} {g : AgentInputState → W → Except Failure β × W}
      {next : β → Point} {otherwise : Failure → Point}, view (g s.state s.world).2 = view s.world →
      view (called s g next otherwise).run.world = view s.world := fun hWorld =>
    called_rule (P := fun c => view c.run.world = view s.world) (fun _ _ => hWorld) fun _ _ => hWorld
  have hPublished : ∀ {event : Event} {next : Point} {otherwise : Failure → Point},
      view (published env s event next otherwise).run.world = view s.world := fun {_ _ _} =>
    hCalled (f.publish _ _ _)
  have hPolled : ∀ {stopped going : Point},
      view (polled env s stopped going).run.world = view s.world := fun {_ _} =>
    polled_rule (P := fun c => view c.run.world = view s.world) (fun _ => f.stopRequested _)
      (f.stopRequested _)
  have hSaved : ∀ {boundary : Checkpoint} {next : Point} {otherwise : Failure → Point},
      view (saved env s boundary next otherwise).run.world = view s.world := by
    intro boundary next otherwise
    unfold saved
    cases hSave : env.checkpoint with
    | none => rfl
    | some save => exact hCalled (f.checkpoint _ _ _ _ hSave)
  have hEdited : ∀ {event : EditEvent} {next : Point} {otherwise : Failure → Point},
      view (editedBy env s event next otherwise).run.world = view s.world := by
    intro event next otherwise
    have hWorld := f.edit event s.state s.world
    refine editedBy_cases (P := fun c => view c.run.world = view s.world) rfl
      (fun edited w hEdit _ => ?_) fun _ => hWorld
    rw [hEdit] at hWorld
    exact hWorld
  cases p with
  | start => exact hChecked fun _ => rfl
  | requested => exact hPolled
  | recovering => exact hChecked fun _ => rfl
  | recovered => exact hChecked fun _ => rfl
  | validated => exact hPolled
  | opened => exact hPublished
  | started =>
    cases message with
    | none => rfl
    | some m => exact hCalled (f.beforeInput m _)
  | rewritten m =>
    show view (if _ then _ else _ : Config W).run.world = _
    split <;> rfl
  | accepting m => exact hPolled
  | accepted => exact hPublished
  | ready round =>
    show view (if _ then _ else _ : Config W).run.world = _
    split <;> rfl
  | polling round => exact hPolled
  | preparing round => exact hCalled (f.beforeModel _ _ _)
  | prepared round context => exact hChecked fun _ => rfl
  | rendered round context => exact hPolled
  | model round => exact hPolled
  | conversing round => exact hCalled (f.converse _ _)
  | aborted failure =>
    show view (if _ then _ else _ : Config W).run.world = _
    split <;> rfl
  | withdrawn failure => exact hPolled
  | responded round response =>
    show view (if _ then _ else _ : Config W).run.world = _
    split
    · rfl
    · exact hChecked fun _ => rfl
  | committing round response => exact hChecked fun _ => rfl
  | committed round response => exact hPublished
  | noticed round response =>
    show view (if _ then _ else _ : Config W).run.world = _
    split
    · exact hPublished
    · rfl
  | announced round response hookError =>
    show view (if _ then _ else _ : Config W).run.world = _
    split
    · rfl
    · split <;> rfl
  | marked round calls hookError => exact hPublished
  | dispatching round calls hookError => exact hSaved
  | cleared round calls hookError => exact hPolled
  | executing round calls => exact hCalled (f.execute _ _)
  | recorded round hookError => exact hPublished
  | saving round hookError => exact hSaved
  | projecting round hookError => exact hChecked fun _ => rfl
  | projected round hookError =>
    show view (if _ then _ else _ : Config W).run.world = _
    split <;> rfl
  | settled round => exact hPublished
  | editing round => exact hEdited
  | edited round => exact hPublished
  | stepSaving round => exact hSaved
  | stepSaved round => exact hPolled
  | deciding round =>
    exact deciding_rule (P := fun c => view c.run.world = view s.world) (fun _ _ => rfl)
      fun _ => rfl
  | failed failure =>
    show view (if _ then _ else _ : Config W).run.world = _
    split <;> rfl
  | ended =>
    show view (if _ then _ else _ : Config W).run.world = _
    split <;> rfl
  | finishing => exact hEdited
  | finished => exact hPublished
  | finalSaving => exact hSaved
  | declining | admitting | integrating m | entering | cancelling | requesting round context
  | opening round | withdrawing | unanswered failure | counting round response
  | marking round calls hookError | gathered round hookError records | settling
  | finishFailed failure | returned | escaped failure => rfl

end Change

end SimplexAgent.Loop
