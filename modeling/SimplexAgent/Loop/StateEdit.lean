import SimplexAgent.Loop.HookFailure

/-!
# Edits of the live state

`edit_state` of `loop.cpp` with the subscribers of the event bus taken apart. The subscribers
of an edit event work one after the other on the state in use itself, so a throw finds it
half edited. A copy taken before the first of them is put back then, and also when what
they left together is no valid edit.

`editLive` is that program. The machine of a run takes an edit as one operation, with the
state that comes out of it; `editLive_refines` says that this is what the program does.
-/

namespace SimplexAgent.Loop

open Dataclass Verified.Interruptible

section StateEdit

variable {W : Type}

/-- What a subscriber makes of the live state and of its world until it returns or throws. -/
abbrev EditSlot (W : Type) := AgentInputState → W → Except Failure Unit × AgentInputState × W

abbrev EditBus (W : Type) := EditEvent → W → List (EditSlot W)

/-! ## The program -/

/-- One subscriber at work. -/
def callSlot (slot : EditSlot W) : Run W Unit :=
  Prog.call fun s =>
    let (outcome, edited, world) := slot s.state s.world
    (outcome, { s with state := edited, world := world })

/-- `publish` of an edit event: a throw ends it, later subscribers are not called. -/
def publishEdit : List (EditSlot W) → Run W Unit
  | [] => pure ()
  | slot :: rest => do
    callSlot slot
    publishEdit rest

def checkEdit (before : AgentInputState) : Run W Unit := do
  let edited ← get
  Prog.check (validateStateEdit edited.state before)

/-- `edit_state`, on the state in use. -/
def editLive (bus : EditBus W) (event : EditEvent) : Run W Unit := do
  let s ← get
  if (bus event s.world).length = 0 then pure ()
  else
    let before := s.state
    Prog.handle
      (do
        publishEdit (bus event s.world)
        checkEdit before)
      fun failure => do
        setState before
        Prog.raise failure

/-! ## What the subscribers leave -/

/-- What some subscribers leave together. -/
def runSlots : List (EditSlot W) → AgentInputState → W → Except Failure Unit × AgentInputState × W
  | [], state, world => (.ok (), state, world)
  | slot :: rest, state, world =>
    match slot state world with
    | (.ok (), edited, world') => runSlots rest edited world'
    | (.error failure, edited, world') => (.error failure, edited, world')

/-- The surroundings of a run whose edit events go to a bus. -/
def Env.withBus (env : Env W) (bus : EditBus W) : Env W :=
  { env with
    subscribed := fun event world => (bus event world).length ≠ 0
    edit := fun event state world =>
      let (outcome, edited, world') := runSlots (bus event world) state world
      ((outcome, edited), world') }

theorem exec_publishEdit (slots : List (EditSlot W)) (s : RunState W) : (publishEdit slots).exec s =
      ((runSlots slots s.state s.world).1.mapError .failure,
        { s with
          state := (runSlots slots s.state s.world).2.1
          world := (runSlots slots s.state s.world).2.2 }) := by
  induction slots generalizing s with
  | nil => rfl
  | cons slot rest ih =>
    rw [publishEdit, Prog.exec_bind, callSlot, Prog.exec_call, runSlots]
    rcases slot s.state s.world with ⟨outcome, edited, world⟩
    cases outcome with
    | ok u => exact ih _
    | error failure => rfl

theorem exec_checkEdit (before : AgentInputState) (s : RunState W) :
    (checkEdit before).exec s = ((validateStateEdit s.state before).mapError .failure, s) := by
  rw [checkEdit, Prog.exec_bind, Prog.exec_get]
  dsimp only
  cases validateStateEdit s.state before with
  | ok u => rfl
  | error failure => rfl

/-- **The program does what the machine takes for one operation.** -/
theorem editLive_refines (env : Env W) (bus : EditBus W) (event : EditEvent) (s : RunState W) :
    (editLive bus event).exec s = (editState (env.withBus bus) event).exec s := by
  rw [editLive, Prog.exec_bind, Prog.exec_get, editState, Prog.exec_call]
  by_cases hNone : (bus event s.world).length = 0
  · simp only [hNone, Env.withBus, if_true, ne_eq, not_true_eq_false, decide_false,
      Bool.false_eq_true, if_false]
    rfl
  · simp only [hNone, Env.withBus, if_false, ne_eq, not_false_eq_true, decide_true, if_true]
    rw [Prog.exec_handle, Prog.exec_bind, exec_publishEdit]
    rcases hLeft : runSlots (bus event s.world) s.state s.world with ⟨outcome, edited, world⟩
    cases outcome with
    | error failure => rfl
    | ok u =>
      simp only [Except.mapError, exec_checkEdit]
      cases hValid : validateStateEdit edited s.state with
      | error failure => rfl
      | ok u => rfl

/-! ## All or nothing -/

theorem structure_of_validEdit {state before : AgentInputState}
    (h : validateStateEdit state before = .ok ()) : validateStateStructure state = .ok () := by
  unfold validateStateEdit at h
  split at h
  · obtain ⟨_, -, h⟩ := Verified.Tables.bind_ok h
    obtain ⟨_, -, h⟩ := Verified.Tables.bind_ok h
    obtain ⟨_, hStructure, -⟩ := Verified.Tables.bind_ok h
    exact hStructure
  · cases h

/-- The edit of some subscribers is installed: all of them returned, what they left passes
the checks, and it is what is in use. -/
structure Installs (bus : EditBus W) (event : EditEvent) (before after : RunState W) : Prop where
  returned : (runSlots (bus event before.world) before.state before.world).1 = .ok ()
  valid : validateStateStructure after.state = .ok ()
  whole : after =
    { before with
      state := (runSlots (bus event before.world) before.state before.world).2.1
      world := (runSlots (bus event before.world) before.state before.world).2.2 }

/-- The edit of some subscribers is undone. Only what they did elsewhere remains. -/
def Undoes (bus : EditBus W) (event : EditEvent) (before after : RunState W) : Prop :=
  after = before.withWorld (runSlots (bus event before.world) before.state before.world).2.2

structure FailsWith (before after : RunState W) : Prop where
  status : after.result.status = .failed
  state : after.state = before.state ∨
    after.state = { before.state with
      loop := before.state.loop.map fun p =>
        { p with status := .failed, error := after.result.error } }

/-- What becomes of an edit. Without subscribers the run goes on as it was. Otherwise the edit
is installed and the run goes on, or it is undone and one operation later the run has failed. -/
def EditOutcome (bus : EditBus W) (event : EditEvent) (before : RunState W) (next : Point)
    (otherwise : Failure → Point) (after later : Config W) : Prop :=
  bus event before.world = [] ∧ after = ⟨next, before⟩ ∨
    Installs bus event before after.run ∧ after.point = next ∨
    Undoes bus event before after.run ∧ (∃ failure, after.point = otherwise failure) ∧
      FailsWith before later.run

theorem editedBy_outcome (env : Env W) (bus : EditBus W) {s : RunState W} {event : EditEvent}
    {next : Point} (otherwise : Failure → Point) (later : Config W → Config W)
    (hFails : ∀ failure world, FailsWith s (later ⟨otherwise failure, s.withWorld world⟩).run) :
    EditOutcome bus event s next otherwise (editedBy (env.withBus bus) s event next otherwise)
      (later (editedBy (env.withBus bus) s event next otherwise)) := by
  unfold editedBy
  by_cases hNone : (bus event s.world).length = 0
  · rw [if_neg (by simpa [Env.withBus] using hNone)]
    exact .inl ⟨List.length_eq_zero_iff.mp hNone, rfl⟩
  · rw [if_pos (by simpa [Env.withBus] using hNone)]
    refine .inr ?_
    simp only [Env.withBus]
    rcases hLeft : runSlots (bus event s.world) s.state s.world with ⟨outcome, edited, world⟩
    have hUndone (failure : Failure) :
        Undoes bus event s (s.withWorld world) ∧ FailsWith s
          (later ⟨otherwise failure, s.withWorld world⟩).run :=
      ⟨by rw [Undoes, hLeft], hFails failure world⟩
    cases outcome with
    | error failure => exact .inr ⟨(hUndone failure).1, ⟨failure, rfl⟩, (hUndone failure).2⟩
    | ok u =>
      dsimp only
      cases hValid : validateStateEdit edited s.state with
      | error failure => exact .inr ⟨(hUndone failure).1, ⟨failure, rfl⟩, (hUndone failure).2⟩
      | ok u =>
        exact .inl ⟨⟨by rw [hLeft], structure_of_validEdit hValid, by rw [hLeft]; rfl⟩, rfl⟩

def editOf (c : Config W) : Option EditEvent :=
  match c.point with
  | .editing _ => some .stepFinished
  | .finishing => some (.runFinished c.run.result)
  | _ => none

def editGoesOn : Point → Point
  | .editing round => .edited round
  | _ => .finished

def editFails : Point → Failure → Point
  | .editing _ => .failed
  | _ => .finishFailed

variable {env : Env W} {options : Options} {message : Option MessageItem}

theorem stepEdit_failsWith (s : RunState W) (hAdmitted : s.admitted = true) (failure : Failure)
    (world : W) :
    FailsWith s (step env options message ⟨.failed failure, s.withWorld world⟩).run := by
  have hIn : ¬(failure.kind = .recoveryRequired ∧ (s.withWorld world).admitted = false) := by
    simp [RunState.withWorld, hAdmitted]
  simp only [step, if_neg hIn]
  exact ⟨rfl, .inl rfl⟩

theorem finishEdit_failsWith (s : RunState W) (failure : Failure) (world : W) :
    FailsWith s (step env options message ⟨.finishFailed failure, s.withWorld world⟩).run :=
  ⟨rfl, .inr rfl⟩

/--
**An edit is installed as a whole or undone as a whole.** Whatever the subscribers of the two
edit events change before one of them throws or what they left is refused: `edit_state` on the
state in use is the operation of the machine, and at each of the two events of any run, the run
goes on with the state that the subscribers left, which passes the checks, or it fails with the
state as it was.
-/
theorem edits_allOrNothing {W : Type} (env : Env W) (bus : EditBus W) (options : Options)
    (message : Option MessageItem) (s₀ : RunState W) (hStart : s₀.admitted = false)
    (c : Config W) (hReach : Reaches (env.withBus bus) options message s₀ c) (event : EditEvent)
    (hEvent : editOf c = some event) :
    (editLive bus event).exec c.run = (editState (env.withBus bus) event).exec c.run ∧
      EditOutcome bus event c.run (editGoesOn c.point) (editFails c.point)
        (step (env.withBus bus) options message c)
        (step (env.withBus bus) options message (step (env.withBus bus) options message c)) := by
  have hSound := reaches_sound hStart hReach
  refine ⟨editLive_refines env bus event c.run, ?_⟩
  obtain ⟨p, s⟩ := c
  cases p with
  | editing round =>
    cases hEvent
    exact editedBy_outcome env bus .failed (step (env.withBus bus) options message)
      (stepEdit_failsWith s hSound.1)
  | finishing =>
    cases hEvent
    exact editedBy_outcome env bus .finishFailed (step (env.withBus bus) options message)
      (finishEdit_failsWith s)
  | _ => cases hEvent

end StateEdit

/-! ### A subscriber that throws half-way -/

/-- The subscriber has dropped the history when it throws. -/
def clearingBus : EditBus Nat := fun _ _ =>
  [fun state world => (.error { what := "summary failed" }, { state with turns := [] }, world)]

/-- The end of the first step, with its edit to come. -/
def clearingEdit : Config Nat :=
  advance (sampleEnv.withBus clearingBus) { maxExchanges := some 2 } hookMessage 39
    ⟨.start, hookStart⟩

theorem edits_allOrNothing_clearing : editOf clearingEdit = some .stepFinished ∧
      Undoes clearingBus .stepFinished clearingEdit.run
        (step (sampleEnv.withBus clearingBus) { maxExchanges := some 2 } hookMessage
          clearingEdit).run := by
  have hEvent : editOf clearingEdit = some .stepFinished := rfl
  obtain ⟨-, hOutcome⟩ := edits_allOrNothing sampleEnv clearingBus { maxExchanges := some 2 }
    hookMessage hookStart rfl clearingEdit (advance_reaches Reaches.start 39) .stepFinished hEvent
  refine ⟨hEvent, ?_⟩
  rcases hOutcome with ⟨hNone, -⟩ | ⟨hInstalled, -⟩ | ⟨hUndone, -, -⟩
  · cases hNone
  · cases hInstalled.returned
  · exact hUndone

end SimplexAgent.Loop
