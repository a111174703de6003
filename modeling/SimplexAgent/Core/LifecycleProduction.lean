import SimplexAgent.Core.ApplicationTrace
import SimplexAgent.Core.EventOutboxReserve

/-!
# What a worker produces between two drains

The outbox keeps slots for eight lifecycle events, and the worker waits for it to drain
before it admits a payload. Between two drains it announces one request: that it was
admitted, that it started, that its input was committed, what a compaction came to, and how
it ended. A run that compacts itself goes on with a message the worker wrote, in as many
segments as there are compactions; the mark of that message keeps its commit silent, as
long as the hooks before input leave the mark alone.
-/

namespace SimplexAgent.Core

open Dataclass Loop

section Production

variable {Ω : Type} {host : Host Ω} {config : Configuration}

/-! ## Operations that produce nothing -/

theorem Desk.call_produced {α : Type} (d : Desk Ω) (f : Ω → α × Ω) :
    (d.call f).2.produced = d.produced := rfl

theorem Desk.emit_produced (d : Desk Ω) (name : EventName) (state : AgentInputState) :
    (d.emit host name state).2.produced = d.produced := rfl

theorem Desk.emitLifecycle_produced (d : Desk Ω) (name : EventName) (state : AgentInputState) :
    (d.emitLifecycle host name state).2.produced = d.produced ++ [name] := rfl

theorem save_produced (boundary : Boundary) (state : AgentInputState) (d : Desk Ω) :
    (save host config boundary state d).2.produced = d.produced := by
  unfold save
  split
  · rfl
  · split
    · rfl
    · split
      · rename_i failure published d' hCall
        have hSame : d'.produced = d.produced := by
          rw [← Desk.call_produced d (host.checkpoint boundary state), hCall]
        show (if published = true then d'.commit state else d').failStorage.produced = _
        cases published <;> exact hSame
      · rename_i d' hCall
        have hSame : d'.produced = d.produced := by
          rw [← Desk.call_produced d (host.checkpoint boundary state), hCall]
        dsimp only
        split <;> exact hSame

theorem checkpoint_produced (boundary : Checkpoint) (state : AgentInputState) (d : Desk Ω) :
    (checkpoint host config boundary state d).2.produced = d.produced := by
  unfold checkpoint
  cases boundary with
  | beforeTools | resultsReady => exact save_produced _ _ _
  | stepFinished =>
    dsimp only
    split
    · exact save_produced _ _ _
    · rfl
  | runFinished =>
    dsimp only
    split
    · have hSave : (save host config .runFinished state d).2.produced = d.produced :=
        save_produced _ _ _
      split
      · rename_i hOutcome
        rw [hOutcome] at hSave
        exact hSave
      · rename_i hOutcome
        rw [hOutcome] at hSave
        exact hSave
      · rename_i hOutcome
        rw [hOutcome] at hSave
        exact hSave
    · rfl

variable (host config) in
theorem publish_produced (event : Event) (hEvent : event ≠ .inputCommitted)
    (state : AgentInputState) (d : Desk Ω) :
    ((workerEnv host config).publish event state d).2.produced = d.produced := by
  unfold workerEnv
  dsimp only
  split
  · rename_i d' hCall
    rw [← Desk.call_produced d (host.publish event state), hCall]
  · rename_i d' hCall
    have hSame : d'.produced = d.produced := by
      rw [← Desk.call_produced d (host.publish event state), hCall]
    rw [← hSame]
    unfold observe
    cases event with
    | inputCommitted => exact absurd rfl hEvent
    | _ => rfl

def committedInput (state : AgentInputState) : MessageItem :=
  ((state.turns.getLast?).getD {}).userInput

variable (host config) in
theorem publish_inputCommitted (state : AgentInputState) (d : Desk Ω) :
    ((workerEnv host config).publish .inputCommitted state d).2.produced = d.produced ∨
      internalMark (committedInput state) ≠ .ok internalInput ∧
        ((workerEnv host config).publish .inputCommitted state d).2.produced =
          d.produced ++ [.inputCommitted] := by
  unfold workerEnv
  dsimp only
  split
  · rename_i d' hCall
    left
    rw [← Desk.call_produced d (host.publish .inputCommitted state), hCall]
  · rename_i d' hCall
    have hSame : d'.produced = d.produced := by
      rw [← Desk.call_produced d (host.publish .inputCommitted state), hCall]
    rw [← hSame]
    show (inputCommitted host state d').2.produced = d'.produced ∨
      _ ∧ (inputCommitted host state d').2.produced = d'.produced ++ [.inputCommitted]
    unfold inputCommitted
    dsimp only
    split
    · exact Or.inl rfl
    · rename_i mark hMark
      split
      · exact Or.inl rfl
      · rename_i hOther
        right
        refine ⟨?_, rfl⟩
        intro hInternal
        rw [committedInput, hMark] at hInternal
        injection hInternal with hInternal
        exact hOther hInternal

theorem edit_produced (event : EditEvent) (state : AgentInputState) (d : Desk Ω) :
    ((workerEnv host config).edit event state d).2.produced = d.produced := by
  unfold workerEnv
  dsimp only
  split
  · rfl
  · split
    · rename_i hCall
      rw [← Desk.call_produced d, hCall]
    · rename_i hCall
      rw [← Desk.call_produced d, hCall]
      rfl

/-! ## A segment -/

/-- The message goes on a run by itself. -/
def Marked (message : MessageItem) : Prop := internalMark message = .ok internalInput

def KeepsMark (host : Host Ω) : Prop :=
  ∀ message message' world, Marked message → (host.beforeInput message world).1 = .ok message' →
    Marked message'

/-- The input of the segment has not been committed yet. -/
def awaitsInput : Point → Bool
  | .start | .requested | .recovering | .recovered | .validated | .admitting | .opened | .started
  | .rewritten _ | .accepting _ | .integrating _ | .accepted => true
  | _ => false

/-- At most `n` events once the input is committed, and one less before. -/
def Announces (n : Nat) (c : Config (Desk Ω)) : Prop :=
  c.run.world.produced.length + (if awaitsInput c.point = true then 1 else 0) ≤ n

/-- The input of the segment is one that is not announced. -/
def Unannounced (c : Config (Desk Ω)) : Prop :=
  match c.point with
  | .rewritten m | .accepting m | .integrating m => Marked m
  | .accepted => Marked (committedInput c.run.state)
  | _ => True

/-- A point behind the input, and nothing produced. -/
def Settles (d : Desk Ω) (c : Config (Desk Ω)) : Prop :=
  awaitsInput c.point = false ∧ c.run.world.produced = d.produced

section Points

variable {options : Options} {message : Option MessageItem} {s : RunState (Desk Ω)}

variable (host config options message) in
/-- **Behind the input a run produces nothing.** -/
theorem step_settles (c : Config (Desk Ω)) (h : awaitsInput c.point = false) :
    Settles c.run.world (Loop.step (workerEnv host config) options message c) := by
  obtain ⟨p, s⟩ := c
  have hChecked : ∀ {α : Type} {r : Except Failure α} {next : α → Config (Desk Ω)},
      (∀ a, Settles s.world (next a)) → Settles s.world (checked r s next) := fun hNext =>
    checked_rule (P := Settles s.world) (fun a _ => hNext a) fun _ _ => ⟨rfl, rfl⟩
  have hCalled : ∀ {α : Type} {f : AgentInputState → Desk Ω → Except Failure α × Desk Ω}
      {next : α → Point} {otherwise : Failure → Point},
      (f s.state s.world).2.produced = s.world.produced → (∀ a, awaitsInput (next a) = false) →
      (∀ e, awaitsInput (otherwise e) = false) →
      Settles s.world (called s f next otherwise) := fun hWorld hNext hOther =>
    called_rule (P := Settles s.world) (fun a _ => ⟨hNext a, hWorld⟩) fun e _ => ⟨hOther e, hWorld⟩
  have hPublished : ∀ {event : Event} {next : Point} {otherwise : Failure → Point},
      event ≠ .inputCommitted → awaitsInput next = false →
      (∀ e, awaitsInput (otherwise e) = false) →
      Settles s.world (published (workerEnv host config) s event next otherwise) :=
    fun hEvent hNext hOther => hCalled (publish_produced _ _ _ hEvent _ _) (fun _ => hNext) hOther
  have hPolled : ∀ {stopped going : Point}, awaitsInput stopped = false →
      awaitsInput going = false →
      Settles s.world (polled (workerEnv host config) s stopped going) := fun hStop hGo =>
    polled_rule (P := Settles s.world) (fun _ => ⟨hStop, rfl⟩) ⟨hGo, rfl⟩
  have hSaved : ∀ {boundary : Checkpoint} {next : Point} {otherwise : Failure → Point},
      awaitsInput next = false → (∀ e, awaitsInput (otherwise e) = false) →
      Settles s.world (saved (workerEnv host config) s boundary next otherwise) :=
    fun hNext hOther => hCalled (checkpoint_produced _ _ _) (fun _ => hNext) hOther
  have hEdited : ∀ {event : EditEvent} {next : Point} {otherwise : Failure → Point},
      awaitsInput next = false → (∀ e, awaitsInput (otherwise e) = false) →
      Settles s.world (editedBy (workerEnv host config) s event next otherwise) := by
    intro event next otherwise hNext hOther
    have hWorld : ((workerEnv host config).edit event s.state s.world).2.produced =
        s.world.produced := edit_produced event s.state s.world
    refine editedBy_cases (P := Settles s.world) ⟨hNext, rfl⟩ (fun edited w hEdit _ => ?_)
      fun e => ⟨hOther e, hWorld⟩
    rw [hEdit] at hWorld
    exact ⟨hNext, hWorld⟩
  cases p with
  | ready round =>
    show Settles s.world (if _ then _ else _)
    split <;> exact ⟨rfl, rfl⟩
  | polling round => exact hPolled rfl rfl
  | preparing round =>
    refine hCalled ?_ (fun _ => rfl) fun _ => rfl
    show ((workerEnv host config).beforeModel s.state _ s.world).2.produced = _
    unfold workerEnv
    dsimp only
    split <;> rfl
  | prepared round context => exact hChecked fun _ => ⟨rfl, rfl⟩
  | rendered round context => exact hPolled rfl rfl
  | model round => exact hPolled rfl rfl
  | conversing round => exact hCalled rfl (fun _ => rfl) fun _ => rfl
  | aborted failure =>
    show Settles s.world (if _ then _ else _)
    split <;> exact ⟨rfl, rfl⟩
  | withdrawn failure => exact hPolled rfl rfl
  | responded round response =>
    show Settles s.world (if _ then _ else _)
    split
    · exact ⟨rfl, rfl⟩
    · exact hChecked fun _ => ⟨rfl, rfl⟩
  | committing round response => exact hChecked fun _ => ⟨rfl, rfl⟩
  | committed round response => exact hPublished (by simp) rfl fun _ => rfl
  | noticed round response =>
    show Settles s.world (if _ then _ else _)
    split
    · exact hPublished (by simp) rfl fun _ => rfl
    · exact ⟨rfl, rfl⟩
  | announced round response hookError =>
    show Settles s.world (if _ then _ else _)
    split
    · exact ⟨rfl, rfl⟩
    · split <;> exact ⟨rfl, rfl⟩
  | marked round calls hookError => exact hPublished (by simp) rfl fun _ => rfl
  | dispatching round calls hookError => exact hSaved rfl fun _ => rfl
  | cleared round calls hookError =>
    refine hPolled rfl ?_
    split <;> rfl
  | executing round calls => exact hCalled rfl (fun _ => rfl) fun _ => rfl
  | recorded round hookError => exact hPublished (by simp) rfl fun _ => rfl
  | saving round hookError => exact hSaved rfl fun _ => rfl
  | projecting round hookError => exact hChecked fun _ => ⟨rfl, rfl⟩
  | projected round hookError =>
    show Settles s.world (if _ then _ else _)
    split <;> exact ⟨rfl, rfl⟩
  | settled round => exact hPublished (by simp) rfl fun _ => rfl
  | editing round => exact hEdited rfl fun _ => rfl
  | edited round => exact hPublished (by simp) rfl fun _ => rfl
  | stepSaving round => exact hSaved rfl fun _ => rfl
  | stepSaved round => exact hPolled rfl rfl
  | deciding round =>
    exact deciding_rule (P := Settles s.world) (fun _ _ => ⟨rfl, rfl⟩) fun _ => ⟨rfl, rfl⟩
  | failed failure =>
    show Settles s.world (if _ then _ else _)
    split <;> exact ⟨rfl, rfl⟩
  | ended =>
    show Settles s.world (if _ then _ else _)
    split <;> exact ⟨rfl, rfl⟩
  | finishing => exact hEdited rfl fun _ => rfl
  | finished => exact hPublished (by simp) rfl fun _ => rfl
  | finalSaving => exact hSaved rfl fun _ => rfl
  | declining | entering | cancelling | requesting round context | opening round | withdrawing
  | unanswered failure | counting round response | marking round calls hookError
  | gathered round hookError records | settling | finishFailed failure | returned
  | escaped failure => exact ⟨rfl, rfl⟩
  | _ => cases h

theorem step_announces {n : Nat} (c : Config (Desk Ω)) (h : Announces n c) :
    Announces n (Loop.step (workerEnv host config) options message c) := by
  by_cases hAwaits : awaitsInput c.point = false
  · obtain ⟨hBehind, hSame⟩ := step_settles host config options message c hAwaits
    unfold Announces at h ⊢
    rw [hBehind, hSame]
    rw [hAwaits] at h
    exact h
  · rw [Bool.not_eq_false] at hAwaits
    obtain ⟨p, s⟩ := c
    have hLess : s.world.produced.length + 1 ≤ n := by
      unfold Announces at h
      rw [if_pos hAwaits] at h
      exact h
    have hNext : ∀ (q : Point) (s' : RunState (Desk Ω)),
        s'.world.produced = s.world.produced → Announces n ⟨q, s'⟩ := by
      intro q s' hSame
      unfold Announces
      rw [hSame]
      split <;> omega
    cases p with
    | start | recovering | recovered =>
      exact checked_rule (P := Announces n) (fun _ _ => hNext _ _ rfl) fun _ _ => hNext _ _ rfl
    | requested | validated | accepting m =>
      exact polled_rule (P := Announces n) (fun _ => hNext _ _ rfl) (hNext _ _ rfl)
    | admitting | integrating m => exact hNext _ _ rfl
    | opened =>
      have hWorld := publish_produced host config .runStarted (by simp) s.state s.world
      exact called_rule (P := Announces n) (fun _ _ => hNext _ _ hWorld) fun _ _ => hNext _ _ hWorld
    | started =>
      cases message with
      | none => exact hNext _ _ rfl
      | some m =>
        exact called_rule (P := Announces n) (fun _ _ => hNext _ _ rfl) fun _ _ => hNext _ _ rfl
    | rewritten m =>
      show Announces n (if _ then _ else _)
      split <;> exact hNext _ _ rfl
    | accepted =>
      have hWorld : ((workerEnv host config).publish .inputCommitted s.state
          s.world).2.produced.length ≤ s.world.produced.length + 1 := by
        rcases publish_inputCommitted host config s.state s.world with hSame | ⟨-, hOne⟩
        · rw [hSame]
          omega
        · rw [hOne, List.length_append, List.length_singleton]
      have hEntered : ∀ q, awaitsInput q = false → Announces n ⟨q, s.withWorld
          ((workerEnv host config).publish .inputCommitted s.state s.world).2⟩ := by
        intro q hq
        show ((workerEnv host config).publish .inputCommitted s.state
          s.world).2.produced.length + (if awaitsInput q = true then 1 else 0) ≤ n
        rw [hq]
        exact le_trans hWorld hLess
      exact called_rule (P := Announces n) (fun _ _ => hEntered _ rfl) fun _ _ => hEntered _ rfl
    | _ => cases hAwaits

theorem committedInput_accept {state : AgentInputState} {m : MessageItem}
    (h : isUserMessage m = true) : committedInput (modelIntegrate state m) = m := by
  simp only [isUserMessage, decide_eq_true_eq] at h
  rw [modelIntegrate_userInput h.1]
  simp [committedInput]

variable (config options) in
/-- **A segment the worker started itself produces nothing.** -/
theorem step_unannounced (hKeeps : KeepsMark host) (hMessage : ∀ m, message = some m → Marked m)
    (c : Config (Desk Ω)) (hSound : SoundAt c) (h : Unannounced c) :
    Unannounced (Loop.step (workerEnv host config) options message c) ∧
      (Loop.step (workerEnv host config) options message c).run.world.produced =
        c.run.world.produced := by
  by_cases hAwaits : awaitsInput c.point = false
  · obtain ⟨hBehind, hSame⟩ := step_settles host config options message c hAwaits
    refine ⟨?_, hSame⟩
    unfold Unannounced
    split
    · rename_i hPoint
      rw [hPoint] at hBehind
      cases hBehind
    · rename_i hPoint
      rw [hPoint] at hBehind
      cases hBehind
    · rename_i hPoint
      rw [hPoint] at hBehind
      cases hBehind
    · rename_i hPoint
      rw [hPoint] at hBehind
      cases hBehind
    · trivial
  · rw [Bool.not_eq_false] at hAwaits
    obtain ⟨p, s⟩ := c
    let Q (c : Config (Desk Ω)) : Prop :=
      Unannounced c ∧ c.run.world.produced = s.world.produced
    show Q _
    cases p with
    | start => exact checked_rule (P := Q) (fun _ _ => ⟨trivial, rfl⟩) fun _ _ => ⟨trivial, rfl⟩
    | requested | validated => exact polled_rule (P := Q) (fun _ => ⟨trivial, rfl⟩) ⟨trivial, rfl⟩
    | recovering | recovered =>
      exact checked_rule (P := Q) (fun _ _ => ⟨trivial, rfl⟩) fun _ _ => ⟨trivial, rfl⟩
    | admitting => exact ⟨trivial, rfl⟩
    | opened =>
      have hWorld := publish_produced host config .runStarted (by simp) s.state s.world
      exact called_rule (P := Q) (fun _ _ => ⟨trivial, hWorld⟩) fun _ _ => ⟨trivial, hWorld⟩
    | started =>
      cases message with
      | none => exact ⟨trivial, rfl⟩
      | some m =>
        refine called_rule (P := Q) (fun m' hOk => ⟨?_, rfl⟩) fun _ _ => ⟨trivial, rfl⟩
        exact hKeeps m m' s.world.outer (hMessage m rfl) hOk
    | rewritten m =>
      show Q (if _ then _ else _)
      split
      · exact ⟨h, rfl⟩
      · exact ⟨trivial, rfl⟩
    | accepting m => exact polled_rule (P := Q) (fun _ => ⟨trivial, rfl⟩) ⟨h, rfl⟩
    | integrating m =>
      refine ⟨?_, rfl⟩
      show Marked (committedInput (modelIntegrate s.state m))
      rw [committedInput_accept hSound.1]
      exact h
    | accepted =>
      have hWorld : ((workerEnv host config).publish .inputCommitted s.state
          s.world).2.produced = s.world.produced := by
        rcases publish_inputCommitted host config s.state s.world with hSame | ⟨hMark, -⟩
        · exact hSame
        · exact absurd h hMark
      exact called_rule (P := Q) (fun _ _ => ⟨trivial, hWorld⟩) fun _ _ => ⟨trivial, hWorld⟩
    | _ => cases hAwaits

end Points

/-! ## A session -/

variable {w : Worker Ω} {outcome : Except Failure RunResult} {a : Active}

theorem summaryEnv_produced : Frames (summaryEnv host config) fun d => d.produced where
  stopRequested _ := rfl
  publish event _ _ := by cases event <;> rfl
  beforeInput _ _ := rfl
  beforeModel _ _ _ := rfl
  converse _ _ := rfl
  execute _ _ := rfl
  checkpoint _ _ _ _ hSave := by cases hSave
  edit _ _ _ := by
    unfold summaryEnv
    dsimp only
    split <;> rfl

def CompactMode.produced : CompactMode → Nat
  | .manual => 2
  | .automatic => 3

def Produces : Session Ω → Prop
  | .running _ message c => SoundAt c ∧ (Announces 3 c ∨
      (∀ m, message = some m → Marked m) ∧ Unannounced c ∧ c.run.world.produced.length ≤ 3)
  | .compacting _ mode _ w | .summarized _ mode _ _ _ _ w | .replacing _ mode _ _ _ w
  | .compacted _ mode _ _ w | .abandoning _ mode _ _ w =>
    w.desk.produced.length ≤ mode.produced
  | .summarizing _ mode _ _ _ c => c.run.world.produced.length ≤ mode.produced
  | .returned _ _ w | .compactReturned _ _ _ _ w | .settling _ _ w | .reporting _ _ w =>
    w.desk.produced.length ≤ 3
  | .idle w | .stopped w | .closed w => w.desk.produced.length ≤ 4

theorem Produces.bound {s : Session Ω} (h : Produces s) : s.desk.produced.length ≤ 4 := by
  have hMode : ∀ mode : CompactMode, mode.produced ≤ 3 := fun mode => by cases mode <;> decide
  cases s with
  | running a message c =>
    rcases h.2 with hLoud | ⟨-, -, hSilent⟩
    · exact le_trans (Nat.le_add_right _ _) (le_trans hLoud (by decide))
    · exact le_trans hSilent (by decide)
  | compacting a mode segment w | compacted a mode segment result w
  | abandoning a mode segment outcome w | summarizing a mode segment plan live c =>
    exact le_trans h (le_trans (hMode mode) (by decide))
  | summarized a mode segment plan outcome draft w
  | replacing a mode segment result replacement w =>
    exact le_trans h (le_trans (hMode mode) (by decide))
  | returned a outcome w | compactReturned a mode segment outcome w | settling a outcome w
  | reporting a result w => exact le_trans h (by decide)
  | idle w | stopped w | closed w => exact h

theorem produced_of_eq {α : Type} {r : α × Desk Ω} {a : α} {d : Desk Ω} {events : List EventName}
    (h : r = (a, d)) (hSame : r.2.produced = events) : d.produced = events := by
  rw [h] at hSame
  exact hSame

theorem finishController_produced (result : RunResult) (w : Worker Ω) :
    (finishController result w).desk.produced = w.desk.produced := by
  unfold finishController
  split
  · split <;> rfl
  · rfl

theorem valueString_of_find {data : Json} {key text fallback : String}
    (h : data.find? key = some (.str text)) : valueString data key fallback = .ok text := by
  cases data with
  | obj fields =>
    have hLookup : fields.lookup key = some (.str text) := h
    unfold valueString
    dsimp only
    rw [hLookup]
  | _ => cases h

theorem marked_continuation (d : Desk Ω) : Marked (continuation host config d) := by
  unfold Marked internalMark continuation
  apply valueString_of_find
  rw [Json.find?_object_cons, if_pos rfl]

theorem produces_beginSegment {message : Option MessageItem}
    (h : w.desk.produced.length ≤ 2 ∨ (∀ m, message = some m → Marked m) ∧ w.desk.produced.length ≤ 3) :
    Produces (beginSegment a message w) := by
  refine ⟨rfl, ?_⟩
  rcases h with hFirst | ⟨hMarked, hLater⟩
  · exact Or.inl (Nat.add_le_add_right hFirst 1)
  · exact Or.inr ⟨hMarked, trivial, hLater⟩

theorem produces_afterSegment (h : w.desk.produced.length ≤ 3) :
    Produces (afterSegment host config a outcome w) := by
  have hFinish : ∀ (a : Active) (result : RunResult) (w' : Worker Ω),
      w'.desk.produced = w.desk.produced →
      Produces (.settling a (.ok result) (finishController result w')) := by
    intro a result w' hSame
    show (finishController result w').desk.produced.length ≤ 3
    rw [finishController_produced, hSame]
    exact h
  unfold afterSegment
  cases outcome with
  | error failure => exact h
  | ok result =>
    dsimp only
    split
    · exact h
    · split
      · unfold decideCompact
        split
        · exact hFinish _ _ _ rfl
        · split
          · rename_i hStop
            exact hFinish _ _ _ (produced_of_eq hStop rfl)
          · rename_i d hStop
            have hSame : d.produced = w.desk.produced := produced_of_eq hStop rfl
            split
            · exact hFinish _ _ _ hSame
            · dsimp only
              split
              · rename_i hEmit
                show (_ : List EventName).length ≤ 3
                rw [produced_of_eq hEmit hSame]
                exact h
              · rename_i hEmit
                show (_ : List EventName).length ≤ 3
                rw [produced_of_eq hEmit hSame]
                exact h
      · exact h

theorem failStorage_produced (latch : Bool) (d : Desk Ω) :
    (if latch = true then d.failStorage else d).produced = d.produced := by
  cases latch <;> rfl

theorem commit_produced (published : Bool) (d : Desk Ω) (state : AgentInputState) :
    (if published = true then d.commit state else d).produced = d.produced := by
  cases published <;> rfl

theorem produces_beginCompact {mode : CompactMode} {segment : RunResult}
    (h : w.desk.produced.length ≤ mode.produced) :
    Produces (beginCompact host a mode segment w) := by
  have hMode : mode.produced ≤ 3 := by cases mode <;> decide
  unfold beginCompact
  split
  · rename_i d hStop
    show d.produced.length ≤ 3
    rw [produced_of_eq hStop rfl]
    exact le_trans h hMode
  · rename_i d hStop
    have hSame : d.produced = w.desk.produced := produced_of_eq hStop rfl
    dsimp only
    split
    · rename_i failure latch hOutcome
      show (if latch = true then Desk.failStorage _ else _).produced.length ≤ 3
      rw [failStorage_produced, commit_produced, Desk.call_produced, hSame]
      exact le_trans h hMode
    · split
      · rename_i d' hStop'
        show d'.produced.length ≤ mode.produced
        rw [produced_of_eq hStop' (commit_produced _ _ _), Desk.call_produced, hSame]
        exact h
      · rename_i d' hStop'
        show d'.produced.length ≤ mode.produced
        rw [produced_of_eq hStop' (commit_produced _ _ _), Desk.call_produced, hSame]
        exact h

theorem produces_afterSummary {mode : CompactMode} {segment : RunResult} {plan : CompactPlan}
    {draft : AgentInputState} (h : w.desk.produced.length ≤ mode.produced) :
    Produces (afterSummary host config a mode segment plan outcome draft w) := by
  unfold afterSummary
  cases outcome with
  | error failure => exact h
  | ok result =>
    dsimp only
    split
    · exact h
    · split
      · exact h
      · split
        · rename_i d hStop
          show d.produced.length ≤ mode.produced
          rw [produced_of_eq hStop rfl]
          exact h
        · rename_i d hStop
          have hSame : d.produced = w.desk.produced := produced_of_eq hStop rfl
          split
          · show (d.call host.now).2.produced.length ≤ mode.produced
            rw [Desk.call_produced, hSame]
            exact h
          · show (d.call host.now).2.produced.length ≤ mode.produced
            rw [Desk.call_produced, hSame]
            exact h

theorem produces_commitReplacement {mode : CompactMode} {segment result : RunResult}
    {replacement : AgentInputState} (h : w.desk.produced.length ≤ mode.produced) :
    Produces (commitReplacement host a mode segment result replacement w) := by
  unfold commitReplacement
  split
  · rename_i d hStop
    show d.produced.length ≤ mode.produced
    rw [produced_of_eq hStop rfl]
    exact h
  · rename_i d hStop
    have hFirst : d.produced = w.desk.produced := produced_of_eq hStop rfl
    split
    · rename_i d₁ hStage
      show d₁.produced.length ≤ mode.produced
      rw [produced_of_eq hStage hFirst]
      exact h
    · rename_i d₁ hStage
      have hStaged : d₁.produced = w.desk.produced := produced_of_eq hStage hFirst
      split
      · rename_i d₂ hAgain
        show d₂.produced.length ≤ mode.produced
        rw [produced_of_eq hAgain hStaged]
        exact h
      · rename_i d₂ hAgain
        have hPolled : d₂.produced = w.desk.produced := produced_of_eq hAgain hStaged
        split
        · rename_i published d₃ hCommit
          show ((if published = true then d₃.commit replacement else d₃).failStorage).produced.length
            ≤ mode.produced
          show (if published = true then d₃.commit replacement else d₃).produced.length ≤ _
          rw [commit_produced, produced_of_eq hCommit hPolled]
          exact h
        · rename_i d₃ hCommit
          show d₃.produced.length ≤ mode.produced
          rw [produced_of_eq hCommit hPolled]
          exact h

theorem produces_reportCompacted {mode : CompactMode} {segment result : RunResult}
    (h : w.desk.produced.length ≤ mode.produced) :
    Produces (reportCompacted host a mode segment result w) := by
  have hMode : mode.produced ≤ 3 := by cases mode <;> decide
  unfold reportCompacted
  split
  · rename_i d hEmit
    show d.produced.length ≤ 3
    rw [produced_of_eq hEmit rfl]
    exact le_trans h hMode
  · rename_i d hEmit
    have hSame : d.produced = w.desk.produced := produced_of_eq hEmit rfl
    have hReport : (match mode with
        | .manual => (if (d.call host.cleanupArchive).1 = true
            then (d.call host.cleanupArchive).2.failStorage
            else (d.call host.cleanupArchive).2).emitLifecycle host .compactFinished w.state
        | .automatic => (if (d.call host.cleanupArchive).1 = true
            then (d.call host.cleanupArchive).2.failStorage
            else (d.call host.cleanupArchive).2).emit host .compactFinished
              w.state).2.produced.length ≤ 3 := by
      cases mode with
      | manual =>
        dsimp only
        rw [Desk.emitLifecycle_produced, failStorage_produced, Desk.call_produced, hSame,
          List.length_append]
        exact Nat.add_le_add_right h 1
      | automatic =>
        dsimp only
        rw [Desk.emit_produced, failStorage_produced, Desk.call_produced, hSame]
        exact h
    dsimp only
    split
    · exact hReport
    · exact hReport

theorem produces_afterAutomatic {segment : RunResult} (h : w.desk.produced.length ≤ 3) :
    Produces (afterAutomatic host config a segment outcome w) := by
  unfold afterAutomatic
  extract_lets result a
  split
  · rename_i d hEmit
    show d.produced.length ≤ 3
    rw [produced_of_eq hEmit rfl]
    exact h
  · rename_i d hEmit
    have hSame : d.produced = w.desk.produced := produced_of_eq hEmit rfl
    split
    · show (finishController _ _).desk.produced.length ≤ 3
      rw [finishController_produced, hSame]
      exact h
    · split
      · rename_i d' hStop
        show (finishController _ _).desk.produced.length ≤ 3
        rw [finishController_produced, produced_of_eq hStop hSame]
        exact h
      · rename_i d' hStop
        refine produces_beginSegment (Or.inr ⟨?_, ?_⟩)
        · rintro m ⟨rfl⟩
          exact marked_continuation d'
        · show d'.produced.length ≤ 3
          rw [produced_of_eq hStop hSame]
          exact h

theorem produces_settleRequest (h : w.desk.produced.length ≤ 3) :
    Produces (settleRequest host config a outcome w) := by
  have hConclude : (conclude a outcome w).2.desk.produced.length ≤ 3 := by
    unfold conclude
    cases outcome with
    | ok result => exact h
    | error failure =>
      dsimp only
      split
      · exact h
      · rw [finishController_produced]
        exact h
  have hSave : ∀ boundary state, (save host config boundary state
      (conclude a outcome w).2.desk).2.produced.length ≤ 3 := by
    intro boundary state
    rw [save_produced]
    exact hConclude
  unfold settleRequest
  dsimp only
  split
  · exact le_trans hConclude (by decide)
  · split
    · split
      · rename_i d hSaved
        show d.produced.length ≤ 4
        rw [produced_of_eq hSaved rfl]
        exact le_trans (hSave _ _) (by decide)
      · rename_i d _ hSaved
        show d.produced.length ≤ 3
        rw [produced_of_eq hSaved rfl]
        exact hSave _ _
    · exact hConclude

theorem produces_reportRequest (h : w.desk.produced.length ≤ 3) :
    Produces (reportRequest host w) := by
  have hOne : ∀ name : EventName,
      (w.desk.emitLifecycle host name w.state).2.produced.length ≤ 4 := by
    intro name
    rw [Desk.emitLifecycle_produced, List.length_append]
    exact Nat.add_le_add_right h 1
  unfold reportRequest
  split
  · exact hOne _
  · split
    · rename_i d hEmit
      show d.produced.length ≤ 4
      rw [produced_of_eq hEmit rfl]
      exact hOne _
    · rename_i d hEmit
      show d.produced.length ≤ 4
      rw [produced_of_eq hEmit rfl]
      exact hOne _

theorem produces_beginRequest {input : Input} (h : w.desk.produced = []) :
    Produces (beginRequest host config input w) := by
  unfold beginRequest
  dsimp only
  split
  · rename_i d hAdmitted
    have hOne : d.produced = [.inputAdmitted] := by
      rw [produced_of_eq hAdmitted rfl, Desk.emitLifecycle_produced]
      split <;> exact congrArg (· ++ [EventName.inputAdmitted]) h
    show d.produced.length ≤ 4
    rw [hOne]
    decide
  · rename_i d hAdmitted
    have hOne : d.produced = [.inputAdmitted] := by
      rw [produced_of_eq hAdmitted rfl, Desk.emitLifecycle_produced]
      split <;> exact congrArg (· ++ [EventName.inputAdmitted]) h
    split
    · rename_i d' hStarted
      have hTwo : d'.produced = [.inputAdmitted, .runStarted] := by
        rw [produced_of_eq hStarted rfl, Desk.emitLifecycle_produced, hOne]
        rfl
      show d'.produced.length ≤ 4
      rw [hTwo]
      decide
    · rename_i d' hStarted
      have hTwo : d'.produced.length = 2 := by
        rw [produced_of_eq hStarted rfl, Desk.emitLifecycle_produced, hOne]
        rfl
      split
      · show d'.produced.length ≤ 2
        exact le_of_eq hTwo
      · split
        · exact produces_beginSegment (Or.inl (le_of_eq hTwo))
        · exact produces_beginSegment (Or.inl (le_of_eq hTwo))

theorem produces_consume (h : w.desk.produced.length ≤ 4) : Produces (consume host config w) := by
  unfold consume
  split
  · rename_i d hStopping
    show d.produced.length ≤ 4
    rw [produced_of_eq hStopping rfl]
    exact h
  · dsimp only
    split
    · exact produces_beginRequest rfl
    · split
      · rename_i d hEmit
        show d.produced.length ≤ 4
        rw [produced_of_eq hEmit rfl]
        exact Nat.zero_le _
      · rename_i d hEmit
        show d.produced.length ≤ 4
        rw [produced_of_eq hEmit rfl]
        exact Nat.zero_le _

theorem produces_closeDown (h : w.desk.produced.length ≤ 4) :
    Produces (closeDown host config w) := by
  unfold closeDown
  split
  · show (save host config .shutdown _ _).2.produced.length ≤ 4
    rw [save_produced]
    exact h
  · exact h

/-- **One operation keeps the count.** -/
theorem produces_step (hKeeps : KeepsMark host) {s : Session Ω} (h : Produces s) :
    Produces (s.step host config) := by
  cases s with
  | idle w => exact produces_consume h
  | running a message c =>
    obtain ⟨hSound, hCount⟩ := h
    have hBound : c.run.world.produced.length ≤ 3 := by
      rcases hCount with hLoud | ⟨-, -, hSilent⟩
      · exact le_trans (Nat.le_add_right _ _) hLoud
      · exact hSilent
    have hNext : Produces (.running a message
        (Loop.step (workerEnv host config) (runOptions config) message c)) := by
      refine ⟨step_sound c hSound, ?_⟩
      rcases hCount with hLoud | ⟨hMarked, hUnannounced, hSilent⟩
      · exact Or.inl (step_announces c hLoud)
      · obtain ⟨hStill, hSame⟩ :=
          step_unannounced config (runOptions config) hKeeps hMarked c hSound hUnannounced
        exact Or.inr ⟨hMarked, hStill, by rw [hSame]; exact hSilent⟩
    obtain ⟨point, run⟩ := c
    cases point with
    | returned | escaped failure => exact hBound
    | _ => exact hNext
  | returned a outcome w => exact produces_afterSegment h
  | compacting a mode segment w => exact produces_beginCompact h
  | summarizing a mode segment plan live c =>
    have hNext : Produces (.summarizing a mode segment plan live
        (Loop.step (summaryEnv host config) summaryOptions
          (some (instruction config mode plan)) c)) := by
      show (Loop.step _ _ _ c).run.world.produced.length ≤ mode.produced
      rw [summaryEnv_produced.step c]
      exact h
    obtain ⟨point, run⟩ := c
    cases point with
    | returned => exact h
    | escaped failure => exact h
    | _ => exact hNext
  | summarized a mode segment plan outcome draft w => exact produces_afterSummary h
  | replacing a mode segment result replacement w => exact produces_commitReplacement h
  | compacted a mode segment result w => exact produces_reportCompacted h
  | abandoning a mode segment outcome w =>
    have hMode : mode.produced ≤ 3 := by cases mode <;> decide
    show (if _ then Desk.failStorage _ else _).produced.length ≤ 3
    rw [failStorage_produced]
    exact le_trans h hMode
  | compactReturned a mode segment outcome w =>
    cases mode with
    | manual => exact h
    | automatic => exact produces_afterAutomatic h
  | settling a outcome w => exact produces_settleRequest h
  | reporting a result w => exact produces_reportRequest h
  | stopped w => exact produces_closeDown h
  | closed w => exact h

theorem produces_start (h : w.desk.produced = []) : Produces (Session.start host w) := by
  have hOne : (w.desk.emitLifecycle host .ready w.state).2.produced.length ≤ 4 := by
    rw [Desk.emitLifecycle_produced, h]
    decide
  unfold Session.start
  split
  · rename_i d hEmit
    show d.produced.length ≤ 4
    rw [produced_of_eq hEmit rfl]
    exact hOne
  · rename_i d hEmit
    show d.produced.length ≤ 4
    rw [produced_of_eq hEmit rfl]
    exact hOne

/-! ## The control loop -/

/-- `SignalOperation`. -/
inductive SignalOperation where
  | status
  | options
  | cancel
  | shutdown

/-- `SignalRequest`. -/
structure SignalRequest where
  operation : SignalOperation := .status
  runId : Option String := none

/-- The event that answers a signal. One that does not parse (`none`), or that asks for nothing
the control loop does, is answered by an error. -/
def signalEvent (signal : Option SignalRequest) : EventName :=
  match signal with
  | none => .error
  | some request =>
    match request.operation with
    | .cancel => if request.runId.getD "" = "" then .error else .status
    | .status => .status
    | .options => .options
    | .shutdown => .error

/-- The session when something else has had a turn with its world. -/
def Session.withOuter (outer : Ω) : Session Ω → Session Ω
  | .idle w => .idle { w with desk := { w.desk with outer } }
  | .running a message ⟨point, run⟩ =>
    .running a message ⟨point, { run with world := { run.world with outer } }⟩
  | .returned a outcome w => .returned a outcome { w with desk := { w.desk with outer } }
  | .compacting a mode segment w =>
    .compacting a mode segment { w with desk := { w.desk with outer } }
  | .summarizing a mode segment plan live ⟨point, run⟩ =>
    .summarizing a mode segment plan live
      ⟨point, { run with world := { run.world with outer } }⟩
  | .summarized a mode segment plan outcome draft w =>
    .summarized a mode segment plan outcome draft { w with desk := { w.desk with outer } }
  | .replacing a mode segment result replacement w =>
    .replacing a mode segment result replacement { w with desk := { w.desk with outer } }
  | .compacted a mode segment result w =>
    .compacted a mode segment result { w with desk := { w.desk with outer } }
  | .abandoning a mode segment outcome w =>
    .abandoning a mode segment outcome { w with desk := { w.desk with outer } }
  | .compactReturned a mode segment outcome w =>
    .compactReturned a mode segment outcome { w with desk := { w.desk with outer } }
  | .settling a outcome w => .settling a outcome { w with desk := { w.desk with outer } }
  | .reporting a result w => .reporting a result { w with desk := { w.desk with outer } }
  | .stopped w => .stopped { w with desk := { w.desk with outer } }
  | .closed w => .closed { w with desk := { w.desk with outer } }

theorem produces_withOuter (outer : Ω) {s : Session Ω} (h : Produces s) :
    Produces (s.withOuter outer) := by
  cases s with
  | running a message c =>
    obtain ⟨point, run⟩ := c
    obtain ⟨hSound, hCount⟩ := h
    refine ⟨?_, hCount⟩
    cases point <;> exact hSound
  | summarizing a mode segment plan live c => exact h
  | _ => exact h

/-- The worker with its control loop, which answers signals between the operations of the
other. -/
structure Supervised (Ω : Type) where
  session : Session Ω
  /-- Lifecycle events of the control loop since the outbox was last drained. -/
  answered : List EventName := []
  /-- The control loop has not failed. -/
  receiving : Bool := true

namespace Supervised

variable (host config) in
/-- An operation of the session. One that takes a payload has waited for the outbox to drain. -/
def operate (s : Supervised Ω) : Supervised Ω :=
  { s with
    session := s.session.step host config
    answered := match s.session with
      | .idle w => if (w.desk.call host.stopping).1 then s.answered else []
      | _ => s.answered }

variable (host) in
/-- An error is a lifecycle event once storage has failed. If it is not admitted the control loop
ends, and its failure stops the worker. -/
def emitError (s : Supervised Ω) : Supervised Ω :=
  let (emitted, d) := s.session.desk.emit host .error s.session.live
  { session := s.session.withOuter d.outer
    answered := if s.session.desk.storageFailed then s.answered ++ [.error] else s.answered
    receiving := emitted.isOk }

/-- The control loop ends with the session, or by a failure of its own. -/
def takesSignals (s : Supervised Ω) : Bool :=
  match s.session with
  | .stopped _ | .closed _ => false
  | _ => s.receiving

variable (host) in
/-- `process_control` with one signal. -/
def processControl (signal : Option SignalRequest) (s : Supervised Ω) : Supervised Ω :=
  if s.takesSignals = false then s
  else if signalEvent signal = .error then s.emitError host
  else
    match s.session.desk.emit host (signalEvent signal) s.session.live with
    | (.ok (), d) => { s with session := s.session.withOuter d.outer }
    | (.error _, d) => { s with session := s.session.withOuter d.outer }.emitError host

variable (host config) in
/-- The interleavings of a session and signals. -/
inductive Reaches (w : Worker Ω) : Supervised Ω → Prop
  | start : Reaches w { session := Session.start host w }
  | operate {s : Supervised Ω} (h : Reaches w s) : Reaches w (s.operate host config)
  | signal (signal : Option SignalRequest) {s : Supervised Ω} (h : Reaches w s) :
      Reaches w (s.processControl host signal)

theorem reaches_after (n : Nat) :
    Reaches host config w { session := Session.after host config w n } := by
  induction n with
  | zero => exact .start
  | succ n ih =>
    have hNext := ih.operate
    unfold operate at hNext
    dsimp only at hNext
    split at hNext
    · rw [ite_self] at hNext
      exact hNext
    · exact hNext

theorem desk_withOuter (outer : Ω) (s : Session Ω) :
    (s.withOuter outer).desk = { s.desk with outer } := by
  cases s <;> rfl

theorem processControl_produces (signal : Option SignalRequest) {s : Supervised Ω}
    (h : Produces s.session) :
    Produces (s.processControl host signal).session ∧
      (s.session.desk.storageFailed = false →
        (s.processControl host signal).answered = s.answered) := by
  have hError : ∀ s : Supervised Ω, Produces s.session → Produces (s.emitError host).session ∧
      (s.session.desk.storageFailed = false → (s.emitError host).answered = s.answered) :=
    fun s h => ⟨produces_withOuter _ h, fun hStored => if_neg (by simp [hStored])⟩
  unfold processControl
  split
  · exact ⟨h, fun _ => rfl⟩
  · split
    · exact hError s h
    · split
      · exact ⟨produces_withOuter _ h, fun _ => rfl⟩
      · obtain ⟨hKept, hSame⟩ := hError { s with session := s.session.withOuter _ }
          (produces_withOuter _ h)
        exact ⟨hKept, fun hStored => hSame (by rw [desk_withOuter]; exact hStored)⟩

/-- **Between two drains a worker produces at most four lifecycle events**, however often a
run compacts itself and whatever signals come in between. -/
theorem produces_reaches (hKeeps : KeepsMark host) (hStart : w.desk.produced = [])
    {s : Supervised Ω} (h : Reaches host config w s) : Produces s.session := by
  induction h with
  | start => exact produces_start hStart
  | operate h ih => exact produces_step hKeeps ih
  | signal signal h ih => exact (processControl_produces signal ih).1

end Supervised

/-- **The reserve is enough for what a worker produces.** An open outbox takes every lifecycle
event within the budget of a message before the ninth since both sides were empty, in every
interleaving; and a worker whose input hooks keep its mark produces no more than that between
two drains, apart from the errors with which its control loop answers signals once storage has
failed. -/
theorem lifecycle_events_fit (hKeeps : KeepsMark host) {w : Worker Ω}
    (hStart : w.desk.produced = []) {s : Supervised Ω}
    (h : Supervised.Reaches host config w s) :
    s.session.desk.produced.length ≤ lifecycleSlots ∧
      (∀ signal, s.session.desk.storageFailed = false →
        (s.processControl host signal).answered = s.answered) ∧
      ∀ (encodedBytes : Json → Nat) (capacity : Nat) (events : List LinkEvent)
        (envelope : EventEnvelope) (result : Admission × EventOutbox),
        (Link.run encodedBytes capacity events).Within →
        (Link.run encodedBytes capacity events).outbox.closed = false →
        (Link.run encodedBytes capacity events).lifecycles < lifecycleSlots →
        (Link.run encodedBytes capacity events).outbox.admitEvent encodedBytes envelope .lifecycle
          (Link.run encodedBytes capacity events).transport.sum = .ok result →
        result.1 = .added := by
  have hProduces := Supervised.produces_reaches hKeeps hStart h
  refine ⟨le_trans hProduces.bound (by decide),
    fun signal => (Supervised.processControl_produces signal hProduces).2, ?_⟩
  intro encodedBytes capacity events envelope result hWithin hOpen hCount hAdmit
  exact Link.admits_lifecycle hWithin hOpen hCount hAdmit

end Production

/-- A request that compacts itself, and a signal that does not parse. -/
theorem lifecycle_events_fit_compacted : KeepsMark meteredHost ∧
      (Supervised.processControl meteredHost none
        { session := compactedSession }).session.desk.produced.length ≤ lifecycleSlots := by
  have hKeeps : KeepsMark meteredHost := by
    intro message message' world hMarked hOk
    injection hOk with hOk
    rw [← hOk]
    exact hMarked
  have hReaches : Supervised.Reaches meteredHost compactingConfiguration freshWorker
      { session := compactedSession } := Supervised.reaches_after 144
  exact ⟨hKeeps, (lifecycle_events_fit hKeeps rfl (hReaches.signal none)).1⟩

/-! ## Hooks that drop the mark -/

/-- A hook before input that drops the extras of every message. -/
def unmarkingHost : Host Unit :=
  { compactingHost none none with
    beforeInput := fun message _ => (.ok { message with extras := none }, ()) }

set_option maxRecDepth 20000 in
/-- Each continuation is announced: nine events for one request with five compactions. -/
theorem unmarked_continuations_announced :
    (Session.after unmarkingHost compactingConfiguration freshWorker 690).desk.produced.length =
      9 := by
  decide +kernel

end SimplexAgent.Core
