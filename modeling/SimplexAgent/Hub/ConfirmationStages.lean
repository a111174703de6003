import SimplexAgent.Hub.Confirmation

/-!
# The stages of a confirmation exchange

An exchange goes through the same stages whatever comes in between: it has no prompt while
it waits for the identity; its prompt waits, and is then either answered, once, or dropped;
after that it only waits for its socket to close. `ExchangeOk` says which stage goes with
which phase, and every operation on an exchange or its prompt keeps it, unless the race of a
decision has resolved and its continuation has not run yet.
-/

namespace SimplexAgent.Hub

/-! ## The stages of a prompt -/

variable {p : PendingConfirmation}

/-- The worker of the request was the live identity of the registered, connected session
when the prompt was opened. -/
def WellOpened (p : PendingConfirmation) : Prop :=
  ∃ o, p.opening = some o ∧ o.registered = true ∧ o.connected = true ∧
    o.identity.state = .live ∧ o.identity.workerId = some p.request.workerId

/-- The prompt is open. -/
structure Waiting (p : PendingConfirmation) : Prop where
  state : p.state = .decision
  opened : WellOpened p
  armed : p.deadlineArmed = true
  observed : p.observed = true
  approvals : p.approvals = 0
  denials : p.denials = 0
  calls : p.settledCalls = 0

/-- The prompt was answered, and nobody was told yet. -/
structure Answered (p : PendingConfirmation) (outcome : DecisionOutcome) : Prop where
  state : p.state = .decided
  opened : WellOpened p
  approvals : p.approvals = if outcome.decision = .approved then 1 else 0
  denials : p.denials = if outcome.decision = .denied then 1 else 0
  calls : p.settledCalls = 0

/-- The prompt was settled without an answer. -/
structure Dropped (p : PendingConfirmation) : Prop where
  state : p.state = .retired
  opened : WellOpened p
  calls : p.settledCalls = 1

/-- The prompt was answered and its observer told. -/
structure Delivered (p : PendingConfirmation) : Prop where
  state : p.state = .decided
  opened : WellOpened p
  calls : p.settledCalls = 1

/-- The prompt was never opened. -/
structure Unopened (p : PendingConfirmation) : Prop where
  opening : p.opening = none
  state : p.state = .identity ∨ p.state = .retired

/-- Which prompt goes with a race that has or has not resolved. -/
inductive Deciding (settled : Bool) (raced : Option (Option DecisionOutcome))
    (p : PendingConfirmation) : Prop where
  | waiting (hPrompt : Waiting p) (hSettled : settled = false)
      (hRaced : raced = none ∨ raced = some none)
  | answered {outcome : DecisionOutcome} (hPrompt : Answered p outcome)
      (hSettled : settled = false) (hRaced : raced = some (some outcome))
  | dropped (hPrompt : Dropped p) (hRaced : raced = some none)

/-- What is left of the prompt once the decision is out or the exchange was given up. -/
inductive Over (settled : Bool) (frames : List Decision) : Option PendingConfirmation → Prop where
  | none (hFrames : .approved ∉ frames) : Over settled frames none
  | unopened {p : PendingConfirmation} (hPrompt : Unopened p) (hFrames : .approved ∉ frames) :
      Over settled frames (some p)
  | delivered {p : PendingConfirmation} (hPrompt : Delivered p) (hSettled : settled = true) :
      Over settled frames (some p)
  | dropped {p : PendingConfirmation} (hPrompt : Dropped p) (hSettled : settled = true)
      (hFrames : .approved ∉ frames) : Over settled frames (some p)

/-- An exchange before it has a prompt. -/
structure Early (prompt : Option PendingConfirmation) (frames : List Decision)
    (raced : Option (Option DecisionOutcome)) (settled : Bool) : Prop where
  prompt : prompt = none
  frames : frames = []
  raced : raced = none
  settled : settled = false

/-- The stage that goes with the phase. -/
def ExchangeOk (e : Exchange) : Prop :=
  match e.phase with
  | .reading => Early e.prompt e.frames e.raced e.settled
  | .holding _ => Early e.prompt e.frames e.raced e.settled
  | .authorizing _ _ => Early e.prompt e.frames e.raced e.settled
  | .deciding => e.frames = [] ∧ ∃ p, e.prompt = some p ∧ Deciding e.settled e.raced p
  | .closing => e.frames.length ≤ 1 ∧ Over e.settled e.frames e.prompt
  | .done => e.frames.length ≤ 1 ∧ Over e.settled e.frames e.prompt

/-- An exchange whose race has resolved is left to its continuation. -/
def Undisturbed (e : Exchange) : Prop :=
  match e.phase with
  | .deciding => e.raced = none
  | _ => True

theorem early_of_reading {e : Exchange} (h : ExchangeOk e) (hPhase : e.phase = .reading) :
    Early e.prompt e.frames e.raced e.settled := by
  unfold ExchangeOk at h
  rw [hPhase] at h
  exact h

theorem early_of_holding {e : Exchange} {request : ConfirmationRequest} (h : ExchangeOk e)
    (hPhase : e.phase = .holding request) : Early e.prompt e.frames e.raced e.settled := by
  unfold ExchangeOk at h
  rw [hPhase] at h
  exact h

theorem early_of_authorizing {e : Exchange} {request : ConfirmationRequest} {verified : Option Bool}
    (h : ExchangeOk e) (hPhase : e.phase = .authorizing request verified) :
    Early e.prompt e.frames e.raced e.settled := by
  unfold ExchangeOk at h
  rw [hPhase] at h
  exact h

theorem deciding_of_stage {e : Exchange} (h : ExchangeOk e) (hPhase : e.phase = .deciding) :
    e.frames = [] ∧ ∃ p, e.prompt = some p ∧ Deciding e.settled e.raced p := by
  unfold ExchangeOk at h
  rw [hPhase] at h
  exact h

/-- An opened prompt of an exchange that was decided or given up has told its observer. -/
theorem over_calls {settled : Bool} {frames : List Decision} (h : Over settled frames (some p))
    (hOpening : p.opening ≠ none) : p.settledCalls = 1 := by
  cases h with
  | unopened hUnopened _ => exact absurd hUnopened.opening hOpening
  | delivered hDelivered _ => exact hDelivered.calls
  | dropped hDropped _ _ => exact hDropped.calls

/-! ## What the operations do to the stages -/

theorem retire_of_settled (detail : String) (h : p.state = .decided ∨ p.state = .retired) :
    p.retire detail = p := if_pos h

theorem retire_waiting (h : Waiting p) (detail : String) : Dropped (p.retire detail) := by
  unfold PendingConfirmation.retire
  rw [if_neg (by rw [h.state]; simp)]
  refine ⟨rfl, h.opened, ?_⟩
  show (if p.observed then p.settledCalls + 1 else p.settledCalls) = 1
  rw [h.observed, h.calls]
  rfl

theorem retire_unopened (h : Unopened p) (detail : String) : Unopened (p.retire detail) := by
  unfold PendingConfirmation.retire
  split
  · exact h
  · exact ⟨h.opening, Or.inr rfl⟩

theorem retire_request (p : PendingConfirmation) (detail : String) :
    (p.retire detail).request = p.request := by
  unfold PendingConfirmation.retire
  split <;> rfl

theorem decide_of_not_open (session : Session) (connected : Bool) (decision : String)
    (reason : Option String) (h : p.state ≠ .decision) :
    (p.decide session connected decision reason).2 = p := by
  unfold PendingConfirmation.decide
  split
  · rfl
  split
  · rfl
  · rfl

theorem decide_waiting (h : Waiting p) (session : Session) (connected : Bool) (decision : String)
    (reason : Option String) : (p.decide session connected decision reason).2 = p ∨
      (∃ verdict text, decisionNamed decision = some verdict ∧ reason = some text ∧
        Answered (p.decide session connected decision reason).2 ⟨verdict, text⟩) ∨
      Dropped (p.decide session connected decision reason).2 := by
  unfold PendingConfirmation.decide
  rw [if_neg (by rw [h.state]; simp), if_neg (by rw [h.state]; simp),
    if_neg (by rw [h.state]; simp)]
  split
  · exact Or.inl rfl
  · exact Or.inl rfl
  · rename_i verdict text hVerdict
    split
    · refine Or.inr (Or.inl ⟨verdict, text, hVerdict, rfl, ⟨rfl, h.opened, ?_, ?_, h.calls⟩⟩)
      · simp only [h.approvals, Nat.zero_add]
      · simp only [h.denials, Nat.zero_add]
    · exact Or.inr (Or.inr (retire_waiting h _))

theorem decide_request (session : Session) (connected : Bool) (p : PendingConfirmation)
    (decision : String) (reason : Option String) :
    (p.decide session connected decision reason).2.request = p.request := by
  unfold PendingConfirmation.decide
  split
  · rfl
  split
  · rfl
  split
  · rfl
  split
  · rfl
  · rfl
  split
  · rfl
  · exact retire_request p _

/-! ## What the operations do to an exchange -/

namespace Exchange

theorem closeSocket_eq (e : Exchange) :
    e.closeSocket = { e with socket := e.closeSocket.socket } := by
  unfold closeSocket
  split <;> rfl

theorem closeSocket_phase (e : Exchange) : e.closeSocket.phase = e.phase := by
  unfold closeSocket
  split <;> rfl

theorem closeSocket_prompt (e : Exchange) : e.closeSocket.prompt = e.prompt := by
  unfold closeSocket
  split <;> rfl

theorem closeSocket_frames (e : Exchange) : e.closeSocket.frames = e.frames := by
  unfold closeSocket
  split <;> rfl

variable {e : Exchange}

theorem closeSocket_ok (h : ExchangeOk e) : ExchangeOk e.closeSocket := by
  unfold closeSocket
  split
  · exact h
  · exact h

theorem sendDecision_eq (e : Exchange) (decision : Decision) (sends : Bool) :
    ∃ socket frames, e.sendDecision decision sends = { e with socket := socket, frames := frames } ∧
      (frames = e.frames ∨ frames = e.frames ++ [decision]) := by
  unfold sendDecision
  split
  · exact ⟨e.socket, e.frames, rfl, Or.inl rfl⟩
  split
  · exact ⟨e.socket, e.frames ++ [decision], rfl, Or.inr rfl⟩
  · unfold closeSocket
    split
    · exact ⟨.closing, e.frames, rfl, Or.inl rfl⟩
    · exact ⟨e.socket, e.frames, rfl, Or.inl rfl⟩

theorem resolveRace_of_none (h : e.raced = none) (outcome : Option DecisionOutcome) :
    e.resolveRace outcome = { e with raced := some outcome } := by
  unfold resolveRace
  rw [h]
  rfl

theorem resolveRace_fields (e : Exchange) (outcome : Option DecisionOutcome) :
    (e.resolveRace outcome).phase = e.phase ∧ (e.resolveRace outcome).prompt = e.prompt ∧
      (e.resolveRace outcome).frames = e.frames ∧ (e.resolveRace outcome).settled = e.settled := by
  unfold resolveRace
  split
  · exact ⟨rfl, rfl, rfl, rfl⟩
  · exact ⟨rfl, rfl, rfl, rfl⟩

theorem retirePrompt_none (h : e.prompt = none) (detail : String) : e.retirePrompt detail = e := by
  unfold retirePrompt
  rw [h]

theorem retirePrompt_settled {p : PendingConfirmation} (h : e.prompt = some p)
    (hState : p.state = .decided ∨ p.state = .retired) (detail : String) :
    e.retirePrompt detail = e := by
  unfold retirePrompt
  rw [h]
  dsimp only
  rw [if_pos hState, retire_of_settled detail hState, ← h]

theorem retirePrompt_open {p : PendingConfirmation} (h : e.prompt = some p)
    (hState : ¬(p.state = .decided ∨ p.state = .retired)) (detail : String) :
    e.retirePrompt detail = { e with prompt := some (p.retire detail) }.resolveRace none := by
  unfold retirePrompt
  rw [h]
  dsimp only
  rw [if_neg hState]

theorem retirePrompt_phase (e : Exchange) (detail : String) :
    (e.retirePrompt detail).phase = e.phase := by
  unfold retirePrompt
  split
  · rfl
  dsimp only
  split
  · rfl
  · exact (resolveRace_fields _ _).1

theorem retirePrompt_frames (e : Exchange) (detail : String) :
    (e.retirePrompt detail).frames = e.frames := by
  unfold retirePrompt
  split
  · rfl
  dsimp only
  split
  · rfl
  · exact (resolveRace_fields _ _).2.2.1

theorem retirePrompt_prompt (e : Exchange) (detail : String) :
    (e.retirePrompt detail).prompt = e.prompt.map (·.retire detail) := by
  unfold retirePrompt
  split
  · rename_i h
    rw [h]
    rfl
  · rename_i p h
    dsimp only
    rw [h]
    split
    · rfl
    · exact (resolveRace_fields _ _).2.1

theorem over_retire (h : Over e.settled e.frames e.prompt) (detail : String) :
    Over (e.retirePrompt detail).settled (e.retirePrompt detail).frames
      (e.retirePrompt detail).prompt := by
  generalize hPrompt : e.prompt = prompt at h
  cases h with
  | none hFrames =>
    rw [retirePrompt_none hPrompt, hPrompt]
    exact .none hFrames
  | unopened hUnopened hFrames =>
    rw [retirePrompt_frames, retirePrompt_prompt, hPrompt]
    exact .unopened (retire_unopened hUnopened detail) hFrames
  | delivered hDelivered hSettled =>
    rw [retirePrompt_settled hPrompt (Or.inl hDelivered.state), hPrompt]
    exact .delivered hDelivered hSettled
  | dropped hDropped hSettled hFrames =>
    rw [retirePrompt_settled hPrompt (Or.inr hDropped.state), hPrompt]
    exact .dropped hDropped hSettled hFrames

theorem deciding_retire {p : PendingConfirmation} (hPrompt : e.prompt = some p) {settled : Bool}
    (h : Deciding settled e.raced p) (hRaced : e.raced = none ∨ e.raced = some none)
    (detail : String) :
    (e.retirePrompt detail).settled = e.settled ∧ (e.retirePrompt detail).raced = some none ∧
      ∃ p', (e.retirePrompt detail).prompt = some p' ∧ Dropped p' := by
  cases h with
  | waiting hWaiting hSettled hOpen =>
    rw [retirePrompt_open hPrompt (by rw [hWaiting.state]; simp)]
    refine ⟨(resolveRace_fields _ _).2.2.2, ?_, _, (resolveRace_fields _ _).2.1,
      retire_waiting hWaiting detail⟩
    rcases hRaced with hNone | hNone
    · rw [resolveRace_of_none (by exact hNone)]
    · unfold resolveRace
      rw [if_pos (by simp [hNone])]
      exact hNone
  | answered hAnswered hSettled hSome =>
    rw [hSome] at hRaced
    simp at hRaced
  | dropped hDropped hNone =>
    rw [retirePrompt_settled hPrompt (Or.inr hDropped.state)]
    exact ⟨rfl, hNone, p, hPrompt, hDropped⟩

theorem retirePrompt_ok (h : ExchangeOk e) (hUndisturbed : Undisturbed e) (detail : String) :
    ExchangeOk (e.retirePrompt detail) := by
  unfold ExchangeOk Undisturbed at *
  rw [retirePrompt_phase]
  cases hPhase : e.phase with
  | reading | holding request | authorizing request verified =>
    rw [hPhase] at h
    rw [retirePrompt_none h.prompt]
    exact h
  | deciding =>
    rw [hPhase] at h hUndisturbed
    obtain ⟨hFrames, p, hPrompt, hDeciding⟩ := h
    obtain ⟨_, hRaced, p', hPrompt', hDropped⟩ :=
      deciding_retire hPrompt hDeciding (Or.inl hUndisturbed) detail
    exact ⟨by rw [retirePrompt_frames, hFrames], p', hPrompt', .dropped hDropped hRaced⟩
  | closing | done =>
    rw [hPhase] at h
    exact ⟨by rw [retirePrompt_frames]; exact h.1, over_retire h.2 detail⟩

theorem decidePrompt_none (h : e.prompt = none) (session : Session) (connected : Bool)
    (decision : String) (reason : Option String) :
    e.decidePrompt session connected decision reason = e := by
  unfold decidePrompt
  rw [h]

theorem decidePrompt_of_not_open {p : PendingConfirmation} (h : e.prompt = some p)
    (hState : p.state ≠ .decision) (session : Session) (connected : Bool) (decision : String)
    (reason : Option String) : e.decidePrompt session connected decision reason = e := by
  unfold decidePrompt
  rw [h]
  dsimp only
  rw [decide_of_not_open session connected decision reason hState, if_pos rfl, ← h]

theorem decidePrompt_phase (e : Exchange) (session : Session) (connected : Bool)
    (decision : String) (reason : Option String) :
    (e.decidePrompt session connected decision reason).phase = e.phase := by
  unfold decidePrompt
  split
  · rfl
  dsimp only
  split
  · rfl
  split
  · exact (resolveRace_fields _ _).1
  · exact (resolveRace_fields _ _).1

theorem decidePrompt_frames (e : Exchange) (session : Session) (connected : Bool)
    (decision : String) (reason : Option String) :
    (e.decidePrompt session connected decision reason).frames = e.frames := by
  unfold decidePrompt
  split
  · rfl
  dsimp only
  split
  · rfl
  split
  · exact (resolveRace_fields _ _).2.2.1
  · exact (resolveRace_fields _ _).2.2.1

theorem decidePrompt_prompt (e : Exchange) (session : Session) (connected : Bool)
    (decision : String) (reason : Option String) :
    (e.decidePrompt session connected decision reason).prompt =
      e.prompt.map fun p => (p.decide session connected decision reason).2 := by
  unfold decidePrompt
  split
  · rename_i h
    rw [h]
    rfl
  · rename_i p h
    dsimp only
    rw [h]
    split
    · rfl
    split
    · exact (resolveRace_fields _ _).2.1
    · exact (resolveRace_fields _ _).2.1

theorem decidePrompt_waiting {p : PendingConfirmation} (hPrompt : e.prompt = some p)
    (hWaiting : Waiting p) (hSettled : e.settled = false) (hRaced : e.raced = none)
    (session : Session) (connected : Bool) (decision : String) (reason : Option String) :
    ∃ p', (e.decidePrompt session connected decision reason).prompt = some p' ∧
      Deciding (e.decidePrompt session connected decision reason).settled
        (e.decidePrompt session connected decision reason).raced p' := by
  refine ⟨_, by rw [decidePrompt_prompt, hPrompt]; rfl, ?_⟩
  unfold decidePrompt
  rw [hPrompt]
  dsimp only
  rcases decide_waiting hWaiting session connected decision reason with
    hSame | ⟨verdict, text, hVerdict, rfl, hAnswered⟩ | hDropped
  · rw [hSame, if_pos rfl]
    exact .waiting hWaiting hSettled (Or.inl hRaced)
  · rw [if_neg (by rw [hWaiting.state, hAnswered.state]; simp), hAnswered.state, hVerdict]
    dsimp only
    rw [resolveRace_of_none (by exact hRaced)]
    exact .answered hAnswered hSettled rfl
  · rw [if_neg (by rw [hWaiting.state, hDropped.state]; simp), hDropped.state]
    dsimp only
    rw [resolveRace_of_none (by exact hRaced)]
    exact .dropped hDropped rfl

/-- What is not open any more is not answered. -/
theorem decidePrompt_over (h : Over e.settled e.frames e.prompt) (session : Session)
    (connected : Bool) (decision : String) (reason : Option String) :
    e.decidePrompt session connected decision reason = e := by
  generalize hPrompt : e.prompt = prompt at h
  cases h with
  | none hFrames => exact decidePrompt_none hPrompt session connected decision reason
  | unopened hUnopened hFrames =>
    apply decidePrompt_of_not_open hPrompt
    rcases hUnopened.state with hState | hState <;> rw [hState] <;> simp
  | delivered hDelivered hSettled =>
    exact decidePrompt_of_not_open hPrompt (by rw [hDelivered.state]; simp) _ _ _ _
  | dropped hDropped hSettled hFrames =>
    exact decidePrompt_of_not_open hPrompt (by rw [hDropped.state]; simp) _ _ _ _

/-- An operator's answer keeps the stage, too. -/
theorem decidePrompt_ok (h : ExchangeOk e) (hUndisturbed : Undisturbed e) (session : Session)
    (connected : Bool) (decision : String) (reason : Option String) :
    ExchangeOk (e.decidePrompt session connected decision reason) := by
  unfold ExchangeOk Undisturbed at *
  rw [decidePrompt_phase]
  cases hPhase : e.phase with
  | reading | holding request | authorizing request verified =>
    rw [hPhase] at h
    rw [decidePrompt_none h.prompt]
    exact h
  | deciding =>
    rw [hPhase] at h hUndisturbed
    obtain ⟨hFrames, p, hPrompt, hDeciding⟩ := h
    refine ⟨by rw [decidePrompt_frames, hFrames], ?_⟩
    cases hDeciding with
    | waiting hWaiting hSettled hRaced =>
      exact decidePrompt_waiting hPrompt hWaiting hSettled hUndisturbed _ _ _ _
    | answered hAnswered hSettled hRaced | dropped hDropped hRaced => simp [hUndisturbed] at hRaced
  | closing | done =>
    rw [hPhase] at h
    rw [decidePrompt_over h.2]
    exact h

/-- What `cleanup` makes of an exchange. -/
def cleaned (e : Exchange) (detail : String) : Exchange :=
  if e.settled then e else { e with settled := true }.retirePrompt detail

theorem cleaned_phase (e : Exchange) (detail : String) : (e.cleaned detail).phase = e.phase := by
  unfold cleaned
  split
  · rfl
  · exact retirePrompt_phase _ _

theorem cleaned_frames (e : Exchange) (detail : String) : (e.cleaned detail).frames = e.frames := by
  unfold cleaned
  split
  · rfl
  · exact retirePrompt_frames _ _

theorem cleaned_request (e : Exchange) (detail : String) :
    (e.cleaned detail).prompt.map (·.request) = e.prompt.map (·.request) := by
  unfold cleaned
  split
  · rfl
  · rw [retirePrompt_prompt, Option.map_map]
    congr 1
    funext p
    exact retire_request p detail

theorem over_cleaned (h : Over e.settled e.frames e.prompt) (detail : String) :
    Over (e.cleaned detail).settled (e.cleaned detail).frames (e.cleaned detail).prompt := by
  unfold cleaned
  split
  · exact h
  · rename_i hSettled
    apply over_retire
    dsimp only
    generalize e.prompt = prompt at h
    cases h with
    | none hFrames => exact .none hFrames
    | unopened hUnopened hFrames => exact .unopened hUnopened hFrames
    | delivered hDelivered hTrue | dropped hDropped hTrue hFrames => exact absurd hTrue hSettled

theorem deciding_cleaned {p : PendingConfirmation} (hPrompt : e.prompt = some p)
    (h : Deciding e.settled e.raced p) (hRaced : e.raced = none ∨ e.raced = some none)
    (detail : String) : (e.cleaned detail).settled = true ∧ (e.cleaned detail).raced = some none ∧
      ∃ p', (e.cleaned detail).prompt = some p' ∧ Dropped p' := by
  unfold cleaned
  split
  · rename_i hSettled
    cases h with
    | waiting hWaiting hFalse hOpen | answered hAnswered hFalse hSome =>
      rw [hSettled] at hFalse; cases hFalse
    | dropped hDropped hNone => exact ⟨hSettled, hNone, p, hPrompt, hDropped⟩
  · obtain ⟨hSame, hRest⟩ := deciding_retire (e := { e with settled := true })
      hPrompt h hRaced detail
    exact ⟨hSame, hRest⟩

theorem cleaned_ok (h : ExchangeOk e) (hUndisturbed : Undisturbed e) (hPrompt : e.prompt ≠ none)
    (detail : String) : ExchangeOk (e.cleaned detail) := by
  unfold ExchangeOk Undisturbed at *
  rw [cleaned_phase, cleaned_frames]
  cases hPhase : e.phase with
  | reading | holding request | authorizing request verified =>
    rw [hPhase] at h; exact absurd h.prompt hPrompt
  | deciding =>
    rw [hPhase] at h hUndisturbed
    obtain ⟨hFrames, p, hSome, hDeciding⟩ := h
    obtain ⟨_, hRaced, p', hSome', hDropped⟩ :=
      deciding_cleaned hSome hDeciding (Or.inl hUndisturbed) detail
    exact ⟨hFrames, p', hSome', .dropped hDropped hRaced⟩
  | closing | done =>
    rw [hPhase] at h
    have hOver := over_cleaned h.2 detail
    rw [cleaned_frames] at hOver
    exact ⟨h.1, hOver⟩

end Exchange

end SimplexAgent.Hub
