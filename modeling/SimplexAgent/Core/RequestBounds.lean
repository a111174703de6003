import SimplexAgent.Core.CompactCommit
import SimplexAgent.Loop.Pace

/-!
# What one request can cost

`run_with_auto_compact` alternates segments of the loop with compactions and private
continuations. The controller bounds them: a segment ends at the exchange limit, a
further segment needs a compaction that succeeded, and every attempt is counted before
it begins. So a request comes to its end whatever the model answers
(`request_is_bounded`).

The tally of a request is read off its sessions and not off the counters of the worker;
the proof relates the two.
-/

namespace SimplexAgent.Core

open Dataclass Loop

section Requests

variable {Ω : Type} {host : Host Ω} {config : Configuration}

/-! ## What the controller can do -/

variable {outcome : Except Failure RunResult} {a : Active} {message : Option MessageItem}
  {w : Worker Ω} {c : Config (Desk Ω)}

/-- An outcome that does not ask for a compaction. -/
def Ends (outcome : Except Failure RunResult) : Prop :=
  ∀ result, outcome = .ok result → result.status ≠ .autoCompactRequired

def Fails (outcome : Except Failure RunResult) : Prop :=
  ∀ result, outcome = .ok result → result.status = .failed

theorem ends_error (failure : Failure) : Ends (.error failure) := by
  intro result h
  cases h

theorem fails_error (failure : Failure) : Fails (.error failure) := by
  intro result h
  cases h

theorem ends_ok {result : RunResult} (h : result.status ≠ .autoCompactRequired) :
    Ends (.ok result) := by
  intro result' h'
  injection h' with h'
  exact h' ▸ h

theorem fails_ok {result : RunResult} (h : result.status = .failed) : Fails (.ok result) := by
  intro result' h'
  injection h' with h'
  exact h' ▸ h

theorem Unfinished.ends (h : Unfinished outcome) : Ends outcome := by
  intro result hResult hAsked
  rcases h result hResult with hStatus | hStatus
  · rw [hStatus] at hAsked
    cases hAsked
  · rw [hStatus] at hAsked
    cases hAsked

variable (host config) in
theorem decideCompact_cases (a : Active) (result : RunResult) (w : Worker Ω) :
    (∃ outcome w', Ends outcome ∧ decideCompact host config a result w = .settling a outcome w') ∨
    (a.compactAttempts < config.maxAutoCompactions ∧
      ((∃ failure w', decideCompact host config a result w =
          .settling { a with compactAttempts := a.compactAttempts + 1 } (.error failure) w') ∨
        ∃ d, decideCompact host config a result w =
          .compacting { a with compactAttempts := a.compactAttempts + 1 } .automatic result
            { w with desk := d })) := by
  have hFailed : ∀ error : String,
      Ends (.ok { result with status := .failed, error := error }) :=
    fun error => ends_ok (by simp)
  have hCancelled : Ends (.ok { result with status := .cancelled }) := ends_ok (by simp)
  unfold decideCompact
  split
  · exact Or.inl ⟨_, _, hFailed _, rfl⟩
  · split
    · exact Or.inl ⟨_, _, hCancelled, rfl⟩
    · split
      · exact Or.inl ⟨_, _, hFailed _, rfl⟩
      · rename_i hRefusal
        have hBudget : a.compactAttempts < config.maxAutoCompactions := by
          unfold compactRefusal at hRefusal
          split at hRefusal
          · cases hRefusal
          · split at hRefusal
            · cases hRefusal
            · omega
        refine Or.inr ⟨hBudget, ?_⟩
        dsimp only
        split
        · exact Or.inl ⟨_, _, rfl⟩
        · exact Or.inr ⟨_, rfl⟩

def succeeded (a : Active) : Active := { a with compactSuccesses := a.compactSuccesses + 1 }

variable (host config) in
theorem afterAutomatic_cases (a : Active) (segment : RunResult)
    (outcome : Except Failure RunResult) (w : Worker Ω) (hEnds : Ends outcome) :
    (∃ a' outcome' w', (a' = a ∨ a' = succeeded a) ∧ Ends outcome' ∧
      (Fails outcome → Fails outcome') ∧
      afterAutomatic host config a segment outcome w = .settling a' outcome' w') ∨
    (∃ result message d, outcome = .ok result ∧ result.status = .completed ∧
      afterAutomatic host config a segment outcome w =
        beginSegment (succeeded a) (some message) { w with desk := d }) := by
  unfold afterAutomatic
  cases outcome with
  | error failure =>
    dsimp only
    split
    · exact Or.inl ⟨_, _, _, Or.inl rfl, ends_error _, fun _ => fails_error _, rfl⟩
    · left
      rw [if_pos (Or.inl (by simp))]
      exact ⟨_, _, _, Or.inl rfl, ends_ok (by simp), fun _ => fails_ok rfl, rfl⟩
  | ok result =>
    dsimp only
    have hSuccess : ∀ b : Prop, [Decidable b] →
        (if b then { a with compactSuccesses := a.compactSuccesses + 1 } else a) = a ∨
        (if b then { a with compactSuccesses := a.compactSuccesses + 1 } else a) = succeeded a := by
      intro b _
      split
      · exact Or.inr rfl
      · exact Or.inl rfl
    split
    · exact Or.inl ⟨_, _, _, hSuccess _, ends_error _, fun _ => fails_error _, rfl⟩
    · split
      · exact Or.inl ⟨_, _, _, hSuccess _, hEnds, id, rfl⟩
      · rename_i d _ hDone
        have hCompleted : result.status = .completed := by
          by_contra hStatus
          exact hDone (Or.inl hStatus)
        split
        · refine Or.inl ⟨_, _, _, hSuccess _, ends_ok (by simp), fun hFails => ?_, rfl⟩
          have hStatus := hFails result rfl
          rw [hCompleted] at hStatus
          cases hStatus
        · rename_i d' _
          refine Or.inr ⟨result, continuation host config d', d', rfl, hCompleted, ?_⟩
          rw [if_pos hCompleted]
          rfl

variable (host config) in
theorem settleRequest_cases (a : Active) (outcome : Except Failure RunResult) (w : Worker Ω)
    (hTask : a.taskExchanges < 2 ^ 64) (hCompact : a.compactExchanges < 2 ^ 64) :
    (∃ w', settleRequest host config a outcome w = .stopped w') ∨
    (∃ result w', result.status = (conclude a outcome w).1.status ∧
      result.completedExchanges.toNat = a.taskExchanges + a.compactExchanges ∧
      settleRequest host config a outcome w = .reporting a result w') := by
  unfold settleRequest
  dsimp only
  split
  · exact Or.inl ⟨_, rfl⟩
  · rename_i total hTotal
    have hNat : (UInt64.ofNat a.compactExchanges).toNat = a.compactExchanges :=
      UInt64.toNat_ofNat_of_lt' hCompact
    have hSum : total = a.taskExchanges + a.compactExchanges := by
      rw [addExchanges_ok hTotal, hNat]
    have hSmall : total < 2 ^ 64 := addExchanges_lt hTask hTotal
    have hReported : (UInt64.ofNat total).toNat = a.taskExchanges + a.compactExchanges := by
      rw [UInt64.toNat_ofNat_of_lt' hSmall, hSum]
    let reported : RunResult :=
      { (conclude a outcome w).1 with completedExchanges := UInt64.ofNat total }
    split
    · split
      · exact Or.inl ⟨_, rfl⟩
      · exact Or.inr ⟨reported, _, rfl, hReported, rfl⟩
    · exact Or.inr ⟨reported, _, rfl, hReported, rfl⟩

theorem conclude_ends (h : Ends outcome) :
    (conclude a outcome w).1.status ≠ .autoCompactRequired := by
  cases outcome with
  | error failure => simp [conclude]
  | ok result => exact h result rfl

theorem conclude_fails (h : Fails outcome) : (conclude a outcome w).1.status = .failed := by
  cases outcome with
  | error failure => rfl
  | ok result => exact h result rfl

variable (host config) in
theorem beginRequest_cases (input : Input) (w : Worker Ω) :
    (∃ w', beginRequest host config input w = .stopped w') ∨
    (input.operation = .compact ∧ ∃ d, beginRequest host config input w =
      .compacting { input } .manual {} { w with desk := d }) ∨
    (∃ message w', beginRequest host config input w = beginSegment { input } message w') := by
  unfold beginRequest
  dsimp only
  by_cases hCompact : input.operation = .compact
  · simp only [if_pos hCompact]
    split
    · exact Or.inl ⟨_, rfl⟩
    · split
      · exact Or.inl ⟨_, rfl⟩
      · exact Or.inr (Or.inl ⟨hCompact, _, rfl⟩)
  · simp only [if_neg hCompact]
    split
    · exact Or.inl ⟨_, rfl⟩
    · split
      · exact Or.inl ⟨_, rfl⟩
      · split
        · exact Or.inr (Or.inr ⟨_, _, rfl⟩)
        · exact Or.inr (Or.inr ⟨_, _, rfl⟩)

/-! ## The tally of a request -/

/-- Segments and attempts that have begun, and exchanges of the runs that have returned. -/
structure Tally where
  segments : Nat := 0
  attempts : Nat := 0
  task : Nat := 0
  compact : Nat := 0

def Session.tally (s : Session Ω) (t : Tally) : Tally :=
  match s with
  | .running _ _ ⟨.start, _⟩ => { t with segments := t.segments + 1 }
  | .compacting _ .automatic _ _ => { t with attempts := t.attempts + 1 }
  | .returned _ (.ok result) _ => { t with task := t.task + result.completedExchanges.toNat }
  | .summarized _ _ _ _ (.ok result) _ _ =>
    { t with compact := t.compact + result.completedExchanges.toNat }
  | _ => t

/-- The tally of the first `n` sessions. -/
def tallied (sessions : Nat → Session Ω) : Nat → Tally
  | 0 => {}
  | n + 1 => (sessions n).tally (tallied sessions n)

def Session.inRequest : Session Ω → Bool
  | .idle _ | .stopped _ | .closed _ => false
  | _ => true

/-- The counters of the worker are those of the tally. -/
def Exact (t : Tally) (a : Active) : Prop :=
  t.task = a.taskExchanges ∧ t.compact = a.compactExchanges

/-- They are, or the sum does not fit and the request fails. -/
def Counted (t : Tally) (a : Active) (failed : Prop) : Prop :=
  Exact t a ∨ 2 ^ 64 ≤ t.task + t.compact ∧ failed

variable (config) in
/-- The counters of a request. -/
structure Within (t : Tally) (a : Active) : Prop where
  attempts : t.attempts ≤ a.compactAttempts
  limit : a.compactAttempts ≤ config.maxAutoCompactions
  successes : a.compactSuccesses ≤ a.compactAttempts
  segments : t.segments ≤ a.compactSuccesses + 1
  task : a.taskExchanges < 2 ^ 64
  compact : a.compactExchanges < 2 ^ 64

variable (config) in
/-- The counters while a compaction is at work: an automatic attempt has not succeeded yet. -/
def Attempting (t : Tally) (a : Active) (mode : CompactMode) : Prop :=
  Within config t a ∧ (mode = .automatic → a.compactSuccesses < a.compactAttempts)

/-- No call of a conversation is on its way. The loop leaves every call with its result; for
a compaction that was asked for, the worker goes by the phase. -/
def NoCallOpen (mode : CompactMode) (state : AgentInputState) : Prop :=
  match mode with
  | .automatic => Closed .ready state
  | .manual => ∀ p, state.loop = some p → p.phase = .ready

variable (config) in
/-- The invariant of a request. -/
def Bounded (t : Tally) : Session Ω → Prop
  | .running a message c =>
    Within config (Session.tally (.running a message c) t) a ∧ Exact t a ∧ SoundAt c ∧
      Paced config.maxExchanges.toNat c ∧ HandsOver c
  | .returned a outcome w =>
    Within config t a ∧ Exact t a ∧ ∀ result, outcome = .ok result →
      result.status = .autoCompactRequired → Closed .ready w.state
  | .compacting a mode segment w =>
    Attempting config (Session.tally (.compacting a mode segment w) t) a mode ∧ Exact t a ∧
      NoCallOpen mode w.state
  | .summarizing a mode _ _ _ c => Attempting config t a mode ∧ Exact t a ∧ Batchless c.point
  | .summarized a mode _ _ _ _ _ => Attempting config t a mode ∧ Exact t a
  | .replacing a mode _ result _ _ | .compacted a mode _ result _ =>
    Attempting config t a mode ∧ Exact t a ∧ result.status = .completed
  | .abandoning a mode _ outcome _ | .compactReturned a mode _ outcome _ =>
    Attempting config t a mode ∧ Counted t a (Fails outcome) ∧ Ends outcome
  | .settling a outcome _ => Within config t a ∧ Counted t a (Fails outcome) ∧ Ends outcome
  | .reporting a result _ =>
    Within config t a ∧ Counted t a (result.status = .failed) ∧
      result.status ≠ .autoCompactRequired ∧
      result.completedExchanges.toNat = a.taskExchanges + a.compactExchanges
  | .idle _ | .stopped _ | .closed _ =>
    t.attempts ≤ config.maxAutoCompactions ∧ t.segments ≤ config.maxAutoCompactions + 1

variable {t : Tally}

theorem Within.ended (h : Within config t a) :
    t.attempts ≤ config.maxAutoCompactions ∧ t.segments ≤ config.maxAutoCompactions + 1 := by
  have hAttempts := h.attempts
  have hLimit := h.limit
  have hSuccesses := h.successes
  have hSegments := h.segments
  constructor
  · omega
  · omega

theorem Within.attempted (h : Within config t a)
    (hBudget : a.compactAttempts < config.maxAutoCompactions) :
    Within config t { a with compactAttempts := a.compactAttempts + 1 } where
  attempts := Nat.le_succ_of_le h.attempts
  limit := hBudget
  successes := Nat.le_succ_of_le h.successes
  segments := h.segments
  task := h.task
  compact := h.compact

/-! ## What is left of a request -/

variable (config) in
def segmentCost : Nat := (config.maxExchanges.toNat + 1) * 64 + 64

variable (config) in
/-- More than an attempt and the segment after it can take. -/
def cycleCost : Nat := segmentCost config + 100

variable (config) in
def cyclesLeft (a : Active) : Nat :=
  (config.maxAutoCompactions - a.compactAttempts) * cycleCost config

variable (config) in
/-- An upper bound on the operations a request still takes. -/
def Session.cost : Session Ω → Nat
  | .compacting a _ _ _ => cyclesLeft config a + segmentCost config + 80
  | .summarizing a _ _ _ _ c => cyclesLeft config a + segmentCost config + 10 + c.point.left
  | .summarized a _ _ _ _ _ _ => cyclesLeft config a + segmentCost config + 9
  | .replacing a _ _ _ _ _ => cyclesLeft config a + segmentCost config + 8
  | .compacted a _ _ _ _ | .abandoning a _ _ _ _ =>
    cyclesLeft config a + segmentCost config + 7
  | .compactReturned a _ _ _ _ => cyclesLeft config a + segmentCost config + 6
  | .running a _ c => cyclesLeft config a + 4 + c.point.measure config.maxExchanges.toNat
  | .returned a _ _ => cyclesLeft config a + 3
  | .settling _ _ _ => 2
  | .reporting _ _ _ => 1
  | .idle _ | .stopped _ | .closed _ => 0

theorem cyclesLeft_attempt (h : a.compactAttempts < config.maxAutoCompactions) :
    cyclesLeft config { a with compactAttempts := a.compactAttempts + 1 } + cycleCost config =
      cyclesLeft config a := by
  unfold cyclesLeft
  show (config.maxAutoCompactions - (a.compactAttempts + 1)) * cycleCost config +
    cycleCost config = _
  rw [← Nat.succ_mul]
  congr 1
  omega

/-! ## Steps -/

theorem step_running (h : ¬Final c) : (Session.running a message c).step host config =
      .running a message (Loop.step (workerEnv host config) (runOptions config) message c) := by
  obtain ⟨point, run⟩ := c
  cases point with
  | returned => exact absurd (Or.inl rfl) h
  | escaped failure => exact absurd (Or.inr ⟨failure, rfl⟩) h
  | _ => rfl

theorem step_summarizing {mode : CompactMode} {segment : RunResult} {plan : CompactPlan}
    {live : AgentInputState} (h : ¬Final c) :
    (Session.summarizing a mode segment plan live c).step host config =
      .summarizing a mode segment plan live
        (Loop.step (summaryEnv host config) summaryOptions
          (some (instruction config mode plan)) c) := by
  obtain ⟨point, run⟩ := c
  cases point with
  | returned => exact absurd (Or.inl rfl) h
  | escaped failure => exact absurd (Or.inr ⟨failure, rfl⟩) h
  | _ => rfl

theorem tally_running (h : c.point ≠ .start) : Session.tally (.running a message c) t = t := by
  obtain ⟨point, run⟩ := c
  cases point with
  | start => exact absurd rfl h
  | _ => rfl

/-- A segment counts no exchanges. -/
theorem tally_running_exact (h : Exact t a) : Exact (Session.tally (.running a message c) t) a := by
  by_cases hStart : c.point = .start
  · obtain ⟨point, run⟩ := c
    subst hStart
    exact h
  · rw [tally_running hStart]
    exact h

theorem summaryEnv_refusesBatches : (summaryEnv host config).RefusesBatches where
  committed state w failure hFailure := by cases hFailure
  refused calls state w :=
    ⟨{ what := "compact response must not call tools" }, rfl, by
      show "compact response must not call tools" ≠ ""
      decide⟩

theorem beginSegment_bounded (hWithin : Within config { t with segments := t.segments + 1 } a)
    (hExact : Exact t a) : Bounded config t (beginSegment a message w) :=
  ⟨hWithin, hExact, rfl, rfl, HandsOver.not_asked (by simp)⟩

theorem beginSegment_cost : (beginSegment a message w).cost config =
      cyclesLeft config a + segmentCost config := by
  show cyclesLeft config a + 4 + ((config.maxExchanges.toNat + 1) * 64 + 60) = _
  unfold segmentCost
  omega

theorem running_bounded (h : Bounded config t (.running a message c)) :
    Bounded config (Session.tally (.running a message c) t)
        ((Session.running a message c).step host config) ∧
      ((Session.running a message c).step host config).cost config <
        (Session.running a message c).cost config := by
  obtain ⟨hWithin, hExact, hSound, hPaced, hHands⟩ := h
  by_cases hFinal : Final c
  · obtain ⟨point, run⟩ := c
    rcases hFinal with hPoint | ⟨failure, hPoint⟩
    · have hPoint : point = .returned := hPoint
      subst hPoint
      refine ⟨⟨hWithin, hExact, ?_⟩, ?_⟩
      · intro result hResult hAsked
        injection hResult with hResult
        rw [← hResult] at hAsked
        exact (hHands hAsked).2
      · show cyclesLeft config a + 3 < cyclesLeft config a + 4 + _
        omega
    · have hPoint : point = .escaped failure := hPoint
      subst hPoint
      refine ⟨⟨hWithin, hExact, ?_⟩, ?_⟩
      · intro result hResult
        cases hResult
      · show cyclesLeft config a + 3 < cyclesLeft config a + 4 + _
        omega
  · rw [step_running hFinal]
    obtain ⟨hNext, hLess⟩ := (step_paced
      (show (runOptions config).maxExchanges = some config.maxExchanges from rfl) c hPaced hFinal :
      Onwards config.maxExchanges.toNat c.point
        (Loop.step (workerEnv host config) (runOptions config) message c))
    have hLate : (Loop.step (workerEnv host config) (runOptions config) message c).point ≠
        .start := by
      intro hStart
      rw [hStart] at hLess
      have hMost := c.point.measure_le config.maxExchanges.toNat
      have hFirst : Point.start.measure config.maxExchanges.toNat =
          (config.maxExchanges.toNat + 1) * 64 + 60 := rfl
      omega
    refine ⟨⟨?_, tally_running_exact hExact, step_sound c hSound, hNext,
      step_handsOver c hSound hHands⟩, ?_⟩
    · rw [tally_running hLate]
      exact hWithin
    · show cyclesLeft config a + 4 + _ < cyclesLeft config a + 4 + _
      omega

theorem returned_bounded (h : Bounded config t (.returned a outcome w)) :
    Bounded config (Session.tally (.returned a outcome w) t)
        (afterSegment host config a outcome w) ∧
      (afterSegment host config a outcome w).cost config < cyclesLeft config a + 3 := by
  obtain ⟨hWithin, hExact, hClosed⟩ := h
  unfold afterSegment
  cases outcome with
  | error failure =>
    refine ⟨⟨hWithin, Or.inl hExact, ends_error failure⟩, ?_⟩
    show 2 < cyclesLeft config a + 3
    omega
  | ok result =>
    have hTally : Within config (Session.tally (.returned a (.ok result) w) t) a :=
      ⟨hWithin.attempts, hWithin.limit, hWithin.successes, hWithin.segments, hWithin.task,
        hWithin.compact⟩
    dsimp only
    split
    · rename_i failure hCount
      refine ⟨⟨hTally, Or.inr ⟨?_, fails_error failure⟩, ends_error failure⟩, ?_⟩
      · have hOver := addExchanges_error hCount
        show 2 ^ 64 ≤ t.task + result.completedExchanges.toNat + t.compact
        have hTask := hExact.1
        omega
      · show 2 < cyclesLeft config a + 3
        omega
    · rename_i total hCount
      have hTotal : total = a.taskExchanges + result.completedExchanges.toNat :=
        addExchanges_ok hCount
      have hSmall : total < 2 ^ 64 := addExchanges_lt hWithin.task hCount
      have hNow : Exact (Session.tally (.returned a (.ok result) w) t)
          { a with taskExchanges := total } := by
        refine ⟨?_, hExact.2⟩
        show t.task + result.completedExchanges.toNat = total
        rw [hTotal, hExact.1]
      have hCounted : Within config (Session.tally (.returned a (.ok result) w) t)
          { a with taskExchanges := total } :=
        ⟨hWithin.attempts, hWithin.limit, hWithin.successes, hWithin.segments, hSmall,
          hWithin.compact⟩
      split
      · rename_i hAsked
        rcases decideCompact_cases host config { a with taskExchanges := total } result w with
          ⟨outcome, w', hEnds, hNext⟩ | ⟨hBudget, ⟨failure, w', hNext⟩ | ⟨d, hNext⟩⟩
        · rw [hNext]
          refine ⟨⟨hCounted, Or.inl hNow, hEnds⟩, ?_⟩
          show 2 < cyclesLeft config a + 3
          omega
        · rw [hNext]
          refine ⟨⟨hCounted.attempted hBudget, Or.inl hNow, ends_error failure⟩, ?_⟩
          show 2 < cyclesLeft config a + 3
          omega
        · rw [hNext]
          refine ⟨⟨⟨?_, fun _ => Nat.lt_succ_of_le hCounted.successes⟩, hNow,
            hClosed result rfl hAsked⟩, ?_⟩
          · have hMore := hCounted.attempted hBudget
            exact ⟨Nat.succ_le_succ hCounted.attempts, hMore.limit, hMore.successes,
              hMore.segments, hMore.task, hMore.compact⟩
          · have hPaid := cyclesLeft_attempt (a := a) hBudget
            have hCycle : cycleCost config = segmentCost config + 100 := rfl
            show cyclesLeft config { a with compactAttempts := a.compactAttempts + 1 } +
              segmentCost config + 80 < _
            omega
      · rename_i hStatus
        refine ⟨⟨hCounted, Or.inl hNow, ends_ok hStatus⟩, ?_⟩
        show 2 < cyclesLeft config a + 3
        omega

theorem summarized_bounded {mode : CompactMode} {segment : RunResult} {plan : CompactPlan}
    {draft : AgentInputState}
    (h : Bounded config t (.summarized a mode segment plan outcome draft w)) :
    Bounded config (Session.tally (.summarized a mode segment plan outcome draft w) t)
        (afterSummary host config a mode segment plan outcome draft w) ∧
      (afterSummary host config a mode segment plan outcome draft w).cost config <
        cyclesLeft config a + segmentCost config + 9 := by
  obtain ⟨⟨hWithin, hPending⟩, hExact⟩ := h
  have hTally : Within config
      (Session.tally (.summarized a mode segment plan outcome draft w) t) a := by
    cases outcome with
    | error failure => exact hWithin
    | ok result =>
      exact ⟨hWithin.attempts, hWithin.limit, hWithin.successes, hWithin.segments,
        hWithin.task, hWithin.compact⟩
  rcases afterSummary_cases host config a mode segment plan outcome draft w with
    ⟨failure, hOver, hNext⟩ | ⟨result, total, d, rfl, hCount, _, hCases⟩
  · rw [hNext]
    refine ⟨⟨⟨hTally, hPending⟩, ?_, ends_error failure⟩, ?_⟩
    · cases outcome with
      | error failure' => exact Or.inl hExact
      | ok result =>
        refine Or.inr ⟨?_, fails_error failure⟩
        have hLarge := hOver result rfl
        have hCompact := hExact.2
        show 2 ^ 64 ≤ t.task + (t.compact + result.completedExchanges.toNat)
        omega
    · show cyclesLeft config a + segmentCost config + 7 < _
      omega
  · have hCounted : Within config
        (Session.tally (.summarized a mode segment plan (.ok result) draft w) t)
        { a with compactExchanges := total } :=
      ⟨hTally.attempts, hTally.limit, hTally.successes, hTally.segments, hTally.task,
        addExchanges_lt hTally.compact hCount⟩
    have hNow : Exact (Session.tally (.summarized a mode segment plan (.ok result) draft w) t)
        { a with compactExchanges := total } := by
      refine ⟨hExact.1, ?_⟩
      show t.compact + result.completedExchanges.toNat = total
      rw [addExchanges_ok hCount, hExact.2]
    rcases hCases with ⟨outcome', hUnfinished, hNext⟩ |
      ⟨summary, replacement, hStatus, _, _, hNext⟩
    · rw [hNext]
      refine ⟨⟨⟨hCounted, hPending⟩, Or.inl hNow, hUnfinished.ends⟩, ?_⟩
      show cyclesLeft config a + segmentCost config + 7 < _
      omega
    · rw [hNext]
      refine ⟨⟨⟨hCounted, hPending⟩, hNow, hStatus⟩, ?_⟩
      show cyclesLeft config a + segmentCost config + 8 < _
      omega

theorem automatic_bounded {segment : RunResult}
    (h : Bounded config t (.compactReturned a .automatic segment outcome w)) :
    Bounded config t (afterAutomatic host config a segment outcome w) ∧
      (afterAutomatic host config a segment outcome w).cost config <
        cyclesLeft config a + segmentCost config + 6 := by
  obtain ⟨⟨hWithin, hPending⟩, hCounted, hEnds⟩ := h
  have hSuccesses := hPending rfl
  have hSegments := hWithin.segments
  have hMore : Within config { t with segments := t.segments + 1 } (succeeded a) :=
    ⟨hWithin.attempts, hWithin.limit, hSuccesses, Nat.succ_le_succ hSegments, hWithin.task,
      hWithin.compact⟩
  have hSame : Within config t (succeeded a) :=
    ⟨hWithin.attempts, hWithin.limit, hSuccesses, Nat.le_succ_of_le hSegments, hWithin.task,
      hWithin.compact⟩
  rcases afterAutomatic_cases host config a segment outcome w hEnds with
    ⟨a', outcome', w', hActive, hEnds', hFails, hNext⟩ |
    ⟨result, message, d, rfl, hStatus, hNext⟩
  · rw [hNext]
    have hSettled : Counted t a (Fails outcome') := hCounted.imp_right fun hOver =>
      ⟨hOver.1, hFails hOver.2⟩
    constructor
    · rcases hActive with rfl | rfl
      · exact ⟨hWithin, hSettled, hEnds'⟩
      · exact ⟨hSame, hSettled, hEnds'⟩
    · show 2 < _
      omega
  · have hExact : Exact t a := by
      rcases hCounted with hExact | ⟨_, hFails⟩
      · exact hExact
      · have hFailed := hFails result rfl
        rw [hStatus] at hFailed
        cases hFailed
    rw [hNext]
    refine ⟨beginSegment_bounded hMore hExact, ?_⟩
    rw [beginSegment_cost]
    show cyclesLeft config a + segmentCost config < _
    omega

variable (host) in
/-- **One operation of a request** keeps the invariant and brings the request closer to its
end. -/
theorem step_bounded {s : Session Ω} (h : Bounded config t s) (hRequest : s.inRequest = true) :
    Bounded config (s.tally t) (s.step host config) ∧
      (s.step host config).cost config < s.cost config := by
  cases s with
  | running a message c => exact running_bounded h
  | returned a outcome w => exact returned_bounded h
  | compacting a mode segment w =>
    obtain ⟨hAttempt, hExact, _⟩ := h
    have hCounted : Exact (Session.tally (.compacting a mode segment w) t) a := by
      cases mode with
      | manual | automatic => exact hExact
    obtain ⟨d, _, hCases⟩ := beginCompact_cases host a mode segment w
    rcases hCases with ⟨outcome, hUnfinished, hNext⟩ | hNext | ⟨plan, _, hNext⟩
    · rw [Session.step, hNext]
      refine ⟨⟨hAttempt, Or.inl hCounted, hUnfinished.ends⟩, ?_⟩
      show cyclesLeft config a + segmentCost config + 6 <
        cyclesLeft config a + segmentCost config + 80
      omega
    · rw [Session.step, hNext]
      refine ⟨⟨hAttempt, Or.inl hCounted, (unfinished_cancelled rfl).ends⟩, ?_⟩
      show cyclesLeft config a + segmentCost config + 7 <
        cyclesLeft config a + segmentCost config + 80
      omega
    · rw [Session.step, hNext]
      refine ⟨⟨hAttempt, hCounted, trivial⟩, ?_⟩
      show cyclesLeft config a + segmentCost config + 10 + 60 <
        cyclesLeft config a + segmentCost config + 80
      omega
  | summarizing a mode segment plan live c =>
    obtain ⟨hAttempt, hExact, hBatchless⟩ := h
    by_cases hFinal : Final c
    · obtain ⟨point, run⟩ := c
      rcases hFinal with hPoint | ⟨failure, hPoint⟩
      · have hPoint : point = .returned := hPoint
        subst hPoint
        exact ⟨⟨hAttempt, hExact⟩, Nat.lt_succ_self _⟩
      · have hPoint : point = .escaped failure := hPoint
        subst hPoint
        exact ⟨⟨hAttempt, hExact⟩, Nat.lt_succ_self _⟩
    · rw [step_summarizing hFinal]
      have hStep : Batchless (Loop.step (summaryEnv host config) summaryOptions
            (some (instruction config mode plan)) c).point ∧
          (Loop.step (summaryEnv host config) summaryOptions
            (some (instruction config mode plan)) c).point.left < c.point.left :=
        step_batchless summaryEnv_refusesBatches c hBatchless hFinal
      obtain ⟨hNext, hLess⟩ := hStep
      refine ⟨⟨hAttempt, hExact, hNext⟩, ?_⟩
      show cyclesLeft config a + segmentCost config + 10 + _ <
        cyclesLeft config a + segmentCost config + 10 + _
      omega
  | summarized a mode segment plan outcome draft w => exact summarized_bounded h
  | replacing a mode segment result replacement w =>
    obtain ⟨hAttempt, hExact, hStatus⟩ := h
    obtain ⟨d, hCases⟩ :=
      commitReplacement_cases host a mode segment result replacement w
    rcases hCases with ⟨outcome, hUnfinished, _, hNext⟩ | ⟨_, hNext⟩
    · rw [Session.step, hNext]
      exact ⟨⟨hAttempt, Or.inl hExact, hUnfinished.ends⟩, Nat.lt_succ_self _⟩
    · rw [Session.step, hNext]
      exact ⟨⟨hAttempt, hExact, hStatus⟩, Nat.lt_succ_self _⟩
  | compacted a mode segment result w =>
    obtain ⟨hAttempt, hExact, hStatus⟩ := h
    obtain ⟨d, outcome, _, hOutcome, hNext⟩ :=
      reportCompacted_cases host a mode segment result w
    rw [Session.step, hNext]
    refine ⟨⟨hAttempt, Or.inl hExact, ?_⟩, Nat.lt_succ_self _⟩
    rcases hOutcome with rfl | ⟨failure, rfl⟩
    · exact ends_ok (by rw [hStatus]; decide)
    · exact ends_error failure
  | abandoning a mode segment outcome w => exact ⟨h, Nat.lt_succ_self _⟩
  | compactReturned a mode segment outcome w =>
    cases mode with
    | manual =>
      refine ⟨⟨h.1.1, h.2.1, h.2.2⟩, ?_⟩
      show 2 < cyclesLeft config a + segmentCost config + 6
      omega
    | automatic => exact automatic_bounded h
  | settling a outcome w =>
    obtain ⟨hWithin, hCounted, hEnds⟩ := h
    rcases settleRequest_cases host config a outcome w hWithin.task hWithin.compact with
      ⟨w', hNext⟩ | ⟨result, w', hStatus, hReported, hNext⟩
    · rw [Session.step, hNext]
      exact ⟨hWithin.ended, Nat.two_pos⟩
    · rw [Session.step, hNext]
      refine ⟨⟨hWithin, ?_, ?_, hReported⟩, Nat.one_lt_two⟩
      · exact hCounted.imp_right fun hOver =>
          ⟨hOver.1, hStatus.trans (conclude_fails hOver.2)⟩
      · rw [hStatus]
        exact conclude_ends hEnds
  | reporting a result w =>
    have hEnded : t.attempts ≤ config.maxAutoCompactions ∧
      t.segments ≤ config.maxAutoCompactions + 1 := h.1.ended
    show Bounded config t (reportRequest host w) ∧ (reportRequest host w).cost config < 1
    unfold reportRequest
    split
    · exact ⟨hEnded, Nat.one_pos⟩
    · split
      · exact ⟨hEnded, Nat.one_pos⟩
      · exact ⟨hEnded, Nat.one_pos⟩
  | idle w | stopped w | closed w => cases hRequest

/-! ## Runs -/

theorem admissible_ready {state : AgentInputState} {input : Input}
    (h : admissible config state input = true) (hCompact : input.operation = .compact)
    {p : LoopProgress} (hLoop : state.loop = some p) : p.phase = .ready := by
  unfold admissible at h
  simp only [decide_eq_true_eq] at h
  have hReady := (h.2.1 hCompact).2.1
  simpa [hLoop] using hReady

variable (host) in
theorem beginRequest_bounded {input : Input} (hAdmitted : admissible config w.state input = true) :
    Bounded config {} (beginRequest host config input w) := by
  have hPositive : (0 : Nat) < 2 ^ 64 := by decide
  have hFirst : Within config {} { input } :=
    ⟨Nat.le_refl 0, Nat.zero_le _, Nat.le_refl 0, Nat.zero_le _, hPositive, hPositive⟩
  have hSegment : Within config { segments := 1 } { input } :=
    ⟨Nat.le_refl 0, Nat.zero_le _, Nat.le_refl 0, Nat.le_refl 1, hPositive, hPositive⟩
  rcases beginRequest_cases host config input w with
    ⟨w', hNext⟩ | ⟨hCompact, d, hNext⟩ | ⟨message, w', hNext⟩
  · rw [hNext]
    exact ⟨Nat.zero_le _, Nat.zero_le _⟩
  · rw [hNext]
    refine ⟨⟨hFirst, ?_⟩, ⟨rfl, rfl⟩, ?_⟩
    · intro hMode
      cases hMode
    · intro p hLoop
      exact admissible_ready hAdmitted hCompact hLoop
  · rw [hNext]
    exact beginSegment_bounded hSegment ⟨rfl, rfl⟩

variable (host) in
theorem advance_bounded {s : Session Ω} (h : Bounded config {} s) (n : Nat)
    (hRequest : ∀ k < n, (s.advance host config k).inRequest = true) :
    Bounded config (tallied (s.advance host config) n) (s.advance host config n) ∧
      (s.advance host config n).cost config + n ≤ s.cost config := by
  induction n with
  | zero => exact ⟨h, Nat.le_refl _⟩
  | succ n ih =>
    obtain ⟨hBounded, hCost⟩ := ih fun k hk => hRequest k (by omega)
    obtain ⟨hNext, hLess⟩ := step_bounded host hBounded (hRequest n (Nat.lt_succ_self n))
    refine ⟨hNext, ?_⟩
    show ((s.advance host config n).step host config).cost config + (n + 1) ≤ _
    omega

variable (host) in
theorem advance_ends {s : Session Ω} (h : Bounded config {} s) :
    ∃ n, (s.advance host config n).inRequest = false ∧
      ∀ k < n, (s.advance host config k).inRequest = true := by
  have hSome : ∃ n, (s.advance host config n).inRequest = false := by
    by_contra hNever
    have hAlways : ∀ k, (s.advance host config k).inRequest = true := by
      intro k
      by_contra hEnded
      exact hNever ⟨k, by simpa using hEnded⟩
    have hCost := (advance_bounded host h (s.cost config + 1) fun k _ => hAlways k).2
    omega
  refine ⟨Nat.find hSome, Nat.find_spec hSome, fun k hk => ?_⟩
  simpa using Nat.find_min hSome hk

end Requests

/-- **One request is bounded.** Whatever the model, the registry, the hooks and the store do,
the request ends; until then its segments, the exchanges of each and the attempts to compact
stay within the limits, no attempt begins while a call is open, and what is reported is no
request for a compaction and has the exchanges of the task and of the summaries. -/
theorem request_is_bounded {Ω : Type} (host : Host Ω) (config : Configuration) (input : Input)
    (w : Worker Ω) (hAdmitted : admissible config w.state input = true) :
    let sessions := (beginRequest host config input w).advance host config
    ∃ n, (sessions n).inRequest = false ∧ (∀ k < n, (sessions k).inRequest = true) ∧
      (tallied sessions n).segments ≤ config.maxAutoCompactions + 1 ∧
      (tallied sessions n).attempts ≤ config.maxAutoCompactions ∧
      ∀ k < n,
        (∀ a message c, sessions k = .running a message c →
          c.run.result.completedExchanges.toNat ≤ config.maxExchanges.toNat) ∧
        (∀ a mode segment w', sessions k = .compacting a mode segment w' →
          NoCallOpen mode w'.state) ∧
        (∀ a outcome w', sessions k = .settling a outcome w' →
          (conclude a outcome w').1.status ≠ .autoCompactRequired) ∧
        (∀ a result w', sessions k = .reporting a result w' → result.status ≠ .autoCompactRequired ∧
          result.completedExchanges.toNat = a.taskExchanges + a.compactExchanges ∧
          (result.completedExchanges.toNat =
              (tallied sessions k).task + (tallied sessions k).compact ∨
            2 ^ 64 ≤ (tallied sessions k).task + (tallied sessions k).compact ∧
              result.status = .failed)) := by
  intro sessions
  have hStart := beginRequest_bounded host hAdmitted
  obtain ⟨n, hEnded, hRequest⟩ := advance_ends host hStart
  have hBounded : ∀ k ≤ n, Bounded config (tallied sessions k) (sessions k) := fun k hk =>
    (advance_bounded host hStart k fun i hi => hRequest i (by omega)).1
  have hLimits : (tallied sessions n).attempts ≤ config.maxAutoCompactions ∧
      (tallied sessions n).segments ≤ config.maxAutoCompactions + 1 := by
    have hLast := hBounded n (Nat.le_refl n)
    cases hSession : sessions n with
    | idle _ | stopped _ | closed _ =>
      rw [hSession] at hLast
      exact hLast
    | _ =>
      have hOpen : (sessions n).inRequest = false := hEnded
      rw [hSession] at hOpen
      cases hOpen
  refine ⟨n, hEnded, hRequest, hLimits.2, hLimits.1, fun k hk => ?_⟩
  have hAt := hBounded k (Nat.le_of_lt hk)
  refine ⟨?_, ?_, ?_, ?_⟩
  · intro a message c hSession
    rw [hSession] at hAt
    obtain ⟨_, _, _, hPaced, _⟩ := hAt
    exact Pace.Holds.le hPaced
  · intro a mode segment w' hSession
    rw [hSession] at hAt
    obtain ⟨_, _, hOpen⟩ := hAt
    exact hOpen
  · intro a outcome w' hSession
    rw [hSession] at hAt
    obtain ⟨_, _, hEnds⟩ := hAt
    exact conclude_ends hEnds
  · intro a result w' hSession
    rw [hSession] at hAt
    obtain ⟨_, hCounted, hStatus, hReported⟩ := hAt
    refine ⟨hStatus, hReported, ?_⟩
    rcases hCounted with hExact | hOver
    · left
      rw [hReported, hExact.1, hExact.2]
    · exact Or.inr hOver

/-- A model that calls a tool in every response, with a limit of two exchanges. -/
theorem request_is_bounded_sample : admissible compactingConfiguration freshWorker.state
        { requestId := "request", message := some { type := .userInput, role := "user" } } = true ∧
      ∃ n, ((beginRequest unmarkingHost compactingConfiguration
          { requestId := "request", message := some { type := .userInput, role := "user" } }
          freshWorker).advance unmarkingHost compactingConfiguration n).inRequest = false ∧
        (tallied ((beginRequest unmarkingHost compactingConfiguration
          { requestId := "request", message := some { type := .userInput, role := "user" } }
          freshWorker).advance unmarkingHost compactingConfiguration) n).segments ≤ 6 := by
  have hAdmitted : admissible compactingConfiguration freshWorker.state
      { requestId := "request", message := some { type := .userInput, role := "user" } } =
        true := by decide +kernel
  obtain ⟨n, hEnded, _, hSegments, _⟩ := request_is_bounded unmarkingHost compactingConfiguration
    { requestId := "request", message := some { type := .userInput, role := "user" } } freshWorker
    hAdmitted
  exact ⟨hAdmitted, n, hEnded, hSegments⟩

end SimplexAgent.Core
