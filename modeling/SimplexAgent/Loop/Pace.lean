import SimplexAgent.Loop.HookFailure

/-!
# How long a run can go on

A run with an exchange limit ends: an exchange passes through the points of the control
flow once, and only the decision after a settled batch leads back to the next exchange.
The measure of a configuration counts the exchanges that are left and, within one, the
points; every operation lowers it (`step_paced`).

A run whose hooks refuse every batch ends without a limit, since it never comes to that
decision (`step_batchless`).

When a run asks for compaction, no call of its conversation is without a result
(`step_handsOver`).
-/

namespace SimplexAgent.Loop

open Dataclass

/-! ## Points in order -/

/-- Where a point lies in the exchange loop. -/
inductive Pace where
  | before
  | ready (round : Nat)
  /-- The exchange has begun and has no response yet. -/
  | asking (round : Nat)
  | answered (round : Nat)
  | past
  deriving DecidableEq

namespace Point

def pace : Point → Pace
  | .start | .requested | .declining | .recovering | .recovered | .validated | .admitting
  | .opened | .started | .rewritten _ | .accepting _ | .integrating _ | .accepted
  | .entering => .before
  | .ready round => .ready round
  | .polling round | .preparing round | .prepared round _ | .rendered round _
  | .requesting round _ | .opening round | .model round | .conversing round
  | .responded round _ | .committing round _ | .counting round _ => .asking round
  | .committed round _ | .noticed round _ | .announced round _ _ | .marking round _ _
  | .marked round _ _ | .dispatching round _ _ | .cleared round _ _ | .executing round _
  | .gathered round _ _ | .recorded round _ | .saving round _ | .projecting round _
  | .projected round _ | .settled round | .editing round | .edited round | .stepSaving round
  | .stepSaved round | .deciding round => .answered round
  | .cancelling | .aborted _ | .withdrawn _ | .withdrawing | .unanswered _ | .failed _ | .ended
  | .settling | .finishing | .finishFailed _ | .finished | .finalSaving | .returned
  | .escaped _ => .past

/-- How many points can still follow within an exchange. -/
def left : Point → Nat
  | .start => 60
  | .requested => 59
  | .recovering => 58
  | .recovered => 57
  | .validated => 56
  | .admitting => 55
  | .opened => 54
  | .started => 53
  | .rewritten _ => 52
  | .accepting _ => 51
  | .integrating _ => 50
  | .accepted => 49
  | .entering => 48
  | .ready _ => 47
  | .polling _ => 46
  | .preparing _ => 45
  | .prepared _ _ => 44
  | .rendered _ _ => 43
  | .requesting _ _ => 42
  | .opening _ => 41
  | .model _ => 40
  | .conversing _ => 39
  | .responded _ _ => 38
  | .committing _ _ => 37
  | .counting _ _ => 36
  | .committed _ _ => 35
  | .noticed _ _ => 34
  | .announced _ _ _ => 33
  | .marking _ _ _ => 32
  | .marked _ _ _ => 31
  | .dispatching _ _ _ => 30
  | .cleared _ _ _ => 29
  | .executing _ _ => 28
  | .gathered _ _ _ => 27
  | .recorded _ _ => 26
  | .saving _ _ => 25
  | .projecting _ _ => 24
  | .projected _ _ => 23
  | .settled _ => 22
  | .editing _ => 21
  | .edited _ => 20
  | .stepSaving _ => 19
  | .stepSaved _ => 18
  | .deciding _ => 17
  | .aborted _ => 14
  | .withdrawn _ => 13
  | .withdrawing => 12
  | .unanswered _ => 12
  | .declining => 11
  | .cancelling => 11
  | .failed _ => 10
  | .ended => 9
  | .settling => 8
  | .finishing => 7
  | .finishFailed _ => 6
  | .finished => 5
  | .finalSaving => 4
  | .returned => 0
  | .escaped _ => 0

theorem left_le (p : Point) : p.left ≤ 60 := by
  unfold left
  split <;> omega

end Point

namespace Pace

/-- Exchanges that can still begin when there are `limit` in all. -/
def rounds (limit : Nat) : Pace → Nat
  | .before => limit + 1
  | .ready round | .asking round | .answered round => limit - round
  | .past => 0

/-- The exchanges a run has completed. -/
def Holds (limit completed : Nat) : Pace → Prop
  | .before => completed = 0
  | .ready round => completed = round ∧ round ≤ limit
  | .asking round => completed = round ∧ round < limit
  | .answered round => completed = round + 1 ∧ round < limit
  | .past => completed ≤ limit

theorem Holds.le {limit completed : Nat} {pace : Pace} (h : pace.Holds limit completed) :
    completed ≤ limit := by
  cases pace with
  | before =>
    have hZero : completed = 0 := h
    omega
  | ready round | answered round => exact h.1 ▸ h.2
  | asking round => exact h.1 ▸ Nat.le_of_lt h.2
  | past => exact h

end Pace

/-- What is left of a run, at most. -/
def Point.measure (limit : Nat) (p : Point) : Nat := p.pace.rounds limit * 64 + p.left

theorem Point.measure_le (limit : Nat) (p : Point) : p.measure limit ≤ (limit + 1) * 64 + 60 := by
  have hRounds : p.pace.rounds limit ≤ limit + 1 := by
    cases p.pace with
    | before => exact Nat.le_refl _
    | ready round | asking round | answered round =>
      exact Nat.le_trans (Nat.sub_le _ _) (Nat.le_succ _)
    | past => exact Nat.zero_le _
  have hLeft := p.left_le
  have hScaled : p.pace.rounds limit * 64 ≤ (limit + 1) * 64 := Nat.mul_le_mul_right 64 hRounds
  unfold Point.measure
  omega

section Steps

variable {W : Type} {env : Env W} {options : Options} {message : Option MessageItem}

/-! ## With an exchange limit -/

/-- The exchanges of a run at a point. -/
def Paced (limit : Nat) (c : Config W) : Prop :=
  c.point.pace.Holds limit c.run.result.completedExchanges.toNat

/-- What follows a point: the pace holds, and less is left. -/
def Onwards (limit : Nat) (p : Point) (c : Config W) : Prop :=
  Paced limit c ∧ c.point.measure limit < p.measure limit

theorem Onwards.next {limit : Nat} {p q : Point} {s s' : RunState W}
    (hHolds : q.pace.Holds limit s.result.completedExchanges.toNat)
    (hResult : s'.result.completedExchanges = s.result.completedExchanges)
    (hRounds : q.pace.rounds limit ≤ p.pace.rounds limit) (hLeft : Nat.blt q.left p.left = true) :
    Onwards limit p ⟨q, s'⟩ := by
  have hLess : q.left < p.left := by simpa using hLeft
  constructor
  · unfold Paced
    rw [hResult]
    exact hHolds
  · show q.pace.rounds limit * 64 + q.left < p.pace.rounds limit * 64 + p.left
    omega

theorem Onwards.stay {limit : Nat} {p q : Point} {s s' : RunState W} (h : Paced limit ⟨p, s⟩)
    (hResult : s'.result.completedExchanges = s.result.completedExchanges)
    (hPace : q.pace = p.pace) (hLeft : Nat.blt q.left p.left = true) : Onwards limit p ⟨q, s'⟩ :=
  .next (hPace ▸ h) hResult (Nat.le_of_eq (hPace ▸ rfl)) hLeft

theorem Onwards.leave {limit : Nat} {p q : Point} {s s' : RunState W} (h : Paced limit ⟨p, s⟩)
    (hResult : s'.result.completedExchanges = s.result.completedExchanges)
    (hPace : q.pace = .past) (hLeft : Nat.blt q.left p.left = true) : Onwards limit p ⟨q, s'⟩ :=
  .next (hPace ▸ Pace.Holds.le h) hResult (hPace ▸ Nat.zero_le _) hLeft

/-- **One operation of a run with a limit.** The exchanges stay below the limit, and less of
the run is left. -/
theorem step_paced {limit : UInt64} (hLimit : options.maxExchanges = some limit)
    (c : Config W) (h : Paced limit.toNat c) (hRunning : ¬Final c) :
    Onwards limit.toNat c.point (step env options message c) := by
  obtain ⟨p, s⟩ := c
  have hStay : ∀ {q : Point} {s' : RunState W},
      s'.result.completedExchanges = s.result.completedExchanges → q.pace = p.pace →
      Nat.blt q.left p.left = true → Onwards limit.toNat p ⟨q, s'⟩ := fun {_ _} => Onwards.stay h
  have hLeave : ∀ {q : Point} {s' : RunState W},
      s'.result.completedExchanges = s.result.completedExchanges → q.pace = .past →
      Nat.blt q.left p.left = true → Onwards limit.toNat p ⟨q, s'⟩ := fun {_ _} => Onwards.leave h
  have hSmall : limit.toNat < 2 ^ 64 := limit.toNat_lt
  cases p with
  | start | recovering | recovered | prepared round context | committing round response
  | projecting round hookError =>
    exact checked_rule (P := Onwards _ _) (fun _ _ => hStay rfl rfl rfl)
      fun _ _ => hLeave rfl rfl rfl
  | requested | validated | accepting m =>
    exact polled_rule (P := Onwards _ _) (fun _ => hStay rfl rfl rfl)
      (hStay rfl rfl rfl)
  | declining | cancelling | withdrawing | unanswered failure | settling | finishFailed failure =>
    exact hLeave rfl rfl rfl
  | admitting | integrating m | requesting round context | opening round
  | marking round calls hookError | gathered round hookError records => exact hStay rfl rfl rfl
  | opened | accepted | marked round calls hookError | recorded round hookError | settled round
  | edited round =>
    exact published_rule (P := Onwards _ _) (fun _ => hStay rfl rfl rfl)
      fun _ _ => hLeave rfl rfl rfl
  | started =>
    cases message with
    | none => exact hStay rfl rfl rfl
    | some m =>
      exact called_rule (P := Onwards _ _) (fun _ _ => hStay rfl rfl rfl)
        fun _ _ => hLeave rfl rfl rfl
  | rewritten m =>
    show Onwards _ _ (if isUserMessage m = true then _ else _)
    split
    · exact hStay rfl rfl rfl
    · exact hLeave rfl rfl rfl
  | entering =>
    have hZero : s.result.completedExchanges.toNat = 0 := h
    refine ⟨⟨hZero, Nat.zero_le _⟩, ?_⟩
    show (limit.toNat - 0) * 64 + 47 < (limit.toNat + 1) * 64 + 48
    omega
  | ready round =>
    show Onwards _ _ (if _ then _ else _)
    split
    · exact hLeave rfl rfl rfl
    · rename_i hBelow
      have hRound : round < limit.toNat := by simpa [hLimit] using hBelow
      refine ⟨⟨h.1, hRound⟩, ?_⟩
      show (limit.toNat - round) * 64 + 46 < (limit.toNat - round) * 64 + 47
      omega
  | polling round | rendered round context | model round | stepSaved round =>
    exact polled_rule (P := Onwards _ _) (fun _ => hLeave rfl rfl rfl)
      (hStay rfl rfl rfl)
  | preparing round | conversing round | executing round calls =>
    exact called_rule (P := Onwards _ _) (fun _ _ => hStay rfl rfl rfl)
      fun _ _ => hLeave rfl rfl rfl
  | aborted failure | failed failure | ended =>
    show Onwards _ _ (if _ then _ else _)
    split
    · exact hLeave rfl rfl rfl
    · exact hLeave rfl rfl rfl
  | withdrawn failure =>
    exact polled_rule (P := Onwards _ _) (fun _ => hLeave rfl rfl rfl)
      (hLeave rfl rfl rfl)
  | responded round response =>
    show Onwards _ _ (if _ then _ else _)
    split
    · exact hLeave rfl rfl rfl
    · exact checked_rule (P := Onwards _ _) (fun _ _ => hStay rfl rfl rfl)
        fun _ _ => hLeave rfl rfl rfl
  | counting round response =>
    have hRound : s.result.completedExchanges.toNat = round ∧ round < limit.toNat := h
    have hCount : (s.result.completedExchanges + 1).toNat = round + 1 := by
      rw [UInt64.toNat_add, UInt64.toNat_one]
      omega
    refine ⟨⟨hCount, hRound.2⟩, ?_⟩
    show (limit.toNat - round) * 64 + 35 < (limit.toNat - round) * 64 + 36
    omega
  | committed round response =>
    exact published_rule (P := Onwards _ _) (fun _ => hStay rfl rfl rfl)
      fun _ _ => hStay rfl rfl rfl
  | noticed round response =>
    show Onwards _ _ (if _ then _ else _)
    split
    · exact published_rule (P := Onwards _ _) (fun _ => hStay rfl rfl rfl)
        fun _ _ => hStay rfl rfl rfl
    · exact hStay rfl rfl rfl
  | announced round response hookError =>
    show Onwards _ _ (if _ then _ else _)
    split
    · exact hStay rfl rfl rfl
    · split
      · exact hLeave rfl rfl rfl
      · exact hLeave rfl rfl rfl
  | dispatching round calls hookError | saving round hookError | stepSaving round =>
    exact saved_rule (P := Onwards _ _) (fun _ => hStay rfl rfl rfl)
      fun _ _ => hLeave rfl rfl rfl
  | cleared round calls hookError =>
    refine polled_rule (P := Onwards _ _) (fun _ => hStay rfl rfl rfl) ?_
    by_cases hHook : hookError ≠ ""
    · rw [if_pos hHook]
      exact hStay rfl rfl rfl
    · rw [if_neg hHook]
      exact hStay rfl rfl rfl
  | projected round hookError =>
    show Onwards _ _ (if _ then _ else _)
    split
    · exact hLeave rfl rfl rfl
    · exact hStay rfl rfl rfl
  | editing round =>
    exact editedBy_rule (P := Onwards _ _) (hStay rfl rfl rfl) (fun _ _ _ => hStay rfl rfl rfl)
      fun _ _ => hLeave rfl rfl rfl
  | deciding round =>
    have hRound : s.result.completedExchanges.toNat = round + 1 ∧ round < limit.toNat := h
    apply deciding_rule (P := Onwards _ _)
    · intro reason _
      exact hLeave rfl rfl rfl
    · intro _
      refine ⟨⟨hRound.1, hRound.2⟩, ?_⟩
      show (limit.toNat - (round + 1)) * 64 + 47 < (limit.toNat - round) * 64 + 17
      omega
  | finishing =>
    exact editedBy_rule (P := Onwards _ _) (hLeave rfl rfl rfl) (fun _ _ _ => hLeave rfl rfl rfl)
      fun _ _ => hLeave rfl rfl rfl
  | finished =>
    exact published_rule (P := Onwards _ _) (fun _ => hLeave rfl rfl rfl)
      fun _ _ => hLeave rfl rfl rfl
  | finalSaving =>
    exact saved_rule (P := Onwards _ _) (fun _ => hLeave rfl rfl rfl)
      fun _ _ => hLeave rfl rfl rfl
  | returned => exact absurd (Or.inl rfl) hRunning
  | escaped failure => exact absurd (Or.inr ⟨failure, rfl⟩) hRunning

/-! ## Without batches -/

structure Env.RefusesBatches (env : Env W) : Prop where
  committed : ∀ state w failure, (env.publish .modelCommitted state w).1 = .error failure →
    errorText failure ≠ ""
  refused : ∀ calls state w, ∃ failure,
    (env.publish (.beforeToolBatch calls) state w).1 = .error failure ∧ errorText failure ≠ ""

/-- A batch is on its way to be skipped, and none has been settled. -/
def Batchless : Point → Prop
  | .announced _ response hookError => response.invokes.getD [] ≠ [] → hookError ≠ ""
  | .marking _ _ hookError | .marked _ _ hookError | .dispatching _ _ hookError
  | .cleared _ _ hookError | .gathered _ hookError _ | .recorded _ hookError
  | .saving _ hookError | .projecting _ hookError | .projected _ hookError => hookError ≠ ""
  | .executing _ _ | .settled _ | .editing _ | .edited _ | .stepSaving _ | .stepSaved _
  | .deciding _ => False
  | _ => True

/-- **One operation of a run without batches.** It does not come back to an earlier point. -/
theorem step_batchless (hEnv : env.RefusesBatches) (c : Config W) (h : Batchless c.point)
    (hRunning : ¬Final c) : Batchless (step env options message c).point ∧
      (step env options message c).point.left < c.point.left := by
  obtain ⟨p, s⟩ := c
  let Q : Config W → Prop := fun c => Batchless c.point ∧ c.point.left < p.left
  have hOn : ∀ {q : Point} {s' : RunState W}, Batchless q → Nat.blt q.left p.left = true →
      Q ⟨q, s'⟩ := fun {q _} hBatch hLeft => ⟨hBatch, by simpa using hLeft⟩
  have hBranch : ∀ {c₁ c₂ : Config W} {b : Prop} [Decidable b], Q c₁ → Q c₂ →
      Q (if b then c₁ else c₂) := by
    intro c₁ c₂ b _ h₁ h₂
    split
    · exact h₁
    · exact h₂
  show Q (step env options message ⟨p, s⟩)
  cases p with
  | started =>
    cases message with
    | none => exact hOn trivial rfl
    | some m =>
      exact called_rule (P := Q) (fun _ _ => hOn trivial rfl) fun _ _ => hOn trivial rfl
  | responded round response =>
    exact hBranch (hOn trivial rfl)
      (checked_rule (P := Q) (fun _ _ => hOn trivial rfl) fun _ _ => hOn trivial rfl)
  | committed round response =>
    refine called_rule (P := Q) (fun _ _ => hOn trivial rfl) fun failure hFailure => ?_
    exact hOn (fun _ => hEnv.committed _ _ _ hFailure) rfl
  | noticed round response =>
    show Q (if _ then _ else _)
    split
    · obtain ⟨failure, hFailure, hText⟩ := hEnv.refused (response.invokes.getD []) s.state s.world
      refine called_rule (P := Q) (fun _ hOk => ?_) fun failure' hFailure' => ?_
      · rw [hFailure] at hOk
        cases hOk
      · rw [hFailure] at hFailure'
        injection hFailure' with hSame
        rw [← hSame]
        exact hOn (fun _ => hText) rfl
    · rename_i hNone
      exact hOn (fun hSome => absurd hSome hNone) rfl
  | announced round response hookError =>
    show Q (if _ then _ else _)
    split
    · rename_i hCalls
      exact hOn (h hCalls) rfl
    · exact hBranch (hOn trivial rfl) (hOn trivial rfl)
  | marking round calls hookError | gathered round hookError records => exact hOn h rfl
  | marked round calls hookError | recorded round hookError =>
    exact published_rule (P := Q) (fun _ => hOn h rfl) fun _ _ => hOn trivial rfl
  | dispatching round calls hookError | saving round hookError =>
    exact saved_rule (P := Q) (fun _ => hOn h rfl) fun _ _ => hOn trivial rfl
  | cleared round calls hookError =>
    have hText : hookError ≠ "" := h
    refine polled_rule (P := Q) (fun _ => hOn h rfl) ?_
    rw [if_pos hText]
    exact hOn h rfl
  | projecting round hookError =>
    exact checked_rule (P := Q) (fun _ _ => hOn h rfl) fun _ _ => hOn trivial rfl
  | projected round hookError =>
    have hText : hookError ≠ "" := h
    show Q (if hookError ≠ "" then _ else _)
    rw [if_pos hText]
    exact hOn trivial rfl
  | executing round calls | settled round | editing round | edited round | stepSaving round
  | stepSaved round | deciding round => exact absurd h id
  | returned => exact absurd (Or.inl rfl) hRunning
  | escaped failure => exact absurd (Or.inr ⟨failure, rfl⟩) hRunning
  | _ =>
    first
      | exact hOn trivial rfl
      | exact hBranch (hOn trivial rfl) (hOn trivial rfl)
      | exact checked_rule (P := Q) (fun _ _ => hOn trivial rfl) fun _ _ => hOn trivial rfl
      | exact polled_rule (P := Q) (fun _ => hOn trivial rfl) (hOn trivial rfl)
      | exact published_rule (P := Q) (fun _ => hOn trivial rfl) fun _ _ => hOn trivial rfl
      | exact saved_rule (P := Q) (fun _ => hOn trivial rfl) fun _ _ => hOn trivial rfl
      | exact called_rule (P := Q) (fun _ _ => hOn trivial rfl) fun _ _ => hOn trivial rfl
      | exact editedBy_rule (P := Q) (hOn trivial rfl) (fun _ _ _ => hOn trivial rfl)
          fun _ _ => hOn trivial rfl

/-! ## Asking for compaction -/

/-- The points after the decision how a run has ended. -/
def Point.decided : Point → Bool
  | .ended | .settling | .finishing | .finishFailed _ | .finished | .finalSaving | .returned
  | .escaped _ => true
  | _ => false

/-- A run asks for compaction at its end only, and then every call has its result. -/
def HandsOver (c : Config W) : Prop :=
  c.run.result.status = .autoCompactRequired → c.point.decided = true ∧ Closed .ready c.run.state

theorem HandsOver.not_asked {c : Config W} (h : c.run.result.status ≠ .autoCompactRequired) :
    HandsOver c := fun hAsked => absurd hAsked h

theorem Closed.settle {s : RunState W} (h : Closed .ready s.state) :
    Closed .ready s.settle.state := by
  obtain ⟨hRender, hTurns, p, hLoop, hPhase, hNone⟩ := h
  refine ⟨hRender, hTurns, { p with
    phase := settlePhase p.phase
    status := progressStatus s.result.status
    error := s.result.error }, ?_, ?_, hNone⟩
  · show s.state.loop.map _ = _
    rw [hLoop]
    rfl
  · show settlePhase p.phase = .ready
    rw [hPhase]
    rfl

/-- **One operation keeps that.** -/
theorem step_handsOver (c : Config W) (hSound : SoundAt c) (h : HandsOver c) :
    HandsOver (step env options message c) := by
  obtain ⟨p, s⟩ := c
  have hSame : ∀ {q : Point} {s' : RunState W}, p.decided = false → s'.result = s.result →
      HandsOver ⟨q, s'⟩ := by
    intro q s' hOpen hResult hAsked
    rw [show (Config.mk q s').run.result = s.result from hResult] at hAsked
    have hDecided : p.decided = true := (h hAsked).1
    rw [hOpen] at hDecided
    cases hDecided
  have hTail : ∀ {q : Point} {s' : RunState W}, q.decided = true → s'.result = s.result →
      s'.state = s.state → HandsOver ⟨q, s'⟩ := by
    intro q s' hDecided hResult hState hAsked
    rw [show (Config.mk q s').run.result = s.result from hResult] at hAsked
    refine ⟨hDecided, ?_⟩
    rw [show (Config.mk q s').run.state = s.state from hState]
    exact (h hAsked).2
  cases p with
  | declining | entering | cancelling => exact .not_asked (by simp [step, RunState.withStatus])
  | started =>
    cases message with
    | none => exact hSame rfl rfl
    | some m =>
      exact called_rule (P := HandsOver) (fun _ _ => hSame rfl rfl) fun _ _ => hSame rfl rfl
  | unanswered failure | counting round response =>
    intro hAsked
    exact absurd (h hAsked).1 (by simp [Point.decided])
  | responded round response =>
    show HandsOver (if _ then _ else _)
    split
    · exact hSame rfl rfl
    · exact checked_rule (P := HandsOver) (fun _ _ => hSame rfl rfl) fun _ _ => hSame rfl rfl
  | announced round response hookError =>
    show HandsOver (if _ then _ else _)
    split
    · exact hSame rfl rfl
    · split
      · exact hSame rfl rfl
      · exact .not_asked (by simp [RunState.withStatus])
  | cleared round calls hookError =>
    exact polled_rule (P := HandsOver) (fun _ => hSame rfl rfl) (hSame rfl rfl)
  | deciding round =>
    apply deciding_rule (P := HandsOver)
    · intro reason _
      exact fun _ => ⟨rfl, hSound.2⟩
    · intro _
      exact hSame rfl rfl
  | failed failure =>
    show HandsOver (if _ then _ else _)
    split
    · exact hSame rfl rfl
    · exact .not_asked (by simp)
  | ended =>
    show HandsOver (if _ then _ else _)
    split
    · exact hTail rfl rfl rfl
    · exact hTail rfl rfl rfl
  | settling => exact fun hAsked => ⟨rfl, (h hAsked).2.settle⟩
  | finishing =>
    refine editedBy_rule (P := HandsOver) (hTail rfl rfl rfl) (fun edited w hValid => ?_)
      fun _ _ => hTail rfl rfl rfl
    exact fun hAsked => ⟨rfl, (h hAsked).2.edit hValid⟩
  | finishFailed failure =>
    exact .not_asked (by simp [step, RunState.failFinish, RunState.withProgress, finishFailure])
  | finished =>
    exact published_rule (P := HandsOver) (fun _ => hTail rfl rfl rfl) fun _ _ =>
      hTail rfl rfl rfl
  | finalSaving =>
    exact saved_rule (P := HandsOver) (fun _ => hTail rfl rfl rfl) fun _ _ => hTail rfl rfl rfl
  | returned | escaped failure => exact h
  | _ =>
    first
      | exact hSame rfl rfl
      | (show HandsOver (if _ then _ else _); split <;> exact hSame rfl rfl)
      | (show HandsOver (if _ then _ else _)
         split
         · exact published_rule (P := HandsOver) (fun _ => hSame rfl rfl) fun _ _ => hSame rfl rfl
         · exact hSame rfl rfl)
      | exact checked_rule (P := HandsOver) (fun _ _ => hSame rfl rfl) fun _ _ => hSame rfl rfl
      | exact polled_rule (P := HandsOver) (fun _ => hSame rfl rfl) (hSame rfl rfl)
      | exact published_rule (P := HandsOver) (fun _ => hSame rfl rfl) fun _ _ => hSame rfl rfl
      | exact saved_rule (P := HandsOver) (fun _ => hSame rfl rfl) fun _ _ => hSame rfl rfl
      | exact called_rule (P := HandsOver) (fun _ _ => hSame rfl rfl) fun _ _ => hSame rfl rfl
      | exact editedBy_rule (P := HandsOver) (hSame rfl rfl) (fun _ _ _ => hSame rfl rfl)
          fun _ _ => hSame rfl rfl

end Steps

end SimplexAgent.Loop
