import SimplexAgent.Core.ApplicationTrace
import SimplexAgent.Loop.Numbering

/-!
# Commit numbers over the life of a worker

The counter of committed responses lives in a progress record that every admission
writes anew, that a summary copies and that a replacement takes over. Whatever happens
to the record, the counter is its first value plus the number of responses committed
since, and the responses a conversation retains carry increasing numbers below it.
-/

namespace SimplexAgent.Core

open Dataclass Loop
open Loop.ContextStatistic (steps committed update_frame)

/-! ## Numbers of retained responses -/

def commitSequences (s : AgentInputState) : List UInt64 := (numbered s).map Prod.fst

/-- Numbers increase, and the counter is not behind them. -/
structure Sequenced (s : AgentInputState) : Prop where
  ordered : (commitSequences s).Pairwise (· < ·)
  bounded : ∀ n ∈ commitSequences s, n ≤ committed s

theorem commitSequences_of_numbered {s s' : AgentInputState} (h : numbered s' = numbered s) :
    commitSequences s' = commitSequences s := by
  unfold commitSequences
  rw [h]

theorem Sequenced.sublist {s s' : AgentInputState} (h : Sequenced s)
    (hSteps : (commitSequences s').Sublist (commitSequences s))
    (hCounter : committed s' = committed s) : Sequenced s' := by
  refine ⟨h.ordered.sublist hSteps, fun n hn => ?_⟩
  rw [hCounter]
  exact h.bounded n (hSteps.subset hn)

theorem Sequenced.same {s s' : AgentInputState} (h : Sequenced s)
    (hSteps : numbered s' = numbered s) (hCounter : committed s' = committed s) : Sequenced s' :=
  h.sublist (by rw [commitSequences_of_numbered hSteps]) hCounter

theorem Sequenced.advance {s s' : AgentInputState} {response : MessageItem} (h : Sequenced s)
    (hAdvance : Advances s s' response) : Sequenced s' := by
  have hNumbers : commitSequences s' = commitSequences s ++ [committed s'] := by
    unfold commitSequences
    rw [hAdvance.appended, List.map_append]
    rfl
  have hBelow : ∀ n ∈ commitSequences s, n < committed s' := by
    intro n hn
    have hLe := h.bounded n hn
    rw [UInt64.le_iff_toNat_le] at hLe
    rw [UInt64.lt_iff_toNat_lt, hAdvance.counter]
    omega
  refine ⟨?_, fun n hn => ?_⟩
  · rw [hNumbers, List.pairwise_append]
    refine ⟨h.ordered, List.pairwise_singleton _ _, fun n hn m hm => ?_⟩
    rw [List.mem_singleton.mp hm]
    exact hBelow n hn
  · rw [hNumbers, List.mem_append, List.mem_singleton] at hn
    rcases hn with hOld | hNew
    · exact UInt64.le_of_lt (hBelow n hOld)
    · rw [hNew]
      exact UInt64.le_refl _

/-! ## One change -/

section Life

variable {Ω : Type} {host : Host Ω} {config : Configuration}
variable {s s' : AgentInputState} {response : MessageItem} {c : Config (Desk Ω)}

/-- Hooks do not touch committed steps, except that they may remove some. -/
def LeavesSteps (host : Host Ω) : Prop :=
  ∀ event s edited world world', host.edit event s world = ((.ok (), edited), world') →
    (commitSequences edited).Sublist (commitSequences s)

theorem countUpdate_frame (h : countUpdate host config s = .ok s') :
    s' = { s with extras := s'.extras } :=
  update_frame h

theorem numbered_countUpdate (h : countUpdate host config s = .ok s') : numbered s' = numbered s :=
  numbered_of_turns (by rw [countUpdate_frame h])

theorem change_numbers {env : Env (Desk Ω)} {responses : List MessageItem}
    (hEdit : ∀ event d d', env.edit event s d = ((.ok (), s'), d') → (commitSequences s').Sublist (commitSequences s))
    (h : Change env s s' responses) :
    (∃ response, responses = [response] ∧ Advances s s' response) ∨
      responses = [] ∧ (commitSequences s').Sublist (commitSequences s) ∧
        committed s' = committed s := by
  cases h.numbering with
  | kept hNumbered hCounter hExtras | context h hNumbered hCounter hExtras =>
    exact Or.inr ⟨rfl, by rw [commitSequences_of_numbered hNumbered], hCounter⟩
  | advanced hAdvance => exact Or.inl ⟨_, rfl, hAdvance⟩
  | edited hEdited hCounter => exact Or.inr ⟨rfl, hEdit _ _ _ hEdited, hCounter⟩

theorem workerEnv_edit_numbers (hHooks : LeavesSteps host) {event : EditEvent} {d d' : Desk Ω}
    (h : (workerEnv host config).edit event s d = ((.ok (), s'), d')) :
    (commitSequences s').Sublist (commitSequences s) := by
  obtain ⟨counted, edited, world, time, hCounted, hEdited, rfl⟩ := workerEnv_edit_ok h
  have hNumbers := hHooks _ _ _ _ _ hEdited
  rw [commitSequences_of_numbered (numbered_countUpdate hCounted)] at hNumbers
  exact hNumbers

theorem summaryEnv_edit_numbers {event : EditEvent} {d d' : Desk Ω}
    (h : (summaryEnv host config).edit event s d = ((.ok (), s'), d')) :
    (commitSequences s').Sublist (commitSequences s) := by
  rw [commitSequences_of_numbered (numbered_countUpdate (summaryEnv_edit_ok h))]

/-! ## The invariant -/

/-- `log` counts the responses committed since the counter stood at `base`. -/
def Numbered (base : Nat) (log : List MessageItem) (s : AgentInputState) : Prop :=
  Sequenced s ∧ (committed s).toNat = base + log.length

theorem Numbered.change {env : Env (Desk Ω)} {base : Nat} {log responses : List MessageItem}
    (hEdit : ∀ event d d', env.edit event s d = ((.ok (), s'), d') → (commitSequences s').Sublist (commitSequences s))
    (h : Numbered base log s) (hChange : Change env s s' responses) :
    Numbered base (log ++ responses) s' := by
  rcases change_numbers hEdit hChange with ⟨response, rfl, hAdvance⟩ | ⟨rfl, hSteps, hCounter⟩
  · refine ⟨h.1.advance hAdvance, ?_⟩
    rw [hAdvance.counter, h.2, List.length_append, List.length_singleton]
    omega
  · refine ⟨h.1.sublist hSteps hCounter, ?_⟩
    rw [hCounter, h.2, List.append_nil]

theorem replacementOf_numbers {plan : CompactPlan} {live draft replacement : AgentInputState}
    {time summary : String}
    (h : replacementOf host config plan live draft time summary = .ok replacement) :
    numbered replacement = [] ∧ committed replacement = committed draft := by
  obtain ⟨status, extras, fresh, -, -, hTurns, hLoop, -, hCounted⟩ := replacementOf_ok h
  rw [numbered_countUpdate hCounted, countUpdate_frame hCounted]
  constructor
  · simp [numbered, steps, hTurns]
  · show committed fresh = committed draft
    unfold committed
    rw [hLoop]

/-- **The numbers of a conversation survive everything a worker does.** -/
theorem keeps_numbered (hHooks : LeavesSteps host) (base : Nat) : Keeps host config (Numbered base)
      (fun log drafts _ c => Numbered base (log ++ drafts) c.run.state)
      (fun log drafts _ replacement => Numbered base (log ++ drafts) replacement) where
  touched time h := ⟨h.1.same (numbered_of_turns rfl) rfl, h.2⟩
  changed hChange h := h.change (fun _ _ _ => workerEnv_edit_numbers hHooks) hChange
  copied d h := by
    rw [List.append_nil]
    exact ⟨h.1.same (numbered_of_turns rfl) rfl, h.2⟩
  drafted message _ h hSound hPrepared := by
    rw [← List.append_assoc]
    exact h.change (fun _ _ _ => summaryEnv_edit_numbers) (step_change _ hSound hPrepared)
  replaced _ h _ _ _ hMade := by
    obtain ⟨hNone, hCounter⟩ := replacementOf_numbers hMade
    have hSequences : commitSequences _ = [] := congrArg (List.map Prod.fst) hNone
    refine ⟨⟨?_, ?_⟩, by rw [hCounter, h.2]⟩
    · rw [hSequences]
      exact List.Pairwise.nil
    · rw [hSequences]
      simp
  adopted _ h := h

/-! ## Sessions -/

/-- The run that a session steps, on the conversation or on a copy of it. -/
def Session.segment? : Session Ω → Option (Config (Desk Ω))
  | .running _ _ c | .summarizing _ _ _ _ _ c => some c
  | _ => none

theorem committing_cases (h : committing c = [response]) :
    ∃ round, c.point = .committing round response := by
  unfold committing at h
  split at h
  · rename_i round response' hPoint
    split at h
    · injection h with h
      subst h
      exact ⟨round, hPoint⟩
    · cases h
  · cases h

variable (host config) in
theorem Session.step_committing {s : Session Ω} {round : Nat} (hSegment : s.segment? = some c)
    (hPoint : c.point = .committing round response) :
    ∃ env options message, (s.step host config).segment? =
      some (Loop.step env options message c) := by
  obtain ⟨point, run⟩ := c
  dsimp only at hPoint
  subst hPoint
  cases s with
  | running a message c | summarizing a mode segment plan live c =>
    injection hSegment with hSegment
    subst hSegment
    exact ⟨_, _, _, rfl⟩
  | _ => cases hSegment

theorem step_advances {env : Env (Desk Ω)} {options : Options} {message : Option MessageItem}
    {round : Nat} (hSound : SoundAt c) (hPoint : c.point = .committing round response)
    (h : committing c = [response]) :
    Advances c.run.state (Loop.step env options message c).run.state response := by
  have hPrepared : Prepared env c := by
    unfold Prepared
    rw [hPoint]
    trivial
  have hChange : Change env c.run.state (Loop.step env options message c).run.state
      (committing c) := step_change c hSound hPrepared
  rw [h] at hChange
  cases hChange.numbering with
  | advanced hAdvance => exact hAdvance

theorem integrateResponse_exhausted {s : AgentInputState}
    (hLast : committed s = 18446744073709551615) :
    integrateResponse s response = refuse "model response commit sequence overflow" := by
  have hProgress : (progress s).committedResponseSequence = 18446744073709551615 := by
    rw [← hLast]
    unfold progress committed
    cases s.loop <;> rfl
  unfold integrateResponse
  rw [if_pos hProgress]

theorem step_exhausted (env : Env (Desk Ω)) (options : Options) (message : Option MessageItem)
    {run : RunState (Desk Ω)} (round : Nat) (response : MessageItem)
    (hLast : committed run.state = 18446744073709551615) :
    Loop.step env options message ⟨.committing round response, run⟩ =
      ⟨.failed { what := "model response commit sequence overflow" }, run⟩ := by
  show checked (integrateResponse run.state response) run _ = _
  rw [integrateResponse_exhausted hLast]
  rfl

theorem committing_exhausted {run : RunState (Desk Ω)} {round : Nat}
    (hLast : committed run.state = 18446744073709551615) :
    committing ⟨.committing round response, run⟩ = [] := by
  simp only [committing, integrateResponse_exhausted hLast]
  rfl

theorem Session.record_length (s : Session Ω) (l : Ledger) :
    l.committed.length ≤ (s.record host l).committed.length := by
  unfold Session.record
  split
  · simp
  · exact Nat.le_refl _
  · exact Nat.le_refl _
  · split
    · simp
    · exact Nat.le_refl _
  · exact Nat.le_refl _

theorem Kept.segment {base : Nat} {s : Session Ω} {l : Ledger}
    (h : Kept host config (Numbered base) (fun log drafts _ c => Numbered base (log ++ drafts) c.run.state) (fun log drafts _ replacement => Numbered base (log ++ drafts) replacement) s l)
    (hSegment : s.segment? = some c) : Sequenced c.run.state ∧ SoundAt c := by
  cases s with
  | running a message c =>
    injection hSegment with hSegment
    subst hSegment
    exact ⟨h.1.1, h.2.1⟩
  | summarizing a mode segment plan live c =>
    injection hSegment with hSegment
    subst hSegment
    exact ⟨h.2.1.1, h.2.2.1⟩
  | _ => cases hSegment

theorem Session.step_live_exhausted {s : Session Ω} {l : Ledger} {round : Nat}
    (hSegment : s.segment? = some c) (hPoint : c.point = .committing round response)
    (hLast : committed c.run.state = 18446744073709551615) : (s.step host config).segment? =
        some ⟨.failed { what := "model response commit sequence overflow" }, c.run⟩ ∧
      (s.step host config).live = s.live ∧ s.record host l = l := by
  obtain ⟨point, run⟩ := c
  dsimp only at hPoint hLast
  subst hPoint
  cases s with
  | running a message c =>
    injection hSegment with hSegment
    subst hSegment
    have hStep := step_exhausted (workerEnv host config) (runOptions config) message round
      response hLast
    refine ⟨congrArg some hStep, congrArg (fun c => c.run.state) hStep, ?_⟩
    show ({ l with committed := l.committed ++ committing _ } : Ledger) = l
    rw [committing_exhausted hLast, List.append_nil]
  | summarizing a mode segment plan live c =>
    injection hSegment with hSegment
    subst hSegment
    have hStep := step_exhausted (summaryEnv host config) summaryOptions
      (some (instruction config mode plan)) round response hLast
    refine ⟨congrArg some hStep, rfl, ?_⟩
    show ({ l with drafted := l.drafted ++ committing _ } : Ledger) = l
    rw [committing_exhausted hLast, List.append_nil]
  | _ => cases hSegment

/-- **Commit numbers over the life of a worker.** In every session the counter is its first
value plus the number of responses committed since, it never goes back, and it stays where
it is in an operation that commits nothing: a failed or cancelled exchange, and a compaction
that is not committed, leave it alone. Retained steps carry increasing numbers, in the
conversation and in the copy a summary works on. A response is committed under the previous
number plus one, and at the last number it is refused and nothing changes. -/
theorem Session.commit_numbers (hHooks : LeavesSteps host) {w : Worker Ω}
    (hStart : Sequenced w.state) {s : Session Ω} {l : Ledger}
    (h : Session.Traces host config w [] s l) : Sequenced s.live ∧
      (committed s.live).toNat = (committed w.state).toNat + l.committed.length ∧
      committed s.live ≤ committed (s.step host config).live ∧
      ((s.record host l).committed = l.committed →
        committed (s.step host config).live = committed s.live) ∧
      (∀ c, s.segment? = some c → Sequenced c.run.state) ∧
      (∀ c response, s.segment? = some c → committing c = [response] →
        ∃ c', (s.step host config).segment? = some c' ∧
          Advances c.run.state c'.run.state response) ∧
      (∀ c round response, s.segment? = some c → c.point = .committing round response →
        committed c.run.state = 18446744073709551615 →
        (s.step host config).segment? =
            some ⟨.failed { what := "model response commit sequence overflow" }, c.run⟩ ∧
          (s.step host config).live = s.live ∧ s.record host l = l) := by
  have hFirst : Numbered (committed w.state).toNat [] w.state := ⟨hStart, rfl⟩
  have hKept := h.kept (keeps_numbered hHooks (committed w.state).toNat) hFirst
  have hNext := (h.step).kept (keeps_numbered hHooks (committed w.state).toNat) hFirst
  have hCount := hKept.1.2
  have hCountNext := hNext.1.2
  refine ⟨hKept.1.1, hCount, ?_, ?_, ?_, ?_, ?_⟩
  · rw [UInt64.le_iff_toNat_le, hCount, hCountNext]
    exact Nat.add_le_add_left (s.record_length l) _
  · intro hSame
    rw [← UInt64.toNat_inj, hCountNext, hSame, hCount]
  · exact fun c hSegment => (hKept.segment hSegment).1
  · intro c response hSegment hCommit
    obtain ⟨round, hPoint⟩ := committing_cases hCommit
    obtain ⟨env, options, message, hStep⟩ :=
      Session.step_committing host config hSegment hPoint
    exact ⟨_, hStep, step_advances (hKept.segment hSegment).2 hPoint hCommit⟩
  · exact fun c round response => Session.step_live_exhausted

end Life

theorem leavesSteps_metered : LeavesSteps meteredHost := by
  intro event s edited world world' h
  injection h with h
  injection h with _ h
  subst h
  exact List.Sublist.refl _

/-- Three responses over a compaction, and the counter at three. -/
theorem commit_numbers_compacted : LeavesSteps meteredHost ∧ Sequenced freshWorker.state ∧
      compactedLedger.committed.length = 3 ∧ (committed compactedSession.live).toNat = 3 := by
  have hStart : Sequenced freshWorker.state :=
    ⟨List.Pairwise.nil, by simp [commitSequences, numbered, steps, freshWorker]⟩
  have hLength : compactedLedger.committed.length = 3 := by
    simpa using congrArg List.length compactedSession_view.2.1
  have hCounter := (Session.commit_numbers leavesSteps_metered hStart compactedSession_traces).2.1
  rw [hLength] at hCounter
  exact ⟨leavesSteps_metered, hStart, hLength, hCounter⟩

end SimplexAgent.Core
