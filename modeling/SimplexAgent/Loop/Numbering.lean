import SimplexAgent.Loop.Changes
import SimplexAgent.Loop.ContextStatistic

/-!
# Commit numbers

A response is committed under the next commit number, and the number stays with its
step. `Numbering` says what a change of the conversation does to the numbered responses
and to the counter: a commit appends one of each, a hook may edit the responses but not
the counter, everything else leaves both alone.
-/

namespace SimplexAgent.Loop

open Dataclass
open Loop.ContextStatistic (steps committed)
open Verified.Tables (bind_ok)

variable {s s' : AgentInputState}

/-- The responses of a conversation with their commit numbers, in order. -/
def numbered (s : AgentInputState) : List (UInt64 × MessageItem) :=
  (steps s).map fun step => (step.commitSequence, step.modelResponse)

theorem numbered_of_turns (h : s'.turns = s.turns) : numbered s' = numbered s := by
  unfold numbered steps
  rw [h]

theorem committed_of_loop {s : AgentInputState} {p : LoopProgress} (h : s.loop = some p) :
    committed s = p.committedResponseSequence := by
  unfold committed
  rw [h]
  rfl

/-! ## Integration and projection -/

theorem numbered_accept {s : AgentInputState} {m : MessageItem} (h : isUserMessage m = true) :
    numbered (modelIntegrate s m) = numbered s ∧ (modelIntegrate s m).extras = s.extras ∧
      committed (modelIntegrate s m) = committed s := by
  simp only [isUserMessage, decide_eq_true_eq] at h
  rw [modelIntegrate_userInput h.1]
  exact ⟨by simp [numbered, steps], rfl, rfl⟩

theorem turns_cases (turns : List UserLoopStep) :
    turns = [] ∨ (∃ ts turn, turns = ts ++ [turn] ∧ turn.agentLoopStep = []) ∨
      ∃ ts turn ss step, turns = ts ++ [turn] ∧ turn.agentLoopStep = ss ++ [step] := by
  rcases List.eq_nil_or_concat turns with hNil | ⟨ts, turn, hTurns⟩
  · exact Or.inl hNil
  rw [List.concat_eq_append] at hTurns
  rcases List.eq_nil_or_concat turn.agentLoopStep with hNil | ⟨ss, step, hSteps⟩
  · exact Or.inr (Or.inl ⟨ts, turn, hTurns, hNil⟩)
  · rw [List.concat_eq_append] at hSteps
    exact Or.inr (Or.inr ⟨ts, turn, ss, step, hTurns, hSteps⟩)

theorem project_needs_step {record : InvokeReturn} {rest : List InvokeReturn}
    (ts : List UserLoopStep) (turn : UserLoopStep)
    (hPending : (progress s).pendingResults = record :: rest)
    (hNext : (modelIntegrate s (resultItem record)).turns = ts ++ [{ turn with agentLoopStep := [{ invokeReturns := some [resultItem record] }] }]) :
    project s ≠ .ok s' := by
  intro h
  obtain ⟨_, hValid, -⟩ := bind_ok h
  have hSteps : ({ turn with agentLoopStep := [{ invokeReturns := some [resultItem record] }] } :
      UserLoopStep).agentLoopStep = [] ++ [{ invokeReturns := some [resultItem record] }] := rfl
  obtain ⟨returns, hFold, -⟩ := foldl_resultItem rest hNext hSteps
  rw [hPending, List.foldl_cons, hFold] at hValid
  have hStep := validateSteps_last (validateTurns_last (validateStateStructure_turns hValid))
  have hResponse := (validateStep_sound hStep).1.1
  cases hResponse

/-- **Projection keeps the numbered responses.** -/
theorem numbered_project (h : project s = .ok s') :
    numbered s' = numbered s ∧ s'.extras = s.extras ∧ committed s' = committed s := by
  cases hPending : (progress s).pendingResults with
  | nil =>
    obtain ⟨_, -, hEq⟩ := bind_ok h
    injection hEq with hEq
    subst hEq
    rw [hPending]
    refine ⟨numbered_of_turns rfl, rfl, ?_⟩
    cases hLoop : s.loop <;> simp [committed, hLoop]
  | cons record rest =>
    rcases turns_cases s.turns with hNil | ⟨ts, turn, hTurns, hNone⟩ |
      ⟨ts, turn, ss, step, hTurns, hSteps⟩
    · refine absurd h (project_needs_step [] {} hPending ?_)
      simp [modelIntegrate, resultItem, hNil, updateLast]
    · refine absurd h (project_needs_step ts turn hPending ?_)
      simp [modelIntegrate, resultItem, hTurns, updateLast_concat, hNone, updateLast]
    · obtain ⟨returns, hFold, -⟩ := foldl_resultItem (progress s).pendingResults hTurns hSteps
      obtain ⟨_, -, hEq⟩ := bind_ok h
      injection hEq with hEq
      subst hEq
      rw [hFold]
      refine ⟨?_, rfl, ?_⟩
      · simp [numbered, steps, hTurns, hSteps]
      · cases hLoop : s.loop <;> simp [committed, hLoop]

theorem numbered_recover (h : recover s = .ok s') :
    numbered s' = numbered s ∧ s'.extras = s.extras ∧ committed s' = committed s := by
  unfold recover at h
  split at h
  · injection h with h
    subst h
    exact ⟨rfl, rfl, rfl⟩
  · split at h
    · cases h
    · split at h
      · cases h
      · split at h
        · split at h
          · cases h
          · obtain ⟨_, -, h⟩ := bind_ok h
            exact numbered_project h
        · injection h with h
          subst h
          exact ⟨rfl, rfl, rfl⟩

theorem flatMap_commit (turns : List UserLoopStep) (response : MessageItem) (sequence : UInt64) :
    (updateLast {} (fun turn =>
        { turn with
          agentLoopStep := updateLast {} (fun step => { step with commitSequence := sequence })
            turn.agentLoopStep })
        (updateLast {} (fun turn =>
          { turn with agentLoopStep := turn.agentLoopStep ++ [{ modelResponse := response }] })
          turns)).flatMap UserLoopStep.agentLoopStep =
      turns.flatMap UserLoopStep.agentLoopStep ++
        [{ modelResponse := response, commitSequence := sequence }] := by
  rcases List.eq_nil_or_concat turns with rfl | ⟨ts, turn, rfl⟩
  · rfl
  · simp [updateLast_concat]

/-- A response is committed under the next number. -/
structure Advances (s s' : AgentInputState) (response : MessageItem) : Prop where
  counter : (committed s').toNat = (committed s).toNat + 1
  appended : numbered s' = numbered s ++ [(committed s', response)]
  extras : s'.extras = s.extras
  type : response.type = .modelResponse

/-- **A commit advances the counter by one** and appends the response under its value. -/
theorem integrateResponse_advances {response : MessageItem} (hSound : SoundResponse response)
    (hLoop : s.loop.isSome) (h : integrateResponse s response = .ok s') :
    Advances s s' response := by
  obtain ⟨p, hLoop⟩ := Option.isSome_iff_exists.mp hLoop
  unfold integrateResponse at h
  split at h
  · cases h
  rename_i hOverflow
  simp only [modelIntegrate, hSound.1] at h
  split at h
  · injection h with hEq
    subst hEq
    simp only [progress, hLoop, Option.getD_some] at hOverflow ⊢
    refine ⟨?_, ?_, rfl, hSound.1⟩
    · rw [committed_of_loop hLoop, committed_of_loop rfl, UInt64.toNat_add]
      have hLt := p.committedResponseSequence.toNat_lt
      have hNe : p.committedResponseSequence.toNat ≠ 18446744073709551615 := fun hEq =>
        hOverflow (UInt64.toNat_inj.mp hEq)
      show (_ + 1) % 2 ^ 64 = _
      omega
    · rw [committed_of_loop rfl]
      unfold numbered steps
      rw [flatMap_commit]
      simp
  · cases h

/-! ## What a change does to the numbers -/

variable {W : Type}

/-- The effect of a change on the numbered responses, the counter and the extras. -/
inductive Numbering (env : Env W) (s s' : AgentInputState) : List MessageItem → Prop
  | kept (hNumbered : numbered s' = numbered s) (hCounter : committed s' = committed s)
      (hExtras : s'.extras = s.extras) : Numbering env s s' []
  | advanced {response : MessageItem} (h : Advances s s' response) : Numbering env s s' [response]
  | context {w : W} {context : ModelContext}
      (h : (env.beforeModel s ⟨s.systemPrompt, s.tools, s.extras⟩ w).1 = .ok context)
      (hNumbered : numbered s' = numbered s) (hCounter : committed s' = committed s)
      (hExtras : s'.extras = context.extras) : Numbering env s s' []
  | edited {event : EditEvent} {w w' : W} (h : env.edit event s w = ((.ok (), s'), w'))
      (hCounter : committed s' = committed s) : Numbering env s s' []

theorem committed_edit {edited s : AgentInputState} (h : validateStateEdit edited s = .ok ()) :
    committed edited = committed s := by
  cases hLoop : s.loop with
  | none =>
    unfold validateStateEdit at h
    rw [hLoop] at h
    cases hEdited : edited.loop <;> rw [hEdited] at h <;> cases h
  | some p =>
    obtain ⟨q, hEdited, -, -, -, hSequence, -⟩ := validateStateEdit_ok hLoop h
    rw [committed_of_loop hLoop, committed_of_loop hEdited, hSequence]

/-- **Every change is of one of these kinds.** -/
theorem Change.numbering {env : Env W} {responses : List MessageItem}
    (h : Change env s s' responses) : Numbering env s s' responses := by
  cases h with
  | same => exact .kept rfl rfl rfl
  | progress f hSequence =>
    refine .kept (numbered_of_turns rfl) ?_ rfl
    unfold ContextStatistic.committed
    cases s.loop <;> simp [hSequence]
  | admitted => exact .kept (numbered_of_turns rfl) rfl rfl
  | recovered h =>
    obtain ⟨hNumbered, hExtras, hCounter⟩ := numbered_recover h
    exact .kept hNumbered hCounter hExtras
  | accepted h =>
    obtain ⟨hNumbered, hExtras, hCounter⟩ := numbered_accept h
    exact .kept hNumbered hCounter hExtras
  | context h => exact .context h (numbered_of_turns rfl) rfl rfl
  | committed hSound hLoop h => exact .advanced (integrateResponse_advances hSound hLoop h)
  | projected h =>
    obtain ⟨hNumbered, hExtras, hCounter⟩ := numbered_project h
    exact .kept hNumbered hCounter hExtras
  | edited h hValid => exact .edited h (committed_edit hValid)

end SimplexAgent.Loop
