import SimplexAgent.Core.Confirmation

/-!
# Who may run

The calls of a batch, each somewhere between its security check and its record,
the scope they share, and everything that can happen between two of their waits:
a cancellation in its two steps, a reply, a timeout or a disconnection for one of
them, an exception on the way.

`CallSound` says for each place a call can be at what must have happened before.
A call that requires confirmation is at its body only after the policy, or a
reply to its own request, was settled ahead of the cancellation; otherwise it
ends with a record of the security check. Both are read off the run theorem.
-/

namespace SimplexAgent.Core

open Dataclass Tools

/-! ## The machine -/

/-- Where a call is: before its second phase, at the subscriber, settling the
policy, waiting for the peer, settling what came back, with the answer before it,
in its body, or at its end. -/
inductive CallPhase where
  | waiting
  | publishing
  | approving
  | exchanging (id : String)
  | replied (id : String) (reply : Except Thrown String)
  | answered (outcome : Tools.Outcome InvokeConfirmEvent)
  | invoking
  | finished (record : InvokeReturn)

/-- One settled call of the batch. `entered` remembers that the tool body was
reached. A tool may replace the security check. -/
structure ConfirmCall where
  query : InvokeQuery
  tool : Tool
  defaultCheck : Bool
  phase : CallPhase := .waiting
  entered : Bool := false

inductive CallEvent where
  | checks
  | overrides (outcome : Tools.Outcome (Bool × String))
  | confirms (identity : Except Thrown String)
  | settlesPolicy
  | exchanged (reply : Except Thrown String)
  | settlesReply
  | decides
  | returns (outcome : Tools.Outcome Content)

/-- What can happen to the batch: the two steps of `ConfirmationScope::cancel`, and
what happens to one of its calls. -/
inductive ConfirmEvent where
  | cancels
  | requestsStop
  | call (index : Nat) (event : CallEvent)

structure Confirmations where
  scope : Option ConfirmationScope
  calls : List ConfirmCall

/-- The call once its security check is over. -/
def ConfirmCall.proceed (call : ConfirmCall) (outcome : Tools.Outcome (Bool × String)) : ConfirmCall :=
  match Execution.checked call.query outcome with
  | .invoking => { call with phase := .invoking, entered := true }
  | .finished record => { call with phase := .finished record }
  | .checking => call

def ConfirmCall.check (call : ConfirmCall) : ConfirmCall :=
  match securityGate call.query with
  | some decision => call.proceed (.returned decision)
  | none => { call with phase := .publishing }

/-- Where the subscriber's first part leads. -/
def CallPhase.ofStart : ConfirmStart → CallPhase
  | .answered event => .answered (.returned event)
  | .approving => .approving
  | .exchanging id _ => .exchanging id
  | .threw thrown => .answered thrown.outcome

def ConfirmCall.step (config : ConfirmConfig) (scope : Option ConfirmationScope)
    (call : ConfirmCall) (event : CallEvent) : Option ConfirmCall :=
  match call.phase, event with
  | .waiting, .checks => if call.defaultCheck then some call.check else none
  | .waiting, .overrides outcome => if call.defaultCheck then none else some (call.proceed outcome)
  | .publishing, .confirms identity =>
    some { call with phase := .ofStart (confirmStart config scope call.query identity) }
  | .approving, .settlesPolicy =>
    scope.map fun scope =>
      { call with phase := .answered (.returned (settlePolicy scope call.query)) }
  | .exchanging id, .exchanged reply => some { call with phase := .replied id reply }
  | .replied id reply, .settlesReply =>
    scope.map fun scope =>
      { call with phase := .answered (confirmReply config scope call.query id reply) }
  | .answered outcome, .decides => some (call.proceed (checkConfirmed true outcome))
  | .invoking, .returns outcome =>
    match Execution.invoked call.tool call.query outcome with
    | .finished record => some { call with phase := .finished record }
    | _ => none
  | _, _ => none

/-- One event of the batch. A cancellation takes the flag before it requests the
stop. -/
def Confirmations.step (config : ConfirmConfig) (s : Confirmations) :
    ConfirmEvent → Option Confirmations
  | .cancels =>
    s.scope.map fun scope => { s with scope := some { scope with stopping := true } }
  | .requestsStop =>
    s.scope.bind fun scope =>
      if scope.stopping then some { s with scope := some { scope with stopRequested := true } }
      else none
  | .call index event =>
    s.calls[index]?.bind fun call =>
      (call.step config s.scope event).map fun next =>
        { s with calls := s.calls.set index next }

def Confirmations.run (config : ConfirmConfig) (s : Confirmations) :
    List ConfirmEvent → Option Confirmations
  | [] => some s
  | event :: events => (s.step config event).bind fun next => next.run config events

/-- A batch of settled calls under a fresh scope, or without one. -/
def Confirmations.start (mode : Option ConfirmationMode)
    (calls : List (InvokeQuery × Tool × Bool)) : Confirmations where
  scope := mode.map fun mode => { mode := mode }
  calls := calls.map fun call =>
    { query := call.1, tool := call.2.1, defaultCheck := call.2.2 }

/-! ## What permits a call -/

variable {config : ConfirmConfig} {mode : Option ConfirmationMode} {events : List ConfirmEvent}

/-- The request about a call could be sent: there is an endpoint, and the encoded
request is within the budget. -/
def Sendable (config : ConfirmConfig) (query : InvokeQuery) (id : String) : Prop :=
  config.endpoint = true ∧ ∃ encoded, config.dump (confirmationRequest config id query) =
    .ok encoded ∧ encoded.utf8ByteSize ≤ 1024 * 1024

/-- The approving policy settled, or an approving reply that echoes the labels and
the identity of this request was settled, before the scope was cancelled. -/
def Permitted (config : ConfirmConfig) (mode : Option ConfirmationMode)
    (events : List ConfirmEvent) (i : Nat) (query : InvokeQuery) : Prop :=
  (mode = some .approve ∧ ∃ before after,
    events = before ++ .call i .settlesPolicy :: after ∧ .cancels ∉ before) ∨
  (mode = some .ask ∧ ∃ before after id wire reply,
    events = before ++ .call i .settlesReply :: after ∧ .cancels ∉ before ∧
    Sendable config query id ∧ .call i (.confirms (.ok id)) ∈ before ∧ .call i (.exchanged (.ok wire)) ∈ before ∧
    decodeReply config wire = .ok reply ∧ reply.Answers config id ∧ reply.approved = true)

theorem Permitted.append {i : Nat} {query : InvokeQuery}
    (hPermitted : Permitted config mode events i query) (more : List ConfirmEvent) :
    Permitted config mode (events ++ more) i query := by
  rcases hPermitted with ⟨hMode, before, after, hEvents, hBefore⟩ |
    ⟨hMode, before, after, id, wire, reply, hEvents, hRest⟩
  · refine Or.inl ⟨hMode, before, after ++ more, ?_, hBefore⟩
    rw [hEvents, List.append_assoc, List.cons_append]
  · refine Or.inr ⟨hMode, before, after ++ more, id, wire, reply, ?_, hRest⟩
    rw [hEvents, List.append_assoc, List.cons_append]

/-! ## What must have happened before -/

variable {scope : Option ConfirmationScope} {call : ConfirmCall}

/-- A call that requires confirmation and has not come to its body. -/
def Held (call : ConfirmCall) : Prop :=
  call.entered = false ∧ call.query.security = .requireConfirm

/-- The tool body was reached with leave. -/
def Cleared (config : ConfirmConfig) (mode : Option ConfirmationMode)
    (events : List ConfirmEvent) (i : Nat) (call : ConfirmCall) : Prop :=
  call.entered = true ∧ call.query.security ≠ .defaultDeny ∧
    (call.query.security = .requireConfirm → Permitted config mode events i call.query)

/-- For each place a call with the default check can be at, what must have
happened before. -/
def CallSound (config : ConfirmConfig) (mode : Option ConfirmationMode)
    (events : List ConfirmEvent) (i : Nat) (call : ConfirmCall) : Prop :=
  match call.phase with
  | .waiting => call.entered = false
  | .publishing => Held call
  | .approving => Held call ∧ mode = some .approve
  | .exchanging id => Held call ∧ mode = some .ask ∧ Sendable config call.query id ∧
      .call i (.confirms (.ok id)) ∈ events
  | .replied id reply => Held call ∧ mode = some .ask ∧ Sendable config call.query id ∧
      .call i (.confirms (.ok id)) ∈ events ∧ .call i (.exchanged reply) ∈ events
  | .answered outcome => Held call ∧ (Refused (checkConfirmed true outcome) ∨
        (∃ event, outcome = .returned event ∧ event.decision = .approved) ∧
          Permitted config mode events i call.query)
  | .invoking => Cleared config mode events i call
  | .finished record => Cleared config mode events i call ∨
      call.entered = false ∧ errorStage record = some .securityCheck ∧ record.query = call.query

theorem CallSound.append {i : Nat} (hSound : CallSound config mode events i call)
    (event : ConfirmEvent) : CallSound config mode (events ++ [event]) i call := by
  have hKept : ∀ {other}, other ∈ events → other ∈ events ++ [event] :=
    fun h => List.mem_append_left _ h
  have hCleared : Cleared config mode events i call →
      Cleared config mode (events ++ [event]) i call := fun h =>
    ⟨h.1, h.2.1, fun hSecurity => (h.2.2 hSecurity).append [event]⟩
  unfold CallSound at hSound ⊢
  split at hSound
  · exact hSound
  · exact hSound
  · exact hSound
  · exact ⟨hSound.1, hSound.2.1, hSound.2.2.1, hKept hSound.2.2.2⟩
  · obtain ⟨hHeld, hMode, hSendable, hIdentity, hExchanged⟩ := hSound
    exact ⟨hHeld, hMode, hSendable, hKept hIdentity, hKept hExchanged⟩
  · refine ⟨hSound.1, ?_⟩
    rcases hSound.2 with hRefused | ⟨hApproved, hPermitted⟩
    · exact Or.inl hRefused
    · exact Or.inr ⟨hApproved, hPermitted.append [event]⟩
  · exact hCleared hSound
  · rcases hSound with hDone | hRefused
    · exact Or.inl (hCleared hDone)
    · exact Or.inr hRefused

/-- A body that was reached was reached with leave. -/
theorem CallSound.cleared {i : Nat} (hSound : CallSound config mode events i call)
    (hEntered : call.entered = true) : Cleared config mode events i call := by
  have hNot : ¬ call.entered = false := by simp [hEntered]
  unfold CallSound at hSound
  split at hSound
  · exact absurd hSound hNot
  · exact absurd hSound.1 hNot
  · exact absurd hSound.1.1 hNot
  · exact absurd hSound.1.1 hNot
  · exact absurd hSound.1.1 hNot
  · exact absurd hSound.1.1 hNot
  · exact hSound
  · rcases hSound with hDone | hRefused
    · exact hDone
    · exact absurd hRefused.1 hNot

theorem CallSound.refused {i : Nat} (hSound : CallSound config mode events i call)
    (hEntered : call.entered = false) {record : InvokeReturn}
    (hPhase : call.phase = .finished record) :
    errorStage record = some .securityCheck ∧ record.query = call.query := by
  simp only [CallSound, hPhase] at hSound
  rcases hSound with hDone | hRefused
  · rw [hDone.1] at hEntered
    cases hEntered
  · exact hRefused.2

/-! ## One event of one call -/

section CallSteps

variable {config : ConfirmConfig} {mode : Option ConfirmationMode} {events : List ConfirmEvent}
variable {i : Nat} {call : ConfirmCall}

theorem proceed_sound {outcome : Tools.Outcome (Bool × String)} (hEntered : call.entered = false)
    (hCheck : Refused outcome ∨ (∃ decision, outcome = .returned decision ∧ decision.1 = true) ∧
      call.query.security ≠ .defaultDeny ∧
      (call.query.security = .requireConfirm → Permitted config mode events i call.query)) :
    CallSound config mode events i (call.proceed outcome) := by
  rcases hCheck with hRefused | ⟨⟨decision, rfl, hPassed⟩, hAllowed⟩
  · obtain ⟨record, hChecked, hStage, hQuery⟩ := checked_of_refused call.query hRefused
    simp only [ConfirmCall.proceed, hChecked, CallSound]
    exact Or.inr ⟨hEntered, hStage, hQuery⟩
  · simp only [ConfirmCall.proceed, checked_of_passed call.query hPassed, CallSound]
    exact ⟨rfl, hAllowed⟩

theorem check_sound (hEntered : call.entered = false) :
    CallSound config mode events i call.check := by
  unfold ConfirmCall.check securityGate
  cases hSecurity : call.query.security with
  | trusted =>
    refine proceed_sound hEntered (Or.inr ⟨⟨_, rfl, rfl⟩, ?_, ?_⟩)
    · rw [hSecurity]
      decide
    · intro hConfirm
      rw [hSecurity] at hConfirm
      cases hConfirm
  | defaultDeny => exact proceed_sound hEntered (Or.inl rfl)
  | requireConfirm => exact ⟨hEntered, hSecurity⟩

theorem confirmStart_sound {scope : Option ConfirmationScope} {identity : Except Thrown String}
    (hHeld : Held call) (hMode : scope.map ConfirmationScope.mode = mode) :
    CallSound config mode (events ++ [.call i (.confirms identity)]) i
      { call with phase := .ofStart (confirmStart config scope call.query identity) } := by
  have hDenied : ∀ reason, CallSound config mode (events ++ [.call i (.confirms identity)]) i
      { call with phase := .answered (.returned (deniedFor call.query reason)) } :=
    fun reason => ⟨hHeld, Or.inl rfl⟩
  unfold confirmStart
  cases scope with
  | none => exact hDenied _
  | some scope =>
    by_cases hStop : scope.stopRequested = true
    · simp only [hStop, if_true]
      exact hDenied _
    · simp only [hStop, Bool.false_eq_true, if_false]
      have hScope : some scope.mode = mode := hMode
      cases hPolicy : scope.mode with
      | deny => exact hDenied _
      | approve => exact ⟨hHeld, by rw [← hScope, hPolicy]⟩
      | ask =>
        have hAsk : mode = some .ask := by rw [← hScope, hPolicy]
        by_cases hEndpoint : config.endpoint = true
        · simp only [hEndpoint, if_true]
          unfold confirmRequest
          cases identity with
          | error thrown =>
            cases thrown <;> exact ⟨hHeld, Or.inl trivial⟩
          | ok id =>
            cases hDump : config.dump (confirmationRequest config id call.query) with
            | error thrown => cases thrown <;> simp only [hDump] <;> exact ⟨hHeld, Or.inl trivial⟩
            | ok encoded =>
              simp only [hDump]
              split
              · exact hDenied _
              · rename_i hSize
                exact ⟨hHeld, hAsk, ⟨hEndpoint, encoded, hDump, Nat.le_of_not_lt hSize⟩,
                  List.mem_append_right _ List.mem_cons_self⟩
        · simp only [hEndpoint, Bool.false_eq_true, if_false]
          exact hDenied _

theorem refused_of_not_approved {event : InvokeConfirmEvent} (h : event.decision ≠ .approved) :
    Refused (checkConfirmed true (.returned event)) := by
  cases hPassed : (decideConfirmed true event).1 with
  | false => exact hPassed
  | true => exact absurd ((decideConfirmed_passes_iff true event).mp hPassed) h

theorem settlePolicy_sound {scope : ConfirmationScope} (hHeld : Held call)
    (hMode : mode = some .approve) (hCancel : .cancels ∈ events → scope.stopping = true) :
    CallSound config mode (events ++ [.call i .settlesPolicy]) i
      { call with phase := .answered (.returned (settlePolicy scope call.query)) } := by
  refine ⟨hHeld, ?_⟩
  by_cases hApproved : (settlePolicy scope call.query).decision = .approved
  · have hBefore : .cancels ∉ events := by
      intro hMem
      rw [settlePolicy_approved hApproved] at hCancel
      cases hCancel hMem
    exact Or.inr ⟨⟨_, rfl, hApproved⟩, Or.inl ⟨hMode, events, [], rfl, hBefore⟩⟩
  · exact Or.inl (refused_of_not_approved hApproved)

theorem settleReply_sound {scope : ConfirmationScope} {id : String}
    {reply : Except Thrown String} (hHeld : Held call) (hMode : mode = some .ask)
    (hSendable : Sendable config call.query id) (hIdentity : .call i (.confirms (.ok id)) ∈ events)
    (hExchanged : .call i (.exchanged reply) ∈ events)
    (hCancel : .cancels ∈ events → scope.stopping = true) :
    CallSound config mode (events ++ [.call i .settlesReply]) i
      { call with phase := .answered (confirmReply config scope call.query id reply) } := by
  refine ⟨hHeld, ?_⟩
  cases hOutcome : confirmReply config scope call.query id reply with
  | returned event =>
    by_cases hApproved : event.decision = .approved
    · obtain ⟨hOpen, wire, found, hWire, hDecode, hAnswers, hYes⟩ :=
        confirmReply_approved hOutcome hApproved
      have hBefore : .cancels ∉ events := by
        intro hMem
        rw [hOpen] at hCancel
        cases hCancel hMem
      rw [hWire] at hExchanged
      exact Or.inr ⟨⟨event, rfl, hApproved⟩, Or.inr ⟨hMode, events, [], id, wire, found, rfl,
        hBefore, hSendable, hIdentity, hExchanged, hDecode, hAnswers, hYes⟩⟩
    · exact Or.inl (refused_of_not_approved hApproved)
  | failed e => exact absurd hOutcome (confirmReply_ne_failed config scope call.query id reply e)
  | threw what | unknown => exact Or.inl trivial

theorem callStep_sound {scope : Option ConfirmationScope} {event : CallEvent}
    {next : ConfirmCall} (hSound : CallSound config mode events i call)
    (hDefault : call.defaultCheck = true) (hMode : scope.map ConfirmationScope.mode = mode)
    (hCancel : ∀ found, scope = some found → .cancels ∈ events → found.stopping = true)
    (hStep : call.step config scope event = some next) :
    CallSound config mode (events ++ [.call i event]) i next := by
  unfold ConfirmCall.step at hStep
  split at hStep
  · rename_i hPhase
    simp only [CallSound, hPhase] at hSound
    rw [if_pos hDefault] at hStep
    rw [← Option.some.inj hStep]
    exact check_sound hSound
  · rw [if_pos hDefault] at hStep
    cases hStep
  · rename_i identity hPhase
    simp only [CallSound, hPhase] at hSound
    rw [← Option.some.inj hStep]
    exact confirmStart_sound hSound hMode
  · rename_i hPhase
    simp only [CallSound, hPhase] at hSound
    obtain ⟨found, hScope, rfl⟩ := Option.map_eq_some_iff.mp hStep
    exact settlePolicy_sound hSound.1 hSound.2 (hCancel found hScope)
  · rename_i id reply hPhase
    simp only [CallSound, hPhase] at hSound
    rw [← Option.some.inj hStep]
    obtain ⟨hHeld, hAsk, hSendable, hIdentity⟩ := hSound
    exact ⟨hHeld, hAsk, hSendable, List.mem_append_left _ hIdentity,
      List.mem_append_right _ List.mem_cons_self⟩
  · rename_i id reply hPhase
    simp only [CallSound, hPhase] at hSound
    obtain ⟨found, hScope, rfl⟩ := Option.map_eq_some_iff.mp hStep
    obtain ⟨hHeld, hAsk, hSendable, hIdentity, hExchanged⟩ := hSound
    exact settleReply_sound hHeld hAsk hSendable hIdentity hExchanged (hCancel found hScope)
  · rename_i outcome hPhase
    simp only [CallSound, hPhase] at hSound
    rw [← Option.some.inj hStep]
    refine proceed_sound hSound.1.1 ?_
    rcases hSound.2 with hRefused | ⟨⟨answer, rfl, hApproved⟩, hPermitted⟩
    · exact Or.inl hRefused
    · refine Or.inr ⟨⟨_, rfl, (decideConfirmed_passes_iff true answer).mpr hApproved⟩, ?_,
        fun _ => hPermitted.append _⟩
      rw [hSound.1.2]
      decide
  · rename_i outcome hPhase
    simp only [CallSound, hPhase] at hSound
    rw [← Option.some.inj hStep]
    exact Or.inl ⟨hSound.1, hSound.2.1, fun hSecurity => (hSound.2.2 hSecurity).append _⟩
  · cases hStep

end CallSteps

/-! ## Every call comes to its record -/

/-- A bound on the events a call has still before it. -/
def CallPhase.left : CallPhase → Nat
  | .waiting => 6
  | .publishing => 5
  | .approving => 4
  | .exchanging _ => 4
  | .replied _ _ => 3
  | .answered _ => 2
  | .invoking => 1
  | .finished _ => 0

theorem proceed_left (call : ConfirmCall) {outcome : Tools.Outcome (Bool × String)}
    (hLeft : 2 ≤ call.phase.left) : (call.proceed outcome).phase.left < call.phase.left := by
  have hRecord : ∀ query outcome, Execution.checked query outcome ≠ .checking := by
    intro query outcome hChecked
    unfold Execution.checked at hChecked
    split at hChecked <;> cases hChecked
  unfold ConfirmCall.proceed
  split
  · exact hLeft
  · exact Nat.lt_of_lt_of_le Nat.zero_lt_two hLeft
  · rename_i hChecked
    exact absurd hChecked (hRecord _ _)

theorem ofStart_left (start : ConfirmStart) : (CallPhase.ofStart start).left < 5 := by
  cases start <;> simp [CallPhase.ofStart, CallPhase.left]

theorem callStep_left {call next : ConfirmCall} {event : CallEvent}
    (hStep : call.step config scope event = some next) : next.phase.left < call.phase.left := by
  unfold ConfirmCall.step at hStep
  split at hStep
  · rename_i hPhase
    split at hStep
    · rw [← Option.some.inj hStep]
      unfold ConfirmCall.check
      split
      · exact proceed_left call (by rw [hPhase]; simp [CallPhase.left])
      · rw [hPhase]
        simp [CallPhase.left]
    · cases hStep
  · rename_i outcome hPhase
    split at hStep
    · cases hStep
    · rw [← Option.some.inj hStep]
      exact proceed_left call (by rw [hPhase]; simp [CallPhase.left])
  · rename_i identity hPhase
    rw [← Option.some.inj hStep, hPhase]
    exact ofStart_left _
  · rename_i hPhase
    obtain ⟨found, -, rfl⟩ := Option.map_eq_some_iff.mp hStep
    rw [hPhase]
    simp [CallPhase.left]
  · rename_i id reply hPhase
    rw [← Option.some.inj hStep, hPhase]
    simp [CallPhase.left]
  · rename_i id reply hPhase
    obtain ⟨found, -, rfl⟩ := Option.map_eq_some_iff.mp hStep
    rw [hPhase]
    simp [CallPhase.left]
  · rename_i outcome hPhase
    rw [← Option.some.inj hStep]
    exact proceed_left call (by rw [hPhase]; simp [CallPhase.left])
  · rename_i outcome hPhase
    rw [← Option.some.inj hStep, hPhase]
    simp [CallPhase.left]
  · cases hStep

def ConfirmCall.settled (call : ConfirmCall) : InvokeQuery × Tool × Bool :=
  (call.query, call.tool, call.defaultCheck)

theorem proceed_settled (call : ConfirmCall) (outcome : Tools.Outcome (Bool × String)) :
    (call.proceed outcome).settled = call.settled := by
  unfold ConfirmCall.proceed
  split <;> rfl

theorem callStep_settled {call next : ConfirmCall} {event : CallEvent}
    (hStep : call.step config scope event = some next) : next.settled = call.settled := by
  unfold ConfirmCall.step at hStep
  split at hStep
  · split at hStep
    · rw [← Option.some.inj hStep]
      unfold ConfirmCall.check
      split
      · exact proceed_settled call _
      · rfl
    · cases hStep
  · split at hStep
    · cases hStep
    · rw [← Option.some.inj hStep]
      exact proceed_settled call _
  · rw [← Option.some.inj hStep]
    rfl
  · obtain ⟨found, -, rfl⟩ := Option.map_eq_some_iff.mp hStep
    rfl
  · rw [← Option.some.inj hStep]
    rfl
  · obtain ⟨found, -, rfl⟩ := Option.map_eq_some_iff.mp hStep
    rfl
  · rw [← Option.some.inj hStep]
    exact proceed_settled call _
  · rw [← Option.some.inj hStep]
    rfl
  · cases hStep

theorem exists_callStep {i : Nat} (hSound : CallSound config mode events i call)
    (hDefault : call.defaultCheck = true) (hMode : scope.map ConfirmationScope.mode = mode)
    (hOpen : ∀ record, call.phase ≠ .finished record) :
    ∃ event next, call.step config scope event = some next := by
  have hScope : ∀ found, mode = some found → ∃ present, scope = some present := by
    intro found hSome
    rw [hSome] at hMode
    obtain ⟨present, hPresent, -⟩ := Option.map_eq_some_iff.mp hMode
    exact ⟨present, hPresent⟩
  unfold CallSound at hSound
  unfold ConfirmCall.step
  cases hPhase : call.phase with
  | waiting => exact ⟨.checks, by simp [hDefault]⟩
  | publishing => exact ⟨.confirms (.error .other), by simp⟩
  | approving =>
    rw [hPhase] at hSound
    obtain ⟨present, rfl⟩ := hScope _ hSound.2
    exact ⟨.settlesPolicy, by simp⟩
  | exchanging id => exact ⟨.exchanged (.error .other), by simp⟩
  | replied id reply =>
    rw [hPhase] at hSound
    obtain ⟨present, rfl⟩ := hScope _ hSound.2.1
    exact ⟨.settlesReply, by simp⟩
  | answered outcome => exact ⟨.decides, by simp⟩
  | invoking => exact ⟨.returns .unknown, by simp [Execution.invoked]⟩
  | finished record => exact absurd hPhase (hOpen record)

/-! ## Whole runs -/

def ConfirmEvent.isCall (i : Nat) : ConfirmEvent → Bool
  | .call index _ => index == i
  | _ => false

/-- Everything that holds after any events of a batch. -/
structure ConfirmSound (config : ConfirmConfig) (mode : Option ConfirmationMode)
    (calls : List (InvokeQuery × Tool × Bool)) (events : List ConfirmEvent)
    (s : Confirmations) : Prop where
  batch : s.calls.map ConfirmCall.settled = calls
  scope : s.scope.map ConfirmationScope.mode = mode
  cancelled : ∀ found, s.scope = some found → .cancels ∈ events → found.stopping = true
  sound : ∀ i call, s.calls[i]? = some call → call.defaultCheck = true →
    CallSound config mode events i call
  bounded : ∀ i call, s.calls[i]? = some call →
    events.countP (ConfirmEvent.isCall i) + call.phase.left ≤ 6

variable {config : ConfirmConfig} {mode : Option ConfirmationMode}
variable {calls : List (InvokeQuery × Tool × Bool)} {events : List ConfirmEvent}

theorem start_confirmSound (config : ConfirmConfig) (mode : Option ConfirmationMode)
    (calls : List (InvokeQuery × Tool × Bool)) :
    ConfirmSound config mode calls [] (Confirmations.start mode calls) := by
  have hWaiting : ∀ (i : Nat) (call : ConfirmCall),
      (Confirmations.start mode calls).calls[i]? = some call →
        call.phase = .waiting ∧ call.entered = false := by
    intro i call hCall
    rw [Confirmations.start, List.getElem?_map] at hCall
    obtain ⟨settled, -, rfl⟩ := Option.map_eq_some_iff.mp hCall
    exact ⟨rfl, rfl⟩
  refine ⟨?_, ?_, ?_, ?_, ?_⟩
  · rw [Confirmations.start, List.map_map]
    exact List.map_id calls
  · cases mode <;> rfl
  · intro found _ hMem
    cases hMem
  · intro i call hCall _
    simp only [CallSound, (hWaiting i call hCall).1]
    exact (hWaiting i call hCall).2
  · intro i call hCall
    rw [(hWaiting i call hCall).1]
    exact Nat.le_refl 6

theorem ConfirmSound.scope_event {s : Confirmations}
    (hSound : ConfirmSound config mode calls events s) {event : ConfirmEvent}
    (hEvent : ∀ i, event.isCall i = false) {scope : ConfirmationScope}
    (hMode : (some scope).map ConfirmationScope.mode = mode)
    (hCancelled : .cancels ∈ events ++ [event] → scope.stopping = true) :
    ConfirmSound config mode calls (events ++ [event]) { s with scope := some scope } := by
  refine ⟨hSound.batch, hMode, ?_, ?_, ?_⟩
  · intro found hFound hMem
    rw [← Option.some.inj hFound]
    exact hCancelled hMem
  · intro i call hCall hDefault
    exact (hSound.sound i call hCall hDefault).append event
  · intro i call hCall
    simpa [hEvent i] using hSound.bounded i call hCall

theorem step_confirmSound {s s' : Confirmations} {event : ConfirmEvent}
    (hSound : ConfirmSound config mode calls events s) (hStep : s.step config event = some s') :
    ConfirmSound config mode calls (events ++ [event]) s' := by
  cases event with
  | cancels =>
    obtain ⟨scope, hScope, rfl⟩ := Option.map_eq_some_iff.mp hStep
    have hMode := hSound.scope
    rw [hScope] at hMode
    exact hSound.scope_event (fun _ => rfl) hMode fun _ => rfl
  | requestsStop =>
    obtain ⟨scope, hScope, hRequested⟩ := Option.bind_eq_some_iff.mp hStep
    have hMode := hSound.scope
    rw [hScope] at hMode
    split at hRequested
    · rename_i hStopping
      rw [← Option.some.inj hRequested]
      exact hSound.scope_event (fun _ => rfl) hMode fun _ => hStopping
    · cases hRequested
  | call index event =>
    obtain ⟨call, hCall, hNext⟩ := Option.bind_eq_some_iff.mp hStep
    obtain ⟨next, hCallStep, rfl⟩ := Option.map_eq_some_iff.mp hNext
    have hSettled := callStep_settled hCallStep
    have hIndex : index < s.calls.length := (List.getElem?_eq_some_iff.mp hCall).1
    refine ⟨?_, hSound.scope, ?_, ?_, ?_⟩
    · rw [List.map_set, hSettled, hSound.batch]
      apply List.ext_getElem?
      intro j
      by_cases hSame : index = j
      · rw [← hSame, ← hSound.batch, List.getElem?_set_self (by simpa using hIndex),
          List.getElem?_map, hCall]
        rfl
      · rw [List.getElem?_set_ne hSame]
    · intro found hFound hMem
      refine hSound.cancelled found hFound ?_
      rcases List.mem_append.mp hMem with hOld | hNew
      · exact hOld
      · cases List.mem_singleton.mp hNew
    · intro j other hOther hDefault
      by_cases hSame : index = j
      · subst hSame
        rw [List.getElem?_set_self hIndex] at hOther
        rw [← Option.some.inj hOther] at hDefault ⊢
        have hBefore : call.defaultCheck = true := by
          rw [← hDefault]
          exact (congrArg (fun settled => settled.2.2) hSettled).symm
        exact callStep_sound (hSound.sound index call hCall hBefore) hBefore hSound.scope
          hSound.cancelled hCallStep
      · rw [List.getElem?_set_ne hSame] at hOther
        exact (hSound.sound j other hOther hDefault).append _
    · intro j other hOther
      by_cases hSame : index = j
      · subst hSame
        rw [List.getElem?_set_self hIndex] at hOther
        have hBound := hSound.bounded index call hCall
        have hLess := callStep_left hCallStep
        rw [← Option.some.inj hOther, List.countP_append, List.countP_singleton]
        simp only [ConfirmEvent.isCall, beq_self_eq_true, if_true]
        omega
      · rw [List.getElem?_set_ne hSame] at hOther
        have hBound := hSound.bounded j other hOther
        simpa [ConfirmEvent.isCall, hSame] using hBound

theorem run_confirmSound {s : Confirmations}
    (hRun : (Confirmations.start mode calls).run config events = some s) :
    ConfirmSound config mode calls events s := by
  have hFrom : ∀ (more past : List ConfirmEvent) (t : Confirmations),
      ConfirmSound config mode calls past t → t.run config more = some s →
        ConfirmSound config mode calls (past ++ more) s := by
    intro more
    induction more with
    | nil =>
      intro past t hPast hDone
      rw [← Option.some.inj hDone, List.append_nil]
      exact hPast
    | cons event rest ih =>
      intro past t hPast hRest
      obtain ⟨next, hNext, hTail⟩ := Option.bind_eq_some_iff.mp hRest
      have hAfter := ih (past ++ [event]) next (step_confirmSound hPast hNext) hTail
      rwa [List.append_assoc] at hAfter
  exact hFrom events [] _ (start_confirmSound config mode calls) hRun

/-- A call with the default check, in every run of its batch. One that requires
confirmation comes to its body only with leave, and without it ends with a record
of the security check; one that is denied by default never comes to its body; and
each of them comes to its record. -/
theorem invoke_only_confirmed (config : ConfirmConfig) (mode : Option ConfirmationMode)
    (calls : List (InvokeQuery × Tool × Bool)) (events : List ConfirmEvent) (s : Confirmations)
    (hRun : (Confirmations.start mode calls).run config events = some s) (i : Nat)
    (query : InvokeQuery) (tool : Tool) (hCall : calls[i]? = some (query, tool, true)) :
    ∃ call, s.calls[i]? = some call ∧ (query.security = .requireConfirm → call.entered = true →
        Permitted config mode events i query) ∧
      (query.security = .requireConfirm → ¬ Permitted config mode events i query →
        call.entered = false ∧ ∀ record, call.phase = .finished record →
          errorStage record = some .securityCheck ∧ record.query = query) ∧
      (query.security = .defaultDeny →
        call.entered = false ∧ ∀ record, call.phase = .finished record →
          errorStage record = some .securityCheck ∧ record.query = query) ∧
      ((∀ record, call.phase ≠ .finished record) →
        ∃ event s', s.step config (.call i event) = some s') ∧
      events.countP (ConfirmEvent.isCall i) ≤ 6 := by
  have hInvariant := run_confirmSound hRun
  rw [← hInvariant.batch, List.getElem?_map] at hCall
  obtain ⟨call, hFound, hSettled⟩ := Option.map_eq_some_iff.mp hCall
  have hQuery : call.query = query := congrArg Prod.fst hSettled
  have hDefault : call.defaultCheck = true := congrArg (fun settled => settled.2.2) hSettled
  have hSound := hInvariant.sound i call hFound hDefault
  have hBound := hInvariant.bounded i call hFound
  rw [← hQuery]
  refine ⟨call, hFound, ?_, ?_, ?_, ?_, by omega⟩
  · intro hSecurity hEntered
    exact (hSound.cleared hEntered).2.2 hSecurity
  · intro hSecurity hForbidden
    have hEntered : call.entered = false := by
      cases hReached : call.entered with
      | false => rfl
      | true => exact absurd ((hSound.cleared hReached).2.2 hSecurity) hForbidden
    exact ⟨hEntered, fun record hPhase => hSound.refused hEntered hPhase⟩
  · intro hSecurity
    have hEntered : call.entered = false := by
      cases hReached : call.entered with
      | false => rfl
      | true => exact absurd hSecurity (hSound.cleared hReached).2.1
    exact ⟨hEntered, fun record hPhase => hSound.refused hEntered hPhase⟩
  · intro hOpen
    obtain ⟨event, next, hNext⟩ := exists_callStep hSound hDefault hInvariant.scope hOpen
    refine ⟨event, { s with calls := s.calls.set i next }, ?_⟩
    simp [Confirmations.step, hFound, hNext]

/-- The text of the request about `sampleCall`. -/
def sampleRequestText : String :=
  "\x7b\"data\":\x7b\"call\":\x7b\"arguments\":\x7b\x7d,\"id\":\"c1\"," ++
    "\"name\":\"write\",\"security\":\"require_confirm\"," ++
    "\"type\":\"serial_write\"\x7d,\"confirmation_id\":\"k1\"," ++
    "\"run_id\":\"r\",\"session_id\":\"s\",\"worker_id\":\"w\"\x7d," ++
    "\"type\":\"confirmation_request\"\x7d"

def sampleReplyText : String :=
  "\x7b\"data\":\x7b\"confirmation_id\":\"k1\",\"decision\":\"approved\"," ++
    "\"run_id\":\"r\",\"session_id\":\"s\",\"worker_id\":\"w\"\x7d," ++
    "\"type\":\"confirmation_response\"\x7d"

def sampleReply : Json :=
  Json.object [("data", Json.object [("confirmation_id", .str "k1"),
    ("decision", .str "approved"), ("run_id", .str "r"), ("session_id", .str "s"),
    ("worker_id", .str "w")]), ("type", .str "confirmation_response")]

def sampleConfig : ConfirmConfig where
  endpoint := true
  workerId := "w"
  sessionId := "s"
  runId := "r"
  dump := fun _ => .ok sampleRequestText
  parse := fun text =>
    if text = sampleReplyText then .ok sampleReply else .error "parse error"

def sampleCall : InvokeQuery :=
  { type := .serialWrite, security := .requireConfirm, id := "c1", name := "write" }

/-- The reply is settled, and only then is the run cancelled. -/
def sampleConfirmEvents : List ConfirmEvent :=
  [.call 0 .checks, .call 0 (.confirms (.ok "k1")),
    .call 0 (.exchanged (.ok sampleReplyText)), .call 0 .settlesReply, .cancels,
    .call 0 .decides]

theorem invoke_only_confirmed_sample : ∃ s call,
    (Confirmations.start (some .ask) [(sampleCall, {}, true)]).run sampleConfig
      sampleConfirmEvents = some s ∧
    s.calls[0]? = some call ∧ call.entered = true ∧
    Permitted sampleConfig (some .ask) sampleConfirmEvents 0 sampleCall := by
  have hEntered : (((Confirmations.start (some .ask) [(sampleCall, {}, true)]).run sampleConfig
      sampleConfirmEvents).bind fun s => s.calls[0]?).map ConfirmCall.entered = some true := by
    decide +kernel
  obtain ⟨call, hBind, hReached⟩ := Option.map_eq_some_iff.mp hEntered
  obtain ⟨s, hRun, hCall⟩ := Option.bind_eq_some_iff.mp hBind
  obtain ⟨found, hFound, hPermitted, -⟩ := invoke_only_confirmed sampleConfig (some .ask)
    [(sampleCall, {}, true)] sampleConfirmEvents s hRun 0 sampleCall {} rfl
  rw [hCall] at hFound
  rw [← Option.some.inj hFound] at hPermitted
  exact ⟨s, call, hRun, hCall, hReached, hPermitted rfl hReached⟩

end SimplexAgent.Core
