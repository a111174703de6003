import SimplexAgent.Tools.ToolSet

/-!
# The default security check

`tools/security_check.hpp`. A trusted call passes and a call that was never
cleared is refused, both at once; a call that requires confirmation is put on the
asynchronous bus, and passes only when the event comes back approved.

The check waits for the bus, so it is cut there: `securityGate` is what it does
before, `decideConfirmed` what it makes of the event it gets back.
-/

namespace SimplexAgent.Tools

open Dataclass

/-- How a call that waited for confirmation was answered. -/
inductive ConfirmDecision where
  | unanswered
  | approved
  | denied
  deriving DecidableEq, Repr, Inhabited

/-- A call asking the host whether it may run, and the host's answer. -/
structure InvokeConfirmEvent where
  query : InvokeQuery
  decision : ConfirmDecision := .unanswered
  reason : String := ""

def InvokeConfirmEvent.forQuery (query : InvokeQuery) : InvokeConfirmEvent :=
  { query := query }

/-- What the check does before it waits: the decision of the two levels that do
not ask, or nothing yet. -/
def securityGate (query : InvokeQuery) : Option (Bool × String) :=
  match query.security with
  | .trusted => some (true, "the invocation is trusted and runs without confirmation")
  | .defaultDeny => some (false,
      "the invocation's security level is default deny, so it was never cleared to run")
  | .requireConfirm => none

def reasonOr (answered : InvokeConfirmEvent) (fallback : String) : String :=
  if answered.reason = "" then fallback else answered.reason

/-- What the check makes of the event it gets back. -/
def decideConfirmed (anyoneListening : Bool) (answered : InvokeConfirmEvent) : Bool × String :=
  match answered.decision with
  | .approved =>
    (true, reasonOr answered "the confirmation handler approved the invocation")
  | .denied =>
    (false, reasonOr answered "the confirmation handler denied the invocation")
  | .unanswered => (false,
      if anyoneListening then "no subscribed handler answered the confirmation request"
      else "no handler is subscribed to confirm the invocation")

theorem decideConfirmed_passes_iff (anyoneListening : Bool) (answered : InvokeConfirmEvent) :
    (decideConfirmed anyoneListening answered).1 = true ↔ answered.decision = .approved := by
  unfold decideConfirmed
  split <;> simp_all

/-- The check ends with an exception of the handler, or with its decision. -/
def checkConfirmed (anyoneListening : Bool) : Outcome InvokeConfirmEvent → Outcome (Bool × String)
  | .returned answered => .returned (decideConfirmed anyoneListening answered)
  | .failed e => .failed e
  | .threw what => .threw what
  | .unknown => .unknown

/-! ## What the second phase makes of the check -/

/-- The check refused, or ended with an exception that is not the module's own. -/
def Refused : Outcome (Bool × String) → Prop
  | .returned decision => decision.1 = false
  | .failed _ => False
  | .threw _ => True
  | .unknown => True

theorem checked_of_passed (query : InvokeQuery) {decision : Bool × String}
    (hPassed : decision.1 = true) : Execution.checked query (.returned decision) = .invoking := by
  obtain ⟨passed, reason⟩ := decision
  cases hPassed
  rfl

theorem checked_of_refused (query : InvokeQuery) {outcome : Outcome (Bool × String)}
    (hRefused : Refused outcome) : ∃ record, Execution.checked query outcome = .finished record ∧
      errorStage record = some .securityCheck ∧ record.query = query := by
  cases outcome with
  | returned decision =>
    obtain ⟨passed, reason⟩ := decision
    cases hRefused
    exact ⟨_, rfl, errorStage_toInvokeReturn _, rfl⟩
  | failed e => cases hRefused
  | threw what | unknown => exact ⟨_, rfl, errorStage_toInvokeReturn _, rfl⟩

end SimplexAgent.Tools
