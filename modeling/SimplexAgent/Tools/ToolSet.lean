import SimplexAgent.Tools.InvokeException

/-!
# Tool sets

`tools/toolsets.hpp`. A call goes through its set in two phases. `prepare`
settles the query in place: it resolves the tool and lets its hooks complete the
query, and whatever is thrown leaves as an `InvokeException` about that query.
`execute` runs the settled call: the security check, the tool body, the check of
its result, with one record at the end whatever happened.

Both phases are virtual, so a `ToolSet` carries any settling phase of its own;
`ToolSet.standard` is the set that keeps the base class's. The body of the
second phase waits twice, for the security check and for the tool, so it is a
machine with a state per wait, resumed with what the awaited hook came to.
-/

namespace SimplexAgent.Tools

open Dataclass

/-- The hooks of one tool that run without waiting. A hook that throws may have
changed the query before. -/
structure Tool where
  ensureArguments : InvokeQuery → InvokeQuery × Outcome Unit := fun query =>
    (query, .returned ())
  writeAttributes : InvokeQuery → InvokeQuery × Outcome Unit := fun query =>
    ({ query with type := .serialWrite, security := .requireConfirm }, .returned ())
  checkResult : InvokeQuery → Content → Outcome InvokeReturn := fun query output =>
    .returned { query := query, output := output }

/-- What the handlers of both phases make of a throw: the failure about `query`,
at the stage that was running unless the exception brings its own. -/
def Outcome.caught {α : Type} (stage : Stage) (query : InvokeQuery) :
    Outcome α → Except InvokeException α
  | .returned value => .ok value
  | .failed e => .error (e.correlatedTo query)
  | .threw text => .error { stage := stage, message := text, query := query }
  | .unknown => .error { stage := stage, message := unknownError, query := query }

/-! ## Settling a call -/

def runHook (hook : InvokeQuery → InvokeQuery × Outcome Unit) (query : InvokeQuery) :
    InvokeQuery × Except InvokeException Unit :=
  let (settled, outcome) := hook query
  (settled, outcome.caught .argumentParse settled)

def noSuchTool (setName : String) (query : InvokeQuery) : InvokeException where
  stage := .dispatch
  message := "no tool named \"" ++ query.name ++ "\" in toolset \"" ++ setName ++ "\""
  query := query

/-- The settling phase of the base class. The query is returned as the hooks
left it, also when one of them failed. -/
def settle (setName : String) (dispatch : InvokeQuery → Outcome (Option Tool))
    (query : InvokeQuery) : InvokeQuery × Except InvokeException Tool :=
  match (dispatch query).caught .dispatch query with
  | .error e => (query, .error e)
  | .ok none => (query, .error (noSuchTool setName query))
  | .ok (some tool) =>
    match runHook tool.ensureArguments query with
    | (ensured, .error e) => (ensured, .error e)
    | (ensured, .ok ()) =>
      match runHook tool.writeAttributes ensured with
      | (settled, .error e) => (settled, .error e)
      | (settled, .ok ()) => (settled, .ok tool)

structure ToolSet where
  name : String
  prepare : InvokeQuery → InvokeQuery × Outcome (Option Tool)

/-- The settling phase rejects with an `InvokeException` only. -/
def ToolSet.standard (name : String) (dispatch : InvokeQuery → Outcome (Option Tool)) :
    ToolSet where
  name := name
  prepare query :=
    match settle name dispatch query with
    | (settled, .ok tool) => (settled, .returned (some tool))
    | (settled, .error e) => (settled, .failed e)

/-- Settling leaves the id and the name of a query as they were. -/
def ToolSet.KeepsIdentity (set : ToolSet) : Prop :=
  ∀ query : InvokeQuery, (set.prepare query).1.id = query.id ∧
    (set.prepare query).1.name = query.name

/-- The hooks of a tool leave the id and the name of a query as they were. -/
def Tool.KeepsIdentity (tool : Tool) : Prop :=
  ∀ query : InvokeQuery,
    ((tool.ensureArguments query).1.id = query.id ∧
      (tool.ensureArguments query).1.name = query.name) ∧
    (tool.writeAttributes query).1.id = query.id ∧ (tool.writeAttributes query).1.name = query.name

theorem settle_identity (setName : String) (dispatch : InvokeQuery → Outcome (Option Tool))
    (query : InvokeQuery)
    (hTools : ∀ tool, dispatch query = .returned (some tool) → tool.KeepsIdentity) :
    (settle setName dispatch query).1.id = query.id ∧
      (settle setName dispatch query).1.name = query.name := by
  unfold settle
  split
  · exact ⟨rfl, rfl⟩
  · exact ⟨rfl, rfl⟩
  · rename_i tool hDispatch
    have hFound : dispatch query = .returned (some tool) := by
      cases hOutcome : dispatch query with
      | returned value =>
        rw [hOutcome] at hDispatch
        injection hDispatch with hValue
        rw [hValue]
      | failed e | threw text | unknown => rw [hOutcome] at hDispatch; cases hDispatch
    have hTool := hTools tool hFound
    have hEnsure := (hTool query).1
    have hWrite := (hTool (tool.ensureArguments query).1).2
    simp only [runHook]
    split
    · rename_i hEnsured
      injection hEnsured with hSettled
      rw [← hSettled]
      exact hEnsure
    · rename_i ensured hEnsured
      injection hEnsured with hSettled
      rw [← hSettled]
      split
      · rename_i hWritten
        injection hWritten with hFinal
        rw [← hFinal]
        exact ⟨hWrite.1.trans hEnsure.1, hWrite.2.trans hEnsure.2⟩
      · rename_i hWritten
        injection hWritten with hFinal
        rw [← hFinal]
        exact ⟨hWrite.1.trans hEnsure.1, hWrite.2.trans hEnsure.2⟩

theorem standard_keepsIdentity (name : String) (dispatch : InvokeQuery → Outcome (Option Tool))
    (hTools : ∀ query tool, dispatch query = .returned (some tool) → tool.KeepsIdentity) :
    (ToolSet.standard name dispatch).KeepsIdentity := by
  intro query
  have hSettle := settle_identity name dispatch query (hTools query)
  unfold ToolSet.standard
  generalize hResult : settle name dispatch query = result at hSettle
  obtain ⟨settled, outcome⟩ := result
  cases outcome <;> simpa [hResult] using hSettle

/-! ## Running a settled call -/

/-- Where the second phase waits: for the security check, for the tool body, or
nowhere any more. -/
inductive Execution where
  | checking
  | invoking
  | finished (record : InvokeReturn)

/-- The record of an attempt that ended one way or the other. -/
def recordOf : Except InvokeException InvokeReturn → InvokeReturn
  | .ok record => record
  | .error e => e.toInvokeReturn

/-- Only a caller that ignored a failed settling comes here. -/
def neverSettled (query : InvokeQuery) : InvokeException where
  stage := .dispatch
  message := "the call was never settled: execute() needs the tool prepare() returned"
  query := query

def securityDenied (query : InvokeQuery) (reason : String) : InvokeException where
  stage := .securityCheck
  message := "security check denied: " ++ reason
  query := query

/-- The first thing the second phase does is the security check. -/
def Execution.start (tool : Option Tool) (query : InvokeQuery) : Execution :=
  match tool with
  | none => .finished ((neverSettled query).toInvokeReturnFor query)
  | some _ => .checking

/-- The security check came to a decision or threw. Only a pass leads on to the
tool body. -/
def Execution.checked (query : InvokeQuery) (outcome : Outcome (Bool × String)) : Execution :=
  match outcome.caught .securityCheck query with
  | .ok (true, _) => .invoking
  | .ok (false, reason) =>
    .finished ((securityDenied query reason).toInvokeReturnFor query)
  | .error e => .finished e.toInvokeReturn

/-- The tool body returned its output or threw. -/
def Execution.invoked (tool : Tool) (query : InvokeQuery) (outcome : Outcome Content) :
    Execution :=
  .finished (recordOf (match outcome.caught .invoke query with
    | .error e => .error e
    | .ok content =>
      match (tool.checkResult query content).caught .resultCheck query with
      | .error e => .error e
      | .ok record => .ok (correlate record query)))

end SimplexAgent.Tools
