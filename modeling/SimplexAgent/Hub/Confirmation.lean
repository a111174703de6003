import SimplexAgent.Dataclass.Json
import SimplexAgent.Hub.Connection

/-!
# The confirmation route

`worker/confirmation.ts`: a worker opens one socket per confirmation, sends one request and
is answered by at most one decision. Each exchange is one asynchronous function, so it is a
phase per place where it waits, and its continuation is an input of its own (`resume`).

What comes from outside, a closed socket, a timer, an operator, is only handled when no
continuation is due: the runtime drains them before it turns to the next event. A socket hands
over all the frames of one read without that. Which continuation comes first is left open. A
timer may expire at any time after it was armed.

Four fields of a prompt are not in the source and only record what happened: the state of
the session when the prompt was opened, how often each decision succeeded, and how often
`onSettled` was called for it.
-/

namespace SimplexAgent.Hub

open Verified Dataclass

inductive Decision where
  | approved
  | denied
  deriving DecidableEq, Repr

structure DecisionOutcome where
  decision : Decision
  reason : String
  deriving DecidableEq, Repr

/-- `PROMPT_STATE`. -/
inductive PromptState where
  | identity
  | decision
  | decided
  | retired
  deriving DecidableEq, Repr

inductive ConfirmationPolicy where
  | ask
  | deny
  | approve
  deriving DecidableEq, Repr

/-- `ConfirmationRequest`. -/
structure ConfirmationRequest where
  workerId : String
  sessionId : String
  runId : String
  confirmationId : String
  call : Json

structure Opening where
  registered : Bool
  connected : Bool
  identity : TrackedIdentity

/-- `PendingConfirmation`. `observed` is whether its own `onSettled` is still installed. -/
structure PendingConfirmation where
  request : ConfirmationRequest
  state : PromptState
  verified : Bool
  decision : Option Decision
  reason : Option String
  deadlineArmed : Bool
  observed : Bool
  opening : Option Opening
  approvals : Nat
  denials : Nat
  settledCalls : Nat

inductive SocketState where
  | opened
  | closing
  | closed
  deriving DecidableEq, Repr

inductive ExchangePhase where
  /-- For its request. -/
  | reading
  /-- For the identity of the worker. -/
  | holding (request : ConfirmationRequest)
  /-- For the run of a headless session to be verified. -/
  | authorizing (request : ConfirmationRequest) (verified : Option Bool)
  /-- For a decision or the end of the socket. -/
  | deciding
  /-- For the close handshake. -/
  | closing
  | done

/-- One exchange: its socket, the prompt once there is one, what the race of a decision
against the end of the socket resolved to, and the decisions written. `strict` is whether
a second frame is refused by now. -/
structure Exchange where
  socket : SocketState
  phase : ExchangePhase
  strict : Bool
  prompt : Option PendingConfirmation
  settled : Bool
  raced : Option (Option DecisionOutcome)
  frames : List Decision

inductive ConfirmationFrame where
  | binary
  /-- A text, parsed as JSON. -/
  | text (document : Option Json)

structure ConfirmationRoute where
  channel : Channel
  registered : Bool
  policy : ConfirmationPolicy
  /-- `confirmIdentityHoldMs` and `confirmationTimeoutMs`. -/
  identityHoldMs : Nat
  timeoutMs : Nat
  /-- `session.prompts`: the exchange of the prompt registered for an identifier. -/
  prompts : List (String × Nat)
  exchanges : Nat → Option Exchange
  /-- The exchanges that were accepted, in order. -/
  accepted : List Nat

def promptCapacity : Nat := 64

def deadlineMarginMs : Nat := 5000

/-! ## Prompts -/

namespace PendingConfirmation

def construct (request : ConfirmationRequest) : PendingConfirmation where
  request := request
  state := .identity
  verified := false
  decision := none
  reason := none
  deadlineArmed := false
  observed := true
  opening := none
  approvals := 0
  denials := 0
  settledCalls := 0

/-- `retire`. -/
def retire (p : PendingConfirmation) (detail : String) : PendingConfirmation :=
  if p.state = .decided ∨ p.state = .retired then p
  else
    { p with
      state := .retired
      reason := some detail
      deadlineArmed := false
      settledCalls := if p.observed then p.settledCalls + 1 else p.settledCalls }

end PendingConfirmation

/-- What a headless session must still be for a decision to count. -/
def runAuthorized (session : Session) (connected : Bool) (request : ConfirmationRequest) : Bool :=
  session.kind ≠ .headless ∨
    (session.closing = false ∧ connected = true ∧ session.identity.state = .live ∧
      session.identity.workerId = some request.workerId ∧ session.activeRunId = request.runId)

/-- The decisions that `decide` understands. -/
def decisionNamed (decision : String) : Option Decision :=
  if decision = "approved" then some .approved
  else if decision = "denied" then some .denied
  else none

/-- `decide`: the answer to whoever decides, and the prompt. `reason` is absent where it is
not a text. -/
def PendingConfirmation.decide (session : Session) (connected : Bool) (p : PendingConfirmation)
    (decision : String) (reason : Option String) : Except String Unit × PendingConfirmation :=
  if p.state = .decided then (.error "this confirmation was already answered", p)
  else if p.state = .retired then (.error "this confirmation is no longer open", p)
  else if p.state ≠ .decision then (.error "worker identity is not verified yet", p)
  else
    match decisionNamed decision, reason with
    | none, _ => (.error "decision must be approved or denied", p)
    | some _, none => (.error "reason must be a string", p)
    | some verdict, some reason =>
      if runAuthorized session connected p.request then
        (.ok (),
          { p with
            state := .decided
            decision := some verdict
            reason := some reason
            deadlineArmed := false
            approvals := if verdict = .approved then p.approvals + 1 else p.approvals
            denials := if verdict = .denied then p.denials + 1 else p.denials })
      else
        (.error "subagent run is no longer authorized",
          p.retire "subagent run is no longer authorized")

/-! ## Exchanges -/

namespace Exchange

def accept : Exchange where
  socket := .opened
  phase := .reading
  strict := false
  prompt := none
  settled := false
  raced := none
  frames := []

/-- `close` and `terminate`: the close event comes later. -/
def closeSocket (e : Exchange) : Exchange :=
  if e.socket = .opened then { e with socket := .closing } else e

/-- `sendDecision`. A send that throws terminates the socket. -/
def sendDecision (e : Exchange) (decision : Decision) (sends : Bool) : Exchange :=
  if e.socket ≠ .opened then e
  else if sends then { e with frames := e.frames ++ [decision] }
  else e.closeSocket

def resolveRace (e : Exchange) (outcome : Option DecisionOutcome) : Exchange :=
  if e.raced.isSome then e else { e with raced := some outcome }

def retirePrompt (e : Exchange) (detail : String) : Exchange :=
  match e.prompt with
  | none => e
  | some p =>
    let e := { e with prompt := some (p.retire detail) }
    if p.state = .decided ∨ p.state = .retired then e else e.resolveRace none

/-- `decide` on the prompt of an exchange. -/
def decidePrompt (session : Session) (connected : Bool) (e : Exchange) (decision : String)
    (reason : Option String) : Exchange :=
  match e.prompt with
  | none => e
  | some p =>
    let p' := (p.decide session connected decision reason).2
    let e := { e with prompt := some p' }
    if p.state = p'.state then e
    else
      match p'.state, decisionNamed decision, reason with
      | .decided, some verdict, some reason => e.resolveRace (some ⟨verdict, reason⟩)
      | _, _, _ => e.resolveRace none

end Exchange

/-- Errors of `readRequest`, by the check that fails. -/
inductive RequestError where
  | binary
  | invalidJson
  | notAnObject
  | wrongType
  | dataNotAnObject
  | badField (field : String)
  | otherSession (found : String)
  | callNotAnObject
  | callIdentity (key : String)
  | duplicate (confirmationId : String)
  deriving DecidableEq, Repr

def readIdentifier (data : Json) (field : String) : Except RequestError String :=
  match data.find? field with
  | some (.str value) =>
    if value.utf8ByteSize = 0 ∨ 128 < value.utf8ByteSize then .error (.badField field)
    else .ok value
  | _ => .error (.badField field)

def checkCallField (call : Json) (key : String) : Except RequestError Unit :=
  match call.find? key with
  | none => .ok ()
  | some (.str value) =>
    if 256 < value.utf8ByteSize then .error (.callIdentity key) else .ok ()
  | some _ => .error (.callIdentity key)

/-- `readRequest`. -/
def readRequest (session : Session) (prompts : List (String × Nat)) :
    ConfirmationFrame → Except RequestError ConfirmationRequest
  | .binary => .error .binary
  | .text none => .error .invalidJson
  | .text (some (.obj fields)) =>
    if (Json.obj fields).find? "type" ≠ some (.str "confirmation_request") then .error .wrongType
    else
      match (Json.obj fields).find? "data" with
      | some (.obj entries) => do
        let data := Json.obj entries
        let workerId ← readIdentifier data "worker_id"
        let sessionId ← readIdentifier data "session_id"
        let runId ← readIdentifier data "run_id"
        let confirmationId ← readIdentifier data "confirmation_id"
        if sessionId ≠ session.id then throw (.otherSession sessionId)
        match data.find? "call" with
        | some (.obj parts) =>
          checkCallField (.obj parts) "id"
          checkCallField (.obj parts) "name"
          if (prompts.lookup confirmationId).isSome then throw (.duplicate confirmationId)
          return ⟨workerId, sessionId, runId, confirmationId, .obj parts⟩
        | _ => throw .callNotAnObject
      | _ => .error .dataNotAnObject
  | .text (some _) => .error .notAnObject

/-! ## The route -/

inductive ConfirmationInput where
  | channel (input : ChannelInput)
  /-- The lifecycle of the session, its place in the registry and its policy change. -/
  | setClosing (closing : Bool)
  | setRegistered (registered : Bool)
  | setPolicy (policy : ConfirmationPolicy)
  /-- The upgrade of a confirmation socket is accepted. -/
  | accepted (token : Nat)
  | frame (token : Nat) (frame : ConfirmationFrame) (sends : Bool)
  | socketClosing (token : Nat)
  | socketClosed (token : Nat)
  /-- The timer of an identity hold, of the next look at the run, and of the deadline. -/
  | holdExpired (token : Nat)
  | poll (token : Nat) (timedOut : Bool)
  | deadline (token : Nat)
  /-- An operator answers the prompt with this identifier. -/
  | decide (confirmationId decision : String) (reason : Option String)
  /-- The prompts of the session are retired: its lifecycle stops or its channel is lost. -/
  | retireAll (detail : String)
  /-- The hub shuts the route down. -/
  | shutdown
  /-- The continuation of an exchange. -/
  | resume (token : Nat) (sends : Bool)

namespace ConfirmationRoute

def holdMs (route : ConfirmationRoute) : Nat :=
  min route.identityHoldMs (route.timeoutMs - deadlineMarginMs)

def session (route : ConfirmationRoute) : Session := route.channel.session

def setSession (route : ConfirmationRoute) (session : Session) : ConfirmationRoute :=
  { route with channel := { route.channel with session := session } }

def setExchange (route : ConfirmationRoute) (token : Nat) (e : Exchange) : ConfirmationRoute :=
  { route with exchanges := fun n => if n = token then some e else route.exchanges n }

/-- `removePrompt`: only if the identifier still belongs to this prompt. -/
def removePrompt (route : ConfirmationRoute) (token : Nat) (p : PendingConfirmation) :
    ConfirmationRoute :=
  if route.prompts.lookup p.request.confirmationId = some token then
    { route with prompts := KeyedTable.drop route.prompts p.request.confirmationId }
  else route

/-- `cleanup`: once per exchange. -/
def cleanup (route : ConfirmationRoute) (token : Nat) (e : Exchange) (detail : String) :
    ConfirmationRoute :=
  if e.settled then route.setExchange token e
  else
    let e := { e with settled := true }
    match e.prompt with
    | none => route.setExchange token e
    | some p => (route.removePrompt token p).setExchange token (e.retirePrompt detail)

/-- The `finally` clause. -/
def finish (route : ConfirmationRoute) (token : Nat) (e : Exchange) : ConfirmationRoute :=
  let route := route.cleanup token { e with phase := .done } "the confirmation connection closed"
  match e.prompt with
  | none => route
  | some p => route.removePrompt token p

/-- Deny and wait for the close handshake. -/
def refuse (route : ConfirmationRoute) (token : Nat) (e : Exchange) (sends : Bool) :
    ConfirmationRoute :=
  route.setExchange token { e.sendDecision .denied sends with phase := .closing }

/-- A request was read: the checks of admission, and then the identity is awaited. -/
def onRequest (route : ConfirmationRoute) (token : Nat) (e : Exchange)
    (request : ConfirmationRequest) (sends : Bool) : ConfirmationRoute :=
  if promptCapacity ≤ route.prompts.length then route.refuse token e sends
  else if route.session.kind = .headless ∧ route.session.closing = true then
    route.refuse token e sends
  else
    (route.setExchange token { e with phase := .holding request, strict := true }).setSession
      (route.session.awaitWorkerIdentity token request.workerId route.holdMs)

/-- A message on a confirmation socket. -/
def onFrame (route : ConfirmationRoute) (token : Nat) (e : Exchange) (frame : ConfirmationFrame)
    (sends : Bool) : ConfirmationRoute :=
  let protocolError := route.setSession
    { route.session with protocolErrors := route.session.protocolErrors + 1 }
  match e.phase with
  | .reading =>
    match readRequest route.session route.prompts frame with
    | .error _ => protocolError.finish token e.closeSocket
    | .ok request => route.onRequest token e request sends
  | _ => if e.strict then protocolError.setExchange token e.closeSocket else route

/-- One look of `authorizeTool`: verified, refused, or to be looked at again. -/
def authorizePoll (route : ConfirmationRoute) (request : ConfirmationRequest) (timedOut : Bool) :
    Option Bool :=
  let s := route.session
  if route.registered = false ∨ s.closing = true ∨
      (s.identity.state = .live ∧ s.identity.workerId ≠ some request.workerId) then some false
  else if route.channel.connected = true ∧ s.identity.state = .live ∧
      s.identity.workerId = some request.workerId ∧ s.activeRunId = request.runId then some true
  else if timedOut then some false
  else none

def stillLive (route : ConfirmationRoute) (request : ConfirmationRequest) : Bool :=
  route.registered = true ∧ route.session.closing = false ∧ route.channel.connected = true ∧
    route.session.identity.workerId = some request.workerId

/-- The policy that applies: an ordinary session is always asked. -/
def effectivePolicy (route : ConfirmationRoute) : ConfirmationPolicy :=
  if route.session.kind = .headless then route.policy else .ask

def openedPrompt (route : ConfirmationRoute) (request : ConfirmationRequest) :
    PendingConfirmation :=
  { PendingConfirmation.construct request with
    state := .decision
    verified := true
    deadlineArmed := true
    opening := some ⟨route.registered, route.channel.connected, route.session.identity⟩ }

/-- The identity is known: open the prompt, unless the worker is not live any more. -/
def present (route : ConfirmationRoute) (token : Nat) (e : Exchange)
    (request : ConfirmationRequest) (sends : Bool) : ConfirmationRoute :=
  if route.stillLive request then
    let e := { e with phase := .deciding, prompt := some (route.openedPrompt request) }
    let registered := { route with
      prompts := KeyedTable.assign route.prompts request.confirmationId token }
    match route.effectivePolicy with
    | .ask => registered.setExchange token e
    | .approve => registered.setExchange token (e.decidePrompt route.session
        route.channel.connected "approved" (some "operator headless policy: approve"))
    | .deny => registered.setExchange token (e.decidePrompt route.session
        route.channel.connected "denied" (some "operator headless policy: deny"))
  else route.refuse token { e with prompt := some (.construct request) } sends

/-- The prompt was answered: the decision is sent, unless the run lost its authority. -/
def answer (route : ConfirmationRoute) (token : Nat) (e : Exchange) (p : PendingConfirmation)
    (outcome : DecisionOutcome) (sends : Bool) : ConfirmationRoute :=
  let decision :=
    if runAuthorized route.session route.channel.connected p.request then outcome.decision
    else .denied
  let e := { e with
    settled := true
    prompt := some { p with observed := false, settledCalls := p.settledCalls + 1 } }
  route.setExchange token { e.sendDecision decision sends with phase := .closing }

/-- The continuation of an exchange that is due. -/
def onResume (route : ConfirmationRoute) (token : Nat) (e : Exchange) (sends : Bool) :
    Option ConfirmationRoute :=
  match e.phase with
  | .reading => none
  | .holding request =>
    match route.session.verdicts.lookup token with
    | none => none
    | some (.refused _) => some (route.refuse token e sends)
    | some (.ok _) =>
      if route.session.kind = .headless then
        some (route.setExchange token { e with
          phase := .authorizing request (route.authorizePoll request false) })
      else some (route.present token e request sends)
  | .authorizing _ none => none
  | .authorizing _ (some false) => some (route.refuse token e sends)
  | .authorizing request (some true) => some (route.present token e request sends)
  | .deciding =>
    match e.raced, e.prompt with
    | some none, _ =>
      some (route.cleanup token { e.closeSocket with phase := .closing }
        "the confirmation was retired or its connection closed")
    | some (some outcome), some p => some (route.answer token e p outcome sends)
    | _, _ => none
  | .closing => if e.socket = .closed then some (route.finish token e) else none
  | .done => none

/-- An exchange whose continuation is due. -/
def ready (route : ConfirmationRoute) (token : Nat) : Bool :=
  (route.exchanges token).any fun e =>
    match e.phase with
    | .reading => false
    | .holding _ => (route.session.verdicts.lookup token).isSome
    | .authorizing _ verified => verified.isSome
    | .deciding => e.raced.isSome
    | .closing => e.socket = .closed
    | .done => false

def onSocketClosed (route : ConfirmationRoute) (token : Nat) (e : Exchange) : ConfirmationRoute :=
  let e := { e with socket := .closed }
  match e.phase with
  | .reading => route.finish token e
  | .authorizing request none =>
    route.setExchange token { e with phase := .authorizing request (some false) }
  | .deciding => route.setExchange token (e.resolveRace none)
  | _ => route.setExchange token e

def forPrompts (route : ConfirmationRoute) (f : Exchange → Exchange) : ConfirmationRoute :=
  { route with
    exchanges := fun n =>
      if n ∈ route.prompts.map Prod.snd then (route.exchanges n).map f else route.exchanges n }

def onEvent (route : ConfirmationRoute) (now : Nat) :
    ConfirmationInput → Option ConfirmationRoute
  | .channel i => (route.channel.step now i).map fun channel => { route with channel := channel }
  | .setClosing closing => some (route.setSession { route.session with closing := closing })
  | .setRegistered registered => some { route with registered := registered }
  | .setPolicy policy => some { route with policy := policy }
  | .accepted token =>
    if (route.exchanges token).isSome ∨ route.registered = false ∨
        (route.session.kind = .headless ∧ route.session.closing = true) then none
    else some { route.setExchange token .accept with accepted := route.accepted ++ [token] }
  | .frame token frame sends =>
    (route.exchanges token).bind fun e =>
      if e.socket = .closed then none else some (route.onFrame token e frame sends)
  | .socketClosing token => (route.exchanges token).map fun e => route.setExchange token e.closeSocket
  | .socketClosed token =>
    (route.exchanges token).bind fun e =>
      if e.socket = .closed then none else some (route.onSocketClosed token e)
  | .holdExpired token => some (route.setSession (route.session.holdExpired token))
  | .poll token timedOut =>
    (route.exchanges token).bind fun e =>
      match e.phase with
      | .authorizing request none =>
        some (route.setExchange token { e with
          phase := .authorizing request (route.authorizePoll request timedOut) })
      | _ => none
  | .deadline token =>
    (route.exchanges token).bind fun e =>
      if e.prompt.any (·.deadlineArmed) then
        some (route.cleanup token e.closeSocket
          "the confirmation deadline expired before a decision")
      else none
  | .decide confirmationId decision reason =>
    match route.prompts.lookup confirmationId with
    | none => some route
    | some token =>
      (route.exchanges token).map fun e =>
        route.setExchange token
          (e.decidePrompt route.session route.channel.connected decision reason)
  | .retireAll detail => some (route.forPrompts (·.retirePrompt detail))
  | .shutdown =>
    let retired := route.forPrompts (·.retirePrompt "the hub is shutting down")
    some { retired with
      prompts := []
      exchanges := fun n => (retired.exchanges n).map Exchange.closeSocket }
  | .resume _ _ => none

/-- Whether due continuations come before an input. -/
def waits : ConfirmationInput → Bool
  | .channel _ | .frame _ _ _ => false
  | _ => true

def step (route : ConfirmationRoute) (input : Nat × ConfirmationInput) :
    Option ConfirmationRoute :=
  match input.2 with
  | .resume token sends => (route.exchanges token).bind fun e => route.onResume token e sends
  | event =>
    if waits event = true ∧ route.accepted.any route.ready = true then none
    else route.onEvent input.1 event

/-- The route of a session that was just created. -/
def start (id : String) (kind : SessionKind) (identityHoldMs timeoutMs : Nat) :
    ConfirmationRoute where
  channel := .create id kind
  registered := true
  policy := .ask
  identityHoldMs := identityHoldMs
  timeoutMs := timeoutMs
  prompts := []
  exchanges := fun _ => none
  accepted := []

end ConfirmationRoute

end SimplexAgent.Hub
