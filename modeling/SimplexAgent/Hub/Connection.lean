import SimplexAgent.Hub.Session

/-!
# The event connections of a session

`WorkerConnection` and the upgrade route of `worker/connection.ts`. A session can have
several sockets at a time: a new connection supersedes the attached one, which is closed
but reports its own close event later, after its replacement is attached. Messages of a
socket that is not the attached one are ignored.

Of a socket the hub sees four things: that it was accepted, its messages, that it stopped
being open, and its close event, which comes last.
-/

namespace SimplexAgent.Hub

def maxProtocolErrors : Nat := 20

/-- `WorkerConnection`: whether its socket is open, whether its close event was handled,
and the protocol errors noted. -/
structure WorkerConnection where
  isOpen : Bool
  gone : Bool
  errors : Nat
  deriving DecidableEq, Repr

/-- A session with the sockets that were accepted for it. -/
structure Channel where
  session : Session
  sockets : Nat → Option WorkerConnection

/-- One message of a socket, after `parseEventEnvelope`. -/
inductive Inbound where
  | binary
  | malformed
  | event (envelope : Envelope)

/-- What happens to the event connections of a session. -/
inductive ChannelInput where
  /-- The upgrade of a new socket is accepted. -/
  | opened (socket : Nat)
  | message (socket : Nat) (inbound : Inbound)
  /-- The socket is no longer open: either side started to close it, or it broke. -/
  | closing (socket : Nat)
  /-- The close event of the socket. -/
  | closed (socket : Nat)

namespace Channel

def create (id : String) (kind : SessionKind) : Channel where
  session := .create id kind
  sockets := fun _ => none

def setSocket (ch : Channel) (socket : Nat) (connection : WorkerConnection) : Channel :=
  { ch with sockets := fun n => if n = socket then some connection else ch.sockets n }

/-- `isOpen` of a socket. -/
def isOpen (ch : Channel) (socket : Nat) : Bool :=
  (ch.sockets socket).any (·.isOpen)

/-- `connected`. -/
def connected (ch : Channel) : Bool := ch.session.connection.any ch.isOpen

/-- `close` and `terminate`, as far as the hub can tell before the close event. -/
def closeSocket (ch : Channel) (socket : Nat) : Channel :=
  match ch.sockets socket with
  | none => ch
  | some connection => ch.setSocket socket { connection with isOpen := false }

/-- `noteProtocolError`: repeated fatal ones end the connection. -/
def noteProtocolError (ch : Channel) (socket : Nat) (fatal : Bool) : Channel :=
  match ch.sockets socket with
  | none => ch
  | some connection =>
    let connection := { connection with errors := connection.errors + 1 }
    let ch := { ch.setSocket socket connection with
      session := { ch.session with protocolErrors := ch.session.protocolErrors + 1 } }
    if fatal ∧ maxProtocolErrors ≤ connection.errors then ch.closeSocket socket else ch

/-- The part of the panel's `onEvent` hook that concerns the requests of a session; the
headless sessions have a ledger of their own. -/
def observeRequests (session : Session) (envelope : Envelope) (now : Nat) : Session :=
  if session.kind = .headless then session
  else if envelope.event = "input_admitted" then session.noteRequestAdmitted envelope.requestId now
  else if envelope.event = "input_rejected" then
    match envelope.rejected with
    | some requestId => session.noteRequestRejected requestId (envelope.message.getD "") now
    | none => session
  else session

/-- `onMessage`. -/
def onMessage (ch : Channel) (socket : Nat) (inbound : Inbound) (now : Nat) : Channel :=
  if ch.session.connection ≠ some socket then ch
  else
    match inbound with
    | .binary => ch.noteProtocolError socket true
    | .malformed => ch.noteProtocolError socket true
    | .event envelope =>
      if envelope.sessionId ≠ ch.session.id then ch.noteProtocolError socket true
      else
        let ch := envelope.issues.foldl (fun ch _ => ch.noteProtocolError socket false) ch
        let session := (ch.session.noteIdentity envelope.workerId now).noteEnvelope envelope
        { ch with session := observeRequests session envelope now }

/-- `accept`: the new connection is attached, and the one it supersedes is closed. -/
def accept (ch : Channel) (socket : Nat) : Channel :=
  let previous := ch.session.connection
  let ch := { ch.setSocket socket { isOpen := true, gone := false, errors := 0 } with
    session := ch.session.attach socket }
  match previous with
  | some old => if old ≠ socket then ch.closeSocket old else ch
  | none => ch

/-- `onClose`. -/
def onClose (ch : Channel) (socket now : Nat) : Channel :=
  match ch.sockets socket with
  | none => ch
  | some connection =>
    { ch.setSocket socket { connection with isOpen := false, gone := true } with
      session := ch.session.detach socket now }

/-- A socket whose close event has not come. -/
def present (ch : Channel) (socket : Nat) : Bool :=
  (ch.sockets socket).any fun connection => !connection.gone

/-- What an input does. A socket is accepted once, unless the lifecycle of a headless
session is stopping, and says nothing after its close event. -/
def step (now : Nat) (ch : Channel) : ChannelInput → Option Channel
  | .opened socket =>
    if (ch.sockets socket).isSome ∨ (ch.session.kind = .headless ∧ ch.session.closing = true)
    then none
    else some (ch.accept socket)
  | .message socket inbound =>
    if ch.present socket then some (ch.onMessage socket inbound now) else none
  | .closing socket => if ch.present socket then some (ch.closeSocket socket) else none
  | .closed socket => if ch.present socket then some (ch.onClose socket now) else none

end Channel

end SimplexAgent.Hub
