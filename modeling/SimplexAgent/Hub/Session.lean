import SimplexAgent.Verified.KeyedTable

/-!
# A session of the hub

`Session` of `state/registry.ts`: what the hub knows about one worker process. The event
connection is a number, one per accepted socket. The identity has three states, because a
worker that was seen once may be gone; who may judge a confirmation by it is decided in
`judge`, and a confirmation that cannot be judged yet is held by an observer of the
identity until the window of its hold expires.

A held confirmation is named by a token, and its promise is an entry of `verdicts` once it
is resolved: an observer that has resolved its promise has also unsubscribed.

The requests that were sent to the worker are a map in insertion order. Nothing
acknowledges a delivery, so a request is `sent` until the worker admits or rejects it, and
unknown once the connection is gone.
-/

namespace SimplexAgent.Hub

open Verified

/-- `IDENTITY`. -/
inductive IdentityState where
  | unknown
  | live
  | stale
  deriving DecidableEq, Repr

/-- `TrackedIdentity`; times are milliseconds. -/
structure TrackedIdentity where
  state : IdentityState
  workerId : Option String
  since : Option Nat
  lastWorkerId : Option String
  deriving DecidableEq, Repr

inductive RequestState where
  | sent
  | admitted
  | rejected
  | unknown
  deriving DecidableEq, Repr

/-- `RequestRecord`. -/
structure RequestRecord where
  requestId : String
  operation : String
  state : RequestState
  sentAt : Nat
  settledAt : Option Nat
  detail : String
  deriving DecidableEq, Repr

inductive SessionKind where
  | ordinary
  | headless
  deriving DecidableEq, Repr

structure WorkerCapabilities where
  workerId : String
  names : List String
  deriving DecidableEq, Repr

/-- Why a confirmation could not be attributed to the worker of the session. -/
inductive IdentityRefusal where
  /-- The live worker is another one than the request claims. -/
  | mismatch (claimed : String) (found : Option String)
  /-- There was no time to hold the request. -/
  | notVerified
  /-- The window of the hold expired. -/
  | notVerifiedWithin (holdMs : Nat)
  deriving DecidableEq, Repr

/-- `IdentityVerdict`. -/
inductive IdentityVerdict where
  | ok (held : Bool)
  | refused (why : IdentityRefusal)
  deriving DecidableEq, Repr

structure IdentityListener where
  token : Nat
  workerId : String
  holdMs : Nat
  deriving DecidableEq, Repr

/-- `Session`, without the prompts. -/
structure Session where
  id : String
  kind : SessionKind
  closing : Bool
  connection : Option Nat
  identity : TrackedIdentity
  incarnations : Nat
  protocolErrors : Nat
  workerCapabilities : Option WorkerCapabilities
  lastRunId : String
  activeRunId : String
  identityListeners : List IdentityListener
  verdicts : List (Nat × IdentityVerdict)
  requests : List (String × RequestRecord)

namespace Session

def create (id : String) (kind : SessionKind) : Session where
  id := id
  kind := kind
  closing := false
  connection := none
  identity := { state := .unknown, workerId := none, since := none, lastWorkerId := none }
  incarnations := 0
  protocolErrors := 0
  workerCapabilities := none
  lastRunId := ""
  activeRunId := ""
  identityListeners := []
  verdicts := []
  requests := []

/-! ## Identity -/

end Session

/-- The comparison of `awaitWorkerIdentity`: only a live identity is compared. -/
def judge (workerId : String) (identity : TrackedIdentity) : Option IdentityVerdict :=
  if identity.state ≠ .live then none
  else if identity.workerId = some workerId then some (.ok false)
  else some (.refused (.mismatch workerId identity.workerId))

/-- What an observer makes of a verdict: the request was held. -/
def IdentityVerdict.afterHold : IdentityVerdict → IdentityVerdict
  | .ok _ => .ok true
  | .refused why => .refused why

namespace Session

/-- `notifyIdentity`: every observer compares, and one that has its verdict unsubscribes. -/
def notifyIdentity (s : Session) : Session :=
  { s with
    identityListeners :=
      s.identityListeners.filter fun listener => (judge listener.workerId s.identity).isNone
    verdicts := s.verdicts ++ s.identityListeners.filterMap fun listener =>
      (judge listener.workerId s.identity).map fun verdict =>
        (listener.token, verdict.afterHold) }

/-- `awaitWorkerIdentity`: the promise is resolved at once, or an observer is left behind. -/
def awaitWorkerIdentity (s : Session) (token : Nat) (workerId : String) (holdMs : Nat) :
    Session :=
  match judge workerId s.identity with
  | some verdict => { s with verdicts := s.verdicts ++ [(token, verdict)] }
  | none =>
    if holdMs = 0 then
      { s with verdicts := s.verdicts ++ [(token, .refused .notVerified)] }
    else
      { s with identityListeners := s.identityListeners ++ [⟨token, workerId, holdMs⟩] }

def holdExpired (s : Session) (token : Nat) : Session :=
  { s with
    identityListeners := s.identityListeners.filter fun listener => listener.token ≠ token
    verdicts := s.verdicts ++
      (s.identityListeners.filter fun listener => listener.token = token).map fun listener =>
        (token, .refused (.notVerifiedWithin listener.holdMs)) }

/-- `noteIdentity`. -/
def noteIdentity (s : Session) (workerId : String) (now : Nat) : Session :=
  let previous := s.identity.workerId
  let incarnation := previous ≠ none ∧ previous ≠ some workerId
  let s := if previous ≠ some workerId then
      { s with workerCapabilities := none, activeRunId := "" } else s
  notifyIdentity
    { s with
      incarnations := if incarnation then s.incarnations + 1 else s.incarnations
      identity :=
        { state := .live
          workerId := some workerId
          since := if incarnation ∨ previous = none then some now else s.identity.since
          lastWorkerId := some workerId } }

/-- `markStale`: a known identity is no longer backed by an open connection. -/
def markStale (s : Session) : Session :=
  let s := { s with activeRunId := "", workerCapabilities := none }
  if s.identity.state ≠ .live then s
  else
    notifyIdentity
      { s with
        identity :=
          { state := .stale, workerId := none, since := none,
            lastWorkerId := s.identity.workerId } }

/-! ## Requests -/

/-- The limit of `pruneRequests`. -/
def requestLimit : Nat := 200

/-- The loop of `pruneRequests`: oldest first, while there are too many entries, forget one
that is settled. -/
def pruneLoop (limit : Nat) : Nat → List (String × RequestRecord) → List (String × RequestRecord)
  | _, [] => []
  | size, entry :: rest =>
    if size ≤ limit then entry :: rest
    else if entry.2.state = .sent then entry :: pruneLoop limit size rest
    else pruneLoop limit (size - 1) rest

/-- `pruneRequests`. -/
def pruneRequests (s : Session) : Session :=
  { s with requests := pruneLoop requestLimit s.requests.length s.requests }

def sentRecord (requestId operation : String) (now : Nat) : RequestRecord where
  requestId := requestId
  operation := operation
  state := .sent
  sentAt := now
  settledAt := none
  detail := ""

/-- `trackRequest`. -/
def trackRequest (s : Session) (requestId operation : String) (now : Nat) : Session :=
  pruneRequests
    { s with
      requests := KeyedTable.assign s.requests requestId (sentRecord requestId operation now) }

def settleRequest (s : Session) (requestId : String) (settled : RequestRecord → RequestRecord) :
    Session :=
  { s with
    requests := s.requests.map fun entry =>
      if entry.1 = requestId ∧ entry.2.state = .sent then (entry.1, settled entry.2) else entry }

/-- `noteRequestAdmitted`. -/
def noteRequestAdmitted (s : Session) (requestId : String) (now : Nat) : Session :=
  s.settleRequest requestId fun entry =>
    { entry with state := .admitted, settledAt := some now }

/-- `noteRequestRejected`. -/
def noteRequestRejected (s : Session) (requestId detail : String) (now : Nat) : Session :=
  s.settleRequest requestId fun entry =>
    { entry with state := .rejected, detail := detail, settledAt := some now }

/-- `markRequestsUnknown`. -/
def markRequestsUnknown (s : Session) (now : Nat) : Session :=
  { s with
    requests := s.requests.map fun entry =>
      if entry.2.state = .sent then
        (entry.1, { entry.2 with
          state := .unknown
          settledAt := some now
          detail := "the event connection closed before admission was observed" })
      else entry }

/-- `this.requests.delete`. -/
def forgetRequest (s : Session) (requestId : String) : Session :=
  { s with requests := KeyedTable.drop s.requests requestId }

/-! ## The event connection -/

/-- `attach`. -/
def attach (s : Session) (connection : Nat) : Session :=
  { s with connection := some connection, workerCapabilities := none }

/-- `detach`: only of the current connection. -/
def detach (s : Session) (connection now : Nat) : Session :=
  if s.connection ≠ some connection then s
  else markRequestsUnknown (markStale { s with connection := none }) now

end Session

/-- An event of the worker that passed validation, as far as the registry reads it. -/
structure Envelope where
  event : String
  sessionId : String
  workerId : String
  requestId : String
  runId : String
  /-- `data.active` of a status. -/
  active : Bool
  /-- `data.capabilities`, where it is an array of names. -/
  capabilities : Option (List String)
  /-- `data.request_id` of a rejection. -/
  rejected : Option String
  /-- `data.message`, where it is a text. -/
  message : Option String
  /-- The issues of validation. -/
  issues : List String

/-- `noteEnvelope`, as far as later decisions read what it records. -/
def Session.noteEnvelope (s : Session) (envelope : Envelope) : Session :=
  let s :=
    if envelope.event = "input_admitted" ∨ envelope.event = "run_started" then
      { s with activeRunId := envelope.runId }
    else if envelope.event = "run_finished" ∨ envelope.event = "shutdown" then
      { s with activeRunId := "" }
    else if envelope.event = "status" then
      { s with activeRunId := if envelope.active then envelope.runId else "" }
    else s
  let s :=
    if envelope.event = "ready" ∨ envelope.event = "status" then
      { s with
        workerCapabilities := some ⟨envelope.workerId, envelope.capabilities.getD []⟩ }
    else s
  if envelope.runId ≠ "" then { s with lastRunId := envelope.runId } else s

end SimplexAgent.Hub
