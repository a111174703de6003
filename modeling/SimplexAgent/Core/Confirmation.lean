import SimplexAgent.Protocol.Wire
import SimplexAgent.Tools.SecurityCheck

/-!
# Confirmation

`core/confirmation.cpp`. The worker answers a request for confirmation by the
policy of its run: it refuses, it approves, or it asks a peer over the network
and believes a reply only when that reply names this very request.

A run's scope arbitrates approval against cancellation: whoever comes first under
its lock wins. `confirm` waits for the peer, and its other steps may be
interleaved with a cancellation, so it is cut into the part before the policy or
the reply is settled and the part that settles it.

The transport, the identity generator, and the text form of JSON are outside the
repository's own sources: what they came to is handed to the functions below.
-/

namespace SimplexAgent.Core

open Dataclass Tools

/-! ## Options and scope -/

inductive ConfirmationMode where
  | ask
  | approve
  | deny
  deriving DecidableEq, Repr, Inhabited

def ConfirmationMode.ofJson (value : Json) : Option ConfirmationMode :=
  if value = .str "ask" then some .ask
  else if value = .str "approve" then some .approve
  else if value = .str "deny" then some .deny
  else none

def handleConfirmationEntry (_ : ConfirmationMode) (entry : String × Json) :
    Except String ConfirmationMode :=
  if entry.1 ≠ "mode" then .error ("unsupported confirmation option: " ++ entry.1)
  else
    match ConfirmationMode.ofJson entry.2 with
    | some mode => .ok mode
    | none => .error "confirmation mode must be ask, approve or deny"

def handleConfirmationOptions (mode : ConfirmationMode) (options : Json) :
    Except String ConfirmationMode :=
  match options with
  | .obj entries => entries.foldlM handleConfirmationEntry mode
  | _ => .error "confirmation options must be an object"

/-- The confirmation boundary of one run: the policy frozen for it, the flag its
lock protects, and the stop token. -/
structure ConfirmationScope where
  mode : ConfirmationMode
  stopping : Bool := false
  stopRequested : Bool := false

def ConfirmationScope.settleApproval (scope : ConfirmationScope) (approved : Bool) : Bool :=
  approved && !scope.stopping

/-! ## Asking a peer -/

/-- Something that was thrown outside the tools module: a standard exception with
its text, or no standard exception. -/
inductive Thrown where
  | standard (what : String)
  | other

def Thrown.outcome {α : Type} : Thrown → Tools.Outcome α
  | .standard what => .threw what
  | .other => .unknown

/-- What a worker confirms with: whether an endpoint is configured, the labels a
reply must echo, and the library's text form of JSON. -/
structure ConfirmConfig where
  endpoint : Bool
  workerId : String
  sessionId : String
  runId : String
  dump : Json → Except Thrown String
  parse : String → Except String Json

/-- `wire_call`. -/
def wireCall (query : InvokeQuery) : Json :=
  (Json.object [("id", .str query.id), ("name", .str query.name),
    ("arguments", query.arguments), ("type", query.type.toJson),
    ("security", query.security.toJson)]).setOptional "extras" query.extras

def confirmationRequest (config : ConfirmConfig) (id : String) (query : InvokeQuery) : Json :=
  Json.object [("type", .str "confirmation_request"),
    ("data", Json.object [("worker_id", .str config.workerId),
      ("session_id", .str config.sessionId), ("run_id", .str config.runId),
      ("confirmation_id", .str id), ("call", wireCall query)])]

structure ConfirmationReply where
  workerId : String
  sessionId : String
  runId : String
  confirmationId : String
  approved : Bool
  reason : Option String

def textMember (record : Protocol.Record) (name : String) : Option String :=
  match record.member name with
  | some (.text value) => some value
  | _ => none

/-- A decoded response envelope, member by member. -/
def readReply (envelope : Protocol.Record) : ConfirmationReply :=
  let data : Protocol.Record := match envelope.member "data" with
    | some (.record members) => members
    | _ => []
  { workerId := (textMember data "worker_id").getD ""
    sessionId := (textMember data "session_id").getD ""
    runId := (textMember data "run_id").getD ""
    confirmationId := (textMember data "confirmation_id").getD ""
    approved := match data.member "decision" with
      | some (.enumerator spelling) => spelling = "approved"
      | _ => false
    reason := textMember data "reason" }

/-- Parse and decode the text a peer sent, with the text of the exception. -/
def decodeReply (config : ConfirmConfig) (wire : String) : Except String ConfirmationReply :=
  match config.parse wire with
  | .error what => .error what
  | .ok value =>
    match Protocol.fromJson Protocol.Wire.declarations "ConfirmationResponseEnvelope" value "" with
    | .error e => .error e.what
    | .ok envelope => .ok (readReply envelope)

def ConfirmationReply.Answers (config : ConfirmConfig) (id : String) (reply : ConfirmationReply) :
    Prop :=
  reply.workerId = config.workerId ∧ reply.sessionId = config.sessionId ∧
    reply.runId = config.runId ∧ reply.confirmationId = id

instance (config : ConfirmConfig) (id : String) (reply : ConfirmationReply) :
    Decidable (reply.Answers config id) :=
  inferInstanceAs (Decidable (_ ∧ _ ∧ _ ∧ _))

def correlatedReply (config : ConfirmConfig) (id wire : String) :
    Except String ConfirmationReply :=
  match decodeReply config wire with
  | .error what => .error what
  | .ok reply =>
    if reply.Answers config id then .ok reply else .error "confirmation correlation mismatch"

theorem correlatedReply_ok {config : ConfirmConfig} {id wire : String}
    {reply : ConfirmationReply} (h : correlatedReply config id wire = .ok reply) :
    decodeReply config wire = .ok reply ∧ reply.Answers config id := by
  unfold correlatedReply at h
  split at h
  · cases h
  · rename_i found hDecode
    split at h
    · rename_i hAnswers
      injection h with hReply
      rw [← hReply]
      exact ⟨hDecode, hAnswers⟩
    · cases h

/-! ## The coroutine -/

/-- Where `confirm` stands after its first checks. -/
inductive ConfirmStart where
  | answered (event : InvokeConfirmEvent)
  | approving
  | exchanging (id request : String)
  | threw (thrown : Thrown)

def deniedFor (query : InvokeQuery) (reason : String) : InvokeConfirmEvent :=
  { query := query, decision := .denied, reason := reason }

def approvedFor (query : InvokeQuery) (reason : String) : InvokeConfirmEvent :=
  { query := query, decision := .approved, reason := reason }

def confirmRequest (config : ConfirmConfig) (query : InvokeQuery)
    (identity : Except Thrown String) : ConfirmStart :=
  match identity with
  | .error thrown => .threw thrown
  | .ok id =>
    match config.dump (confirmationRequest config id query) with
    | .error thrown => .threw thrown
    | .ok encoded =>
      if encoded.utf8ByteSize > 1024 * 1024 then
        .answered (deniedFor query
          "confirmation request exceeds the 1 MiB transport budget; invocation denied")
      else .exchanging id encoded

/-- `confirm` until it settles a policy or waits for a reply. -/
def confirmStart (config : ConfirmConfig) (scope : Option ConfirmationScope)
    (query : InvokeQuery) (identity : Except Thrown String) : ConfirmStart :=
  match scope with
  | none => .answered (deniedFor query "run cancelled before confirmation")
  | some scope =>
    if scope.stopRequested then .answered (deniedFor query "run cancelled before confirmation")
    else
      match scope.mode with
      | .deny => .answered (deniedFor query "confirmation policy denies the invocation")
      | .approve => .approving
      | .ask =>
        if config.endpoint then confirmRequest config query identity
        else .answered (deniedFor query "confirmation endpoint is not configured")

def settlePolicy (scope : ConfirmationScope) (query : InvokeQuery) : InvokeConfirmEvent :=
  if scope.settleApproval true then
    approvedFor query "confirmation policy approves the invocation"
  else deniedFor query "run cancelled during confirmation"

def settleReply (scope : ConfirmationScope) (query : InvokeQuery) (reply : ConfirmationReply) :
    InvokeConfirmEvent :=
  if scope.settleApproval reply.approved then
    approvedFor query (reply.reason.getD "operator decision")
  else if reply.approved || scope.stopRequested then
    deniedFor query "run cancelled during confirmation"
  else deniedFor query (reply.reason.getD "operator decision")

/-- `confirm` after the exchange: standard exceptions deny, others pass through. -/
def confirmReply (config : ConfirmConfig) (scope : ConfirmationScope) (query : InvokeQuery)
    (id : String) : Except Thrown String → Tools.Outcome InvokeConfirmEvent
  | .error (.standard what) => .returned (deniedFor query ("confirmation failed: " ++ what))
  | .error .other => .unknown
  | .ok wire =>
    match correlatedReply config id wire with
    | .error what => .returned (deniedFor query ("confirmation failed: " ++ what))
    | .ok reply => .returned (settleReply scope query reply)

theorem settlePolicy_approved {scope : ConfirmationScope} {query : InvokeQuery}
    (h : (settlePolicy scope query).decision = .approved) : scope.stopping = false := by
  unfold settlePolicy at h
  split at h
  · rename_i hSettled
    simpa [ConfirmationScope.settleApproval] using hSettled
  · cases h

theorem confirmReply_approved {config : ConfirmConfig} {scope : ConfirmationScope}
    {query : InvokeQuery} {id : String} {exchanged : Except Thrown String}
    {event : InvokeConfirmEvent}
    (h : confirmReply config scope query id exchanged = .returned event)
    (hApproved : event.decision = .approved) :
    scope.stopping = false ∧ ∃ wire reply, exchanged = .ok wire ∧
      decodeReply config wire = .ok reply ∧ reply.Answers config id ∧ reply.approved = true := by
  unfold confirmReply at h
  split at h
  · injection h with hEvent
    rw [← hEvent] at hApproved
    cases hApproved
  · cases h
  · rename_i wire
    split at h
    · injection h with hEvent
      rw [← hEvent] at hApproved
      cases hApproved
    · rename_i reply hReply
      injection h with hEvent
      obtain ⟨hDecode, hAnswers⟩ := correlatedReply_ok hReply
      rw [← hEvent] at hApproved
      unfold settleReply at hApproved
      split at hApproved
      · rename_i hSettled
        simp only [ConfirmationScope.settleApproval, Bool.and_eq_true, Bool.not_eq_true'] at hSettled
        exact ⟨hSettled.2, wire, reply, rfl, hDecode, hAnswers, hSettled.1⟩
      · split at hApproved <;> cases hApproved

theorem confirmReply_ne_failed (config : ConfirmConfig) (scope : ConfirmationScope)
    (query : InvokeQuery) (id : String) (exchanged : Except Thrown String) (e : InvokeException) :
    confirmReply config scope query id exchanged ≠ .failed e := by
  intro h
  unfold confirmReply at h
  split at h
  · cases h
  · cases h
  · split at h <;> cases h

end SimplexAgent.Core
