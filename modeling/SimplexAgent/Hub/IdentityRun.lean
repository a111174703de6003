import SimplexAgent.Hub.Connection
import SimplexAgent.Verified.Runs

/-!
# Whose identity is live

The identity stays on the session while connections come and go. Here a run is any
interleaving of sockets that open, speak and close with confirmations that ask for the
identity and are held. Beside the channel the run remembers, for every socket, the worker
that its last event named.

A live identity should name the worker that the attached connection named. Everything
keeps that except one thing: attaching a connection leaves the identity as it is, so a
connection that supersedes an identified one inherits its worker before it has said a
word. `live_identity_iff` says that this is the only way, for the state and for every
verdict that a confirmation gets.
-/

namespace SimplexAgent.Hub

open Verified Verified.Runs

/-! ## What the operations leave alone -/

theorem judge_of_not_live {workerId : String} {identity : TrackedIdentity}
    (h : identity.state ≠ .live) : judge workerId identity = none := if_pos h

theorem judge_of_live {workerId : String} {identity : TrackedIdentity} (h : identity.state = .live) :
    judge workerId identity = some (if identity.workerId = some workerId then .ok false
      else .refused (.mismatch workerId identity.workerId)) := by
  unfold judge
  rw [if_neg (not_not.mpr h)]
  split <;> rfl

/-- Who is identified, on which connection, who waits for it and who has waited. -/
structure KeepsIdentity (s t : Session) : Prop where
  id : t.id = s.id
  identity : t.identity = s.identity
  connection : t.connection = s.connection
  listeners : t.identityListeners = s.identityListeners
  verdicts : t.verdicts = s.verdicts

namespace KeepsIdentity

variable (s : Session)

theorem refl : KeepsIdentity s s := ⟨rfl, rfl, rfl, rfl, rfl⟩

theorem trans {s t u : Session} (h : KeepsIdentity s t) (h' : KeepsIdentity t u) :
    KeepsIdentity s u :=
  ⟨h'.id.trans h.id, h'.identity.trans h.identity, h'.connection.trans h.connection,
    h'.listeners.trans h.listeners, h'.verdicts.trans h.verdicts⟩

theorem settleRequest (requestId : String) (settled : RequestRecord → RequestRecord) :
    KeepsIdentity s (s.settleRequest requestId settled) :=
  ⟨rfl, rfl, rfl, rfl, rfl⟩

theorem markRequestsUnknown (now : Nat) : KeepsIdentity s (s.markRequestsUnknown now) :=
  ⟨rfl, rfl, rfl, rfl, rfl⟩

theorem noteEnvelope (envelope : Envelope) : KeepsIdentity s (s.noteEnvelope envelope) := by
  constructor <;> unfold Session.noteEnvelope <;> dsimp only <;> split_ifs <;> rfl

theorem observeRequests (envelope : Envelope) (now : Nat) :
    KeepsIdentity s (Channel.observeRequests s envelope now) := by
  unfold Channel.observeRequests
  split
  · exact refl s
  split
  · exact settleRequest s _ _
  split
  · split
    · exact settleRequest s _ _
    · exact refl s
  · exact refl s

theorem notifyIdentity {s : Session} (h : s.identity.state ≠ .live) :
    KeepsIdentity s s.notifyIdentity := by
  refine ⟨rfl, rfl, rfl, ?_, ?_⟩
  · simp [Session.notifyIdentity, judge_of_not_live h]
  · simp [Session.notifyIdentity, judge_of_not_live h]

end KeepsIdentity

namespace Channel

variable (ch : Channel)

theorem closeSocket_session (socket : Nat) : (ch.closeSocket socket).session = ch.session := by
  unfold closeSocket
  split <;> rfl

theorem noteProtocolError_keeps (socket : Nat) (fatal : Bool) :
    KeepsIdentity ch.session (ch.noteProtocolError socket fatal).session := by
  unfold noteProtocolError
  split
  · exact .refl _
  · dsimp only
    split
    · rw [closeSocket_session]
      exact ⟨rfl, rfl, rfl, rfl, rfl⟩
    · exact ⟨rfl, rfl, rfl, rfl, rfl⟩

theorem noteIssues_keeps (socket : Nat) (issues : List String) (ch : Channel) :
    KeepsIdentity ch.session
      (issues.foldl (fun ch _ => ch.noteProtocolError socket false) ch).session := by
  induction issues generalizing ch with
  | nil => exact .refl _
  | cons issue rest ih => exact (noteProtocolError_keeps ch socket false).trans (ih _)

def Knows (ch ch' : Channel) : Prop := ∀ n, ch'.sockets n = none → ch.sockets n = none

theorem Knows.trans {a b c : Channel} (h : Knows a b) (h' : Knows b c) : Knows a c :=
  fun n hNone => h n (h' n hNone)

theorem knows_setSocket (socket : Nat) (connection : WorkerConnection) :
    Knows ch (ch.setSocket socket connection) := by
  intro n hNone
  unfold setSocket at hNone
  dsimp only at hNone
  split at hNone
  · cases hNone
  · exact hNone

theorem knows_closeSocket (socket : Nat) : Knows ch (ch.closeSocket socket) := by
  unfold closeSocket
  split
  · exact fun _ h => h
  · exact knows_setSocket ch socket _

theorem knows_noteProtocolError (socket : Nat) (fatal : Bool) :
    Knows ch (ch.noteProtocolError socket fatal) := by
  unfold noteProtocolError
  split
  · exact fun _ h => h
  · dsimp only
    split
    · exact Knows.trans (b := { ch.setSocket socket _ with session := _ })
        (knows_setSocket ch socket _) (knows_closeSocket _ socket)
    · exact knows_setSocket ch socket _

theorem knows_noteIssues (socket : Nat) (issues : List String) (ch : Channel) :
    Knows ch (issues.foldl (fun ch _ => ch.noteProtocolError socket false) ch) := by
  induction issues generalizing ch with
  | nil => exact fun _ h => h
  | cons issue rest ih => exact (knows_noteProtocolError ch socket false).trans (ih _)

end Channel

/-! ## What the steps of a channel do to the identity -/

def liveVerdict (found : String) (listener : IdentityListener) : IdentityVerdict :=
  if found = listener.workerId then .ok true else .refused (.mismatch listener.workerId (some found))

/-- A worker was named on the attached connection: whoever waits has its verdict. -/
structure Identified (s t : Session) (workerId : String) : Prop where
  id : t.id = s.id
  state : t.identity.state = .live
  worker : t.identity.workerId = some workerId
  connection : t.connection = s.connection
  listeners : t.identityListeners = []
  verdicts : t.verdicts = s.verdicts ++
    s.identityListeners.map fun l => (l.token, liveVerdict workerId l)

theorem noteIdentity_identified (s : Session) (workerId : String) (now : Nat) :
    Identified s (s.noteIdentity workerId now) workerId := by
  have hListeners : ∀ t : Session, t.identity.state = .live →
      t.notifyIdentity.identityListeners = [] := by
    intro t hLive
    simp [Session.notifyIdentity, judge_of_live hLive]
  have hVerdicts : ∀ t : Session, t.identity.state = .live → t.identity.workerId = some workerId →
      t.notifyIdentity.verdicts = t.verdicts ++
        t.identityListeners.map fun l => (l.token, liveVerdict workerId l) := by
    intro t hLive hWorker
    unfold Session.notifyIdentity
    dsimp only
    congr 1
    rw [← List.filterMap_eq_map]
    apply List.filterMap_congr
    intro listener _
    rw [judge_of_live hLive, hWorker]
    by_cases h : workerId = listener.workerId
    · simp [liveVerdict, h, IdentityVerdict.afterHold]
    · simp [liveVerdict, h, IdentityVerdict.afterHold]
  unfold Session.noteIdentity
  dsimp only
  refine ⟨?_, rfl, rfl, ?_, hListeners _ rfl, ?_⟩
  · unfold Session.notifyIdentity
    dsimp only
    split <;> rfl
  · unfold Session.notifyIdentity
    dsimp only
    split <;> rfl
  · rw [hVerdicts _ rfl rfl]
    dsimp only
    split <;> rfl

theorem Identified.of_keeps {r s t u : Session} {workerId : String} (h : KeepsIdentity r s)
    (hNamed : Identified s t workerId) (h' : KeepsIdentity t u) : Identified r u workerId where
  id := h'.id.trans (hNamed.id.trans h.id)
  state := by rw [h'.identity, hNamed.state]
  worker := by rw [h'.identity, hNamed.worker]
  connection := h'.connection.trans (hNamed.connection.trans h.connection)
  listeners := h'.listeners.trans hNamed.listeners
  verdicts := by rw [h'.verdicts, hNamed.verdicts, h.verdicts, h.listeners]

/-- Nobody is identified any more, and who waits goes on waiting. -/
structure Unidentified (s t : Session) : Prop where
  id : t.id = s.id
  identity : t.identity.state ≠ .live
  connection : t.connection = s.connection
  listeners : t.identityListeners = s.identityListeners
  verdicts : t.verdicts = s.verdicts

theorem Unidentified.keeps {s t u : Session} (h : Unidentified s t) (h' : KeepsIdentity t u) :
    Unidentified s u where
  id := h'.id.trans h.id
  identity := by rw [h'.identity]; exact h.identity
  connection := h'.connection.trans h.connection
  listeners := h'.listeners.trans h.listeners
  verdicts := h'.verdicts.trans h.verdicts

theorem markStale_unidentified (s : Session) : Unidentified s s.markStale := by
  unfold Session.markStale
  dsimp only
  split
  · rename_i hNot
    exact ⟨rfl, hNot, rfl, rfl, rfl⟩
  · refine Unidentified.keeps ?_ (KeepsIdentity.notifyIdentity ?_)
    · exact ⟨rfl, (fun h => by cases h), rfl, rfl, rfl⟩
    · exact fun h => by cases h

theorem detach_unidentified {s : Session} {socket : Nat} (now : Nat)
    (h : s.connection = some socket) :
    Unidentified { s with connection := none } (s.detach socket now) := by
  unfold Session.detach
  rw [if_neg (not_not.mpr h)]
  exact (markStale_unidentified _).keeps (.markRequestsUnknown _ now)

theorem detach_other {s : Session} {socket : Nat} (now : Nat) (h : s.connection ≠ some socket) :
    s.detach socket now = s := if_pos h

/-- The channel of a session, and the worker that each socket named last. -/
structure IdentityRun where
  channel : Channel
  spoke : Nat → Option String

inductive IdentityInput where
  | channel (input : ChannelInput)
  /-- A confirmation asks for the identity, with the time it may be held. -/
  | ask (token : Nat) (workerId : String) (holdMs : Nat)
  /-- The timer of its hold. -/
  | expire (token : Nat)

namespace IdentityRun

def start (id : String) (kind : SessionKind) : IdentityRun where
  channel := .create id kind
  spoke := fun _ => none

def named (ch : Channel) : ChannelInput → Option String
  | .message socket (.event envelope) =>
    if ch.session.connection = some socket ∧ envelope.sessionId = ch.session.id then
      some envelope.workerId
    else none
  | _ => none

/-- Remember what a socket said. -/
def hear (spoke : Nat → Option String) (ch : Channel) (input : ChannelInput) :
    Nat → Option String :=
  match input, named ch input with
  | .message socket _, some workerId => fun n => if n = socket then some workerId else spoke n
  | _, _ => spoke

def step (r : IdentityRun) : Nat × IdentityInput → Option IdentityRun
  | (now, .channel input) =>
    (r.channel.step now input).map fun channel =>
      { channel := channel, spoke := hear r.spoke r.channel input }
  | (_, .ask token workerId holdMs) =>
    some { r with channel := { r.channel with
      session := r.channel.session.awaitWorkerIdentity token workerId holdMs } }
  | (_, .expire token) =>
    some { r with channel := { r.channel with
      session := r.channel.session.holdExpired token } }

def attachedSpoke (r : IdentityRun) : Option String := r.channel.session.connection.bind r.spoke

/-- A live identity names the worker that the attached connection named. -/
def Backed (r : IdentityRun) : Prop :=
  r.channel.session.identity.state = .live →
    ∃ w, r.channel.session.identity.workerId = some w ∧ r.attachedSpoke = some w

/-- A verdict was reached by what the attached connection said, or by a timer. -/
def Grounded (r : IdentityRun) : IdentityVerdict → Prop
  | .ok _ => r.attachedSpoke.isSome
  | .refused (.mismatch claimed found) => found = r.attachedSpoke ∧ ∃ w, found = some w ∧ w ≠ claimed
  | .refused .notVerified => True
  | .refused (.notVerifiedWithin _) => True

def newVerdicts (r r' : IdentityRun) : List (Nat × IdentityVerdict) :=
  r'.channel.session.verdicts.drop r.channel.session.verdicts.length

def HeldOrAnswered (r r' : IdentityRun) (token : Nat) : Prop :=
  (∃ listener ∈ r'.channel.session.identityListeners, listener.token = token) ∨
    ∃ verdict, (token, verdict) ∈ newVerdicts r r'

/-- What a step should keep: the identity is the attached connection's, no verdict is
reached before that connection has spoken, and who waits goes on waiting. -/
def Sound (r : IdentityRun) (input : Nat × IdentityInput) (r' : IdentityRun) : Prop :=
  r'.Backed ∧ (∀ entry ∈ newVerdicts r r', r'.Grounded entry.2) ∧
    (∀ listener ∈ r.channel.session.identityListeners, HeldOrAnswered r r' listener.token) ∧
    ∀ token workerId holdMs, input.2 = .ask token workerId holdMs → HeldOrAnswered r r' token

def SupersedesLive (r : IdentityRun) (input : Nat × IdentityInput) : Prop :=
  ∃ socket, input.2 = .channel (.opened socket) ∧ r.channel.session.identity.state = .live

/-- A socket that was never accepted has said nothing. -/
def Fresh (r : IdentityRun) : Prop := ∀ socket, r.channel.sockets socket = none → r.spoke socket = none

/-! ## One step -/

variable {r r' : IdentityRun} {input : Nat × IdentityInput}

variable (ch : Channel) {r : IdentityRun}

theorem onMessage_cases (socket : Nat) (inbound : Inbound) (now : Nat) :
    (named ch (.message socket inbound) = none ∧
        KeepsIdentity ch.session (ch.onMessage socket inbound now).session) ∨
      ∃ w, named ch (.message socket inbound) = some w ∧ ch.session.connection = some socket ∧
        Identified ch.session (ch.onMessage socket inbound now).session w := by
  unfold Channel.onMessage
  by_cases hAttached : ch.session.connection = some socket
  · rw [if_neg (not_not.mpr hAttached)]
    cases inbound with
    | binary | malformed => exact Or.inl ⟨rfl, Channel.noteProtocolError_keeps ch socket true⟩
    | event envelope =>
      dsimp only
      by_cases hOwn : envelope.sessionId = ch.session.id
      · rw [if_neg (not_not.mpr hOwn)]
        refine Or.inr ⟨envelope.workerId, if_pos ⟨hAttached, hOwn⟩, hAttached, ?_⟩
        exact Identified.of_keeps (Channel.noteIssues_keeps socket envelope.issues ch)
          (noteIdentity_identified _ envelope.workerId now)
          ((KeepsIdentity.noteEnvelope _ envelope).trans (.observeRequests _ envelope now))
      · rw [if_pos hOwn]
        exact Or.inl ⟨if_neg (fun h => hOwn h.2), Channel.noteProtocolError_keeps ch socket true⟩
  · rw [if_pos hAttached]
    refine Or.inl ⟨?_, .refl _⟩
    cases inbound with
    | event envelope => exact if_neg fun h => hAttached h.1
    | binary => rfl
    | malformed => rfl

theorem knows_onMessage (socket : Nat) (inbound : Inbound) (now : Nat) :
    Channel.Knows ch (ch.onMessage socket inbound now) := by
  unfold Channel.onMessage
  split
  · exact fun _ h => h
  split
  · exact Channel.knows_noteProtocolError ch socket true
  · exact Channel.knows_noteProtocolError ch socket true
  · split
    · exact Channel.knows_noteProtocolError ch socket true
    · exact Channel.knows_noteIssues socket _ ch

theorem accept_session (socket : Nat) : (ch.accept socket).session = ch.session.attach socket := by
  unfold Channel.accept
  dsimp only
  split
  · split
    · rw [Channel.closeSocket_session]
    · rfl
  · rfl

theorem knows_accept (socket : Nat) : Channel.Knows ch (ch.accept socket) := by
  unfold Channel.accept
  dsimp only
  split
  · split
    · exact Channel.Knows.trans (Channel.knows_setSocket ch socket _)
        (Channel.knows_closeSocket _ _)
    · exact Channel.knows_setSocket ch socket _
  · exact Channel.knows_setSocket ch socket _

theorem onClose_cases (socket now : Nat) : (ch.session.connection = some socket ∧
        Unidentified { ch.session with connection := none } (ch.onClose socket now).session) ∨
      KeepsIdentity ch.session (ch.onClose socket now).session := by
  unfold Channel.onClose
  split
  · exact Or.inr (.refl _)
  · by_cases h : ch.session.connection = some socket
    · exact Or.inl ⟨h, detach_unidentified now h⟩
    · exact Or.inr (by rw [show ch.session.detach socket now = ch.session from
        detach_other now h]; exact .refl _)

theorem knows_onClose (socket now : Nat) : Channel.Knows ch (ch.onClose socket now) := by
  unfold Channel.onClose
  split
  · exact fun _ h => h
  · exact Channel.knows_setSocket ch socket _

/-- What a step is, seen from the identity. -/
inductive Effect (r : IdentityRun) : IdentityInput → IdentityRun → Prop where
  | attached {socket : Nat} {r' : IdentityRun} (hNew : r.channel.sockets socket = none)
      (hSession : r'.channel.session = r.channel.session.attach socket)
      (hSpoke : r'.spoke = r.spoke) : Effect r (.channel (.opened socket)) r'
  | named {socket : Nat} {inbound : Inbound} {w : String} {r' : IdentityRun}
      (hPresent : r.channel.sockets socket ≠ none)
      (hAttached : r.channel.session.connection = some socket)
      (hIdentified : Identified r.channel.session r'.channel.session w)
      (hSpoke : r'.spoke = fun n => if n = socket then some w else r.spoke n) :
      Effect r (.channel (.message socket inbound)) r'
  | detached {socket : Nat} {r' : IdentityRun}
      (hGone : Unidentified { r.channel.session with connection := none } r'.channel.session)
      (hSpoke : r'.spoke = r.spoke) : Effect r (.channel (.closed socket)) r'
  | quiet {input : ChannelInput} {r' : IdentityRun} (hOpened : ∀ n, input ≠ .opened n)
      (hKeeps : KeepsIdentity r.channel.session r'.channel.session)
      (hSpoke : r'.spoke = r.spoke) : Effect r (.channel input) r'
  | asked {token : Nat} {workerId : String} {holdMs : Nat} :
      Effect r (.ask token workerId holdMs) { r with channel := { r.channel with
        session := r.channel.session.awaitWorkerIdentity token workerId holdMs } }
  | expired {token : Nat} : Effect r (.expire token) { r with channel := { r.channel with
        session := r.channel.session.holdExpired token } }

theorem step_effect (h : r.step input = some r') : Effect r input.2 r' := by
  obtain ⟨now, input⟩ := input
  cases input with
  | ask token workerId holdMs =>
    cases h
    exact .asked
  | expire token =>
    cases h
    exact .expired
  | channel input =>
    simp only [step, Option.map_eq_some_iff] at h
    obtain ⟨channel, hStep, rfl⟩ := h
    cases input with
    | opened socket =>
      simp only [Channel.step] at hStep
      split at hStep
      · cases hStep
      · rename_i hNew
        cases hStep
        simp only [not_or, Option.not_isSome_iff_eq_none] at hNew
        exact .attached hNew.1 (accept_session _ socket) rfl
    | message socket inbound =>
      simp only [Channel.step] at hStep
      split at hStep
      · rename_i hPresent
        cases hStep
        rcases onMessage_cases r.channel socket inbound now with ⟨hNone, hKeeps⟩ | ⟨w, hNamed, hAttached, hIdentified⟩
        · exact .quiet (fun _ h => by cases h) hKeeps (by unfold hear; rw [hNone])
        · refine .named ?_ hAttached hIdentified (by unfold hear; rw [hNamed])
          intro hNone
          simp [Channel.present, hNone] at hPresent
      · cases hStep
    | closing socket =>
      simp only [Channel.step] at hStep
      split at hStep
      · cases hStep
        refine .quiet (fun _ h => by cases h) ?_ rfl
        rw [Channel.closeSocket_session]
        exact .refl _
      · cases hStep
    | closed socket =>
      simp only [Channel.step] at hStep
      split at hStep
      · cases hStep
        rcases onClose_cases r.channel socket now with ⟨_, hGone⟩ | hKeeps
        · exact .detached hGone rfl
        · exact .quiet (fun _ h => by cases h) hKeeps rfl
      · cases hStep

theorem step_knows (h : r.step input = some r') : Channel.Knows r.channel r'.channel := by
  obtain ⟨now, input⟩ := input
  cases input with
  | ask token workerId holdMs | expire token =>
    cases h
    exact fun _ h => h
  | channel input =>
    simp only [step, Option.map_eq_some_iff] at h
    obtain ⟨channel, hStep, rfl⟩ := h
    cases input <;> simp only [Channel.step] at hStep <;> split at hStep
    all_goals cases hStep
    · exact knows_accept r.channel _
    · exact knows_onMessage r.channel _ _ now
    · exact Channel.knows_closeSocket r.channel _
    · exact knows_onClose r.channel _ now

/-- A socket that was not accepted yet has said nothing. -/
theorem Fresh.step (h : r.Fresh) (hStep : r.step input = some r') : r'.Fresh := by
  intro n hNone
  have hBefore := step_knows hStep n hNone
  have hSilent := h n hBefore
  have hEffect := step_effect hStep
  generalize input.2 = what at hEffect
  cases hEffect with
  | attached hNew hSession hSpoke | detached hGone hSpoke | quiet hOpened hKeeps hSpoke =>
    rw [hSpoke]; exact hSilent
  | named hPresent hAttached hIdentified hSpoke =>
    rw [hSpoke]
    dsimp only
    have hOther : ∀ m, r.channel.sockets m ≠ none → n ≠ m := by
      rintro m hKnown rfl
      exact hKnown hBefore
    rw [if_neg (hOther _ hPresent), hSilent]
  | asked | expired => exact hSilent

/-! ## What a step keeps -/

theorem newVerdicts_nil (h : r'.channel.session.verdicts = r.channel.session.verdicts) :
    newVerdicts r r' = [] := by
  rw [newVerdicts, h, List.drop_length]

theorem newVerdicts_append {added : List (Nat × IdentityVerdict)}
    (h : r'.channel.session.verdicts = r.channel.session.verdicts ++ added) :
    newVerdicts r r' = added := by
  rw [newVerdicts, h, List.drop_left]

theorem sound_of_quiet (hBacked : r'.Backed)
    (hListeners : r'.channel.session.identityListeners = r.channel.session.identityListeners)
    (hVerdicts : r'.channel.session.verdicts = r.channel.session.verdicts)
    (hInput : ∀ token workerId holdMs, input.2 ≠ .ask token workerId holdMs) :
    Sound r input r' := by
  refine ⟨hBacked, ?_, ?_, ?_⟩
  · rw [newVerdicts_nil hVerdicts]
    exact fun _ h => absurd h List.not_mem_nil
  · intro listener hListener
    exact Or.inl ⟨listener, hListeners ▸ hListener, rfl⟩
  · intro token workerId holdMs h
    exact absurd h (hInput token workerId holdMs)

theorem Backed.of_keeps (h : r.Backed) (hKeeps : KeepsIdentity r.channel.session r'.channel.session)
    (hSpoke : r'.spoke = r.spoke) : r'.Backed := by
  unfold Backed attachedSpoke at *
  rw [hKeeps.identity, hKeeps.connection, hSpoke]
  exact h

theorem backed_of_not_live (h : r.channel.session.identity.state ≠ .live) :
    r.Backed := fun hLive => absurd hLive h

theorem grounded_liveVerdict {w : String} (h : r.attachedSpoke = some w)
    (listener : IdentityListener) : r.Grounded (liveVerdict w listener) := by
  unfold liveVerdict
  split
  · exact Option.isSome_iff_exists.mpr ⟨w, h⟩
  · rename_i hOther
    exact ⟨h.symm, w, rfl, hOther⟩

theorem sound_named {socket : Nat} {w : String}
    (hAttached : r.channel.session.connection = some socket)
    (hIdentified : Identified r.channel.session r'.channel.session w)
    (hSpoke : r'.spoke = fun n => if n = socket then some w else r.spoke n)
    (hInput : ∀ token workerId holdMs, input.2 ≠ .ask token workerId holdMs) :
    Sound r input r' := by
  have hSaid : r'.attachedSpoke = some w := by
    unfold attachedSpoke
    rw [hIdentified.connection, hAttached, hSpoke]
    simp
  refine ⟨fun _ => ⟨w, hIdentified.worker, hSaid⟩, ?_, ?_, ?_⟩
  · rw [newVerdicts_append hIdentified.verdicts]
    intro entry hEntry
    obtain ⟨listener, _, rfl⟩ := List.mem_map.mp hEntry
    exact grounded_liveVerdict hSaid listener
  · intro listener hListener
    refine Or.inr ⟨liveVerdict w listener, ?_⟩
    rw [newVerdicts_append hIdentified.verdicts]
    exact List.mem_map.mpr ⟨listener, hListener, rfl⟩
  · intro token workerId holdMs h
    exact absurd h (hInput token workerId holdMs)

theorem sound_ask (hBacked : r.Backed) (now token : Nat) (workerId : String) (holdMs : Nat) :
    Sound r (now, .ask token workerId holdMs) { r with channel := { r.channel with
      session := r.channel.session.awaitWorkerIdentity token workerId holdMs } } := by
  unfold Session.awaitWorkerIdentity
  by_cases hLive : r.channel.session.identity.state = .live
  · obtain ⟨w, hWorker, hSaid⟩ := hBacked hLive
    rw [judge_of_live hLive, hWorker]
    dsimp only
    refine ⟨fun _ => ⟨w, hWorker, hSaid⟩, ?_, ?_, ?_⟩
    · rw [newVerdicts_append rfl]
      intro entry hEntry
      rw [List.mem_singleton.mp hEntry]
      dsimp only
      by_cases hSame : some w = some workerId
      · rw [if_pos hSame]
        exact Option.isSome_iff_exists.mpr ⟨w, hSaid⟩
      · rw [if_neg hSame]
        exact ⟨hSaid.symm, w, rfl, fun h => hSame (by rw [h])⟩
    · exact fun listener hListener => Or.inl ⟨listener, hListener, rfl⟩
    · intro token' workerId' holdMs' h
      cases h
      exact Or.inr ⟨_, by rw [newVerdicts_append rfl]; exact List.mem_singleton.mpr rfl⟩
  · rw [judge_of_not_live hLive]
    dsimp only
    split
    · refine ⟨backed_of_not_live hLive, ?_, ?_, ?_⟩
      · rw [newVerdicts_append rfl]
        intro entry hEntry
        rw [List.mem_singleton.mp hEntry]
        trivial
      · exact fun listener hListener => Or.inl ⟨listener, hListener, rfl⟩
      · intro token' workerId' holdMs' h
        cases h
        exact Or.inr ⟨_, by rw [newVerdicts_append rfl]; exact List.mem_singleton.mpr rfl⟩
    · refine ⟨backed_of_not_live hLive, ?_, ?_, ?_⟩
      · intro entry hEntry
        simp [newVerdicts] at hEntry
      · exact fun listener hListener =>
          Or.inl ⟨listener, List.mem_append_left _ hListener, rfl⟩
      · intro token' workerId' holdMs' h
        cases h
        exact Or.inl ⟨_, List.mem_append_right _ (List.mem_singleton.mpr rfl), rfl⟩

theorem sound_expire (hBacked : r.Backed) (now token : Nat) :
    Sound r (now, .expire token) { r with channel := { r.channel with
      session := r.channel.session.holdExpired token } } := by
  refine ⟨hBacked, ?_, ?_, ?_⟩
  · rw [newVerdicts_append rfl]
    intro entry hEntry
    obtain ⟨listener, _, rfl⟩ := List.mem_map.mp hEntry
    trivial
  · intro listener hListener
    by_cases hToken : listener.token = token
    · refine Or.inr ⟨.refused (.notVerifiedWithin listener.holdMs), ?_⟩
      rw [newVerdicts_append rfl]
      exact List.mem_map.mpr ⟨listener, List.mem_filter.mpr ⟨hListener, by simpa using hToken⟩,
        by rw [hToken]⟩
    · exact Or.inl ⟨listener, List.mem_filter.mpr ⟨hListener, by simpa using hToken⟩, rfl⟩
  · intro token' workerId' holdMs' h
    cases h

theorem sound_iff (hGood : r.Backed ∧ r.Fresh) (hStep : r.step input = some r') :
    Sound r input r' ↔ ¬r.SupersedesLive input := by
  have hEffect := step_effect hStep
  obtain ⟨now, what⟩ := input
  dsimp only at hEffect
  cases hEffect with
  | attached hNew hSession hSpoke =>
    rename_i socket
    by_cases hLive : r.channel.session.identity.state = .live
    · constructor
      · intro hSound
        have hSame : r'.channel.session.identity = r.channel.session.identity := by
          rw [hSession]
          rfl
        obtain ⟨w, _, hSaid⟩ := hSound.1 (by rw [hSame]; exact hLive)
        have hAttached : r'.channel.session.connection = some socket := by
          rw [hSession]
          rfl
        unfold attachedSpoke at hSaid
        rw [hAttached, hSpoke, Option.bind_some, hGood.2 socket hNew] at hSaid
        cases hSaid
      · exact fun hNot => absurd ⟨socket, rfl, hLive⟩ hNot
    · refine iff_of_true (sound_of_quiet ?_ ?_ ?_ fun _ _ _ h => by cases h)
        fun ⟨_, _, h⟩ => hLive h
      · exact backed_of_not_live (by rw [hSession]; exact hLive)
      · rw [hSession]; rfl
      · rw [hSession]; rfl
  | named hPresent hAttached hIdentified hSpoke =>
    exact iff_of_true (sound_named hAttached hIdentified hSpoke fun _ _ _ h => by cases h)
      fun ⟨_, h, _⟩ => by cases h
  | detached hGone hSpoke =>
    exact iff_of_true (sound_of_quiet (backed_of_not_live hGone.identity) hGone.listeners
      hGone.verdicts fun _ _ _ h => by cases h) fun ⟨_, h, _⟩ => by cases h
  | quiet hOpened hKeeps hSpoke =>
    exact iff_of_true (sound_of_quiet (hGood.1.of_keeps hKeeps hSpoke) hKeeps.listeners
      hKeeps.verdicts fun _ _ _ h => by cases h)
      fun ⟨n, h, _⟩ => hOpened n (IdentityInput.channel.inj h)
  | asked =>
    exact iff_of_true (sound_ask hGood.1 now _ _ _) fun ⟨_, h, _⟩ => by cases h
  | expired =>
    exact iff_of_true (sound_expire hGood.1 now _) fun ⟨_, h, _⟩ => by cases h

end IdentityRun

/-! ## Whole runs -/

open IdentityRun

/-- In a run, a live identity always names the worker of the attached connection, every
verdict of a confirmation but that of a timer is reached by what this connection said, and
whoever has no verdict is held, exactly when no connection is attached over a live
identity. -/
theorem live_identity_iff (id : String) (kind : SessionKind) (inputs : List (Nat × IdentityInput)) :
    Along IdentityRun.step Sound (start id kind) inputs ↔
      Along IdentityRun.step (fun r input _ => ¬r.SupersedesLive input) (start id kind) inputs := by
  refine along_iff (P := fun r => r.Backed ∧ r.Fresh) ?_ ?_ ?_
  · exact fun r input r' hGood hStep hSound => ⟨hSound.1, hGood.2.step hStep⟩
  · exact fun r input r' hGood hStep => sound_iff hGood hStep
  · exact ⟨fun h => (by cases h), fun _ _ => rfl⟩

/-- A worker's event, as plain as one can be. -/
def statusOf (sessionId workerId : String) : Envelope where
  event := "status"
  sessionId := sessionId
  workerId := workerId
  requestId := ""
  runId := ""
  active := false
  capabilities := none
  rejected := none
  message := none
  issues := []

/-- A restarted worker connects before the socket of its predecessor is closed. Its
connection has not spoken, the identity is still live with the old worker, and its
confirmation is refused as another worker's instead of being held. -/
theorem superseded_identity_live : ∃ r, run IdentityRun.step (start "s" .ordinary)
        [(0, .channel (.opened 0)), (1, .channel (.message 0 (.event (statusOf "s" "old")))),
          (2, .channel (.opened 1)), (3, .ask 0 "new" 1000)] = some r ∧
      r.channel.session.connection = some 1 ∧ r.spoke 1 = none ∧
      r.channel.session.identity.state = .live ∧
      r.channel.session.identity.workerId = some "old" ∧
      r.channel.session.verdicts = [(0, .refused (.mismatch "new" (some "old")))] ∧
      r.channel.session.identityListeners = [] :=
  ⟨_, rfl, rfl, rfl, rfl, rfl, rfl, rfl⟩

end SimplexAgent.Hub
