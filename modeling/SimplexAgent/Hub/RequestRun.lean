import SimplexAgent.Hub.IdentityRun

/-!
# What becomes of a request

The requests of a session over any interleaving of sends from the panel and from the
family of the session, worker events, and connections that open, are superseded and close.

Nothing but a send tracks a request and nothing but pruning or the send itself forgets
one. What is not in flight stays as it is, until its identifier is sent again. When the
attached connection closes nothing is in flight any more; a connection that is superseded
closes without this, since it is no longer the attached one.

Pruning only happens where a request is tracked: afterwards there are at most two hundred
entries, or all of them are in flight. Later the same entries can settle, and stay.
-/

namespace SimplexAgent.Hub

open Verified Verified.KeyedTable Verified.Runs

inductive RequestInput where
  | channel (input : ChannelInput)
  /-- The panel sends a payload that was built; the socket may refuse it. -/
  | sendInput (requestId operation : String) (enqueued : Bool)
  /-- The family sends one, which is recorded as rejected when the socket refuses it. -/
  | sendOperation (requestId operation : String) (enqueued : Bool)
  /-- The ledger of the family has seen an admission or a rejection. -/
  | ledgerAdmitted (requestId : String)
  | ledgerRejected (requestId detail : String)

namespace Channel

def tracked (ch : Channel) : Nat × RequestInput → Option Session
  | (now, .sendInput requestId operation _) =>
    if ch.session.closing ∨ ¬ch.connected then none
    else some (ch.session.trackRequest requestId operation now)
  | (now, .sendOperation requestId operation _) =>
    if ch.session.closing ∨ ¬ch.connected ∨ ch.session.identity.state ≠ .live then none
    else some (ch.session.trackRequest requestId operation now)
  | _ => none

/-- What follows once the socket has taken the payload or refused it. -/
def afterSend (session : Session) (now : Nat) : RequestInput → Session
  | .sendInput requestId _ enqueued =>
    if enqueued then session else session.forgetRequest requestId
  | .sendOperation requestId _ enqueued =>
    if enqueued then session
    else session.noteRequestRejected requestId "payload was not enqueued" now
  | _ => session

/-- One input, with its time. A send that is refused before it tracks anything changes
nothing. -/
def requestStep (ch : Channel) (input : Nat × RequestInput) : Option Channel :=
  match input.2 with
  | .channel i => ch.step input.1 i
  | .ledgerAdmitted requestId =>
    some { ch with session := ch.session.noteRequestAdmitted requestId input.1 }
  | .ledgerRejected requestId detail =>
    some { ch with session := ch.session.noteRequestRejected requestId detail input.1 }
  | send =>
    match ch.tracked input with
    | none => some ch
    | some session => some { ch with session := afterSend session input.1 send }

end Channel

/-! ## Pruning -/

def InFlight (entry : String × RequestRecord) : Prop := entry.2.state = .sent

instance (entry : String × RequestRecord) : Decidable (InFlight entry) :=
  inferInstanceAs (Decidable (entry.2.state = .sent))

theorem pruneLoop_sublist (limit size : Nat) (entries : List (String × RequestRecord)) :
    (Session.pruneLoop limit size entries).Sublist entries := by
  induction entries generalizing size with
  | nil => exact List.Sublist.refl _
  | cons entry rest ih =>
    unfold Session.pruneLoop
    split
    · exact List.Sublist.refl _
    split
    · exact (ih size).cons_cons entry
    · exact (ih (size - 1)).cons entry

theorem pruneLoop_keeps {limit size : Nat} {entries : List (String × RequestRecord)}
    {entry : String × RequestRecord} (hMem : entry ∈ entries) (hSent : InFlight entry) :
    entry ∈ Session.pruneLoop limit size entries := by
  induction entries generalizing size with
  | nil => exact hMem
  | cons head rest ih =>
    unfold Session.pruneLoop
    split
    · exact hMem
    split
    · rcases List.mem_cons.mp hMem with rfl | hRest
      · exact List.mem_cons_self
      · exact List.mem_cons_of_mem _ (ih hRest)
    · rename_i hHead
      rcases List.mem_cons.mp hMem with rfl | hRest
      · exact absurd hSent hHead
      · exact ih hRest

/-- After the loop there are few entries, or all of them are in flight. `kept` counts the
ones before the rest, which are in flight. -/
theorem pruneLoop_bound (limit : Nat) (entries : List (String × RequestRecord)) :
    ∀ kept, kept + (Session.pruneLoop limit (kept + entries.length) entries).length ≤ limit ∨
      ∀ entry ∈ Session.pruneLoop limit (kept + entries.length) entries, InFlight entry := by
  induction entries with
  | nil => exact fun _ => Or.inr fun _ h => absurd h List.not_mem_nil
  | cons entry rest ih =>
    intro kept
    have hSize : kept + (entry :: rest).length = kept + 1 + rest.length := by
      rw [List.length_cons]
      omega
    unfold Session.pruneLoop
    split
    · exact Or.inl (by assumption)
    split
    · rename_i hSent
      rw [hSize]
      rcases ih (kept + 1) with hFew | hAll
      · left
        rw [List.length_cons]
        omega
      · right
        intro other hOther
        rcases List.mem_cons.mp hOther with rfl | hRest
        · exact hSent
        · exact hAll other hRest
    · rw [hSize, show kept + 1 + rest.length - 1 = kept + rest.length by omega]
      exact ih kept

variable (s : Session) {ch ch' : Channel}

theorem trackRequest_requests (requestId operation : String) (now : Nat) :
    (s.trackRequest requestId operation now).requests = Session.pruneLoop Session.requestLimit
        (assign s.requests requestId (Session.sentRecord requestId operation now)).length
        (assign s.requests requestId (Session.sentRecord requestId operation now)) := rfl

theorem trackRequest_bound (requestId operation : String) (now : Nat) :
    (s.trackRequest requestId operation now).requests.length ≤ Session.requestLimit ∨
      ∀ entry ∈ (s.trackRequest requestId operation now).requests, InFlight entry := by
  rw [trackRequest_requests]
  have h := pruneLoop_bound Session.requestLimit
    (assign s.requests requestId (Session.sentRecord requestId operation now)) 0
  rwa [Nat.zero_add, Nat.zero_add] at h

theorem trackRequest_other {s : Session} (hKeyed : Keyed s.requests) {requestId : String}
    (operation : String) (now : Nat) {entry : String × RequestRecord} (hMem : entry ∈ s.requests)
    (hOther : entry.1 ≠ requestId) : entry ∈ (s.trackRequest requestId operation now).requests ∨
      ¬InFlight entry ∧ ∀ e ∈ (s.trackRequest requestId operation now).requests, e.1 ≠ entry.1 := by
  rw [trackRequest_requests]
  have hAssigned : entry ∈ assign s.requests requestId (Session.sentRecord requestId operation now) :=
    (mem_assign_of_ne hOther).mpr hMem
  by_cases hKept : entry ∈ Session.pruneLoop Session.requestLimit
      (assign s.requests requestId (Session.sentRecord requestId operation now)).length
      (assign s.requests requestId (Session.sentRecord requestId operation now))
  · exact Or.inl hKept
  · refine Or.inr ⟨fun hSent => hKept (pruneLoop_keeps hAssigned hSent), ?_⟩
    intro e he hKey
    have hIn := (pruneLoop_sublist Session.requestLimit _ _).subset he
    have hSame := List.inj_on_of_nodup_map (hKeyed.assign requestId _) hIn hAssigned hKey
    exact hKept (hSame ▸ he)

theorem trackRequest_self (requestId operation : String) (now : Nat) :
    (requestId, Session.sentRecord requestId operation now) ∈
      (s.trackRequest requestId operation now).requests :=
  pruneLoop_keeps (mem_assign_self _ _ _) rfl

theorem trackRequest_keyed {s : Session} (hKeyed : Keyed s.requests) (requestId operation : String)
    (now : Nat) : Keyed (s.trackRequest requestId operation now).requests :=
  (hKeyed.assign requestId _).sublist
    (List.Sublist.map _ (pruneLoop_sublist Session.requestLimit _ _))

/-! ## Settling -/

/-- Some of the requests in flight are settled, and nothing else changes. -/
def Settles (s t : Session) : Prop :=
  ∃ (which : String × RequestRecord → Bool) (how : RequestRecord → RequestRecord),
    t.requests = s.requests.map fun e =>
      if which e = true ∧ InFlight e then (e.1, how e.2) else e

namespace Settles

theorem of_eq {s t : Session} (h : t.requests = s.requests) : Settles s t :=
  ⟨fun _ => false, fun r => r, by rw [h]; simp⟩

theorem settleRequest (s : Session) (requestId : String)
    (settled : RequestRecord → RequestRecord) : Settles s (s.settleRequest requestId settled) :=
  ⟨fun e => e.1 = requestId, settled, by
    unfold Session.settleRequest InFlight
    simp only [decide_eq_true_eq]⟩

theorem noteRequestAdmitted (s : Session) (requestId : String) (now : Nat) :
    Settles s (s.noteRequestAdmitted requestId now) :=
  settleRequest s requestId _

theorem noteRequestRejected (s : Session) (requestId detail : String) (now : Nat) :
    Settles s (s.noteRequestRejected requestId detail now) :=
  settleRequest s requestId _

theorem markRequestsUnknown (s : Session) (now : Nat) : Settles s (s.markRequestsUnknown now) :=
  ⟨fun _ => true, fun r => { r with
      state := .unknown
      settledAt := some now
      detail := "the event connection closed before admission was observed" }, by
    unfold Session.markRequestsUnknown InFlight
    simp only [true_and]⟩

theorem keys {s t : Session} (h : Settles s t) :
    t.requests.map Prod.fst = s.requests.map Prod.fst := by
  obtain ⟨which, how, hRequests⟩ := h
  rw [hRequests, List.map_map]
  apply List.map_congr_left
  intro e _
  dsimp only [Function.comp]
  split <;> rfl

theorem length {s t : Session} (h : Settles s t) : t.requests.length = s.requests.length := by
  have hKeys := congrArg List.length h.keys
  rwa [List.length_map, List.length_map] at hKeys

theorem mem {s t : Session} (h : Settles s t) {entry : String × RequestRecord}
    (hMem : entry ∈ s.requests) (hSettled : ¬InFlight entry) : entry ∈ t.requests := by
  obtain ⟨which, how, hRequests⟩ := h
  rw [hRequests]
  exact List.mem_map.mpr ⟨entry, hMem, if_neg fun hBoth => hSettled hBoth.2⟩

theorem keyed {s t : Session} (h : Settles s t) (hKeyed : Keyed s.requests) : Keyed t.requests := by
  unfold Keyed
  rw [h.keys]
  exact hKeyed

end Settles

theorem markRequestsUnknown_none (now : Nat) :
    ∀ entry ∈ (s.markRequestsUnknown now).requests, ¬InFlight entry := by
  intro entry hEntry
  obtain ⟨old, _, rfl⟩ := List.mem_map.mp hEntry
  split
  · exact fun h => by cases h
  · assumption

theorem Settles.none {s t : Session} (h : Settles s t) (hNone : ∀ e ∈ s.requests, ¬InFlight e) :
    ∀ e ∈ t.requests, ¬InFlight e := by
  obtain ⟨which, how, hRequests⟩ := h
  rw [hRequests]
  intro e he
  obtain ⟨old, hOld, rfl⟩ := List.mem_map.mp he
  rw [if_neg fun hBoth => hNone old hOld hBoth.2]
  exact hNone old hOld

/-! ## The steps of a channel -/

theorem noteIdentity_requests (workerId : String) (now : Nat) :
    (s.noteIdentity workerId now).requests = s.requests := by
  unfold Session.noteIdentity Session.notifyIdentity
  dsimp only
  split <;> rfl

theorem markStale_requests : s.markStale.requests = s.requests := by
  unfold Session.markStale Session.notifyIdentity
  dsimp only
  split <;> rfl

theorem noteEnvelope_requests (envelope : Envelope) :
    (s.noteEnvelope envelope).requests = s.requests := by
  unfold Session.noteEnvelope
  dsimp only
  split_ifs <;> rfl

theorem noteProtocolError_requests (ch : Channel) (socket : Nat) (fatal : Bool) :
    (ch.noteProtocolError socket fatal).session.requests = ch.session.requests := by
  unfold Channel.noteProtocolError
  split
  · rfl
  · dsimp only
    split
    · rw [Channel.closeSocket_session]
    · rfl

theorem noteIssues_requests (socket : Nat) (issues : List String) (ch : Channel) :
    (issues.foldl (fun ch _ => ch.noteProtocolError socket false) ch).session.requests =
      ch.session.requests := by
  induction issues generalizing ch with
  | nil => rfl
  | cons issue rest ih => exact (ih _).trans (noteProtocolError_requests ch socket false)

theorem observeRequests_settles (envelope : Envelope) (now : Nat) :
    Settles s (Channel.observeRequests s envelope now) := by
  unfold Channel.observeRequests
  split
  · exact .of_eq rfl
  split
  · exact .noteRequestAdmitted s _ _
  split
  · split
    · exact .noteRequestRejected s _ _ _
    · exact .of_eq rfl
  · exact .of_eq rfl

theorem onMessage_settles (ch : Channel) (socket : Nat) (inbound : Inbound) (now : Nat) :
    Settles ch.session (ch.onMessage socket inbound now).session := by
  unfold Channel.onMessage
  split
  · exact .of_eq rfl
  split
  · exact .of_eq (noteProtocolError_requests ch socket true)
  · exact .of_eq (noteProtocolError_requests ch socket true)
  · rename_i envelope
    split
    · exact .of_eq (noteProtocolError_requests ch socket true)
    · obtain ⟨which, how, hRequests⟩ := observeRequests_settles
        (((envelope.issues.foldl (fun ch _ => ch.noteProtocolError socket false)
          ch).session.noteIdentity envelope.workerId now).noteEnvelope envelope) envelope now
      refine ⟨which, how, hRequests.trans ?_⟩
      rw [noteEnvelope_requests, noteIdentity_requests, noteIssues_requests]

theorem onMessage_connection (ch : Channel) (socket : Nat) (inbound : Inbound) (now : Nat) :
    (ch.onMessage socket inbound now).session.connection = ch.session.connection := by
  rcases IdentityRun.onMessage_cases ch socket inbound now with ⟨_, hKeeps⟩ | ⟨_, _, _, hNamed⟩
  · exact hKeeps.connection
  · exact hNamed.connection

theorem onClose_settles (ch : Channel) (socket now : Nat) :
    Settles ch.session (ch.onClose socket now).session := by
  unfold Channel.onClose
  split
  · exact .of_eq rfl
  · dsimp only
    unfold Session.detach
    split
    · exact .of_eq rfl
    · obtain ⟨which, how, hRequests⟩ := Settles.markRequestsUnknown
        (Session.markStale { ch.session with connection := none }) now
      refine ⟨which, how, hRequests.trans ?_⟩
      rw [markStale_requests]

theorem onClose_attached {ch : Channel} {socket now : Nat}
    (hPresent : ch.sockets socket ≠ none) (hAttached : ch.session.connection = some socket) :
    ∀ e ∈ (ch.onClose socket now).session.requests, ¬InFlight e := by
  unfold Channel.onClose
  split
  · rename_i hNone
    exact absurd hNone hPresent
  · dsimp only
    unfold Session.detach
    rw [if_neg (not_not.mpr hAttached)]
    exact markRequestsUnknown_none _ now

theorem onClose_other {ch : Channel} {socket now : Nat}
    (hOther : ch.session.connection ≠ some socket) :
    (ch.onClose socket now).session = ch.session := by
  unfold Channel.onClose
  split
  · rfl
  · exact detach_other now hOther

/-! ## Runs -/

variable {input : Nat × RequestInput}

def sentId : RequestInput → Option String
  | .sendInput requestId _ _ => some requestId
  | .sendOperation requestId _ _ => some requestId
  | _ => none

def takenBack : RequestInput → Option String
  | .sendInput requestId _ false => some requestId
  | _ => none

structure RequestsKept (ch : Channel) (input : Nat × RequestInput) (ch' : Channel) : Prop where
  /-- Without a connection nothing is in flight. -/
  unattached : ch'.session.connection = none → ∀ e ∈ ch'.session.requests, ¬InFlight e
  /-- What is settled stays as it is or is forgotten, unless it is sent again. -/
  settled : ∀ e ∈ ch.session.requests, ¬InFlight e → sentId input.2 ≠ some e.1 →
    e ∈ ch'.session.requests ∨ ∀ e' ∈ ch'.session.requests, e'.1 ≠ e.1
  /-- What is in flight is not forgotten, unless its own send is refused. -/
  inFlight : ∀ e ∈ ch.session.requests, InFlight e → takenBack input.2 ≠ some e.1 →
    ∃ e' ∈ ch'.session.requests, e'.1 = e.1
  /-- Only sends add entries, and right after one is tracked there are few of them or all
  of them are in flight. -/
  bounded : match ch.tracked input with
    | some t => (t.requests.length ≤ Session.requestLimit ∨ ∀ e ∈ t.requests, InFlight e) ∧
        ch'.session.requests.length ≤ t.requests.length
    | none => ch'.session.requests.length ≤ ch.session.requests.length

/-- What the runs keep from step to step. -/
structure RequestsGood (ch : Channel) : Prop where
  unattached : ch.session.connection = none → ∀ e ∈ ch.session.requests, ¬InFlight e
  keyed : Keyed ch.session.requests

theorem kept_of_settles (hTracked : ch.tracked input = none) (h : Settles ch.session ch'.session)
    (hUnattached : ch'.session.connection = none → ∀ e ∈ ch'.session.requests, ¬InFlight e) :
    RequestsKept ch input ch' where
  unattached := hUnattached
  settled := fun _ hMem hSettled _ => Or.inl (h.mem hMem hSettled)
  inFlight := fun e hMem _ _ => by
    have hKey : e.1 ∈ ch'.session.requests.map Prod.fst := by
      rw [h.keys]
      exact List.mem_map.mpr ⟨e, hMem, rfl⟩
    exact List.mem_map.mp hKey
  bounded := by
    rw [hTracked]
    exact Nat.le_of_eq h.length

theorem tracked_session {ch : Channel} {t : Session} (h : ch.tracked input = some t) :
    ∃ requestId operation, sentId input.2 = some requestId ∧
      t = ch.session.trackRequest requestId operation input.1 ∧ ch.connected = true := by
  obtain ⟨now, input⟩ := input
  cases input with
  | channel i | ledgerAdmitted requestId | ledgerRejected requestId detail => cases h
  | sendInput requestId operation enqueued =>
    simp only [Channel.tracked] at h
    split at h
    · cases h
    · rename_i hAllowed
      simp only [not_or, Bool.not_eq_true, Bool.not_eq_false] at hAllowed
      exact ⟨requestId, operation, rfl, (Option.some.inj h).symm, hAllowed.2⟩
  | sendOperation requestId operation enqueued =>
    simp only [Channel.tracked] at h
    split at h
    · cases h
    · rename_i hAllowed
      simp only [not_or, Bool.not_eq_true, Bool.not_eq_false] at hAllowed
      exact ⟨requestId, operation, rfl, (Option.some.inj h).symm, hAllowed.2.1⟩

theorem afterSend_cases (t : Session) (now : Nat) (input : RequestInput) :
    (∃ requestId, takenBack input = some requestId ∧
        Channel.afterSend t now input = t.forgetRequest requestId) ∨
      takenBack input = none ∧ Settles t (Channel.afterSend t now input) := by
  cases input with
  | sendInput requestId operation enqueued =>
    cases enqueued with
    | true => exact Or.inr ⟨rfl, .of_eq rfl⟩
    | false => exact Or.inl ⟨requestId, rfl, rfl⟩
  | sendOperation requestId operation enqueued =>
    cases enqueued with
    | true => exact Or.inr ⟨rfl, .of_eq rfl⟩
    | false => exact Or.inr ⟨rfl, Settles.noteRequestRejected t requestId _ now⟩
  | channel i | ledgerAdmitted requestId | ledgerRejected requestId detail =>
    exact Or.inr ⟨rfl, .of_eq rfl⟩

theorem afterSend_connection (t : Session) (now : Nat) (input : RequestInput) :
    (Channel.afterSend t now input).connection = t.connection := by
  unfold Channel.afterSend
  split
  · split <;> rfl
  · split <;> rfl
  · rfl

theorem takenBack_sent {input : RequestInput} {requestId : String}
    (h : takenBack input = some requestId) : sentId input = some requestId := by
  unfold takenBack at h
  split at h
  · exact h
  · cases h

theorem kept_of_send {t : Session} (hGood : RequestsGood ch) (hTracked : ch.tracked input = some t)
    (hSession : ch'.session = Channel.afterSend t input.1 input.2) :
    RequestsKept ch input ch' ∧ Keyed ch'.session.requests := by
  obtain ⟨requestId, operation, hId, rfl, hConnected⟩ := tracked_session hTracked
  have hAttached : ch'.session.connection ≠ none := by
    rw [hSession, afterSend_connection]
    intro hNone
    have hSame : ch.session.connection = none := hNone
    simp [Channel.connected, hSame] at hConnected
  have hKeyed := trackRequest_keyed hGood.keyed requestId operation input.1
  have hBound := trackRequest_bound ch.session requestId operation input.1
  rcases afterSend_cases (ch.session.trackRequest requestId operation input.1) input.1 input.2
    with ⟨taken, hTaken, hAfter⟩ | ⟨hTaken, hSettles⟩
  · -- the entry of the send itself is deleted again
    have hSame : taken = requestId := Option.some.inj ((takenBack_sent hTaken).symm.trans hId)
    subst hSame
    have hRequests : ch'.session.requests =
        KeyedTable.drop (ch.session.trackRequest taken operation input.1).requests taken := by
      rw [hSession, hAfter]
      rfl
    refine ⟨⟨fun hNone => absurd hNone hAttached, ?_, ?_, ?_⟩, ?_⟩
    · intro e hMem hSettled hOther
      rw [hId] at hOther
      have hNe : e.1 ≠ taken := fun h => hOther (by rw [h])
      rw [hRequests]
      rcases trackRequest_other hGood.keyed operation input.1 hMem hNe with hKept | ⟨_, hGone⟩
      · exact Or.inl (mem_drop.mpr ⟨hKept, hNe⟩)
      · exact Or.inr fun e' he' => hGone e' (mem_drop.mp he').1
    · intro e hMem hSent hOther
      rw [hTaken] at hOther
      have hNe : e.1 ≠ taken := fun h => hOther (by rw [h])
      rcases trackRequest_other hGood.keyed operation input.1 hMem hNe with hKept | ⟨hNot, _⟩
      · exact ⟨e, by rw [hRequests]; exact mem_drop.mpr ⟨hKept, hNe⟩, rfl⟩
      · exact absurd hSent hNot
    · rw [hTracked]
      exact ⟨hBound, by rw [hRequests]; exact length_drop_le _ _⟩
    · rw [hRequests]
      exact hKeyed.drop taken
  · rw [← hSession] at hSettles
    refine ⟨⟨fun hNone => absurd hNone hAttached, ?_, ?_, ?_⟩, hSettles.keyed hKeyed⟩
    · intro e hMem hSettled hOther
      rw [hId] at hOther
      have hNe : e.1 ≠ requestId := fun h => hOther (by rw [h])
      rcases trackRequest_other hGood.keyed operation input.1 hMem hNe with hKept | ⟨_, hGone⟩
      · exact Or.inl (hSettles.mem hKept hSettled)
      · refine Or.inr fun e' he' hKey => ?_
        have hIn : e'.1 ∈ ch'.session.requests.map Prod.fst := List.mem_map.mpr ⟨e', he', rfl⟩
        rw [hSettles.keys, hKey] at hIn
        obtain ⟨old, hOld, hOldKey⟩ := List.mem_map.mp hIn
        exact hGone old hOld hOldKey
    · intro e hMem hSent _
      have hKey : e.1 ∈ ch'.session.requests.map Prod.fst := by
        rw [hSettles.keys]
        by_cases hSame : e.1 = requestId
        · rw [hSame]
          exact List.mem_map.mpr ⟨_, trackRequest_self ch.session requestId operation input.1, rfl⟩
        · rcases trackRequest_other hGood.keyed operation input.1 hMem hSame with hKept | ⟨hNot, _⟩
          · exact List.mem_map.mpr ⟨e, hKept, rfl⟩
          · exact absurd hSent hNot
      exact List.mem_map.mp hKey
    · rw [hTracked]
      exact ⟨hBound, Nat.le_of_eq hSettles.length⟩

theorem channel_settles {now : Nat} {i : ChannelInput} (hGood : RequestsGood ch)
    (hStep : ch.step now i = some ch') : Settles ch.session ch'.session ∧
      (ch'.session.connection = none → ∀ e ∈ ch'.session.requests, ¬InFlight e) := by
  cases i with
  | opened socket =>
    simp only [Channel.step] at hStep
    split at hStep
    · cases hStep
    · cases hStep
      rw [IdentityRun.accept_session]
      exact ⟨.of_eq rfl, fun hNone => by cases hNone⟩
  | message socket inbound =>
    simp only [Channel.step] at hStep
    split at hStep
    · cases hStep
      have hSettles := onMessage_settles ch socket inbound now
      refine ⟨hSettles, fun hNone => hSettles.none (hGood.unattached ?_)⟩
      rwa [onMessage_connection] at hNone
    · cases hStep
  | closing socket =>
    simp only [Channel.step] at hStep
    split at hStep
    · cases hStep
      rw [Channel.closeSocket_session]
      exact ⟨.of_eq rfl, hGood.unattached⟩
    · cases hStep
  | closed socket =>
    simp only [Channel.step] at hStep
    split at hStep
    · rename_i hPresent
      cases hStep
      refine ⟨onClose_settles ch socket now, fun hNone => ?_⟩
      by_cases hAttached : ch.session.connection = some socket
      · refine onClose_attached (fun hAbsent => ?_) hAttached
        simp [Channel.present, hAbsent] at hPresent
      · rw [onClose_other hAttached] at hNone ⊢
        exact hGood.unattached hNone
    · cases hStep

theorem requestStep_kept (hGood : RequestsGood ch) (hStep : ch.requestStep input = some ch') :
    RequestsKept ch input ch' ∧ RequestsGood ch' := by
  have hQuiet : ∀ t : Channel, ch.tracked input = none → Settles ch.session t.session →
      (t.session.connection = none → ∀ e ∈ t.session.requests, ¬InFlight e) →
      RequestsKept ch input t ∧ RequestsGood t := fun t hNone hSettles hUnattached =>
    ⟨kept_of_settles hNone hSettles hUnattached, ⟨hUnattached, hSettles.keyed hGood.keyed⟩⟩
  have hSend : ∀ t : Channel, (match ch.tracked input with
        | none => some ch
        | some session =>
          some { ch with session := Channel.afterSend session input.1 input.2 }) = some t →
      RequestsKept ch input t ∧ RequestsGood t := by
    intro t hResult
    split at hResult
    · rename_i hNone
      cases hResult
      exact hQuiet ch hNone (.of_eq rfl) hGood.unattached
    · rename_i session hTracked
      cases hResult
      have hKept := kept_of_send hGood hTracked
        (show ({ ch with session := Channel.afterSend session input.1 input.2 } : Channel).session =
          Channel.afterSend session input.1 input.2 from rfl)
      exact ⟨hKept.1, ⟨hKept.1.unattached, hKept.2⟩⟩
  obtain ⟨now, what⟩ := input
  cases what with
  | channel i =>
    obtain ⟨hSettles, hUnattached⟩ := channel_settles hGood hStep
    exact hQuiet ch' rfl hSettles hUnattached
  | ledgerAdmitted requestId =>
    cases hStep
    have hSettles := Settles.noteRequestAdmitted ch.session requestId now
    exact hQuiet _ rfl hSettles fun hNone => hSettles.none (hGood.unattached hNone)
  | ledgerRejected requestId detail =>
    cases hStep
    have hSettles := Settles.noteRequestRejected ch.session requestId detail now
    exact hQuiet _ rfl hSettles fun hNone => hSettles.none (hGood.unattached hNone)
  | sendInput requestId operation enqueued | sendOperation requestId operation enqueued =>
    exact hSend ch' hStep

/-- In every run: without a connection no request is in flight; a settled one stays as it
is or is forgotten, unless its identifier is sent again; one in flight is forgotten only by
its own refused send; and tracking a request leaves at most two hundred entries, or only
requests in flight. -/
theorem request_outcomes (id : String) (kind : SessionKind) (inputs : List (Nat × RequestInput)) :
    Along Channel.requestStep RequestsKept (Channel.create id kind) inputs := by
  refine along_of_invariant (P := RequestsGood) ?_ ?_ ?_
  · exact fun ch input next hGood hStep => (requestStep_kept hGood hStep).2
  · exact fun ch input next hGood hStep => (requestStep_kept hGood hStep).1
  · exact ⟨fun _ _ h => absurd h List.not_mem_nil, List.nodup_nil⟩

/-! ## What runs do not keep -/

theorem pruneLoop_all {limit : Nat} {entries : List (String × RequestRecord)}
    (h : ∀ e ∈ entries, InFlight e) (size : Nat) :
    Session.pruneLoop limit size entries = entries := by
  induction entries with
  | nil => rfl
  | cons entry rest ih =>
    unfold Session.pruneLoop
    split
    · rfl
    · have hHead : entry.2.state = .sent := h entry List.mem_cons_self
      rw [if_pos hHead, ih fun e he => h e (List.mem_cons_of_mem _ he)]

def panelSend (requestId : String) : Nat × RequestInput := (0, .sendInput requestId "message" true)

theorem sends_pile_up (names : List String) : ∀ ch : Channel, ch.session.closing = false →
    ch.connected = true → (∀ e ∈ ch.session.requests, InFlight e) → names.Nodup →
    (∀ n ∈ names, n ∉ ch.session.requests.map Prod.fst) →
    ∃ ch', run Channel.requestStep ch (names.map panelSend) = some ch' ∧
      ch'.session.requests = ch.session.requests ++
        names.map fun n => (n, Session.sentRecord n "message" 0) := by
  induction names with
  | nil => exact fun ch _ _ _ _ _ => ⟨ch, rfl, by simp⟩
  | cons name rest ih =>
    intro ch hOpen hConnected hAll hNodup hNew
    have hRequests : (ch.session.trackRequest name "message" 0).requests =
        ch.session.requests ++ [(name, Session.sentRecord name "message" 0)] := by
      have hAbsent : (ch.session.requests.lookup name).isSome = false := by
        rw [Bool.eq_false_iff]
        exact fun h => hNew name List.mem_cons_self (lookup_isSome_iff.mp h)
      have hAssign : assign ch.session.requests name (Session.sentRecord name "message" 0) =
          ch.session.requests ++ [(name, Session.sentRecord name "message" 0)] := by
        rw [assign, hAbsent]
        rfl
      rw [trackRequest_requests, pruneLoop_all _, hAssign]
      rw [hAssign]
      intro e he
      rcases List.mem_append.mp he with hOld | hLast
      · exact hAll e hOld
      · rw [List.mem_singleton.mp hLast]
        rfl
    have hStep : ch.requestStep (panelSend name) =
        some { ch with session := ch.session.trackRequest name "message" 0 } := by
      simp [Channel.requestStep, panelSend, Channel.tracked, Channel.afterSend, hOpen, hConnected]
    obtain ⟨hHead, hTail⟩ := List.nodup_cons.mp hNodup
    obtain ⟨ch', hRun, hResult⟩ := ih
      { ch with session := ch.session.trackRequest name "message" 0 } hOpen hConnected
      (by
        intro e he
        rw [hRequests] at he
        rcases List.mem_append.mp he with hOld | hLast
        · exact hAll e hOld
        · rw [List.mem_singleton.mp hLast]
          rfl)
      hTail
      (by
        intro n hn hMem
        rw [hRequests, List.map_append, List.mem_append] at hMem
        rcases hMem with hOld | hLast
        · exact hNew n (List.mem_cons_of_mem _ hn) hOld
        · rw [List.map_singleton, List.mem_singleton] at hLast
          have hSame : n = name := hLast
          exact hHead (hSame ▸ hn))
    refine ⟨ch', run_cons.mpr ⟨_, hStep, hRun⟩, ?_⟩
    rw [hResult, hRequests, List.append_assoc]
    rfl

/-- Identifiers of requests, one per length. -/
def sampleId (n : Nat) : String := String.ofList (List.replicate n 'r')

theorem sampleId_inj {m n : Nat} (h : sampleId m = sampleId n) : m = n := by
  have hLists := congrArg String.toList h
  simp only [sampleId, String.toList_ofList] at hLists
  simpa using congrArg List.length hLists

theorem sampleIds_nodup (n : Nat) : ((List.range n).map sampleId).Nodup :=
  List.nodup_range.map fun _ _ h => sampleId_inj h

/-- Three runs. The request of a superseded connection is in flight after that connection
has closed; two hundred and one requests of which one is admitted are all kept; and a
request that was admitted is in flight again once its identifier is sent again. -/
theorem requests_not_settled : (∃ ch, run Channel.requestStep (Channel.create "s" .ordinary)
        [(0, .channel (.opened 0)), panelSend "r", (1, .channel (.opened 1)),
          (2, .channel (.closed 0))] = some ch ∧
      ch.sockets 0 = some ⟨false, true, 0⟩ ∧
      ch.session.requests = [("r", Session.sentRecord "r" "message" 0)]) ∧
    (∃ inputs ch, run Channel.requestStep (Channel.create "s" .ordinary) inputs = some ch ∧
      200 < ch.session.requests.length ∧ ∃ e ∈ ch.session.requests, ¬InFlight e) ∧
    ∃ ch ch', run Channel.requestStep (Channel.create "s" .ordinary)
        [(0, .channel (.opened 0)), panelSend "r", (1, .ledgerAdmitted "r")] = some ch ∧
      ch.requestStep (panelSend "r") = some ch' ∧
      (∀ e ∈ ch.session.requests, ¬InFlight e) ∧
      ch'.session.requests = [("r", Session.sentRecord "r" "message" 0)] := by
  refine ⟨⟨_, rfl, rfl, rfl⟩, ?_, ⟨_, _, rfl, rfl, ?_, rfl⟩⟩
  · obtain ⟨ch, hRun, hRequests⟩ := sends_pile_up ((List.range 201).map sampleId)
      ((Channel.create "s" .ordinary).accept 0) rfl rfl (fun _ h => absurd h List.not_mem_nil)
      (sampleIds_nodup 201) (fun _ _ h => absurd h List.not_mem_nil)
    have hSettles := Settles.noteRequestAdmitted ch.session (sampleId 0) 1
    refine ⟨((0, .channel (.opened 0)) :: ((List.range 201).map sampleId).map panelSend) ++
      [(1, .ledgerAdmitted (sampleId 0))], _, run_append.mpr ⟨ch, ?_, rfl⟩, ?_, ?_⟩
    · exact run_cons.mpr ⟨(Channel.create "s" .ordinary).accept 0, rfl, hRun⟩
    · rw [hSettles.length, hRequests]
      simp [Channel.accept, Channel.create, Session.create, Session.attach, Channel.setSocket]
    · refine ⟨(sampleId 0, { Session.sentRecord (sampleId 0) "message" 0 with
        state := .admitted, settledAt := some 1 }), ?_, fun h => by cases h⟩
      refine List.mem_map.mpr ⟨(sampleId 0, Session.sentRecord (sampleId 0) "message" 0), ?_, ?_⟩
      · rw [hRequests]
        refine List.mem_append_right _ (List.mem_map.mpr ⟨sampleId 0, ?_, rfl⟩)
        exact List.mem_map.mpr ⟨0, List.mem_range.mpr (by omega), rfl⟩
      · exact if_pos ⟨rfl, rfl⟩
  · intro e he
    rw [List.mem_singleton.mp he]
    exact fun h => by cases h

end SimplexAgent.Hub
