import SimplexAgent.Core.EventOutbox

/-!
# What the outbox accounts for

The ledger along every sequence of operations. A course is the outbox with two records
that the code does not keep: the messages handed to the transport, in order, and what
each operation did, newest first.

Each operation is inverted once (`place_cases`); the invariants are then read off the
few things it can have done. The entry in flight has no message any more, so the queue
is split into its front and what waits (`front`, `waiting`), and only the second part
is searched and replaced in.
-/

namespace SimplexAgent.Core

open Dataclass
open Verified.Tables (bind_ok)

namespace EventOutbox

/-! ## Front and waiting entries -/

variable {message : EventEnvelope} {o : EventOutbox}

/-- Entries before this index are in flight. -/
def firstWaiting (o : EventOutbox) : Nat := if o.inFlight then 1 else 0

def waiting (o : EventOutbox) : List Entry := o.queue.drop o.firstWaiting

def front (o : EventOutbox) : List Entry := o.queue.take o.firstWaiting

theorem front_append_waiting (o : EventOutbox) : o.front ++ o.waiting = o.queue :=
  List.take_append_drop _ _

theorem fits_iff (own transport added limit : Nat) :
    fits own transport added limit = true ↔ own + transport + added ≤ limit := by
  simp only [fits, decide_eq_true_eq]
  omega

theorem set_queue (o : EventOutbox) (j : Nat) (e : Entry) :
    o.queue.set (j + o.firstWaiting) e = o.front ++ o.waiting.set j e := by
  rcases Nat.lt_or_ge o.queue.length o.firstWaiting with hShort | hLong
  · have hTake : o.front = o.queue := List.take_of_length_le hShort.le
    have hDrop : o.waiting = [] := List.drop_of_length_le hShort.le
    rw [hTake, hDrop, List.set_nil, List.append_nil, List.set_eq_of_length_le (by omega)]
  · have hLength : o.front.length = o.firstWaiting := List.length_take_of_le hLong
    rw [← front_append_waiting o, List.set_append_right _ _ (by omega), hLength]
    congr 2
    omega

theorem findReplaceable_some {i : Nat} (h : o.findReplaceable message = some i) :
    ∃ j old, i = j + o.firstWaiting ∧ o.waiting[j]? = some old ∧ old.kind = .metadata ∧
      old.message.map EventEnvelope.key = some message.key := by
  simp only [findReplaceable, Option.map_eq_some_iff] at h
  obtain ⟨j, hFind, rfl⟩ := h
  obtain ⟨hLength, hMatch, -⟩ := List.findIdx?_eq_some_iff_getElem.mp hFind
  simp only [decide_eq_true_eq] at hMatch
  exact ⟨j, _, rfl, List.getElem?_eq_getElem hLength, hMatch.1, Option.map_eq_some_iff.mpr hMatch.2⟩

theorem findReplaceable_none (h : o.findReplaceable message = none) :
    ∀ old ∈ o.waiting, old.kind = .metadata →
      old.message.map EventEnvelope.key ≠ some message.key := by
  intro old hOld hKind hKey
  simp only [findReplaceable, Option.map_eq_none_iff, List.findIdx?_eq_none_iff] at h
  have hMatch := h old hOld
  simp [hKind, hKey] at hMatch

/-! ## Counters -/

def isOrdinary : Kind → Bool
  | .preview | .query | .feedback => true
  | .metadata | .lifecycle => false

section Counters

variable (o : EventOutbox) (kind : Kind)

@[simp] theorem countUp_queue : (o.countUp kind).queue = o.queue := by cases kind <;> rfl

@[simp] theorem countUp_bytes : (o.countUp kind).bytes = o.bytes := by cases kind <;> rfl

@[simp] theorem countUp_inFlight : (o.countUp kind).inFlight = o.inFlight := by cases kind <;> rfl

@[simp] theorem countUp_capacity : (o.countUp kind).capacity = o.capacity := by cases kind <;> rfl

@[simp] theorem countUp_sequence : (o.countUp kind).sequence = o.sequence := by cases kind <;> rfl

@[simp] theorem countUp_tally : (o.countUp kind).tally = o.tally := by cases kind <;> rfl

@[simp] theorem countUp_ordinary :
    (o.countUp kind).ordinaryCount = o.ordinaryCount + if isOrdinary kind then 1 else 0 := by
  cases kind <;> rfl

@[simp] theorem countUp_metadata :
    (o.countUp kind).metadataCount = o.metadataCount + if kind = .metadata then 1 else 0 := by
  cases kind <;> rfl

@[simp] theorem countUp_lifecycle :
    (o.countUp kind).lifecycleCount = o.lifecycleCount + if kind = .lifecycle then 1 else 0 := by
  cases kind <;> rfl

@[simp] theorem countDown_capacity : (o.countDown kind).capacity = o.capacity := by
  cases kind <;> rfl

@[simp] theorem countDown_sequence : (o.countDown kind).sequence = o.sequence := by
  cases kind <;> rfl

@[simp] theorem countDown_bytes : (o.countDown kind).bytes = o.bytes := by cases kind <;> rfl

@[simp] theorem countDown_tally : (o.countDown kind).tally = o.tally := by cases kind <;> rfl

@[simp] theorem countDown_ordinary :
    (o.countDown kind).ordinaryCount = o.ordinaryCount - if isOrdinary kind then 1 else 0 := by
  cases kind <;> rfl

@[simp] theorem countDown_metadata :
    (o.countDown kind).metadataCount = o.metadataCount - if kind = .metadata then 1 else 0 := by
  cases kind <;> rfl

@[simp] theorem countDown_lifecycle :
    (o.countDown kind).lifecycleCount = o.lifecycleCount - if kind = .lifecycle then 1 else 0 := by
  cases kind <;> rfl

end Counters

/-! ## What admission does -/

variable {encodedBytes : Json → Nat}

def entry (encodedBytes : Json → Nat) (message : EventEnvelope) (kind : Kind) : Entry :=
  { message := some message, bytes := messageBytes encodedBytes message, kind }

/-- A waiting metadata entry gives way to a newer value under its number. -/
def exchange (encodedBytes : Json → Nat) (o : EventOutbox) (j : Nat) (old : Entry)
    (message : EventEnvelope) : EventOutbox :=
  { o with
    bytes := o.bytes - old.bytes + messageBytes encodedBytes message
    queue := o.front ++ o.waiting.set j (entry encodedBytes message .metadata)
    coalescedMetadata := o.coalescedMetadata + 1 }

inductive Placed (encodedBytes : Json → Nat) (o : EventOutbox) (message : EventEnvelope)
    (kind : Kind) (settles : Bool) (transportBytes : Nat) : Admission → EventOutbox → Prop
  /-- After `close`, and for a lifecycle event without room. -/
  | dropped (h : o.closed = true ∨ kind = .lifecycle ∧ (o.slot kind = false ∨
        fits o.bytes transportBytes (messageBytes encodedBytes message) writeByteCapacity =
          false)) :
      Placed encodedBytes o message kind settles transportBytes .omitted o
  | noted (hOpen : o.closed = false) (hKind : kind ≠ .lifecycle) :
      Placed encodedBytes o message kind settles transportBytes .omitted (o.noteOmission kind)
  | replaced (hOpen : o.closed = false) (hKind : kind = .metadata) (j : Nat)
      (old oldMessage : _) (hOld : o.waiting[j]? = some old) (hOldKind : old.kind = .metadata)
      (hMessage : old.message = some oldMessage) (hKey : oldMessage.key = message.key)
      (hFits : o.bytes - old.bytes + transportBytes +
        messageBytes encodedBytes { message with sequence := oldMessage.sequence } ≤ softBytes) :
      Placed encodedBytes o message kind settles transportBytes .replaced
        (o.exchange encodedBytes j old { message with sequence := oldMessage.sequence })
  | added (hOpen : o.closed = false) (hSlot : o.slot kind = true)
      (hFits : o.bytes + transportBytes + messageBytes encodedBytes message ≤ byteLimit kind)
      (hNew : kind = .metadata → ∀ old ∈ o.waiting, old.kind = .metadata →
        old.message.map EventEnvelope.key ≠ some message.key) :
      Placed encodedBytes o message kind settles transportBytes .added
        (if settles then (o.push message (messageBytes encodedBytes message) kind).resetCounters
          else o.push message (messageBytes encodedBytes message) kind)

/-- The tail of `admit`. -/
theorem append_cases {kind : Kind} {settles : Bool} {transportBytes : Nat}
    (hOpen : o.closed = false)
    (hNew : kind = .metadata → ∀ old ∈ o.waiting, old.kind = .metadata → old.message.map EventEnvelope.key ≠ some message.key) :
    Placed encodedBytes o message kind settles transportBytes
      (o.append message (messageBytes encodedBytes message) kind settles transportBytes).1
      (o.append message (messageBytes encodedBytes message) kind settles transportBytes).2 := by
  unfold append
  by_cases hRoom : o.slot kind = true ∧
      fits o.bytes transportBytes (messageBytes encodedBytes message) (byteLimit kind) = true
  · rw [if_neg (by simp [hRoom])]
    exact Placed.added hOpen hRoom.1 ((fits_iff _ _ _ _).mp hRoom.2) hNew
  · rw [if_pos (by
      by_contra hNone
      simp only [not_or, Decidable.not_not] at hNone
      exact hRoom hNone)]
    by_cases hKind : kind = .lifecycle
    · rw [if_pos hKind]
      subst hKind
      refine Placed.dropped (Or.inr ⟨rfl, ?_⟩)
      rw [not_and_or, Bool.not_eq_true, Bool.not_eq_true] at hRoom
      exact hRoom
    · rw [if_neg hKind]
      exact Placed.noted hOpen hKind

theorem append_metadata_noted {bytes : Nat} {settles : Bool} {transportBytes own : Nat}
    (hOwn : own ≤ o.bytes) (hFits : fits own transportBytes bytes softBytes = false) :
    o.append message bytes .metadata settles transportBytes =
      (.omitted, o.noteOmission .metadata) := by
  unfold append
  have hMore : fits o.bytes transportBytes bytes (byteLimit .metadata) = false := by
    rw [← Bool.not_eq_true, fits_iff] at hFits ⊢
    show ¬_ ≤ softBytes
    omega
  rw [if_pos (by simp [hMore]), if_neg (by decide)]

/-- **Placing a message**, case by case. -/
theorem place_cases {kind : Kind} {settles : Bool} {transportBytes : Nat}
    (hMessages : ∀ e ∈ o.waiting, e.message.isSome) :
    Placed encodedBytes o message kind settles transportBytes
      (o.place encodedBytes message kind settles transportBytes).1
      (o.place encodedBytes message kind settles transportBytes).2 := by
  unfold place
  by_cases hClosed : o.closed = true
  · rw [if_pos hClosed]
    exact Placed.dropped (Or.inl hClosed)
  have hOpen : o.closed = false := by simpa using hClosed
  rw [if_neg hClosed]
  by_cases hPaused : o.noncriticalPaused = true ∧ kind ≠ .lifecycle
  · rw [if_pos hPaused]
    exact Placed.noted hOpen hPaused.2
  rw [if_neg hPaused]
  by_cases hKind : kind = .metadata
  · rw [if_pos hKind]
    subst hKind
    cases hFind : o.findReplaceable message with
    | none => exact append_cases hOpen fun _ => findReplaceable_none hFind
    | some i =>
      obtain ⟨j, old, rfl, hOld, hOldKind, hKey⟩ := findReplaceable_some hFind
      obtain ⟨oldMessage, hMessage⟩ :=
        Option.isSome_iff_exists.mp (hMessages old (List.mem_of_getElem? hOld))
      rw [hMessage, Option.map_some, Option.some.injEq] at hKey
      have hGet : o.queue[j + o.firstWaiting]? = some old := by
        rw [← hOld, waiting, List.getElem?_drop, Nat.add_comm]
      simp only [replaceAt, hGet, hMessage, Option.map_some, Option.getD_some]
      split
      · rename_i hFits
        rw [set_queue]
        exact Placed.replaced hOpen rfl j old oldMessage hOld hOldKind hMessage hKey
          ((fits_iff _ _ _ _).mp hFits)
      · rename_i hFits
        rw [append_metadata_noted (Nat.sub_le _ _) (by simpa using hFits)]
        exact Placed.noted hOpen (by decide)
  · rw [if_neg hKind]
    exact append_cases hOpen fun hMetadata => absurd hMetadata hKind

end EventOutbox

/-! ## Courses -/

/-- The operations of the outbox; a kind is the one `classify_event` assigns. -/
inductive Operation where
  | admitEvent (envelope : EventEnvelope) (storageFailed : Bool) (transportBytes : Nat)
  | omitQueryWhenCongested (transportBytes : Nat)
  | beginSend
  | completeSend
  | pauseNoncritical (paused : Bool)
  | close

/-- What an operation did. -/
inductive Outcome where
  /-- Queued: the envelope handed in, the message it became, and whether it settles. -/
  | added (envelope message : EventEnvelope) (kind : Kind) (settles : Bool)
  | replaced (envelope message : EventEnvelope) (settles : Bool)
  /-- Left out; a lifecycle event and everything after `close` is not counted. -/
  | omitted (kind : Kind) (counted : Bool)
  | other
  deriving DecidableEq

/-- The outbox with what was sent, in order, and what was done, newest first. -/
structure Course where
  outbox : EventOutbox
  sent : List (EventEnvelope × Kind) := []
  history : List Outcome := []

/-! ## Reading a course -/

def Outcome.settles : Outcome → Bool
  | .added _ _ _ settles => settles
  | _ => false

/-- An omission or a coalescing, in the class under which it is reported. -/
def Outcome.leftOut : Outcome → Option Kind
  | .replaced _ _ _ => some .metadata
  | .omitted kind true => some kind
  | _ => none

/-- What was done since the last settlement event was admitted. -/
def unreported (history : List Outcome) : List Outcome :=
  history.takeWhile fun outcome => !outcome.settles

/-- What a settlement event has to report. -/
def tallyOf (history : List Outcome) : EventOutbox.Tally where
  display := (unreported history).countP fun outcome => outcome.leftOut = some .preview
  queries := (unreported history).countP fun outcome => outcome.leftOut = some .query
  metadata := (unreported history).countP fun outcome => outcome.leftOut = some .metadata
  feedback := (unreported history).countP fun outcome => outcome.leftOut = some .feedback

def value (message : EventEnvelope) : EventEnvelope := { message with sequence := 0 }

def Outcome.metadataValue : Outcome → Option EventEnvelope
  | .added _ message .metadata _ => some (value message)
  | .replaced _ message _ => some (value message)
  | _ => none

def latestAdmitted (history : List Outcome) (key : EventName × String × String) :
    Option EventEnvelope :=
  (history.filterMap Outcome.metadataValue).find? fun message => message.key = key

def metadataUnder (key : EventName × String × String) (m : EventEnvelope × Kind) : Bool :=
  m.2 = .metadata ∧ m.1.key = key

/-- Every admitted settlement event carries what was left out since the one before it, and
no other event carries a count. -/
def Reported : List Outcome → Prop
  | [] => True
  | outcome :: history =>
    (match outcome with
      | .added envelope message _ true =>
        (tallyOf history).report envelope.data = .ok message.data
      | .added envelope message _ false => message.data = envelope.data
      | .replaced envelope message settles => settles = false ∧ message.data = envelope.data
      | _ => True) ∧ Reported history

/-! ## Operations -/

namespace Course

variable (encodedBytes : Json → Nat)

def note (c : Course) (outcome : Outcome) : Course := { c with history := outcome :: c.history }

def admission (c : Course) (envelope message : EventEnvelope) (kind : Kind) (settles : Bool)
    (result : Admission × EventOutbox) : Course :=
  { c with
    outbox := result.2
    history := (match result.1 with
      | .added => Outcome.added envelope message kind settles
      | .replaced => Outcome.replaced envelope message settles
      | .omitted => Outcome.omitted kind (!c.outbox.closed && kind ≠ .lifecycle)) :: c.history }

def admitEvent (c : Course) (envelope : EventEnvelope) (storageFailed : Bool) (transportBytes : Nat) :
    Course :=
  match classifyEvent envelope.event envelope.data storageFailed with
  | .error _ => c.note .other
  | .ok kind =>
    match c.outbox.prepare envelope, c.outbox.admitEvent encodedBytes envelope kind transportBytes with
    | .ok (message, settles), .ok result => c.admission envelope message kind settles result
    | _, _ => c.note .other

def omitQuery (c : Course) (transportBytes : Nat) : Course :=
  let result := c.outbox.omitQueryWhenCongested transportBytes
  { c with
    outbox := result.2
    history := (if result.1 then .omitted .query (!c.outbox.closed) else .other) :: c.history }

def beginSend (c : Course) : Course :=
  match c.outbox.queue.head?, c.outbox.beginSend with
  | some front, .ok (some message, outbox) =>
    { outbox, sent := c.sent ++ [(message, front.kind)], history := .other :: c.history }
  | _, _ => c.note .other

def completeSend (c : Course) : Course :=
  match c.outbox.completeSend with
  | .ok outbox => { c with outbox, history := .other :: c.history }
  | .error _ => c.note .other

def step (c : Course) : Operation → Course
  | .admitEvent envelope storageFailed transportBytes =>
    c.admitEvent encodedBytes envelope storageFailed transportBytes
  | .omitQueryWhenCongested transportBytes => c.omitQuery transportBytes
  | .beginSend => c.beginSend
  | .completeSend => c.completeSend
  | .pauseNoncritical paused =>
    { c with outbox := c.outbox.pauseNoncritical paused, history := .other :: c.history }
  | .close => { c with outbox := c.outbox.close, history := .other :: c.history }

/-- The course of a sequence of operations on a new outbox. -/
def run (capacity : Nat) (operations : List Operation) : Course :=
  operations.foldl (step encodedBytes) { outbox := { capacity } }

def waitingMessages (o : EventOutbox) : List (EventEnvelope × Kind) :=
  o.waiting.filterMap fun e => e.message.map fun message => (message, e.kind)

/-- Everything sent or about to be, in order. -/
def line (c : Course) : List (EventEnvelope × Kind) := c.sent ++ waitingMessages c.outbox

/-! ## The invariant -/

/-- The state of the ledger in a course, with the messages that wait. -/
structure Accounted (c : Course) (ws : List (EventEnvelope × Kind)) : Prop where
  waiting : c.outbox.waiting = ws.map fun m => EventOutbox.entry encodedBytes m.1 m.2
  front : c.outbox.inFlight = true → ∃ m, c.sent.getLast? = some m ∧
    c.outbox.front = [{ EventOutbox.entry encodedBytes m.1 m.2 with message := none }]
  bytes : c.outbox.bytes = (c.outbox.queue.map Entry.bytes).sum
  ordinary : c.outbox.ordinaryCount = c.outbox.queue.countP fun e => EventOutbox.isOrdinary e.kind
  metadata : c.outbox.metadataCount = c.outbox.queue.countP fun e => e.kind = .metadata
  lifecycle : c.outbox.lifecycleCount = c.outbox.queue.countP fun e => e.kind = .lifecycle
  ordinarySlots : c.outbox.ordinaryCount ≤ c.outbox.capacity
  metadataSlots : c.outbox.metadataCount ≤ metadataSlots
  lifecycleSlots : c.outbox.lifecycleCount ≤ lifecycleSlots
  sequence : (c.sent ++ ws).map (fun m => m.1.sequence) = List.range' 1 c.outbox.sequence
  keys : ((ws.filter fun m => m.2 = .metadata).map fun m => m.1.key).Nodup
  latest : ∀ key, (((c.sent ++ ws).filter (metadataUnder key)).getLast?).map (fun m => value m.1) =
    latestAdmitted c.history key
  tally : c.outbox.tally = tallyOf c.history

variable {encodedBytes}
variable {ws : List (EventEnvelope × Kind)} {c : Course} {outcome : Outcome}
  {message : EventEnvelope} {kind : Kind} {transportBytes : Nat} {o : EventOutbox}

theorem unreported_cons (outcome : Outcome) (history : List Outcome) :
    unreported (outcome :: history) =
      if outcome.settles then [] else outcome :: unreported history := by
  unfold unreported
  rw [List.takeWhile_cons]
  cases outcome.settles <;> rfl

theorem tallyOf_quiet (history : List Outcome) (hSettles : outcome.settles = false)
    (hLeft : outcome.leftOut = none) : tallyOf (outcome :: history) = tallyOf history := by
  simp [tallyOf, unreported_cons, hSettles, hLeft]

theorem noteOmission_tally {history : List Outcome} (hTally : o.tally = tallyOf history)
    (hKind : kind ≠ .lifecycle) (hSettles : outcome.settles = false)
    (hLeft : outcome.leftOut = some kind) :
    (o.noteOmission kind).tally = tallyOf (outcome :: history) := by
  have hFields := hTally
  simp only [EventOutbox.tally, tallyOf, EventOutbox.Tally.mk.injEq] at hFields
  obtain ⟨hDisplay, hQueries, hMetadata, hFeedback⟩ := hFields
  cases kind with
  | lifecycle => exact absurd rfl hKind
  | preview | query | metadata | feedback =>
    simp [EventOutbox.tally, EventOutbox.noteOmission, tallyOf, unreported_cons, hSettles,
      hLeft, hDisplay, hQueries, hMetadata, hFeedback]

/-! ## Operations that leave the queue alone -/

structure SameEntries (o o' : EventOutbox) : Prop where
  queue : o'.queue = o.queue
  inFlight : o'.inFlight = o.inFlight
  bytes : o'.bytes = o.bytes
  ordinary : o'.ordinaryCount = o.ordinaryCount
  metadata : o'.metadataCount = o.metadataCount
  lifecycle : o'.lifecycleCount = o.lifecycleCount
  capacity : o'.capacity = o.capacity
  sequence : o'.sequence = o.sequence

theorem sameEntries_noteOmission (o : EventOutbox) (kind : Kind) :
    SameEntries o (o.noteOmission kind) := by
  cases kind <;> exact ⟨rfl, rfl, rfl, rfl, rfl, rfl, rfl, rfl⟩

theorem Accounted.same {c c' : Course} (h : Accounted encodedBytes c ws)
    (hSame : SameEntries c.outbox c'.outbox) (hSent : c'.sent = c.sent)
    (hLatest : ∀ key, latestAdmitted c'.history key = latestAdmitted c.history key)
    (hTally : c'.outbox.tally = tallyOf c'.history) : Accounted encodedBytes c' ws := by
  have hFirst : c'.outbox.firstWaiting = c.outbox.firstWaiting := by
    simp only [EventOutbox.firstWaiting, hSame.inFlight]
  constructor
  · rw [EventOutbox.waiting, hSame.queue, hFirst]
    exact h.waiting
  · rw [EventOutbox.front, hSame.queue, hFirst, hSame.inFlight, hSent]
    exact h.front
  · rw [hSame.bytes, hSame.queue]
    exact h.bytes
  · rw [hSame.ordinary, hSame.queue]
    exact h.ordinary
  · rw [hSame.metadata, hSame.queue]
    exact h.metadata
  · rw [hSame.lifecycle, hSame.queue]
    exact h.lifecycle
  · rw [hSame.ordinary, hSame.capacity]
    exact h.ordinarySlots
  · rw [hSame.metadata]
    exact h.metadataSlots
  · rw [hSame.lifecycle]
    exact h.lifecycleSlots
  · rw [hSent, hSame.sequence]
    exact h.sequence
  · exact h.keys
  · intro key
    rw [hSent, hLatest]
    exact h.latest key
  · exact hTally

theorem latestAdmitted_other (hNone : outcome.metadataValue = none) (history : List Outcome)
    (key : EventName × String × String) :
    latestAdmitted (outcome :: history) key = latestAdmitted history key := by
  simp [latestAdmitted, hNone]

theorem latestAdmitted_new (hValue : outcome.metadataValue = some (value message))
    (history : List Outcome) (key : EventName × String × String) :
    latestAdmitted (outcome :: history) key =
      if message.key = key then some (value message) else latestAdmitted history key := by
  simp only [latestAdmitted, List.filterMap_cons, hValue, List.find?_cons]
  by_cases hKey : message.key = key
  · have hSame : (value message).key = key := hKey
    simp [hKey, hSame]
  · have hOther : (value message).key ≠ key := hKey
    simp [hKey, hOther]

/-! ## Sending -/

theorem Accounted.beginSend {e : Entry} {rest : List Entry} (h : Accounted encodedBytes c ws)
    (hQueue : c.outbox.queue = e :: rest) (hIdle : c.outbox.inFlight = false) :
    ∃ m ws', e.message = some m ∧ Accounted encodedBytes
        { outbox := { c.outbox with
            inFlight := true, queue := { e with message := none } :: rest }
          sent := c.sent ++ [(m, e.kind)]
          history := .other :: c.history } ws' := by
  have hWaiting := h.waiting
  rw [EventOutbox.waiting, EventOutbox.firstWaiting, hIdle, hQueue] at hWaiting
  cases ws with
  | nil => simp at hWaiting
  | cons m ws' =>
    simp only [Bool.false_eq_true, if_false, List.drop_zero, List.map_cons,
      List.cons.injEq] at hWaiting
    obtain ⟨rfl, hRest⟩ := hWaiting
    refine ⟨m.1, ws', rfl, ?_⟩
    have hBytes := h.bytes
    have hOrdinary := h.ordinary
    have hMetadata := h.metadata
    have hLifecycle := h.lifecycle
    rw [hQueue] at hBytes hOrdinary hMetadata hLifecycle
    constructor
    · exact hRest
    · intro _
      exact ⟨m, by simp [EventOutbox.entry], rfl⟩
    · exact hBytes
    · exact hOrdinary
    · exact hMetadata
    · exact hLifecycle
    · exact h.ordinarySlots
    · exact h.metadataSlots
    · exact h.lifecycleSlots
    · simpa [EventOutbox.entry] using h.sequence
    · have hKeys := h.keys
      rw [List.filter_cons] at hKeys
      split at hKeys
      · exact (List.nodup_cons.mp hKeys).2
      · exact hKeys
    · intro key
      have hLatest := h.latest key
      rw [latestAdmitted_other rfl]
      simpa [EventOutbox.entry] using hLatest
    · rw [tallyOf_quiet _ rfl rfl]
      exact h.tally

theorem Accounted.completeSend {e : Entry} {rest : List Entry} (h : Accounted encodedBytes c ws)
    (hQueue : c.outbox.queue = e :: rest) (hFlight : c.outbox.inFlight = true) :
    Accounted encodedBytes
      { c with
        outbox := { ({ c.outbox with bytes := c.outbox.bytes - e.bytes } : EventOutbox).countDown
          e.kind with queue := rest, inFlight := false }
        history := .other :: c.history } ws := by
  have hWaiting := h.waiting
  rw [EventOutbox.waiting, EventOutbox.firstWaiting, hFlight, hQueue] at hWaiting
  have hBytes := h.bytes
  have hOrdinary := h.ordinary
  have hMetadata := h.metadata
  have hLifecycle := h.lifecycle
  simp only [hQueue, List.map_cons, List.sum_cons, List.countP_cons, decide_eq_true_eq]
    at hBytes hOrdinary hMetadata hLifecycle
  have hOrdinarySlots := h.ordinarySlots
  have hMetadataSlots := h.metadataSlots
  have hLifecycleSlots := h.lifecycleSlots
  constructor
  · exact hWaiting
  · intro hNever
    cases hNever
  · simp only [EventOutbox.countDown_bytes]
    omega
  · simp only [EventOutbox.countDown_ordinary]
    omega
  · simp only [EventOutbox.countDown_metadata]
    omega
  · simp only [EventOutbox.countDown_lifecycle]
    omega
  · simp only [EventOutbox.countDown_ordinary, EventOutbox.countDown_capacity]
    omega
  · simp only [EventOutbox.countDown_metadata]
    omega
  · simp only [EventOutbox.countDown_lifecycle]
    omega
  · simpa using h.sequence
  · exact h.keys
  · intro key
    rw [latestAdmitted_other rfl]
    exact h.latest key
  · rw [tallyOf_quiet _ rfl rfl]
    exact (EventOutbox.countDown_tally _ _).trans h.tally

/-! ## Admission -/

variable {envelope message : EventEnvelope} {settles : Bool}

/-- There is an entry in flight to skip when the search starts behind it. -/
theorem Accounted.firstWaiting_le (h : Accounted encodedBytes c ws) :
    c.outbox.firstWaiting ≤ c.outbox.queue.length := by
  cases hFlight : c.outbox.inFlight with
  | false => simp [EventOutbox.firstWaiting, hFlight]
  | true =>
    obtain ⟨m, -, hFront⟩ := h.front hFlight
    have hLength := congrArg List.length hFront
    simp only [EventOutbox.front, EventOutbox.firstWaiting, hFlight, if_true, List.length_take,
      List.length_singleton] at hLength
    simp only [EventOutbox.firstWaiting, hFlight, if_true]
    omega

theorem Accounted.added (h : Accounted encodedBytes c ws) (hSlot : c.outbox.slot kind = true)
    (hSequence : message.sequence = c.outbox.sequence + 1)
    (hNew : kind = .metadata → ∀ m ∈ ws, m.2 = .metadata → m.1.key ≠ message.key)
    (hEntries : SameEntries (c.outbox.push message (EventOutbox.messageBytes encodedBytes message) kind) o)
    (hLatest : ∀ key, latestAdmitted (outcome :: c.history) key = if metadataUnder key (message, kind) then some (value message) else latestAdmitted c.history key)
    (hTally : o.tally = tallyOf (outcome :: c.history)) :
    Accounted encodedBytes { c with outbox := o, history := outcome :: c.history }
      (ws ++ [(message, kind)]) := by
  have hLength := h.firstWaiting_le
  have hQueue : o.queue = c.outbox.queue ++ [EventOutbox.entry encodedBytes message kind] := by
    rw [hEntries.queue]
    simp [EventOutbox.push, EventOutbox.entry]
  have hFlight : o.inFlight = c.outbox.inFlight := by
    rw [hEntries.inFlight]
    simp [EventOutbox.push]
  have hFirst : o.firstWaiting = c.outbox.firstWaiting := by
    simp only [EventOutbox.firstWaiting, hFlight]
  have hOrdinarySlots := h.ordinarySlots
  have hMetadataSlots := h.metadataSlots
  have hLifecycleSlots := h.lifecycleSlots
  constructor
  · show o.queue.drop o.firstWaiting = _
    rw [hQueue, hFirst, List.drop_append_of_le_length hLength]
    have hWaiting : c.outbox.queue.drop c.outbox.firstWaiting = _ := h.waiting
    rw [hWaiting]
    simp
  · intro hBusy
    obtain ⟨m, hSent, hFront⟩ := h.front (hFlight ▸ hBusy)
    refine ⟨m, hSent, ?_⟩
    show o.queue.take o.firstWaiting = _
    rw [hQueue, hFirst, List.take_append_of_le_length hLength]
    exact hFront
  · show o.bytes = _
    rw [hQueue, hEntries.bytes]
    simp [EventOutbox.push, EventOutbox.entry, h.bytes]
  · show o.ordinaryCount = _
    rw [hQueue, hEntries.ordinary]
    simp [EventOutbox.push, EventOutbox.entry, h.ordinary, List.countP_append]
  · show o.metadataCount = _
    rw [hQueue, hEntries.metadata]
    simp [EventOutbox.push, EventOutbox.entry, h.metadata, List.countP_append]
  · show o.lifecycleCount = _
    rw [hQueue, hEntries.lifecycle]
    simp [EventOutbox.push, EventOutbox.entry, h.lifecycle, List.countP_append]
  · show o.ordinaryCount ≤ o.capacity
    rw [hEntries.ordinary, hEntries.capacity]
    cases kind <;> simp [EventOutbox.push, EventOutbox.isOrdinary, EventOutbox.slot] at hSlot ⊢ <;>
      omega
  · show o.metadataCount ≤ _
    rw [hEntries.metadata]
    cases kind <;> simp [EventOutbox.push, EventOutbox.slot] at hSlot ⊢ <;> omega
  · show o.lifecycleCount ≤ _
    rw [hEntries.lifecycle]
    cases kind <;> simp [EventOutbox.push, EventOutbox.slot] at hSlot ⊢ <;> omega
  · show _ = List.range' 1 o.sequence
    have hOld := h.sequence
    rw [hEntries.sequence, ← List.append_assoc, List.map_append, hOld]
    simp [EventOutbox.push, hSequence, List.range'_concat, Nat.add_comm]
  · rw [List.filter_append, List.map_append, List.nodup_append]
    refine ⟨h.keys, ?_, ?_⟩
    · by_cases hKind : kind = .metadata
      · simp [hKind]
      · simp [hKind]
    · intro a ha b hb
      by_cases hKind : kind = .metadata
      · simp only [hKind, decide_true, List.filter_cons_of_pos, List.filter_nil, List.map_cons,
          List.map_nil, List.mem_singleton] at hb
        simp only [List.mem_map, List.mem_filter, decide_eq_true_eq] at ha
        obtain ⟨m, ⟨hm, hMeta⟩, rfl⟩ := ha
        rw [hb]
        exact hNew hKind m hm hMeta
      · simp [hKind] at hb
  · intro key
    rw [hLatest key, ← h.latest key, ← List.append_assoc, List.filter_append]
    by_cases hUnder : metadataUnder key (message, kind) = true
    · simp [hUnder]
    · simp [hUnder]
  · exact hTally

theorem filter_key_nil {a b : List (EventEnvelope × Kind)} {m : EventEnvelope × Kind}
    (hKeys : (((a ++ m :: b).filter fun m => m.2 = .metadata).map fun m => m.1.key).Nodup)
    (hKind : m.2 = .metadata) : b.filter (metadataUnder m.1.key) = [] := by
  rw [List.filter_append, List.filter_cons_of_pos (by simpa using hKind), List.map_append,
    List.map_cons] at hKeys
  have hRest := (List.nodup_cons.mp (List.nodup_append.mp hKeys).2.1).1
  rw [List.filter_eq_nil_iff]
  intro x hx hUnder
  simp only [metadataUnder, decide_eq_true_eq] at hUnder
  apply hRest
  rw [← hUnder.2]
  exact List.mem_map_of_mem (by simp [hx, hUnder.1])

theorem Accounted.replaced {j : Nat} {old : Entry} {oldMessage message : EventEnvelope}
    (h : Accounted encodedBytes c ws) (hOld : c.outbox.waiting[j]? = some old)
    (hOldKind : old.kind = .metadata) (hMessage : old.message = some oldMessage)
    (hKey : oldMessage.key = message.key) (hSettles : outcome.settles = false)
    (hLeft : outcome.leftOut = some .metadata)
    (hValue : outcome.metadataValue = some (value message)) : ∃ ws', Accounted encodedBytes
      { c with
        outbox := c.outbox.exchange encodedBytes j old
          { message with sequence := oldMessage.sequence }
        history := outcome :: c.history } ws' := by
  rw [h.waiting, List.getElem?_map, Option.map_eq_some_iff] at hOld
  obtain ⟨m, hm, rfl⟩ := hOld
  have hSame : m.1 = oldMessage := by simpa [EventOutbox.entry] using hMessage
  have hKind : m.2 = .metadata := hOldKind
  subst hSame
  have hSplit : ∃ a b, ws = a ++ m :: b ∧ a.length = j := by
    obtain ⟨hj, hGet⟩ := List.getElem?_eq_some_iff.mp hm
    exact ⟨ws.take j, ws.drop (j + 1), by rw [← hGet]; simp, List.length_take_of_le hj.le⟩
  obtain ⟨a, b, rfl, rfl⟩ := hSplit
  refine ⟨a ++ ({ message with sequence := m.1.sequence }, Kind.metadata) :: b, ?_⟩
  have hFrontLength : c.outbox.front.length = c.outbox.firstWaiting :=
    List.length_take_of_le h.firstWaiting_le
  have hSet : c.outbox.waiting.set a.length (EventOutbox.entry encodedBytes
      { message with sequence := m.1.sequence } .metadata) =
      (a ++ ({ message with sequence := m.1.sequence }, Kind.metadata) :: b).map
        fun m => EventOutbox.entry encodedBytes m.1 m.2 := by
    rw [h.waiting]
    simp
  have hQueue : c.outbox.queue = c.outbox.front ++ (a ++ m :: b).map
      fun m => EventOutbox.entry encodedBytes m.1 m.2 := by
    rw [← h.waiting, EventOutbox.front_append_waiting]
  have hBytes := h.bytes
  have hOrdinary := h.ordinary
  have hMetadata := h.metadata
  have hLifecycle := h.lifecycle
  rw [hQueue] at hBytes hOrdinary hMetadata hLifecycle
  constructor
  · show (c.outbox.front ++ c.outbox.waiting.set a.length _).drop c.outbox.firstWaiting = _
    rw [hSet, ← hFrontLength, List.drop_left]
  · intro hBusy
    obtain ⟨m', hSent, hFront⟩ := h.front hBusy
    refine ⟨m', hSent, ?_⟩
    show (c.outbox.front ++ c.outbox.waiting.set a.length _).take c.outbox.firstWaiting = _
    rw [← hFrontLength, List.take_left]
    exact hFront
  · show c.outbox.bytes - _ + _ = ((c.outbox.front ++ c.outbox.waiting.set a.length _).map _).sum
    rw [hSet]
    simp only [List.map_append, List.map_cons, List.sum_append, List.sum_cons,
      EventOutbox.entry] at hBytes ⊢
    omega
  · show c.outbox.ordinaryCount = (c.outbox.front ++ c.outbox.waiting.set a.length _).countP _
    rw [hSet, hOrdinary]
    simp [EventOutbox.entry, hKind, List.countP_cons]
  · show c.outbox.metadataCount = (c.outbox.front ++ c.outbox.waiting.set a.length _).countP _
    rw [hSet, hMetadata]
    simp [EventOutbox.entry, hKind]
  · show c.outbox.lifecycleCount = (c.outbox.front ++ c.outbox.waiting.set a.length _).countP _
    rw [hSet, hLifecycle]
    simp [EventOutbox.entry, hKind]
  · exact h.ordinarySlots
  · exact h.metadataSlots
  · exact h.lifecycleSlots
  · show _ = List.range' 1 c.outbox.sequence
    rw [← h.sequence]
    simp
  · have hKeys := h.keys
    have hNewKey : EventEnvelope.key { message with sequence := m.1.sequence } = m.1.key := hKey.symm
    simpa [hKind, hNewKey] using hKeys
  · intro key
    rw [latestAdmitted_new hValue]
    have hLatest := h.latest key
    have hNone := filter_key_nil h.keys hKind
    have hNewUnder : metadataUnder key ({ message with sequence := m.1.sequence }, Kind.metadata) =
        true ↔ message.key = key := by
      simp only [metadataUnder, decide_eq_true_eq]
      exact ⟨fun hBoth => hBoth.2, fun hThis => ⟨trivial, hThis⟩⟩
    have hOldUnder : metadataUnder key m = true ↔ message.key = key := by
      simp [metadataUnder, hKind, hKey]
    by_cases hThis : message.key = key
    · rw [if_pos hThis]
      rw [hKey, hThis] at hNone
      rw [List.filter_append, List.filter_append, List.filter_cons_of_pos (by simp [hNewUnder, hThis]),
        hNone, ← List.append_assoc, List.getLast?_concat]
      rfl
    · rw [if_neg hThis, ← hLatest, List.filter_append, List.filter_append, List.filter_append,
        List.filter_append, List.filter_cons_of_neg (by simp [hNewUnder, hThis]),
        List.filter_cons_of_neg (by simp [hOldUnder, hThis])]
  · exact noteOmission_tally h.tally (by decide) hSettles hLeft

theorem prepare_ok (h : o.prepare envelope = .ok (message, settles)) :
    EventOutbox.settlement envelope = .ok settles ∧ message.key = envelope.key ∧
      message.sequence = o.sequence + 1 ∧
      (settles = true → o.tally.report envelope.data = .ok message.data) ∧
      (settles = false → message.data = envelope.data) := by
  obtain ⟨settles', hSettles, h⟩ := bind_ok h
  obtain ⟨data, hData, h⟩ := bind_ok h
  injection h with h
  injection h with hMessage hFlag
  subst hMessage hFlag
  refine ⟨hSettles, rfl, rfl, fun hTrue => ?_, fun hFalse => ?_⟩
  · rwa [EventOutbox.messageData, if_pos hTrue] at hData
  · rw [EventOutbox.messageData, if_neg (by simp [hFalse])] at hData
    injection hData with hData
    exact hData.symm

theorem admit_ok {envelope : EventEnvelope} {result : Admission × EventOutbox}
    (h : o.admitEvent encodedBytes envelope kind transportBytes = .ok result) :
    ∃ message settles, o.prepare envelope = .ok (message, settles) ∧
      EventOutbox.messageBytes encodedBytes message ≤ displayEventMaxBytes ∧
      o.place encodedBytes message kind settles transportBytes = result := by
  obtain ⟨prepared, hPrepare, h⟩ := bind_ok h
  obtain ⟨message, settles⟩ := prepared
  cases hReady : o.prepare envelope with
  | error e =>
    rw [hReady] at hPrepare
    cases hPrepare
  | ok ready =>
    rw [hReady] at hPrepare
    injection hPrepare with hPrepare
    subst hPrepare
    dsimp only at h
    split at h
    · cases h
    · rename_i hSize
      split at h
      · cases h
      · injection h with h
        exact ⟨message, settles, rfl, by omega, h⟩

section

variable (h : Accounted encodedBytes c ws)
include h

theorem Accounted.messages : ∀ e ∈ c.outbox.waiting, e.message.isSome := by
  rw [h.waiting]
  intro e he
  obtain ⟨m, -, rfl⟩ := List.mem_map.mp he
  rfl

theorem Accounted.fresh
    (hNew : ∀ old ∈ c.outbox.waiting, old.kind = .metadata → old.message.map EventEnvelope.key ≠ some message.key) :
    ∀ m ∈ ws, m.2 = .metadata → m.1.key ≠ message.key := by
  intro m hm hMeta hKey
  rw [h.waiting] at hNew
  exact hNew _ (List.mem_map_of_mem hm) hMeta (by simp [EventOutbox.entry, hKey])

/-- **Admission keeps the account.** -/
theorem Accounted.admission {result : Admission × EventOutbox}
    (hSequence : message.sequence = c.outbox.sequence + 1)
    (hPlace : c.outbox.place encodedBytes message kind settles transportBytes = result) :
    ∃ ws', Accounted encodedBytes (c.admission envelope message kind settles result) ws' := by
  have hPlaced : EventOutbox.Placed encodedBytes c.outbox message kind settles transportBytes
      result.1 result.2 := by
    rw [← hPlace]
    exact EventOutbox.place_cases h.messages
  obtain ⟨admission, outbox⟩ := result
  cases hPlaced with
  | dropped hWhy =>
    have hCounted : (!c.outbox.closed && kind ≠ .lifecycle) = false := by
      rcases hWhy with hClosed | ⟨hKind, -⟩
      · simp [hClosed]
      · simp [hKind]
    refine ⟨ws, h.same ⟨rfl, rfl, rfl, rfl, rfl, rfl, rfl, rfl⟩ rfl
      (fun key => latestAdmitted_other rfl _ key) ?_⟩
    show c.outbox.tally = tallyOf (.omitted kind _ :: c.history)
    rw [hCounted, tallyOf_quiet _ rfl rfl]
    exact h.tally
  | noted hOpen hKind =>
    have hCounted : (!c.outbox.closed && kind ≠ .lifecycle) = true := by
      simp [hOpen, hKind]
    refine ⟨ws, h.same (sameEntries_noteOmission _ _) rfl
      (fun key => latestAdmitted_other rfl _ key) ?_⟩
    show (c.outbox.noteOmission kind).tally = tallyOf (.omitted kind _ :: c.history)
    rw [hCounted]
    exact noteOmission_tally h.tally hKind rfl rfl
  | replaced hOpen hKind j old oldMessage hOld hOldKind hMessage hKey hFits =>
    exact h.replaced hOld hOldKind hMessage hKey rfl rfl rfl
  | added hOpen hSlot hFits hNew =>
    refine ⟨ws ++ [(message, kind)], h.added hSlot hSequence
      (fun hKind => h.fresh (hNew hKind)) ?_ ?_ ?_⟩
    · cases settles <;> exact ⟨rfl, rfl, rfl, rfl, rfl, rfl, rfl, rfl⟩
    · intro key
      by_cases hKind : kind = .metadata
      · subst hKind
        have hNew : Outcome.metadataValue (.added envelope message .metadata settles) =
            some (value message) := rfl
        rw [latestAdmitted_new hNew]
        simp [metadataUnder]
      · rw [latestAdmitted_other (by cases kind <;> simp_all [Outcome.metadataValue])]
        simp [metadataUnder, hKind]
    · cases settles with
      | true => rfl
      | false =>
        show (c.outbox.push _ _ kind).tally = _
        rw [tallyOf_quiet _ rfl rfl, ← h.tally]
        exact EventOutbox.countUp_tally _ _

theorem Accounted.note : Accounted encodedBytes (c.note .other) ws :=
  h.same ⟨rfl, rfl, rfl, rfl, rfl, rfl, rfl, rfl⟩ rfl (fun key => latestAdmitted_other rfl _ key)
    ((h.tally).trans (tallyOf_quiet _ rfl rfl).symm)

end

theorem admit_cases (encodedBytes : Json → Nat) (c : Course) (envelope : EventEnvelope) (storageFailed : Bool)
    (transportBytes : Nat) :
    c.admitEvent encodedBytes envelope storageFailed transportBytes = c.note .other ∨
    ∃ kind message settles, classifyEvent envelope.event envelope.data storageFailed = .ok kind ∧
      c.outbox.prepare envelope = .ok (message, settles) ∧
      EventOutbox.messageBytes encodedBytes message ≤ displayEventMaxBytes ∧
      c.admitEvent encodedBytes envelope storageFailed transportBytes =
        c.admission envelope message kind settles
          (c.outbox.place encodedBytes message kind settles transportBytes) := by
  unfold Course.admitEvent
  cases hKind : classifyEvent envelope.event envelope.data storageFailed with
  | error e => exact Or.inl rfl
  | ok kind =>
    dsimp only
    split
    · rename_i message settles result hPrepare hAdmit
      obtain ⟨message', settles', hPrepare', hSize, hPlace⟩ := admit_ok hAdmit
      rw [hPrepare] at hPrepare'
      injection hPrepare' with hSame
      injection hSame with hMessage hSettles
      subst hMessage hSettles hPlace
      exact Or.inr ⟨kind, message, settles, rfl, hPrepare, hSize, rfl⟩
    · exact Or.inl rfl

theorem beginSend_cases (c : Course) : c.beginSend = c.note .other ∨
    ∃ e rest m, c.outbox.queue = e :: rest ∧ c.outbox.inFlight = false ∧ e.message = some m ∧
      c.beginSend =
        { outbox := { c.outbox with
            inFlight := true, queue := { e with message := none } :: rest }
          sent := c.sent ++ [(m, e.kind)]
          history := .other :: c.history } := by
  unfold Course.beginSend EventOutbox.beginSend
  rcases hQueue : c.outbox.queue with _ | ⟨e, rest⟩
  · exact Or.inl rfl
  · cases hFlight : c.outbox.inFlight with
    | true => exact Or.inl rfl
    | false =>
      cases hMessage : e.message with
      | none => exact Or.inl (by simp [hMessage])
      | some m => exact Or.inr ⟨e, rest, m, rfl, rfl, hMessage, by simp [hMessage]⟩

theorem completeSend_cases (c : Course) : c.completeSend = c.note .other ∨
    ∃ e rest, c.outbox.queue = e :: rest ∧ c.outbox.inFlight = true ∧ c.completeSend =
        { c with
          outbox := { ({ c.outbox with bytes := c.outbox.bytes - e.bytes } : EventOutbox).countDown
            e.kind with queue := rest, inFlight := false }
          history := .other :: c.history } := by
  rcases hQueue : c.outbox.queue with _ | ⟨e, rest⟩
  · left
    simp only [Course.completeSend, EventOutbox.completeSend, hQueue]
  · cases hFlight : c.outbox.inFlight with
    | false =>
      left
      simp [Course.completeSend, EventOutbox.completeSend, hQueue, hFlight]
    | true =>
      refine Or.inr ⟨e, rest, rfl, rfl, ?_⟩
      simp only [Course.completeSend, EventOutbox.completeSend, hQueue, hFlight, if_true]

theorem Accounted.omitQuery (h : Accounted encodedBytes c ws) (transportBytes : Nat) :
    Accounted encodedBytes (c.omitQuery transportBytes) ws := by
  unfold Course.omitQuery EventOutbox.omitQueryWhenCongested
  by_cases hClosed : c.outbox.closed = true
  · rw [if_pos hClosed]
    refine h.same ⟨rfl, rfl, rfl, rfl, rfl, rfl, rfl, rfl⟩ rfl
      (fun key => latestAdmitted_other rfl _ key) ?_
    simp only [hClosed, if_true, Bool.not_true]
    rw [tallyOf_quiet _ rfl rfl]
    exact h.tally
  · rw [if_neg hClosed]
    split
    · dsimp only
      refine h.same (sameEntries_noteOmission c.outbox .query) rfl
        (fun key => latestAdmitted_other rfl _ key) ?_
      simp only [hClosed, if_true, Bool.not_false]
      exact noteOmission_tally h.tally (by decide) rfl rfl
    · exact h.note

/-- **One operation keeps the account.** -/
theorem Accounted.step (h : Accounted encodedBytes c ws) (operation : Operation) :
    ∃ ws', Accounted encodedBytes (Course.step encodedBytes c operation) ws' := by
  cases operation with
  | admitEvent envelope storageFailed transportBytes =>
    show ∃ ws', Accounted encodedBytes (c.admitEvent encodedBytes _ _ _) ws'
    rcases admit_cases encodedBytes c envelope storageFailed transportBytes with
      hNone | ⟨kind, message, settles, -, hPrepare, -, hSome⟩
    · rw [hNone]
      exact ⟨ws, h.note⟩
    · rw [hSome]
      exact h.admission (prepare_ok hPrepare).2.2.1 rfl
  | omitQueryWhenCongested transportBytes => exact ⟨ws, h.omitQuery transportBytes⟩
  | beginSend =>
    show ∃ ws', Accounted encodedBytes c.beginSend ws'
    rcases beginSend_cases c with hNone | ⟨e, rest, m, hQueue, hFlight, hMessage, hSome⟩
    · rw [hNone]
      exact ⟨ws, h.note⟩
    · obtain ⟨m', ws', hMessage', hNext⟩ := h.beginSend hQueue hFlight
      rw [hMessage] at hMessage'
      injection hMessage' with hSame
      subst hSame
      rw [hSome]
      exact ⟨ws', hNext⟩
  | completeSend =>
    show ∃ ws', Accounted encodedBytes c.completeSend ws'
    rcases completeSend_cases c with hNone | ⟨e, rest, hQueue, hFlight, hSome⟩
    · rw [hNone]
      exact ⟨ws, h.note⟩
    · rw [hSome]
      exact ⟨ws, h.completeSend hQueue hFlight⟩
  | pauseNoncritical paused | close =>
    exact ⟨ws, h.note.same ⟨rfl, rfl, rfl, rfl, rfl, rfl, rfl, rfl⟩ rfl (fun _ => rfl) h.note.tally⟩

/-! ## Reports -/

/-- The worker reports a terminal error only once storage has failed. -/
def AsWorker : Operation → Prop
  | .admitEvent envelope storageFailed _ =>
    envelope.event = .error → EventOutbox.settlement envelope = .ok true → storageFailed = true
  | _ => True

theorem settlement_lifecycle {envelope : EventEnvelope} {storageFailed : Bool}
    (hWorker : envelope.event = .error → EventOutbox.settlement envelope = .ok true → storageFailed = true)
    (hSettles : EventOutbox.settlement envelope = .ok true)
    (hKind : classifyEvent envelope.event envelope.data storageFailed = .ok kind) :
    kind = .lifecycle := by
  by_cases hFinished : envelope.event = .runFinished
  · rw [hFinished] at hKind
    injection hKind with hKind
    exact hKind.symm
  · by_cases hError : envelope.event = .error
    · rw [hError, hWorker hError hSettles] at hKind
      injection hKind with hKind
      exact hKind.symm
    · rw [EventOutbox.settlement, if_neg hFinished, if_neg hError] at hSettles
      injection hSettles with hNever
      cases hNever

theorem reported_admission (h : Accounted encodedBytes c ws) (hReported : Reported c.history)
    (hPrepare : c.outbox.prepare envelope = .ok (message, settles))
    (hLifecycle : settles = true → kind = .lifecycle) :
    Reported (c.admission envelope message kind settles
      (c.outbox.place encodedBytes message kind settles transportBytes)).history := by
  obtain ⟨-, -, -, hCounts, hData⟩ := prepare_ok hPrepare
  have hPlaced : EventOutbox.Placed encodedBytes c.outbox message kind settles transportBytes
      _ _ := EventOutbox.place_cases h.messages
  unfold Course.admission
  revert hPlaced
  generalize c.outbox.place encodedBytes message kind settles transportBytes = result
  intro hPlaced
  obtain ⟨admission, outbox⟩ := result
  cases hPlaced with
  | dropped | noted => exact ⟨trivial, hReported⟩
  | replaced hOpen hKind =>
    have hPlain : settles = false := by
      cases settles with
      | false => rfl
      | true => exact absurd (hLifecycle rfl) (by simp [hKind])
    exact ⟨⟨hPlain, hData hPlain⟩, hReported⟩
  | added =>
    cases settles with
    | false => exact ⟨hData rfl, hReported⟩
    | true =>
      refine ⟨?_, hReported⟩
      rw [← h.tally]
      exact hCounts rfl

theorem reported_step (h : Accounted encodedBytes c ws) (hReported : Reported c.history)
    {operation : Operation} (hWorker : AsWorker operation) :
    Reported (Course.step encodedBytes c operation).history := by
  cases operation with
  | admitEvent envelope storageFailed transportBytes =>
    show Reported (c.admitEvent encodedBytes _ _ _).history
    rcases admit_cases encodedBytes c envelope storageFailed transportBytes with
      hNone | ⟨kind, message, settles, hKind, hPrepare, -, hSome⟩
    · rw [hNone]
      exact ⟨trivial, hReported⟩
    · rw [hSome]
      refine reported_admission h hReported hPrepare fun hTrue => ?_
      subst hTrue
      exact settlement_lifecycle hWorker (prepare_ok hPrepare).1 hKind
  | omitQueryWhenCongested transportBytes =>
    show Reported (c.omitQuery transportBytes).history
    unfold Course.omitQuery
    dsimp only
    split
    · exact ⟨trivial, hReported⟩
    · exact ⟨trivial, hReported⟩
  | beginSend =>
    show Reported c.beginSend.history
    rcases beginSend_cases c with hNone | ⟨e, rest, m, -, -, -, hSome⟩
    · rw [hNone]
      exact ⟨trivial, hReported⟩
    · rw [hSome]
      exact ⟨trivial, hReported⟩
  | completeSend =>
    show Reported c.completeSend.history
    rcases completeSend_cases c with hNone | ⟨e, rest, -, -, hSome⟩
    · rw [hNone]
      exact ⟨trivial, hReported⟩
    · rw [hSome]
      exact ⟨trivial, hReported⟩
  | pauseNoncritical paused | close => exact ⟨trivial, hReported⟩

/-! ## Every course -/

/-- Admission leaves the entry in flight. -/
theorem place_front (hMessages : ∀ e ∈ o.waiting, e.message.isSome)
    (hFirst : o.firstWaiting ≤ o.queue.length) :
    (o.place encodedBytes message kind settles transportBytes).2.front = o.front := by
  have hPlaced : EventOutbox.Placed encodedBytes o message kind settles transportBytes _ _ :=
    EventOutbox.place_cases hMessages
  revert hPlaced
  generalize o.place encodedBytes message kind settles transportBytes = result
  intro hPlaced
  obtain ⟨admission, outbox⟩ := result
  cases hPlaced with
  | dropped => rfl
  | noted => cases kind <;> rfl
  | replaced hOpen hKind j old oldMessage =>
    show (o.front ++ o.waiting.set j _).take o.firstWaiting = _
    have hLength : o.front.length = o.firstWaiting := List.length_take_of_le hFirst
    rw [← hLength, List.take_left]
  | added =>
    have hPush : (o.push message (EventOutbox.messageBytes encodedBytes message) kind).front =
        o.front := by
      have hSame : (o.push message (EventOutbox.messageBytes encodedBytes message)
          kind).firstWaiting = o.firstWaiting := by
        simp [EventOutbox.push, EventOutbox.firstWaiting]
      rw [EventOutbox.front, hSame]
      simp only [EventOutbox.push, EventOutbox.countUp_queue]
      exact List.take_append_of_le_length hFirst
    cases settles with
    | false | true => exact hPush

/-- What holds of an outbox at any moment. -/
structure Balanced (encodedBytes : Json → Nat) (c : Course) : Prop where
  bytes : c.outbox.bytes = (c.outbox.queue.map Entry.bytes).sum
  /-- The size of an entry is that of its message. -/
  sizes : ∀ e ∈ c.outbox.waiting, ∃ m, e.message = some m ∧
    e.bytes = EventOutbox.messageBytes encodedBytes m
  /-- The entry in flight keeps the reservation of the message sent last. -/
  flight : c.outbox.inFlight = true → ∃ m, c.sent.getLast? = some m ∧
    c.outbox.front = [⟨none, EventOutbox.messageBytes encodedBytes m.1, m.2⟩]
  ordinary : c.outbox.ordinaryCount = (c.outbox.queue.countP fun e => EventOutbox.isOrdinary e.kind)
  metadata : c.outbox.metadataCount = c.outbox.queue.countP fun e => e.kind = .metadata
  lifecycle : c.outbox.lifecycleCount = c.outbox.queue.countP fun e => e.kind = .lifecycle
  slots : c.outbox.ordinaryCount ≤ c.outbox.capacity ∧ c.outbox.metadataCount ≤ metadataSlots ∧
    c.outbox.lifecycleCount ≤ lifecycleSlots
  /-- The messages sent are numbered 1, 2, 3, … -/
  numbered : c.sent.map (fun m => m.1.sequence) = List.range' 1 c.sent.length
  untouched : ∀ envelope storageFailed transportBytes,
    (c.admitEvent encodedBytes envelope storageFailed transportBytes).outbox.front = c.outbox.front ∧
    (c.admitEvent encodedBytes envelope storageFailed transportBytes).sent = c.sent
  oneWaiting : ∀ key, (waitingMessages c.outbox).countP (metadataUnder key) ≤ 1
  /-- The last value admitted under a key is the last one sent, or it still waits as the last. -/
  lastSent : ∀ key, (((line c).filter (metadataUnder key)).getLast?).map (fun m => value m.1) =
    latestAdmitted c.history key
  /-- The counters are what was left out since the last settlement event. -/
  tally : c.outbox.tally = tallyOf c.history
  reported : Reported c.history

theorem Accounted.waitingMessages_eq (h : Accounted encodedBytes c ws) :
    waitingMessages c.outbox = ws := by
  rw [waitingMessages, h.waiting, List.filterMap_map]
  have hSome : ((fun e : Entry => e.message.map fun message => (message, e.kind)) ∘
      fun m : EventEnvelope × Kind => EventOutbox.entry encodedBytes m.1 m.2) = some := by
    funext m
    rfl
  rw [hSome, List.filterMap_some]

theorem Accounted.balanced (h : Accounted encodedBytes c ws) (hReported : Reported c.history) :
    Balanced encodedBytes c := by
  have hWaiting := h.waitingMessages_eq
  constructor
  · exact h.bytes
  · rw [h.waiting]
    intro e he
    obtain ⟨m, -, rfl⟩ := List.mem_map.mp he
    exact ⟨m.1, rfl, rfl⟩
  · exact h.front
  · exact h.ordinary
  · exact h.metadata
  · exact h.lifecycle
  · exact ⟨h.ordinarySlots, h.metadataSlots, h.lifecycleSlots⟩
  · have hSequence := h.sequence
    have hTotal := congrArg List.length h.sequence
    simp only [List.map_append, List.length_append, List.length_map, List.length_range'] at hTotal
    rw [List.map_append, ← hTotal, ← List.range'_append_1] at hSequence
    exact List.append_inj_left hSequence (by simp)
  · intro envelope storageFailed transportBytes
    rcases admit_cases encodedBytes c envelope storageFailed transportBytes with
      hNone | ⟨kind, message, settles, -, -, -, hSome⟩
    · rw [hNone]
      exact ⟨rfl, rfl⟩
    · rw [hSome]
      exact ⟨place_front h.messages h.firstWaiting_le, rfl⟩
  · intro key
    rw [hWaiting]
    have hKeys := h.keys
    have hOnly : ((ws.filter fun m => m.2 = .metadata).map fun m => m.1.key).count key ≤ 1 :=
      List.nodup_iff_count_le_one.mp hKeys key
    rw [List.count_eq_countP, List.countP_map, List.countP_filter] at hOnly
    refine le_trans (le_of_eq ?_) hOnly
    apply List.countP_congr
    intro m _
    simp [metadataUnder, and_comm]
  · intro key
    rw [line, hWaiting]
    exact h.latest key
  · exact h.tally
  · exact hReported

theorem accounted_new (capacity : Nat) : Accounted encodedBytes { outbox := { capacity } } [] := by
  constructor
  · rfl
  · intro hNever
    cases hNever
  · rfl
  · rfl
  · rfl
  · rfl
  · exact Nat.zero_le _
  · exact Nat.zero_le _
  · exact Nat.zero_le _
  · rfl
  · exact List.nodup_nil
  · intro key
    rfl
  · rfl

theorem accounted_run (encodedBytes : Json → Nat) (operations : List Operation) :
    ∀ {c : Course} {ws : List (EventEnvelope × Kind)}, Accounted encodedBytes c ws →
      Reported c.history → (∀ operation ∈ operations, AsWorker operation) →
      (∃ ws', Accounted encodedBytes (operations.foldl (Course.step encodedBytes) c) ws') ∧
        Reported (operations.foldl (Course.step encodedBytes) c).history := by
  induction operations with
  | nil =>
    intro c ws h hReported _
    exact ⟨⟨ws, h⟩, hReported⟩
  | cons operation rest ih =>
    intro c ws h hReported hWorker
    obtain ⟨ws', hNext⟩ := h.step operation
    have hNextReported : Reported (Course.step encodedBytes c operation).history :=
      reported_step h hReported (hWorker operation (by simp))
    exact ih hNext hNextReported fun other hOther => hWorker other (by simp [hOther])

/--
**The outbox balances.** After every sequence of operations with the kinds of
`classify_event`: the byte and slot counters are those of the queue and stay within
their limits, the messages sent carry the numbers 1, 2, 3, …, admission never touches
the entry in flight, at most one metadata entry waits under a key and the last value
admitted under it is the last one sent, and each admitted settlement event reports
exactly what was counted since the one before it.
-/
theorem outbox_balances (encodedBytes : Json → Nat) (capacity : Nat)
    (operations : List Operation) (hWorker : ∀ operation ∈ operations, AsWorker operation) :
    Balanced encodedBytes (run encodedBytes capacity operations) := by
  obtain ⟨⟨ws, h⟩, hReported⟩ :=
    accounted_run encodedBytes operations (accounted_new capacity) trivial hWorker
  exact h.balanced hReported

/-- Nine lifecycle events before anything is sent, then one send and the end of the run. -/
def sampleOperations : List Operation :=
  List.replicate 9 (.admitEvent { event := .runStarted } false 0) ++
    [.beginSend, .completeSend, .admitEvent { event := .runFinished } false 0]

theorem outbox_balances_sample : (run (fun _ => 1) 4 sampleOperations).sent.length = 1 ∧
      Balanced (fun _ => 1) (run (fun _ => 1) 4 sampleOperations) := by
  refine ⟨rfl, outbox_balances (fun _ => 1) 4 sampleOperations ?_⟩
  intro operation hMem
  simp only [sampleOperations, List.mem_append, List.mem_replicate, List.mem_cons,
    List.not_mem_nil, or_false] at hMem
  rcases hMem with ⟨-, rfl⟩ | rfl | rfl | rfl <;> simp [AsWorker]

/-- The ninth lifecycle event is left out and no settlement event says so. -/
theorem lifecycle_omission_unreported : ∃ message history,
      (run (fun _ => 1) 4 sampleOperations).history =
        .added { event := .runFinished } message .lifecycle true :: history ∧
      .omitted .lifecycle false ∈ unreported history ∧
      message.data = ({ event := .runFinished } : EventEnvelope).data := by
  refine ⟨{ event := .runFinished, sequence := 9 }, _, rfl, ?_, rfl⟩
  decide

end Course

end SimplexAgent.Core
