import SimplexAgent.Core.EventOutboxLedger
import Mathlib.Algebra.Order.BigOperators.Group.List
import Mathlib.Algebra.Order.Ring.Nat

/-!
# The lifecycle reserve

The outbox and the transport behind it. A message is taken from the outbox, waits in the
transport, and is written; between `begin_send` and `complete_send` both sides may count
it. Ordinary and metadata events share the soft bound, lifecycle events the rest of the
write capacity: eight of them, and one message that is counted twice.

The reserve is enough when at most eight lifecycle events come between two moments at
which both sides are empty. Slots are released before the bytes in the transport are, so
the bound is on what was admitted since the last such moment, not on what waits.
-/

namespace SimplexAgent.Core

open Dataclass

/-! ## The link -/

/-- The outbox with the transport behind it. -/
structure Link where
  course : Course
  /-- The sizes of the messages that wait for the wire or are being written. -/
  transport : List Nat := []
  /-- The transport has taken the message in flight. -/
  handed : Bool := false
  /-- Lifecycle events admitted since outbox and transport were last both empty. -/
  lifecycles : Nat := 0

inductive LinkEvent where
  | admitEvent (envelope : EventEnvelope) (storageFailed : Bool)
  | omitQueryWhenCongested
  | beginSend
  /-- The transport takes the message in flight. -/
  | enqueue
  | completeSend
  /-- One message of the transport is on the wire, or given up. -/
  | written (i : Nat)
  | pauseNoncritical (paused : Bool)
  | close

def Outcome.newLifecycle : Outcome → Nat
  | .added _ _ .lifecycle _ => 1
  | _ => 0

namespace Link

variable (encodedBytes : Json → Nat)

def outbox (l : Link) : EventOutbox := l.course.outbox

def operate (l : Link) (operation : Operation) : Link :=
  let course := l.course.step encodedBytes operation
  { l with
    course
    lifecycles := l.lifecycles + ((course.history.head?).map Outcome.newLifecycle).getD 0 }

/-- Both sides are empty. -/
def drained (l : Link) : Bool := l.outbox.queue.isEmpty && l.transport.isEmpty

/-- The count starts again whenever both sides are empty. -/
def recount (l : Link) : Link := if l.drained then { l with lifecycles := 0 } else l

def enqueue (l : Link) : Link :=
  if l.outbox.inFlight ∧ l.handed = false then
    { l with
      transport := l.transport ++ l.outbox.front.map Entry.bytes
      handed := true }
  else l

def completeSend (l : Link) : Link :=
  { l.operate encodedBytes .completeSend with handed := false }

def act (l : Link) : LinkEvent → Link
  | .admitEvent envelope storageFailed =>
    l.operate encodedBytes (.admitEvent envelope storageFailed l.transport.sum)
  | .omitQueryWhenCongested =>
    l.operate encodedBytes (.omitQueryWhenCongested l.transport.sum)
  | .beginSend => l.operate encodedBytes .beginSend
  | .enqueue => l.enqueue
  | .completeSend => l.completeSend encodedBytes
  | .written i => { l with transport := l.transport.eraseIdx i }
  | .pauseNoncritical paused => l.operate encodedBytes (.pauseNoncritical paused)
  | .close => l.operate encodedBytes .close

def step (l : Link) (event : LinkEvent) : Link := (l.act encodedBytes event).recount

/-- A new link after a sequence of events. -/
def run (capacity : Nat) (events : List LinkEvent) : Link :=
  events.foldl (step encodedBytes) { course := { outbox := { capacity } } }

/-! ## The bound -/

def Within (l : Link) : Prop := ∀ e ∈ l.outbox.queue, e.bytes ≤ displayEventMaxBytes

/-- The bytes that both sides count. -/
def shared (l : Link) : Nat := if l.handed then (l.outbox.front.map Entry.bytes).sum else 0

/-- What both sides hold is bounded by what lifecycle events were let in. -/
structure Bounded (l : Link) : Prop where
  accounted : ∃ ws, Course.Accounted encodedBytes l.course ws
  handed : l.handed = true → l.outbox.inFlight = true
  bytes : l.outbox.bytes + l.transport.sum ≤
    softBytes + displayEventMaxBytes * l.lifecycles + l.shared
  slots : l.outbox.lifecycleCount ≤ l.lifecycles

variable {encodedBytes}
variable {l : Link}

theorem bounded_new (capacity : Nat) :
    Bounded encodedBytes { course := { outbox := { capacity } } } := by
  constructor
  · exact ⟨[], Course.accounted_new capacity⟩
  · intro hNever
    cases hNever
  · exact Nat.zero_le _
  · exact Nat.le_refl _

/-- Both sides empty: nothing is counted any more. -/
theorem Bounded.recount (h : Bounded encodedBytes l) : Bounded encodedBytes l.recount := by
  unfold Link.recount
  by_cases hDrained : l.drained = true
  · rw [if_pos hDrained]
    obtain ⟨ws, hAccounted⟩ := h.accounted
    simp only [drained, Bool.and_eq_true, List.isEmpty_iff] at hDrained
    have hBytes : l.outbox.bytes = 0 := by
      rw [outbox, hAccounted.bytes, show l.course.outbox.queue = [] from hDrained.1]
      rfl
    have hSlots : l.outbox.lifecycleCount = 0 := by
      rw [outbox, hAccounted.lifecycle, show l.course.outbox.queue = [] from hDrained.1]
      rfl
    constructor
    · exact ⟨ws, hAccounted⟩
    · exact h.handed
    · show l.outbox.bytes + l.transport.sum ≤ _
      rw [hBytes, hDrained.2]
      exact Nat.zero_le _
    · show l.outbox.lifecycleCount ≤ 0
      omega
  · rw [if_neg hDrained]
    exact h

theorem Bounded.same {l l' : Link} (h : Bounded encodedBytes l)
    (hAccounted : ∃ ws, Course.Accounted encodedBytes l'.course ws)
    (hSame : Course.SameEntries l.outbox l'.outbox) (hTransport : l'.transport = l.transport)
    (hHanded : l'.handed = l.handed) (hLifecycles : l.lifecycles ≤ l'.lifecycles) :
    Bounded encodedBytes l' := by
  have hFront : l'.outbox.front = l.outbox.front := by
    simp only [EventOutbox.front, EventOutbox.firstWaiting, hSame.queue, hSame.inFlight]
  have hBytes := h.bytes
  have hSlots := h.slots
  have hMore := Nat.mul_le_mul_left displayEventMaxBytes hLifecycles
  constructor
  · exact hAccounted
  · rw [hHanded, hSame.inFlight]
    exact h.handed
  · rw [hSame.bytes, hTransport, shared, hHanded, hFront]
    rw [shared] at hBytes
    omega
  · rw [hSame.lifecycle]
    omega

/-- **Admission.** An event that is not a lifecycle event leaves the soft bound in force; a
lifecycle event adds one message and one to the count. -/
theorem Bounded.admission {envelope message : EventEnvelope} {kind : Kind} {settles : Bool}
    (h : Bounded encodedBytes l) (hSequence : message.sequence = l.outbox.sequence + 1)
    (hSize : EventOutbox.messageBytes encodedBytes message ≤ displayEventMaxBytes) :
    let course := l.course.admission envelope message kind settles
      (l.outbox.place encodedBytes message kind settles l.transport.sum)
    Bounded encodedBytes
      { l with
        course
        lifecycles := l.lifecycles + ((course.history.head?).map Outcome.newLifecycle).getD 0 } := by
  intro course
  obtain ⟨ws, hAccounted⟩ := h.accounted
  have hNext : ∃ ws', Course.Accounted encodedBytes course ws' :=
    hAccounted.admission hSequence rfl
  have hFront : course.outbox.front = l.outbox.front :=
    Course.place_front hAccounted.messages hAccounted.firstWaiting_le
  have hPlaced : EventOutbox.Placed encodedBytes l.outbox message kind settles l.transport.sum
      _ _ := EventOutbox.place_cases hAccounted.messages
  have hBytes := h.bytes
  have hSlots := h.slots
  have hShared : ∀ n, shared { l with course, lifecycles := n } = l.shared := by
    intro n
    show (if l.handed then (course.outbox.front.map Entry.bytes).sum else 0) = _
    rw [hFront, shared]
  revert hNext hFront hShared course hPlaced
  generalize l.outbox.place encodedBytes message kind settles l.transport.sum = result
  obtain ⟨admission, outbox⟩ := result
  intro course hNext hFront hPlaced hShared
  cases hPlaced with
  | dropped => exact h.same hNext ⟨rfl, rfl, rfl, rfl, rfl, rfl, rfl, rfl⟩ rfl rfl (by simp)
  | noted =>
    exact h.same hNext (Course.sameEntries_noteOmission _ _) rfl rfl (by simp)
  | replaced hOpen hKind j old oldMessage hOld hOldKind hMessage hKey hFits =>
    constructor
    · exact hNext
    · exact h.handed
    · rw [hShared]
      show l.outbox.bytes - old.bytes + _ + l.transport.sum ≤ _
      omega
    · exact le_trans hSlots (Nat.le_add_right _ _)
  | added hOpen hSlot hFits hNew =>
    have hAdded : Course.SameEntries (l.outbox.push message
        (EventOutbox.messageBytes encodedBytes message) kind) course.outbox := by
      cases settles <;> exact ⟨rfl, rfl, rfl, rfl, rfl, rfl, rfl, rfl⟩
    have hGrown : course.outbox.bytes =
        l.outbox.bytes + EventOutbox.messageBytes encodedBytes message := by
      rw [hAdded.bytes]
      simp [EventOutbox.push]
    have hCount : course.outbox.lifecycleCount =
        l.outbox.lifecycleCount + if kind = .lifecycle then 1 else 0 := by
      rw [hAdded.lifecycle]
      simp [EventOutbox.push]
    have hHead : ((course.history.head?).map Outcome.newLifecycle).getD 0 =
        if kind = .lifecycle then 1 else 0 := by
      cases kind <;> rfl
    constructor
    · exact hNext
    · intro hHanded
      show course.outbox.inFlight = true
      rw [hAdded.inFlight]
      simpa [EventOutbox.push] using h.handed hHanded
    · rw [hShared]
      show course.outbox.bytes + l.transport.sum ≤
        softBytes + displayEventMaxBytes * (l.lifecycles + _) + l.shared
      rw [hGrown, hHead]
      by_cases hKind : kind = .lifecycle
      · rw [if_pos hKind, Nat.mul_add]
        omega
      · rw [if_neg hKind]
        have hSoft : EventOutbox.byteLimit kind = softBytes := by
          cases kind <;> first | rfl | exact absurd rfl hKind
        rw [hSoft] at hFits
        omega
    · show course.outbox.lifecycleCount ≤ l.lifecycles + _
      rw [hCount, hHead]
      omega

theorem Bounded.admitEvent (h : Bounded encodedBytes l) (envelope : EventEnvelope)
    (storageFailed : Bool) : Bounded encodedBytes
      (l.operate encodedBytes (.admitEvent envelope storageFailed l.transport.sum)) := by
  obtain ⟨ws, hAccounted⟩ := h.accounted
  unfold operate Course.step
  dsimp only
  rcases Course.admit_cases encodedBytes l.course envelope storageFailed l.transport.sum with
    hNone | ⟨kind, message, settles, -, hPrepare, hSize, hSome⟩
  · rw [hNone]
    exact h.same ⟨ws, hAccounted.note⟩ ⟨rfl, rfl, rfl, rfl, rfl, rfl, rfl, rfl⟩ rfl rfl (by simp)
  · rw [hSome]
    exact h.admission (Course.prepare_ok hPrepare).2.2.1 hSize

theorem Bounded.omitQuery (h : Bounded encodedBytes l) : Bounded encodedBytes
      (l.operate encodedBytes (.omitQueryWhenCongested l.transport.sum)) := by
  obtain ⟨ws, hAccounted⟩ := h.accounted
  have hSame : Course.SameEntries l.outbox
      (l.outbox.omitQueryWhenCongested l.transport.sum).2 := by
    unfold EventOutbox.omitQueryWhenCongested
    split
    · exact ⟨rfl, rfl, rfl, rfl, rfl, rfl, rfl, rfl⟩
    · split
      · exact Course.sameEntries_noteOmission l.outbox .query
      · exact ⟨rfl, rfl, rfl, rfl, rfl, rfl, rfl, rfl⟩
  exact h.same ⟨ws, hAccounted.omitQuery _⟩ hSame rfl rfl (Nat.le_add_right _ _)

/-- A message that starts on its way is still counted by the outbox alone. -/
theorem Bounded.beginSend (h : Bounded encodedBytes l) :
    Bounded encodedBytes (l.operate encodedBytes .beginSend) := by
  obtain ⟨ws, hAccounted⟩ := h.accounted
  have hNext : ∃ ws', Course.Accounted encodedBytes l.course.beginSend ws' :=
    hAccounted.step .beginSend
  unfold operate Course.step
  dsimp only
  rcases Course.beginSend_cases l.course with hNone | ⟨e, rest, m, hQueue, hFlight, -, hSome⟩
  · rw [hNone]
    exact h.same ⟨ws, hAccounted.note⟩ ⟨rfl, rfl, rfl, rfl, rfl, rfl, rfl, rfl⟩ rfl rfl (by simp)
  · rw [hSome] at hNext ⊢
    have hIdle : l.handed = false := by
      cases hHanded : l.handed with
      | false => rfl
      | true => exact absurd (h.handed hHanded) (by simp [outbox, hFlight])
    have hBytes := h.bytes
    rw [shared, hIdle] at hBytes
    constructor
    · exact hNext
    · intro _
      rfl
    · rw [shared]
      simp only [hIdle]
      exact hBytes
    · exact h.slots

/-- The transport takes the message in flight: both sides count it. -/
theorem Bounded.enqueue (h : Bounded encodedBytes l) : Bounded encodedBytes l.enqueue := by
  unfold Link.enqueue
  by_cases hTakes : l.outbox.inFlight = true ∧ l.handed = false
  · rw [if_pos hTakes]
    have hBytes := h.bytes
    rw [shared, hTakes.2] at hBytes
    constructor
    · exact h.accounted
    · intro _
      exact hTakes.1
    · show l.outbox.bytes + (l.transport ++ l.outbox.front.map Entry.bytes).sum ≤
        softBytes + displayEventMaxBytes * l.lifecycles + (l.outbox.front.map Entry.bytes).sum
      rw [List.sum_append]
      simp only [Bool.false_eq_true, if_false] at hBytes
      omega
    · exact h.slots
  · rw [if_neg hTakes]
    exact h

/-- The outbox gives up what it shared with the transport. -/
theorem Bounded.completeSend (h : Bounded encodedBytes l) :
    Bounded encodedBytes (l.completeSend encodedBytes) := by
  obtain ⟨ws, hAccounted⟩ := h.accounted
  have hBytes := h.bytes
  have hSlots := h.slots
  unfold Link.completeSend operate Course.step
  dsimp only
  cases hFlight : l.outbox.inFlight with
  | false =>
    have hIdle : l.handed = false := by
      cases hHanded : l.handed with
      | false => rfl
      | true => exact absurd (h.handed hHanded) (by simp [hFlight])
    rcases Course.completeSend_cases l.course with hNone | ⟨e, rest, -, hBusy, -⟩
    · rw [hNone]
      exact h.same ⟨ws, hAccounted.note⟩ ⟨rfl, rfl, rfl, rfl, rfl, rfl, rfl, rfl⟩ rfl
        hIdle.symm (by simp)
    · exact absurd hBusy (by simp [show l.course.outbox.inFlight = false from hFlight])
  | true =>
    obtain ⟨m, -, hFront⟩ := hAccounted.front hFlight
    have hQueue : ∃ e rest, l.outbox.queue = e :: rest ∧
        (l.outbox.front.map Entry.bytes).sum = e.bytes := by
      cases hQueue : l.outbox.queue with
      | nil =>
        simp [EventOutbox.front, show l.course.outbox.queue = [] from hQueue] at hFront
      | cons e rest =>
        refine ⟨e, rest, rfl, ?_⟩
        simp [EventOutbox.front, EventOutbox.firstWaiting, hFlight, hQueue]
    obtain ⟨e, rest, hQueue, hShared⟩ := hQueue
    have hSome : l.course.completeSend =
        { l.course with
          outbox := { ({ l.outbox with bytes := l.outbox.bytes - e.bytes } :
            EventOutbox).countDown e.kind with queue := rest, inFlight := false }
          history := .other :: l.course.history } := by
      simp only [outbox] at hQueue hFlight
      simp [Course.completeSend, EventOutbox.completeSend, hQueue, hFlight, outbox]
    have hHeld : e.bytes ≤ l.outbox.bytes := by
      have hSum : l.outbox.bytes = (l.outbox.queue.map Entry.bytes).sum := hAccounted.bytes
      rw [hQueue, List.map_cons, List.sum_cons] at hSum
      omega
    have hLess : l.shared ≤ e.bytes := by
      rw [shared]
      split
      · omega
      · exact Nat.zero_le _
    rw [hSome]
    constructor
    · exact ⟨ws, hAccounted.completeSend hQueue hFlight⟩
    · intro hNever
      cases hNever
    · show (({ l.outbox with bytes := l.outbox.bytes - e.bytes } : EventOutbox).countDown
        e.kind).bytes + l.transport.sum ≤ softBytes + displayEventMaxBytes * l.lifecycles + 0
      rw [EventOutbox.countDown_bytes]
      show l.outbox.bytes - e.bytes + l.transport.sum ≤ _
      omega
    · show (({ l.outbox with bytes := l.outbox.bytes - e.bytes } : EventOutbox).countDown
        e.kind).lifecycleCount ≤ l.lifecycles + 0
      rw [EventOutbox.countDown_lifecycle]
      exact le_trans (Nat.sub_le _ _) hSlots

theorem Bounded.written (h : Bounded encodedBytes l) (i : Nat) :
    Bounded encodedBytes { l with transport := l.transport.eraseIdx i } := by
  have hLess : (l.transport.eraseIdx i).sum ≤ l.transport.sum :=
    (List.eraseIdx_sublist l.transport i).sum_le_sum fun _ _ => Nat.zero_le _
  have hBytes := h.bytes
  constructor
  · exact h.accounted
  · exact h.handed
  · show l.outbox.bytes + (l.transport.eraseIdx i).sum ≤
      softBytes + displayEventMaxBytes * l.lifecycles + l.shared
    omega
  · exact h.slots

/-- **One event keeps the bound.** -/
theorem Bounded.step (h : Bounded encodedBytes l) (event : LinkEvent) :
    Bounded encodedBytes (l.step encodedBytes event) := by
  apply Bounded.recount
  cases event with
  | admitEvent envelope storageFailed => exact h.admitEvent envelope storageFailed
  | omitQueryWhenCongested => exact h.omitQuery
  | beginSend => exact h.beginSend
  | enqueue => exact h.enqueue
  | completeSend => exact h.completeSend
  | written i => exact h.written i
  | pauseNoncritical paused =>
    obtain ⟨ws, hAccounted⟩ := h.accounted
    exact h.same (hAccounted.step (.pauseNoncritical paused))
      ⟨rfl, rfl, rfl, rfl, rfl, rfl, rfl, rfl⟩ rfl rfl (Nat.le_add_right _ _)
  | close =>
    obtain ⟨ws, hAccounted⟩ := h.accounted
    exact h.same (hAccounted.step .close)
      ⟨rfl, rfl, rfl, rfl, rfl, rfl, rfl, rfl⟩ rfl rfl (Nat.le_add_right _ _)

theorem bounded_run (capacity : Nat) (events : List LinkEvent) :
    Bounded encodedBytes (run encodedBytes capacity events) := by
  suffices hAll : ∀ l, Bounded encodedBytes l →
      Bounded encodedBytes (events.foldl (Link.step encodedBytes) l) from
    hAll _ (bounded_new capacity)
  induction events with
  | nil =>
    intro l h
    exact h
  | cons event rest ih =>
    intro l h
    exact ih _ (h.step event)

/-! ## The reserve -/

/--
**The reserve is enough.** Within the budget of one message and before the ninth
lifecycle event since both sides were last empty, an open outbox takes a lifecycle event.
-/
theorem admits_lifecycle {capacity : Nat} {events : List LinkEvent} {envelope : EventEnvelope}
    {result : Admission × EventOutbox} (hWithin : (run encodedBytes capacity events).Within)
    (hOpen : (run encodedBytes capacity events).outbox.closed = false)
    (hCount : (run encodedBytes capacity events).lifecycles < lifecycleSlots)
    (hAdmit : (run encodedBytes capacity events).outbox.admitEvent encodedBytes envelope .lifecycle
      (run encodedBytes capacity events).transport.sum = .ok result) :
    result.1 = .added := by
  have h : Bounded encodedBytes (run encodedBytes capacity events) := bounded_run capacity events
  revert hWithin hOpen hCount hAdmit h
  generalize run encodedBytes capacity events = l
  intro hWithin hOpen hCount hAdmit h
  obtain ⟨ws, hAccounted⟩ := h.accounted
  obtain ⟨message, settles, -, hSize, hPlace⟩ := Course.admit_ok hAdmit
  have hShared : l.shared ≤ displayEventMaxBytes := by
    rw [shared]
    split
    · rename_i hHanded
      obtain ⟨m, -, hFront⟩ := hAccounted.front (h.handed hHanded)
      have hMem : ∀ e ∈ l.outbox.front, e.bytes ≤ displayEventMaxBytes :=
        fun e he => hWithin e (List.mem_of_mem_take he)
      rw [show l.outbox.front = _ from hFront] at hMem ⊢
      simpa using hMem _ (List.mem_singleton.mpr rfl)
    · exact Nat.zero_le _
  have hRoom : l.outbox.bytes + l.transport.sum + EventOutbox.messageBytes encodedBytes message ≤
      writeByteCapacity := by
    have hBytes := h.bytes
    have hReserve : softBytes + displayEventMaxBytes * l.lifecycles + displayEventMaxBytes +
        displayEventMaxBytes ≤ writeByteCapacity := by
      simp only [softBytes, writeByteCapacity, displayEventMaxBytes, lifecycleSlots] at hCount ⊢
      omega
    omega
  have hSlot : l.outbox.slot .lifecycle = true := by
    have hSlots := h.slots
    simp only [EventOutbox.slot, decide_eq_true_eq]
    omega
  have hPlaced : EventOutbox.Placed encodedBytes l.outbox message .lifecycle settles
      l.transport.sum result.1 result.2 := by
    rw [← hPlace]
    exact EventOutbox.place_cases hAccounted.messages
  generalize result.1 = admission at hPlaced ⊢
  generalize result.2 = outbox at hPlaced
  cases hPlaced with
  | dropped hWhy =>
    have hFits : fits l.outbox.bytes l.transport.sum
        (EventOutbox.messageBytes encodedBytes message) writeByteCapacity = true :=
      (EventOutbox.fits_iff _ _ _ _).mpr hRoom
    simp [hOpen, hSlot, hFits] at hWhy
  | noted _ hKind => exact absurd rfl hKind
  | replaced _ hKind => cases hKind
  | added => rfl

end Link

end SimplexAgent.Core
