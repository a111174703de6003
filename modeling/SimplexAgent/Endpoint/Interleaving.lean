import SimplexAgent.Endpoint.Complete
import SimplexAgent.Verified.Runs

/-!
# Producer, consumer and abort

`pump` and `next` are two coroutines over one channel without a buffer, and `abort` may come
between any two of their steps. A send waits for a receive and a receive for a send; closing
the channel fails whoever waits, but a product that was handed over already is still
delivered. Each place where one of them waits is a state of its own here, and an input is
what happens there.

How a stream ended is four flags that these steps set, and `endState` ranks them. What it
should say is read off a log of what happened in which order: `howEnded`. The two agree in
every state of every run.
-/

namespace SimplexAgent.Endpoint

open Endpoint.Sse Verified.Runs

/-- Where the producer is: in its driver, waiting for a receive, in its driver after a put
that was refused, or past the end of `pump`. -/
inductive ProducerState (δ : Type) where
  | driving
  | sending (delta : δ)
  | stopping
  | exited

/-- Where the consumer is: not in `next`, waiting for a product, in possession of one, or in
the hooks that are awaited, with how many of them are left. -/
inductive ConsumerState (δ : Type) where
  | idle
  | waiting
  | received (delta : δ)
  | hooking (left : Nat)

/-- What happened to the stream. -/
inductive ReaderEvent (δ : Type) where
  | folded (delta : δ)
  /-- The terminal event was folded, and the response assembled. -/
  | assembled
  /-- A fold, an assembly or a hook threw. -/
  | threw
  /-- The consumer was woken by the closed channel. -/
  | woken
  | aborted

/-- The reader with its two coroutines. The log is not in the source. -/
structure ReaderRun (δ α κ : Type) where
  reader : ModelResponseReader δ α κ
  producer : ProducerState δ
  consumer : ConsumerState δ
  log : List (ReaderEvent δ)

inductive ReaderInput (δ : Type) where
  /-- The consumer calls `next`. -/
  | next
  /-- Its receive failed: the channel is closed. -/
  | wake
  /-- Its receive succeeded; one of the hooks that are called may throw. -/
  | deliver (hookFault : Option Thrown)
  /-- The next of the hooks that are awaited returns or throws. -/
  | asyncHook (fault : Option Thrown)
  /-- The driver has decoded a product and sends it. -/
  | decoded (delta : δ)
  /-- The send that waited failed: the channel is closed. -/
  | refused
  /-- Framing or decoding throws. -/
  | decodeFailed (thrown : Thrown)
  /-- The driver throws. -/
  | transportFailed (thrown : Thrown)
  /-- The driver returns. -/
  | returned
  | abort

variable {δ α κ : Type}

/-! ## Steps -/

namespace ReaderRun

/-- A reader that was just constructed, and whose producer was spawned. -/
def start (L : ReaderLayer δ α κ) (lineWindow : Nat) (counted : κ) : ReaderRun δ α κ where
  reader := .construct L lineWindow counted
  producer := .driving
  consumer := .idle
  log := []

/-- The channel takes a product. -/
def handOver (reader : ModelResponseReader δ α κ) (delta : δ) : ModelResponseReader δ α κ :=
  { reader with
    handler := { reader.handler with sent := reader.handler.sent ++ [delta] } }

/-- The fault path of `pump`. -/
def pumpFault (reader : ModelResponseReader δ α κ) (thrown : Thrown) : ModelResponseReader δ α κ :=
  { reader with producerError := some thrown, handler := finish reader.handler .error }

/-- The clean exit of `pump`. -/
def pumpReturn (reader : ModelResponseReader δ α κ) : ModelResponseReader δ α κ :=
  if reader.handler.state = .running then { reader with handler := finish reader.handler .error }
  else reader

def hookEvents : Option Thrown → List (ReaderEvent δ)
  | none => []
  | some _ => [.threw]

/-- What a delivered product adds to the log. -/
def foldEvents (L : ReaderLayer δ α κ) (layer : α) (delta : δ) (hookFault : Option Thrown) :
    List (ReaderEvent δ) :=
  match L.accumulate layer delta with
  | (_, some _) => [.threw]
  | (layer, none) =>
    if L.isTerminal delta then
      match L.assemble layer with
      | (_, some _) => [.folded delta, .threw]
      | (_, none) => .folded delta :: .assembled :: hookEvents hookFault
    else .folded delta :: hookEvents hookFault

def afterHooks (asyncHooks : Nat) (thrown : Option Thrown) : ConsumerState δ :=
  if thrown.isSome ∨ asyncHooks = 0 then .idle else .hooking asyncHooks

/-- One input. `asyncHooks` is how many hooks are awaited for each product. -/
def step (L : ReaderLayer δ α κ) (asyncHooks : Nat) (s : ReaderRun δ α κ) :
    ReaderInput δ → Option (ReaderRun δ α κ)
  | .next =>
    match s.consumer, s.producer with
    | .idle, .sending delta =>
      if s.reader.done then some s
      else if s.reader.handler.closed then some { s with consumer := .waiting }
      else some { s with
        reader := handOver s.reader delta
        producer := .driving
        consumer := .received delta }
    | .idle, _ => if s.reader.done then some s else some { s with consumer := .waiting }
    | _, _ => none
  | .wake =>
    match s.consumer with
    | .waiting =>
      if s.reader.handler.closed then
        some { s with
          reader := { s.reader with
            abortState := some s.reader.handler.state
            abortReason := "SSE get aborted"
            done := true }
          consumer := .idle
          log := s.log ++ [.woken] }
      else none
    | _ => none
  | .deliver hookFault =>
    match s.consumer with
    | .received delta =>
      let result := { s.reader with taken := s.reader.taken + 1 }.fold L delta hookFault
      some { s with
        reader := result.1
        consumer := afterHooks asyncHooks result.2
        log := s.log ++ foldEvents L s.reader.layer delta hookFault }
    | _ => none
  | .asyncHook fault =>
    match s.consumer, fault with
    | .hooking _, some thrown =>
      some { s with
        reader := (s.reader.fault thrown).1
        consumer := .idle
        log := s.log ++ [.threw] }
    | .hooking left, none =>
      some { s with consumer := if left ≤ 1 then .idle else .hooking (left - 1) }
    | _, _ => none
  | .decoded delta =>
    match s.producer, s.consumer with
    | .driving, .waiting =>
      if s.reader.handler.closed then some { s with producer := .stopping }
      else some { s with reader := handOver s.reader delta, consumer := .received delta }
    | .driving, _ =>
      some { s with
        producer := if s.reader.handler.closed then .stopping else .sending delta }
    | _, _ => none
  | .refused =>
    match s.producer with
    | .sending _ => if s.reader.handler.closed then some { s with producer := .stopping } else none
    | _ => none
  | .decodeFailed thrown =>
    match s.producer with
    | .driving =>
      some { s with
        reader := pumpFault { s.reader with handler := finish s.reader.handler .error } thrown
        producer := .exited }
    | _ => none
  | .transportFailed thrown =>
    match s.producer with
    | .sending _ => none
    | .exited => none
    | _ => some { s with reader := pumpFault s.reader thrown, producer := .exited }
  | .returned =>
    match s.producer with
    | .sending _ => none
    | .exited => none
    | _ => some { s with reader := pumpReturn s.reader, producer := .exited }
  | .abort => some { s with reader := s.reader.abort, log := s.log ++ [.aborted] }

end ReaderRun

/-! ## What the flags should say -/

def ReaderEvent.ends : ReaderEvent δ → Bool
  | .folded _ => false
  | _ => true

def ReaderEvent.isThrow : ReaderEvent δ → Bool
  | .threw => true
  | _ => false

def ReaderEvent.isAbort : ReaderEvent δ → Bool
  | .aborted => true
  | _ => false

def ReaderEvent.isWoken : ReaderEvent δ → Bool
  | .woken => true
  | _ => false

def ReaderEvent.isAssembled : ReaderEvent δ → Bool
  | .assembled => true
  | _ => false

def foldedDeltas (log : List (ReaderEvent δ)) : List δ :=
  log.filterMap fun event => match event with
    | .folded delta => some delta
    | _ => none

def howEnded (log : List (ReaderEvent δ)) : EndState :=
  if log.any ReaderEvent.isThrow then .faulted
  else
    match log.find? ReaderEvent.ends with
    | none => .streaming
    | some .assembled => .completed
    | some .aborted => .aborted
    | some _ => .faulted

/-- The accumulators after some products. -/
def ReaderLayer.foldAll (L : ReaderLayer δ α κ) (deltas : List δ) : α :=
  deltas.foldl (fun layer delta => (L.accumulate layer delta).1) L.fresh

namespace ReaderRun

/-! ## The invariant -/

variable {L : ReaderLayer δ α κ} {log : List (ReaderEvent δ)} {reader : ModelResponseReader δ α κ}
  {s : ReaderRun δ α κ}

def firstEnd (s : ReaderRun δ α κ) : Option (ReaderEvent δ) := s.log.find? ReaderEvent.ends

/-- A consumer that waits for a product, or has one that it did not look at yet. -/
def inReceive : ConsumerState δ → Bool
  | .waiting => true
  | .received _ => true
  | _ => false

/-- The product that was handed over and is not folded yet. -/
def inFlight : ConsumerState δ → List δ
  | .received delta => [delta]
  | _ => []

structure FlagsOk (reader : ModelResponseReader δ α κ) (log : List (ReaderEvent δ)) : Prop where
  done : reader.done = (log.find? ReaderEvent.ends).isSome
  faulted : reader.faulted = log.any ReaderEvent.isThrow
  selfAborted : reader.selfAborted = (log.find? ReaderEvent.ends).any ReaderEvent.isAbort
  stopped : reader.abortState.isSome = (log.find? ReaderEvent.ends).any fun e => e.isAbort || e.isWoken

def layerOf (L : ReaderLayer δ α κ) (log : List (ReaderEvent δ)) : α :=
  if log.any ReaderEvent.isAssembled then (L.assemble (L.foldAll (foldedDeltas log))).1
  else L.foldAll (foldedDeltas log)

/-- The channel is closed once the stream has ended or the producer has exited. -/
structure ChannelOk (s : ReaderRun δ α κ) : Prop where
  running : s.reader.handler.closed = false → s.reader.handler.state = .running
  done : s.reader.done = true → s.reader.handler.closed = true
  exited : s.producer = .exited → s.reader.handler.closed = true

/-- What holds between two steps. A consumer is only in its receive while nothing but an
abort has ended the stream, and the accumulators are the fold of what was handed over. -/
structure Inv (L : ReaderLayer δ α κ) (s : ReaderRun δ α κ) : Prop where
  flags : FlagsOk s.reader s.log
  channel : s.ChannelOk
  receiving : inReceive s.consumer = true → s.firstEnd.all ReaderEvent.isAbort = true
  assembled : inReceive s.consumer = true → s.log.any ReaderEvent.isAssembled = false
  sent : s.log.any ReaderEvent.isThrow = false →
    s.reader.handler.sent = foldedDeltas s.log ++ inFlight s.consumer
  layer : s.log.any ReaderEvent.isThrow = false → s.reader.layer = layerOf L s.log

theorem ends_of_throw (h : log.any ReaderEvent.isThrow = true) :
    (log.find? ReaderEvent.ends).isSome = true := by
  obtain ⟨event, hMem, hThrow⟩ := List.any_eq_true.mp h
  rw [List.find?_isSome]
  refine ⟨event, hMem, ?_⟩
  cases event <;> simp_all [ReaderEvent.isThrow, ReaderEvent.ends]

theorem endState_eq (h : FlagsOk reader log) : reader.endState = howEnded log := by
  unfold ModelResponseReader.endState howEnded
  rw [h.done, h.faulted, h.selfAborted, h.stopped]
  by_cases hThrow : log.any ReaderEvent.isThrow = true
  · simp [hThrow, ends_of_throw hThrow]
  · simp only [if_neg hThrow]
    cases hFirst : log.find? ReaderEvent.ends with
    | none => rfl
    | some event =>
      have hEnds := List.find?_some hFirst
      cases event with
      | folded delta => cases hEnds
      | assembled | woken => simp [ReaderEvent.isAbort, ReaderEvent.isWoken]
      | threw => exact absurd (List.any_eq_true.mpr ⟨_, List.mem_of_find?_eq_some hFirst, rfl⟩) hThrow
      | aborted => simp [ReaderEvent.isAbort]

theorem find_append (log events : List (ReaderEvent δ)) : (log ++ events).find? ReaderEvent.ends =
      (log.find? ReaderEvent.ends).or (events.find? ReaderEvent.ends) := List.find?_append

theorem foldedDeltas_append (log events : List (ReaderEvent δ)) :
    foldedDeltas (log ++ events) = foldedDeltas log ++ foldedDeltas events :=
  List.filterMap_append

/-! ## Steps -/

theorem flags_fault (h : FlagsOk reader log) (thrown : Thrown) :
    FlagsOk (reader.fault thrown).1 (log ++ [.threw]) := by
  obtain ⟨_, _, hAborted, hStopped⟩ := h
  constructor
  · rw [find_append]
    cases log.find? ReaderEvent.ends <;> rfl
  · rw [List.any_append]
    simp [ModelResponseReader.fault, ReaderEvent.isThrow]
  · rw [find_append]
    refine hAborted.trans ?_
    cases log.find? ReaderEvent.ends <;> rfl
  · rw [find_append]
    refine hStopped.trans ?_
    cases log.find? ReaderEvent.ends <;> rfl

theorem flags_folded {reader reader' : ModelResponseReader δ α κ} (h : FlagsOk reader log)
    (delta : δ) (hDone : reader'.done = reader.done) (hFaulted : reader'.faulted = reader.faulted)
    (hAborted : reader'.selfAborted = reader.selfAborted)
    (hStopped : reader'.abortState = reader.abortState) :
    FlagsOk reader' (log ++ [.folded delta]) := by
  have hFind : (log ++ [ReaderEvent.folded delta]).find? ReaderEvent.ends = log.find? ReaderEvent.ends := by
    rw [find_append]
    cases log.find? ReaderEvent.ends <;> rfl
  constructor
  · rw [hFind, hDone, h.done]
  · rw [List.any_append, hFaulted, h.faulted]
    simp [ReaderEvent.isThrow]
  · rw [hFind, hAborted, h.selfAborted]
  · rw [hFind, hStopped, h.stopped]

theorem flags_assembled {reader reader' : ModelResponseReader δ α κ} (h : FlagsOk reader log)
    (hDone : reader'.done = true) (hFaulted : reader'.faulted = reader.faulted)
    (hAborted : reader'.selfAborted = reader.selfAborted)
    (hStopped : reader'.abortState = reader.abortState) :
    FlagsOk reader' (log ++ [.assembled]) := by
  constructor
  · rw [find_append, hDone]
    cases log.find? ReaderEvent.ends <;> rfl
  · rw [List.any_append, hFaulted, h.faulted]
    simp [ReaderEvent.isThrow]
  · rw [find_append, hAborted, h.selfAborted]
    cases log.find? ReaderEvent.ends <;> rfl
  · rw [find_append, hStopped, h.stopped]
    cases log.find? ReaderEvent.ends <;> rfl

theorem flags_abort (h : FlagsOk reader log) : FlagsOk reader.abort (log ++ [.aborted]) := by
  have hDone := h.done
  unfold ModelResponseReader.abort
  cases hFirst : log.find? ReaderEvent.ends with
  | none =>
    rw [hFirst] at hDone
    rw [if_neg (by rw [hDone]; simp)]
    constructor
    · rw [find_append, hFirst]
      rfl
    · rw [List.any_append]
      simp [h.faulted, ReaderEvent.isThrow]
    · rw [find_append, hFirst]
      rfl
    · rw [find_append, hFirst]
      rfl
  | some event =>
    rw [hFirst] at hDone
    rw [if_pos (show reader.done = true from hDone)]
    constructor
    · rw [find_append, hFirst]
      rfl
    · rw [List.any_append]
      simp [h.faulted, ReaderEvent.isThrow]
    · rw [find_append, hFirst]
      exact h.selfAborted.trans (by rw [hFirst]; rfl)
    · rw [find_append, hFirst]
      exact h.stopped.trans (by rw [hFirst]; rfl)

theorem channel_of_closed (h : s.reader.handler.closed = true) : s.ChannelOk :=
  ⟨fun hOpen => absurd (h.symm.trans hOpen) (by simp), fun _ => h, fun _ => h⟩

theorem inv_of_throw (hFlags : FlagsOk s.reader s.log) (hClosed : s.reader.handler.closed = true)
    (hIdle : inReceive s.consumer = false) (hThrow : s.log.any ReaderEvent.isThrow = true) :
    Inv L s where
  flags := hFlags
  channel := channel_of_closed hClosed
  receiving := fun h => by rw [hIdle] at h; cases h
  assembled := fun h => by rw [hIdle] at h; cases h
  sent := fun h => by rw [hThrow] at h; cases h
  layer := fun h => by rw [hThrow] at h; cases h

theorem afterHooks_idle (asyncHooks : Nat) (thrown : Option Thrown) :
    inReceive (afterHooks (δ := δ) asyncHooks thrown) = false ∧
      inFlight (afterHooks (δ := δ) asyncHooks thrown) = [] := by
  unfold afterHooks
  split
  · exact ⟨rfl, rfl⟩
  · exact ⟨rfl, rfl⟩

theorem foldAll_append (L : ReaderLayer δ α κ) (deltas : List δ) (delta : δ) :
    L.foldAll (deltas ++ [delta]) = (L.accumulate (L.foldAll deltas) delta).1 := by
  unfold ReaderLayer.foldAll
  rw [List.foldl_append]
  rfl

theorem flags_taken (h : FlagsOk reader log) (taken : Nat) (layer : α) :
    FlagsOk { reader with taken := taken, layer := layer } log :=
  ⟨h.done, h.faulted, h.selfAborted, h.stopped⟩

theorem inv_folded (h : Inv L s) {delta : δ} (hConsumer : s.consumer = .received delta) {layer : α}
    (hLayer : L.accumulate s.reader.layer delta = (layer, none)) {consumer : ConsumerState δ}
    (hIdle : inReceive consumer = false ∧ inFlight consumer = []) :
    Inv L { s with
      reader := { s.reader with taken := s.reader.taken + 1, layer := layer }
      consumer := consumer
      log := s.log ++ [.folded delta] } := by
  have hNot := h.assembled (by rw [hConsumer]; rfl)
  refine ⟨flags_folded h.flags delta rfl rfl rfl rfl,
    ⟨h.channel.running, h.channel.done, h.channel.exited⟩, ?_, ?_, ?_, ?_⟩
  · intro hReceive
    rw [show inReceive consumer = true from hReceive] at hIdle
    cases hIdle.1
  · intro hReceive
    rw [show inReceive consumer = true from hReceive] at hIdle
    cases hIdle.1
  · intro hThrow
    rw [List.any_append, Bool.or_eq_false_iff] at hThrow
    have hSent := h.sent hThrow.1
    rw [hConsumer] at hSent
    rw [foldedDeltas_append, hIdle.2, List.append_nil]
    exact hSent
  · intro hThrow
    rw [List.any_append, Bool.or_eq_false_iff] at hThrow
    have hOld := h.layer hThrow.1
    unfold layerOf at hOld ⊢
    rw [hNot] at hOld
    rw [List.any_append, hNot, foldedDeltas_append]
    show layer = L.foldAll (foldedDeltas s.log ++ [delta])
    rw [foldAll_append, ← show s.reader.layer = L.foldAll (foldedDeltas s.log) from hOld, hLayer]

theorem inv_assembled (h : Inv L s) {delta : δ} (hConsumer : s.consumer = .received delta)
    {layer response : α} (hLayer : L.accumulate s.reader.layer delta = (layer, none))
    (hResponse : L.assemble layer = (response, none)) {consumer : ConsumerState δ}
    (hIdle : inReceive consumer = false ∧ inFlight consumer = []) :
    Inv L { s with
      reader := { s.reader with
        taken := s.reader.taken + 1
        layer := response
        handler := finish s.reader.handler .done
        done := true }
      consumer := consumer
      log := s.log ++ [.folded delta, .assembled] } := by
  have hFolded := inv_folded h hConsumer hLayer hIdle
  have hLog : s.log ++ [ReaderEvent.folded delta, .assembled] =
      (s.log ++ [.folded delta]) ++ [.assembled] := by simp
  rw [hLog]
  refine ⟨flags_assembled hFolded.flags rfl rfl rfl rfl, channel_of_closed rfl, ?_, ?_, ?_, ?_⟩
  · intro hReceive
    rw [show inReceive consumer = true from hReceive] at hIdle
    cases hIdle.1
  · intro hReceive
    rw [show inReceive consumer = true from hReceive] at hIdle
    cases hIdle.1
  · intro hThrow
    rw [List.any_append, Bool.or_eq_false_iff] at hThrow
    have hSent := hFolded.sent hThrow.1
    rw [foldedDeltas_append]
    show s.reader.handler.sent = _
    rw [show s.reader.handler.sent = _ from hSent]
    simp [foldedDeltas]
  · intro hThrow
    rw [List.any_append, Bool.or_eq_false_iff] at hThrow
    have hOld := hFolded.layer hThrow.1
    have hNot := h.assembled (by rw [hConsumer]; rfl)
    unfold layerOf at hOld ⊢
    rw [List.any_append, hNot] at hOld
    rw [if_pos (by simp [ReaderEvent.isAssembled]), foldedDeltas_append _ [.assembled]]
    show response = (L.assemble (L.foldAll (foldedDeltas (s.log ++ [.folded delta]) ++ []))).1
    rw [List.append_nil, ← show layer = L.foldAll (foldedDeltas (s.log ++ [.folded delta])) from hOld,
      hResponse]

theorem inv_fault (h : FlagsOk reader log) (producer : ProducerState δ) {consumer : ConsumerState δ}
    (hIdle : inReceive consumer = false) (thrown : Thrown) :
    Inv L ⟨(reader.fault thrown).1, producer, consumer, log ++ [.threw]⟩ :=
  inv_of_throw (flags_fault h thrown) rfl hIdle (by simp [ReaderEvent.isThrow])

theorem inv_deliver (h : Inv L s) {delta : δ} (hConsumer : s.consumer = .received delta)
    (asyncHooks : Nat) (hookFault : Option Thrown) :
    Inv L { s with
      reader := ({ s.reader with taken := s.reader.taken + 1 }.fold L delta hookFault).1
      consumer := afterHooks asyncHooks
        ({ s.reader with taken := s.reader.taken + 1 }.fold L delta hookFault).2
      log := s.log ++ foldEvents L s.reader.layer delta hookFault } := by
  have hIdle := afterHooks_idle (δ := δ) asyncHooks
  have hTwo : s.log ++ [.folded delta, .threw] = (s.log ++ [.folded delta]) ++ [.threw] := by simp
  have hThree : s.log ++ [.folded delta, .assembled, .threw] =
      (s.log ++ [.folded delta, .assembled]) ++ [.threw] := by simp
  unfold ModelResponseReader.fold foldEvents
  rcases hAcc : L.accumulate s.reader.layer delta with ⟨layer, _ | thrown⟩
  · have hFolded := inv_folded h hConsumer hAcc (hIdle none)
    by_cases hTerminal : L.isTerminal delta = true
    · rcases hAsm : L.assemble layer with ⟨response, _ | thrown⟩
      · have hAssembled := inv_assembled h hConsumer hAcc hAsm (hIdle none)
        cases hookFault with
        | none =>
          simp only [hTerminal, if_true, hAsm]
          exact inv_assembled h hConsumer hAcc hAsm (hIdle _)
        | some thrown =>
          simp only [hTerminal, if_true, hAsm]
          exact hThree ▸ inv_fault hAssembled.flags s.producer (hIdle _).1 thrown
      · simp only [hTerminal, if_true, hAsm]
        exact hTwo ▸ inv_fault (flags_taken hFolded.flags _ response) s.producer (hIdle _).1 thrown
    · cases hookFault with
      | none =>
        simp only [hTerminal]
        exact inv_folded h hConsumer hAcc (hIdle _)
      | some thrown =>
        simp only [hTerminal]
        exact hTwo ▸ inv_fault hFolded.flags s.producer (hIdle _).1 thrown
  · exact inv_fault (flags_taken h.flags _ layer) s.producer (hIdle _).1 thrown

theorem open_of_not_done (h : FlagsOk reader log) (hDone : reader.done = false) :
    log.find? ReaderEvent.ends = none ∧ log.any ReaderEvent.isAssembled = false := by
  have hNone : log.find? ReaderEvent.ends = none := by
    rw [h.done, Option.isSome_eq_false_iff] at hDone
    exact Option.isNone_iff_eq_none.mp hDone
  refine ⟨hNone, ?_⟩
  rw [List.any_eq_false]
  intro event hMem hAssembled
  have hEnds := List.find?_eq_none.mp hNone event hMem
  cases event <;> simp_all [ReaderEvent.isAssembled, ReaderEvent.ends]

theorem layerOf_append (L : ReaderLayer δ α κ) (log : List (ReaderEvent δ)) {event : ReaderEvent δ}
    (hFolded : foldedDeltas [event] = []) (hAssembled : event.isAssembled = false) :
    layerOf L (log ++ [event]) = layerOf L log := by
  unfold layerOf
  rw [foldedDeltas_append, hFolded, List.append_nil, List.any_append]
  simp [hAssembled]

theorem inv_waiting (h : Inv L s) (hDone : s.reader.done = false)
    (hEmpty : inFlight s.consumer = []) : Inv L { s with consumer := .waiting } := by
  obtain ⟨hNone, hNot⟩ := open_of_not_done h.flags hDone
  refine ⟨h.flags, ⟨h.channel.running, h.channel.done, h.channel.exited⟩, ?_, ?_, ?_, h.layer⟩
  · exact fun _ => by rw [firstEnd, hNone]; rfl
  · exact fun _ => hNot
  · intro hThrow
    rw [h.sent hThrow, hEmpty]
    rfl

theorem inv_handOver (h : Inv L s) (hDone : s.reader.done = false)
    (hEmpty : inFlight s.consumer = []) (delta : δ) :
    Inv L ⟨handOver s.reader delta, .driving, .received delta, s.log⟩ := by
  obtain ⟨hNone, hNot⟩ := open_of_not_done h.flags hDone
  refine ⟨⟨h.flags.done, h.flags.faulted, h.flags.selfAborted, h.flags.stopped⟩,
    ⟨h.channel.running, h.channel.done, fun hExited => by cases hExited⟩, ?_, ?_, ?_, h.layer⟩
  · exact fun _ => by rw [firstEnd, hNone]; rfl
  · exact fun _ => hNot
  · intro hThrow
    have hSent := h.sent hThrow
    rw [hEmpty, List.append_nil] at hSent
    show s.reader.handler.sent ++ [delta] = _
    rw [hSent]
    rfl

theorem inv_next {s t : ReaderRun δ α κ} (h : Inv L s) (asyncHooks : Nat)
    (hStep : s.step L asyncHooks .next = some t) : Inv L t := by
  simp only [step] at hStep
  split at hStep
  · rename_i delta hConsumer hProducer
    have hEmpty : inFlight s.consumer = [] := by rw [hConsumer]; rfl
    split at hStep
    · cases hStep
      exact h
    · rename_i hDone
      have hNotDone : s.reader.done = false := by simpa using hDone
      split at hStep
      · cases hStep
        exact inv_waiting h hNotDone hEmpty
      · cases hStep
        exact inv_handOver h hNotDone hEmpty delta
  · rename_i hConsumer hNot
    split at hStep
    · cases hStep
      exact h
    · rename_i hDone
      cases hStep
      exact inv_waiting h (by simpa using hDone) (by rw [hConsumer]; rfl)
  · cases hStep

theorem inv_wake {s t : ReaderRun δ α κ} (h : Inv L s) (asyncHooks : Nat)
    (hStep : s.step L asyncHooks .wake = some t) : Inv L t := by
  simp only [step] at hStep
  split at hStep
  · rename_i hConsumer
    split at hStep
    · rename_i hClosed
      cases hStep
      have hOpen := h.receiving (by rw [hConsumer]; rfl)
      unfold firstEnd at hOpen
      refine ⟨?_, channel_of_closed hClosed, (fun hIn => by cases hIn), (fun hIn => by cases hIn),
        ?_, ?_⟩
      · constructor
        · rw [find_append]
          cases s.log.find? ReaderEvent.ends <;> rfl
        · rw [List.any_append]
          simp [h.flags.faulted, ReaderEvent.isThrow]
        · rw [find_append]
          refine h.flags.selfAborted.trans ?_
          cases s.log.find? ReaderEvent.ends <;> rfl
        · rw [find_append]
          cases hFirst : s.log.find? ReaderEvent.ends with
          | none => rfl
          | some event =>
            rw [hFirst] at hOpen
            have hAbort : event.isAbort = true := hOpen
            simp [hAbort]
      · intro hThrow
        rw [List.any_append, Bool.or_eq_false_iff] at hThrow
        have hSent := h.sent hThrow.1
        rw [hConsumer] at hSent
        rw [foldedDeltas_append]
        simpa [foldedDeltas, inFlight] using hSent
      · intro hThrow
        rw [List.any_append, Bool.or_eq_false_iff] at hThrow
        rw [layerOf_append L s.log rfl rfl]
        exact h.layer hThrow.1
    · cases hStep
  · cases hStep

theorem inv_abort (h : Inv L s) :
    Inv L { s with reader := s.reader.abort, log := s.log ++ [.aborted] } := by
  have hKeeps : s.reader.abort.layer = s.reader.layer ∧
      s.reader.abort.handler.sent = s.reader.handler.sent := by
    unfold ModelResponseReader.abort
    dsimp only
    split
    · exact ⟨rfl, rfl⟩
    · exact ⟨rfl, rfl⟩
  refine ⟨flags_abort h.flags, channel_of_closed rfl, ?_, ?_, ?_, ?_⟩
  · intro hIn
    have hOpen := h.receiving hIn
    unfold firstEnd at hOpen ⊢
    rw [find_append]
    cases hFirst : s.log.find? ReaderEvent.ends with
    | none => rfl
    | some event => rw [hFirst] at hOpen; exact hOpen
  · intro hIn
    rw [List.any_append, h.assembled hIn]
    rfl
  · intro hThrow
    rw [List.any_append, Bool.or_eq_false_iff] at hThrow
    rw [foldedDeltas_append, hKeeps.2, h.sent hThrow.1]
    simp [foldedDeltas]
  · intro hThrow
    rw [List.any_append, Bool.or_eq_false_iff] at hThrow
    rw [layerOf_append L s.log rfl rfl, hKeeps.1]
    exact h.layer hThrow.1

theorem inv_producer (h : Inv L s) {producer : ProducerState δ} (hFlags : FlagsOk reader s.log)
    (hSent : reader.handler.sent = s.reader.handler.sent) (hLayer : reader.layer = s.reader.layer)
    (hChannel : ChannelOk ⟨reader, producer, s.consumer, s.log⟩) :
    Inv L ⟨reader, producer, s.consumer, s.log⟩ where
  flags := hFlags
  channel := hChannel
  receiving := h.receiving
  assembled := h.assembled
  sent := fun hThrow => by rw [hSent]; exact h.sent hThrow
  layer := fun hThrow => by rw [hLayer]; exact h.layer hThrow

theorem inv_step {asyncHooks : Nat} {s t : ReaderRun δ α κ} {input : ReaderInput δ} (h : Inv L s)
    (hStep : s.step L asyncHooks input = some t) : Inv L t := by
  have hStay : ∀ producer, producer ≠ .exited → Inv L { s with producer := producer } := by
    intro producer hNot
    exact inv_producer h h.flags rfl rfl
      ⟨h.channel.running, h.channel.done, fun hExited => absurd hExited hNot⟩
  have hFail : ∀ handler thrown, handler.sent = s.reader.handler.sent →
      Inv L { s with
        reader := pumpFault { s.reader with handler := handler } thrown, producer := .exited } := by
    intro handler thrown hSent
    exact inv_producer h ⟨h.flags.done, h.flags.faulted, h.flags.selfAborted, h.flags.stopped⟩ hSent
      rfl (channel_of_closed rfl)
  cases input with
  | next => exact inv_next h asyncHooks hStep
  | wake => exact inv_wake h asyncHooks hStep
  | deliver hookFault =>
    simp only [step] at hStep
    split at hStep
    · cases hStep
      exact inv_deliver h ‹_› asyncHooks hookFault
    · cases hStep
  | asyncHook fault =>
    simp only [step] at hStep
    split at hStep
    · cases hStep
      exact inv_fault h.flags s.producer rfl _
    · rename_i left hConsumer
      cases hStep
      have hEmpty : inFlight s.consumer = [] := by rw [hConsumer]; rfl
      have hIdle : inReceive (if left ≤ 1 then ConsumerState.idle else .hooking (left - 1) :
          ConsumerState δ) = false ∧ inFlight (if left ≤ 1 then ConsumerState.idle
            else .hooking (left - 1) : ConsumerState δ) = [] := by
        split
        · exact ⟨rfl, rfl⟩
        · exact ⟨rfl, rfl⟩
      refine ⟨h.flags, ⟨h.channel.running, h.channel.done, h.channel.exited⟩, ?_, ?_, ?_, h.layer⟩
      · exact fun hIn => absurd (hIdle.1.symm.trans hIn) (by simp)
      · exact fun hIn => absurd (hIdle.1.symm.trans hIn) (by simp)
      · intro hThrow
        rw [h.sent hThrow, hEmpty, hIdle.2]
    · cases hStep
  | decoded delta =>
    simp only [step] at hStep
    split at hStep
    · rename_i hProducer hConsumer
      split at hStep
      · cases hStep
        exact hStay .stopping (by simp)
      · rename_i hOpen
        cases hStep
        have hNotDone : s.reader.done = false := by
          cases hDone : s.reader.done with
          | false => rfl
          | true => exact absurd (h.channel.done hDone) hOpen
        rw [hProducer]
        exact inv_handOver h hNotDone (by rw [hConsumer]; rfl) delta
    · cases hStep
      refine hStay _ ?_
      split <;> simp
    · cases hStep
  | refused =>
    simp only [step] at hStep
    split at hStep
    · split at hStep
      · cases hStep
        exact hStay .stopping (by simp)
      · cases hStep
    · cases hStep
  | decodeFailed thrown =>
    simp only [step] at hStep
    split at hStep
    · cases hStep
      exact hFail _ thrown rfl
    · cases hStep
  | transportFailed thrown =>
    simp only [step] at hStep
    split at hStep
    · cases hStep
    · cases hStep
    · cases hStep
      exact hFail s.reader.handler thrown rfl
  | returned =>
    simp only [step] at hStep
    split at hStep
    · cases hStep
    · cases hStep
    · cases hStep
      unfold pumpReturn
      split
      · exact inv_producer h ⟨h.flags.done, h.flags.faulted, h.flags.selfAborted, h.flags.stopped⟩
          rfl rfl (channel_of_closed rfl)
      · rename_i hNot
        have hClosed : s.reader.handler.closed = true := by
          cases hOpen : s.reader.handler.closed with
          | true => rfl
          | false => exact absurd (h.channel.running hOpen) hNot
        exact inv_producer h h.flags rfl rfl (channel_of_closed hClosed)
  | abort =>
    cases hStep
    exact inv_abort h

theorem inv_start (L : ReaderLayer δ α κ) (lineWindow : Nat) (counted : κ) :
    Inv L (start L lineWindow counted) := by
  refine ⟨⟨rfl, rfl, rfl, rfl⟩, ⟨fun _ => rfl, (fun h => by cases h), (fun h => by cases h)⟩,
    (fun h => by cases h), (fun h => by cases h), fun _ => rfl, fun _ => rfl⟩

/-! ## The terminal event -/

inductive LogStep (L : ReaderLayer δ α κ) : List (ReaderEvent δ) → Prop where
  | nothing : LogStep L []
  | woken : LogStep L [.woken]
  | threw : LogStep L [.threw]
  | aborted : LogStep L [.aborted]
  | delivered (layer : α) (delta : δ) (hookFault : Option Thrown) :
      LogStep L (foldEvents L layer delta hookFault)

theorem step_log {asyncHooks : Nat} {s t : ReaderRun δ α κ} {input : ReaderInput δ}
    (hStep : s.step L asyncHooks input = some t) :
    ∃ events, t.log = s.log ++ events ∧ LogStep L events := by
  have hSame : ∀ u : ReaderRun δ α κ, u.log = s.log → ∃ events, u.log = s.log ++ events ∧
      LogStep L events := fun u hLog => ⟨[], by rw [hLog, List.append_nil], .nothing⟩
  cases input with
  | next =>
    simp only [step] at hStep
    split at hStep
    · split at hStep
      · cases hStep; exact hSame _ rfl
      · split at hStep <;> cases hStep <;> exact hSame _ rfl
    · split at hStep <;> cases hStep <;> exact hSame _ rfl
    · cases hStep
  | wake =>
    simp only [step] at hStep
    split at hStep
    · split at hStep
      · cases hStep; exact ⟨_, rfl, .woken⟩
      · cases hStep
    · cases hStep
  | deliver hookFault =>
    simp only [step] at hStep
    split at hStep
    · cases hStep; exact ⟨_, rfl, .delivered _ _ hookFault⟩
    · cases hStep
  | asyncHook fault =>
    simp only [step] at hStep
    split at hStep
    · cases hStep; exact ⟨_, rfl, .threw⟩
    · cases hStep; exact hSame _ rfl
    · cases hStep
  | decoded delta =>
    simp only [step] at hStep
    split at hStep
    · split at hStep <;> cases hStep <;> exact hSame _ rfl
    · cases hStep; exact hSame _ rfl
    · cases hStep
  | refused =>
    simp only [step] at hStep
    split at hStep
    · split at hStep
      · cases hStep; exact hSame _ rfl
      · cases hStep
    · cases hStep
  | decodeFailed thrown =>
    simp only [step] at hStep
    split at hStep
    · cases hStep; exact hSame _ rfl
    · cases hStep
  | transportFailed thrown | returned =>
    simp only [step] at hStep
    split at hStep
    · cases hStep
    · cases hStep
    · cases hStep; exact hSame _ rfl
  | abort => cases hStep; exact ⟨_, rfl, .aborted⟩

/-- Unless something threw, the response was assembled if and only if a terminal event was
folded. -/
def Terminated (L : ReaderLayer δ α κ) (log : List (ReaderEvent δ)) : Prop :=
  log.any ReaderEvent.isThrow = false →
    (foldedDeltas log).any L.isTerminal = log.any ReaderEvent.isAssembled

theorem LogStep.terminated {events : List (ReaderEvent δ)} (h : LogStep L events) :
    Terminated L events := by
  cases h with
  | nothing | woken | aborted => exact fun _ => rfl
  | threw => exact fun hThrow => by cases hThrow
  | delivered layer delta hookFault =>
    unfold foldEvents Terminated
    split
    · exact fun hThrow => by cases hThrow
    split
    · rename_i hTerminal
      split
      · exact fun hThrow => by cases hThrow
      · cases hookFault with
        | none => simp [hookEvents, foldedDeltas, hTerminal, ReaderEvent.isAssembled]
        | some thrown => simp [hookEvents, ReaderEvent.isThrow]
    · rename_i hTerminal
      cases hookFault with
      | none => simp [hookEvents, foldedDeltas, hTerminal, ReaderEvent.isAssembled]
      | some thrown => simp [hookEvents, ReaderEvent.isThrow]

theorem Terminated.append {log events : List (ReaderEvent δ)} (h : Terminated L log)
    (hEvents : Terminated L events) : Terminated L (log ++ events) := by
  intro hThrow
  rw [List.any_append, Bool.or_eq_false_iff] at hThrow
  rw [foldedDeltas_append, List.any_append, List.any_append, h hThrow.1, hEvents hThrow.2]

/-! ## Whole runs -/

/-- What a step of the two coroutines should keep: the state is what the log says, which has
an assembly exactly for a terminal event; a completed stream has the response that is
assembled from everything that was handed over, in order, and stays completed with it, unless
a hook throws; and once the producer has exited, a waiting consumer can go on, and has the end
of the stream then. -/
structure VerdictSound (L : ReaderLayer δ α κ) (asyncHooks : Nat) (s : ReaderRun δ α κ)
    (input : ReaderInput δ) (t : ReaderRun δ α κ) : Prop where
  state : t.reader.endState = howEnded t.log
  terminated : Terminated L t.log
  response : t.reader.endState = .completed → t.reader.handler.sent = foldedDeltas t.log ∧
    t.reader.layer = (L.assemble (L.foldAll t.reader.handler.sent)).1
  final : s.reader.endState = .completed → (∀ thrown, input ≠ .asyncHook (some thrown)) →
    t.reader.endState = .completed ∧ t.reader.layer = s.reader.layer
  wakes : t.producer = .exited → t.consumer = .waiting →
    ∃ u, t.step L asyncHooks .wake = some u ∧ u.consumer = .idle ∧ u.reader.endState ≠ .streaming

theorem Inv.completed (h : Inv L s) (hCompleted : s.reader.endState = .completed) :
    s.log.any ReaderEvent.isThrow = false ∧ s.log.any ReaderEvent.isAssembled = true ∧
      s.reader.done = true ∧ s.reader.faulted = false ∧ s.reader.selfAborted = false ∧
      s.reader.abortState = none := by
  rw [endState_eq h.flags] at hCompleted
  have hFlags := h.flags
  unfold howEnded at hCompleted
  split at hCompleted
  · cases hCompleted
  · rename_i hThrow
    have hNone : s.log.any ReaderEvent.isThrow = false := by simpa using hThrow
    split at hCompleted
    · cases hCompleted
    · rename_i hFirst
      have hMem := List.mem_of_find?_eq_some hFirst
      refine ⟨hNone, List.any_eq_true.mpr ⟨_, hMem, rfl⟩, ?_, ?_, ?_, ?_⟩
      · rw [hFlags.done, hFirst]; rfl
      · rw [hFlags.faulted, hNone]
      · rw [hFlags.selfAborted, hFirst]; rfl
      · have hStopped := hFlags.stopped
        rw [hFirst] at hStopped
        exact Option.isNone_iff_eq_none.mp (Option.isSome_eq_false_iff.mp hStopped)
    · cases hCompleted
    · cases hCompleted

theorem Inv.response (h : Inv L s) (hCompleted : s.reader.endState = .completed) :
    s.reader.handler.sent = foldedDeltas s.log ∧
      s.reader.layer = (L.assemble (L.foldAll s.reader.handler.sent)).1 := by
  obtain ⟨hThrow, hAssembled, _⟩ := h.completed hCompleted
  have hEmpty : inFlight s.consumer = [] := by
    cases hConsumer : s.consumer with
    | received delta =>
      have hNot := h.assembled (by rw [hConsumer]; rfl)
      rw [hNot] at hAssembled
      cases hAssembled
    | idle | waiting | hooking left => rfl
  have hSent := h.sent hThrow
  rw [hEmpty, List.append_nil] at hSent
  refine ⟨hSent, ?_⟩
  rw [h.layer hThrow, hSent]
  exact if_pos hAssembled

theorem endState_congr {r r' : ModelResponseReader δ α κ} (hDone : r'.done = r.done)
    (hFaulted : r'.faulted = r.faulted) (hAborted : r'.selfAborted = r.selfAborted)
    (hStopped : r'.abortState = r.abortState) : r'.endState = r.endState := by
  unfold ModelResponseReader.endState
  rw [hDone, hFaulted, hAborted, hStopped]

theorem final_step {asyncHooks : Nat} {s t : ReaderRun δ α κ} {input : ReaderInput δ} (h : Inv L s)
    (hCompleted : s.reader.endState = .completed) (hStep : s.step L asyncHooks input = some t)
    (hHook : ∀ thrown, input ≠ .asyncHook (some thrown)) :
    t.reader.endState = s.reader.endState ∧ t.reader.layer = s.reader.layer := by
  obtain ⟨_, hAssembled, hDone, _⟩ := h.completed hCompleted
  have hNotReceiving : inReceive s.consumer = false := by
    cases hIn : inReceive s.consumer with
    | false => rfl
    | true => rw [h.assembled hIn] at hAssembled; cases hAssembled
  cases input with
  | next =>
    simp only [step, hDone, if_true] at hStep
    split at hStep
    · cases hStep; exact ⟨rfl, rfl⟩
    · cases hStep; exact ⟨rfl, rfl⟩
    · cases hStep
  | wake | deliver hookFault =>
    simp only [step] at hStep
    split at hStep
    · rename_i hConsumer
      rw [hConsumer] at hNotReceiving
      cases hNotReceiving
    · cases hStep
  | asyncHook fault =>
    simp only [step] at hStep
    split at hStep
    · exact absurd rfl (hHook _)
    · cases hStep; exact ⟨rfl, rfl⟩
    · cases hStep
  | decoded delta =>
    simp only [step] at hStep
    split at hStep
    · rename_i hConsumer
      rw [hConsumer] at hNotReceiving
      cases hNotReceiving
    · cases hStep; exact ⟨rfl, rfl⟩
    · cases hStep
  | refused =>
    simp only [step] at hStep
    split at hStep
    · split at hStep
      · cases hStep; exact ⟨rfl, rfl⟩
      · cases hStep
    · cases hStep
  | decodeFailed thrown =>
    simp only [step] at hStep
    split at hStep
    · cases hStep; exact ⟨rfl, rfl⟩
    · cases hStep
  | transportFailed thrown =>
    simp only [step] at hStep
    split at hStep
    · cases hStep
    · cases hStep
    · cases hStep; exact ⟨rfl, rfl⟩
  | returned =>
    simp only [step] at hStep
    split at hStep
    · cases hStep
    · cases hStep
    · cases hStep
      unfold pumpReturn
      split
      · exact ⟨rfl, rfl⟩
      · exact ⟨rfl, rfl⟩
  | abort =>
    cases hStep
    unfold ModelResponseReader.abort
    rw [if_pos hDone]
    exact ⟨endState_congr hDone.symm rfl rfl rfl, rfl⟩

theorem Inv.wakes (h : Inv L s) (asyncHooks : Nat) (hExited : s.producer = .exited)
    (hWaiting : s.consumer = .waiting) :
    ∃ u, s.step L asyncHooks .wake = some u ∧ u.consumer = .idle ∧
      u.reader.endState ≠ .streaming := by
  have hClosed := h.channel.exited hExited
  refine ⟨_, by simp only [step, hWaiting, hClosed, if_true]; rfl, rfl, ?_⟩
  unfold ModelResponseReader.endState
  rw [if_neg (by simp)]
  split_ifs <;> simp

/-- In a run, whatever comes in between: a stream is faulted if a fold, an assembly or a hook
threw, and what ended it first says it otherwise; a completed one has the response of
everything that was delivered and keeps it; and no consumer waits for a producer that has
exited. -/
theorem reader_verdicts (L : ReaderLayer δ α κ) (asyncHooks lineWindow : Nat) (counted : κ)
    (inputs : List (ReaderInput δ)) :
    Along (step L asyncHooks) (VerdictSound L asyncHooks) (start L lineWindow counted) inputs := by
  have hLog : ∀ (s : ReaderRun δ α κ) (i : ReaderInput δ) (t : ReaderRun δ α κ), Terminated L s.log →
      s.step L asyncHooks i = some t → Terminated L t.log := by
    intro s i t hTerminated hStep
    obtain ⟨events, hEq, hEvents⟩ := step_log hStep
    rw [hEq]
    exact hTerminated.append hEvents.terminated
  refine along_of_invariant (P := fun s => Inv L s ∧ Terminated L s.log) ?_ ?_
    ⟨inv_start L lineWindow counted, fun _ => rfl⟩
  · exact fun s i t h hStep => ⟨inv_step h.1 hStep, hLog s i t h.2 hStep⟩
  rintro s input t ⟨h, hTerminated⟩ hStep
  have hNext := inv_step h hStep
  refine ⟨endState_eq hNext.flags, hLog s input t hTerminated hStep, hNext.response, ?_,
    hNext.wakes asyncHooks⟩
  intro hCompleted hHook
  have hSame := final_step h hCompleted hStep hHook
  rw [hSame.1]
  exact ⟨hCompleted, hSame.2⟩

/-- The consumer aborts while a product is being handed over, and a hook throws on that
product: the abort came first, and the stream is faulted. -/
theorem faulted_after_abort :
    ∃ s, run (step (chatLayer fun _ => none) 0) (start (chatLayer fun _ => none) 1024 {})
        [.next, .decoded { content := "a" }, .abort, .deliver (some (.other "hook"))] = some s ∧
      s.log.head? = some .aborted ∧ s.reader.endState = .faulted :=
  ⟨_, rfl, rfl, rfl⟩

end ReaderRun

end SimplexAgent.Endpoint
