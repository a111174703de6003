import SimplexAgent.Endpoint.RetryPolicy
import SimplexAgent.Endpoint.Sse
import SimplexAgent.Llm.ChatReader

/-!
# Whole exchanges with retries

`endpoint::complete` and what one of its attempts does to the reader. An attempt
connects, spawns the producer that feeds the stream handler, and drains the handler
through the reader; the reader's end state then decides between a result, a failure
and another attempt. The same reader is used for every attempt, so everything rests
on `clear`.

What the outside does during an attempt is a script: chunks arrive, the consumer
takes its next delta (and a hook may throw on it), the producer fails or ends, the
consumer aborts. A script that leaves the stream open is an attempt that is still
waiting. Cancellation is a flag per place where the code looks at it: the join of
`complete_once`, the catch clause of the loop, and the wait between attempts, which
throws when it is cancelled.

The subclass of the reader is a parameter that carries the proof that its `clear`
goes back to the constructed state; the readers of both wire formats are instances.
-/

namespace SimplexAgent.Endpoint

open Dataclass Endpoint.Sse

/-! ## The reader -/

/-- Exceptions, by the clause of `complete` that catches them. -/
inductive Thrown where
  | http (failure : HttpRequestException)
  | operationAborted
  | system (what : String)
  | other (what : String)

/-- What a subclass of `ModelResponseReader` adds to it: its accumulators `α`, and `κ`
for what it counts across resets. -/
structure ReaderLayer (δ α κ : Type) where
  fresh : α
  accumulate : α → δ → α × Option Thrown
  isTerminal : δ → Bool
  assemble : α → α × Option Thrown
  response : α → MessageItem
  clear : α → α
  count : κ → κ
  clear_eq_fresh : ∀ a, clear a = fresh

/-- `EndState`. -/
inductive EndState where
  | streaming
  | completed
  | faulted
  | aborted
  deriving DecidableEq

/-- The reader with the handler it drains. `taken` is how many products of the channel
it has received; `layer` and `counted` belong to the subclass. -/
structure ModelResponseReader (δ α κ : Type) where
  handler : SSEResponseHandler Unit δ
  taken : Nat
  done : Bool
  selfAborted : Bool
  faulted : Bool
  abortState : Option SSEHandlerState
  abortReason : String
  producerError : Option Thrown
  layer : α
  counted : κ

variable {δ α κ ε : Type}

namespace ModelResponseReader

def construct (L : ReaderLayer δ α κ) (lineWindow : Nat) (counted : κ) :
    ModelResponseReader δ α κ where
  handler := Sse.construct lineWindow ()
  taken := 0
  done := false
  selfAborted := false
  faulted := false
  abortState := none
  abortReason := ""
  producerError := none
  layer := L.fresh
  counted := counted

/-- `end_state`. -/
def endState (r : ModelResponseReader δ α κ) : EndState :=
  if !r.done then .streaming
  else if r.faulted then .faulted
  else if r.selfAborted then .aborted
  else if r.abortState.isSome then .faulted
  else .completed

/-- `clear`, of the base and of the subclass. -/
def clear (L : ReaderLayer δ α κ) (r : ModelResponseReader δ α κ) :
    ModelResponseReader δ α κ :=
  { r with
    handler := Sse.clear r.handler
    taken := 0
    done := false
    selfAborted := false
    faulted := false
    abortState := none
    abortReason := ""
    producerError := none
    layer := L.clear r.layer
    counted := L.count r.counted }

/-- `abort`. -/
def abort (r : ModelResponseReader δ α κ) : ModelResponseReader δ α κ :=
  let r := if r.done then r
    else
      { r with
        selfAborted := true
        abortState := some .error
        abortReason := "aborted by the consumer" }
  { r with done := true, handler := finish r.handler .error }

/-- The fault path of `next`. -/
def fault (r : ModelResponseReader δ α κ) (thrown : Thrown) :
    ModelResponseReader δ α κ × Option Thrown :=
  ({ r with faulted := true, handler := finish r.handler .error, done := true }, some thrown)

/-- `next` after the delta has arrived: fold it, assemble on the terminal one, run the
hooks. -/
def fold (L : ReaderLayer δ α κ) (r : ModelResponseReader δ α κ) (delta : δ)
    (hookFault : Option Thrown) : ModelResponseReader δ α κ × Option Thrown :=
  match L.accumulate r.layer delta with
  | (layer, some thrown) => fault { r with layer := layer } thrown
  | (layer, none) =>
    if L.isTerminal delta then
      match L.assemble layer with
      | (layer, some thrown) => fault { r with layer := layer } thrown
      | (layer, none) =>
        let r := { r with layer := layer, handler := finish r.handler .done, done := true }
        match hookFault with
        | some thrown => fault r thrown
        | none => (r, none)
    else
      match hookFault with
      | some thrown => fault { r with layer := layer } thrown
      | none => ({ r with layer := layer }, none)

/-- `next`: a closed channel is the end of the stream, an open one without a product
keeps the consumer waiting. -/
def next (L : ReaderLayer δ α κ) (r : ModelResponseReader δ α κ) (hookFault : Option Thrown) :
    ModelResponseReader δ α κ × Option Thrown :=
  if r.done then (r, none)
  else match r.handler.sent[r.taken]? with
    | some delta => fold L { r with taken := r.taken + 1 } delta hookFault
    | none =>
      if r.handler.closed then
        ({ r with
            abortState := some r.handler.state
            abortReason := "SSE get aborted"
            done := true }, none)
      else (r, none)

end ModelResponseReader

/-! ## One attempt -/

/-- What can happen while a connected exchange is under way. -/
inductive ExchangeEvent where
  /-- The driver puts a chunk of the response. -/
  | received (chunk : List UInt8)
  /-- The consumer asks for the next delta; a hook may throw on it. -/
  | next (hookFault : Option Thrown)
  /-- The driver throws. -/
  | producerFailed (failure : Thrown)
  /-- The driver returns. -/
  | producerEnded
  /-- The consumer calls `abort`. -/
  | abort

/-- What the outside does during one attempt and the wait after it. -/
structure Exchange where
  abortedWhileConnecting : Bool := false
  connectFailure : Option Thrown := none
  events : List ExchangeEvent := []
  cancelledAtJoin : Bool := false
  cancelledLater : Bool := false
  cancelledInBackoff : Bool := false

/-- Whether cancellation was requested by the time the catch clause looks. -/
def Exchange.cancelled (x : Exchange) : Bool := x.cancelledAtJoin || x.cancelledLater

section Attempt

variable (L : ReaderLayer δ α κ)
  (handleMessage : Unit → List LineInfo → Except ε δ × Unit)

/-- One event, on the reader; an exception is one that leaves the consumer. -/
def exchangeStep (r : ModelResponseReader δ α κ) :
    ExchangeEvent → ModelResponseReader δ α κ × Option Thrown
  | .received chunk => ({ r with handler := (put handleMessage r.handler chunk).1 }, none)
  | .next hookFault => r.next L hookFault
  | .producerFailed failure =>
    ({ r with producerError := some failure, handler := finish r.handler .error }, none)
  | .producerEnded =>
    (if r.handler.state = .running then { r with handler := finish r.handler .error } else r, none)
  | .abort => (r.abort, none)

/-- The events up to the first exception of the consumer. -/
def exchangeSteps (r : ModelResponseReader δ α κ) :
    List ExchangeEvent → ModelResponseReader δ α κ × Option Thrown
  | [] => (r, none)
  | event :: events =>
    match exchangeStep L handleMessage r event with
    | (r, some thrown) => (r, some thrown)
    | (r, none) => exchangeSteps r events

/-- `complete_once`: nothing while the stream is still open. -/
def completeOnce (r : ModelResponseReader δ α κ) (x : Exchange) :
    ModelResponseReader δ α κ × Option (Except Thrown MessageItem) :=
  let r := if x.abortedWhileConnecting then r.abort else r
  match x.connectFailure with
  | some failure => (r, some (.error failure))
  | none =>
    match exchangeSteps L handleMessage r x.events with
    | (r, thrown) =>
      if x.cancelledAtJoin then (r, some (.error .operationAborted))
      else match thrown with
        | some thrown => (r, some (.error thrown))
        | none => (r, if r.done then some (.ok (L.response r.layer)) else none)

inductive AttemptEnd where
  | waiting
  | completed (item : MessageItem)
  /-- The consumer asked out. -/
  | aborted
  | failed (thrown : Thrown)

def truncatedFailure : HttpRequestException where
  stage := .read
  message := "stream ended without the terminal event"

def abortedFailure : HttpRequestException where
  stage := .unknown
  message := "stream aborted by the consumer before the terminal event"

/-- The `try` block of `complete`, with the reader it leaves. -/
def attemptEnd (r : ModelResponseReader δ α κ) (x : Exchange) :
    AttemptEnd × ModelResponseReader δ α κ :=
  match completeOnce L handleMessage r x with
  | (r, none) => (.waiting, r)
  | (r, some (.error thrown)) => (.failed thrown, r)
  | (r, some (.ok item)) =>
    match r.endState with
    | .completed => (.completed item, r)
    | .aborted => (.aborted, r)
    | .faulted | .streaming =>
      (.failed (r.producerError.getD (.http truncatedFailure)), r)

end Attempt

/-! ## The loop -/

inductive Verdict where
  | waiting
  | returned (item : MessageItem)
  | threw (thrown : Thrown)
  | retry (failure : HttpRequestException)

/-- The catch clauses of `complete`. -/
def verdict (p : RetryPolicy) (recoverable : HttpRequestException → Bool) (attempt : UInt32)
    (x : Exchange) : AttemptEnd → Verdict
  | .waiting => .waiting
  | .completed item => .returned item
  | .aborted =>
    if x.cancelled then .threw .operationAborted else .threw (.http abortedFailure)
  | .failed (.http failure) =>
    if x.cancelled then .threw .operationAborted
    else if !recoverable failure ∨ attempt = p.maxRetryAttempts then .threw (.http failure)
    else .retry failure
  | .failed thrown => .threw thrown

/-- An attempt that was started: the reader it was given, and what the outside did. -/
structure Attempt (δ α κ : Type) where
  reader : ModelResponseReader δ α κ
  exchange : Exchange

/-- What a call of `complete` has done so far; no outcome while it is under way. -/
structure RetryRun (δ α κ : Type) where
  attempts : List (Attempt δ α κ) := []
  delays : List Int64 := []
  outcome : Option (Except Thrown MessageItem) := none

section Loop

variable (L : ReaderLayer δ α κ)
  (handleMessage : Unit → List LineInfo → Except ε δ × Unit) (p : RetryPolicy)
  (recoverable : HttpRequestException → Bool)

def completeFrom (attempt : UInt32) (backoff : Int64) (r : ModelResponseReader δ α κ) :
    List Exchange → RetryRun δ α κ
  | [] => {}
  | x :: xs =>
    if attempt ≤ p.maxRetryAttempts then
      let cleared := r.clear L
      let started : Attempt δ α κ := { reader := cleared, exchange := x }
      match attemptEnd L handleMessage cleared x with
      | (ended, r) =>
        match verdict p recoverable attempt x ended with
        | .waiting => { attempts := [started] }
        | .returned item => { attempts := [started], outcome := some (.ok item) }
        | .threw thrown => { attempts := [started], outcome := some (.error thrown) }
        | .retry _ =>
          if x.cancelledInBackoff then
            { attempts := [started], delays := [backoff],
              outcome := some (.error .operationAborted) }
          else
            let rest := completeFrom (attempt + 1) (p.advance backoff) r xs
            { rest with
              attempts := started :: rest.attempts
              delays := backoff :: rest.delays }
    else { outcome := some (.error (.other "endpoint::complete: retry loop fell through")) }

/-- `complete`: the exchanges are what the outside does, attempt by attempt. -/
def complete (r : ModelResponseReader δ α κ) (exchanges : List Exchange) : RetryRun δ α κ :=
  completeFrom L handleMessage p recoverable 0 p.initialBackoff r exchanges

end Loop

/-! ## The readers of the two wire formats -/

/-- The counter of the chat reader: every `clear` after the first one advances it. -/
structure ClearCount where
  attempt : UInt32 := 0
  clearedOnce : Bool := false

def ClearCount.cleared (c : ClearCount) : ClearCount where
  attempt := if c.clearedOnce then c.attempt + 1 else c.attempt
  clearedOnce := true

/-- `ChatCompletionsReader::clear`, below the base. -/
def clearChat (r : Llm.Chat.ChatCompletionsReader) : Llm.Chat.ChatCompletionsReader :=
  { r with
    role := "assistant"
    content := ""
    reasoning := ""
    refusal := ""
    toolCalls := ∅
    finishReason := ""
    completionId := ""
    model := ""
    usage := none
    mappedCost := false
    cost := none
    error := none
    response := {}
    status := .streaming
    done := false
    fault := none }

def chatLayer (parse : String → Option Json) :
    ReaderLayer Llm.Chat.ChatCompletionsDelta Llm.Chat.ChatCompletionsReader ClearCount where
  fresh := {}
  accumulate r delta :=
    let r := r.accumulate delta
    (r, r.fault.map .other)
  isTerminal := Llm.Chat.isTerminal
  assemble r :=
    let r := r.assemble parse
    (r, r.fault.map .other)
  response r := r.response
  clear := clearChat
  count := ClearCount.cleared
  clear_eq_fresh _ := rfl

/-- `ResponsesReader::clear`, below the base. -/
def clearResponses (r : Llm.Responses.ResponsesReader) : Llm.Responses.ResponsesReader :=
  { r with
    items := ∅
    nextArrival := 0
    response := {}
    status := .streaming
    responseId := ""
    usage := none
    terminalDetails := none
    done := false }

def responsesLayer (parse : String → Option Json) :
    ReaderLayer Llm.Responses.ResponsesDelta Llm.Responses.ResponsesReader Unit where
  fresh := {}
  accumulate r delta := (r.accumulate delta, none)
  isTerminal := Llm.Responses.isTerminal
  assemble r := (r.assemble parse, none)
  response r := r.response
  clear := clearResponses
  count := id
  clear_eq_fresh _ := rfl

/-! ## What an attempt leaves of the configuration -/

namespace ModelResponseReader

variable (L : ReaderLayer δ α κ)

theorem clear_eq_construct (r : ModelResponseReader δ α κ) :
    r.clear L = construct L r.handler.lineWindow (L.count r.counted) := by
  unfold clear construct
  rw [L.clear_eq_fresh]
  rfl

theorem abort_lineWindow (r : ModelResponseReader δ α κ) :
    r.abort.handler.lineWindow = r.handler.lineWindow := by
  unfold abort
  dsimp only
  split <;> rfl

theorem fold_lineWindow (r : ModelResponseReader δ α κ) (delta : δ) (hookFault : Option Thrown) :
    (r.fold L delta hookFault).1.handler.lineWindow = r.handler.lineWindow := by
  unfold fold
  split
  · rfl
  · split_ifs
    · split
      · rfl
      · cases hookFault <;> rfl
    · cases hookFault <;> rfl

theorem next_lineWindow (r : ModelResponseReader δ α κ) (hookFault : Option Thrown) :
    (r.next L hookFault).1.handler.lineWindow = r.handler.lineWindow := by
  unfold next
  split
  · rfl
  · split
    · exact fold_lineWindow L _ _ _
    · split <;> rfl

end ModelResponseReader

section Window

variable (L : ReaderLayer δ α κ)
  (handleMessage : Unit → List LineInfo → Except ε δ × Unit)

theorem exchangeStep_lineWindow (r : ModelResponseReader δ α κ) (event : ExchangeEvent) :
    (exchangeStep L handleMessage r event).1.handler.lineWindow = r.handler.lineWindow := by
  cases event with
  | received chunk => exact put_lineWindow handleMessage r.handler chunk
  | next hookFault => exact r.next_lineWindow L hookFault
  | producerFailed failure => rfl
  | producerEnded =>
    unfold exchangeStep
    dsimp only
    split <;> rfl
  | abort => exact r.abort_lineWindow

theorem exchangeSteps_lineWindow (events : List ExchangeEvent) : ∀ r : ModelResponseReader δ α κ,
      (exchangeSteps L handleMessage r events).1.handler.lineWindow = r.handler.lineWindow := by
  induction events with
  | nil =>
    intro r
    rfl
  | cons event events ih =>
    intro r
    have hStep := exchangeStep_lineWindow L handleMessage r event
    unfold exchangeSteps
    split
    · rename_i hEq
      rwa [hEq] at hStep
    · rename_i hEq
      rw [hEq] at hStep
      exact (ih _).trans hStep

theorem attemptEnd_lineWindow (r : ModelResponseReader δ α κ) (x : Exchange) :
    (attemptEnd L handleMessage r x).2.handler.lineWindow = r.handler.lineWindow := by
  have hOnce : (completeOnce L handleMessage r x).1.handler.lineWindow = r.handler.lineWindow := by
    have hStart : (if x.abortedWhileConnecting then r.abort else r).handler.lineWindow =
        r.handler.lineWindow := by
      split
      · exact r.abort_lineWindow
      · rfl
    unfold completeOnce
    generalize (if x.abortedWhileConnecting then r.abort else r) = started at hStart ⊢
    have hSteps := (exchangeSteps_lineWindow L handleMessage x.events started).trans hStart
    dsimp only
    split
    · exact hStart
    · split
      · exact hSteps
      · split <;> exact hSteps
  unfold attemptEnd
  split
  · rename_i hEq
    rwa [hEq] at hOnce
  · rename_i hEq
    rwa [hEq] at hOnce
  · rename_i hEq
    rw [hEq] at hOnce
    split <;> exact hOnce

end Window

/-! ## The laws of a call -/

section Laws

variable (L : ReaderLayer δ α κ)
variable {p : RetryPolicy}

  (handleMessage : Unit → List LineInfo → Except ε δ × Unit)
  (recoverable : HttpRequestException → Bool)

/-- An attempt after which another one may follow: it ended in a failure that is classified
as recoverable, not by the consumer's abort, and nobody asked for cancellation until the
backoff was over. -/
def Attempt.Repeatable (a : Attempt δ α κ) : Prop :=
  ∃ failure r, attemptEnd L handleMessage a.reader a.exchange = (.failed (.http failure), r) ∧
    recoverable failure = true ∧ a.exchange.cancelled = false ∧
    a.exchange.cancelledInBackoff = false

/-- What holds of a call from attempt `k` on. -/
structure LoopLaws (p : RetryPolicy) (lineWindow k : Nat) (run : RetryRun δ α κ) : Prop where
  delays : ∀ i d, run.delays[i]? = some d → d = p.backoffAt (k + i)
  delayed : run.attempts.length ≤ run.delays.length + 1
  budget : run.attempts.length + k ≤ p.maxRetryAttempts.toNat + 1
  repeated : ∀ i a, run.attempts[i]? = some a → i + 1 < run.attempts.length →
    a.Repeatable L handleMessage recoverable
  fresh : ∀ a ∈ run.attempts, ∃ counted,
    a.reader = ModelResponseReader.construct L lineWindow counted
  returned : ∀ item, run.outcome = some (.ok item) → ∃ a r, run.attempts.getLast? = some a ∧
    attemptEnd L handleMessage a.reader a.exchange = (.completed item, r)

theorem loopLaws_last {lineWindow k : Nat} {r : ModelResponseReader δ α κ} {x : Exchange}
    {delays : List Int64} {outcome : Option (Except Thrown MessageItem)}
    (hWindow : r.handler.lineWindow = lineWindow) (hBudget : k ≤ p.maxRetryAttempts.toNat)
    (hDelays : ∀ i d, delays[i]? = some d → d = p.backoffAt (k + i))
    (hReturned : ∀ item, outcome = some (.ok item) → ∃ r', attemptEnd L handleMessage (r.clear L) x = (.completed item, r')) :
    LoopLaws L handleMessage recoverable p lineWindow k
      { attempts := [{ reader := r.clear L, exchange := x }], delays := delays,
        outcome := outcome } where
  delays := hDelays
  delayed := by simp
  budget := by
    show 1 + k ≤ _
    omega
  repeated i a _ hMore := by
    simp only [List.length_singleton] at hMore
    omega
  fresh a hMem := by
    rw [List.mem_singleton.mp hMem, ← hWindow]
    exact ⟨_, r.clear_eq_construct L⟩
  returned item hItem := by
    obtain ⟨r', hEnd⟩ := hReturned item hItem
    exact ⟨_, r', rfl, hEnd⟩

theorem LoopLaws.cons {lineWindow k : Nat} {r : ModelResponseReader δ α κ} {x : Exchange}
    {rest : RetryRun δ α κ} (hRest : LoopLaws L handleMessage recoverable p lineWindow (k + 1) rest)
    (hWindow : r.handler.lineWindow = lineWindow)
    (hRepeatable : Attempt.Repeatable L handleMessage recoverable { reader := r.clear L, exchange := x }) :
    LoopLaws L handleMessage recoverable p lineWindow k
      { rest with
        attempts := { reader := r.clear L, exchange := x } :: rest.attempts
        delays := p.backoffAt k :: rest.delays } where
  delays i d hDelay := by
    cases i with
    | zero =>
      cases hDelay
      rfl
    | succ i =>
      rw [hRest.delays i d (by simpa using hDelay)]
      congr 1
      omega
  delayed := by
    have hLess := hRest.delayed
    simp only [List.length_cons]
    omega
  budget := by
    have hLess := hRest.budget
    simp only [List.length_cons]
    omega
  repeated i a hAttempt hMore := by
    cases i with
    | zero =>
      cases hAttempt
      exact hRepeatable
    | succ i =>
      exact hRest.repeated i a (by simpa using hAttempt) (by simpa using hMore)
  fresh a hMem := by
    rcases List.mem_cons.mp hMem with rfl | hMem
    · rw [← hWindow]
      exact ⟨_, r.clear_eq_construct L⟩
    · exact hRest.fresh a hMem
  returned item hItem := by
    obtain ⟨a, r', hLast, hEnd⟩ := hRest.returned item hItem
    refine ⟨a, r', ?_, hEnd⟩
    rw [List.getLast?_cons, hLast]
    rfl

theorem verdict_retry {attempt : UInt32} {x : Exchange} {ended : AttemptEnd}
    {failure : HttpRequestException} (h : verdict p recoverable attempt x ended = .retry failure) :
    ended = .failed (.http failure) ∧ recoverable failure = true ∧ x.cancelled = false ∧
      attempt ≠ p.maxRetryAttempts := by
  unfold verdict at h
  split at h
  · cases h
  · cases h
  · split_ifs at h
  · split_ifs at h with hCancelled hFinal
    cases h
    rw [not_or] at hFinal
    exact ⟨rfl, by simpa using hFinal.1, by simpa using hCancelled, hFinal.2⟩
  · cases h

theorem verdict_returned {attempt : UInt32} {x : Exchange} {ended : AttemptEnd} {item : MessageItem}
    (h : verdict p recoverable attempt x ended = .returned item) : ended = .completed item := by
  unfold verdict at h
  split at h
  · cases h
  · cases h
    rfl
  · split_ifs at h
  · split_ifs at h
  · cases h

theorem completeFrom_laws (p : RetryPolicy) (lineWindow : Nat) (exchanges : List Exchange) :
    ∀ (attempt : UInt32) (backoff : Int64) (r : ModelResponseReader δ α κ),
      attempt ≤ p.maxRetryAttempts → backoff = p.backoffAt attempt.toNat →
      r.handler.lineWindow = lineWindow →
      LoopLaws L handleMessage recoverable p lineWindow attempt.toNat
        (completeFrom L handleMessage p recoverable attempt backoff r exchanges) := by
  induction exchanges with
  | nil =>
    intro attempt backoff r hAttempt _ _
    rw [UInt32.le_iff_toNat_le] at hAttempt
    refine ⟨by simp [completeFrom], by simp [completeFrom], ?_, by simp [completeFrom],
      by simp [completeFrom], by simp [completeFrom]⟩
    show 0 + attempt.toNat ≤ _
    omega
  | cons x xs ih =>
    rintro attempt _ r hAttempt rfl hWindow
    have hBudget := UInt32.le_iff_toNat_le.mp hAttempt
    have hKept := attemptEnd_lineWindow L handleMessage (r.clear L) x
    unfold completeFrom
    rw [if_pos hAttempt]
    dsimp only
    cases hVerdict : verdict p recoverable attempt x
        (attemptEnd L handleMessage (r.clear L) x).1 with
    | waiting =>
      exact loopLaws_last L handleMessage recoverable hWindow hBudget (by simp) (by simp)
    | returned item =>
      refine loopLaws_last L handleMessage recoverable hWindow hBudget (by simp) ?_
      intro other hOther
      cases hOther
      exact ⟨_, Prod.ext (verdict_returned recoverable hVerdict) rfl⟩
    | threw thrown =>
      exact loopLaws_last L handleMessage recoverable hWindow hBudget (by simp) (by simp)
    | retry failure =>
      obtain ⟨hEnded, hRecoverable, hCancelled, hLeft⟩ := verdict_retry recoverable hVerdict
      dsimp only
      split
      · refine loopLaws_last L handleMessage recoverable hWindow hBudget ?_ (by simp)
        intro i d hDelay
        cases i with
        | zero =>
          cases hDelay
          rfl
        | succ i => simp at hDelay
      · rename_i hWaited
        have hBelow : attempt.toNat ≠ p.maxRetryAttempts.toNat := fun hEq =>
          hLeft (UInt32.toNat_inj.mp hEq)
        have hNext : (attempt + 1).toNat = attempt.toNat + 1 := by
          have hLimit := p.maxRetryAttempts.toNat_lt
          rw [UInt32.toNat_add]
          exact Nat.mod_eq_of_lt (by show _ + 1 < _; omega)
        have hRest := ih (attempt + 1) (p.advance (p.backoffAt attempt.toNat))
          (attemptEnd L handleMessage (r.clear L) x).2
          (by rw [UInt32.le_iff_toNat_le, hNext]; omega)
          (by rw [hNext]; rfl) (hKept.trans hWindow)
        rw [hNext] at hRest
        exact hRest.cons L handleMessage recoverable hWindow
          ⟨failure, _, Prod.ext hEnded rfl, hRecoverable, hCancelled, by simpa using hWaited⟩

structure CompleteLaws (s : RetrySettings) (lineWindow : Nat) (run : RetryRun δ α κ) : Prop where
  /-- The delay before retry `k`, in milliseconds and as the timer gets it. -/
  delay : ∀ (k : Nat) (d : Int64), run.delays[k]? = some d →
    d.toInt = min ((s.initial : Int) * 2 ^ k) s.maximum ∧ (expiresAfter d).toInt = d.toInt * 1000000
  /-- Every retry has waited for its delay. -/
  delayed : run.attempts.length ≤ run.delays.length + 1
  budget : run.attempts.length ≤ s.maxAttempts + 1
  /-- Whatever attempt is followed by another one may be. -/
  repeated : ∀ k a, run.attempts[k]? = some a → k + 1 < run.attempts.length →
    a.Repeatable L handleMessage recoverable
  /-- Every attempt is given a reader as it was constructed. -/
  fresh : ∀ a ∈ run.attempts, ∃ counted,
    a.reader = ModelResponseReader.construct L lineWindow counted
  /-- A response is what the last attempt made of its own stream. -/
  returned : ∀ item, run.outcome = some (.ok item) → ∃ a r, run.attempts.getLast? = some a ∧
    attemptEnd L handleMessage a.reader a.exchange = (.completed item, r)

/-- **A call of `complete`**, for every reader, every state it is handed over in, every
verdict and everything the outside can do. The backoff is exact for every retry, whether
or not the call gets that far. -/
theorem complete_laws {retry : Json} {s : RetrySettings} (h : parseRetry retry = .ok s)
    (r : ModelResponseReader δ α κ) (exchanges : List Exchange) :
    CompleteLaws L handleMessage recoverable s r.handler.lineWindow
        (complete L handleMessage (.configured s.toJson) recoverable r exchanges) ∧
      ∀ k, ((RetryPolicy.configured s.toJson).backoffAt k).toInt =
        min ((s.initial : Int) * 2 ^ k) s.maximum := by
  obtain ⟨-, hOrder, hMaximum⟩ := parseRetry_bounds h
  obtain ⟨hInitial, hCeiling, hAttempts⟩ := configured_settings h
  have hBackoff : ∀ k, ((RetryPolicy.configured s.toJson).backoffAt k).toInt =
      min ((s.initial : Int) * 2 ^ k) s.maximum := by
    intro k
    rw [RetryPolicy.toInt_backoffAt _ (by omega) (by omega) k, hInitial, hCeiling]
  have hLoop := completeFrom_laws L handleMessage recoverable (.configured s.toJson)
    r.handler.lineWindow exchanges 0 _ r (UInt32.zero_le) rfl rfl
  refine ⟨⟨?_, hLoop.delayed, ?_, hLoop.repeated, hLoop.fresh, hLoop.returned⟩, hBackoff⟩
  · intro k d hDelay
    have hDelay' := hLoop.delays k d hDelay
    have hNonneg : (0 : Int) ≤ (s.initial : Int) * 2 ^ k :=
      Int.mul_nonneg (by omega) (Int.pow_nonneg (by decide))
    rw [UInt32.toNat_zero, Nat.zero_add] at hDelay'
    have hValue := hBackoff k
    rw [← hDelay'] at hValue
    exact ⟨hValue, toInt_expiresAfter (by omega) (by omega)⟩
  · have hBudget := hLoop.budget
    rw [hAttempts, UInt32.toNat_zero] at hBudget
    exact hBudget

end Laws

/-! ### A refused connection, then a name that does not exist -/

/-- The exchanges of a host that is down first and unknown afterwards. -/
def sampleExchanges : List Exchange :=
  [{ connectFailure := some (.http
      { stage := .connect, message := "connect", errorCode := .connectionRefused }) },
   { connectFailure := some (.http
      { stage := .connect, message := "connect", errorCode := .netdb 1 }) }]

def sampleCall : RetryRun Llm.Chat.ChatCompletionsDelta Llm.Chat.ChatCompletionsReader
    ClearCount :=
  complete (chatLayer fun _ => none)
    (fun _ _ => ((Except.ok {} : Except Unit Llm.Chat.ChatCompletionsDelta), ()))
    (.configured (RetrySettings.toJson ⟨3, 500, 120000⟩)) recoverable
    (.construct (chatLayer fun _ => none) 4 {}) sampleExchanges

theorem complete_laws_sample : sampleCall.attempts.length = 2 ∧ sampleCall.delays = [500] ∧
      CompleteLaws (chatLayer fun _ => none)
        (fun _ _ => ((Except.ok {} : Except Unit Llm.Chat.ChatCompletionsDelta), ()))
        recoverable ⟨3, 500, 120000⟩ 4 sampleCall :=
  ⟨rfl, rfl, (complete_laws (chatLayer fun _ => none)
    (fun _ _ => ((Except.ok {} : Except Unit Llm.Chat.ChatCompletionsDelta), ()))
    recoverable (show parseRetry (.obj []) = .ok ⟨3, 500, 120000⟩ from rfl)
    (.construct (chatLayer fun _ => none) 4 {}) sampleExchanges).1⟩

end SimplexAgent.Endpoint
