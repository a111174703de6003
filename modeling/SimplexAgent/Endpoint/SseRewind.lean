import SimplexAgent.Endpoint.Sse
import SimplexAgent.Verified.Runs

/-!
# Suspending and rewinding an SSE handler

`suspend`, `reset` and `clear` of `SSEResponseHandler` between completed `put` calls. A producer
suspends when its connection drops, keeps the line index it was given, and rewinds to it before
it reads on.

A session records beside the handler what was fed to it: the streams that a rewind has cut off
and the one that is being read. Nothing of a stream that was cut off is left after a rewind, so
each stream is framed for itself, and the products sent are those of the streams in order.

The window may have moved past a checkpoint by the time it is used. Absolute line numbers make
that visible: a checkpoint of this stream is in front of the window exactly when its line was
trimmed away, and then `reset` refuses it.
-/

namespace SimplexAgent.Endpoint.Sse

open Verified.Segments Verified.Runs

variable {σ Product ε : Type}

/-- `suspend`: record the state. The checkpoint is the cursor, which `_restart_index` returns
unless a subclass overrides it. -/
def suspend (h : SSEResponseHandler σ Product) (state : SSEHandlerState) :
    SSEResponseHandler σ Product × Nat :=
  ({ h with state := state }, h.nextLine)

/-- `reset`: cut the retained lines at a checkpoint and drop the open line. Nothing is the
`out_of_range` of a checkpoint that is not in the window. -/
def reset (h : SSEResponseHandler σ Product) (index : Nat) :
    Option (SSEResponseHandler σ Product) :=
  if index < h.base ∨ h.base + h.lines.length < index then none
  else some { h with
    buffer := []
    lines := h.lines.take (index - h.base)
    nextLine := index
    state := .running }

/-- What the producer does with the handler. -/
inductive Control where
  | put (payload : List UInt8)
  | suspend (state : SSEHandlerState)
  /-- Rewind to the index that the last `suspend` returned. -/
  | reset
  | clear

/-- A handler and what it was fed. -/
structure Session (σ Product : Type) where
  handler : SSEResponseHandler σ Product
  /-- What the last `suspend` returned. -/
  checkpoint : Option Nat
  /-- Nothing was put and the handler was not cleared since the checkpoint was taken or was
  last rewound to. -/
  idle : Bool
  /-- The handler was not cleared since the checkpoint was taken. -/
  current : Bool
  /-- The decoder state when the handler was built or last cleared. -/
  decoder : σ
  /-- The streams since then that a rewind has cut off, and the one being read. -/
  interrupted : List (List UInt8)
  stream : List UInt8

namespace Session

/-- A new handler. -/
def start (lineWindow : Nat) (decoder : σ) : Session σ Product where
  handler := construct lineWindow decoder
  checkpoint := none
  idle := false
  current := false
  decoder := decoder
  interrupted := []
  stream := []

/-- The products sent by a handler that framed each stream for itself. -/
def events (s : Session σ Product) : List (List LineInfo) :=
  s.interrupted.flatMap eventsOf ++ eventsOf s.stream

/-- A checkpoint that the window holds. -/
def Reachable (s : Session σ Product) (index : Nat) : Prop :=
  s.handler.base ≤ index ∧ index ≤ s.handler.base + s.handler.lines.length

section Step

variable (handleMessage : σ → List LineInfo → Except ε Product × σ)

/-- One call. A `put` counts if it completes; a `reset` that throws has changed nothing. -/
def step (s : Session σ Product) : Control → Option (Session σ Product)
  | .put payload =>
    match put handleMessage s.handler payload with
    | (h, none) => some { s with handler := h, idle := false, stream := s.stream ++ payload }
    | (_, some _) => none
  | .suspend state => some { s with
      handler := (suspend s.handler state).1
      checkpoint := some (suspend s.handler state).2
      idle := true
      current := true }
  | .reset =>
    s.checkpoint.map fun index =>
      match reset s.handler index with
      | none => s
      | some h => { s with
          handler := h
          idle := true
          interrupted := s.interrupted ++ [s.stream]
          stream := [] }
  | .clear => some { s with
      handler := clear s.handler
      idle := false
      current := false
      decoder := s.handler.decoder
      interrupted := []
      stream := [] }

end Step

end Session

/-! ## What a rewind leaves -/

theorem reset_eq_none (h : SSEResponseHandler σ Product) (index : Nat) :
    reset h index = none ↔ index < h.base ∨ h.base + h.lines.length < index := by
  unfold reset
  split
  · rename_i hOut
    exact ⟨fun _ => hOut, fun _ => rfl⟩
  · rename_i hIn
    exact ⟨nofun, fun hOut => absurd hOut hIn⟩

theorem reset_eq_some (h : SSEResponseHandler σ Product) (index : Nat) (hLow : h.base ≤ index)
    (hHigh : index ≤ h.base + h.lines.length) :
    reset h index = some { h with
      buffer := []
      lines := h.lines.take (index - h.base)
      nextLine := index
      state := .running } := by
  unfold reset
  rw [if_neg (by omega)]

theorem reset_framing (h h' : SSEResponseHandler σ Product) (index : Nat)
    (hClosed : h.closed = false) (hReset : reset h index = some h') : Framing h' [] := by
  unfold reset at hReset
  split at hReset
  · cases hReset
  · rename_i hIn
    rw [← Option.some.inj hReset]
    refine ⟨rfl, ?_, ?_, hClosed⟩
    · have hAll : (h.lines.take (index - h.base)).drop (index - h.base) = [] :=
        List.drop_eq_nil_of_le (List.length_take_le _ _)
      simp only [Sse.pending, hAll]
      rfl
    · simp only [CursorInWindow, List.length_take]
      omega

section

variable (h : SSEResponseHandler σ Product)
include h

theorem clear_eq_construct : clear h = construct h.lineWindow h.decoder := rfl

theorem trim_window : (trim h).nextLine - (trim h).base ≤ h.lineWindow := by
  unfold trim
  split
  · simp only
    omega
  · omega

theorem nextLine_le_nextMessage (hCursor : CursorInWindow h) :
    h.nextLine ≤ (nextMessage h).1.nextLine := by
  obtain ⟨hLow, -⟩ := hCursor
  unfold nextMessage
  split
  · simp only [firstLine]
    omega
  · have := nextLine_le_lastLine h
    simp only
    omega

end

section Put

variable (handleMessage : σ → List LineInfo → Except ε Product × σ)

theorem nextLine_le_deliver (h : SSEResponseHandler σ Product) (hCursor : CursorInWindow h) :
    h.nextLine ≤ (deliver handleMessage h).1.nextLine := by
  fun_induction deliver handleMessage h with
  | case1 h hNone => exact nextLine_le_nextMessage h hCursor
  | case2 h hSome e decoder hHandle => exact nextLine_le_nextMessage h hCursor
  | case3 h hSome product decoder hHandle hClosed => exact nextLine_le_nextMessage h hCursor
  | case4 h hSome product decoder hHandle hOpen ih =>
    calc
      h.nextLine ≤ (nextMessage h).1.nextLine := nextLine_le_nextMessage h hCursor
      _ ≤ _ := ih (cursorInWindow_nextMessage h hCursor)

theorem nextLine_trim (h : SSEResponseHandler σ Product) : (trim h).nextLine = h.nextLine := by
  unfold trim
  split <;> rfl

/-- A `put` that completes leaves the cursor at or after where it was, and at most a window of
lines in front of it. -/
theorem put_cursor (h h' : SSEResponseHandler σ Product) (payload : List UInt8)
    (hCursor : CursorInWindow h) (hPut : put handleMessage h payload = (h', none)) :
    h.nextLine ≤ h'.nextLine ∧ h'.nextLine - h'.base ≤ h.lineWindow := by
  have hSplit : CursorInWindow (splitLine { h with buffer := h.buffer ++ payload }) := by
    obtain ⟨hLow, hHigh⟩ := hCursor
    rw [splitLine_eq]
    simp only [CursorInWindow, List.length_append]
    omega
  have hCursorLe := nextLine_le_deliver handleMessage _ hSplit
  have hWindow := deliver_lineWindow handleMessage
    (splitLine { h with buffer := h.buffer ++ payload })
  unfold put at hPut
  split at hPut
  · rename_i h₁ hDeliver
    rw [hDeliver, splitLine_eq] at hCursorLe hWindow
    obtain ⟨rfl, -⟩ := Prod.mk.inj hPut
    refine ⟨?_, ?_⟩
    · rw [nextLine_trim]
      exact hCursorLe
    · have hTrim := trim_window h₁
      rw [hWindow] at hTrim
      exact hTrim
  · simp at hPut

end Put

/-! ## Sessions -/

namespace Session

variable (handleMessage : σ → List LineInfo → Except ε Product × σ)

/-- The window is where it belongs, and exactly the events of the streams were decoded and
sent, each stream framed for itself. -/
structure Sound (lineWindow : Nat) (s : Session σ Product) : Prop where
  cursor : CursorInWindow s.handler
  window : s.handler.lineWindow = lineWindow
  sent : decodeAll handleMessage s.decoder s.events = (s.handler.sent, s.handler.decoder, none)

/-- What carries `Sound` through a session. -/
structure Tracked (lineWindow : Nat) (s : Session σ Product) : Prop extends
    Sound handleMessage lineWindow s where
  framing : Framing s.handler s.stream
  idle : s.idle = true → s.checkpoint = some s.handler.nextLine
  current : s.current = true → ∀ index, s.checkpoint = some index → index ≤ s.handler.nextLine

/-- A rewind from `h` to `h'`: the lines from the checkpoint on and the open line are gone, and
everything else but the cursor and the state is as before. -/
structure Rewound (h h' : SSEResponseHandler σ Product) (index : Nat) : Prop where
  lines : h.lines = h'.lines ++ h.lines.drop (index - h.base)
  rest : h' = { h with buffer := [], lines := h'.lines, nextLine := index, state := .running }

/-- What a call does to a session. -/
def Meets (lineWindow : Nat) (s : Session σ Product) : Control → Session σ Product → Prop
  | .put _, next => next.handler.nextLine - next.handler.base ≤ lineWindow
  | .suspend state, next => next.handler = { s.handler with state := state } ∧
      next.checkpoint = some s.handler.nextLine
  | .reset, next => ∀ index, s.checkpoint = some index →
      (s.Reachable index → Rewound s.handler next.handler index) ∧
      (¬s.Reachable index → reset s.handler index = none ∧ next = s) ∧
      (s.current = true → (s.Reachable index ↔ s.handler.base ≤ index)) ∧
      (s.idle = true → s.Reachable index ∧
        s.handler.lines = next.handler.lines ++ pending s.handler)
  | .clear, next => next.handler = construct lineWindow s.handler.decoder

variable {handleMessage}
variable {s next : Session σ Product} {lineWindow : Nat}

theorem tracked_start (lineWindow : Nat) (decoder : σ) :
    Tracked handleMessage lineWindow (start lineWindow decoder : Session σ Product) where
  cursor := ⟨Nat.le_refl 0, Nat.zero_le _⟩
  window := rfl
  sent := rfl
  framing := ⟨rfl, rfl, ⟨Nat.le_refl 0, Nat.zero_le _⟩, rfl⟩
  idle := nofun
  current := nofun

theorem events_put (s : Session σ Product) (payload : List UInt8)
    (hFraming : Framing s.handler s.stream) :
    s.interrupted.flatMap eventsOf ++ eventsOf (s.stream ++ payload) =
      s.events ++ completed s.handler payload := by
  have hSplit := split_pending s.handler s.stream payload hFraming
  rw [hSplit.2.2.2.2.2.1, events, List.append_assoc]

theorem put_tracked {payload : List UInt8} (h : Tracked handleMessage lineWindow s)
    (hStep : step handleMessage s (.put payload) = some next) :
    Tracked handleMessage lineWindow next ∧ Meets lineWindow s (.put payload) next := by
  simp only [step] at hStep
  split at hStep
  · rename_i h' hPut
    obtain ⟨hFraming, hSent, hDecoded⟩ := put_framing handleMessage _ _ _ _ h.framing hPut
    obtain ⟨hForward, hWindow⟩ := put_cursor handleMessage _ _ _ h.cursor hPut
    have hConfig := put_lineWindow handleMessage s.handler payload
    rw [hPut] at hConfig
    have hDone := h.sent
    rw [← Option.some.inj hStep]
    refine ⟨⟨⟨hFraming.cursor, hConfig.trans h.window, ?_⟩, hFraming, nofun, ?_⟩, ?_⟩
    · simp only [events]
      rw [events_put s payload h.framing, decodeAll_append _ _ _ _ (by rw [hDone]), hDone, hSent]
      exact Prod.ext rfl hDecoded
    · intro hCurrent index hIndex
      exact Nat.le_trans (h.current hCurrent index hIndex) hForward
    · rw [h.window] at hWindow
      exact hWindow
  · cases hStep

theorem suspend_tracked {state : SSEHandlerState} (h : Tracked handleMessage lineWindow s)
    (hStep : step handleMessage s (.suspend state) = some next) :
    Tracked handleMessage lineWindow next ∧ Meets lineWindow s (.suspend state) next := by
  rw [step, Option.some.injEq] at hStep
  subst hStep
  refine ⟨⟨⟨h.cursor, h.window, h.sent⟩, ⟨h.framing.buffer, h.framing.pending, h.cursor,
    h.framing.closed⟩, fun _ => rfl, ?_⟩, rfl, rfl⟩
  intro _ index hIndex
  exact Nat.le_of_eq (Option.some.inj hIndex).symm

theorem clear_tracked (h : Tracked handleMessage lineWindow s)
    (hStep : step handleMessage s .clear = some next) :
    Tracked handleMessage lineWindow next ∧ Meets lineWindow s .clear next := by
  rw [step, Option.some.injEq] at hStep
  subst hStep
  refine ⟨⟨⟨⟨Nat.le_refl 0, Nat.zero_le _⟩, h.window, rfl⟩,
    ⟨rfl, rfl, ⟨Nat.le_refl 0, Nat.zero_le _⟩, rfl⟩, nofun, nofun⟩, ?_⟩
  simp only [Meets]
  rw [clear_eq_construct, h.window]

theorem reachable_iff_of_current {s : Session σ Product} {index : Nat}
    (h : Tracked handleMessage lineWindow s) (hIndex : s.checkpoint = some index)
    (hCurrent : s.current = true) : s.Reachable index ↔ s.handler.base ≤ index := by
  have hBefore := h.current hCurrent index hIndex
  have hInside := h.cursor.2
  constructor
  · intro hReachable
    exact hReachable.1
  · intro hLow
    exact ⟨hLow, Nat.le_trans hBefore hInside⟩

theorem reachable_of_idle {s : Session σ Product} {index : Nat}
    (h : Tracked handleMessage lineWindow s) (hIndex : s.checkpoint = some index)
    (hIdle : s.idle = true) : index = s.handler.nextLine ∧ s.Reachable index := by
  have hCursor : index = s.handler.nextLine := by
    rw [h.idle hIdle] at hIndex
    exact (Option.some.inj hIndex).symm
  exact ⟨hCursor, hCursor ▸ h.cursor⟩

theorem reset_tracked (h : Tracked handleMessage lineWindow s)
    (hStep : step handleMessage s .reset = some next) :
    Tracked handleMessage lineWindow next ∧ Meets lineWindow s .reset next := by
  simp only [step, Option.map_eq_some_iff] at hStep
  obtain ⟨index, hIndex, hNext⟩ := hStep
  have hMeets : Meets lineWindow s .reset next := by
    intro other hOther
    rw [hIndex, Option.some.injEq] at hOther
    subst hOther
    refine ⟨?_, ?_, reachable_iff_of_current h hIndex, ?_⟩
    · intro hReachable
      rw [reset_eq_some s.handler index hReachable.1 hReachable.2] at hNext
      rw [← hNext]
      exact ⟨(List.take_append_drop _ _).symm, rfl⟩
    · intro hOut
      have hNone : reset s.handler index = none := by
        rw [reset_eq_none]
        unfold Reachable at hOut
        omega
      rw [hNone] at hNext
      exact ⟨hNone, hNext.symm⟩
    · intro hIdle
      obtain ⟨hCursor, hReachable⟩ := reachable_of_idle h hIndex hIdle
      rw [reset_eq_some s.handler index hReachable.1 hReachable.2] at hNext
      rw [← hNext, pending, ← hCursor]
      exact ⟨hReachable, (List.take_append_drop _ _).symm⟩
  refine ⟨?_, hMeets⟩
  cases hReset : reset s.handler index with
  | none =>
    rw [hReset] at hNext
    exact hNext ▸ h
  | some h' =>
    have hFraming := reset_framing _ _ _ h.framing.closed hReset
    have hRest : h'.lineWindow = s.handler.lineWindow ∧ h'.sent = s.handler.sent ∧
        h'.decoder = s.handler.decoder ∧ h'.nextLine = index := by
      unfold reset at hReset
      split at hReset
      · cases hReset
      · rw [← Option.some.inj hReset]
        exact ⟨rfl, rfl, rfl, rfl⟩
    rw [hReset] at hNext
    subst hNext
    refine ⟨⟨hFraming.cursor, hRest.1.trans h.window, ?_⟩, hFraming, ?_, ?_⟩
    · have hEvents : (s.interrupted ++ [s.stream]).flatMap eventsOf ++ eventsOf [] = s.events := by
        simp [events, eventsOf, linesOf, messages, cut]
      simp only [events] at hEvents ⊢
      rw [hEvents, hRest.2.1, hRest.2.2.1]
      exact h.sent
    · intro _
      simp only [hIndex, hRest.2.2.2]
    · intro _ other hOther
      rw [hIndex, Option.some.injEq] at hOther
      rw [← hOther, hRest.2.2.2]

theorem step_tracked {op : Control} (h : Tracked handleMessage lineWindow s)
    (hStep : step handleMessage s op = some next) :
    Tracked handleMessage lineWindow next ∧ Meets lineWindow s op next := by
  cases op with
  | put payload => exact put_tracked h hStep
  | suspend state => exact suspend_tracked h hStep
  | reset => exact reset_tracked h hStep
  | clear => exact clear_tracked h hStep

/--
**Rewinding a handler**: in every session the cursor stays in the window, every completed `put`
leaves at most a window of consumed lines, and exactly the events of the streams fed between the
rewinds have been sent, none built from lines of two of them. A rewind to a checkpoint that
nothing was read past drops exactly the unfinished event and never throws; one to an older
checkpoint throws exactly when the window has lost it, and then changes nothing. A cleared
handler is a new one.
-/
theorem run_meets (handleMessage : σ → List LineInfo → Except ε Product × σ) (lineWindow : Nat)
    (decoder : σ) (ops : List Control) : Along (step handleMessage)
      (fun s op next => Meets lineWindow s op next ∧ Sound handleMessage lineWindow next)
      (start lineWindow decoder) ops := by
  refine along_of_invariant (P := Tracked handleMessage lineWindow)
    (fun s op next h hStep => (step_tracked h hStep).1) (fun s op next h hStep => ?_)
    (tracked_start lineWindow decoder)
  have hNext := step_tracked h hStep
  exact ⟨hNext.2, hNext.1.toSound⟩

/-- A handler without a window forgets the line it was suspended at as soon as one more event
has passed. -/
theorem reset_trimmed : ∃ (s : Session Unit (List LineInfo)) (index : Nat),
      run (step fun decoder message => (@Except.ok Empty _ message, decoder))
        (start 0 ()) [.suspend .resumable, .put [120, 10, 10]] = some s ∧
      s.checkpoint = some index ∧ reset s.handler index = none := by
  refine ⟨⟨⟨[], [], 2, 2, 0, .resumable, false, [[([120], [])]], ()⟩, some 0, false, true, (), [],
    [120, 10, 10]⟩, 0, ?_, rfl, ?_⟩
  · have hSplit : splitLine (⟨[120, 10, 10], [], 0, 0, 0, .resumable, false, [], ()⟩ :
        SSEResponseHandler Unit (List LineInfo)) =
        ⟨[], [([120], []), ([], [])], 0, 0, 0, .resumable, false, [], ()⟩ := by
      rw [splitLine_eq]
      rfl
    simp only [run, step, start, construct, suspend, Option.bind_some, put, List.nil_append, hSplit]
    have hLast (sent : List (List LineInfo)) : deliver
        (fun decoder message => (@Except.ok Empty _ message, decoder))
        ⟨[], [([120], []), ([], [])], 2, 0, 0, .resumable, false, sent, ()⟩ =
        (⟨[], [([120], []), ([], [])], 2, 0, 0, .resumable, false, sent, ()⟩, none) := by
      rw [deliver]
      rfl
    have hFirst : deliver (fun decoder message => (@Except.ok Empty _ message, decoder))
        ⟨[], [([120], []), ([], [])], 0, 0, 0, .resumable, false, [], ()⟩ =
        (⟨[], [([120], []), ([], [])], 2, 0, 0, .resumable, false, [[([120], [])]], ()⟩, none) := by
      rw [deliver]
      exact hLast _
    rw [hFirst]
    rfl
  · decide

end Session

end SimplexAgent.Endpoint.Sse
