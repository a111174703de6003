import SimplexAgent.Hub.ConfirmationStages
import SimplexAgent.Hub.IdentityRun

/-!
# What a confirmation connection is told

Over any interleaving of confirmation sockets, operator decisions, identity updates, run
endings, timers and retirement. The invariant puts every exchange at the stage of its phase
and the table of prompts beside them; everything that is claimed about decisions is read
off it.

An answered prompt stays registered until the close handshake of its socket is over, so it
is only gone once the exchange has ended.
-/

namespace SimplexAgent.Hub

open Verified Verified.KeyedTable Verified.Runs

/-! ## The invariant of the route -/

/-- The identifier under which an exchange may be registered. -/
def Shown (e : Exchange) (confirmationId : String) : Prop :=
  (e.phase = .deciding ∨ e.phase = .closing) ∧
    ∃ p, e.prompt = some p ∧ p.request.confirmationId = confirmationId

theorem Shown.of_request {e e' : Exchange} {id : String} (h : Shown e id)
    (hPhase : e'.phase = .deciding ∨ e'.phase = .closing)
    (hRequest : e'.prompt.map (·.request) = e.prompt.map (·.request)) : Shown e' id := by
  obtain ⟨_, p, hPrompt, hId⟩ := h
  rw [hPrompt] at hRequest
  cases hNew : e'.prompt with
  | none => rw [hNew] at hRequest; cases hRequest
  | some q =>
    rw [hNew] at hRequest
    have hSame : q.request = p.request := by simpa using hRequest
    exact ⟨hPhase, q, hNew, by rw [hSame]; exact hId⟩

def WorkerIsLive (s : Session) : Prop := s.identity.workerId.isSome → s.identity.state = .live

namespace WorkerIsLive

theorem of_keeps {s t : Session} (h : WorkerIsLive s) (hKeeps : KeepsIdentity s t) :
    WorkerIsLive t := by
  unfold WorkerIsLive
  rw [hKeeps.identity]
  exact h

theorem of_identified {s t : Session} {workerId : String} (h : Identified s t workerId) :
    WorkerIsLive t := fun _ => h.state

theorem markStale {s : Session} (h : WorkerIsLive s) : WorkerIsLive s.markStale := by
  unfold Session.markStale
  dsimp only
  split
  · exact h
  · intro hSome
    cases hSome

theorem detach {s : Session} (h : WorkerIsLive s) (socket now : Nat) :
    WorkerIsLive (s.detach socket now) := by
  unfold Session.detach
  split
  · exact h
  · exact (markStale (s := { s with connection := none }) h).of_keeps (.markRequestsUnknown _ now)

theorem awaitWorkerIdentity {s : Session} (h : WorkerIsLive s) (token : Nat) (workerId : String)
    (holdMs : Nat) : WorkerIsLive (s.awaitWorkerIdentity token workerId holdMs) := by
  unfold Session.awaitWorkerIdentity
  split
  · exact h
  split
  · exact h
  · exact h

/-- Whatever happens to the event connections. -/
theorem step {ch ch' : Channel} {now : Nat} {input : ChannelInput} (h : WorkerIsLive ch.session)
    (hStep : ch.step now input = some ch') : WorkerIsLive ch'.session := by
  cases input with
  | opened socket =>
    simp only [Channel.step] at hStep
    split at hStep
    · cases hStep
    · cases hStep
      rw [IdentityRun.accept_session]
      exact h
  | message socket inbound =>
    simp only [Channel.step] at hStep
    split at hStep
    · cases hStep
      rcases IdentityRun.onMessage_cases ch socket inbound now with ⟨_, hKeeps⟩ | ⟨w, _, _, hNamed⟩
      · exact h.of_keeps hKeeps
      · exact of_identified hNamed
    · cases hStep
  | closing socket =>
    simp only [Channel.step] at hStep
    split at hStep
    · cases hStep
      rw [Channel.closeSocket_session]
      exact h
    · cases hStep
  | closed socket =>
    simp only [Channel.step] at hStep
    split at hStep
    · cases hStep
      unfold Channel.onClose
      split
      · exact h
      · exact h.detach socket now
    · cases hStep

end WorkerIsLive

namespace ConfirmationRoute

/-- What holds of the route between two steps. -/
structure Inv (route : ConfirmationRoute) : Prop where
  worker : WorkerIsLive route.session
  keyed : Keyed route.prompts
  known : ∀ token e, route.exchanges token = some e → token ∈ route.accepted
  stage : ∀ token e, route.exchanges token = some e → ExchangeOk e
  shown : ∀ confirmationId token, (confirmationId, token) ∈ route.prompts →
    ∃ e, route.exchanges token = some e ∧ Shown e confirmationId

/-- An approval that the route may write now: the prompt was opened for the live worker, it
was approved once and nothing else settled it, and a headless run still has its authority. -/
def Earned (route : ConfirmationRoute) (e : Exchange) : Prop :=
  ∃ p outcome, e.prompt = some p ∧ e.raced = some (some outcome) ∧ outcome.decision = .approved ∧
    Answered p outcome ∧ runAuthorized route.session route.channel.connected p.request = true

/-- Every approval of the new state was written before, or may be written now. -/
def Justified (route next : ConfirmationRoute) : Prop :=
  ∀ token e', next.exchanges token = some e' → .approved ∈ e'.frames →
    ∃ e, route.exchanges token = some e ∧ (.approved ∈ e.frames ∨ route.Earned e)

structure Kept (route next : ConfirmationRoute) : Prop where
  inv : next.Inv
  justified : Justified route next

/-- One exchange changes, and prompts may be gone. -/
structure Moves (route next : ConfirmationRoute) (token : Nat) (e' : Exchange) : Prop where
  exchanges : next.exchanges = fun n => if n = token then some e' else route.exchanges n
  accepted : next.accepted = route.accepted
  worker : WorkerIsLive route.session → WorkerIsLive next.session
  keyed : Keyed route.prompts → Keyed next.prompts
  prompts : ∀ entry ∈ next.prompts, entry.2 ≠ token → entry ∈ route.prompts

variable {route : ConfirmationRoute} {token : Nat} {e : Exchange} {session : Session}
variable {route next : ConfirmationRoute}

theorem Inv.moves {e e' : Exchange} (h : route.Inv) (hOld : route.exchanges token = some e)
    (hMoves : Moves route next token e') (hStage : ExchangeOk e')
    (hShown : ∀ id, (id, token) ∈ next.prompts → Shown e' id)
    (hFrames : .approved ∈ e'.frames → .approved ∈ e.frames ∨ route.Earned e) :
    Kept route next := by
  refine ⟨⟨hMoves.worker h.worker, hMoves.keyed h.keyed, ?_, ?_, ?_⟩, ?_⟩
  · intro n f hNew
    rw [hMoves.accepted]
    rw [hMoves.exchanges] at hNew
    by_cases hToken : n = token
    · exact hToken ▸ h.known token e hOld
    · exact h.known n f (by simpa [hToken] using hNew)
  · intro n f hNew
    rw [hMoves.exchanges] at hNew
    by_cases hToken : n = token
    · have hSame : e' = f := by simpa [hToken] using hNew
      exact hSame ▸ hStage
    · exact h.stage n f (by simpa [hToken] using hNew)
  · intro id n hMem
    rw [hMoves.exchanges]
    by_cases hToken : n = token
    · subst hToken
      exact ⟨e', by simp, hShown id hMem⟩
    · obtain ⟨f, hFound, hIs⟩ := h.shown id n (hMoves.prompts _ hMem hToken)
      exact ⟨f, by simpa [hToken] using hFound, hIs⟩
  · intro n f hNew hApproved
    rw [hMoves.exchanges] at hNew
    by_cases hToken : n = token
    · subst hToken
      have hSame : e' = f := by simpa using hNew
      exact ⟨e, hOld, hFrames (hSame ▸ hApproved)⟩
    · exact ⟨f, by simpa [hToken] using hNew, Or.inl hApproved⟩

theorem moves_setExchange (route : ConfirmationRoute) (token : Nat) (e' : Exchange) :
    Moves route (route.setExchange token e') token e' :=
  ⟨rfl, rfl, id, id, fun _ h _ => h⟩

theorem Moves.setSession {e' : Exchange} (h : Moves route next token e')
    (hWorker : WorkerIsLive route.session → WorkerIsLive session) :
    Moves route (next.setSession session) token e' :=
  ⟨h.exchanges, h.accepted, hWorker, h.keyed, h.prompts⟩

theorem removePrompt_eq (route : ConfirmationRoute) (token : Nat) (p : PendingConfirmation) :
    ∃ prompts, route.removePrompt token p = { route with prompts := prompts } ∧
      (prompts = route.prompts ∨ prompts = drop route.prompts p.request.confirmationId) := by
  unfold removePrompt
  split
  · exact ⟨_, rfl, Or.inr rfl⟩
  · exact ⟨_, rfl, Or.inl rfl⟩

theorem removePrompt_gone (hKeyed : Keyed route.prompts) (token : Nat) (p : PendingConfirmation) :
    (p.request.confirmationId, token) ∉ (route.removePrompt token p).prompts := by
  unfold removePrompt
  split
  · exact fun hMem => (mem_drop.mp hMem).2 rfl
  · rename_i hOther
    exact fun hMem => hOther ((lookup_eq_some_iff hKeyed).mpr hMem)

theorem removePrompt_prompts (route : ConfirmationRoute) (token : Nat) (p : PendingConfirmation) :
    ∀ entry ∈ (route.removePrompt token p).prompts, entry ∈ route.prompts := by
  obtain ⟨prompts, hEq, hPrompts⟩ := route.removePrompt_eq token p
  intro entry hMem
  rw [hEq] at hMem
  rcases hPrompts with rfl | rfl
  · exact hMem
  · exact (mem_drop.mp hMem).1

theorem Moves.removePrompt {e' : Exchange} (h : Moves route next token e')
    (p : PendingConfirmation) : Moves route (next.removePrompt token p) token e' := by
  have hMem := next.removePrompt_prompts token p
  obtain ⟨prompts, hEq, hPrompts⟩ := next.removePrompt_eq token p
  rw [hEq] at hMem ⊢
  refine ⟨h.exchanges, h.accepted, h.worker, ?_, fun entry hNew => h.prompts entry (hMem entry hNew)⟩
  intro hKeyed
  rcases hPrompts with rfl | rfl
  · exact h.keyed hKeyed
  · exact (h.keyed hKeyed).drop _

theorem cleanup_moves (route : ConfirmationRoute) (token : Nat) (e : Exchange) (detail : String) :
    Moves route (route.cleanup token e detail) token (e.cleaned detail) ∧
      ∀ entry ∈ (route.cleanup token e detail).prompts, entry ∈ route.prompts := by
  unfold cleanup Exchange.cleaned
  split
  · exact ⟨moves_setExchange route token e, fun _ h => h⟩
  dsimp only
  split
  · rename_i hNone
    rw [Exchange.retirePrompt_none (by exact hNone)]
    exact ⟨moves_setExchange route token _, fun _ h => h⟩
  · rename_i p hPrompt
    have hMoves := (moves_setExchange route token
      ({ e with settled := true }.retirePrompt detail)).removePrompt p
    have hMem := route.removePrompt_prompts token p
    obtain ⟨prompts, hEq, hPrompts⟩ := route.removePrompt_eq token p
    rw [hEq] at hMem ⊢
    refine ⟨⟨rfl, rfl, id, ?_, fun entry hNew _ => hMem entry hNew⟩, hMem⟩
    intro hKeyed
    rcases hPrompts with rfl | rfl
    · exact hKeyed
    · exact hKeyed.drop _

/-- `finish`, seen from the exchange: it is not registered any more. -/
theorem finish_moves (h : route.Inv) (token : Nat) {e f : Exchange}
    (hOld : route.exchanges token = some f) (hPrompt : e.prompt = f.prompt) :
    Moves route (route.finish token e) token
        ({ e with phase := .done }.cleaned "the confirmation connection closed") ∧
      ∀ id, (id, token) ∉ (route.finish token e).prompts := by
  obtain ⟨hMoves, hMem⟩ := route.cleanup_moves token { e with phase := .done }
    "the confirmation connection closed"
  have hShown : ∀ id, (id, token) ∈ route.prompts →
      ∃ p, e.prompt = some p ∧ p.request.confirmationId = id := by
    intro id hIn
    obtain ⟨g, hFound, _, p, hIs, hId⟩ := h.shown id token hIn
    rw [hOld, Option.some.injEq] at hFound
    exact ⟨p, by rw [hPrompt, hFound, hIs], hId⟩
  unfold finish
  dsimp only
  split
  · rename_i hNone
    refine ⟨hMoves, fun id hIn => ?_⟩
    obtain ⟨p, hSome, _⟩ := hShown id (hMem _ hIn)
    rw [hNone] at hSome
    cases hSome
  · rename_i p hSome
    refine ⟨hMoves.removePrompt p, fun id hIn => ?_⟩
    obtain ⟨q, hIs, rfl⟩ := hShown id (hMem _ (removePrompt_prompts _ token p _ hIn))
    have hSame : p = q := by
      rw [hSome, Option.some.injEq] at hIs
      exact hIs
    exact removePrompt_gone (hMoves.keyed h.keyed) token p (hSame ▸ hIn)

/-! ## One step -/

theorem Moves.of_setSession {e' : Exchange} (h : Moves (route.setSession session) next token e')
    (hWorker : WorkerIsLive route.session → WorkerIsLive session) : Moves route next token e' :=
  ⟨h.exchanges, h.accepted, fun hLive => h.worker (hWorker hLive), h.keyed, h.prompts⟩

theorem Inv.registered (h : route.Inv) (hOld : route.exchanges token = some e)
    {confirmationId : String} (hMem : (confirmationId, token) ∈ route.prompts) :
    Shown e confirmationId := by
  obtain ⟨f, hFound, hShown⟩ := h.shown confirmationId token hMem
  rw [hOld, Option.some.injEq] at hFound
  exact hFound ▸ hShown

theorem Inv.not_registered (h : route.Inv) (hOld : route.exchanges token = some e)
    (hDeciding : e.phase ≠ .deciding) (hClosing : e.phase ≠ .closing) (confirmationId : String) :
    (confirmationId, token) ∉ route.prompts := by
  intro hMem
  rcases (h.registered hOld hMem).1 with hIs | hIs
  · exact hDeciding hIs
  · exact hClosing hIs

theorem kept_refuse (h : route.Inv) {f e : Exchange} (hOld : route.exchanges token = some f)
    (hDeciding : f.phase ≠ .deciding) (hClosing : f.phase ≠ .closing) (hFrames : e.frames = [])
    (hPrompt : e.prompt = none ∨ ∃ p, e.prompt = some p ∧ Unopened p) (sends : Bool) :
    Kept route (route.refuse token e sends) := by
  obtain ⟨socket, frames, hEq, hNew⟩ := e.sendDecision_eq .denied sends
  rw [hFrames, List.nil_append] at hNew
  have hDenied : .approved ∉ frames := by
    rcases hNew with rfl | rfl <;> simp
  refine h.moves hOld (route.moves_setExchange token _) ?_ ?_ ?_
  · rw [hEq]
    refine ⟨by rcases hNew with rfl | rfl <;> simp, ?_⟩
    rcases hPrompt with hNone | ⟨p, hSome, hUnopened⟩
    · simp only [hNone]
      exact .none hDenied
    · simp only [hSome]
      exact .unopened hUnopened hDenied
  · exact fun id hMem => absurd hMem (h.not_registered hOld hDeciding hClosing id)
  · rw [hEq]
    exact fun hApproved => absurd hApproved hDenied

theorem openedPrompt_waiting (h : WorkerIsLive route.session) {request : ConfirmationRequest}
    (hLive : route.stillLive request = true) : Waiting (route.openedPrompt request) := by
  obtain ⟨hRegistered, _, hConnected, hWorker⟩ := of_decide_eq_true hLive
  refine ⟨rfl, ⟨_, rfl, hRegistered, hConnected, h ?_, hWorker⟩, rfl, rfl, rfl, rfl, rfl⟩
  rw [hWorker]
  rfl

section

variable (h : route.Inv)
include h

theorem kept_present (hOld : route.exchanges token = some e)
    (hEarly : Early e.prompt e.frames e.raced e.settled) (hDeciding : e.phase ≠ .deciding)
    (hClosing : e.phase ≠ .closing) (request : ConfirmationRequest) (sends : Bool) :
    Kept route (route.present token e request sends) := by
  unfold present
  split
  · rename_i hLive
    have hWaiting := openedPrompt_waiting h.worker hLive
    have hOk : ExchangeOk
        { e with phase := .deciding, prompt := some (route.openedPrompt request) } :=
      ⟨hEarly.frames, _, rfl, .waiting hWaiting hEarly.settled (Or.inl hEarly.raced)⟩
    have hKept : ∀ e' : Exchange, ExchangeOk e' → e'.phase = .deciding → e'.frames = e.frames →
        e'.prompt.map (·.request) = some request →
        Kept route ({ route with
          prompts := assign route.prompts request.confirmationId token }.setExchange token e') := by
      intro e' hStage hPhase hFrames hRequest
      refine h.moves hOld ⟨rfl, rfl, id, fun hKeyed => hKeyed.assign _ _, ?_⟩ hStage ?_ ?_
      · intro entry hMem hToken
        rcases mem_assign hMem with hIn | rfl
        · exact hIn
        · exact absurd rfl hToken
      · intro id hMem
        rcases mem_assign hMem with hIn | hSame
        · exact absurd hIn (h.not_registered hOld hDeciding hClosing id)
        · have hId : id = request.confirmationId := (Prod.mk.injEq _ _ _ _ ▸ hSame).1
          cases hPrompt : e'.prompt with
          | none => rw [hPrompt] at hRequest; cases hRequest
          | some p =>
            rw [hPrompt] at hRequest
            have hIs : p.request = request := by simpa using hRequest
            exact ⟨Or.inl hPhase, p, hPrompt, by rw [hIs, hId]⟩
      · rw [hFrames, hEarly.frames]
        exact fun hApproved => absurd hApproved List.not_mem_nil
    have hDecided : ∀ decision reason, Kept route ({ route with
        prompts := assign route.prompts request.confirmationId token }.setExchange token
          ({ e with phase := .deciding, prompt := some (route.openedPrompt request) }.decidePrompt
            route.session route.channel.connected decision reason)) := by
      intro decision reason
      refine hKept _ (Exchange.decidePrompt_ok hOk hEarly.raced _ _ _ _) ?_ ?_ ?_
      · exact Exchange.decidePrompt_phase _ _ _ _ _
      · exact Exchange.decidePrompt_frames _ _ _ _ _
      · rw [Exchange.decidePrompt_prompt]
        exact congrArg some (decide_request _ _ _ _ _)
    dsimp only
    split
    · exact hKept _ hOk rfl rfl rfl
    · exact hDecided _ _
    · exact hDecided _ _
  · exact kept_refuse (e := { e with prompt := some (.construct request) }) h hOld hDeciding
      hClosing hEarly.frames (Or.inr ⟨_, rfl, ⟨rfl, Or.inl rfl⟩⟩) sends

theorem kept_finish_early {f e : Exchange} (hOld : route.exchanges token = some f)
    (hEarly : Early f.prompt f.frames f.raced f.settled) (hPrompt : e.prompt = f.prompt)
    (hFrames : e.frames = f.frames) (hWorker : WorkerIsLive route.session → WorkerIsLive session) :
    Kept route ((route.setSession session).finish token e) := by
  have hInv : (route.setSession session).Inv :=
    ⟨hWorker h.worker, h.keyed, h.known, h.stage, h.shown⟩
  obtain ⟨hMoves, hGone⟩ := finish_moves hInv token (e := e) hOld hPrompt
  have hOver : Over e.settled e.frames e.prompt := by
    rw [hPrompt, hFrames, hEarly.prompt, hEarly.frames]
    exact .none List.not_mem_nil
  refine h.moves hOld (hMoves.of_setSession hWorker) ?_ (fun id hMem => absurd hMem (hGone id)) ?_
  · unfold ExchangeOk
    rw [Exchange.cleaned_phase]
    refine ⟨?_, Exchange.over_cleaned (e := { e with phase := .done }) hOver _⟩
    rw [Exchange.cleaned_frames]
    show e.frames.length ≤ 1
    rw [hFrames, hEarly.frames]
    exact Nat.zero_le 1
  · rw [Exchange.cleaned_frames]
    show .approved ∈ e.frames → _
    rw [hFrames]
    exact Or.inl

theorem kept_early {e f : Exchange} (hOld : route.exchanges token = some e) (hStage : ExchangeOk f)
    (hDeciding : e.phase ≠ .deciding) (hClosing : e.phase ≠ .closing)
    (hFrames : f.frames = e.frames) (hWorker : WorkerIsLive route.session → WorkerIsLive session) :
    Kept route ((route.setExchange token f).setSession session) := by
  refine h.moves hOld ((moves_setExchange route token f).setSession hWorker) hStage ?_ ?_
  · exact fun id hMem => absurd hMem (h.not_registered hOld hDeciding hClosing id)
  · rw [hFrames]
    exact Or.inl

theorem kept_socket {e f : Exchange} (hOld : route.exchanges token = some e) (hStage : ExchangeOk f)
    (hPhase : f.phase = e.phase) (hPrompt : f.prompt = e.prompt) (hFrames : f.frames = e.frames)
    (hWorker : WorkerIsLive route.session → WorkerIsLive session) :
    Kept route ((route.setSession session).setExchange token f) := by
  refine h.moves hOld (((moves_setExchange route token f).setSession hWorker)) hStage ?_ ?_
  · intro id hMem
    have hShown := h.registered hOld hMem
    exact hShown.of_request (by rw [hPhase]; exact hShown.1) (by rw [hPrompt])
  · rw [hFrames]
    exact Or.inl

theorem kept_onRequest (hOld : route.exchanges token = some e) (hReading : e.phase = .reading)
    (request : ConfirmationRequest) (sends : Bool) :
    Kept route (route.onRequest token e request sends) := by
  have hDeciding : e.phase ≠ .deciding := by rw [hReading]; simp
  have hClosing : e.phase ≠ .closing := by rw [hReading]; simp
  have hEarly := early_of_reading (h.stage token e hOld) hReading
  unfold onRequest
  split
  · exact kept_refuse h hOld hDeciding hClosing hEarly.frames (Or.inl hEarly.prompt) sends
  split
  · exact kept_refuse h hOld hDeciding hClosing hEarly.frames (Or.inl hEarly.prompt) sends
  · exact kept_early h hOld
      (show ExchangeOk { e with phase := .holding request, strict := true } from hEarly)
      hDeciding hClosing rfl (fun hLive => WorkerIsLive.awaitWorkerIdentity hLive token _ _)

theorem kept_onFrame (hOld : route.exchanges token = some e) (frame : ConfirmationFrame)
    (sends : Bool) : Kept route (route.onFrame token e frame sends) := by
  have hStage := h.stage token e hOld
  unfold onFrame
  dsimp only
  split
  · rename_i hReading
    have hEarly := early_of_reading hStage hReading
    split
    · exact kept_finish_early h hOld hEarly e.closeSocket_prompt e.closeSocket_frames (fun hLive => hLive)
    · exact kept_onRequest h hOld hReading _ sends
  · split
    · exact kept_socket h hOld (Exchange.closeSocket_ok hStage) e.closeSocket_phase
        e.closeSocket_prompt e.closeSocket_frames (fun hLive => hLive)
    · exact ⟨h, fun n f hNew hApproved => ⟨f, hNew, Or.inl hApproved⟩⟩

theorem kept_give_up (hOld : route.exchanges token = some e) (hPhase : e.phase = .deciding)
    (hRaced : e.raced = some none) (detail : String) :
    Kept route (route.cleanup token { e.closeSocket with phase := .closing } detail) := by
  obtain ⟨hFrames, p, hPrompt, hDeciding⟩ := deciding_of_stage (h.stage token e hOld) hPhase
  obtain ⟨hMoves, hMem⟩ := route.cleanup_moves token { e.closeSocket with phase := .closing } detail
  rw [e.closeSocket_eq] at hMoves hMem ⊢
  obtain ⟨hSettled, _, p', hPrompt', hDropped⟩ := Exchange.deciding_cleaned
    (e := { e with socket := e.closeSocket.socket, phase := .closing }) hPrompt hDeciding
    (Or.inr hRaced) detail
  refine h.moves hOld hMoves ?_ ?_ ?_
  · unfold ExchangeOk
    rw [Exchange.cleaned_phase, Exchange.cleaned_frames, hSettled, hPrompt', hFrames]
    exact ⟨Nat.zero_le 1, .dropped hDropped rfl List.not_mem_nil⟩
  · intro id hIn
    exact (h.registered hOld (hMem _ hIn)).of_request (Or.inr (Exchange.cleaned_phase _ _))
      (Exchange.cleaned_request _ _)
  · rw [Exchange.cleaned_frames]
    exact Or.inl

theorem kept_finish_over (hOld : route.exchanges token = some e) (hPhase : e.phase = .closing) :
    Kept route (route.finish token e) := by
  obtain ⟨hMoves, hGone⟩ := finish_moves h token hOld rfl
  have hStage := h.stage token e hOld
  unfold ExchangeOk at hStage
  rw [hPhase] at hStage
  refine h.moves hOld hMoves ?_ (fun id hMem => absurd hMem (hGone id)) ?_
  · unfold ExchangeOk
    rw [Exchange.cleaned_phase]
    refine ⟨?_, Exchange.over_cleaned (e := { e with phase := .done }) hStage.2 _⟩
    rw [Exchange.cleaned_frames]
    exact hStage.1
  · rw [Exchange.cleaned_frames]
    exact Or.inl

theorem kept_answer (hOld : route.exchanges token = some e) (hDeciding : e.phase = .deciding)
    {p : PendingConfirmation} {outcome : DecisionOutcome} (hPrompt : e.prompt = some p)
    (hRaced : e.raced = some (some outcome)) (sends : Bool) :
    Kept route (route.answer token e p outcome sends) := by
  obtain ⟨hFrames, q, hSome, hIs⟩ := deciding_of_stage (h.stage token e hOld) hDeciding
  rw [hPrompt, Option.some.injEq] at hSome
  subst hSome
  have hAnswered : Answered p outcome := by
    cases hIs with
    | waiting hWaiting hSettled hOpen => rw [hRaced] at hOpen; simp at hOpen
    | answered hAnswered hSettled hSome =>
      rw [hRaced, Option.some.injEq, Option.some.injEq] at hSome
      exact hSome ▸ hAnswered
    | dropped hDropped hNone => rw [hRaced] at hNone; simp at hNone
  unfold answer
  dsimp only
  obtain ⟨socket, frames, hEq, hNew⟩ := Exchange.sendDecision_eq
    { e with settled := true, prompt := some { p with observed := false,
                                                      settledCalls := p.settledCalls + 1 } }
    (if runAuthorized route.session route.channel.connected p.request then outcome.decision
      else .denied) sends
  rw [hEq]
  simp only [hFrames, List.nil_append] at hNew
  refine h.moves hOld (route.moves_setExchange token _) ?_ ?_ ?_
  · refine ⟨by rcases hNew with rfl | rfl <;> simp, .delivered ?_ rfl⟩
    exact ⟨hAnswered.state, hAnswered.opened, by rw [hAnswered.calls]⟩
  · intro id hMem
    exact (h.registered hOld hMem).of_request (Or.inr rfl) (by rw [hPrompt]; rfl)
  · intro hApproved
    refine Or.inr ⟨p, outcome, hPrompt, hRaced, ?_⟩
    rcases hNew with rfl | rfl
    · cases hApproved
    · have hWritten := (List.mem_singleton.mp hApproved).symm
      split at hWritten
      · rename_i hAuthorized
        exact ⟨hWritten, hAnswered, hAuthorized⟩
      · cases hWritten

theorem kept_onResume (hOld : route.exchanges token = some e) {sends : Bool}
    (hStep : route.onResume token e sends = some next) : Kept route next := by
  have hStage := h.stage token e hOld
  unfold onResume at hStep
  split at hStep
  · cases hStep
  · rename_i request hPhase
    have hEarly := early_of_holding hStage hPhase
    have hDeciding : e.phase ≠ .deciding := by rw [hPhase]; simp
    have hClosing : e.phase ≠ .closing := by rw [hPhase]; simp
    split at hStep
    · cases hStep
    · cases hStep
      exact kept_refuse h hOld hDeciding hClosing hEarly.frames (Or.inl hEarly.prompt) sends
    · split at hStep
      · cases hStep
        exact kept_early h hOld (show ExchangeOk { e with phase := .authorizing _ _ } from hEarly)
          hDeciding hClosing rfl (fun hLive => hLive)
      · cases hStep
        exact kept_present h hOld hEarly hDeciding hClosing request sends
  · cases hStep
  · rename_i request hPhase
    have hEarly := early_of_authorizing hStage hPhase
    cases hStep
    exact kept_refuse h hOld (by rw [hPhase]; simp) (by rw [hPhase]; simp) hEarly.frames
      (Or.inl hEarly.prompt) sends
  · rename_i request hPhase
    cases hStep
    exact kept_present h hOld (early_of_authorizing hStage hPhase) (by rw [hPhase]; simp)
      (by rw [hPhase]; simp) request sends
  · rename_i hPhase
    split at hStep
    · rename_i hRaced
      cases hStep
      exact kept_give_up h hOld hPhase hRaced _
    · rename_i outcome p hRaced hPrompt
      cases hStep
      exact kept_answer h hOld hPhase hPrompt hRaced sends
    · cases hStep
  · rename_i hPhase
    split at hStep
    · cases hStep
      exact kept_finish_over h hOld hPhase
    · cases hStep
  · cases hStep

/-- Where no continuation is due, every race is still open. -/
theorem Inv.undisturbed (hQuiet : ¬route.accepted.any route.ready = true)
    (hOld : route.exchanges token = some e) : Undisturbed e := by
  have hNot : ¬route.ready token = true := fun hReady =>
    hQuiet (List.any_eq_true.mpr ⟨token, h.known token e hOld, hReady⟩)
  unfold Undisturbed
  split
  · rename_i hPhase
    simp only [ready, hOld, Option.any_some, hPhase] at hNot
    simpa using hNot
  · trivial

theorem kept_session (hWorker : WorkerIsLive next.session) (hPrompts : next.prompts = route.prompts)
    (hExchanges : next.exchanges = route.exchanges) (hAccepted : next.accepted = route.accepted) :
    Kept route next := by
  refine ⟨⟨hWorker, by rw [hPrompts]; exact h.keyed, ?_, ?_, ?_⟩, ?_⟩
  · rw [hExchanges, hAccepted]
    exact h.known
  · rw [hExchanges]
    exact h.stage
  · rw [hExchanges, hPrompts]
    exact h.shown
  · intro n f hNew hApproved
    rw [hExchanges] at hNew
    exact ⟨f, hNew, Or.inl hApproved⟩

theorem kept_onSocketClosed (hOld : route.exchanges token = some e) (hUndisturbed : Undisturbed e) :
    Kept route (route.onSocketClosed token e) := by
  have hStage := h.stage token e hOld
  unfold onSocketClosed
  dsimp only
  split
  · rename_i hPhase
    exact kept_finish_early (e := { e with socket := .closed }) h hOld
      (early_of_reading hStage hPhase) rfl rfl (fun hLive => hLive)
  · rename_i request hPhase
    have hEarly := early_of_authorizing hStage hPhase
    exact kept_early h hOld
      (show ExchangeOk { e with socket := .closed, phase := .authorizing _ _ } from hEarly)
      (by rw [hPhase]; simp) (by rw [hPhase]; simp) rfl (fun hLive => hLive)
  · rename_i hPhase
    obtain ⟨hFrames, p, hPrompt, hDeciding⟩ := deciding_of_stage hStage hPhase
    have hRaced : e.raced = none := by
      unfold Undisturbed at hUndisturbed
      rw [hPhase] at hUndisturbed
      exact hUndisturbed
    rw [Exchange.resolveRace_of_none (by exact hRaced)]
    refine kept_socket (f := { e with socket := .closed, raced := some none }) h hOld ?_ rfl rfl rfl
      (fun hLive => hLive)
    unfold ExchangeOk
    rw [hPhase]
    refine ⟨hFrames, p, hPrompt, ?_⟩
    cases hDeciding with
    | waiting hWaiting hSettled _ => exact .waiting hWaiting hSettled (Or.inr rfl)
    | answered _ _ hSome | dropped _ hSome => rw [hRaced] at hSome; cases hSome
  · exact kept_socket h hOld (show ExchangeOk { e with socket := .closed } from hStage) rfl rfl rfl
      (fun hLive => hLive)

theorem kept_deadline (hOld : route.exchanges token = some e) (hUndisturbed : Undisturbed e)
    (detail : String) (hArmed : e.prompt.any (·.deadlineArmed) = true) :
    Kept route (route.cleanup token e.closeSocket detail) := by
  obtain ⟨hMoves, hMem⟩ := route.cleanup_moves token e.closeSocket detail
  have hStage := Exchange.closeSocket_ok (h.stage token e hOld)
  have hFrames : (e.closeSocket.cleaned detail).frames = e.frames := by
    rw [Exchange.cleaned_frames, e.closeSocket_frames]
  have hPhase : (e.closeSocket.cleaned detail).phase = e.phase := by
    rw [Exchange.cleaned_phase, e.closeSocket_phase]
  have hRequest : (e.closeSocket.cleaned detail).prompt.map (·.request) =
      e.prompt.map (·.request) := by
    rw [Exchange.cleaned_request, e.closeSocket_prompt]
  refine h.moves hOld hMoves ?_ ?_ (by rw [hFrames]; exact Or.inl)
  · rw [e.closeSocket_eq]
    refine Exchange.cleaned_ok (e := { e with socket := e.closeSocket.socket })
      (h.stage token e hOld) hUndisturbed ?_ detail
    intro hNone
    have hAbsent : e.prompt = none := hNone
    rw [hAbsent] at hArmed
    cases hArmed
  · intro id hIn
    have hShown := h.registered hOld (hMem _ hIn)
    exact hShown.of_request (by rw [hPhase]; exact hShown.1) hRequest

theorem kept_map (g : Nat → Exchange → Exchange)
    (hStage : ∀ n e, route.exchanges n = some e → ExchangeOk (g n e))
    (hSame : ∀ n e, (g n e).phase = e.phase ∧ (g n e).frames = e.frames ∧ (g n e).prompt.map (·.request) = e.prompt.map (·.request))
    (hExchanges : ∀ n, next.exchanges n = (route.exchanges n).map (g n))
    (hSession : next.session = route.session) (hAccepted : next.accepted = route.accepted)
    (hKeyed : Keyed next.prompts) (hPrompts : ∀ entry ∈ next.prompts, entry ∈ route.prompts) :
    Kept route next := by
  have hFind : ∀ n e', next.exchanges n = some e' →
      ∃ e, route.exchanges n = some e ∧ g n e = e' := by
    intro n e' hNew
    rw [hExchanges] at hNew
    exact Option.map_eq_some_iff.mp hNew
  refine ⟨⟨by rw [hSession]; exact h.worker, hKeyed, ?_, ?_, ?_⟩, ?_⟩
  · intro n e' hNew
    obtain ⟨e, hOld, _⟩ := hFind n e' hNew
    rw [hAccepted]
    exact h.known n e hOld
  · intro n e' hNew
    obtain ⟨e, hOld, rfl⟩ := hFind n e' hNew
    exact hStage n e hOld
  · intro id n hMem
    obtain ⟨e, hOld, hShown⟩ := h.shown id n (hPrompts _ hMem)
    refine ⟨g n e, by rw [hExchanges, hOld]; rfl, ?_⟩
    exact hShown.of_request (by rw [(hSame n e).1]; exact hShown.1) (hSame n e).2.2
  · intro n e' hNew hApproved
    obtain ⟨e, hOld, rfl⟩ := hFind n e' hNew
    exact ⟨e, hOld, Or.inl (by rw [(hSame n e).2.1] at hApproved; exact hApproved)⟩

end

def retireShown (route : ConfirmationRoute) (detail : String) (n : Nat) (e : Exchange) : Exchange :=
  if n ∈ route.prompts.map Prod.snd then e.retirePrompt detail else e

theorem retireShown_same (route : ConfirmationRoute) (detail : String) (n : Nat) (e : Exchange) :
    (route.retireShown detail n e).phase = e.phase ∧ (route.retireShown detail n e).frames = e.frames ∧
      (route.retireShown detail n e).prompt.map (·.request) = e.prompt.map (·.request) := by
  unfold retireShown
  split
  · refine ⟨e.retirePrompt_phase detail, e.retirePrompt_frames detail, ?_⟩
    rw [Exchange.retirePrompt_prompt, Option.map_map]
    congr 1
    funext p
    exact retire_request p detail
  · exact ⟨rfl, rfl, rfl⟩

theorem retireShown_ok (route : ConfirmationRoute) (detail : String) (n : Nat) (h : ExchangeOk e)
    (hUndisturbed : Undisturbed e) : ExchangeOk (route.retireShown detail n e) := by
  unfold retireShown
  split
  · exact Exchange.retirePrompt_ok h hUndisturbed detail
  · exact h

theorem forPrompts_exchanges (route : ConfirmationRoute) (detail : String) (n : Nat) :
    (route.forPrompts (·.retirePrompt detail)).exchanges n =
      (route.exchanges n).map (route.retireShown detail n) := by
  unfold forPrompts retireShown
  dsimp only
  split
  · rfl
  · simp

section

variable (h : route.Inv)
include h

theorem kept_retireAll (hUndisturbed : ∀ n e, route.exchanges n = some e → Undisturbed e)
    (detail : String) : Kept route (route.forPrompts (·.retirePrompt detail)) :=
  kept_map h (route.retireShown detail)
    (fun n e hOld => route.retireShown_ok detail n (h.stage n e hOld) (hUndisturbed n e hOld))
    (fun n e => route.retireShown_same detail n e) (fun n => route.forPrompts_exchanges detail n)
    rfl rfl h.keyed (fun _ hMem => hMem)

theorem kept_shutdown {now : Nat} (hUndisturbed : ∀ n e, route.exchanges n = some e → Undisturbed e)
    (hStep : route.onEvent now .shutdown = some next) : Kept route next := by
  simp only [onEvent, Option.some.injEq] at hStep
  subst hStep
  refine kept_map h (fun n e => (route.retireShown "the hub is shutting down" n e).closeSocket)
    ?_ ?_ ?_ rfl rfl List.nodup_nil (fun _ hMem => absurd hMem List.not_mem_nil)
  · intro n e hOld
    exact Exchange.closeSocket_ok
      (route.retireShown_ok _ n (h.stage n e hOld) (hUndisturbed n e hOld))
  · intro n e
    obtain ⟨hPhase, hFrames, hRequest⟩ := route.retireShown_same "the hub is shutting down" n e
    exact ⟨by rw [Exchange.closeSocket_phase, hPhase], by rw [Exchange.closeSocket_frames, hFrames],
      by rw [Exchange.closeSocket_prompt, hRequest]⟩
  · intro n
    dsimp only
    rw [forPrompts_exchanges, Option.map_map]
    rfl

theorem kept_accepted (hNew : route.exchanges token = none) :
    Kept route { route.setExchange token .accept with accepted := route.accepted ++ [token] } := by
  have hFind : ∀ n e', (route.setExchange token .accept).exchanges n = some e' →
      (n = token ∧ e' = .accept) ∨ (n ≠ token ∧ route.exchanges n = some e') := by
    intro n e' hSome
    unfold setExchange at hSome
    dsimp only at hSome
    split at hSome
    · exact Or.inl ⟨‹_›, (Option.some.inj hSome).symm⟩
    · exact Or.inr ⟨‹_›, hSome⟩
  refine ⟨⟨h.worker, h.keyed, ?_, ?_, ?_⟩, ?_⟩
  · intro n e' hSome
    rcases hFind n e' hSome with ⟨rfl, _⟩ | ⟨_, hOld⟩
    · exact List.mem_append_right _ (List.mem_singleton_self n)
    · exact List.mem_append_left _ (h.known n e' hOld)
  · intro n e' hSome
    rcases hFind n e' hSome with ⟨_, rfl⟩ | ⟨_, hOld⟩
    · exact ⟨rfl, rfl, rfl, rfl⟩
    · exact h.stage n e' hOld
  · intro id n hMem
    obtain ⟨e, hOld, hShown⟩ := h.shown id n hMem
    refine ⟨e, ?_, hShown⟩
    unfold setExchange
    dsimp only
    rw [if_neg, hOld]
    rintro rfl
    rw [hNew] at hOld
    cases hOld
  · intro n e' hSome hApproved
    rcases hFind n e' hSome with ⟨_, rfl⟩ | ⟨_, hOld⟩
    · cases hApproved
    · exact ⟨e', hOld, Or.inl hApproved⟩

/-- An operator answers. -/
theorem kept_decide (hOld : route.exchanges token = some e) (hUndisturbed : Undisturbed e)
    (decision : String) (reason : Option String) : Kept route (route.setExchange token
      (e.decidePrompt route.session route.channel.connected decision reason)) := by
  refine h.moves hOld (route.moves_setExchange token _)
    (Exchange.decidePrompt_ok (h.stage token e hOld) hUndisturbed _ _ _ _) ?_ ?_
  · intro id hMem
    have hShown := h.registered hOld hMem
    refine hShown.of_request (by rw [Exchange.decidePrompt_phase]; exact hShown.1) ?_
    rw [Exchange.decidePrompt_prompt, Option.map_map]
    congr 1
    funext p
    exact decide_request _ _ _ _ _
  · rw [Exchange.decidePrompt_frames]
    exact Or.inl

theorem kept_onEvent {now : Nat} {input : ConfirmationInput}
    (hQuiet : ¬(waits input = true ∧ route.accepted.any route.ready = true))
    (hStep : route.onEvent now input = some next) : Kept route next := by
  have hUndisturbed (hWaits : waits input = true) (n : Nat) (e : Exchange)
      (hOld : route.exchanges n = some e) :=
    h.undisturbed (fun hReady => hQuiet ⟨hWaits, hReady⟩) hOld
  cases input with
  | channel i =>
    simp only [onEvent, Option.map_eq_some_iff] at hStep
    obtain ⟨channel, hChannel, rfl⟩ := hStep
    exact kept_session h (WorkerIsLive.step h.worker hChannel) rfl rfl rfl
  | setClosing closing | setRegistered registered | setPolicy policy | holdExpired token =>
    cases hStep
    exact kept_session h h.worker rfl rfl rfl
  | accepted token =>
    simp only [onEvent] at hStep
    split at hStep
    · cases hStep
    · rename_i hNew
      cases hStep
      simp only [not_or, Option.not_isSome_iff_eq_none] at hNew
      exact kept_accepted h hNew.1
  | frame token frame sends =>
    simp only [onEvent, Option.bind_eq_some_iff] at hStep
    obtain ⟨e, hOld, hStep⟩ := hStep
    split at hStep
    · cases hStep
    · cases hStep
      exact kept_onFrame h hOld frame sends
  | socketClosing token =>
    simp only [onEvent, Option.map_eq_some_iff] at hStep
    obtain ⟨e, hOld, rfl⟩ := hStep
    exact kept_socket h hOld (Exchange.closeSocket_ok (h.stage token e hOld)) e.closeSocket_phase
      e.closeSocket_prompt e.closeSocket_frames (fun hLive => hLive)
  | socketClosed token =>
    simp only [onEvent, Option.bind_eq_some_iff] at hStep
    obtain ⟨e, hOld, hStep⟩ := hStep
    split at hStep
    · cases hStep
    · cases hStep
      exact kept_onSocketClosed h hOld (hUndisturbed rfl token e hOld)
  | poll token timedOut =>
    simp only [onEvent, Option.bind_eq_some_iff] at hStep
    obtain ⟨e, hOld, hStep⟩ := hStep
    split at hStep
    · rename_i request hPhase
      cases hStep
      have hEarly := early_of_authorizing (h.stage token e hOld) hPhase
      exact kept_early h hOld (show ExchangeOk { e with phase := .authorizing _ _ } from hEarly)
        (by rw [hPhase]; simp) (by rw [hPhase]; simp) rfl (fun hLive => hLive)
    · cases hStep
  | deadline token =>
    simp only [onEvent, Option.bind_eq_some_iff] at hStep
    obtain ⟨e, hOld, hStep⟩ := hStep
    split at hStep
    · rename_i hArmed
      cases hStep
      exact kept_deadline h hOld (hUndisturbed rfl token e hOld) _ hArmed
    · cases hStep
  | decide confirmationId decision reason =>
    simp only [onEvent] at hStep
    split at hStep
    · cases hStep
      exact kept_session h h.worker rfl rfl rfl
    · rename_i token hFound
      obtain ⟨e, hOld, rfl⟩ := Option.map_eq_some_iff.mp hStep
      exact kept_decide h hOld (hUndisturbed rfl token e hOld) decision reason
  | retireAll detail =>
    cases hStep
    exact kept_retireAll h (hUndisturbed rfl) detail
  | shutdown => exact kept_shutdown h (hUndisturbed rfl) hStep
  | resume token sends => cases hStep

theorem kept_step {input : Nat × ConfirmationInput} (hStep : route.step input = some next) :
    Kept route next := by
  unfold step at hStep
  split at hStep
  · rename_i token sends hInput
    obtain ⟨e, hOld, hResume⟩ := Option.bind_eq_some_iff.mp hStep
    exact kept_onResume h hOld hResume
  · split at hStep
    · cases hStep
    · rename_i hQuiet
      exact kept_onEvent h hQuiet hStep

end

theorem inv_start (id : String) (kind : SessionKind) (identityHoldMs timeoutMs : Nat) :
    (start id kind identityHoldMs timeoutMs).Inv := by
  refine ⟨(fun hSome => by cases hSome), List.nodup_nil, ?_, ?_, ?_⟩
  · exact fun _ _ hSome => by cases hSome
  · exact fun _ _ hSome => by cases hSome
  · exact fun _ _ hMem => absurd hMem List.not_mem_nil

/-! ## Whole runs -/

/-- When an approval may be written on a connection: its prompt was opened for the live worker
of the registered, connected session; exactly one approval succeeded on it, and nothing else
settled it; and a headless session still runs what it was asked for. -/
def MayApprove (route : ConfirmationRoute) (e : Exchange) : Prop :=
  ∃ p, e.prompt = some p ∧ WellOpened p ∧ p.state = .decided ∧ p.approvals = 1 ∧ p.denials = 0 ∧
    p.settledCalls = 0 ∧
    (route.session.kind = .headless →
      route.session.closing = false ∧ route.channel.connected = true ∧
        route.session.identity.state = .live ∧
        route.session.identity.workerId = some p.request.workerId ∧
        route.session.activeRunId = p.request.runId)

/-- `onSettled` is called once for an opened prompt: until then it is being decided, and its
deadline or its continuation is pending; once the exchange is over it was called, and the
prompt is not registered. -/
def SettledOnce (route : ConfirmationRoute) (token : Nat) (e : Exchange) (p : PendingConfirmation) :
    Prop :=
  p.settledCalls ≤ 1 ∧ (p.settledCalls = 0 →
      e.phase = .deciding ∧ (p.deadlineArmed = true ∨ route.ready token = true)) ∧
    (e.phase = .done → p.settledCalls = 1 ∧ ∀ id, (id, token) ∉ route.prompts)

/-- What a step of the route should keep. -/
structure DecisionSound (route : ConfirmationRoute) (_ : Nat × ConfirmationInput)
    (next : ConfirmationRoute) : Prop where
  once : ∀ token e, next.exchanges token = some e → e.frames.length ≤ 1
  approved : ∀ token e', next.exchanges token = some e' → .approved ∈ e'.frames →
    ∃ e, route.exchanges token = some e ∧ (.approved ∈ e.frames ∨ route.MayApprove e)
  settled : ∀ token e p, next.exchanges token = some e → e.prompt = some p → p.opening ≠ none →
    SettledOnce next token e p

theorem Earned.mayApprove (h : route.Earned e) : route.MayApprove e := by
  obtain ⟨p, outcome, hPrompt, _, hApproved, hAnswered, hAuthorized⟩ := h
  refine ⟨p, hPrompt, hAnswered.opened, hAnswered.state, ?_, ?_, hAnswered.calls, ?_⟩
  · rw [hAnswered.approvals, hApproved]
    rfl
  · rw [hAnswered.denials, hApproved]
    rfl
  · intro hKind
    rcases of_decide_eq_true hAuthorized with hOther | hHolds
    · exact absurd hKind hOther
    · exact hHolds

theorem Inv.frames_le (h : route.Inv) (hOld : route.exchanges token = some e) :
    e.frames.length ≤ 1 := by
  have hStage := h.stage token e hOld
  unfold ExchangeOk at hStage
  split at hStage
  · rw [hStage.frames]; exact Nat.zero_le 1
  · rw [hStage.frames]; exact Nat.zero_le 1
  · rw [hStage.frames]; exact Nat.zero_le 1
  · rw [hStage.1]; exact Nat.zero_le 1
  · exact hStage.1
  · exact hStage.1

theorem Inv.settledOnce (h : route.Inv) {p : PendingConfirmation}
    (hOld : route.exchanges token = some e) (hPrompt : e.prompt = some p)
    (hOpening : p.opening ≠ none) : SettledOnce route token e p := by
  have hStage := h.stage token e hOld
  unfold ExchangeOk at hStage
  rw [hPrompt] at hStage
  cases hPhase : e.phase with
  | reading | holding request | authorizing request verified =>
    rw [hPhase] at hStage; cases hStage.prompt
  | deciding =>
    have hNotDone : e.phase ≠ .done := by rw [hPhase]; simp
    obtain ⟨_, q, hSome, hDeciding⟩ := deciding_of_stage (h.stage token e hOld) hPhase
    rw [hPrompt, Option.some.injEq] at hSome
    subst hSome
    cases hDeciding with
    | waiting hWaiting _ _ =>
      exact ⟨by rw [hWaiting.calls]; omega, fun _ => ⟨hPhase, Or.inl hWaiting.armed⟩,
        fun hDone => absurd hDone hNotDone⟩
    | answered hAnswered _ hRaced =>
      refine ⟨by rw [hAnswered.calls]; omega, fun _ => ⟨hPhase, Or.inr ?_⟩,
        fun hDone => absurd hDone hNotDone⟩
      simp [ready, hOld, hPhase, hRaced]
    | dropped hDropped _ =>
      have hCalls := hDropped.calls
      exact ⟨by omega, by omega, fun hDone => absurd hDone hNotDone⟩
  | closing =>
    rw [hPhase] at hStage
    have hCalls := over_calls hStage.2 hOpening
    have hNotDone : e.phase ≠ .done := by rw [hPhase]; simp
    exact ⟨by omega, by omega, fun hDone => absurd hDone hNotDone⟩
  | done =>
    rw [hPhase] at hStage
    have hCalls := over_calls hStage.2 hOpening
    refine ⟨by omega, by omega, fun _ => ⟨hCalls, fun id => ?_⟩⟩
    exact h.not_registered hOld (by rw [hPhase]; simp) (by rw [hPhase]; simp) id

/-- Whatever comes in between, a connection is told at most one decision, an approval only
where it may be, and the observer of an opened prompt is told exactly once. -/
theorem confirmation_decisions (id : String) (kind : SessionKind) (identityHoldMs timeoutMs : Nat)
    (inputs : List (Nat × ConfirmationInput)) :
    Along ConfirmationRoute.step DecisionSound (start id kind identityHoldMs timeoutMs) inputs := by
  refine along_of_invariant (P := Inv) ?_ ?_ (inv_start id kind identityHoldMs timeoutMs)
  · exact fun route input next hInv hStep => (kept_step hInv hStep).inv
  · intro route input next hInv hStep
    have hKept := kept_step hInv hStep
    refine ⟨fun token e hNew => hKept.inv.frames_le hNew, ?_, ?_⟩
    · intro token e' hNew hApproved
      obtain ⟨e, hOld, hWas⟩ := hKept.justified token e' hNew hApproved
      exact ⟨e, hOld, hWas.imp_right Earned.mayApprove⟩
    · exact fun token e p hNew hPrompt hOpening => hKept.inv.settledOnce hNew hPrompt hOpening

/-- A confirmation request of the worker `w` in the run `r`. -/
def sampleRequest (confirmationId : String) : ConfirmationFrame :=
  .text (some (.obj [("type", .str "confirmation_request"),
    ("data", .obj [("worker_id", .str "w"), ("session_id", .str "s"), ("run_id", .str "r"),
      ("confirmation_id", .str confirmationId), ("call", .obj [])])]))

/-- An answered prompt stays registered after its observer was told: its identifier still
belongs to it, until the socket has closed. -/
theorem settled_prompt_registered :
    ∃ route, run ConfirmationRoute.step (start "s" .ordinary 1000 60000)
        [(0, .channel (.opened 0)), (1, .channel (.message 0 (.event (statusOf "s" "w")))),
          (2, .accepted 7), (3, .frame 7 (sampleRequest "c") true), (3, .resume 7 true),
          (4, .decide "c" "approved" (some "")), (4, .resume 7 true)] = some route ∧
      route.prompts = [("c", 7)] ∧
      ∃ e p, route.exchanges 7 = some e ∧ e.prompt = some p ∧ p.settledCalls = 1 ∧
        e.frames = [.approved] :=
  ⟨_, rfl, rfl, _, _, rfl, rfl, rfl, rfl⟩

end ConfirmationRoute

end SimplexAgent.Hub
