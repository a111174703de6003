import Mathlib.Data.Finset.Card
import SimplexAgent.Hub.ConfirmationRun

/-!
# The table of open prompts

A request is checked against the table of prompts when it is read: there is room for one
more, and its identifier is free. It is entered into the table when the identity of its
worker is known, which may be much later, and neither check is made again then. So requests
that wait at the same time may displace one another, or be too many.

Nothing else can go wrong: `open_prompts_iff` says that the open prompts of a session are at
most as many as allowed, have distinct identifiers and are found under them in a run, if and
only if no request is entered in such a situation.
-/

namespace SimplexAgent.Hub

open Verified Verified.KeyedTable Verified.Runs

namespace ConfirmationRoute

def openPrompt? (route : ConfirmationRoute) (token : Nat) : Option PendingConfirmation :=
  ((route.exchanges token).bind (·.prompt)).filter fun p => p.state = .decision

def openPrompts (route : ConfirmationRoute) : Finset Nat :=
  route.accepted.toFinset.filter fun token => (route.openPrompt? token).isSome

/-- The open prompts of a session: not too many, one per identifier, and each of them the one
that an operator's decision under its identifier is about. -/
structure PromptsSound (route : ConfirmationRoute) : Prop where
  room : route.openPrompts.card ≤ promptCapacity
  distinct : ∀ token token' p p', route.openPrompt? token = some p →
    route.openPrompt? token' = some p' →
    p.request.confirmationId = p'.request.confirmationId → token = token'
  reached : ∀ token p, route.openPrompt? token = some p →
    route.prompts.lookup p.request.confirmationId = some token

/-- The request that an input enters into the table: the wait for its worker, and for the
run of a headless session, ended well, and the worker is still the live one. -/
def entered (route : ConfirmationRoute) : ConfirmationInput → Option ConfirmationRequest
  | .resume token _ =>
    (route.exchanges token).bind fun e =>
      match e.phase with
      | .holding request =>
        match route.session.verdicts.lookup token with
        | some (.ok _) =>
          if route.session.kind ≠ .headless ∧ route.stillLive request = true then some request
          else none
        | _ => none
      | .authorizing request (some true) =>
        if route.stillLive request = true then some request else none
      | _ => none
  | _ => none

/-- A request is entered although an open prompt has its identifier, or although it is to be
asked about and there is no room. -/
def Overbooks (route : ConfirmationRoute) (input : Nat × ConfirmationInput) : Prop :=
  ∃ request, route.entered input.2 = some request ∧ ((∃ token p, route.openPrompt? token = some p ∧
        p.request.confirmationId = request.confirmationId) ∨
      (route.effectivePolicy = .ask ∧ promptCapacity ≤ route.openPrompts.card))

/-! ## Open prompts -/

variable {route next : ConfirmationRoute} {token : Nat} {e : Exchange} {p : PendingConfirmation}
variable {route : ConfirmationRoute} {e f : Exchange}

theorem openPrompt_eq_some : route.openPrompt? token = some p ↔
      ∃ e, route.exchanges token = some e ∧ e.prompt = some p ∧ p.state = .decision := by
  unfold openPrompt?
  rw [Option.filter_eq_some_iff, Option.bind_eq_some_iff]
  simp only [decide_eq_true_eq]
  constructor
  · rintro ⟨⟨e, hOld, hPrompt⟩, hState⟩
    exact ⟨e, hOld, hPrompt, hState⟩
  · rintro ⟨e, hOld, hPrompt, hState⟩
    exact ⟨⟨e, hOld, hPrompt⟩, hState⟩

theorem mem_openPrompts (h : route.Inv) :
    token ∈ route.openPrompts ↔ ∃ p, route.openPrompt? token = some p := by
  unfold openPrompts
  rw [Finset.mem_filter, List.mem_toFinset, Option.isSome_iff_exists]
  constructor
  · exact fun hMem => hMem.2
  · rintro ⟨p, hOpen⟩
    obtain ⟨e, hOld, _⟩ := openPrompt_eq_some.mp hOpen
    exact ⟨h.known token e hOld, p, hOpen⟩

theorem Inv.deciding_of_open (h : route.Inv) (hOld : route.exchanges token = some e)
    (hPrompt : e.prompt = some p) (hState : p.state = .decision) :
    e.phase = .deciding ∧ e.settled = false := by
  have hStage := h.stage token e hOld
  have hNotOver : ¬Over e.settled e.frames e.prompt := by
    rw [hPrompt]
    intro hOver
    cases hOver with
    | unopened hUnopened _ =>
      rcases hUnopened.state with hIs | hIs <;> rw [hState] at hIs <;> cases hIs
    | delivered hDelivered _ => rw [hDelivered.state] at hState; cases hState
    | dropped hDropped _ _ => rw [hDropped.state] at hState; cases hState
  unfold ExchangeOk at hStage
  cases hPhase : e.phase with
  | reading | holding request | authorizing request verified =>
    rw [hPhase, hPrompt] at hStage; cases hStage.prompt
  | closing | done => rw [hPhase] at hStage; exact absurd hStage.2 hNotOver
  | deciding =>
    obtain ⟨_, q, hSome, hDeciding⟩ := deciding_of_stage (h.stage token e hOld) hPhase
    rw [hPrompt, Option.some.injEq] at hSome
    subst hSome
    cases hDeciding with
    | waiting _ hSettled _ => exact ⟨rfl, hSettled⟩
    | answered hAnswered _ _ => rw [hAnswered.state] at hState; cases hState
    | dropped hDropped _ => rw [hDropped.state] at hState; cases hState

/-! ## Steps that enter no request -/

theorem retire_not_open (p : PendingConfirmation) (detail : String) :
    (p.retire detail).state ≠ .decision := by
  unfold PendingConfirmation.retire
  split
  · rename_i hSettled
    rcases hSettled with hIs | hIs <;> rw [hIs] <;> simp
  · simp

theorem decide_of_still_open {session : Session} {connected : Bool} {decision : String}
    {reason : Option String}
    (h : (p.decide session connected decision reason).2.state = .decision) :
    (p.decide session connected decision reason).2 = p := by
  revert h
  unfold PendingConfirmation.decide
  split
  · exact fun _ => rfl
  split
  · exact fun _ => rfl
  split
  · exact fun _ => rfl
  split
  · exact fun _ => rfl
  · exact fun _ => rfl
  split
  · exact fun h => by cases h
  · exact fun h => absurd h (retire_not_open p _)

theorem cleaned_settled (e : Exchange) (detail : String) : (e.cleaned detail).settled = true := by
  unfold Exchange.cleaned
  split
  · assumption
  · unfold Exchange.retirePrompt
    split
    · rfl
    dsimp only
    split
    · rfl
    · exact (Exchange.resolveRace_fields _ _).2.2.2

/-- No prompt is opened, and what is open stays in its place. -/
structure Quiet (route next : ConfirmationRoute) : Prop where
  opens : ∀ n p, next.openPrompt? n = some p → route.openPrompt? n = some p
  stays : ∀ n p, next.openPrompt? n = some p → (p.request.confirmationId, n) ∈ route.prompts →
    (p.request.confirmationId, n) ∈ next.prompts

theorem quiet_of_replaced (hOld : route.exchanges token = some e)
    (hNew : next.exchanges = fun n => if n = token then some f else route.exchanges n)
    (hOthers : ∀ entry ∈ route.prompts, entry.2 ≠ token → entry ∈ next.prompts)
    (hOwn : ∀ p, f.prompt = some p → p.state = .decision → e.prompt = some p ∧ next.prompts = route.prompts) :
    Quiet route next := by
  have hFind : ∀ n p, next.openPrompt? n = some p →
      (n = token ∧ f.prompt = some p ∧ p.state = .decision) ∨
        (n ≠ token ∧ route.openPrompt? n = some p) := by
    intro n p hOpen
    obtain ⟨g, hFound, hPrompt, hState⟩ := openPrompt_eq_some.mp hOpen
    rw [hNew] at hFound
    by_cases hToken : n = token
    · have hSame : f = g := by simpa [hToken] using hFound
      exact Or.inl ⟨hToken, hSame ▸ hPrompt, hState⟩
    · exact Or.inr ⟨hToken, openPrompt_eq_some.mpr
        ⟨g, by simpa [hToken] using hFound, hPrompt, hState⟩⟩
  constructor
  · intro n p hOpen
    rcases hFind n p hOpen with ⟨rfl, hPrompt, hState⟩ | ⟨_, hOpen⟩
    · exact openPrompt_eq_some.mpr ⟨e, hOld, (hOwn p hPrompt hState).1, hState⟩
    · exact hOpen
  · intro n p hOpen hMem
    rcases hFind n p hOpen with ⟨rfl, hPrompt, hState⟩ | ⟨hToken, _⟩
    · rw [(hOwn p hPrompt hState).2]
      exact hMem
    · exact hOthers _ hMem hToken

theorem Inv.not_open (h : route.Inv) (hOld : route.exchanges token = some e)
    (hPhase : e.phase ≠ .deciding) (hPrompt : e.prompt = some p) : p.state ≠ .decision :=
  fun hState => hPhase (h.deciding_of_open hOld hPrompt hState).1

theorem quiet_of_not_deciding (hInv : next.Inv) (hOld : route.exchanges token = some e)
    (hNew : next.exchanges = fun n => if n = token then some f else route.exchanges n)
    (hOthers : ∀ entry ∈ route.prompts, entry.2 ≠ token → entry ∈ next.prompts)
    (hPhase : f.phase ≠ .deciding) : Quiet route next := by
  refine quiet_of_replaced hOld hNew hOthers fun p hPrompt hState => ?_
  exact absurd hState (hInv.not_open (show next.exchanges token = some f by simp [hNew]) hPhase hPrompt)

section

variable (hKeyed : Keyed route.prompts)
include hKeyed

theorem removePrompt_others (token : Nat) (p : PendingConfirmation) :
    ∀ entry ∈ route.prompts, entry.2 ≠ token → entry ∈ (route.removePrompt token p).prompts := by
  intro entry hMem hToken
  unfold removePrompt
  split
  · rename_i hOwn
    refine mem_drop.mpr ⟨hMem, fun hId => hToken ?_⟩
    rw [← hId, (lookup_eq_some_iff hKeyed).mpr hMem, Option.some.injEq] at hOwn
    exact hOwn
  · exact hMem

theorem cleanup_others (token : Nat) (e : Exchange) (detail : String) :
    ∀ entry ∈ route.prompts, entry.2 ≠ token → entry ∈ (route.cleanup token e detail).prompts := by
  intro entry hMem hToken
  unfold cleanup
  split
  · exact hMem
  dsimp only
  split
  · exact hMem
  · exact removePrompt_others hKeyed token _ entry hMem hToken

theorem finish_others (token : Nat) (e : Exchange) :
    ∀ entry ∈ route.prompts, entry.2 ≠ token → entry ∈ (route.finish token e).prompts := by
  intro entry hMem hToken
  have hCleaned := cleanup_others hKeyed token { e with phase := .done }
    "the confirmation connection closed" entry hMem hToken
  unfold finish
  dsimp only
  split
  · exact hCleaned
  · exact removePrompt_others ((cleanup_moves _ _ _ _).1.keyed hKeyed) token _ entry hCleaned hToken

end

theorem finish_exchanges (route : ConfirmationRoute) (token : Nat) (e : Exchange) :
    (route.finish token e).exchanges = fun n => if n = token then
      some ({ e with phase := .done }.cleaned "the confirmation connection closed")
      else route.exchanges n := by
  have hMoves := (route.cleanup_moves token { e with phase := .done }
    "the confirmation connection closed").1
  unfold finish
  dsimp only
  split
  · exact hMoves.exchanges
  · exact (hMoves.removePrompt _).exchanges

theorem quiet_finish (h : route.Inv) (hOld : route.exchanges token = some f) (session : Session)
    (hInv : ((route.setSession session).finish token e).Inv) :
    Quiet route ((route.setSession session).finish token e) := by
  refine quiet_of_not_deciding hInv hOld (finish_exchanges (route.setSession session) token e)
    (finish_others (show Keyed (route.setSession session).prompts from h.keyed) token e) ?_
  rw [Exchange.cleaned_phase]
  simp

theorem quiet_refuse (hOld : route.exchanges token = some f) {sends : Bool}
    (hInv : (route.refuse token e sends).Inv) : Quiet route (route.refuse token e sends) :=
  quiet_of_not_deciding hInv hOld rfl (fun _ hMem _ => hMem) (by simp)

theorem quiet_setExchange (hOld : route.exchanges token = some e) (hPrompt : f.prompt = e.prompt)
    {session : Session} : Quiet route ((route.setSession session).setExchange token f) := by
  refine quiet_of_replaced hOld rfl (fun _ hMem _ => hMem) fun p hNew _ => ⟨?_, rfl⟩
  rw [← hPrompt]
  exact hNew

theorem quiet_onFrame (h : route.Inv) (hInv : next.Inv) (hOld : route.exchanges token = some e)
    {frame : ConfirmationFrame} {sends : Bool} (hNext : route.onFrame token e frame sends = next) :
    Quiet route next := by
  unfold onFrame at hNext
  dsimp only at hNext
  split at hNext
  · split at hNext
    · subst hNext
      exact quiet_finish h hOld _ hInv
    · unfold onRequest at hNext
      split at hNext
      · subst hNext
        exact quiet_refuse hOld hInv
      split at hNext
      · subst hNext
        exact quiet_refuse hOld hInv
      · subst hNext
        exact quiet_of_not_deciding hInv hOld rfl (fun _ hMem _ => hMem) (by simp)
  · split at hNext
    · subst hNext
      exact quiet_setExchange hOld e.closeSocket_prompt
    · subst hNext
      exact ⟨fun _ _ hOpen => hOpen, fun _ _ _ hMem => hMem⟩

theorem quiet_onSocketClosed (h : route.Inv) (hInv : next.Inv)
    (hOld : route.exchanges token = some e) (hNext : route.onSocketClosed token e = next) :
    Quiet route next := by
  unfold onSocketClosed at hNext
  dsimp only at hNext
  split at hNext
  · subst hNext
    exact quiet_finish (e := { e with socket := .closed }) h hOld route.session hInv
  · subst hNext
    exact quiet_setExchange
      (f := { e with socket := .closed, phase := .authorizing _ (some false) }) hOld rfl
  · subst hNext
    exact quiet_setExchange (f := { e with socket := .closed }.resolveRace none) hOld
      (Exchange.resolveRace_fields _ _).2.1
  · subst hNext
    exact quiet_setExchange (f := { e with socket := .closed }) hOld rfl

theorem quiet_deadline (h : route.Inv) (hOld : route.exchanges token = some e) {detail : String}
    (hInv : (route.cleanup token e.closeSocket detail).Inv) :
    Quiet route (route.cleanup token e.closeSocket detail) := by
  obtain ⟨hMoves, _⟩ := route.cleanup_moves token e.closeSocket detail
  refine quiet_of_replaced hOld hMoves.exchanges (cleanup_others h.keyed token _ detail) ?_
  intro p hPrompt hState
  have hNew : (route.cleanup token e.closeSocket detail).exchanges token =
      some (e.closeSocket.cleaned detail) := by
    rw [hMoves.exchanges]
    exact if_pos rfl
  have hOpen := hInv.deciding_of_open hNew hPrompt hState
  rw [cleaned_settled] at hOpen
  cases hOpen.2

/-- An operator's answer, and whatever else leaves the prompt open only as it was. -/
theorem quiet_decide (hOld : route.exchanges token = some e) (connected : Bool) (decision : String)
    (reason : Option String) : Quiet route (route.setExchange token
      (e.decidePrompt route.session connected decision reason)) := by
  refine quiet_of_replaced hOld rfl (fun _ hMem _ => hMem) fun p hPrompt hState => ⟨?_, rfl⟩
  rw [Exchange.decidePrompt_prompt, Option.map_eq_some_iff] at hPrompt
  obtain ⟨q, hOwn, rfl⟩ := hPrompt
  rw [decide_of_still_open hState]
  exact hOwn

theorem quiet_retireShown (detail : String)
    (hNew : ∀ n e', next.exchanges n = some e' → ∃ e, route.exchanges n = some e ∧ e'.prompt = (route.retireShown detail n e).prompt) :
    Quiet route next := by
  have hFind : ∀ n p, next.openPrompt? n = some p →
      route.openPrompt? n = some p ∧ n ∉ route.prompts.map Prod.snd := by
    intro n p hOpen
    obtain ⟨e', hFound, hPrompt, hState⟩ := openPrompt_eq_some.mp hOpen
    obtain ⟨e, hOld, hSame⟩ := hNew n e' hFound
    rw [hPrompt] at hSame
    unfold retireShown at hSame
    split at hSame
    · rw [Exchange.retirePrompt_prompt] at hSame
      obtain ⟨q, _, rfl⟩ := Option.map_eq_some_iff.mp hSame.symm
      exact absurd hState (retire_not_open q detail)
    · exact ⟨openPrompt_eq_some.mpr ⟨e, hOld, hSame.symm, hState⟩, ‹_›⟩
  refine ⟨fun n p hOpen => (hFind n p hOpen).1, fun n p hOpen hMem => ?_⟩
  exact absurd (List.mem_map.mpr ⟨_, hMem, rfl⟩) (hFind n p hOpen).2

theorem quiet_of_same (hExchanges : next.exchanges = route.exchanges)
    (hPrompts : next.prompts = route.prompts) : Quiet route next := by
  constructor
  · intro n p hOpen
    rw [openPrompt_eq_some, hExchanges] at hOpen
    exact openPrompt_eq_some.mpr hOpen
  · intro n p _ hMem
    rw [hPrompts]
    exact hMem

theorem quiet_onEvent {now : Nat} {input : ConfirmationInput} (h : route.Inv) (hInv : next.Inv)
    (hStep : route.onEvent now input = some next) : Quiet route next := by
  cases input with
  | channel i =>
    simp only [onEvent, Option.map_eq_some_iff] at hStep
    obtain ⟨channel, _, rfl⟩ := hStep
    exact quiet_of_same rfl rfl
  | setClosing closing | setRegistered registered | setPolicy policy | holdExpired token =>
    cases hStep; exact quiet_of_same rfl rfl
  | accepted token =>
    simp only [onEvent] at hStep
    split at hStep
    · cases hStep
    · cases hStep
      refine ⟨?_, fun _ _ _ hMem => hMem⟩
      intro n p hOpen
      obtain ⟨e', hFound, hPrompt, hState⟩ := openPrompt_eq_some.mp hOpen
      unfold setExchange at hFound
      dsimp only at hFound
      split at hFound
      · rw [← Option.some.inj hFound] at hPrompt
        cases hPrompt
      · exact openPrompt_eq_some.mpr ⟨e', hFound, hPrompt, hState⟩
  | frame token frame sends =>
    simp only [onEvent, Option.bind_eq_some_iff] at hStep
    obtain ⟨e, hOld, hStep⟩ := hStep
    split at hStep
    · cases hStep
    · exact quiet_onFrame h hInv hOld (Option.some.inj hStep)
  | socketClosing token =>
    simp only [onEvent, Option.map_eq_some_iff] at hStep
    obtain ⟨e, hOld, rfl⟩ := hStep
    exact quiet_setExchange hOld e.closeSocket_prompt
  | socketClosed token =>
    simp only [onEvent, Option.bind_eq_some_iff] at hStep
    obtain ⟨e, hOld, hStep⟩ := hStep
    split at hStep
    · cases hStep
    · exact quiet_onSocketClosed h hInv hOld (Option.some.inj hStep)
  | poll token timedOut =>
    simp only [onEvent, Option.bind_eq_some_iff] at hStep
    obtain ⟨e, hOld, hStep⟩ := hStep
    split at hStep
    · cases hStep
      exact quiet_setExchange (f := { e with phase := .authorizing _ _ }) hOld rfl
    · cases hStep
  | deadline token =>
    simp only [onEvent, Option.bind_eq_some_iff] at hStep
    obtain ⟨e, hOld, hStep⟩ := hStep
    split at hStep
    · cases hStep
      exact quiet_deadline h hOld hInv
    · cases hStep
  | decide confirmationId decision reason =>
    simp only [onEvent] at hStep
    split at hStep
    · cases hStep
      exact quiet_of_same rfl rfl
    · obtain ⟨e, hOld, rfl⟩ := Option.map_eq_some_iff.mp hStep
      exact quiet_decide hOld _ decision reason
  | retireAll detail =>
    cases hStep
    refine quiet_retireShown detail fun n e' hFound => ?_
    rw [forPrompts_exchanges] at hFound
    obtain ⟨e, hOld, rfl⟩ := Option.map_eq_some_iff.mp hFound
    exact ⟨e, hOld, rfl⟩
  | shutdown =>
    simp only [onEvent, Option.some.injEq] at hStep
    subst hStep
    refine quiet_retireShown "the hub is shutting down" fun n e' hFound => ?_
    dsimp only at hFound
    rw [forPrompts_exchanges, Option.map_map] at hFound
    obtain ⟨e, hOld, rfl⟩ := Option.map_eq_some_iff.mp hFound
    exact ⟨e, hOld, Exchange.closeSocket_prompt _⟩
  | resume token sends => cases hStep

theorem resume_cases (h : route.Inv) (hInv : next.Inv) (hOld : route.exchanges token = some e)
    {sends : Bool} (hStep : route.onResume token e sends = some next) :
    (route.entered (.resume token sends) = none ∧ Quiet route next) ∨
      ∃ request, route.entered (.resume token sends) = some request ∧ e.prompt = none ∧
        e.raced = none ∧ route.stillLive request = true ∧
        next = route.present token e request sends := by
  have hStage := h.stage token e hOld
  have hPresent : ∀ request, route.present token e request sends = next →
      ¬route.stillLive request = true → Quiet route next := by
    intro request hNext hDead
    unfold present at hNext
    rw [if_neg hDead] at hNext
    subst hNext
    exact quiet_refuse hOld hInv
  unfold onResume at hStep
  split at hStep
  · cases hStep
  · rename_i request hPhase
    have hEarly := early_of_holding hStage hPhase
    split at hStep
    · cases hStep
    · rename_i hVerdict
      cases hStep
      refine Or.inl ⟨by simp [entered, hOld, hPhase, hVerdict], quiet_refuse hOld hInv⟩
    · rename_i hVerdict
      split at hStep
      · rename_i hKind
        cases hStep
        exact Or.inl ⟨by simp [entered, hOld, hPhase, hVerdict, hKind],
          quiet_setExchange (f := { e with phase := .authorizing _ _ }) hOld rfl⟩
      · rename_i hKind
        by_cases hLive : route.stillLive request = true
        · exact Or.inr ⟨request, by simp [entered, hOld, hPhase, hVerdict, hKind, hLive],
            hEarly.prompt, hEarly.raced, hLive, (Option.some.inj hStep).symm⟩
        · exact Or.inl ⟨by simp [entered, hOld, hPhase, hVerdict, hLive],
            hPresent request (Option.some.inj hStep) hLive⟩
  · cases hStep
  · rename_i request hPhase
    cases hStep
    exact Or.inl ⟨by simp [entered, hOld, hPhase], quiet_refuse hOld hInv⟩
  · rename_i request hPhase
    have hEarly := early_of_authorizing hStage hPhase
    by_cases hLive : route.stillLive request = true
    · exact Or.inr ⟨request, by simp [entered, hOld, hPhase, hLive], hEarly.prompt, hEarly.raced,
        hLive, (Option.some.inj hStep).symm⟩
    · exact Or.inl ⟨by simp [entered, hOld, hPhase, hLive],
        hPresent request (Option.some.inj hStep) hLive⟩
  · rename_i hPhase
    refine Or.inl ⟨by simp [entered, hOld, hPhase], ?_⟩
    split at hStep
    · cases hStep
      refine quiet_of_not_deciding hInv hOld (cleanup_moves _ _ _ _).1.exchanges
        (cleanup_others h.keyed token _ _) ?_
      rw [Exchange.cleaned_phase]
      simp
    · cases hStep
      exact quiet_of_not_deciding hInv hOld rfl (fun _ hMem _ => hMem) (by simp)
    · cases hStep
  · rename_i hPhase
    refine Or.inl ⟨by simp [entered, hOld, hPhase], ?_⟩
    split at hStep
    · cases hStep
      exact quiet_finish h hOld route.session hInv
    · cases hStep
  · cases hStep

theorem PromptsSound.quiet (hSound : route.PromptsSound) (h : route.Inv) (hInv : next.Inv)
    (hQuiet : Quiet route next) : next.PromptsSound := by
  refine ⟨?_, ?_, ?_⟩
  · refine (Finset.card_le_card fun n hMem => ?_).trans hSound.room
    obtain ⟨p, hOpen⟩ := (mem_openPrompts hInv).mp hMem
    exact (mem_openPrompts h).mpr ⟨p, hQuiet.opens n p hOpen⟩
  · intro n m p q hFirst hSecond
    exact hSound.distinct n m p q (hQuiet.opens n p hFirst) (hQuiet.opens m q hSecond)
  · intro n p hOpen
    have hOld := hSound.reached n p (hQuiet.opens n p hOpen)
    exact (lookup_eq_some_iff hInv.keyed).mpr
      (hQuiet.stays n p hOpen ((lookup_eq_some_iff h.keyed).mp hOld))

/-! ## A request is entered -/

theorem policy_settles (route : ConfirmationRoute) (request : ConfirmationRequest)
    {decision : String} {verdict : Decision} (hVerdict : decisionNamed decision = some verdict)
    (reason : String) :
    ((route.openedPrompt request).decide route.session route.channel.connected decision
      (some reason)).2.state ≠ .decision := by
  unfold PendingConfirmation.decide
  rw [if_neg (by simp [openedPrompt]), if_neg (by simp [openedPrompt]),
    if_neg (by simp [openedPrompt]), hVerdict]
  dsimp only
  split
  · simp
  · exact retire_not_open _ _

theorem present_entered (token : Nat) (e : Exchange) {request : ConfirmationRequest} (sends : Bool)
    (hLive : route.stillLive request = true) :
    ∃ f p, (route.present token e request sends).exchanges =
        (fun n => if n = token then some f else route.exchanges n) ∧
      (route.present token e request sends).prompts =
        assign route.prompts request.confirmationId token ∧
      f.prompt = some p ∧ p.request = request ∧
      (p.state = .decision ↔ route.effectivePolicy = .ask) := by
  unfold present
  rw [if_pos hLive]
  dsimp only
  split
  · rename_i hPolicy
    exact ⟨_, _, rfl, rfl, rfl, rfl, iff_of_true rfl hPolicy⟩
  · rename_i hPolicy
    refine ⟨_, _, rfl, rfl, by rw [Exchange.decidePrompt_prompt]; rfl, decide_request _ _ _ _ _, ?_⟩
    exact iff_of_false (route.policy_settles request (by rfl) _) (by rw [hPolicy]; simp)
  · rename_i hPolicy
    refine ⟨_, _, rfl, rfl, by rw [Exchange.decidePrompt_prompt]; rfl, decide_request _ _ _ _ _, ?_⟩
    exact iff_of_false (route.policy_settles request (by rfl) _) (by rw [hPolicy]; simp)

theorem entered_iff (h : route.Inv) (hInv : next.Inv) (hSound : route.PromptsSound)
    {request : ConfirmationRequest} {sends : Bool} (hOld : route.exchanges token = some e)
    (hNone : e.prompt = none) (hLive : route.stillLive request = true)
    (hNext : next = route.present token e request sends) : next.PromptsSound ↔
      ¬((∃ n p, route.openPrompt? n = some p ∧ p.request.confirmationId = request.confirmationId) ∨
        (route.effectivePolicy = .ask ∧ promptCapacity ≤ route.openPrompts.card)) := by
  obtain ⟨f, p, hExchanges, hPrompts, hPrompt, hRequest, hAsk⟩ :=
    present_entered token e sends hLive
  rw [← hNext] at hExchanges hPrompts
  have hClosed : route.openPrompt? token = none := by
    rw [Option.eq_none_iff_forall_ne_some]
    intro q hOpen
    obtain ⟨g, hFound, hSome, _⟩ := openPrompt_eq_some.mp hOpen
    rw [hOld, Option.some.injEq] at hFound
    rw [← hFound, hNone] at hSome
    cases hSome
  have hOther : ∀ n, n ≠ token → next.openPrompt? n = route.openPrompt? n := by
    intro n hToken
    unfold openPrompt?
    simp only [hExchanges, if_neg hToken]
  have hOwn : next.openPrompt? token = if route.effectivePolicy = .ask then some p else none := by
    unfold openPrompt?
    simp [hExchanges, hPrompt, Option.filter, hAsk]
  have hAbsent : token ∉ route.openPrompts := by
    intro hMem
    obtain ⟨q, hOpen⟩ := (mem_openPrompts h).mp hMem
    rw [hClosed] at hOpen
    cases hOpen
  have hKeyed : Keyed (assign route.prompts request.confirmationId token) := h.keyed.assign _ _
  have hSelf := mem_assign_self route.prompts request.confirmationId token
  have hSplit : ∀ n q, next.openPrompt? n = some q →
      (n = token ∧ q = p ∧ route.effectivePolicy = .ask) ∨ route.openPrompt? n = some q := by
    intro n q hOpen
    by_cases hToken : n = token
    · subst hToken
      rw [hOwn] at hOpen
      split at hOpen
      · exact Or.inl ⟨rfl, (Option.some.inj hOpen).symm, ‹_›⟩
      · cases hOpen
    · rw [hOther n hToken] at hOpen
      exact Or.inr hOpen
  constructor
  · rintro hNew (⟨n, q, hOpen, hSame⟩ | ⟨hPolicy, hFull⟩)
    · have hToken : n ≠ token := by
        rintro rfl
        rw [hClosed] at hOpen
        cases hOpen
      have hReached := hNew.reached n q (by rw [hOther n hToken]; exact hOpen)
      rw [hPrompts, hSame, (lookup_eq_some_iff hKeyed).mpr hSelf, Option.some.injEq] at hReached
      exact hToken hReached.symm
    · have hMore : insert token route.openPrompts ⊆ next.openPrompts := by
        intro n hMem
        rw [mem_openPrompts hInv]
        rcases Finset.mem_insert.mp hMem with rfl | hWas
        · exact ⟨p, by rw [hOwn, if_pos hPolicy]⟩
        · rw [hOther n (fun hToken => hAbsent (hToken ▸ hWas))]
          exact (mem_openPrompts h).mp hWas
      have hCard := Finset.card_le_card hMore
      rw [Finset.card_insert_of_notMem hAbsent] at hCard
      have hRoom := hNew.room
      omega
  · intro hFree
    rw [not_or] at hFree
    have hDifferent : ∀ n q, route.openPrompt? n = some q →
        q.request.confirmationId ≠ request.confirmationId :=
      fun n q hOpen hSame => hFree.1 ⟨n, q, hOpen, hSame⟩
    refine ⟨?_, ?_, ?_⟩
    · by_cases hPolicy : route.effectivePolicy = .ask
      · have hSub : next.openPrompts ⊆ insert token route.openPrompts := by
          intro n hMem
          obtain ⟨q, hOpen⟩ := (mem_openPrompts hInv).mp hMem
          rcases hSplit n q hOpen with ⟨rfl, _, _⟩ | hWas
          · exact Finset.mem_insert_self n _
          · exact Finset.mem_insert_of_mem ((mem_openPrompts h).mpr ⟨q, hWas⟩)
        have hCard := Finset.card_le_card hSub
        rw [Finset.card_insert_of_notMem hAbsent] at hCard
        have hRoom : ¬promptCapacity ≤ route.openPrompts.card := fun hFull =>
          hFree.2 ⟨hPolicy, hFull⟩
        omega
      · refine (Finset.card_le_card fun n hMem => ?_).trans hSound.room
        obtain ⟨q, hOpen⟩ := (mem_openPrompts hInv).mp hMem
        rcases hSplit n q hOpen with ⟨_, _, hAsk⟩ | hWas
        · exact absurd hAsk hPolicy
        · exact (mem_openPrompts h).mpr ⟨q, hWas⟩
    · intro n m q r hFirst hSecond hSame
      rcases hSplit n q hFirst with ⟨rfl, rfl, _⟩ | hWas
      · rcases hSplit m r hSecond with ⟨rfl, _, _⟩ | hWas'
        · rfl
        · exact absurd (by rw [← hSame, hRequest]) (hDifferent m r hWas')
      · rcases hSplit m r hSecond with ⟨rfl, rfl, _⟩ | hWas'
        · exact absurd (by rw [hSame, hRequest]) (hDifferent n q hWas)
        · exact hSound.distinct n m q r hWas hWas' hSame
    · intro n q hOpen
      rw [hPrompts, lookup_eq_some_iff hKeyed]
      rcases hSplit n q hOpen with ⟨rfl, rfl, _⟩ | hWas
      · rw [hRequest]
        exact hSelf
      · rw [mem_assign_of_ne (by exact hDifferent n q hWas)]
        exact (lookup_eq_some_iff h.keyed).mp (hSound.reached n q hWas)

theorem step_cases {input : Nat × ConfirmationInput} (h : route.Inv)
    (hStep : route.step input = some next) : (route.entered input.2 = none ∧ Quiet route next) ∨
      ∃ token e request sends, route.entered input.2 = some request ∧
        route.exchanges token = some e ∧ e.prompt = none ∧ route.stillLive request = true ∧
        next = route.present token e request sends := by
  have hInv := (kept_step h hStep).inv
  unfold step at hStep
  split at hStep
  · rename_i token sends hInput
    obtain ⟨e, hOld, hResume⟩ := Option.bind_eq_some_iff.mp hStep
    rw [hInput]
    rcases resume_cases h hInv hOld hResume with hQuiet | ⟨request, hEntered, hNone, _, hLive, hNext⟩
    · exact Or.inl hQuiet
    · exact Or.inr ⟨token, e, request, sends, hEntered, hOld, hNone, hLive, hNext⟩
  · rename_i hOther
    split at hStep
    · cases hStep
    · refine Or.inl ⟨?_, quiet_onEvent h hInv hStep⟩
      unfold entered
      split
      · exact absurd ‹_› (hOther _ _)
      · rfl

/-! ## Whole runs -/

/-- In a run, the open prompts of the session are at most as many as allowed, have distinct
identifiers and are reached under them, exactly if no request is entered whose identifier an
open prompt has or for which there is no room. -/
theorem open_prompts_iff (id : String) (kind : SessionKind) (identityHoldMs timeoutMs : Nat)
    (inputs : List (Nat × ConfirmationInput)) :
    Along ConfirmationRoute.step (fun _ _ next => next.PromptsSound)
        (start id kind identityHoldMs timeoutMs) inputs ↔
      Along ConfirmationRoute.step (fun route input _ => ¬route.Overbooks input)
        (start id kind identityHoldMs timeoutMs) inputs := by
  refine along_iff (P := fun route => route.Inv ∧ route.PromptsSound) ?_ ?_ ?_
  · exact fun route input next hGood hStep hSound => ⟨(kept_step hGood.1 hStep).inv, hSound⟩
  · rintro route input next ⟨hInv, hSound⟩ hStep
    have hNext := (kept_step hInv hStep).inv
    rcases step_cases hInv hStep with ⟨hNone, hQuiet⟩ | ⟨token, e, request, sends, hEntered, hOld, hPrompt, hLive, hEq⟩
    · refine iff_of_true (hSound.quiet hInv hNext hQuiet) ?_
      rintro ⟨request, hSome, _⟩
      rw [hNone] at hSome
      cases hSome
    · rw [entered_iff hInv hNext hSound hOld hPrompt hLive hEq]
      unfold Overbooks
      rw [hEntered]
      simp
  · refine ⟨inv_start id kind identityHoldMs timeoutMs, ?_, ?_, ?_⟩
    · exact Nat.zero_le _
    · exact fun _ _ _ _ hOpen => by cases hOpen
    · exact fun _ _ hOpen => by cases hOpen

/-- Two requests with one identifier are read before the worker is known. Both are entered
when it is: two prompts are open under the identifier, and a decision reaches one of them. -/
theorem displaced_prompt : ∃ route, run ConfirmationRoute.step (start "s" .ordinary 1000 60000)
        [(0, .channel (.opened 0)), (1, .accepted 1), (1, .frame 1 (sampleRequest "c") true),
          (2, .accepted 2), (2, .frame 2 (sampleRequest "c") true),
          (3, .channel (.message 0 (.event (statusOf "s" "w")))),
          (3, .resume 1 true), (3, .resume 2 true)] = some route ∧
      route.prompts = [("c", 2)] ∧
      ∃ p q, route.openPrompt? 1 = some p ∧ route.openPrompt? 2 = some q ∧
        p.request.confirmationId = "c" ∧ q.request.confirmationId = "c" :=
  ⟨_, rfl, rfl, _, _, rfl, rfl, rfl, rfl⟩

end ConfirmationRoute

end SimplexAgent.Hub
