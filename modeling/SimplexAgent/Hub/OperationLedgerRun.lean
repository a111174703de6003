import Mathlib.Data.List.Nodup
import SimplexAgent.Hub.OperationLedger
import SimplexAgent.Verified.Runs

/-!
# The operation ledgers of a service, along a run

Every session has a ledger of its own. What was ever seen of an operation is noted beside it:
the run identifiers of its admissions, and its outcomes. The ledger itself keeps less, since a
lost connection makes an admitted operation an unknown one, and a restart goes back to what
was saved.
-/

namespace SimplexAgent.Hub

open Verified.Runs

variable {Digest : Type}

/-! ## Steps -/

def admissionsOf (requests : List Operation) : List (String × String) :=
  (requests.filter (·.state = .admitted)).map fun entry => (entry.requestId, entry.runId)

def outcomesOf (requests : List Operation) : List (String × OperationState) :=
  (requests.filter (·.state.settled)).map fun entry => (entry.requestId, entry.state)

/-- A ledger with what it has shown so far. -/
structure Watched (Digest : Type) where
  ledger : Ledger Digest
  admissions : List (String × String)
  outcomes : List (String × OperationState)

namespace Watched

def requests (w : Watched Digest) : List Operation := w.ledger.memory.requests

def fileRequests (l : Ledger Digest) : List Operation := (l.file.map (·.requests)).getD []

def after (w : Watched Digest) (l : Ledger Digest) : Watched Digest where
  ledger := l
  admissions := w.admissions ++ admissionsOf l.memory.requests
  outcomes := w.outcomes ++ outcomesOf l.memory.requests

def runs (w : Watched Digest) (id : String) : List String :=
  (w.admissions.filter (·.1 = id)).map Prod.snd

end Watched

inductive LedgerInput (Digest : Type) where
  | event (e : OperationEvent) (stored : Bool)
  | disconnected (stored : Bool)
  | send (requestId operation createdAt : String) (intentStored : Bool) (outcome : SendOutcome)
      (stored : Bool)
  | commitReceipt (receipt : Receipt Digest) (stored : Bool)
  | freeze
  | terminal

namespace Ledger

def step (limits : LedgerLimits Digest) (l : Ledger Digest) : LedgerInput Digest → Ledger Digest
  | .event e stored => l.onEvent limits stored e
  | .disconnected stored => l.onDisconnected limits stored
  | .send requestId operation createdAt intentStored outcome stored =>
    l.send limits requestId operation createdAt intentStored outcome stored
  | .commitReceipt receipt stored => (l.commitReceipt limits stored receipt).2
  | .freeze => l.freeze
  | .terminal => l.terminal

end Ledger

/-- The ledgers of all sessions, and the request identifiers that were handed out. -/
structure LedgerService (Digest : Type) where
  ledgers : String → Watched Digest
  issued : List String

/-- What happens to the service. It can end between any two inputs and start again; a `send`
that it does not survive is one whose last save did not go through. -/
inductive ServiceInput (Digest : Type) where
  | session (id : String) (input : LedgerInput Digest)
  | restart (closing : String → Bool)

namespace LedgerService

def start : LedgerService Digest where
  ledgers := fun _ => { ledger := .new, admissions := [], outcomes := [] }
  issued := []

/-- The identifier that an input hands out. -/
def newId : LedgerInput Digest → List String
  | .send requestId _ _ _ _ _ => [requestId]
  | _ => []

/-- A step. `newRequestId` returns no identifier twice. -/
def step (limits : LedgerLimits Digest) (s : LedgerService Digest) :
    ServiceInput Digest → Option (LedgerService Digest)
  | .session id input =>
    if ∃ new ∈ newId input, new ∈ s.issued then none
    else some {
      ledgers := fun other =>
        if other = id then (s.ledgers id).after ((s.ledgers id).ledger.step limits input)
        else s.ledgers other
      issued := s.issued ++ newId input }
  | .restart closing => some {
      ledgers := fun id => (s.ledgers id).after ((s.ledgers id).ledger.restart limits (closing id))
      issued := s.issued }

end LedgerService

/-! ## Where requests come from -/

variable {w : Watched Digest} {R : Operation → Operation → Prop} {issued : List String}
  {x y : Operation} {requests : List Operation}

/-- Requests that come from others: each is one of them, changed in a certain way, and in their
order. -/
structure Comes (R : Operation → Operation → Prop) (before after : List Operation) : Prop where
  ids : (after.map (·.requestId)).Sublist (before.map (·.requestId))
  origin : ∀ e' ∈ after, ∃ e ∈ before, e'.requestId = e.requestId ∧ R e e'

theorem Comes.sublist {before mid after : List Operation} (h : Comes R before mid)
    (hSub : after.Sublist mid) : Comes R before after where
  ids := (hSub.map _).trans h.ids
  origin e' he' := h.origin e' (hSub.subset he')

/-- Without a change. -/
theorem Comes.refl (hR : ∀ e, R e e) (requests : List Operation) : Comes R requests requests where
  ids := List.Sublist.refl _
  origin e he := ⟨e, he, rfl, hR e⟩

theorem Comes.map (f : Operation → Operation) (hId : ∀ e, (f e).requestId = e.requestId)
    (hR : ∀ e, R e (f e)) (requests : List Operation) : Comes R requests (requests.map f) where
  ids := by
    have hIds : (requests.map f).map (·.requestId) = requests.map (·.requestId) := by
      rw [List.map_map]
      exact List.map_congr_left fun e _ => hId e
    rw [hIds]
  origin e' he' := by
    obtain ⟨e, he, rfl⟩ := List.mem_map.mp he'
    exact ⟨e, he, hId e, hR e⟩

theorem Comes.updateFirst (id : String) (f : Operation → Operation)
    (hId : ∀ e, (f e).requestId = e.requestId) (hR : ∀ e ∈ requests, R e e)
    (hF : ∀ e ∈ requests, e.requestId = id → R e (f e)) :
    Comes R requests (Ledger.updateFirst id f requests) := by
  induction requests with
  | nil => exact ⟨List.Sublist.refl _, fun e he => by cases he⟩
  | cons entry rest ih =>
    rw [Ledger.updateFirst]
    split
    · rename_i hHere
      refine ⟨?_, ?_⟩
      · rw [List.map_cons, hId]
        exact List.Sublist.refl _
      · intro e' he'
        cases List.mem_cons.mp he' with
        | inl hFirst =>
          rw [hFirst]
          exact ⟨entry, List.mem_cons_self, hId entry, hF entry List.mem_cons_self hHere⟩
        | inr hRest =>
          exact ⟨e', List.mem_cons_of_mem _ hRest, rfl, hR e' (List.mem_cons_of_mem _ hRest)⟩
    · obtain ⟨hIds, hOrigin⟩ := ih (fun e he => hR e (List.mem_cons_of_mem _ he))
        fun e he => hF e (List.mem_cons_of_mem _ he)
      refine ⟨?_, ?_⟩
      · rw [List.map_cons, List.map_cons]
        exact hIds.cons_cons _
      · intro e' he'
        cases List.mem_cons.mp he' with
        | inl hFirst =>
          rw [hFirst]
          exact ⟨entry, List.mem_cons_self, rfl, hR entry List.mem_cons_self⟩
        | inr hRest =>
          obtain ⟨e, he, hChange⟩ := hOrigin e' hRest
          exact ⟨e, List.mem_cons_of_mem _ he, hChange⟩

/-- The requests of a ledger after a step come from these, and so do those of its file that were
not in it before. A ledger that is clean was saved, or is as it was. -/
structure Follows (R : Operation → Operation → Prop) (before : List Operation)
    (l l' : Ledger Digest) : Prop where
  memory : Comes R before l'.memory.requests
  clean : l'.dirty = false → Watched.fileRequests l' = l'.memory.requests ∨
    Watched.fileRequests l' = [] ∨ (l.dirty = false ∧
      Watched.fileRequests l' = Watched.fileRequests l ∧ l'.memory.requests = l.memory.requests)
  file : Watched.fileRequests l' = Watched.fileRequests l ∨
    (Watched.fileRequests l').Sublist before ∨ Watched.fileRequests l' = l'.memory.requests

theorem Follows.refl (hR : ∀ e, R e e) (l : Ledger Digest) : Follows R l.memory.requests l l where
  memory := .refl hR _
  clean hClean := Or.inr (Or.inr ⟨hClean, rfl, rfl⟩)
  file := Or.inl rfl

/-! ## Steps of a ledger -/

variable (limits : LedgerLimits Digest) {issued fresh : List String} {input : LedgerInput Digest}
  {l : Ledger Digest}

theorem fitRequests_suffix (receipts : List (Receipt Digest)) (requests : List Operation) :
    fitRequests limits receipts requests <:+ requests := by
  induction requests with
  | nil => exact List.suffix_refl _
  | cons entry rest ih =>
    cases rest with
    | nil => exact List.suffix_refl _
    | cons next rest =>
      rw [fitRequests]
      split
      · exact ih.trans (List.suffix_cons _ _)
      · exact List.suffix_refl _

theorem saveOps_spec (stored : Bool) (l : Ledger Digest) :
    (l.saveOps limits stored).2.memory.requests.Sublist l.memory.requests ∧
      (Watched.fileRequests (l.saveOps limits stored).2 = Watched.fileRequests l ∨
        Watched.fileRequests (l.saveOps limits stored).2 =
          (l.saveOps limits stored).2.memory.requests) ∧
      ((l.saveOps limits stored).2.dirty = false →
        Watched.fileRequests (l.saveOps limits stored).2 =
            (l.saveOps limits stored).2.memory.requests ∨
          (l.removed = true ∧ (l.saveOps limits stored).2 = l)) ∧
      (l.removed = false → (l.saveOps limits stored).2.removed = false) := by
  unfold Ledger.saveOps
  by_cases hRemoved : l.removed = true
  · rw [if_pos hRemoved]
    exact ⟨List.Sublist.refl _, Or.inl rfl, fun _ => Or.inr ⟨hRemoved, rfl⟩, id⟩
  rw [if_neg hRemoved]
  dsimp only
  have hFitted := (fitRequests_suffix limits l.memory.receipts l.memory.requests).sublist
  split
  · exact ⟨hFitted, Or.inr rfl, fun _ => Or.inl rfl, id⟩
  · exact ⟨hFitted, Or.inl rfl, (fun hClean => by cases hClean), id⟩

theorem saveOps_follows {before : List Operation} (stored : Bool) (l changed : Ledger Digest)
    (h : Comes R before changed.memory.requests) (hFile : changed.file = l.file)
    (hDirty : changed.dirty = l.dirty)
    (hRemoved : changed.removed = true → changed.memory.requests = l.memory.requests) :
    Follows R before l (changed.saveOps limits stored).2 := by
  obtain ⟨hSub, hSaved, hClean, -⟩ := saveOps_spec limits stored changed
  have hSame : Watched.fileRequests changed = Watched.fileRequests l := by
    unfold Watched.fileRequests
    rw [hFile]
  refine ⟨h.sublist hSub, fun hIs => ?_, ?_⟩
  · cases hClean hIs with
    | inl hNew => exact Or.inl hNew
    | inr hKept =>
      rw [hKept.2] at hIs ⊢
      exact Or.inr (Or.inr ⟨hDirty ▸ hIs, hSame, hRemoved hKept.1⟩)
  · cases hSaved with
    | inl hKept => exact Or.inl (hKept.trans hSame)
    | inr hNew => exact Or.inr (Or.inr hNew)

def EventChange (e : OperationEvent) (x y : Operation) : Prop :=
  y = x ∨ (some x.requestId = e.about ∧ x.observe e = some y)

theorem observe_id {e : OperationEvent} (h : x.observe e = some y) : y.requestId = x.requestId := by
  unfold Operation.observe at h
  split at h
  · cases h; rfl
  split at h
  · cases h; rfl
  split at h
  · cases h; rfl
  split at h
  · cases h; rfl
  · cases h

theorem EventChange.getD (e : OperationEvent) {x : Operation} (h : some x.requestId = e.about) :
    EventChange e x ((x.observe e).getD x) := by
  cases hObserve : x.observe e with
  | none => exact Or.inl rfl
  | some y => exact Or.inr ⟨h, hObserve⟩

theorem getD_observe_id (e : OperationEvent) (x : Operation) :
    ((x.observe e).getD x).requestId = x.requestId := by
  cases hObserve : x.observe e with
  | none => rfl
  | some y => exact observe_id hObserve

theorem onEvent_follows (stored : Bool) (e : OperationEvent) (l : Ledger Digest) :
    Follows (EventChange e) l.memory.requests l (l.onEvent limits stored e) := by
  have hSame : Comes (EventChange e) l.memory.requests l.memory.requests :=
    .refl (fun _ => Or.inl rfl) _
  have hStays : Follows (EventChange e) l.memory.requests l l := .refl (fun _ => Or.inl rfl) l
  unfold Ledger.onEvent
  split
  · exact hStays
  rename_i hOpen
  cases hObserved : l.observed e with
  | none =>
    dsimp only
    split
    · exact saveOps_follows limits stored l _ hSame rfl rfl fun _ => rfl
    · exact hStays
  | some changed =>
    unfold Ledger.observed at hObserved
    cases hFind : l.find e.about with
    | none =>
      rw [hFind] at hObserved
      cases hObserved
    | some entry =>
      rw [hFind] at hObserved
      dsimp only at hObserved
      split at hObserved
      · cases hObserved
        have hAbout : some entry.requestId = e.about := by
          have := List.find?_some hFind
          simpa using this
        refine saveOps_follows limits stored l _ (.updateFirst _ _ (getD_observe_id e)
          (fun x _ => Or.inl rfl) fun x _ hx => ?_) rfl rfl
            fun hRemoved => absurd (Or.inr hRemoved) hOpen
        exact EventChange.getD e (by rw [hx]; exact hAbout)
      · cases hObserved

theorem forget_id (x : Operation) : x.forget.requestId = x.requestId := by
  unfold Operation.forget
  split <;> rfl

theorem onDisconnected_follows (stored : Bool) (l : Ledger Digest) :
    Follows (fun x y => y = x ∨ y = x.forget) l.memory.requests l
      (l.onDisconnected limits stored) := by
  unfold Ledger.onDisconnected
  split
  · exact .refl (fun _ => Or.inl rfl) l
  · rename_i hOpen
    exact saveOps_follows limits stored l _ (.map _ forget_id (fun _ => Or.inr rfl) _) rfl rfl
      fun hRemoved => absurd (Or.inl hRemoved) hOpen

def intentOf (requestId operation createdAt : String) : Operation where
  requestId := requestId
  operation := operation
  state := .intent
  runId := ""
  status := none
  detail := none
  summary := none
  createdAt := createdAt

theorem lastOf_sublist {α : Type} (count : Nat) (items : List α) :
    (lastOf count items).Sublist items :=
  List.drop_sublist _ _

theorem noteIntent_sublist (requestId operation createdAt : String) (l : Ledger Digest) :
    (l.noteIntent requestId operation createdAt).memory.requests.Sublist
      (l.memory.requests ++ [intentOf requestId operation createdAt]) := by
  simp only [Ledger.noteIntent, Operations.pushRequest, intentOf, lastOf_sublist]

def SendChange (requestId : String) (outcome : SendOutcome) (x y : Operation) : Prop :=
  y = x ∨ (x.requestId = requestId ∧ ∃ f, Ledger.delivered outcome = some f ∧ y = f x)

theorem delivered_id {outcome : SendOutcome} {f : Operation → Operation}
    (h : Ledger.delivered outcome = some f) (x : Operation) : (f x).requestId = x.requestId := by
  cases outcome <;> cases h <;> rfl

theorem send_follows (requestId operation createdAt : String) (intentStored : Bool)
    (outcome : SendOutcome) (stored : Bool) (l : Ledger Digest) :
    Follows (SendChange requestId outcome)
      (l.memory.requests ++ [intentOf requestId operation createdAt]) l
      (l.send limits requestId operation createdAt intentStored outcome stored) := by
  have hNoted := noteIntent_sublist requestId operation createdAt l
  have hFile : (l.noteIntent requestId operation createdAt).file = l.file := by
    simp only [Ledger.noteIntent]
  have hDirty : (l.noteIntent requestId operation createdAt).dirty = l.dirty := by
    simp only [Ledger.noteIntent]
  unfold Ledger.send
  split
  · exact ⟨(Comes.refl (fun _ => Or.inl rfl) _).sublist (List.sublist_append_left _ _),
      fun hClean => Or.inr (Or.inr ⟨hClean, rfl, rfl⟩), Or.inl rfl⟩
  rename_i hOpen
  have hRemoved : (l.noteIntent requestId operation createdAt).removed = false := by
    simp only [Ledger.noteIntent, Bool.eq_false_iff]
    exact fun hIs => hOpen (Or.inr hIs)
  generalize l.noteIntent requestId operation createdAt = noted at hNoted hFile hDirty hRemoved ⊢
  have hFirst := saveOps_follows limits intentStored l noted
    ((Comes.refl (R := SendChange requestId outcome) (fun _ => Or.inl rfl) _).sublist hNoted) hFile
    hDirty fun hIs => by rw [hRemoved] at hIs; cases hIs
  obtain ⟨hSub, -, -, hStill⟩ := saveOps_spec limits intentStored noted
  generalize hSaved : noted.saveOps limits intentStored = result at hFirst hSub hStill
  obtain ⟨saved, mid⟩ := result
  dsimp only at hFirst hSub hStill ⊢
  split
  · rename_i f hDelivered
    have hMid : mid.memory.requests.Sublist
        (l.memory.requests ++ [intentOf requestId operation createdAt]) :=
      hSub.trans hNoted
    have hChange : Comes (SendChange requestId outcome)
        (l.memory.requests ++ [intentOf requestId operation createdAt])
        (Ledger.updateFirst requestId f mid.memory.requests) := by
      have hStep : Comes (SendChange requestId outcome) mid.memory.requests
          (Ledger.updateFirst requestId f mid.memory.requests) :=
        .updateFirst _ _ (delivered_id hDelivered) (fun _ _ => Or.inl rfl)
          fun x _ hx => Or.inr ⟨hx, f, hDelivered, rfl⟩
      refine ⟨hStep.ids.trans (hMid.map _), fun e' he' => ?_⟩
      obtain ⟨e, he, hId, hR⟩ := hStep.origin e' he'
      exact ⟨e, hMid.subset he, hId, hR⟩
    have hLive : (mid.setRequests
        (Ledger.updateFirst requestId f mid.memory.requests)).removed ≠ true := by
      show mid.removed ≠ true
      rw [hStill hRemoved]
      exact Bool.false_ne_true
    obtain ⟨hMemory, -, hFile⟩ := saveOps_follows limits stored mid
      (mid.setRequests (Ledger.updateFirst requestId f mid.memory.requests)) hChange rfl rfl
      fun hIs => absurd hIs hLive
    obtain ⟨-, -, hClean, -⟩ := saveOps_spec limits stored
      (mid.setRequests (Ledger.updateFirst requestId f mid.memory.requests))
    refine ⟨hMemory, fun hIs => Or.inl ((hClean hIs).resolve_right fun hGone => hLive hGone.1), ?_⟩
    cases hFile with
    | inl hKept =>
      rw [hKept]
      cases hFirst.file with
      | inl hOld => exact Or.inl hOld
      | inr hNew =>
        cases hNew with
        | inl hSub' => exact Or.inr (Or.inl hSub')
        | inr hMemory' => exact Or.inr (Or.inl (hMemory' ▸ hMid))
    | inr hNew => exact Or.inr hNew
  · exact hFirst

theorem commitReceipt_follows (stored : Bool) (receipt : Receipt Digest) (l : Ledger Digest) :
    Follows (fun x y => y = x) l.memory.requests l (l.commitReceipt limits stored receipt).2 := by
  have hSaved : Follows (fun x y => y = x) l.memory.requests l
      ({ l with memory := l.memory.pushReceipt limits receipt }.saveOps limits stored).2 :=
    saveOps_follows limits stored l _ (.refl (by intro _; rfl) _) rfl rfl fun _ => rfl
  unfold Ledger.commitReceipt
  dsimp only
  split
  · exact hSaved
  · exact ⟨hSaved.memory, hSaved.clean, hSaved.file⟩

theorem terminal_follows (l : Ledger Digest) :
    Follows (fun x y => y = { x with summary := none }) l.memory.requests l l.terminal := by
  refine ⟨?_, fun _ => Or.inr (Or.inl rfl), Or.inr (Or.inl (List.nil_sublist _))⟩
  have hMap : Comes (fun x y => y = { x with summary := none }) (lastOf 20 l.memory.requests)
      l.terminal.memory.requests := .map _ (by intro _; rfl) (by intro _; rfl) _
  have hSub : (lastOf 20 l.memory.requests).Sublist l.memory.requests := lastOf_sublist 20 _
  refine ⟨hMap.ids.trans (hSub.map _), fun e' he' => ?_⟩
  obtain ⟨e, he, hChange⟩ := hMap.origin e' he'
  exact ⟨e, hSub.subset he, hChange⟩

/-! ## What a ledger keeps of what it has shown -/

def Watched.FileKeeps (w : Watched Digest) : Prop :=
  ∀ x ∈ Watched.fileRequests w.ledger, ∀ state, (x.requestId, state) ∈ w.outcomes → x.state = state

/-- A ledger and its file against what was shown: identifiers are distinct and were handed out;
outcomes are as they were shown, also in the file, which lacks none that was shown unless the
ledger is dirty; a run identifier is that of an admission; and nothing that was admitted was
rejected. -/
structure Sound (issued : List String) (w : Watched Digest) : Prop where
  nodup : (w.requests.map (·.requestId)).Nodup
  nodupFile : ((Watched.fileRequests w.ledger).map (·.requestId)).Nodup
  known : ∀ e ∈ w.requests, e.requestId ∈ issued
  knownFile : ∀ e ∈ Watched.fileRequests w.ledger, e.requestId ∈ issued
  knownAdmission : ∀ id run, (id, run) ∈ w.admissions → id ∈ issued
  knownOutcome : ∀ id state, (id, state) ∈ w.outcomes → id ∈ issued
  settled : ∀ id state, (id, state) ∈ w.outcomes → state.settled = true
  same : ∀ e ∈ w.requests, ∀ state, (e.requestId, state) ∈ w.outcomes → e.state = state
  shown : ∀ e ∈ w.requests, e.state.settled = true → (e.requestId, e.state) ∈ w.outcomes
  shownFile : ∀ e ∈ Watched.fileRequests w.ledger, e.state.settled = true →
    (e.requestId, e.state) ∈ w.outcomes
  run : ∀ e ∈ w.requests, e.runId ≠ "" → (e.requestId, e.runId) ∈ w.admissions
  runFile : ∀ e ∈ Watched.fileRequests w.ledger, e.runId ≠ "" →
    (e.requestId, e.runId) ∈ w.admissions
  apart : ∀ id run, (id, run) ∈ w.admissions → (id, OperationState.rejected) ∉ w.outcomes
  clean : w.ledger.dirty = false → w.FileKeeps

/-- How the requests of a ledger may change so that this is kept. -/
structure Kept (w : Watched Digest) (x y : Operation) : Prop where
  settled : x.state.settled = true → y.state = x.state
  rejected : y.state = .rejected → x.state = .rejected ∨ ∀ run, (x.requestId, run) ∉ w.admissions
  run : y.runId ≠ "" → y.runId = x.runId ∨ y.state = .admitted

theorem mem_admissionsOf {id run : String} : (id, run) ∈ admissionsOf requests ↔
      ∃ e ∈ requests, e.state = .admitted ∧ e.requestId = id ∧ e.runId = run := by
  simp only [admissionsOf, List.mem_map, List.mem_filter, decide_eq_true_eq, Prod.mk.injEq]
  constructor
  · rintro ⟨e, ⟨he, hState⟩, hId, hRun⟩
    exact ⟨e, he, hState, hId, hRun⟩
  · rintro ⟨e, he, hState, hId, hRun⟩
    exact ⟨e, ⟨he, hState⟩, hId, hRun⟩

theorem mem_outcomesOf {id : String} {state : OperationState} : (id, state) ∈ outcomesOf requests ↔
      ∃ e ∈ requests, e.state.settled = true ∧ e.requestId = id ∧ e.state = state := by
  simp only [outcomesOf, List.mem_map, List.mem_filter, Prod.mk.injEq]
  constructor
  · rintro ⟨e, ⟨he, hState⟩, hId, hSame⟩
    exact ⟨e, he, hState, hId, hSame⟩
  · rintro ⟨e, he, hState, hId, hSame⟩
    exact ⟨e, ⟨he, hState⟩, hId, hSame⟩

theorem eq_of_id (h : (requests.map (·.requestId)).Nodup) (hx : x ∈ requests) (hy : y ∈ requests)
    (hId : x.requestId = y.requestId) : x = y :=
  List.inj_on_of_nodup_map h hx hy hId

/-- Where the requests before a step come from: from the ledger, or they are new. -/
def Fresh (issued fresh : List String) (w : Watched Digest) (x : Operation) : Prop :=
  x ∈ w.requests ∨ (x.requestId ∉ issued ∧ x.requestId ∈ fresh ∧ x.state = .intent ∧ x.runId = "")

theorem Sound.outcome_stays (h : Sound issued w) (hFresh : Fresh issued fresh w x)
    (hKept : Kept w x y) {state : OperationState} (hShown : (x.requestId, state) ∈ w.outcomes) :
    y.state = state := by
  cases hFresh with
  | inl hOld =>
    have hSame := h.same x hOld state hShown
    rw [← hSame]
    exact hKept.settled (by rw [hSame]; exact h.settled _ _ hShown)
  | inr hNew => exact absurd (h.knownOutcome _ _ hShown) hNew.1

theorem Sound.not_rejected (h : Sound issued w) (hFresh : Fresh issued fresh w x)
    (hKept : Kept w x y) {run : String} (hAdmitted : (x.requestId, run) ∈ w.admissions) :
    y.state ≠ .rejected := by
  intro hRejected
  cases hKept.rejected hRejected with
  | inl hBefore =>
    cases hFresh with
    | inl hOld =>
      have hShown := h.shown x hOld (by rw [hBefore]; rfl)
      rw [hBefore] at hShown
      exact h.apart _ _ hAdmitted hShown
    | inr hNew =>
      rw [hNew.2.2.1] at hBefore
      cases hBefore
  | inr hNever => exact hNever run hAdmitted

theorem Sound.after (h : Sound issued w) {before : List Operation}
    (hFresh : ∀ x ∈ before, Fresh issued fresh w x) (hNodup : (before.map (·.requestId)).Nodup)
    (hFollows : Follows R before w.ledger l) (hKept : ∀ x ∈ before, ∀ y, R x y → Kept w x y) :
    Sound (issued ++ fresh) (w.after l) := by
  obtain ⟨hMemory, hClean, hFile⟩ := hFollows
  have hNodup' : (l.memory.requests.map (·.requestId)).Nodup := hMemory.ids.nodup hNodup
  have hKnownBefore : ∀ x ∈ before, x.requestId ∈ issued ++ fresh := by
    intro x hx
    cases hFresh x hx with
    | inl hOld => exact List.mem_append_left _ (h.known x hOld)
    | inr hNew => exact List.mem_append_right _ hNew.2.1
  have hKnown : ∀ e ∈ l.memory.requests, e.requestId ∈ issued ++ fresh := by
    intro e he
    obtain ⟨x, hx, hId, _⟩ := hMemory.origin e he
    rw [hId]
    exact hKnownBefore x hx
  have hRun : ∀ e ∈ l.memory.requests, e.runId ≠ "" →
      (e.requestId, e.runId) ∈ w.admissions ++ admissionsOf l.memory.requests := by
    intro e he hNonempty
    obtain ⟨x, hx, hId, hChange⟩ := hMemory.origin e he
    cases (hKept x hx e hChange).run hNonempty with
    | inl hSame =>
      cases hFresh x hx with
      | inl hOld =>
        rw [hId, hSame]
        exact List.mem_append_left _ (h.run x hOld (by rw [← hSame]; exact hNonempty))
      | inr hNew => exact absurd (hSame.trans hNew.2.2.2) hNonempty
    | inr hAdmitted =>
      exact List.mem_append_right _ (mem_admissionsOf.mpr ⟨e, he, hAdmitted, rfl, rfl⟩)
  have hShown : ∀ e ∈ l.memory.requests, e.state.settled = true →
      (e.requestId, e.state) ∈ w.outcomes ++ outcomesOf l.memory.requests := fun e he hSettled =>
    List.mem_append_right _ (mem_outcomesOf.mpr ⟨e, he, hSettled, rfl, rfl⟩)
  have hSame : ∀ e ∈ l.memory.requests, ∀ state,
      (e.requestId, state) ∈ w.outcomes ++ outcomesOf l.memory.requests → e.state = state := by
    intro e he state hState
    cases List.mem_append.mp hState with
    | inl hOld =>
      obtain ⟨x, hx, hId, hChange⟩ := hMemory.origin e he
      rw [hId] at hOld
      exact h.outcome_stays (hFresh x hx) (hKept x hx e hChange) hOld
    | inr hNew =>
      obtain ⟨e', he', _, hId, hState'⟩ := mem_outcomesOf.mp hNew
      rw [eq_of_id hNodup' he he' hId.symm]
      exact hState'
  refine ⟨hNodup', ?_, hKnown, ?_, ?_, ?_, ?_, hSame, hShown, ?_, hRun, ?_, ?_, ?_⟩
  · show ((Watched.fileRequests l).map (·.requestId)).Nodup
    rcases hFile with hOld | hBefore | hNew
    · rw [hOld]
      exact h.nodupFile
    · exact (hBefore.map _).nodup hNodup
    · rw [hNew]
      exact hNodup'
  · intro e he
    rcases hFile with hOld | hBefore | hNew
    · exact List.mem_append_left _ (h.knownFile e (hOld ▸ he))
    · exact hKnownBefore e (hBefore.subset he)
    · exact hKnown e (hNew ▸ he)
  · intro id run hRun'
    cases List.mem_append.mp hRun' with
    | inl hOld => exact List.mem_append_left _ (h.knownAdmission _ _ hOld)
    | inr hNew =>
      obtain ⟨e, he, _, hId, _⟩ := mem_admissionsOf.mp hNew
      exact hId ▸ hKnown e he
  · intro id state hState
    cases List.mem_append.mp hState with
    | inl hOld => exact List.mem_append_left _ (h.knownOutcome _ _ hOld)
    | inr hNew =>
      obtain ⟨e, he, _, hId, _⟩ := mem_outcomesOf.mp hNew
      exact hId ▸ hKnown e he
  · intro id state hState
    cases List.mem_append.mp hState with
    | inl hOld => exact h.settled _ _ hOld
    | inr hNew =>
      obtain ⟨e, _, hSettled, _, hSame'⟩ := mem_outcomesOf.mp hNew
      exact hSame' ▸ hSettled
  · intro e he hSettled
    rcases hFile with hOld | hBefore | hNew
    · exact List.mem_append_left _ (h.shownFile e (hOld ▸ he) hSettled)
    · cases hFresh e (hBefore.subset he) with
      | inl hIn => exact List.mem_append_left _ (h.shown e hIn hSettled)
      | inr hNew =>
        rw [hNew.2.2.1] at hSettled
        cases hSettled
    · exact hShown e (hNew ▸ he) hSettled
  · intro e he hNonempty
    rcases hFile with hOld | hBefore | hNew
    · exact List.mem_append_left _ (h.runFile e (hOld ▸ he) hNonempty)
    · cases hFresh e (hBefore.subset he) with
      | inl hIn => exact List.mem_append_left _ (h.run e hIn hNonempty)
      | inr hNew => exact absurd hNew.2.2.2 hNonempty
    · exact hRun e (hNew ▸ he) hNonempty
  · intro id run hAdmission hRejected
    cases List.mem_append.mp hAdmission with
    | inl hOld =>
      cases List.mem_append.mp hRejected with
      | inl hOld' => exact h.apart _ _ hOld hOld'
      | inr hNew =>
        obtain ⟨e, he, _, hId, hState⟩ := mem_outcomesOf.mp hNew
        obtain ⟨x, hx, hIdX, hChange⟩ := hMemory.origin e he
        rw [← hId, hIdX] at hOld
        exact h.not_rejected (hFresh x hx) (hKept x hx e hChange) hOld hState
    | inr hNew =>
      obtain ⟨e, he, hState, hId, _⟩ := mem_admissionsOf.mp hNew
      have hAlso := hSame e he .rejected (hId ▸ hRejected)
      rw [hState] at hAlso
      cases hAlso
  · intro hIs x hx state hState
    rcases hClean hIs with hNew | hNone | ⟨hWas, hOld, hRequests⟩
    · exact hSame x (hNew ▸ hx) state hState
    · rw [show Watched.fileRequests (w.after l).ledger = [] from hNone] at hx
      cases hx
    · refine h.clean hWas x (hOld ▸ hx) state ?_
      cases List.mem_append.mp hState with
      | inl hBefore => exact hBefore
      | inr hNow =>
        obtain ⟨e, he, hSettled, hId, rfl⟩ := mem_outcomesOf.mp hNow
        have hHere : e ∈ w.ledger.memory.requests := by
          rw [← hRequests]
          exact he
        rw [← hId]
        exact h.shown e hHere hSettled

/-! ## Changes that are kept -/

theorem Kept.refl (w : Watched Digest) (x : Operation) : Kept w x x :=
  ⟨fun _ => rfl, Or.inl, fun _ => Or.inl rfl⟩

theorem Kept.forget (w : Watched Digest) (x : Operation) : Kept w x x.forget := by
  unfold Operation.forget
  split
  · rename_i hUnsettled
    refine ⟨fun hSettled => ?_, fun hRejected => ?_, fun _ => Or.inl rfl⟩
    · cases hState : x.state <;> rw [hState] at hUnsettled hSettled <;> cases hUnsettled <;>
        cases hSettled
    · cases hRejected
  · exact Kept.refl w x

/-- What an event may meet so that nothing false is said of an operation. -/
structure Informed (w : Watched Digest) (e : OperationEvent) (x : Operation) : Prop where
  /-- No rejection of what was admitted. -/
  rejected : e.event = "input_rejected" → x.state.unanswered = true → w.runs x.requestId = []
  /-- The end of a run that was observed, where the entry does not tell which one that is. -/
  finished : e.event = "run_finished" → (x.state = .admitted ∨ x.state = .unknown) →
    x.runId = "" → w.runs x.requestId = [] ∨ e.runId ∈ w.runs x.requestId

theorem mem_runs {id run : String} : run ∈ w.runs id ↔ (id, run) ∈ w.admissions := by
  simp only [Watched.runs, List.mem_map, List.mem_filter, decide_eq_true_eq]
  constructor
  · rintro ⟨⟨id', run'⟩, ⟨hMem, rfl⟩, rfl⟩
    exact hMem
  · intro hMem
    exact ⟨(id, run), ⟨hMem, rfl⟩, rfl⟩

theorem Kept.event {e : OperationEvent} (h : Informed w e x) (hChange : EventChange e x y) :
    Kept w x y := by
  cases hChange with
  | inl hSame => rw [hSame]; exact Kept.refl w x
  | inr hObserved =>
    have hChanged := hObserved.2
    unfold Operation.observe at hChanged
    split at hChanged
    · rename_i hAdmitted
      cases hChanged
      refine ⟨fun hSettled => ?_, (fun hRejected => by cases hRejected), fun _ => Or.inr rfl⟩
      have hUnanswered := hAdmitted.2
      cases hState : x.state <;> rw [hState] at hUnanswered hSettled <;>
        cases hUnanswered <;> cases hSettled
    split at hChanged
    · rename_i hRejected
      cases hChanged
      refine ⟨fun hSettled => ?_, fun _ => Or.inr fun run hRun => ?_, fun _ => Or.inl rfl⟩
      · have hUnanswered := hRejected.2
        cases hState : x.state <;> rw [hState] at hUnanswered hSettled <;>
          cases hUnanswered <;> cases hSettled
      · have hNone := h.rejected hRejected.1 hRejected.2
        have hSome := mem_runs.mpr hRun
        rw [hNone] at hSome
        cases hSome
    split at hChanged
    · rename_i hFinished
      cases hChanged
      refine ⟨fun hSettled => ?_, (fun hRejected => by cases hRejected), fun _ => Or.inl rfl⟩
      cases hFinished.2.1 with
      | inl hState | inr hState => rw [hState] at hSettled; cases hSettled
    split at hChanged
    · cases hChanged
      exact ⟨fun _ => rfl, Or.inl, fun _ => Or.inl rfl⟩
    · cases hChanged

theorem Kept.send (h : Sound issued w) {requestId operation createdAt : String}
    {outcome : SendOutcome} (hNew : requestId ∉ issued)
    (hx : x ∈ w.requests ++ [intentOf requestId operation createdAt])
    (hChange : SendChange requestId outcome x y) : Kept w x y := by
  cases hChange with
  | inl hSame => rw [hSame]; exact Kept.refl w x
  | inr hDelivered =>
    obtain ⟨hId, f, hOutcome, rfl⟩ := hDelivered
    have hIntent : x = intentOf requestId operation createdAt := by
      cases List.mem_append.mp hx with
      | inl hOld => exact absurd (hId ▸ h.known x hOld) hNew
      | inr hOnly => exact List.mem_singleton.mp hOnly
    have hNever : ∀ run, (x.requestId, run) ∉ w.admissions := by
      intro run hRun
      rw [hId] at hRun
      exact hNew (h.knownAdmission _ _ hRun)
    subst hIntent
    refine ⟨(fun hSettled => by cases hSettled), fun _ => Or.inr hNever, fun hRun => ?_⟩
    cases outcome <;> cases hOutcome <;> exact Or.inl rfl

/-! ## Runs -/

/-- Whether an input takes away what was known: a lost connection, and a restart. -/
def loses : ServiceInput Digest → Bool
  | .session _ (.disconnected _) => true
  | .restart _ => true
  | _ => false

/-- What a run says of its operations, step by step. -/
structure Honest (s : LedgerService Digest) (input : ServiceInput Digest)
    (next : LedgerService Digest) : Prop where
  /-- Outcomes are never left. -/
  settled : ∀ id, ∀ e ∈ (next.ledgers id).requests, ∀ state,
    (e.requestId, state) ∈ (s.ledgers id).outcomes → e.state = state
  /-- A lost connection and a restart make unsettled operations unknown, and nothing else; one
  that only the file had is unknown then, or as it was shown. -/
  lost : loses input = true → ∀ id, ∀ e' ∈ (next.ledgers id).requests,
    (∀ e ∈ (s.ledgers id).requests, e'.requestId = e.requestId →
      e'.state = e.state ∨ (e.state.unsettled = true ∧ e'.state = .unknown)) ∧
    ((∀ e ∈ (s.ledgers id).requests, e'.requestId ≠ e.requestId) →
      e'.state = .unknown ∨ (e'.requestId, e'.state) ∈ (s.ledgers id).outcomes)
  /-- An operation is finished by the end of a run, and of the run it was admitted to, unless it
  was shown finished before. -/
  finished : ∀ id, ∀ e' ∈ (next.ledgers id).requests, e'.state = .finished →
    (e'.requestId, .finished) ∈ (s.ledgers id).outcomes ∨
      ∃ event stored, input = .session id (.event event stored) ∧
        event.event = "run_finished" ∧ event.requestId = e'.requestId ∧
        ((s.ledgers id).runs e'.requestId = [] ∨ event.runId ∈ (s.ledgers id).runs e'.requestId)
  /-- What was admitted is not rejected. -/
  admitted : ∀ id, ∀ e ∈ (next.ledgers id).requests, (next.ledgers id).runs e.requestId ≠ [] →
    e.state ≠ .rejected
  /-- An event changes the operation it is about only. -/
  others : ∀ id event stored, input = .session id (.event event stored) →
    (∀ other, other ≠ id → next.ledgers other = s.ledgers other) ∧
      ∀ e ∈ (s.ledgers id).requests, ∀ e' ∈ (next.ledgers id).requests,
        e'.requestId = e.requestId → some e.requestId ≠ event.about → e' = e

/-- What a run must not meet: an event that is not heeded (`Informed`), and a restart while a save
is due and the file lacks an outcome that was shown. -/
def Heard (s : LedgerService Digest) : ServiceInput Digest → LedgerService Digest → Prop
  | .session id (.event e _), _ =>
    (s.ledgers id).ledger.closing = false → (s.ledgers id).ledger.removed = false →
      ∀ x ∈ (s.ledgers id).requests, some x.requestId = e.about → Informed (s.ledgers id) e x
  | .restart _, _ => ∀ id, (s.ledgers id).ledger.dirty = true → (s.ledgers id).FileKeeps
  | _, _ => True

structure Told (w : Watched Digest) (input : LedgerInput Digest) (x y : Operation) : Prop where
  lost : ∀ stored, input = .disconnected stored →
    y.state = x.state ∨ (x.state.unsettled = true ∧ y.state = .unknown)
  finished : x.state ≠ .finished → y.state = .finished →
    ∃ event stored, input = .event event stored ∧ event.event = "run_finished" ∧
      event.requestId = x.requestId ∧
      (w.runs x.requestId = [] ∨ event.runId ∈ w.runs x.requestId)
  others : ∀ event stored, input = .event event stored → some x.requestId ≠ event.about → y = x

/-- How the requests of a ledger come out of an input. -/
def Moved (issued : List String) (w : Watched Digest) (input : LedgerInput Digest)
    (l : Ledger Digest) : Prop :=
  ∃ (R : Operation → Operation → Prop) (before : List Operation),
    (∀ x ∈ before, Fresh issued (LedgerService.newId input) w x) ∧
      (before.map (·.requestId)).Nodup ∧ (∀ x ∈ w.requests, x ∈ before) ∧
      Follows R before w.ledger l ∧
      ∀ x ∈ before, ∀ y, R x y → Kept w x y ∧ (x ∈ w.requests → Told w input x y) ∧
        (x ∉ w.requests → y.state ≠ .finished ∧ ∀ stored, input ≠ .disconnected stored)

theorem Told.same (w : Watched Digest) (input : LedgerInput Digest) (x : Operation) :
    Told w input x x :=
  ⟨fun _ _ => Or.inl rfl, fun hNot hIs => absurd hIs hNot, fun _ _ _ _ => rfl⟩

theorem moved_of_follows (h : Sound issued w) (hFollows : Follows R w.requests w.ledger l)
    (hTold : ∀ x ∈ w.requests, ∀ y, R x y → Kept w x y ∧ Told w input x y) :
    Moved issued w input l :=
  ⟨R, w.requests, fun _ hx => Or.inl hx, h.nodup, fun _ hx => hx, hFollows, fun x hx y hy =>
    ⟨(hTold x hx y hy).1, fun _ => (hTold x hx y hy).2, fun hNot => absurd hx hNot⟩⟩

theorem forget_state (x : Operation) :
    x.forget.state = x.state ∨ (x.state.unsettled = true ∧ x.forget.state = .unknown) := by
  unfold Operation.forget
  split
  · exact Or.inr ⟨‹_›, rfl⟩
  · exact Or.inl rfl

section

variable (h : Sound issued w)
include h

theorem Told.event {e : OperationEvent} {stored : Bool} (hx : x ∈ w.requests)
    (hInformed : some x.requestId = e.about → Informed w e x) (hChange : EventChange e x y) :
    Told w (.event e stored) x y := by
  refine ⟨(fun _ hInput => by cases hInput), ?_, ?_⟩
  · intro hNot hFinished
    cases hChange with
    | inl hSame => rw [hSame] at hFinished; exact absurd hFinished hNot
    | inr hObserved =>
      obtain ⟨hAbout, hChanged⟩ := hObserved
      unfold Operation.observe at hChanged
      split at hChanged
      · cases hChanged; cases hFinished
      split at hChanged
      · cases hChanged; cases hFinished
      split at hChanged
      · rename_i hEnd
        refine ⟨e, stored, rfl, hEnd.1, ?_, ?_⟩
        · rw [OperationEvent.about, hEnd.1, if_neg (by decide)] at hAbout
          exact (Option.some.inj hAbout).symm
        · by_cases hNone : x.runId = ""
          · exact (hInformed hAbout).finished hEnd.1 hEnd.2.1 hNone
          · refine Or.inr (mem_runs.mpr ?_)
            rw [← hEnd.2.2.resolve_left hNone]
            exact h.run x hx hNone
      split at hChanged
      · cases hChanged; exact absurd hFinished hNot
      · cases hChanged
  · intro event stored' hInput hOther
    cases hInput
    cases hChange with
    | inl hSame => exact hSame
    | inr hObserved => exact absurd hObserved.1 hOther

theorem moved_event (limits : LedgerLimits Digest) (e : OperationEvent) (stored : Bool)
    (hInformed : w.ledger.closing = false → w.ledger.removed = false → ∀ x ∈ w.requests, some x.requestId = e.about → Informed w e x) :
    Moved issued w (.event e stored) (w.ledger.onEvent limits stored e) := by
  by_cases hIgnored : w.ledger.closing = true ∨ w.ledger.removed = true
  · rw [Ledger.onEvent, if_pos hIgnored]
    refine moved_of_follows h (R := fun x y => y = x) (.refl (by intro _; rfl) _) fun x _ y hy => ?_
    rw [hy]
    exact ⟨Kept.refl w x, Told.same w _ x⟩
  · rw [not_or, Bool.not_eq_true, Bool.not_eq_true] at hIgnored
    refine moved_of_follows h (onEvent_follows limits stored e w.ledger) fun x hx y hy => ?_
    have hThis := hInformed hIgnored.1 hIgnored.2 x hx
    refine ⟨?_, Told.event h hx hThis hy⟩
    cases hy with
    | inl hSame => rw [hSame]; exact Kept.refl w x
    | inr hObserved => exact Kept.event (hThis hObserved.1) (Or.inr hObserved)

theorem moved_quiet (hFollows : Follows R w.requests w.ledger l)
    (hQuiet : ∀ x y, R x y → y.state = x.state ∧ y.runId = x.runId)
    (hInput : ∀ e stored, input ≠ .event e stored) : Moved issued w input l := by
  refine moved_of_follows h hFollows fun x _ y hy => ?_
  obtain ⟨hState, hRun⟩ := hQuiet x y hy
  refine ⟨⟨fun _ => hState, fun hRejected => Or.inl (hState ▸ hRejected), fun _ => Or.inl hRun⟩, ?_⟩
  refine ⟨fun _ _ => Or.inl hState, fun hNot hIs => absurd (hState ▸ hIs) hNot, ?_⟩
  intro e stored hEvent
  exact absurd hEvent (hInput e stored)

theorem moved_disconnected (limits : LedgerLimits Digest) (stored : Bool) :
    Moved issued w (.disconnected stored) (w.ledger.onDisconnected limits stored) := by
  refine moved_of_follows h (onDisconnected_follows limits stored w.ledger) fun x _ y hy => ?_
  cases hy with
  | inl hSame =>
    rw [hSame]
    exact ⟨Kept.refl w x, Told.same w _ x⟩
  | inr hForget =>
    rw [hForget]
    refine ⟨Kept.forget w x, fun _ _ => forget_state x, ?_, (fun _ _ hInput => by cases hInput)⟩
    intro hNot hFinished
    cases forget_state x with
    | inl hSame => exact absurd (hSame ▸ hFinished) hNot
    | inr hUnknown =>
      rw [hUnknown.2] at hFinished
      cases hFinished

theorem moved_send (limits : LedgerLimits Digest) (requestId operation createdAt : String)
    (intentStored : Bool) (outcome : SendOutcome) (stored : Bool) (hNew : requestId ∉ issued) :
    Moved issued w (.send requestId operation createdAt intentStored outcome stored)
      (w.ledger.send limits requestId operation createdAt intentStored outcome stored) := by
  refine ⟨_, _, ?_, ?_, fun x hx => List.mem_append_left _ hx,
    send_follows limits requestId operation createdAt intentStored outcome stored w.ledger, ?_⟩
  · intro x hx
    cases List.mem_append.mp hx with
    | inl hOld => exact Or.inl hOld
    | inr hOnly =>
      rw [List.mem_singleton.mp hOnly]
      exact Or.inr ⟨hNew, List.mem_singleton.mpr rfl, rfl, rfl⟩
  · rw [List.map_append, List.nodup_append]
    refine ⟨h.nodup, List.nodup_singleton _, ?_⟩
    intro id hId other hOther hSame
    obtain ⟨x, hx, rfl⟩ := List.mem_map.mp hId
    rw [List.map_singleton, List.mem_singleton] at hOther
    have hId : x.requestId = requestId := hSame.trans hOther
    exact hNew (hId ▸ h.known x hx)
  · intro x hx y hy
    refine ⟨Kept.send h hNew hx hy, fun hOld => ?_, fun hNot => ⟨?_, fun _ hInput => by cases hInput⟩⟩
    · cases hy with
      | inl hSame => rw [hSame]; exact Told.same w _ x
      | inr hDelivered => exact absurd (hDelivered.1 ▸ h.known x hOld) hNew
    · have hIntent : x = intentOf requestId operation createdAt :=
        List.mem_singleton.mp ((List.mem_append.mp hx).resolve_left hNot)
      rcases hy with rfl | ⟨-, f, hOutcome, rfl⟩
      · rw [hIntent]
        exact fun hIs => by cases hIs
      · cases outcome <;> cases hOutcome <;> exact fun hIs => by cases hIs

theorem moved_step (limits : LedgerLimits Digest) (input : LedgerInput Digest)
    (hNew : ¬∃ id ∈ LedgerService.newId input, id ∈ issued)
    (hInformed : ∀ e stored, input = .event e stored → w.ledger.closing = false → w.ledger.removed = false → ∀ x ∈ w.requests, some x.requestId = e.about → Informed w e x) :
    Moved issued w input (w.ledger.step limits input) := by
  cases input with
  | event e stored => exact moved_event h limits e stored (hInformed e stored rfl)
  | disconnected stored => exact moved_disconnected h limits stored
  | send requestId operation createdAt intentStored outcome stored =>
    exact moved_send h limits requestId operation createdAt intentStored outcome stored
      fun hIn => hNew ⟨requestId, List.mem_singleton.mpr rfl, hIn⟩
  | commitReceipt receipt stored =>
    refine moved_quiet h (commitReceipt_follows limits stored receipt w.ledger) ?_
      (fun _ _ hInput => by cases hInput)
    intro x y hSame
    rw [hSame]
    exact ⟨rfl, rfl⟩
  | freeze =>
    have hStays : Follows (fun x y => y = x) w.ledger.memory.requests w.ledger w.ledger :=
      .refl (by intro _; rfl) _
    refine moved_quiet h ⟨hStays.memory, hStays.clean, hStays.file⟩ ?_
      (fun _ _ hInput => by cases hInput)
    intro x y hSame
    rw [hSame]
    exact ⟨rfl, rfl⟩
  | terminal =>
    refine moved_quiet h (terminal_follows w.ledger) ?_ (fun _ _ hInput => by cases hInput)
    intro x y hSame
    rw [hSame]
    exact ⟨rfl, rfl⟩

end

/-! ## Restarts -/

theorem mem_restart {limits : LedgerLimits Digest} {closing : Bool} {e : Operation}
    (h : e ∈ (l.restart limits closing).memory.requests) :
    ∃ x ∈ Watched.fileRequests l, e = x.forget := by
  unfold Ledger.restart at h
  cases hFile : l.file with
  | none =>
    rw [hFile] at h
    cases h
  | some saved =>
    simp only [hFile, Option.map_some, Option.getD_some, Operations.reload, List.mem_map] at h
    obtain ⟨x, hx, rfl⟩ := h
    refine ⟨x, ?_, rfl⟩
    simp only [Watched.fileRequests, hFile, Option.map_some, Option.getD_some]
    exact (lastOf_sublist _ _).subset hx

theorem restart_ids (closing : Bool) (l : Ledger Digest) :
    ((l.restart limits closing).memory.requests.map (·.requestId)).Sublist
      ((Watched.fileRequests l).map (·.requestId)) := by
  unfold Ledger.restart Watched.fileRequests
  cases l.file with
  | none => exact List.Sublist.refl _
  | some saved =>
    have hIds : ∀ requests : List Operation,
        (requests.map Operation.forget).map (·.requestId) = requests.map (·.requestId) := by
      intro requests
      rw [List.map_map]
      exact List.map_congr_left fun e _ => forget_id e
    simp only [Option.map_some, Option.getD_some, Operations.reload, hIds]
    exact (lastOf_sublist _ _).map _

theorem forget_settled {x : Operation} (h : x.forget.state.settled = true) : x.forget = x := by
  unfold Operation.forget at h ⊢
  split
  · rename_i hUnsettled
    rw [if_pos hUnsettled] at h
    cases h
  · rfl

theorem forget_runId (x : Operation) : x.forget.runId = x.runId := by
  unfold Operation.forget
  split <;> rfl

theorem Sound.loaded (h : Sound issued w) (hKeeps : w.FileKeeps) {limits : LedgerLimits Digest}
    {closing : Bool} {e : Operation} (he : e ∈ (w.ledger.restart limits closing).memory.requests)
    {state : OperationState} (hShown : (e.requestId, state) ∈ w.outcomes) : e.state = state := by
  obtain ⟨x, hx, rfl⟩ := mem_restart he
  rw [forget_id] at hShown
  have hState := hKeeps x hx state hShown
  have hSettled := h.settled _ _ hShown
  rw [← hState] at hSettled ⊢
  rcases forget_state x with hSame | ⟨hUnsettled, -⟩
  · exact hSame
  · cases hIs : x.state <;> rw [hIs] at hSettled hUnsettled <;> cases hSettled <;> cases hUnsettled

theorem Sound.restart (h : Sound issued w) (hKeeps : w.FileKeeps) (limits : LedgerLimits Digest)
    (closing : Bool) : Sound issued (w.after (w.ledger.restart limits closing)) := by
  have hLoaded : ∀ e ∈ (w.ledger.restart limits closing).memory.requests, ∀ state,
      (e.requestId, state) ∈ w.outcomes → e.state = state := fun e he _ => h.loaded hKeeps he
  generalize hl : w.ledger.restart limits closing = l at hLoaded ⊢
  have hMem : ∀ e ∈ l.memory.requests, ∃ x ∈ Watched.fileRequests w.ledger, e = x.forget := by
    intro e he
    rw [← hl] at he
    exact mem_restart he
  have hIds : (l.memory.requests.map (·.requestId)).Nodup := by
    rw [← hl]
    exact (restart_ids limits closing w.ledger).nodup h.nodupFile
  have hFile : Watched.fileRequests l = Watched.fileRequests w.ledger := by
    rw [← hl]
    rfl
  have hSettled : ∀ e ∈ l.memory.requests, e.state.settled = true →
      (e.requestId, e.state) ∈ w.outcomes := by
    intro e he hIs
    obtain ⟨x, hx, rfl⟩ := hMem e he
    have hSame := forget_settled hIs
    rw [hSame] at hIs ⊢
    exact h.shownFile x hx hIs
  have hNone : ∀ id run, (id, run) ∉ admissionsOf l.memory.requests := by
    intro id run hRun
    obtain ⟨e, he, hState, _⟩ := mem_admissionsOf.mp hRun
    obtain ⟨x, _, rfl⟩ := hMem e he
    unfold Operation.forget at hState
    split at hState
    · cases hState
    · rename_i hNot
      rw [hState] at hNot
      exact hNot rfl
  have hOutcomes : ∀ id state, (id, state) ∈ w.outcomes ++ outcomesOf l.memory.requests →
      (id, state) ∈ w.outcomes := by
    intro id state hState
    cases List.mem_append.mp hState with
    | inl hOld => exact hOld
    | inr hNew =>
      obtain ⟨e, he, hIs, rfl, rfl⟩ := mem_outcomesOf.mp hNew
      exact hSettled e he hIs
  have hAdmissions : ∀ id run, (id, run) ∈ w.admissions ++ admissionsOf l.memory.requests →
      (id, run) ∈ w.admissions := by
    intro id run hRun
    exact (List.mem_append.mp hRun).resolve_right (hNone id run)
  refine ⟨hIds, ?_, ?_, ?_, ?_, ?_, ?_, ?_, ?_, ?_, ?_, ?_, ?_, ?_⟩
  · show ((Watched.fileRequests l).map (·.requestId)).Nodup
    rw [hFile]
    exact h.nodupFile
  · intro e he
    obtain ⟨x, hx, rfl⟩ := hMem e he
    rw [forget_id]
    exact h.knownFile x hx
  · intro e he
    exact h.knownFile e (hFile ▸ he)
  · exact fun id run hRun => h.knownAdmission id run (hAdmissions id run hRun)
  · exact fun id state hState => h.knownOutcome id state (hOutcomes id state hState)
  · exact fun id state hState => h.settled id state (hOutcomes id state hState)
  · exact fun e he state hState => hLoaded e he state (hOutcomes _ _ hState)
  · exact fun e he hIs => List.mem_append_left _ (hSettled e he hIs)
  · exact fun e he hIs => List.mem_append_left _ (h.shownFile e (hFile ▸ he) hIs)
  · intro e he hNonempty
    obtain ⟨x, hx, rfl⟩ := hMem e he
    rw [forget_id, forget_runId] at *
    exact List.mem_append_left _ (h.runFile x hx hNonempty)
  · exact fun e he hNonempty => List.mem_append_left _ (h.runFile e (hFile ▸ he) hNonempty)
  · exact fun id run hRun hState => h.apart id run (hAdmissions id run hRun) (hOutcomes _ _ hState)
  · exact fun _ x hx state hState => hKeeps x (hFile ▸ hx) state (hOutcomes _ _ hState)

/-! ## The service -/

theorem Sound.mono {issued more : List String} (h : Sound issued w) : Sound (issued ++ more) w where
  nodup := h.nodup
  nodupFile := h.nodupFile
  known e he := List.mem_append_left _ (h.known e he)
  knownFile e he := List.mem_append_left _ (h.knownFile e he)
  knownAdmission id run hRun := List.mem_append_left _ (h.knownAdmission id run hRun)
  knownOutcome id state hState := List.mem_append_left _ (h.knownOutcome id state hState)
  settled := h.settled
  same := h.same
  shown := h.shown
  shownFile := h.shownFile
  run := h.run
  runFile := h.runFile
  apart := h.apart
  clean := h.clean

def LedgerService.Sound (s : LedgerService Digest) : Prop :=
  ∀ id, Hub.Sound s.issued (s.ledgers id)

theorem LedgerService.sound_start : (start : LedgerService Digest).Sound := by
  intro id
  constructor <;> simp [start, Watched.requests, Watched.fileRequests, Watched.FileKeeps, Ledger.new,
    Operations.empty]

theorem Sound.admitted (h : Hub.Sound issued w) {e : Operation} (he : e ∈ w.requests)
    (hRuns : w.runs e.requestId ≠ []) : e.state ≠ .rejected := by
  intro hRejected
  obtain ⟨run, hRun⟩ := List.exists_mem_of_ne_nil _ hRuns
  have hShown := h.shown e he (by rw [hRejected]; rfl)
  rw [hRejected] at hShown
  exact h.apart _ run (mem_runs.mp hRun) hShown

theorem session_honest {s : LedgerService Digest} (h : s.Sound) {id : String}
    (hMoved : Moved s.issued (s.ledgers id) input ((s.ledgers id).ledger.step limits input))
    {next : LedgerService Digest} (hIssued : next.issued = s.issued ++ LedgerService.newId input)
    (hThis : next.ledgers id = (s.ledgers id).after ((s.ledgers id).ledger.step limits input))
    (hOthers : ∀ other, other ≠ id → next.ledgers other = s.ledgers other) :
    next.Sound ∧ Honest s (.session id input) next := by
  obtain ⟨R, before, hFresh, hNodup, hOld, hFollows, hChange⟩ := hMoved
  have hAfter := (h id).after hFresh hNodup hFollows fun x hx y hy => (hChange x hx y hy).1
  -- A request after the step is an older one, changed as the input says, or was handed out now.
  have hOrigin : ∀ e' ∈ (next.ledgers id).requests,
      (∃ e ∈ (s.ledgers id).requests, e'.requestId = e.requestId ∧ Told (s.ledgers id) input e e') ∨
        (e'.state ≠ .finished ∧ ∀ stored, input ≠ .disconnected stored) := by
    intro e' he'
    rw [hThis] at he'
    obtain ⟨x, hx, hId, hR⟩ := hFollows.memory.origin e' he'
    obtain ⟨-, hTold, hNew⟩ := hChange x hx e' hR
    by_cases hHere : x ∈ (s.ledgers id).requests
    · exact Or.inl ⟨x, hHere, hId, hTold hHere⟩
    · exact Or.inr (hNew hHere)
  have hSound : next.Sound := by
    intro other
    rw [hIssued]
    by_cases hOther : other = id
    · rw [hOther, hThis]
      exact hAfter
    · rw [hOthers other hOther]
      exact (h other).mono
  -- A request after the step is the one of its identifier, changed as the input says.
  have hTold : ∀ e ∈ (s.ledgers id).requests, ∀ e' ∈ (next.ledgers id).requests,
      e'.requestId = e.requestId → Told (s.ledgers id) input e e' := by
    intro e he e' he' hId
    rw [hThis] at he'
    obtain ⟨x, hx, hIdX, hR⟩ := hFollows.memory.origin e' he'
    have hSame : x = e := eq_of_id hNodup hx (hOld e he) (hIdX.symm.trans hId)
    rw [hSame] at hx hR
    exact (hChange e hx e' hR).2.1 he
  have hElse : ∀ other, other ≠ id → ∀ e ∈ (s.ledgers other).requests,
      ∀ e' ∈ (next.ledgers other).requests, e'.requestId = e.requestId → e' = e := by
    intro other hOther e he e' he' hId
    rw [hOthers other hOther] at he'
    exact eq_of_id (h other).nodup he' he hId
  refine ⟨hSound, ?_, ?_, ?_, ?_, ?_⟩
  · intro other e he state hState
    refine (hSound other).same e he state ?_
    by_cases hOther : other = id
    · rw [hOther] at hState ⊢
      rw [hThis]
      exact List.mem_append_left _ hState
    · rw [hOthers other hOther]
      exact hState
  · intro hLoses other e' he'
    by_cases hOther : other = id
    · subst hOther
      cases input with
      | disconnected stored =>
        refine ⟨fun e he hId => (hTold e he e' he' hId).lost stored rfl, fun hNew => ?_⟩
        rcases hOrigin e' he' with ⟨e, he, hId, -⟩ | ⟨-, hInput⟩
        · exact absurd hId (hNew e he)
        · exact absurd rfl (hInput stored)
      | _ => cases hLoses
    · refine ⟨fun e he hId => Or.inl (by rw [hElse other hOther e he e' he' hId]), fun hNew => ?_⟩
      rw [hOthers other hOther] at he'
      exact absurd rfl (hNew e' he')
  · intro other e' he' hFinished
    by_cases hOther : other = id
    · subst hOther
      rcases hOrigin e' he' with ⟨e, he, hId, hTold⟩ | ⟨hNot, -⟩
      · rw [hId]
        by_cases hBefore : e.state = .finished
        · have hShown := (h other).shown e he (by rw [hBefore]; rfl)
          rw [hBefore] at hShown
          exact Or.inl hShown
        · obtain ⟨event, stored, hInput, hEvent⟩ := hTold.finished hBefore hFinished
          exact Or.inr ⟨event, stored, by rw [hInput], hEvent⟩
      · exact absurd hFinished hNot
    · rw [hOthers other hOther] at he'
      have hShown := (h other).shown e' he' (by rw [hFinished]; rfl)
      rw [hFinished] at hShown
      exact Or.inl hShown
  · intro other e he hRuns
    exact (hSound other).admitted he hRuns
  · intro other event stored hInput
    cases hInput
    exact ⟨hOthers, fun e he e' he' hId hAbout =>
      (hTold e he e' he' hId).others event stored rfl hAbout⟩

theorem restart_honest {s : LedgerService Digest} (h : s.Sound) (closing : String → Bool)
    (hDirty : ∀ id, (s.ledgers id).ledger.dirty = true → (s.ledgers id).FileKeeps)
    {next : LedgerService Digest} (hIssued : next.issued = s.issued)
    (hNext : ∀ id, next.ledgers id =
      (s.ledgers id).after ((s.ledgers id).ledger.restart limits (closing id))) :
    next.Sound ∧ Honest s (.restart closing) next := by
  have hKeeps : ∀ id, (s.ledgers id).FileKeeps := by
    intro id
    cases hIs : (s.ledgers id).ledger.dirty with
    | true => exact hDirty id hIs
    | false => exact (h id).clean hIs
  have hLoaded : ∀ id, ∀ e ∈ ((s.ledgers id).ledger.restart limits (closing id)).memory.requests,
      ∀ state, (e.requestId, state) ∈ (s.ledgers id).outcomes → e.state = state :=
    fun id e he _ => (h id).loaded (hKeeps id) he
  have hSound : next.Sound := by
    intro id
    rw [hIssued, hNext]
    exact (h id).restart (hKeeps id) limits (closing id)
  -- What is loaded is unknown, or was shown.
  have hKnown : ∀ id, ∀ e' ∈ (next.ledgers id).requests,
      e'.state = .unknown ∨ (e'.requestId, e'.state) ∈ (s.ledgers id).outcomes := by
    intro id e' he'
    rw [hNext] at he'
    obtain ⟨x, hx, rfl⟩ := mem_restart he'
    rcases forget_state x with hSame | ⟨-, hUnknown⟩
    · cases hSettled : x.state.settled with
      | true =>
        rw [forget_id, hSame]
        exact Or.inr ((h id).shownFile x hx hSettled)
      | false =>
        left
        unfold Operation.forget at hSame ⊢
        cases hState : x.state <;> simp_all [OperationState.unsettled, OperationState.settled]
    · exact Or.inl hUnknown
  -- What is loaded has the outcome it had, or none.
  have hState : ∀ id, ∀ e ∈ (s.ledgers id).requests, ∀ e' ∈ (next.ledgers id).requests,
      e'.requestId = e.requestId →
        e'.state = e.state ∨ (e.state.unsettled = true ∧ e'.state = .unknown) := by
    intro id e he e' he' hId
    rw [hNext] at he'
    by_cases hSettled : e.state.settled = true
    · refine Or.inl (hLoaded id e' he' e.state ?_)
      rw [hId]
      exact (h id).shown e he hSettled
    · obtain ⟨x, hx, rfl⟩ := mem_restart he'
      by_cases hUnsettled : x.state.unsettled = true
      · have hUnknown : x.forget.state = .unknown := by
          unfold Operation.forget
          rw [if_pos hUnsettled]
        rw [hUnknown]
        cases hE : e.state <;> rw [hE] at hSettled <;> first
          | exact Or.inl rfl
          | exact Or.inr ⟨rfl, rfl⟩
          | exact absurd rfl hSettled
      · have hSame : x.forget = x := by
          unfold Operation.forget
          rw [if_neg hUnsettled]
        rw [hSame] at hId ⊢
        cases hX : x.state with
        | intent | sent | admitted => rw [hX] at hUnsettled; exact absurd rfl hUnsettled
        | unknown =>
          cases hE : e.state <;> rw [hE] at hSettled <;> first
            | exact Or.inl rfl
            | exact Or.inr ⟨rfl, rfl⟩
            | exact absurd rfl hSettled
        | rejected | finished =>
          have hShown := (h id).shownFile x hx (by rw [hX]; rfl)
          rw [hId] at hShown
          rw [← hX]
          exact Or.inl ((h id).same e he _ hShown).symm
  refine ⟨hSound, ?_, fun _ id e' he' => ⟨fun e he hId => hState id e he e' he' hId,
    fun _ => hKnown id e' he'⟩, ?_, ?_, (fun _ _ _ hInput => by cases hInput)⟩
  · intro id e he state hShown
    rw [hNext] at he
    exact hLoaded id e he state hShown
  · intro id e' he' hFinished
    refine Or.inl ?_
    rcases hKnown id e' he' with hUnknown | hShown
    · rw [hUnknown] at hFinished
      cases hFinished
    · exact hFinished ▸ hShown
  · intro id e he hRuns
    exact (hSound id).admitted he hRuns

theorem step_honest {s next : LedgerService Digest} {input : ServiceInput Digest} (h : s.Sound)
    (hStep : s.step limits input = some next) (hHeard : Heard s input next) :
    next.Sound ∧ Honest s input next := by
  cases input with
  | session id input =>
    rw [LedgerService.step] at hStep
    by_cases hNew : ∃ new ∈ LedgerService.newId input, new ∈ s.issued
    · rw [if_pos hNew] at hStep
      cases hStep
    rw [if_neg hNew] at hStep
    cases hStep
    refine session_honest limits h (moved_step (h id) limits input hNew ?_) rfl ?_ ?_
    · intro e stored hInput
      subst hInput
      exact hHeard
    · show (if id = id then _ else _) = _
      rw [if_pos rfl]
    · intro other hOther
      show (if other = id then _ else _) = _
      rw [if_neg hOther]
  | restart closing =>
    cases hStep
    exact restart_honest limits h closing hHeard rfl fun _ => rfl

namespace LedgerService

/-- A run that hears no rejection of what was admitted, no end of a run that the ledger does not
know for the operation, and loads no operation without its outcome, says nothing false. -/
theorem run_honest (limits : LedgerLimits Digest) (inputs : List (ServiceInput Digest))
    (h : Along (step limits) Heard start inputs) :
    Along (step limits) Honest start inputs :=
  along_imp (P := Sound) (fun _ _ _ hSound hStep hHeard => (step_honest limits hSound hStep hHeard).1)
    (fun _ _ _ hSound hStep hHeard => (step_honest limits hSound hStep hHeard).2) sound_start h

/-- Files of any size are saved. -/
def unlimited : LedgerLimits Nat where
  bytes := fun _ => 0
  maxReceipts := 200

def workerEvent (event requestId runId : String) : OperationEvent where
  event := event
  requestId := requestId
  runId := runId
  rejectedId := some requestId
  message := none
  status := some "completed"
  durable := false
  summary := none

def lostMessage (last : LedgerInput Nat) : List (ServiceInput Nat) :=
  [.session "child" (.send "request" "message" "" true .enqueued true),
    .session "child" (.event (workerEvent "input_admitted" "request" "run") true),
    .session "child" (.disconnected true),
    .session "child" last]

/-- A rejection of a request that was admitted is believed once the connection was lost. -/
theorem rejected_after_admission : ¬Along (step unlimited) Honest start
      (lostMessage (.event (workerEvent "input_rejected" "request" "") true)) := by
  intro h
  have hLast := ((((h _ rfl).2 _ rfl).2 _ rfl).2 _ rfl).1
  refine hLast.admitted "child" _ (List.mem_singleton.mpr rfl) ?_ rfl
  decide +kernel

/-- The end of the run is believed, and is there after a restart. -/
theorem run_honest_finished : Along (step unlimited) Honest start
      (lostMessage (.event (workerEvent "run_finished" "request" "run") true) ++
        [.restart fun _ => false]) := by
  refine run_honest unlimited _ ?_
  intro first hFirst
  cases hFirst
  refine ⟨trivial, ?_⟩
  intro second hSecond
  cases hSecond
  refine ⟨fun _ _ x _ _ => ⟨fun hEvent => absurd hEvent (by decide),
    fun hEvent => absurd hEvent (by decide)⟩, ?_⟩
  intro third hThird
  cases hThird
  refine ⟨trivial, ?_⟩
  intro fourth hFourth
  cases hFourth
  refine ⟨fun _ _ x hx _ => ⟨fun hEvent => absurd hEvent (by decide), fun _ _ hRun => ?_⟩, ?_⟩
  · rw [List.mem_singleton.mp hx] at hRun
    exact absurd hRun (by decide)
  · intro fifth hFifth
    cases hFifth
    refine ⟨fun id hDirty => ?_, trivial⟩
    by_cases hId : id = "child"
    · subst hId
      exact absurd hDirty (by decide +kernel)
    · simp [hId, start, Ledger.new] at hDirty

end LedgerService

end SimplexAgent.Hub
