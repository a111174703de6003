import SimplexAgent.Core.CommitSequence
import SimplexAgent.Loop.ContextStatisticLedger

/-!
# Token usage over the life of a worker

The statistic hook counts a response when it next reads its slot, at the latest when the
run ends; a failed edit takes its count back together with everything else, and a
compaction carries the slot from the copy into the replacement while the responses it
was computed from are dropped.

The ledger of committed responses is what the slot has to show. `Accounted` says that
the slot shows the beginning of the ledger and that the rest of it is still in the
history, behind the checkpoint of the slot; so every count that succeeds arrives at the
sums over the whole ledger.
-/

namespace SimplexAgent.Core

open Dataclass Loop Loop.ContextStatistic
open Verified.Tables (bind_ok)

/-! ## Responses behind a checkpoint -/

/-- The usages of the responses with a number behind `checkpoint`. -/
def behind (checkpoint : UInt64) (responses : List (UInt64 × MessageItem)) :
    List (Option TokenCost) :=
  (responses.filter fun x => checkpoint < x.1).map fun x => x.2.cost

/-- The numbers that were given out increase. -/
def Ordered (responses : List (UInt64 × MessageItem)) : Prop :=
  (responses.filter fun x => x.1 ≠ 0).Pairwise fun x y => x.1 < y.1

theorem behind_append (checkpoint : UInt64) (xs ys : List (UInt64 × MessageItem)) :
    behind checkpoint (xs ++ ys) = behind checkpoint xs ++ behind checkpoint ys := by
  simp [behind]

theorem behind_bounded {checkpoint : UInt64} {responses : List (UInt64 × MessageItem)}
    (h : ∀ x ∈ responses, x.1 ≤ checkpoint) : behind checkpoint responses = [] := by
  unfold behind
  rw [List.filter_eq_nil_iff.mpr]
  · rfl
  · intro x hx
    simpa using h x hx

theorem filter_later {checkpoint later : UInt64} {responses : List (UInt64 × MessageItem)}
    (hLater : checkpoint < later) (h : ∀ x ∈ responses, x.1 ≠ 0 → later < x.1) :
    (responses.filter fun x => later < x.1) = responses.filter fun x => checkpoint < x.1 := by
  apply List.filter_congr
  intro x hx
  by_cases hZero : x.1 = 0
  · rw [hZero]
    have hNot : ∀ n : UInt64, ¬n < 0 := fun n => by
      rw [UInt64.lt_iff_toNat_lt]
      exact Nat.not_lt_zero _
    simp [hNot]
  · have hAfter := h x hx hZero
    simp [hAfter, UInt64.lt_trans hLater hAfter]

/-- **The pass over a history** collects the usages behind its checkpoint. -/
theorem pendingCosts_eq (history : List AgentLoopStep) : ∀ checkpoint : UInt64,
      Ordered (history.map fun step => (step.commitSequence, step.modelResponse)) →
      pendingCosts checkpoint history =
        behind checkpoint (history.map fun step => (step.commitSequence, step.modelResponse)) := by
  induction history with
  | nil => exact fun checkpoint _ => rfl
  | cons step rest ih =>
    intro checkpoint hOrdered
    by_cases hOld : step.commitSequence = 0 ∨ step.commitSequence ≤ checkpoint
    · have hRest : Ordered (rest.map fun step => (step.commitSequence, step.modelResponse)) :=
        hOrdered.sublist ((List.sublist_cons_self _ _).filter _)
      have hNot : ¬checkpoint < step.commitSequence := by
        rcases hOld with hZero | hLe
        · rw [hZero, UInt64.lt_iff_toNat_lt]
          exact Nat.not_lt_zero _
        · exact UInt64.not_lt.mpr hLe
      rw [pendingCosts, if_pos hOld, ih checkpoint hRest]
      simp [behind, hNot]
    · have hNew : checkpoint < step.commitSequence := by
        simpa using (not_or.mp hOld).2
      have hSplit := hOrdered
      unfold Ordered at hSplit
      rw [List.map_cons, List.filter_cons_of_pos (by simpa using (not_or.mp hOld).1),
        List.pairwise_cons] at hSplit
      rw [pendingCosts, if_neg hOld, ih step.commitSequence hSplit.2, behind, filter_later hNew]
      · simp [behind, hNew]
      · intro x hx hZero
        exact hSplit.1 x (List.mem_filter.mpr ⟨hx, by simpa using hZero⟩)

/-! ## The slot and the ledger -/

variable {log : List MessageItem}

/-- A slot shows the beginning of the log, and the rest of the log is behind its checkpoint;
without a slot the history is the log. -/
def Slot (slot : Option Json) (counter : UInt64) (responses : List (UInt64 × MessageItem))
    (log : List (Option TokenCost)) : Prop :=
  match slot with
  | none => log = responses.map fun x => x.2.cost
  | some status => ∃ counted accounted, Shows status (Totals.of counted) accounted ∧
      accounted ≤ counter ∧ log = counted ++ behind accounted responses

theorem tracked_iff {s : AgentInputState} {log : List (Option TokenCost)}
    (hOrdered : Ordered (numbered s)) :
    Tracked s log ↔ Slot (externalStatus s.extras name) (committed s) (numbered s) log := by
  unfold Tracked Slot
  cases externalStatus s.extras name with
  | none => simp [numbered, Function.comp_def]
  | some status =>
    dsimp only
    have hPending : ∀ accounted, pendingCosts accounted (steps s) =
        behind accounted (numbered s) := fun accounted => pendingCosts_eq _ _ hOrdered
    simp only [hPending]

/-- The conversation and the responses `log` that were committed to it. -/
structure Accounted (log : List MessageItem) (s : AgentInputState) : Prop where
  ordered : Ordered (numbered s)
  bounded : ∀ x ∈ numbered s, x.1 ≤ committed s
  slot : Slot (externalStatus s.extras name) (committed s) (numbered s) (log.map MessageItem.cost)

theorem Accounted.tracked {s : AgentInputState} (h : Accounted log s) :
    Tracked s (log.map MessageItem.cost) :=
  (tracked_iff h.ordered).mpr h.slot

theorem Accounted.same {s s' : AgentInputState} (h : Accounted log s)
    (hNumbered : numbered s' = numbered s) (hCounter : committed s' = committed s)
    (hSlot : externalStatus s'.extras name = externalStatus s.extras name) : Accounted log s' := by
  refine ⟨?_, ?_, ?_⟩
  · rw [hNumbered]
    exact h.ordered
  · rw [hNumbered, hCounter]
    exact h.bounded
  · rw [hNumbered, hCounter, hSlot]
    exact h.slot

theorem Accounted.advance {s s' : AgentInputState} {response : MessageItem} (h : Accounted log s)
    (hAdvance : Advances s s' response) : Accounted (log ++ [response]) s' := by
  have hLater : ∀ n : UInt64, n ≤ committed s → n < committed s' := by
    intro n hn
    rw [UInt64.le_iff_toNat_le] at hn
    rw [UInt64.lt_iff_toNat_lt, hAdvance.counter]
    omega
  refine ⟨?_, ?_, ?_⟩
  · unfold Ordered
    rw [hAdvance.appended, List.filter_append, List.pairwise_append]
    refine ⟨h.ordered, ?_, fun x hx y hy => ?_⟩
    · exact (List.pairwise_singleton _ _).sublist List.filter_sublist
    · rw [List.mem_singleton.mp (List.mem_of_mem_filter hy)]
      exact hLater _ (h.bounded x (List.mem_of_mem_filter hx))
  · intro x hx
    rw [hAdvance.appended, List.mem_append, List.mem_singleton] at hx
    rcases hx with hOld | rfl
    · exact UInt64.le_of_lt (hLater _ (h.bounded x hOld))
    · exact UInt64.le_refl _
  · have hSlot := h.slot
    rw [hAdvance.extras, hAdvance.appended]
    unfold Slot at hSlot ⊢
    cases hExtras : externalStatus s.extras name with
    | none =>
      rw [hExtras] at hSlot
      dsimp only at hSlot ⊢
      rw [List.map_append, hSlot, List.map_append]
      rfl
    | some status =>
      rw [hExtras] at hSlot
      obtain ⟨counted, accounted, hShows, hLe, hLog⟩ := hSlot
      refine ⟨counted, accounted, hShows, UInt64.le_of_lt (hLater _ hLe), ?_⟩
      have hNew : behind accounted [(committed s', response)] = [response.cost] := by
        simp [behind, hLater _ hLe]
      rw [List.map_append, hLog, behind_append, hNew, List.append_assoc]
      rfl

theorem accounted_of_shows {s : AgentInputState} {status : Json} (hOrdered : Ordered (numbered s))
    (hBounded : ∀ x ∈ numbered s, x.1 ≤ committed s)
    (hSlot : externalStatus s.extras name = some status)
    (hShows : Shows status (Totals.of (log.map MessageItem.cost)) (committed s)) :
    Accounted log s := by
  refine ⟨hOrdered, hBounded, ?_⟩
  unfold Slot
  rw [hSlot]
  exact ⟨_, _, hShows, UInt64.le_refl _, by rw [behind_bounded hBounded, List.append_nil]⟩

theorem Accounted.dropSteps {s : AgentInputState} {status : Json} {t : Totals} (h : Accounted log s)
    (hSlot : externalStatus s.extras name = some status) (hCurrent : Shows status t (committed s)) :
    Shows status (Totals.of (log.map MessageItem.cost)) (committed s) := by
  have hShown := h.slot
  rw [hSlot] at hShown
  obtain ⟨counted, accounted, hShows, -, hLog⟩ := hShown
  have hSame : accounted = committed s := by
    have hBoth := hShows.holds.accounted
    rw [hCurrent.holds.accounted] at hBoth
    injection hBoth with hBoth
    exact hBoth.symm
  rw [hSame, behind_bounded h.bounded, List.append_nil] at hLog
  rw [hLog, ← hSame]
  exact hShows

/-! ## What a worker does to it -/

section Life

variable {Ω : Type} {host : Host Ω} {config : Configuration}

structure LeavesStatistic (host : Host Ω) : Prop where
  edit : ∀ event s edited world world', host.edit event s world = ((.ok (), edited), world') →
    numbered edited = numbered s ∧ externalStatus edited.extras name = externalStatus s.extras name
  beforeModel : ∀ s context context' world,
    (host.beforeModel s context world).1 = .ok context' →
    externalStatus context'.extras name = externalStatus context.extras name

variable (host config) in
def Readable (s : AgentInputState) : Prop :=
  ∃ read, readStatistics host.round config.contextWindowTokens s
    (externalStatus s.extras name) = .ok read

variable (host config) in
/-- An invariant of the ledger: it holds for the same conversation with the same slot, for a
committed response, for a slot that was brought up to date, and without the steps. -/
structure Ledgered (P : List MessageItem → AgentInputState → Prop) : Prop where
  accounted : ∀ {log : List MessageItem} {s : AgentInputState}, P log s → Accounted log s
  same : ∀ {log : List MessageItem} {s s' : AgentInputState}, P log s →
    numbered s' = numbered s → committed s' = committed s →
    externalStatus s'.extras name = externalStatus s.extras name → P log s'
  advance : ∀ {log : List MessageItem} {s s' : AgentInputState} {response : MessageItem},
    P log s → Advances s s' response → P (log ++ [response]) s'
  shown : ∀ {log : List MessageItem} {s s' : AgentInputState} {status : Json}, P log s →
    Readable host config s → numbered s' = numbered s ∨ numbered s' = [] →
    committed s' = committed s → externalStatus s'.extras name = some status →
    Shows status (Totals.of (log.map MessageItem.cost)) (committed s) → P log s'

theorem ledgered_accounted : Ledgered host config Accounted where
  accounted h := h
  same h := h.same
  advance h := h.advance
  shown {log s s' status} h _ hNumbered hCounter hSlot hShows := by
    rw [← hCounter] at hShows
    rcases hNumbered with hSame | hNone
    · refine accounted_of_shows ?_ ?_ hSlot hShows
      · rw [hSame]
        exact h.ordered
      · rw [hSame, hCounter]
        exact h.bounded
    · refine accounted_of_shows ?_ ?_ hSlot hShows
      · rw [hNone]
        exact List.Pairwise.nil
      · rw [hNone]
        simp

variable {P : List MessageItem → AgentInputState → Prop}
variable {s s' : AgentInputState}

theorem readable_of_countUpdate (hOk : countUpdate host config s = .ok s') :
    Readable host config s := by
  unfold countUpdate ContextStatistic.update at hOk
  obtain ⟨read, hRead, -⟩ := bind_ok hOk
  exact ⟨read, hRead⟩

theorem readable_of_countBeforeModel {s : AgentInputState} {context : ModelContext}
    (hOk : countBeforeModel host config s ⟨s.systemPrompt, s.tools, s.extras⟩ = .ok context) :
    Readable host config s := by
  unfold countBeforeModel ContextStatistic.beforeModel at hOk
  obtain ⟨read, hRead, -⟩ := bind_ok hOk
  exact ⟨read, hRead⟩

/-- **A count that succeeds shows the whole log.** -/
theorem Ledgered.count (k : Ledgered host config P) {log : List MessageItem} (h : P log s)
    (hOk : countUpdate host config s = .ok s') :
    Current s' (log.map MessageItem.cost) ∧ P log s' := by
  obtain ⟨⟨status, hSlot, hShows⟩, hFrame⟩ := (k.accounted h).tracked.update hOk
  have hCounter : committed s' = committed s := by rw [hFrame]; rfl
  refine ⟨⟨status, hSlot, hShows⟩, ?_⟩
  rw [hCounter] at hShows
  exact k.shown h (readable_of_countUpdate hOk) (Or.inl (numbered_countUpdate hOk)) hCounter hSlot
    hShows

theorem Ledgered.countBeforeModel (k : Ledgered host config P) {log : List MessageItem}
    {s : AgentInputState} {context : ModelContext} (h : P log s)
    (hOk : Core.countBeforeModel host config s ⟨s.systemPrompt, s.tools, s.extras⟩ = .ok context) :
    ∃ status, externalStatus context.extras name = some status ∧
      Shows status (Totals.of (log.map MessageItem.cost)) (committed s) :=
  (k.accounted h).tracked.beforeModel rfl hOk

theorem Ledgered.change (k : Ledgered host config P) {env : Env (Desk Ω)}
    {log responses : List MessageItem}
    (hEdit : ∀ event d d', env.edit event s d = ((.ok (), s'), d') → committed s' = committed s → P log s')
    (hBefore : ∀ d context, (env.beforeModel s ⟨s.systemPrompt, s.tools, s.extras⟩ d).1 = .ok context → ∃ counted, Core.countBeforeModel host config s ⟨s.systemPrompt, s.tools, s.extras⟩ = .ok counted ∧ externalStatus context.extras name = externalStatus counted.extras name)
    (h : P log s) (hChange : Change env s s' responses) : P (log ++ responses) s' := by
  cases hChange.numbering with
  | kept hNumbered hCounter hExtras =>
    rw [List.append_nil]
    exact k.same h hNumbered hCounter (by rw [hExtras])
  | advanced hAdvance => exact k.advance h hAdvance
  | context hHooks hNumbered hCounter hExtras =>
    obtain ⟨counted, hCounted, hSame⟩ := hBefore _ _ hHooks
    obtain ⟨status, hSlot, hShows⟩ := k.countBeforeModel h hCounted
    rw [List.append_nil]
    exact k.shown h (readable_of_countBeforeModel hCounted) (Or.inl hNumbered) hCounter
      (by rw [hExtras, hSame, hSlot]) hShows
  | edited hEdited hCounter =>
    rw [List.append_nil]
    exact hEdit _ _ _ hEdited hCounter

theorem Ledgered.workerChange (k : Ledgered host config P) (hHooks : LeavesStatistic host)
    {log responses : List MessageItem} (h : P log s)
    (hChange : Change (workerEnv host config) s s' responses) : P (log ++ responses) s' := by
  refine k.change (fun event d d' hEdit hCounter => ?_) (fun d context hBefore => ?_) h hChange
  · obtain ⟨counted, edited, world, time, hCounted, hEdited, rfl⟩ := workerEnv_edit_ok hEdit
    obtain ⟨hNumbered, hSlot⟩ := hHooks.edit _ _ _ _ _ hEdited
    have hSame : committed edited = committed counted := by
      rw [countUpdate_frame hCounted]
      exact hCounter
    exact k.same (k.count h hCounted).2 hNumbered hSame hSlot
  · unfold workerEnv at hBefore
    dsimp only at hBefore
    split at hBefore
    · cases hBefore
    · rename_i counted hCounted
      exact ⟨counted, hCounted, hHooks.beforeModel _ _ _ _ hBefore⟩

theorem Ledgered.summaryChange (k : Ledgered host config P) {log responses : List MessageItem}
    (h : P log s) (hChange : Change (summaryEnv host config) s s' responses) :
    P (log ++ responses) s' := by
  refine k.change (fun event d d' hEdit _ => ?_) (fun d context hBefore => ?_) h hChange
  · exact (k.count h (summaryEnv_edit_ok hEdit)).2
  · exact ⟨context, hBefore, rfl⟩

theorem countUpdate_without_steps {status : Json} {t : Totals} {accounted : UInt64}
    (hSteps : steps s = []) (hSlot : externalStatus s.extras name = some status)
    (hShows : Shows status t accounted) (hOk : countUpdate host config s = .ok s') :
    accounted = committed s := by
  obtain ⟨read, hRead⟩ := readable_of_countUpdate hOk
  rw [hSlot, hShows.readStatistics_eq] at hRead
  unfold reconcile at hRead
  rw [hShows.holds.accounted, ok_bind] at hRead
  split at hRead
  · cases hRead
  obtain ⟨⟨next, number⟩, hFold, hRead⟩ := bind_ok hRead
  rw [hSteps] at hFold
  injection hFold with hFold
  injection hFold with hNext hNumber
  dsimp only at hRead
  split at hRead
  · cases hRead
  · rename_i hEnd
    rw [hNumber]
    simpa using hEnd

theorem reconcile_fold_old {round : Rat → Rat} {window checkpoint : UInt64} {status : Json}
    (history : List AgentLoopStep) (h : ∀ step ∈ history, step.commitSequence ≤ checkpoint) :
    history.foldlM (reconcileStep round window) (status, checkpoint) = .ok (status, checkpoint) := by
  induction history with
  | nil => rfl
  | cons step rest ih =>
    rw [List.foldlM_cons, reconcileStep, if_pos (Or.inr (h step (by simp))), ok_bind]
    exact ih fun step hStep => h step (by simp [hStep])

theorem readable_of_shows {s : AgentInputState} {status : Json} {t : Totals}
    (hBounded : ∀ x ∈ numbered s, x.1 ≤ committed s)
    (hSlot : externalStatus s.extras name = some status) (hShows : Shows status t (committed s)) :
    Readable host config s := by
  have hSteps : ∀ step ∈ steps s, step.commitSequence ≤ committed s := fun step hStep =>
    hBounded (step.commitSequence, step.modelResponse) (List.mem_map_of_mem hStep)
  unfold Readable
  rw [hSlot, hShows.readStatistics_eq]
  unfold reconcile
  rw [hShows.holds.accounted, ok_bind, if_neg (UInt64.lt_irrefl _), reconcile_fold_old _ hSteps,
    ok_bind]
  dsimp only
  rw [if_neg (by simp)]
  exact ⟨_, rfl⟩

/-- **A replacement carries the counts of the copy**, the summary included. -/
theorem Ledgered.replacement (k : Ledgered host config P) {log : List MessageItem}
    {plan : CompactPlan} {live draft replacement : AgentInputState} {time summary : String}
    (h : P log draft)
    (hMade : replacementOf host config plan live draft time summary = .ok replacement) :
    Current replacement (log.map MessageItem.cost) ∧ P log replacement := by
  obtain ⟨status, extras, fresh, hStatus, hSync, hTurns, hLoop, hExtras, hCounted⟩ :=
    replacementOf_ok hMade
  have hSteps : steps fresh = [] := by simp [steps, hTurns]
  have hCounter : committed fresh = committed draft := by
    unfold committed
    rw [hLoop]
  have hWritten : externalStatus fresh.extras name = some status := by
    rw [hExtras, externalStatus_sync hSync]
  have hSlot := (k.accounted h).slot
  rw [hStatus] at hSlot
  obtain ⟨counted, accounted, hShows, -, -⟩ := hSlot
  rw [countUpdate_without_steps hSteps hWritten hShows hCounted, hCounter] at hShows
  have hLog := (k.accounted h).dropSteps hStatus hShows
  have hRead : Readable host config draft :=
    readable_of_shows (k.accounted h).bounded hStatus hShows
  have hNone : numbered fresh = [] := by
    unfold numbered
    rw [hSteps]
    rfl
  exact k.count (k.shown h hRead (Or.inr hNone) hCounter hWritten hLog) hCounted

/-- **The ledger survives everything a worker does.** -/
theorem Ledgered.keeps (k : Ledgered host config P) (hHooks : LeavesStatistic host) :
    Keeps host config P
      (fun log drafts _ c => P (log ++ drafts) c.run.state)
      (fun log drafts _ replacement => Current replacement ((log ++ drafts).map MessageItem.cost) ∧
        P (log ++ drafts) replacement) where
  touched time h := k.same h (numbered_of_turns rfl) rfl rfl
  changed hChange h := k.workerChange hHooks h hChange
  copied d h := by
    rw [List.append_nil]
    exact k.same h (numbered_of_turns rfl) rfl rfl
  drafted message _ h hSound hPrepared := by
    rw [← List.append_assoc]
    exact k.summaryChange h (step_change _ hSound hPrepared)
  replaced _ h _ _ _ hMade := k.replacement h hMade
  adopted _ h := h.2

/-! ## Sessions -/

/-- The conversation that the next operation works on: the copy while a summary is written. -/
def Session.working : Session Ω → AgentInputState
  | .summarizing _ _ _ _ _ c => c.run.state
  | s => s.live

def Session.usages (s : Session Ω) (l : Ledger) : List (Option TokenCost) :=
  match s with
  | .summarizing _ _ _ _ _ _ => (l.committed ++ l.drafted).map MessageItem.cost
  | _ => l.committed.map MessageItem.cost

def SameCounts (status status' : Json) : Prop :=
  (∀ field ∈ fieldNames, count status' (cumulativeKey field) = count status (cumulativeKey field)) ∧
    count status' "sampled_exchange_count" = count status "sampled_exchange_count" ∧
    count status' "accounted_commit_sequence" = count status "accounted_commit_sequence"

theorem counts_agree {status status' : Json} {key key' : String} {n : Nat}
    (h : Counts status key n) (h' : Counts status' key' n) :
    count status' key' = count status key := by
  obtain ⟨u, hCount, hu⟩ := h
  obtain ⟨u', hCount', hu'⟩ := h'
  rw [hCount, hCount', UInt64.toNat_inj.mp (hu'.trans hu.symm)]

theorem sameCounts_of_shows {status status' : Json} {t : Totals} {accounted : UInt64}
    (h : Shows status t accounted) (h' : Shows status' t accounted) : SameCounts status status' := by
  refine ⟨fun field hField => ?_, ?_, ?_⟩
  · exact counts_agree (h.holds.sums field hField) (h'.holds.sums field hField)
  · exact counts_agree h.holds.samples h'.holds.samples
  · rw [h.holds.accounted, h'.holds.accounted]

theorem Kept.working {s : Session Ω} {l : Ledger}
    (h : Kept host config P (fun log drafts _ c => P (log ++ drafts) c.run.state)
      (fun log drafts _ replacement => Current replacement ((log ++ drafts).map MessageItem.cost) ∧
        P (log ++ drafts) replacement) s l) :
    ∃ log, s.usages l = log.map MessageItem.cost ∧ P log s.working := by
  cases s with
  | summarizing a mode segment plan live c => exact ⟨_, rfl, h.2.1⟩
  | _ => exact ⟨_, rfl, h.1⟩

/-- **Token usage over the life of a worker.** Whenever the statistic is updated, before a
request, at the end of a step or a run, in a summary or on a replacement, its checkpoint is
the counter of committed responses and its sums are those over all of them, the summaries
of committed compactions included. An update repeated at once changes none of its counts. -/
theorem Session.usage_counted (hHooks : LeavesStatistic host) {w : Worker Ω}
    {history : List MessageItem} (hStart : Accounted history w.state) {s : Session Ω} {l : Ledger}
    (h : Session.Traces host config w history s l) :
    (∀ s', countUpdate host config s.working = .ok s' → Current s' (s.usages l)) ∧
      (∀ s' s'', countUpdate host config s.working = .ok s' → countUpdate host config s' = .ok s'' →
        ∃ status status', externalStatus s'.extras name = some status ∧
          externalStatus s''.extras name = some status' ∧ SameCounts status status') ∧
      (∀ context, countBeforeModel host config s.working
          ⟨s.working.systemPrompt, s.working.tools, s.working.extras⟩ = .ok context →
        ∃ status, externalStatus context.extras name = some status ∧
          Shows status (Totals.of (s.usages l)) (committed s.working)) ∧
      (∀ a mode segment result replacement w', s = .replacing a mode segment result replacement w' →
        Current replacement ((l.committed ++ l.drafted).map MessageItem.cost)) := by
  have k : Ledgered host config Accounted := ledgered_accounted
  have hKept := h.kept (k.keeps hHooks) hStart
  obtain ⟨log, hLog, hWorking⟩ := hKept.working
  rw [hLog]
  refine ⟨?_, ?_, ?_, ?_⟩
  · exact fun s' hOk => (k.count hWorking hOk).1
  · intro s' s'' hOk hAgain
    obtain ⟨⟨status, hSlot, hShows⟩, hNext⟩ := k.count hWorking hOk
    obtain ⟨⟨status', hSlot', hShows'⟩, -⟩ := k.count hNext hAgain
    have hCounter : committed s'' = committed s' := by
      rw [countUpdate_frame hAgain]
      rfl
    rw [hCounter] at hShows'
    exact ⟨status, status', hSlot, hSlot', sameCounts_of_shows hShows hShows'⟩
  · exact fun context hOk => k.countBeforeModel hWorking hOk
  · rintro a mode segment result replacement w' rfl
    exact hKept.2.1

end Life

theorem leavesStatistic_metered : LeavesStatistic meteredHost := by
  constructor
  · intro event s edited world world' h
    injection h with h
    injection h with _ h
    subst h
    exact ⟨rfl, rfl⟩
  · intro s context context' world h
    injection h with h
    rw [h]

theorem compactedSession_idle : compactedSession.working = compactedSession.live ∧
    compactedSession.usages compactedLedger = [some ⟨5, 1, 3⟩, some ⟨9, 2, 0⟩, some ⟨5, 1, 3⟩] := by
  obtain ⟨hIdle, hCosts, -⟩ := compactedSession_view
  rw [← hCosts]
  cases hSession : compactedSession with
  | summarizing => rw [hSession] at hIdle; cases hIdle
  | _ => exact ⟨rfl, rfl⟩

/-- After a compaction the next update counts three responses, the summary's among them. -/
theorem usage_counted_compacted : LeavesStatistic meteredHost ∧ Accounted [] freshWorker.state ∧
      compactedSession.usages compactedLedger = [some ⟨5, 1, 3⟩, some ⟨9, 2, 0⟩, some ⟨5, 1, 3⟩] ∧
      ∃ s', countUpdate meteredHost compactingConfiguration compactedSession.working = .ok s' ∧
        Current s' (compactedSession.usages compactedLedger) := by
  have hStart : Accounted [] freshWorker.state :=
    ⟨List.Pairwise.nil, by simp [numbered, steps, freshWorker], rfl⟩
  have hCounts :=
    (Session.usage_counted leavesStatistic_metered hStart compactedSession_traces).1
  have hUpdate : ∃ s',
      countUpdate meteredHost compactingConfiguration compactedSession.working = .ok s' :=
    compactedSession_idle.1 ▸ Verified.Tables.exists_ok_iff.mpr compactedSession_view.2.2.1
  obtain ⟨s', hOk⟩ := hUpdate
  exact ⟨leavesStatistic_metered, hStart, compactedSession_idle.2, s', hOk, hCounts s' hOk⟩

end SimplexAgent.Core
