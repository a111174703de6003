import SimplexAgent.Core.UsageLedger
import SimplexAgent.Llm.ResponsesReader

/-!
# Usage reports that a session cannot get past

The statistic hook checks the usage of a response only after the response has been
committed, and it checks it again before every later request. A report that fails these
checks therefore stops every later run before its first request.

`Serviceable` is the invariant of the ledger with what the hook's passes over the history
rely on: the responses behind the checkpoint are numbered without a gap, and what was
counted could be counted. Under it a pass succeeds exactly when all reports committed so
far fit (`Session.statistic_passes`).
-/

namespace SimplexAgent.Core

open Dataclass Loop Loop.ContextStatistic
open Verified.Tables (bind_ok)

/-! ## Lists of usages -/

theorem fitsAll_append (xs ys : List (Option TokenCost)) :
    ∀ t : Totals, FitsAll t (xs ++ ys) ↔ FitsAll t xs ∧ FitsAll (xs.foldl Totals.add t) ys := by
  induction xs with
  | nil => simp [FitsAll]
  | cons cost rest ih =>
    intro t
    simp only [List.cons_append, FitsAll, List.foldl_cons, ih (t.add cost), and_assoc]

/-! ## Numbers without a gap -/

/-- The numbers behind `checkpoint` are the next ones, up to `counter`. -/
def Follows (checkpoint counter : UInt64) (responses : List (UInt64 × MessageItem)) : Prop :=
  checkpoint ≤ counter ∧ (responses.filter fun x => checkpoint < x.1).map (fun x => x.1.toNat) =
      List.range' (checkpoint.toNat + 1) (counter.toNat - checkpoint.toNat)

theorem follows_counter {counter : UInt64} {responses : List (UInt64 × MessageItem)}
    (h : ∀ x ∈ responses, x.1 ≤ counter) : Follows counter counter responses := by
  refine ⟨UInt64.le_refl _, ?_⟩
  rw [List.filter_eq_nil_iff.mpr fun x hx => by simpa using h x hx]
  simp

theorem Follows.advance {checkpoint : UInt64} {s s' : AgentInputState} {response : MessageItem}
    (h : Follows checkpoint (committed s) (numbered s)) (hAdvance : Advances s s' response) :
    Follows checkpoint (committed s') (numbered s') := by
  obtain ⟨hLe, hNumbers⟩ := h
  have hLe := UInt64.le_iff_toNat_le.mp hLe
  have hCounter := hAdvance.counter
  have hLater : checkpoint < committed s' := by
    rw [UInt64.lt_iff_toNat_lt]
    omega
  refine ⟨UInt64.le_of_lt hLater, ?_⟩
  have hLast : (committed s').toNat - checkpoint.toNat =
      ((committed s).toNat - checkpoint.toNat) + 1 := by omega
  rw [hAdvance.appended, List.filter_append, List.map_append, hNumbers, hLast, List.range'_concat]
  simp only [List.append_cancel_left_eq]
  rw [List.filter_cons_of_pos (by simpa using hLater)]
  simp only [List.filter_nil, List.map_cons, List.map_nil, List.cons.injEq, and_true]
  omega

def numberedSteps (history : List AgentLoopStep) : List (UInt64 × MessageItem) :=
  history.map fun step => (step.commitSequence, step.modelResponse)

theorem Follows.consecutive (history : List AgentLoopStep) :
    ∀ {checkpoint counter : UInt64}, Ordered (numberedSteps history) →
      (∀ x ∈ numberedSteps history, x.2.type = .modelResponse) →
      Follows checkpoint counter (numberedSteps history) →
      Consecutive checkpoint history ∧ lastSequence checkpoint history = counter := by
  induction history with
  | nil =>
    intro checkpoint counter _ _ h
    refine ⟨trivial, ?_⟩
    obtain ⟨hLe, hNumbers⟩ := h
    have hLe := UInt64.le_iff_toNat_le.mp hLe
    have hLength := congrArg List.length hNumbers
    simp only [numberedSteps, List.map_nil, List.filter_nil, List.length_nil,
      List.length_range'] at hLength
    show checkpoint = counter
    rw [← UInt64.toNat_inj]
    omega
  | cons step rest ih =>
    intro checkpoint counter hOrdered hTypes h
    have hRestTypes : ∀ x ∈ numberedSteps rest, x.2.type = .modelResponse :=
      fun x hx => hTypes x (List.mem_cons_of_mem _ hx)
    have hRestOrdered : Ordered (numberedSteps rest) :=
      hOrdered.sublist ((List.sublist_cons_self _ _).filter _)
    by_cases hOld : step.commitSequence = 0 ∨ step.commitSequence ≤ checkpoint
    · have hNot : ¬checkpoint < step.commitSequence := by
        rcases hOld with hZero | hLe
        · rw [hZero, UInt64.lt_iff_toNat_lt]
          exact Nat.not_lt_zero _
        · exact UInt64.not_lt.mpr hLe
      rw [Consecutive, if_pos hOld, lastSequence, if_pos hOld]
      refine ih hRestOrdered hRestTypes ⟨h.1, ?_⟩
      rw [← h.2]
      simp [numberedSteps, hNot]
    · have hNew : checkpoint < step.commitSequence := by
        simpa using (not_or.mp hOld).2
      have hSplit := hOrdered
      unfold Ordered numberedSteps at hSplit
      rw [List.map_cons, List.filter_cons_of_pos (by simpa using (not_or.mp hOld).1),
        List.pairwise_cons] at hSplit
      have hAfter : ∀ x ∈ numberedSteps rest, x.1 ≠ 0 → step.commitSequence < x.1 :=
        fun x hx hZero => hSplit.1 x (List.mem_filter.mpr ⟨hx, by simpa using hZero⟩)
      obtain ⟨hLe, hNumbers⟩ := h
      have hLe := UInt64.le_iff_toNat_le.mp hLe
      have hCons : ((numberedSteps (step :: rest)).filter fun x => checkpoint < x.1) =
          (step.commitSequence, step.modelResponse) ::
            (numberedSteps rest).filter fun x => step.commitSequence < x.1 := by
        rw [filter_later hNew hAfter]
        exact List.filter_cons_of_pos (by simpa using hNew)
      rw [hCons, List.map_cons] at hNumbers
      obtain ⟨m, hm⟩ : ∃ m, counter.toNat - checkpoint.toNat = m + 1 := by
        cases hGap : counter.toNat - checkpoint.toNat with
        | zero =>
          rw [hGap] at hNumbers
          cases hNumbers
        | succ m => exact ⟨m, rfl⟩
      rw [hm, List.range'_succ, List.cons.injEq] at hNumbers
      obtain ⟨hFirst, hNumbers⟩ := hNumbers
      dsimp only at hFirst
      have hRest : Follows step.commitSequence counter (numberedSteps rest) := by
        refine ⟨?_, ?_⟩
        · rw [UInt64.le_iff_toNat_le]
          omega
        · rw [hNumbers, show counter.toNat - step.commitSequence.toNat = m by omega, hFirst]
      rw [Consecutive, if_neg hOld, lastSequence, if_neg hOld]
      obtain ⟨hConsecutive, hLast⟩ := ih hRestOrdered hRestTypes hRest
      have hType := hTypes (step.commitSequence, step.modelResponse) (List.mem_cons_self ..)
      exact ⟨⟨hFirst, hType, hConsecutive⟩, hLast⟩

section Passes

variable {round : Rat → Rat} {window accounted : UInt64}

theorem bootstrapStep_eq {status : Json} {checkpoint : UInt64} {step : AgentLoopStep}
    (hNext : step.commitSequence ≠ 0 → step.commitSequence.toNat = checkpoint.toNat + 1) :
    bootstrapStep round window (status, checkpoint) step =
      (account round window status step.modelResponse.cost).map fun status' =>
        (status', if step.commitSequence = 0 then checkpoint else step.commitSequence) := by
  unfold bootstrapStep
  by_cases hZero : step.commitSequence = 0
  · rw [if_pos hZero, if_pos hZero]
    cases account round window status step.modelResponse.cost <;> rfl
  · rw [if_neg hZero, if_neg hZero, addChecked_one (hNext hZero), ok_bind, if_neg (by simp)]
    cases account round window status step.modelResponse.cost <;> rfl

variable (round window) in
/-- **A pass over a whole history** succeeds exactly when its usages fit, and ends at the
last number. -/
theorem bootstrap_fold_iff (history : List AgentLoopStep) :
    ∀ {status : Json} {t : Totals} {checkpoint : UInt64} {m : Nat}, Shows status t accounted →
      ((numberedSteps history).filter fun x => x.1 ≠ 0).map (fun x => x.1.toNat) =
        List.range' (checkpoint.toNat + 1) m →
      ((∃ result, history.foldlM (bootstrapStep round window) (status, checkpoint) = .ok result) ↔
          FitsAll t (history.map fun step => step.modelResponse.cost)) ∧
        ∀ result, history.foldlM (bootstrapStep round window) (status, checkpoint) = .ok result →
          result.2.toNat = checkpoint.toNat + m := by
  induction history with
  | nil =>
    intro status t checkpoint m _ hNumbers
    have hLength := congrArg List.length hNumbers
    simp only [numberedSteps, List.map_nil, List.filter_nil, List.length_nil,
      List.length_range'] at hLength
    refine ⟨⟨fun _ => trivial, fun _ => ⟨_, rfl⟩⟩, fun result hResult => ?_⟩
    injection hResult with hResult
    rw [← hResult]
    show checkpoint.toNat = checkpoint.toNat + m
    omega
  | cons step rest ih =>
    intro status t checkpoint m hShows hNumbers
    have hSplit : (step.commitSequence ≠ 0 → step.commitSequence.toNat = checkpoint.toNat + 1) ∧
        ∃ m', ((numberedSteps rest).filter fun x => x.1 ≠ 0).map (fun x => x.1.toNat) =
            List.range' ((if step.commitSequence = 0 then checkpoint
              else step.commitSequence).toNat + 1) m' ∧
          (if step.commitSequence = 0 then checkpoint
            else step.commitSequence).toNat + m' = checkpoint.toNat + m := by
      by_cases hZero : step.commitSequence = 0
      · refine ⟨fun hNot => absurd hZero hNot, m, ?_, by rw [if_pos hZero]⟩
        rw [if_pos hZero, ← hNumbers]
        simp [numberedSteps, hZero]
      · unfold numberedSteps at hNumbers
        rw [List.map_cons, List.filter_cons_of_pos (by simpa using hZero), List.map_cons]
          at hNumbers
        cases m with
        | zero => cases hNumbers
        | succ m =>
          rw [List.range'_succ, List.cons.injEq] at hNumbers
          obtain ⟨hFirst, hRest⟩ := hNumbers
          dsimp only at hFirst
          refine ⟨fun _ => hFirst, m, ?_, ?_⟩
          · rw [if_neg hZero, hFirst]
            exact hRest
          · rw [if_neg hZero]
            omega
    obtain ⟨hNext, m', hRest, hEnd⟩ := hSplit
    rw [List.foldlM_cons, bootstrapStep_eq hNext]
    have hSpec := hShows.account round window step.modelResponse.cost
    by_cases hFits : Fits t step.modelResponse.cost
    · obtain ⟨next, hOk, hShown⟩ := hSpec.1 hFits
      obtain ⟨hIff, hLast⟩ := ih hShown hRest
      rw [hOk, Except.map, ok_bind]
      refine ⟨?_, fun result hResult => ?_⟩
      · rw [hIff]
        exact ⟨fun hAll => ⟨hFits, hAll⟩, fun hAll => hAll.2⟩
      · rw [hLast result hResult, hEnd]
    · obtain ⟨f, hError⟩ := hSpec.2 hFits
      rw [hError]
      constructor
      · constructor
        · rintro ⟨result, hNever⟩
          cases hNever
        · exact fun hAll => absurd hAll.1 hFits
      · rintro result hNever
        cases hNever

/-- Without a slot. -/
theorem bootstrap_iff {s : AgentInputState} (h : Follows 0 (committed s) (numbered s)) :
    (∃ status, bootstrap round window s = .ok status) ↔
      FitsAll {} ((numbered s).map fun x => x.2.cost) := by
  have hNumbers : ((numberedSteps (steps s)).filter fun x => x.1 ≠ 0).map (fun x => x.1.toNat) =
      List.range' ((0 : UInt64).toNat + 1) (committed s).toNat := by
    have hSame : ((numbered s).filter fun x => (0 : UInt64) < x.1) =
        (numbered s).filter fun x => x.1 ≠ 0 := by
      apply List.filter_congr
      intro x _
      rw [decide_eq_decide, UInt64.lt_iff_toNat_lt, ne_eq, ← UInt64.toNat_inj]
      exact Nat.pos_iff_ne_zero
    show ((numbered s).filter fun x => x.1 ≠ 0).map (fun x => x.1.toNat) = _
    rw [← hSame, h.2]
    rfl
  obtain ⟨hIff, hLast⟩ := bootstrap_fold_iff round window (steps s) (shows_empty window) hNumbers
  have hCosts : ((numbered s).map fun x => x.2.cost) =
      (steps s).map fun step => step.modelResponse.cost := by
    simp [numbered, Function.comp_def]
  rw [hCosts, ← hIff]
  unfold bootstrap
  constructor
  · rintro ⟨status, hOk⟩
    obtain ⟨result, hFold, -⟩ := bind_ok hOk
    exact ⟨result, hFold⟩
  · rintro ⟨result, hFold⟩
    have hEnd : result.2 = committed s := by
      rw [← UInt64.toNat_inj, hLast result hFold]
      exact Nat.zero_add _
    rw [hFold, ok_bind]
    obtain ⟨status, checkpoint⟩ := result
    dsimp only at hEnd ⊢
    rw [if_neg (by simpa using hEnd)]
    exact ⟨_, rfl⟩

theorem reconcile_iff {s : AgentInputState} {status : Json} {t : Totals}
    (hShows : Shows status t accounted) (hOrdered : Ordered (numbered s))
    (hTypes : ∀ x ∈ numbered s, x.2.type = .modelResponse)
    (h : Follows accounted (committed s) (numbered s)) :
    (∃ status', reconcile round window status s = .ok status') ↔
      FitsAll t (behind accounted (numbered s)) := by
  obtain ⟨hConsecutive, hLast⟩ := Follows.consecutive (steps s) hOrdered hTypes h
  have hPending : pendingCosts accounted (steps s) = behind accounted (numbered s) :=
    pendingCosts_eq _ _ hOrdered
  have hNotAhead : ¬accounted > committed s := by
    rw [gt_iff_lt, UInt64.not_lt]
    exact h.1
  have hIff : (∃ result, (steps s).foldlM (reconcileStep round window) (status, accounted) =
      .ok result) ↔ FitsAll t (pendingCosts accounted (steps s)) :=
    reconcile_fold_iff (steps s) hShows hConsecutive
  rw [hPending] at hIff
  rw [← hIff]
  unfold reconcile
  rw [hShows.holds.accounted, ok_bind, if_neg hNotAhead]
  constructor
  · rintro ⟨status', hOk⟩
    obtain ⟨result, hFold, -⟩ := bind_ok hOk
    exact ⟨result, hFold⟩
  · rintro ⟨⟨status', checkpoint⟩, hFold⟩
    have hEnd := (reconcile_fold (steps s) hShows hFold).2
    rw [hFold, ok_bind]
    dsimp only
    rw [if_neg (by rw [hEnd, hLast]; simp)]
    exact ⟨_, rfl⟩

end Passes

/-! ## The invariant -/

/-- The slot, as the passes of the hook need it: without a slot all responses are numbered
from one on, with a slot those behind its checkpoint are, and what it shows could be counted. -/
def Service (slot : Option Json) (counter : UInt64) (responses : List (UInt64 × MessageItem))
    (log : List (Option TokenCost)) : Prop :=
  match slot with
  | none => log = (responses.map fun x => x.2.cost) ∧ Follows 0 counter responses
  | some status => ∃ counted accounted, Shows status (Totals.of counted) accounted ∧
      FitsAll {} counted ∧ Follows accounted counter responses ∧
      log = counted ++ behind accounted responses

/-- A conversation that the statistic hook can work on. -/
structure Serviceable (log : List MessageItem) (s : AgentInputState) : Prop where
  ordered : Ordered (numbered s)
  bounded : ∀ x ∈ numbered s, x.1 ≤ committed s
  responses : ∀ x ∈ numbered s, x.2.type = .modelResponse
  slot : Service (externalStatus s.extras name) (committed s) (numbered s)
    (log.map MessageItem.cost)

theorem Serviceable.accounted {log : List MessageItem} {s : AgentInputState}
    (h : Serviceable log s) : Accounted log s := by
  refine ⟨h.ordered, h.bounded, ?_⟩
  have hSlot := h.slot
  unfold Service at hSlot
  unfold Slot
  cases hExtras : externalStatus s.extras name with
  | none =>
    rw [hExtras] at hSlot
    exact hSlot.1
  | some status =>
    rw [hExtras] at hSlot
    obtain ⟨counted, accounted, hShows, -, hFollows, hLog⟩ := hSlot
    exact ⟨counted, accounted, hShows, hFollows.1, hLog⟩

section Life

variable {Ω : Type} {host : Host Ω} {config : Configuration}

/-- **The statistic can be read exactly when every usage fits.** -/
theorem Serviceable.readable_iff {log : List MessageItem} {s : AgentInputState}
    (h : Serviceable log s) : Readable host config s ↔ FitsAll {} (log.map MessageItem.cost) := by
  have hSlot := h.slot
  unfold Readable
  cases hExtras : externalStatus s.extras name with
  | none =>
    rw [hExtras] at hSlot
    rw [hSlot.1]
    exact bootstrap_iff hSlot.2
  | some status =>
    rw [hExtras] at hSlot
    obtain ⟨counted, accounted, hShows, hCounted, hFollows, hLog⟩ := hSlot
    have hRead : (∃ read, reconcile host.round config.contextWindowTokens status s = .ok read) ↔
        FitsAll (Totals.of counted) (behind accounted (numbered s)) :=
      reconcile_iff hShows h.ordered h.responses hFollows
    rw [hShows.readStatistics_eq, hLog, fitsAll_append]
    exact ⟨fun hOk => ⟨hCounted, hRead.mp hOk⟩, fun hAll => hRead.mpr hAll.2⟩

theorem Serviceable.advance {log : List MessageItem} {s s' : AgentInputState}
    {response : MessageItem} (h : Serviceable log s) (hAdvance : Advances s s' response) :
    Serviceable (log ++ [response]) s' := by
  have hNext := h.accounted.advance hAdvance
  refine ⟨hNext.ordered, hNext.bounded, ?_, ?_⟩
  · intro x hx
    rw [hAdvance.appended, List.mem_append, List.mem_singleton] at hx
    rcases hx with hOld | rfl
    · exact h.responses x hOld
    · exact hAdvance.type
  · have hSlot := h.slot
    unfold Service at hSlot ⊢
    rw [hAdvance.extras, List.map_append]
    cases hExtras : externalStatus s.extras name with
    | none =>
      rw [hExtras] at hSlot
      refine ⟨?_, hSlot.2.advance hAdvance⟩
      rw [hSlot.1, hAdvance.appended, List.map_append]
      rfl
    | some status =>
      rw [hExtras] at hSlot
      obtain ⟨counted, accounted, hShows, hCounted, hFollows, hLog⟩ := hSlot
      have hNew : behind accounted [(committed s', response)] = [response.cost] := by
        have hLe := UInt64.le_iff_toNat_le.mp hFollows.1
        have hLater : accounted < committed s' := by
          rw [UInt64.lt_iff_toNat_lt, hAdvance.counter]
          omega
        simp [behind, hLater]
      refine ⟨counted, accounted, hShows, hCounted, hFollows.advance hAdvance, ?_⟩
      rw [hLog, hAdvance.appended, behind_append, hNew, List.append_assoc]
      rfl

theorem serviceable_of_shows {log : List MessageItem} {s : AgentInputState} {status : Json}
    (hOrdered : Ordered (numbered s)) (hBounded : ∀ x ∈ numbered s, x.1 ≤ committed s)
    (hTypes : ∀ x ∈ numbered s, x.2.type = .modelResponse)
    (hFits : FitsAll {} (log.map MessageItem.cost))
    (hSlot : externalStatus s.extras name = some status)
    (hShows : Shows status (Totals.of (log.map MessageItem.cost)) (committed s)) :
    Serviceable log s := by
  refine ⟨hOrdered, hBounded, hTypes, ?_⟩
  unfold Service
  rw [hSlot]
  exact ⟨_, _, hShows, hFits, follows_counter hBounded,
    by rw [behind_bounded hBounded, List.append_nil]⟩

theorem ledgered_serviceable : Ledgered host config Serviceable where
  accounted h := h.accounted
  same h hNumbered hCounter hSlot := by
    refine ⟨?_, ?_, ?_, ?_⟩
    · rw [hNumbered]
      exact h.ordered
    · rw [hNumbered, hCounter]
      exact h.bounded
    · rw [hNumbered]
      exact h.responses
    · rw [hNumbered, hCounter, hSlot]
      exact h.slot
  advance h := h.advance
  shown h hRead hNumbered hCounter hSlot hShows := by
    have hFits := h.readable_iff.mp hRead
    rw [← hCounter] at hShows
    rcases hNumbered with hSame | hNone
    · refine serviceable_of_shows ?_ ?_ ?_ hFits hSlot hShows
      · rw [hSame]
        exact h.ordered
      · rw [hSame, hCounter]
        exact h.bounded
      · rw [hSame]
        exact h.responses
    · refine serviceable_of_shows ?_ ?_ ?_ hFits hSlot hShows
      · rw [hNone]
        exact List.Pairwise.nil
      · rw [hNone]
        simp
      · rw [hNone]
        simp

/-! ## Sessions -/

/-- The region of the status slots can be written. -/
def slotWritable (extras : Option Json) : Bool :=
  match extras.getD (.obj []) with
  | .obj fields =>
    match fields.lookup externalStatusKey with
    | none | some .null | some (.obj _) => true
    | some _ => false
  | _ => false

theorem syncExternalStatus_iff {extras : Option Json} {status : Json} (h : status.IsObject) :
    (∃ written, syncExternalStatus extras name status = .ok written) ↔
      slotWritable extras = true := by
  unfold syncExternalStatus slotWritable
  rw [if_neg (by decide), if_neg (by simpa using h)]
  cases extras.getD (.obj []) with
  | obj fields =>
    dsimp only
    cases fields.lookup externalStatusKey with
    | none => simp
    | some region => cases region <;> simp [refuse]
  | _ => simp [refuse]

/-- The hook passes when the statistic can be read and nothing else is in its way. -/
theorem Serviceable.countBeforeModel_iff {log : List MessageItem} {s : AgentInputState}
    (h : Serviceable log s) :
    (∃ context, countBeforeModel host config s ⟨s.systemPrompt, s.tools, s.extras⟩ = .ok context) ↔
      FitsAll {} (log.map MessageItem.cost) ∧
        (∃ estimate, estimatedZeroRequestTokens host.encodedBytes s.systemPrompt s.tools =
          .ok estimate) ∧
        slotWritable s.extras = true := by
  have hReadable : Readable host config s ↔ _ := h.readable_iff
  constructor
  · rintro ⟨context, hOk⟩
    refine ⟨hReadable.mp (readable_of_countBeforeModel hOk), ?_⟩
    unfold countBeforeModel ContextStatistic.beforeModel at hOk
    obtain ⟨_, hRead, hOk⟩ := bind_ok hOk
    obtain ⟨estimate, hEstimate, hOk⟩ := bind_ok hOk
    obtain ⟨refreshed, hRefresh, hOk⟩ := bind_ok hOk
    obtain ⟨written, hSync, -⟩ := bind_ok hOk
    have hObject : refreshed.IsObject := by
      by_contra hNot
      unfold syncExternalStatus at hSync
      rw [if_neg (by decide), if_pos hNot] at hSync
      cases hSync
    exact ⟨⟨estimate, hEstimate⟩, (syncExternalStatus_iff hObject).mp ⟨written, hSync⟩⟩
  · rintro ⟨hFits, ⟨estimate, hEstimate⟩, hWritable⟩
    obtain ⟨read, hRead⟩ := hReadable.mpr hFits
    have hRead' := h.accounted.tracked.readStatistics hRead
    have hShows : Shows (if (s.loop.any fun p => p.completedExchanges = 0) = true
        then read.set "accounted_exchanges_in_run" (.uint 0) else read)
        (Totals.of (log.map MessageItem.cost)) (committed s) := by
      split
      · exact hRead'.setExchanges 0
      · exact hRead'
    obtain ⟨shown, hRefresh, hShown⟩ :=
      hShows.refresh host.round config.contextWindowTokens estimate
    obtain ⟨written, hSync⟩ := (syncExternalStatus_iff hShown.holds.object).mpr hWritable
    unfold countBeforeModel ContextStatistic.beforeModel
    dsimp only
    rw [hRead, ok_bind, hEstimate, ok_bind, hRefresh, ok_bind, hSync, ok_bind]
    exact ⟨_, rfl⟩

/-- **When a session stays usable.** At every moment of a worker's life, the statistic step
before a request passes if and only if the usage reports committed so far fit, the prompt can
be measured and the slot can be written; only the first depends on the responses. -/
theorem Session.statistic_passes_iff (hHooks : LeavesStatistic host) {w : Worker Ω}
    {history : List MessageItem} (hStart : Serviceable history w.state) {s : Session Ω}
    {l : Ledger} (h : Session.Traces host config w history s l) :
    (∃ context, countBeforeModel host config s.working
        ⟨s.working.systemPrompt, s.working.tools, s.working.extras⟩ = .ok context) ↔
      FitsAll {} (s.usages l) ∧
        (∃ estimate, estimatedZeroRequestTokens host.encodedBytes s.working.systemPrompt
          s.working.tools = .ok estimate) ∧
        slotWritable s.working.extras = true := by
  have k : Ledgered host config Serviceable := ledgered_serviceable
  obtain ⟨log, hLog, hWorking⟩ := (h.kept (k.keeps hHooks) hStart).working
  rw [hLog]
  exact hWorking.countBeforeModel_iff

end Life

/-- Three reports that fit, and the statistic step before the next request. -/
theorem statistic_passes_compacted : Serviceable [] freshWorker.state ∧
      compactedSession.usages compactedLedger = [some ⟨5, 1, 3⟩, some ⟨9, 2, 0⟩, some ⟨5, 1, 3⟩] ∧
      ∃ context, countBeforeModel meteredHost compactingConfiguration compactedSession.working
        ⟨compactedSession.working.systemPrompt, compactedSession.working.tools,
          compactedSession.working.extras⟩ = .ok context := by
  have hStart : Serviceable [] freshWorker.state :=
    ⟨List.Pairwise.nil, by simp [numbered, steps, freshWorker],
      by simp [numbered, steps, freshWorker], rfl, by decide, rfl⟩
  obtain ⟨-, -, -, hEstimate, hSync⟩ := compactedSession_view
  obtain ⟨hWorking, hUsages⟩ := compactedSession_idle
  refine ⟨hStart, hUsages, (Session.statistic_passes_iff leavesStatistic_metered hStart
    compactedSession_traces).mpr ?_⟩
  rw [hUsages, hWorking]
  exact ⟨⟨by decide, by decide, by decide, trivial⟩, Verified.Tables.exists_ok_iff.mpr hEstimate,
    (syncExternalStatus_iff (show Json.IsObject (.obj []) from trivial)).mp
      (Verified.Tables.exists_ok_iff.mpr hSync)⟩

/-! ## A report that stops a session -/

/-- A usage block with more cached tokens than prompt tokens. -/
def overreportedUsage : Json :=
  Json.object [("input_tokens", .uint 1), ("output_tokens", .uint 0),
    ("input_tokens_details", Json.object [("cached_tokens", .uint 2)])]

def overreportingResponse : MessageItem :=
  Llm.Responses.ResponsesReader.assembleMessage (fun _ => none) { usage := some overreportedUsage } []

/-- A provider that answers every message so. -/
def overreportingHost : Host Unit :=
  { quietHost with
    next := fun _ => (some
      { requestId := "request", message := some { type := .userInput, role := "user" } }, ())
    converse := fun _ _ => (.ok overreportingResponse, ()) }

def freshConfiguration : Configuration := { sessionId := "session", contextWindowTokens := 1000 }

/-- The run of a session before its first request. -/
def Session.preparing {Ω : Type} : Session Ω → Bool
  | .running _ _ ⟨.preparing _, _⟩ => true
  | _ => false

/-- The first run commits the response and ends; the second one fails in the statistic step. -/
theorem overreported_usage_stops :
    (Session.after overreportingHost freshConfiguration freshWorker 24).segment?.map committing =
        some [overreportingResponse] ∧
      (Session.after overreportingHost freshConfiguration freshWorker 39).isIdle = true ∧
      (Session.after overreportingHost freshConfiguration freshWorker 55).preparing = true ∧
      (Session.after overreportingHost freshConfiguration freshWorker 56).failure? =
        some { what := "cache-hit tokens exceed prompt tokens" } := by
  decide +kernel

end SimplexAgent.Core
