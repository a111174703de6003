import SimplexAgent.Fileio.StagedReplaceSpec

/-!
# A replacement that nothing disturbs

No stop is requested, no call fails, and the file does not change. Then every operation returns,
however many bytes its calls transfer and however often they are interrupted, and what it returns
and leaves is a function of what it was given.
-/

namespace SimplexAgent.Fileio

open Verified.Interruptible

/-- The bytes that the observer was given, each with its offset. -/
def told (observed : List (Nat × List UInt8)) : List (UInt8 × Nat) :=
  observed.flatMap fun piece => piece.2.zipIdx piece.1

/-- Nothing goes wrong from here, and the observer was given these bytes. -/
structure Quiet (shown : List (UInt8 × Nat)) (w : Workspace) : Prop where
  shown : told w.observed = shown
  stops : ∀ stop ∈ w.stops, stop = false
  replies : Reply.failed ∉ w.replies

def Calm (staged : StagedReplacement) (shown : List (UInt8 × Nat)) (w : Workspace) : Prop :=
  w.staged = staged ∧ Quiet shown w

variable {staged : StagedReplacement} {shown : List (UInt8 × Nat)}
variable {E : Fault → Workspace → Prop} {H : Workspace → Prop}

/-! ## Calls -/

theorem bind_value {α β : Type} {P R : Workspace → Prop} {m : Work α} {f : α → Work β} {a : α}
    {Q : β → Workspace → Prop} (hm : Triple P m (fun b w => b = a ∧ R w) E H)
    (hf : Triple R (f a) Q E H) : Triple P (m >>= f) Q E H := by
  refine Triple.bind hm fun b => ?_
  intro w hw
  obtain ⟨rfl, hRest⟩ := hw
  exact hf w hRest

/-- A test of the state. -/
theorem get_calm {α : Type} {f : Workspace → Work α} {Q : α → Workspace → Prop}
    (h : ∀ t, t.staged = staged → Triple (Calm staged shown) (f t) Q E H) :
    Triple (Calm staged shown) (get >>= f) Q E H := by
  refine Triple.bind (R := fun t w => t.staged = staged ∧ Calm staged shown w)
    (Triple.get fun w hCalm => ⟨hCalm.1, hCalm⟩) fun t => ?_
  intro w hw
  exact h t hw.1 w hw.2

theorem changeStaged_calm (f : StagedReplacement → StagedReplacement) :
    Triple (Calm staged shown) (changeStaged f) (fun _ => Calm (f staged) shown) E H :=
  Triple.modify _ fun w hCalm => ⟨by rw [← hCalm.1], hCalm.2.shown, hCalm.2.stops, hCalm.2.replies⟩

theorem checkCancelled_calm :
    Triple (Calm staged shown) checkCancelled (fun _ => Calm staged shown) E H := by
  apply Triple.call
  · intro w _ hCalm _
    obtain ⟨hStaged, hShown, hStops, hReplies⟩ := hCalm
    split
    · rename_i rest hList
      exact ⟨hStaged, hShown, fun stop hStop => hStops stop (by rw [hList]; simp [hStop]), hReplies⟩
    · rename_i rest hList
      exact ⟨hStaged, hShown, fun stop hStop => hStops stop (by rw [hList]; simp [hStop]), hReplies⟩
    · exact ⟨hStaged, hShown, hStops, hReplies⟩
  · intro w fault hCalm hError
    split at hError
    · rename_i rest hList
      have hFalse := hCalm.2.stops true (by rw [hList]; simp)
      cases hFalse
    · cases hError
    · cases hError

theorem systemCall_calm (operation : String) :
    Triple (Calm staged shown) (systemCall operation) (fun _ => Calm staged shown) E H := by
  apply Triple.call
  · intro w _ hCalm _
    obtain ⟨hStaged, hShown, hStops, hReplies⟩ := hCalm
    split
    · rename_i rest hList
      exact (hReplies (by rw [hList]; simp)).elim
    · rename_i reply rest _ hList
      rw [hList] at hReplies
      exact ⟨hStaged, hShown, hStops, fun hFailed => hReplies (List.mem_cons_of_mem _ hFailed)⟩
    · exact ⟨hStaged, hShown, hStops, hReplies⟩
  · intro w fault hCalm hError
    split at hError
    · rename_i rest hList
      exact (hCalm.2.replies (by rw [hList]; simp)).elim
    · cases hError
    · cases hError

theorem readLoop_calm {replies : List Reply} (h : Reply.failed ∉ replies) (available want : Nat) :
    (readLoop replies available want).1 = .ok (min available want) ∧
      Reply.failed ∉ (readLoop replies available want).2 := by
  induction replies generalizing available want with
  | nil =>
    cases want with
    | zero => exact ⟨by rw [readLoop, Nat.min_zero], h⟩
    | succ want => exact ⟨by rw [readLoop], h⟩
  | cons reply rest ih =>
    have hRest : Reply.failed ∉ rest := fun hFailed => h (List.mem_cons_of_mem _ hFailed)
    cases want with
    | zero => exact ⟨by rw [readLoop, Nat.min_zero], h⟩
    | succ want =>
      cases reply with
      | interrupted => exact ih hRest available (want + 1)
      | failed => exact (h List.mem_cons_self).elim
      | transfers more =>
        rw [readLoop]
        split
        · rename_i hNone
          refine ⟨?_, hRest⟩
          rw [Except.ok.injEq]
          omega
        · generalize hReceived : min (min (more + 1) (want + 1)) available = received
          obtain ⟨hCount, hAfter⟩ := ih hRest (available - received) (want + 1 - received)
          split
          · rename_i count after hRun
            rw [hRun] at hCount hAfter
            refine ⟨?_, hAfter⟩
            rw [Except.ok.injEq] at hCount ⊢
            rw [hCount]
            omega
          · rename_i fault after hRun
            rw [hRun] at hCount
            cases hCount

theorem readSome_calm (left : List UInt8) (count : Nat) :
    Triple (Calm staged shown) (readSome left count)
      (fun bytes w => bytes = left.take count ∧ Calm staged shown w) E H := by
  apply Triple.call
  · intro w bytes hCalm hOk
    obtain ⟨hStaged, hShown, hStops, hReplies⟩ := hCalm
    obtain ⟨hCount, hAfter⟩ := readLoop_calm hReplies left.length count
    dsimp only at hOk
    rw [hCount] at hOk
    have hBytes : left.take (min left.length count) = bytes := Except.ok.inj hOk
    refine ⟨?_, hStaged, hShown, hStops, hAfter⟩
    rw [← hBytes, List.take_eq_take_iff]
    omega
  · intro w fault hCalm hError
    dsimp only at hError
    rw [(readLoop_calm hCalm.2.replies left.length count).1] at hError
    cases hError

theorem writeLoop_calm {replies : List Reply} (h : Reply.failed ∉ replies) (left : Nat) :
    (writeLoop replies left).1 = left ∧ (writeLoop replies left).2.1 = true ∧
      Reply.failed ∉ (writeLoop replies left).2.2 := by
  induction replies generalizing left with
  | nil =>
    cases left with
    | zero | succ left => exact ⟨rfl, rfl, h⟩
  | cons reply rest ih =>
    have hRest : Reply.failed ∉ rest := fun hFailed => h (List.mem_cons_of_mem _ hFailed)
    cases left with
    | zero => exact ⟨by rw [writeLoop], by rw [writeLoop], by rw [writeLoop]; exact h⟩
    | succ left =>
      cases reply with
      | interrupted => exact ih hRest (left + 1)
      | failed => exact (h List.mem_cons_self).elim
      | transfers more =>
        obtain ⟨hCount, hAll, hAfter⟩ := ih hRest (left + 1 - min (more + 1) (left + 1))
        rw [writeLoop]
        refine ⟨?_, hAll, hAfter⟩
        dsimp only
        rw [hCount]
        omega

theorem writeAll_calm (bytes : List UInt8) : Triple (Calm staged shown) (writeAll bytes)
      (fun _ => Calm { staged with temporary := staged.temporary.map (· ++ bytes) } shown) E H := by
  apply Triple.call
  · intro w _ hCalm _
    obtain ⟨hStaged, hShown, hStops, hReplies⟩ := hCalm
    obtain ⟨hCount, -, hAfter⟩ := writeLoop_calm hReplies bytes.length
    refine ⟨?_, hShown, hStops, hAfter⟩
    dsimp only
    rw [hCount, List.take_length, hStaged]
  · intro w fault hCalm hError
    dsimp only at hError
    rw [(writeLoop_calm hCalm.2.replies bytes.length).2.1] at hError
    cases hError

theorem observe_calm (offset : Nat) (bytes : List UInt8) :
    Triple (Calm staged shown) (observe offset bytes)
      (fun _ => Calm staged (shown ++ bytes.zipIdx offset)) E H := by
  have hTold : ∀ w : Workspace, told w.observed = shown →
      told (w.observed ++ [(offset, bytes)]) = shown ++ bytes.zipIdx offset := by
    intro w hShown
    unfold told at hShown ⊢
    rw [List.flatMap_append, hShown, List.flatMap_singleton]
  apply Triple.call
  · intro w _ hCalm _
    obtain ⟨hStaged, hShown, hStops, hReplies⟩ := hCalm
    dsimp only
    split
    · rename_i rest hList
      exact (hReplies (by rw [hList]; simp)).elim
    · rename_i reply rest _ hList
      rw [hList] at hReplies
      exact ⟨hStaged, hTold w hShown, hStops,
        fun hFailed => hReplies (List.mem_cons_of_mem _ hFailed)⟩
    · exact ⟨hStaged, hTold w hShown, hStops, hReplies⟩
  · intro w fault hCalm hError
    dsimp only at hError
    split at hError
    · rename_i rest hList
      exact (hCalm.2.replies (by rw [hList]; simp)).elim
    · cases hError
    · cases hError

/-! ## Comparisons -/

/-- What is read from a file goes on with what is left of it. -/
theorem zipIdx_take_drop {bytes : List UInt8} {count total : Nat} (h : count ≤ total)
    (hInside : total ≤ bytes.length) (offset : Nat) : (bytes.take count).zipIdx offset ++
        ((bytes.drop count).take (total - count)).zipIdx (offset + count) =
      (bytes.take total).zipIdx offset := by
  rw [take_split h, List.zipIdx_append, List.length_take, Nat.min_eq_left (by omega)]

theorem compareExact_calm (remaining : Nat) (left right : List UInt8) (offset : Nat)
    (shown : List (UInt8 × Nat)) (hSame : right.take remaining = left.take remaining)
    (hLeft : remaining ≤ left.length) (hRight : remaining ≤ right.length) :
    Triple (Calm staged shown) (compareExact remaining left right offset)
      (fun rest w => rest = (left.drop remaining, right.drop remaining) ∧
        Calm staged (shown ++ (left.take remaining).zipIdx offset) w) E H := by
  induction remaining using Nat.strongRecOn generalizing left right offset shown with
  | _ remaining ih =>
    rw [compareExact]
    split
    · rename_i hZero
      subst hZero
      refine Triple.pure _ fun w hCalm => ⟨rfl, ?_⟩
      rw [List.take_zero, List.zipIdx_nil, List.append_nil]
      exact hCalm
    rename_i hMore
    have hChunk : 0 < compareChunk := by unfold compareChunk; omega
    generalize hCount : min compareChunk remaining = count
    have hLe : count ≤ remaining := by omega
    have hFirst : (left.take count).length = count := by rw [List.length_take]; omega
    have hSecond : (right.take count).length = count := by rw [List.length_take]; omega
    have hFront : right.take count = left.take count := by
      have hBoth := congrArg (List.take count) hSame
      rw [List.take_take, List.take_take, Nat.min_eq_left hLe] at hBoth
      exact hBoth
    refine Triple.bind checkCancelled_calm fun _ => ?_
    refine bind_value (readSome_calm left count) ?_
    refine bind_value (readSome_calm right count) ?_
    rw [if_neg (by rw [hFirst, hSecond]; simp), dif_neg (by rw [hFirst]; omega),
      if_neg (by rw [hFront]; simp), hFirst]
    refine Triple.bind (observe_calm offset _) fun _ => ?_
    refine (ih (remaining - count) (by omega) (left.drop count) (right.drop count)
      (offset + count) _ ?_ ?_ ?_).conseq (fun _ hw => hw) ?_ (fun _ _ hError => hError)
      fun _ hHalted => hHalted
    · have hBoth := congrArg (List.drop count) hSame
      rw [List.drop_take, List.drop_take] at hBoth
      exact hBoth
    · rw [List.length_drop]
      omega
    · rw [List.length_drop]
      omega
    · intro rest w hw
      obtain ⟨hRest, hCalm⟩ := hw
      rw [List.append_assoc, zipIdx_take_drop hLe hLeft] at hCalm
      rw [List.drop_drop, List.drop_drop, Nat.add_sub_cancel' hLe] at hRest
      exact ⟨hRest, hCalm⟩

theorem compareExpected_calm (expected left : List UInt8)
    (hSame : left.take expected.length = expected) :
    Triple (Calm staged shown) (compareExpected expected left)
      (fun rest w => rest = left.drop expected.length ∧ Calm staged shown w) E H := by
  generalize hSize : expected.length = size
  induction size using Nat.strongRecOn generalizing expected left with
  | _ size ih =>
    rw [compareExpected]
    split
    · rename_i hZero
      refine Triple.pure _ fun w hCalm => ⟨?_, hCalm⟩
      rw [← hSize, hZero, List.drop_zero]
    rename_i hMore
    have hChunk : 0 < compareChunk := by unfold compareChunk; omega
    have hLong : expected.length ≤ left.length := by
      have hLength := congrArg List.length hSame
      rw [List.length_take] at hLength
      omega
    generalize hCount : min compareChunk expected.length = count
    have hLe : count ≤ expected.length := by omega
    have hFirst : (left.take count).length = count := by rw [List.length_take]; omega
    have hFront : left.take count = expected.take count := by
      have hBoth := congrArg (List.take count) hSame
      rw [List.take_take, Nat.min_eq_left hLe] at hBoth
      exact hBoth
    refine Triple.bind checkCancelled_calm fun _ => ?_
    refine bind_value (readSome_calm left count) ?_
    rw [dif_neg (by rw [hFirst]; omega), hFirst, if_neg (by rw [hFront]; simp)]
    refine (ih (size - count) (by omega) (expected.drop count) (left.drop count) ?_
      (by rw [List.length_drop, hSize])).conseq (fun _ hw => hw) ?_ (fun _ _ hError => hError)
      fun _ hHalted => hHalted
    · have hBoth := congrArg (List.drop count) hSame
      rw [List.drop_take] at hBoth
      rw [List.length_drop]
      exact hBoth
    · intro rest w hw
      rw [List.drop_drop, Nat.add_sub_cancel' (by omega)] at hw
      exact hw

theorem compareToEnd_calm (bytes : List UInt8) (offset : Nat) (shown : List (UInt8 × Nat)) :
    Triple (Calm staged shown) (compareToEnd bytes bytes offset)
      (fun _ => Calm staged (shown ++ bytes.zipIdx offset)) E H := by
  generalize hSize : bytes.length = size
  induction size using Nat.strongRecOn generalizing bytes offset shown with
  | _ size ih =>
    have hChunk : 0 < compareChunk := by unfold compareChunk; omega
    rw [compareToEnd]
    refine Triple.bind checkCancelled_calm fun _ => ?_
    refine bind_value (readSome_calm bytes compareChunk) ?_
    refine bind_value (readSome_calm bytes compareChunk) ?_
    rw [if_neg (by simp)]
    split
    · rename_i hEnd
      have hNone : bytes = [] := by
        rw [← List.length_eq_zero_iff]
        rw [List.length_take] at hEnd
        omega
      refine Triple.pure _ fun w hCalm => ?_
      rw [hNone, List.zipIdx_nil, List.append_nil]
      exact hCalm
    rename_i hGoOn
    rw [not_or] at hGoOn
    rw [if_neg (by simp)]
    generalize hCount : (bytes.take compareChunk).length = count at hGoOn ⊢
    have hFits : count ≤ bytes.length := by
      rw [← hCount, List.length_take]
      omega
    have hFront : bytes.take compareChunk = bytes.take count := by
      rw [List.take_eq_take_iff, ← hCount, List.length_take]
      omega
    refine Triple.bind (observe_calm offset _) fun _ => ?_
    refine (ih (size - count) (by omega) (bytes.drop count) (offset + count) _
      (by rw [List.length_drop, hSize])).conseq (fun _ hw => hw) ?_ (fun _ _ hError => hError)
      fun _ hHalted => hHalted
    intro _ w hCalm
    have hShown := zipIdx_take_drop hFits (Nat.le_refl _) offset
    rw [List.take_of_length_le (l := bytes.drop count) (Nat.le_of_eq List.length_drop),
      List.take_length] at hShown
    rw [List.append_assoc, hFront, hShown] at hCalm
    exact hCalm

theorem skipBytes_calm (remaining : Nat) (left : List UInt8) (h : remaining ≤ left.length) :
    Triple (Calm staged shown) (skipBytes remaining left)
      (fun rest w => rest = left.drop remaining ∧ Calm staged shown w) E H := by
  induction remaining using Nat.strongRecOn generalizing left with
  | _ remaining ih =>
    rw [skipBytes]
    split
    · rename_i hZero
      subst hZero
      exact Triple.pure _ fun w hCalm => ⟨rfl, hCalm⟩
    have hChunk : 0 < compareChunk := by unfold compareChunk; omega
    generalize hCount : min compareChunk remaining = count
    have hFirst : (left.take count).length = count := by rw [List.length_take]; omega
    refine Triple.bind checkCancelled_calm fun _ => ?_
    refine bind_value (readSome_calm left count) ?_
    rw [dif_neg (by rw [hFirst]; omega), hFirst]
    refine (ih (remaining - count) (by omega) (left.drop count)
      (by rw [List.length_drop]; omega)).conseq (fun _ hw => hw) ?_ (fun _ _ hError => hError)
      fun _ hHalted => hHalted
    intro rest w hw
    rw [List.drop_drop, Nat.add_sub_cancel' (by omega)] at hw
    exact hw

/-! ## The candidate -/

theorem ensureCandidate_calm :
    Triple (Calm staged shown) ensureCandidate (fun _ => Calm (opened staged) shown) E H := by
  refine get_calm fun t ht => ?_
  unfold opened
  rw [ht]
  split
  · exact Triple.pure _ fun w hCalm => hCalm
  · exact Triple.bind (systemCall_calm _) fun _ => changeStaged_calm _

def ReadsOn (text : List UInt8) (offset : Nat) : List SourceReply → Prop
  | [] => text.length ≤ offset
  | .interrupted :: rest => ReadsOn text offset rest
  | .failed :: _ => False
  | .bytes data :: rest => data.length ≠ 0 ∧ data.length ≤ compareChunk ∧
      data <+: text.drop offset ∧ ReadsOn text (offset + data.length) rest

/-- The same with copies of the kernel before them. It may give up anywhere. -/
def Supplies (text : List UInt8) (offset : Nat) (reads : List SourceReply) :
    List SourceReply → Prop
  | [] => ReadsOn text offset reads
  | .interrupted :: rest => Supplies text offset reads rest
  | .failed :: _ => ReadsOn text offset reads
  | .bytes data :: rest =>
    if data.length = 0 then ReadsOn text offset reads
    else data.length ≤ compareChunk ∧ data <+: text.drop offset ∧
      Supplies text (offset + data.length) reads rest

theorem take_append_piece {text data : List UInt8} {offset : Nat} (h : data <+: text.drop offset) :
    text.take offset ++ data = text.take (offset + data.length) := by
  rw [List.take_add, ← List.prefix_iff_eq_take.mp h]

theorem copyKernel_calm {text : List UInt8} {bytes : Nat} (kernel reads : List SourceReply)
    (copied : Nat) (hLe : copied ≤ bytes)
    (hSupplies : copied < bytes → Supplies text copied reads kernel) :
    Triple (Calm { staged with temporary := some (text.take copied) } shown)
      (copyKernel bytes copied kernel)
      (fun count w => (count ≤ bytes ∧ (count < bytes → ReadsOn text count reads)) ∧
        Calm { staged with temporary := some (text.take count) } shown w) E H := by
  induction kernel generalizing copied with
  | nil =>
    unfold copyKernel
    split
    · rename_i hMore
      exact Triple.bind checkCancelled_calm fun _ =>
        Triple.pure _ fun w hCalm => ⟨⟨hLe, fun _ => hSupplies hMore⟩, hCalm⟩
    · exact Triple.pure _ fun w hCalm => ⟨⟨hLe, fun hMore => absurd hMore ‹_›⟩, hCalm⟩
  | cons reply rest ih =>
    unfold copyKernel
    split
    · rename_i hMore
      refine Triple.bind checkCancelled_calm fun _ => ?_
      have hNow := hSupplies hMore
      cases reply with
      | interrupted => exact ih copied hLe fun _ => hNow
      | failed => exact Triple.pure _ fun w hCalm => ⟨⟨hLe, fun _ => hNow⟩, hCalm⟩
      | bytes data =>
        dsimp only
        unfold Supplies at hNow
        split at hNow
        · rename_i hNone
          rw [if_pos (by rw [List.length_take]; omega)]
          exact Triple.pure _ fun w hCalm => ⟨⟨hLe, fun _ => hNow⟩, hCalm⟩
        · rename_i hSome
          obtain ⟨hChunk, hPiece, hRest⟩ := hNow
          generalize hTaken : data.take (min (bytes - copied) compareChunk) = taken
          have hLength : taken.length = min (bytes - copied) data.length := by
            rw [← hTaken, List.length_take]
            omega
          have hFront : taken <+: text.drop copied := by
            rw [← hTaken]
            exact (List.take_prefix _ _).trans hPiece
          rw [if_neg (by omega)]
          refine Triple.bind (changeStaged_calm _) fun _ => ?_
          refine (ih (copied + taken.length) (by omega) fun hAgain => ?_).pre fun w hCalm => ?_
          · have hWhole : taken.length = data.length := by omega
            rw [hWhole]
            exact hRest
          · rw [← take_append_piece hFront]
            exact hCalm
    · exact Triple.pure _ fun w hCalm => ⟨⟨hLe, fun hMore => absurd hMore ‹_›⟩, hCalm⟩

theorem copyReads_calm {text : List UInt8} {bytes : Nat} (reads : List SourceReply)
    (copied : Nat) (hLe : copied ≤ bytes) (hInside : bytes ≤ text.length)
    (hReads : copied < bytes → ReadsOn text copied reads) :
    Triple (Calm { staged with temporary := some (text.take copied) } shown)
      (copyReads bytes copied reads)
      (fun _ => Calm { staged with temporary := some (text.take bytes) } shown) E H := by
  have hDone : ¬copied < bytes →
      Triple (Calm { staged with temporary := some (text.take copied) } shown) (pure () : Work Unit)
        (fun _ => Calm { staged with temporary := some (text.take bytes) } shown) E H := by
    intro hEnd
    have hAll : copied = bytes := by omega
    rw [hAll]
    exact Triple.pure _ fun w hCalm => hCalm
  induction reads generalizing copied with
  | nil =>
    unfold copyReads
    split
    · rename_i hMore
      have hEnd : text.length ≤ copied := hReads hMore
      omega
    · exact hDone ‹_›
  | cons reply rest ih =>
    unfold copyReads
    split
    · rename_i hMore
      refine Triple.bind checkCancelled_calm fun _ => ?_
      have hNow := hReads hMore
      cases reply with
      | interrupted => exact ih copied hLe (fun _ => hNow) hDone
      | failed => exact hNow.elim
      | bytes data =>
        obtain ⟨hSome, hChunk, hPiece, hRest⟩ := hNow
        dsimp only
        generalize hTaken : data.take (min compareChunk (bytes - copied)) = taken
        have hLength : taken.length = min (bytes - copied) data.length := by
          rw [← hTaken, List.length_take]
          omega
        have hFront : taken <+: text.drop copied := by
          rw [← hTaken]
          exact (List.take_prefix _ _).trans hPiece
        rw [if_neg (by omega)]
        refine Triple.bind (writeAll_calm _) fun _ => ?_
        refine (ih (copied + taken.length) (by omega) (fun hAgain => ?_) fun hEnd => ?_).pre
          fun w hCalm => ?_
        · have hWhole : taken.length = data.length := by omega
          rw [hWhole]
          exact hRest
        · have hAll : copied + taken.length = bytes := by omega
          rw [hAll]
          exact Triple.pure _ fun w hCalm => hCalm
        · rw [← take_append_piece hFront]
          exact hCalm
    · exact hDone ‹_›

/-- The candidate is written, and nothing goes wrong from here. -/
def CalmReady (identity : FileIdentity) (sourceBytes : Nat) (shown : List (UInt8 × Nat))
    (content : List UInt8) (w : Workspace) : Prop :=
  Filled w.staged content ∧ w.staged.identity = identity ∧ w.staged.sourceBytes = sourceBytes ∧
    Quiet shown w

variable {identity : FileIdentity} {sourceBytes : Nat} {content : List UInt8}

/-- Fix the object. -/
theorem of_calmReady {α : Type} {m : Work α} {Q : α → Workspace → Prop}
    (h : ∀ staged, Filled staged content → staged.identity = identity →
      staged.sourceBytes = sourceBytes → Triple (Calm staged shown) m Q E H) :
    Triple (CalmReady identity sourceBytes shown content) m Q E H := by
  intro w hw
  obtain ⟨hFilled, hIdentity, hSource, hQuiet⟩ := hw
  exact h w.staged hFilled hIdentity hSource w ⟨rfl, hQuiet⟩

theorem copyPrefix_calm {text : List UInt8} {kernel reads : List SourceReply} {bytes : Nat}
    (hSupplies : Supplies text 0 reads kernel) (hScanned : bytes ≤ sourceBytes)
    (hInside : bytes ≤ text.length) :
    Triple (CalmReady identity sourceBytes shown []) (copyPrefix kernel reads bytes)
      (fun _ => CalmReady identity sourceBytes shown (text.take bytes)) E H := by
  refine of_calmReady fun staged hFilled hIdentity hSource => ?_
  refine get_calm fun t ht => ?_
  rw [ht, if_neg (by omega)]
  split
  · rename_i hZero
    subst hZero
    refine Triple.pure _ fun w hCalm => ?_
    obtain ⟨hStaged, hQuiet⟩ := hCalm
    rw [List.take_zero]
    exact ⟨by rw [hStaged]; exact hFilled, by rw [hStaged]; exact hIdentity,
      by rw [hStaged]; exact hSource, hQuiet⟩
  obtain ⟨hOpened, hTemporary, hCandidate, hIdentity', hSource'⟩ := hFilled.opened
  refine Triple.bind ensureCandidate_calm fun _ => ?_
  have hStart : opened staged = { opened staged with temporary := some (text.take 0) } := by
    rw [List.take_zero, ← hTemporary]
  rw [hStart]
  refine Triple.bind (copyKernel_calm kernel reads 0 (Nat.zero_le _) fun _ => hSupplies)
    fun copied => ?_
  intro w hw
  obtain ⟨⟨hLe, hReads⟩, hCalm⟩ := hw
  refine Triple.bind (copyReads_calm reads copied hLe hInside hReads) (fun _ => ?_) w hCalm
  refine Triple.modify _ fun u hu => ?_
  obtain ⟨hStaged, hShown, hStops, hReplies⟩ := hu
  refine ⟨⟨?_, ?_, ?_, ?_, ?_⟩, ?_, ?_, hShown, hStops, hReplies⟩
  · rw [hStaged]
    simp only [List.length_take, Nat.min_eq_left hInside, hOpened.size, List.length_nil,
      Nat.zero_add]
  · rw [hStaged]
    rfl
  · rw [hStaged]
    exact hCandidate
  · rw [hStaged]
    exact hOpened.consumed
  · rw [hStaged]
    exact hOpened.published
  · rw [hStaged]
    exact hIdentity'.trans hIdentity
  · rw [hStaged]
    exact hSource'.trans hSource

theorem writeChunks_calm (staged : StagedReplacement) {content : List UInt8}
    (hContent : staged.temporary = some content) (bytes : List UInt8) :
    Triple (Calm staged shown) (writeChunks bytes)
      (fun _ => Calm { staged with
        temporary := some (content ++ bytes)
        candidateBytes := staged.candidateBytes + bytes.length } shown) E H := by
  generalize hSize : bytes.length = size
  induction size using Nat.strongRecOn generalizing staged content bytes with
  | _ size ih =>
    rw [writeChunks]
    split
    · rename_i hZero
      have hEmpty : bytes = [] := List.length_eq_zero_iff.mp hZero
      refine Triple.pure _ fun w hCalm => ?_
      rw [← hSize, hEmpty, List.append_nil, ← hContent]
      exact hCalm
    have hChunk : 0 < compareChunk := by unfold compareChunk; omega
    refine Triple.bind checkCancelled_calm fun _ => ?_
    refine Triple.bind (writeAll_calm _) fun _ => ?_
    refine Triple.bind (changeStaged_calm _) fun _ => ?_
    rw [hContent]
    refine (ih (size - compareChunk) (by omega) { staged with
      temporary := some (content ++ bytes.take compareChunk)
      candidateBytes := staged.candidateBytes + min bytes.length compareChunk } rfl
      (bytes.drop compareChunk) (by rw [List.length_drop, hSize])).conseq (fun _ hCalm => hCalm) ?_
      (fun _ _ hError => hError) fun _ hHalted => hHalted
    intro _ w hCalm
    dsimp only at hCalm
    have hTotal : staged.candidateBytes + min bytes.length compareChunk + (size - compareChunk) =
        staged.candidateBytes + size := by omega
    rw [List.append_assoc, List.take_append_drop, hTotal] at hCalm
    exact hCalm

theorem write_calm (bytes : List UInt8) :
    Triple (CalmReady identity sourceBytes shown content) (write bytes)
      (fun _ => CalmReady identity sourceBytes shown (content ++ bytes)) E H := by
  refine of_calmReady fun staged hFilled hIdentity hSource => ?_
  refine get_calm fun t ht => ?_
  rw [ht, hFilled.consumed, if_neg (by decide)]
  obtain ⟨hOpened, hTemporary, hCandidate, hIdentity', hSource'⟩ := hFilled.opened
  refine Triple.bind ensureCandidate_calm fun _ => ?_
  refine (writeChunks_calm _ hTemporary bytes).conseq (fun _ hCalm => hCalm) ?_
    (fun _ _ hError => hError) fun _ hHalted => hHalted
  intro _ w hCalm
  obtain ⟨hStaged, hQuiet⟩ := hCalm
  refine ⟨⟨?_, ?_, ?_, ?_, ?_⟩, ?_, ?_, hQuiet⟩
  · rw [hStaged, List.length_append]
    simp only [hOpened.size]
  · rw [hStaged]
    rfl
  · rw [hStaged]
    exact hCandidate
  · rw [hStaged]
    exact hOpened.consumed
  · rw [hStaged]
    exact hOpened.published
  · rw [hStaged]
    exact hIdentity'.trans hIdentity
  · rw [hStaged]
    exact hSource'.trans hSource

theorem preserveOwner_calm (env : Surroundings) :
    Triple (Calm staged shown) (preserveOwner env) (fun _ => Calm staged shown) E H := by
  refine get_calm fun t _ => ?_
  split
  · exact systemCall_calm _
  · exact Triple.pure _ fun w hCalm => hCalm

theorem finishCandidate_calm (env : Surroundings) :
    Triple (CalmReady identity sourceBytes shown content) (finishCandidate env)
      (fun _ => Calm (sealed identity sourceBytes content) shown) E H := by
  refine of_calmReady fun staged hFilled hIdentity hSource => ?_
  obtain ⟨hOpened, hTemporary, hCandidate, hIdentity', hSource'⟩ := hFilled.opened
  have hSealed := hOpened.sealed_eq hTemporary (hIdentity'.trans hIdentity) (hSource'.trans hSource)
  unfold finishCandidate
  refine Triple.bind ensureCandidate_calm fun _ => ?_
  refine Triple.bind (systemCall_calm _) fun _ => ?_
  refine get_calm fun t ht => ?_
  rw [ht, if_neg (by rw [hOpened.size, hOpened.content]; simp)]
  refine Triple.bind (preserveOwner_calm env) fun _ => ?_
  refine Triple.bind (systemCall_calm _) fun _ => ?_
  refine Triple.bind checkCancelled_calm fun _ => ?_
  refine Triple.bind (systemCall_calm _) fun _ => ?_
  refine Triple.bind (changeStaged_calm _) fun _ => ?_
  rw [hSealed]
  exact systemCall_calm _

/-! ## Publication -/

structure Editable (info : FileIdentity) : Prop where
  regular : isRegular info = true
  links : info.links = 1
  plain : info.mode / 512 % 8 = 0

/-- The file is the same whenever it is looked at. -/
structure Unchanging (file : OpenedFile) (env : Surroundings) : Prop where
  source : env.source = file.info
  reopened : env.reopened = some file
  compared : env.compared = file.info
  original : env.original = file.info
  current : env.current = some file.info

theorem checkedRegular_calm {info : FileIdentity} (h : Editable info) :
    Triple (Calm staged shown) (checkedRegular info) (fun _ => Calm staged shown) E H := by
  refine Triple.bind (systemCall_calm _) fun _ => ?_
  rw [if_neg (by rw [h.regular, h.links, h.plain]; simp)]
  exact Triple.pure _ fun w hCalm => hCalm

theorem sameFile_self {info : FileIdentity} (h : Editable info) : sameFile info info = true := by
  simp [sameFile, h.regular, h.links]

variable {file : OpenedFile}
variable {matched replacement candidate : List UInt8}

theorem confirmSourceUnchanged_calm (hIdentity : staged.identity = file.info)
    (hSource : staged.sourceBytes = file.content.length) :
    Triple (Calm staged shown) (confirmSourceUnchanged file.info) (fun _ => Calm staged shown)
      E H := by
  refine Triple.bind (systemCall_calm _) fun _ => get_calm fun t ht => ?_
  rw [ht, hIdentity, hSource, file.size_eq, if_neg (by simp)]
  exact Triple.pure _ fun w hCalm => hCalm

structure Spliced (file : OpenedFile) (start : Nat) (matched replacement candidate : List UInt8) :
    Prop where
  found : (file.content.drop start).take matched.length = matched
  inside : start + matched.length ≤ file.content.length
  candidate : candidate = file.content.take start ++ replacement ++
    file.content.drop (start + matched.length)

/-- What the observer is given by the comparison. -/
def spared (text : List UInt8) (start length : Nat) : List (UInt8 × Nat) :=
  (text.take start).zipIdx 0 ++ (text.drop (start + length)).zipIdx (start + length)

theorem compareFiles_calm {env : Surroundings} {start : Nat} (hEnv : Unchanging file env)
    (hIdentity : staged.identity = file.info)
    (h : Spliced file start matched replacement candidate) : Triple (Calm staged shown)
      (compareFiles env file candidate replacement.length start matched)
      (fun _ => Calm staged (shown ++ spared file.content start matched.length)) E H := by
  have hInside := h.inside
  have hPrefix : (file.content.take start).length = start := by
    rw [List.length_take]
    omega
  have hFront : candidate.take start = file.content.take start := by
    rw [h.candidate, List.append_assoc, List.take_append_of_le_length (by omega), List.take_take,
      Nat.min_self]
  have hNothing : (file.content.take start).drop start = [] :=
    List.drop_eq_nil_of_le (Nat.le_of_eq hPrefix)
  have hBack : (candidate.drop start).drop replacement.length =
      (file.content.drop start).drop matched.length := by
    rw [h.candidate, List.append_assoc, List.drop_append_of_le_length (by omega),
      hNothing, List.nil_append, List.drop_left, List.drop_drop]
  have hLength : start + replacement.length ≤ candidate.length := by
    rw [h.candidate, List.length_append, List.length_append, hPrefix]
    omega
  unfold compareFiles
  refine bind_value (compareExact_calm start file.content candidate 0 shown hFront (by omega)
    (by omega)) ?_
  refine bind_value (skipBytes_calm replacement.length (candidate.drop start)
    (by rw [List.length_drop]; omega)) ?_
  refine bind_value (compareExpected_calm matched (file.content.drop start) h.found) ?_
  rw [hBack]
  refine Triple.bind (compareToEnd_calm _ (start + matched.length) _) fun _ => ?_
  refine Triple.bind (systemCall_calm _) fun _ => get_calm fun t ht => ?_
  rw [ht, hEnv.compared, hIdentity, if_neg (by simp)]
  refine Triple.pure _ fun w hCalm => ?_
  rw [List.append_assoc, List.drop_drop] at hCalm
  exact hCalm

theorem verifyAgainstSource_calm {env : Surroundings} {start : Nat} (hEnv : Unchanging file env)
    (hEditable : Editable file.info) (h : Spliced file start matched replacement candidate) :
    Triple (Calm (sealed file.info file.content.length candidate) shown)
      (verifyAgainstSource env start matched)
      (fun _ => Calm (sealed file.info file.content.length candidate)
        (shown ++ spared file.content start matched.length)) E H := by
  have hInside := h.inside
  have hLength : candidate.length = file.content.length - matched.length + replacement.length := by
    rw [h.candidate, List.length_append, List.length_append, List.length_take, List.length_drop]
    omega
  refine get_calm fun t ht => ?_
  have hReplaced : (sealed file.info file.content.length candidate).candidateBytes -
      ((sealed file.info file.content.length candidate).sourceBytes - matched.length) =
        replacement.length := by
    simp only [sealed]
    omega
  rw [ht, if_neg (by simp only [sealed]; omega), if_neg (by simp only [sealed]; omega),
    hEnv.reopened, hReplaced]
  refine Triple.bind (checkedRegular_calm hEditable) fun _ => ?_
  refine Triple.bind (confirmSourceUnchanged_calm rfl rfl) fun _ => ?_
  refine Triple.bind (systemCall_calm _) fun _ => ?_
  exact compareFiles_calm hEnv rfl h

theorem renameCandidate_calm :
    Triple (Calm staged shown) renameCandidate (fun _ => Quiet shown) E H := by
  refine Triple.bind (systemCall_calm _) fun _ => ?_
  refine Triple.bind (changeStaged_calm _) fun _ => ?_
  refine Triple.handle (F := fun _ _ => False)
    ((systemCall_calm _).conseq (fun _ hCalm => hCalm) (fun _ _ hCalm => hCalm.2)
      (fun _ _ hError => hError) fun _ hHalted => hHalted) fun _ w hw => hw.elim

theorem publish_calm {env : Surroundings} {start : Nat} (hEnv : Unchanging file env)
    (hEditable : Editable file.info) (h : Spliced file start matched replacement candidate) :
    Triple (CalmReady file.info file.content.length shown candidate) (publish env start matched)
      (fun _ => Quiet (shown ++ spared file.content start matched.length)) E H := by
  refine of_calmReady fun staged hFilled hIdentity hSource => ?_
  unfold publish
  refine Triple.bind checkCancelled_calm fun _ => get_calm fun t ht => ?_
  rw [ht, hFilled.consumed, if_neg (by decide)]
  obtain ⟨hOpened, -, -, hIdentity', hSource'⟩ := hFilled.opened
  have hFinish : Triple (Calm (opened staged) shown) (finishCandidate env)
      (fun _ => Calm (sealed file.info file.content.length candidate) shown) E H := by
    refine (finishCandidate_calm env).pre fun w hCalm => ?_
    obtain ⟨hStaged, hQuiet⟩ := hCalm
    refine ⟨?_, ?_, ?_, hQuiet⟩
    · rw [hStaged]
      exact hOpened
    · rw [hStaged]
      exact hIdentity'.trans hIdentity
    · rw [hStaged]
      exact hSource'.trans hSource
  refine Triple.bind ensureCandidate_calm fun _ => ?_
  refine Triple.bind hFinish fun _ => ?_
  rw [hEnv.source]
  refine Triple.bind (confirmSourceUnchanged_calm rfl rfl) fun _ => ?_
  refine Triple.bind (verifyAgainstSource_calm hEnv hEditable h) fun _ => ?_
  unfold publishChecked
  refine Triple.bind (systemCall_calm _) fun _ => ?_
  rw [hEnv.current, hEnv.original]
  refine Triple.bind (systemCall_calm _) fun _ => ?_
  rw [sameFile_self hEditable, if_neg (by decide)]
  exact Triple.bind checkCancelled_calm fun _ => renameCandidate_calm

end SimplexAgent.Fileio
