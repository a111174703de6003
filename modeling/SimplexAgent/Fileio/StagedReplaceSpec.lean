import SimplexAgent.Fileio.StagedReplace

/-!
# What the calls of a replacement do

One triple per operation. None of them touches the destination but the rename, so up to there
every failure leaves it unpublished; what they make of the candidate and give to the observer
is said for the case that they return.
-/

namespace SimplexAgent.Fileio

open Verified.Interruptible

/-- Nothing was published, and the failure does not claim so. -/
def Unpublished (fault : Fault) (w : Workspace) : Prop :=
  w.staged.published = none ∧ fault ≠ .publishedUnsynced

def At (staged : StagedReplacement) (observed : List (Nat × List UInt8)) (w : Workspace) : Prop :=
  w.staged = staged ∧ w.observed = observed

/-- Pieces of a file, one after the other from an offset on. -/
inductive Pieces : Nat → List UInt8 → List (Nat × List UInt8) → Prop where
  | nil (offset : Nat) : Pieces offset [] []
  | cons {offset : Nat} {piece rest : List UInt8} {pieces : List (Nat × List UInt8)}
      (hRest : Pieces (offset + piece.length) rest pieces) :
      Pieces offset (piece ++ rest) ((offset, piece) :: pieces)

variable {staged : StagedReplacement} {observed : List (Nat × List UInt8)}

/-! ## Calls -/

/-- An operation that leaves the object and the observer alone. -/
def Plain {α : Type} (staged : StagedReplacement) (observed : List (Nat × List UInt8))
    (m : Work α) (Q : α → Prop) : Prop :=
  Triple (At staged observed) m (fun a w => Q a ∧ At staged observed w) Unpublished fun _ => False

theorem checkCancelled_spec (h : staged.published = none) :
    Plain staged observed checkCancelled fun _ => True := by
  apply Triple.call
  · intro w a hAt _
    refine ⟨trivial, ?_⟩
    split <;> exact hAt
  · intro w fault hAt hError
    split at hError
    · cases hError
      exact ⟨by rw [← hAt.1] at h; exact h, by simp⟩
    · cases hError
    · cases hError

theorem systemCall_spec (h : staged.published = none) (operation : String) :
    Plain staged observed (systemCall operation) fun _ => True := by
  apply Triple.call
  · intro w a hAt _
    refine ⟨trivial, ?_⟩
    split <;> exact hAt
  · intro w fault hAt hError
    split at hError
    · cases hError
      exact ⟨by rw [← hAt.1] at h; exact h, by simp⟩
    · cases hError
    · cases hError

theorem readLoop_spec (replies : List Reply) (available want : Nat) :
    (∀ count rest, readLoop replies available want = (.ok count, rest) →
        count = min available want) ∧
      ∀ fault rest, readLoop replies available want = (.error fault, rest) →
        fault = .system "read replacement file" := by
  induction replies generalizing available want with
  | nil =>
    cases want with
    | zero => simp [readLoop]
    | succ want => simp [readLoop, eq_comm]
  | cons reply rest ih =>
    cases want with
    | zero => simp [readLoop]
    | succ want =>
      cases reply with
      | interrupted => simpa only [readLoop] using ih available (want + 1)
      | failed => simp [readLoop, eq_comm]
      | transfers more =>
        obtain ⟨hOk, hError⟩ := ih (available - min (min (more + 1) (want + 1)) available)
          (want + 1 - min (min (more + 1) (want + 1)) available)
        simp only [readLoop]
        split
        · simp only [Prod.mk.injEq, Except.ok.injEq, reduceCtorEq, false_and, false_implies,
            implies_true, and_true]
          rintro count last ⟨rfl, _⟩
          omega
        · split
          · rename_i count last hRun
            have hCount := hOk count last hRun
            simp only [Prod.mk.injEq, Except.ok.injEq, reduceCtorEq, false_and, false_implies,
              implies_true, and_true]
            rintro total last' ⟨rfl, _⟩
            omega
          · rename_i fault last hRun
            have hFault := hError fault last hRun
            simp only [Prod.mk.injEq, Except.error.injEq, reduceCtorEq, false_and,
              false_implies, implies_true, true_and]
            rintro fault' last' ⟨rfl, _⟩
            exact hFault

section

variable (h : staged.published = none)
include h

theorem readSome_spec (left : List UInt8) (count : Nat) :
    Plain staged observed (readSome left count) fun bytes => bytes = left.take count := by
  apply Triple.call
  · intro w bytes hAt hOk
    refine ⟨?_, hAt⟩
    dsimp only at hOk
    obtain ⟨hRead, _⟩ := readLoop_spec w.replies left.length count
    cases hRun : readLoop w.replies left.length count with
    | mk result rest =>
      rw [hRun] at hOk
      cases result with
      | error fault => cases hOk
      | ok n =>
        cases hOk
        show left.take n = left.take count
        rw [hRead n rest hRun]
        by_cases hLength : left.length ≤ count
        · rw [Nat.min_eq_left hLength, List.take_length, List.take_of_length_le hLength]
        · rw [Nat.min_eq_right (by omega)]
  · intro w fault hAt hError
    refine ⟨by rw [← hAt.1] at h; exact h, ?_⟩
    dsimp only at hError
    obtain ⟨_, hRead⟩ := readLoop_spec w.replies left.length count
    cases hRun : readLoop w.replies left.length count with
    | mk result rest =>
      rw [hRun] at hError
      cases result with
      | ok n => cases hError
      | error fault' =>
        cases hError
        rw [hRead fault rest hRun]
        simp

theorem observe_spec (offset : Nat) (bytes : List UInt8) :
    Triple (At staged observed) (observe offset bytes)
      (fun _ => At staged (observed ++ [(offset, bytes)])) Unpublished fun _ => False := by
  apply Triple.call
  · intro w a hAt _
    dsimp only
    split <;> exact ⟨hAt.1, by rw [← hAt.2]⟩
  · intro w fault hAt hError
    split at hError
    · cases hError
      exact ⟨by rw [← hAt.1] at h; exact h, by simp⟩
    · cases hError
    · cases hError

theorem raise_spec {α : Type} {Q : α → Workspace → Prop} {fault : Fault}
    (hFault : fault ≠ .publishedUnsynced) :
    Triple (At staged observed) (Prog.raise fault) Q Unpublished fun _ => False :=
  Triple.raise fault fun w hAt => ⟨by rw [← hAt.1] at h; exact h, hFault⟩

end

/-- An operation that leaves everything alone comes before another one. -/
theorem Plain.bind {α β : Type} {m : Work α} {f : α → Work β} {Q : α → Prop}
    {S : β → Workspace → Prop} (h : Plain staged observed m Q)
    (hNext : ∀ a, Q a → Triple (At staged observed) (f a) S Unpublished fun _ => False) :
    Triple (At staged observed) (m >>= f) S Unpublished fun _ => False := by
  refine Triple.bind h fun a => Triple.of_state fun w hw => ?_
  exact (hNext a hw.1).pre fun t ht => ht ▸ hw.2

theorem Plain.before {α β : Type} {m : Work α} {f : α → Work β} {Q : α → Prop}
    {S : β → Workspace → Prop} {R : Fault → Workspace → Prop} (h : Plain staged observed m Q)
    (hNext : ∀ a, Q a → Triple (At staged observed) (f a) S
      (fun fault w => R fault w ∨ Unpublished fault w) fun _ => False) :
    Triple (At staged observed) (m >>= f) S (fun fault w => R fault w ∨ Unpublished fault w)
      fun _ => False := by
  refine Triple.bind (R := fun a w => Q a ∧ At staged observed w)
    (h.conseq (fun _ hAt => hAt) (fun _ _ hPost => hPost) (fun _ _ hError => Or.inr hError)
      fun _ hHalted => hHalted) fun a => Triple.of_state fun w hw => ?_
  exact (hNext a hw.1).pre fun t ht => ht ▸ hw.2

/-! ## Comparisons -/

variable {content : List UInt8} {w : Workspace}

theorem take_split {l : List UInt8} {k n : Nat} (h : k ≤ n) :
    l.take n = l.take k ++ (l.drop k).take (n - k) := by
  rw [← List.take_add, Nat.add_sub_cancel' h]

theorem read_front {bytes left : List UInt8} {count : Nat} (h : bytes = left.take count) :
    bytes = left.take bytes.length ∧ bytes.length ≤ count ∧ bytes.length ≤ left.length := by
  subst h
  rw [List.length_take]
  refine ⟨?_, by omega, by omega⟩
  by_cases hLength : left.length ≤ count
  · rw [Nat.min_eq_right hLength, List.take_length, List.take_of_length_le hLength]
  · rw [Nat.min_eq_left (by omega)]

def Observed (staged : StagedReplacement) (observed : List (Nat × List UInt8)) (offset : Nat)
    (bytes : List UInt8) (w : Workspace) : Prop :=
  w.staged = staged ∧ ∃ pieces, w.observed = observed ++ pieces ∧ Pieces offset bytes pieces

theorem Observed.of_at (h : At staged observed w) (offset : Nat) :
    Observed staged observed offset [] w :=
  ⟨h.1, [], by rw [h.2, List.append_nil], .nil offset⟩

theorem Observed.cons {offset : Nat} {piece bytes : List UInt8}
    (h : Observed staged (observed ++ [(offset, piece)]) (offset + piece.length) bytes w) :
    Observed staged observed offset (piece ++ bytes) w := by
  obtain ⟨hStaged, pieces, hPieces, hRest⟩ := h
  exact ⟨hStaged, (offset, piece) :: pieces, by rw [hPieces, List.append_assoc]; rfl, .cons hRest⟩

section

variable (h : staged.published = none)
include h

theorem compareExact_spec (remaining : Nat) (left right : List UInt8) (offset : Nat)
    (observed : List (Nat × List UInt8)) :
    Triple (At staged observed) (compareExact remaining left right offset)
      (fun rest w => Observed staged observed offset (left.take remaining) w ∧
        left.take remaining = right.take remaining ∧ remaining ≤ left.length ∧
        rest = (left.drop remaining, right.drop remaining))
      Unpublished fun _ => False := by
  induction remaining using Nat.strongRecOn generalizing left right offset observed with
  | _ remaining ih =>
    rw [compareExact]
    split
    · rename_i hZero
      subst hZero
      exact Triple.pure _ fun w hAt => ⟨Observed.of_at hAt offset, rfl, Nat.zero_le _, rfl⟩
    refine (checkCancelled_spec h).bind fun _ _ => ?_
    refine (readSome_spec h left _).bind fun first hFirst => ?_
    refine (readSome_spec h right _).bind fun second hSecond => ?_
    split
    · exact raise_spec h (by simp)
    split
    · exact raise_spec h (by simp)
    split
    · exact raise_spec h (by simp)
    rename_i hNotZero hLength hNotEmpty hSame
    have hEqual : first = second := by simpa using hSame
    obtain ⟨hFront, hCount, hLeft⟩ := read_front hFirst
    obtain ⟨hFront', _, hRight⟩ := read_front hSecond
    rw [← hEqual] at hFront' hRight
    refine Triple.bind (observe_spec h offset first) fun _ => ?_
    refine (ih (remaining - first.length) (by omega) (left.drop first.length)
      (right.drop first.length) (offset + first.length) _).conseq (fun _ hAt => hAt) ?_
      (fun _ _ hError => hError) (fun _ hHalted => hHalted)
    rintro rest w ⟨hObserved, hTaken, hLong, rfl⟩
    have hFits : first.length ≤ remaining := by omega
    rw [take_split hFits, ← hFront, take_split hFits, ← hFront', hTaken, List.drop_drop, List.drop_drop,
      Nat.add_sub_cancel' hFits]
    rw [List.length_drop] at hLong
    refine ⟨?_, rfl, by omega, rfl⟩
    rw [← hTaken]
    exact hObserved.cons

theorem compareExpected_spec (expected left : List UInt8) :
    Plain staged observed (compareExpected expected left) fun rest =>
      left.take expected.length = expected ∧ rest = left.drop expected.length := by
  generalize hSize : expected.length = size
  induction size using Nat.strongRecOn generalizing expected left with
  | _ size ih =>
    rw [compareExpected]
    split
    · rename_i hZero
      have hEmpty : expected = [] := List.length_eq_zero_iff.mp hZero
      subst hEmpty
      refine Triple.pure _ fun w hAt => ⟨⟨?_, ?_⟩, hAt⟩
      · rw [← hSize]; rfl
      · rw [← hSize]; rfl
    refine (checkCancelled_spec h).bind fun _ _ => ?_
    refine (readSome_spec h left _).bind fun chunk hChunk => ?_
    split
    · exact raise_spec h (by simp)
    split
    · exact raise_spec h (by simp)
    rename_i hNotZero hNotEmpty hSame
    have hEqual : chunk = expected.take chunk.length := by simpa using hSame
    obtain ⟨hFront, hCount, hLeft⟩ := read_front hChunk
    have hFits : chunk.length ≤ size := by omega
    refine Triple.conseq (ih (size - chunk.length) (by omega) (expected.drop chunk.length)
      (left.drop chunk.length) (by rw [List.length_drop, hSize])) (fun _ hAt => hAt) ?_
      (fun _ _ hError => hError) (fun _ hHalted => hHalted)
    rintro rest w ⟨⟨hTaken, rfl⟩, hAt⟩
    refine ⟨⟨?_, ?_⟩, hAt⟩
    · rw [take_split hFits, hTaken, ← hFront]
      conv_rhs => rw [← List.take_append_drop chunk.length expected, ← hEqual]
    · rw [List.drop_drop, Nat.add_sub_cancel' hFits]

theorem compareToEnd_spec (left right : List UInt8) (offset : Nat)
    (observed : List (Nat × List UInt8)) :
    Triple (At staged observed) (compareToEnd left right offset)
      (fun _ w => Observed staged observed offset left w ∧ left = right) Unpublished
      fun _ => False := by
  generalize hSize : left.length = size
  induction size using Nat.strongRecOn generalizing left right offset observed with
  | _ size ih =>
    rw [compareToEnd]
    refine (checkCancelled_spec h).bind fun _ _ => ?_
    refine (readSome_spec h left _).bind fun first hFirst => ?_
    refine (readSome_spec h right _).bind fun second hSecond => ?_
    have hChunk : 0 < compareChunk := by unfold compareChunk; omega
    split
    · exact raise_spec h (by simp)
    rename_i hLength
    have hSameLength : first.length = second.length := by simpa using hLength
    split
    · rename_i hEnd
      refine Triple.pure _ fun w hAt => ?_
      have hLeft : left = [] := by
        rw [← List.length_eq_zero_iff]
        rw [hFirst, List.length_take] at hEnd
        omega
      have hRight : right = [] := by
        rw [← List.length_eq_zero_iff]
        rw [hFirst, hSecond, List.length_take, List.length_take, hLeft] at hSameLength
        simp only [List.length_nil] at hSameLength
        omega
      rw [hLeft, hRight]
      exact ⟨Observed.of_at hAt offset, rfl⟩
    split
    · exact raise_spec h (by simp)
    rename_i hGoOn hSame
    rw [not_or] at hGoOn
    have hEqual : first = second := by simpa using hSame
    obtain ⟨hFront, hCount, hLeft⟩ := read_front hFirst
    obtain ⟨hFront', _, _⟩ := read_front hSecond
    rw [← hEqual] at hFront'
    refine Triple.bind (observe_spec h offset first) fun _ => ?_
    refine (ih (size - first.length) (by omega) (left.drop first.length) (right.drop first.length)
      (offset + first.length) _ (by rw [List.length_drop, hSize])).conseq (fun _ hAt => hAt) ?_
      (fun _ _ hError => hError) (fun _ hHalted => hHalted)
    rintro _ w ⟨hObserved, hRest⟩
    have hJoin : first ++ left.drop first.length = left :=
      (congrArg (· ++ left.drop first.length) hFront).trans (List.take_append_drop _ _)
    have hJoin' : first ++ right.drop first.length = right :=
      (congrArg (· ++ right.drop first.length) hFront').trans (List.take_append_drop _ _)
    refine ⟨?_, by rw [← hJoin, ← hJoin', hRest]⟩
    rw [← hJoin]
    exact hObserved.cons

theorem skipBytes_spec (remaining : Nat) (left : List UInt8) :
    Plain staged observed (skipBytes remaining left) fun rest =>
      remaining ≤ left.length ∧ rest = left.drop remaining := by
  induction remaining using Nat.strongRecOn generalizing left with
  | _ remaining ih =>
    rw [skipBytes]
    split
    · rename_i hZero
      subst hZero
      exact Triple.pure _ fun w hAt => ⟨⟨Nat.zero_le _, rfl⟩, hAt⟩
    refine (checkCancelled_spec h).bind fun _ _ => ?_
    refine (readSome_spec h left _).bind fun chunk hChunk => ?_
    split
    · exact raise_spec h (by simp)
    obtain ⟨hFront, hCount, hLeft⟩ := read_front hChunk
    have hFits : chunk.length ≤ remaining := by omega
    refine Triple.conseq (ih (remaining - chunk.length) (by omega) (left.drop chunk.length))
      (fun _ hAt => hAt) ?_ (fun _ _ hError => hError) (fun _ hHalted => hHalted)
    rintro rest w ⟨⟨hLong, rfl⟩, hAt⟩
    rw [List.length_drop] at hLong
    rw [List.drop_drop, Nat.add_sub_cancel' hFits]
    exact ⟨⟨by omega, rfl⟩, hAt⟩

end

/-! ## The candidate -/

theorem changeStaged_spec (f : StagedReplacement → StagedReplacement) {E : Fault → Workspace → Prop} :
    Triple (At staged observed) (changeStaged f) (fun _ => At (f staged) observed) E
      fun _ => False :=
  Triple.modify _ fun w hAt => ⟨by rw [← hAt.1], hAt.2⟩

theorem writeLoop_spec (replies : List Reply) (left : Nat)
    (h : (writeLoop replies left).2.1 = true) : (writeLoop replies left).1 = left := by
  induction replies generalizing left with
  | nil => cases left <;> rfl
  | cons reply rest ih =>
    cases left with
    | zero => rfl
    | succ left =>
      cases reply with
      | interrupted => exact ih (left + 1) h
      | failed => cases h
      | transfers more =>
        simp only [writeLoop] at h ⊢
        rw [ih _ h]
        omega

theorem writeAll_spec (h : staged.published = none) (bytes : List UInt8) :
    Triple (At staged observed) (writeAll bytes)
      (fun _ => At { staged with temporary := staged.temporary.map (· ++ bytes) } observed)
      Unpublished fun _ => False := by
  apply Triple.call
  · intro w a hAt hOk
    dsimp only at hOk ⊢
    split at hOk
    · rename_i hDone
      rw [writeLoop_spec _ _ hDone, List.take_length]
      exact ⟨by rw [← hAt.1], hAt.2⟩
    · cases hOk
  · intro w fault hAt hError
    dsimp only at hError ⊢
    refine ⟨by rw [← hAt.1] at h; exact h, ?_⟩
    split at hError
    · cases hError
    · cases hError
      simp

/-- The object while its candidate is written: nothing was published, and the candidate, once
it exists, holds these bytes. -/
structure Filled (staged : StagedReplacement) (content : List UInt8) : Prop where
  size : staged.candidateBytes = content.length
  content : staged.temporary.getD [] = content
  isOpen : staged.candidate = staged.temporary.isSome
  consumed : staged.consumed = false
  published : staged.published = none

/-- The candidate is written, for a source of which so many bytes were seen. -/
def Ready (identity : FileIdentity) (sourceBytes : Nat) (observed : List (Nat × List UInt8))
    (content : List UInt8) (w : Workspace) : Prop :=
  Filled w.staged content ∧ w.staged.identity = identity ∧ w.staged.sourceBytes = sourceBytes ∧
    w.observed = observed

/-- The candidate exists. -/
def opened (staged : StagedReplacement) : StagedReplacement :=
  if staged.candidate = true then staged
  else { staged with candidate := true, temporary := some [] }

theorem ensureCandidate_spec (h : staged.published = none) :
    Triple (At staged observed) ensureCandidate (fun _ => At (opened staged) observed) Unpublished
      fun _ => False := by
  unfold ensureCandidate
  refine Triple.bind (R := fun t w => t = w ∧ At staged observed w)
    (Triple.get fun w hAt => ⟨rfl, hAt⟩) fun t => ?_
  refine Triple.of_state fun w hw => ?_
  obtain ⟨rfl, hAt⟩ := hw
  unfold opened
  rw [← hAt.1]
  split
  · exact Triple.pure _ fun u hu => ⟨by rw [hu], by rw [hu]; exact hAt.2⟩
  · refine Triple.pre (P := At t.staged observed) ?_ fun u hu => ⟨by rw [hu], by rw [hu]; exact hAt.2⟩
    have hPublished : t.staged.published = none := by rw [hAt.1]; exact h
    exact (systemCall_spec hPublished _).bind fun _ _ => changeStaged_spec _

theorem Filled.opened (h : Filled staged content) :
    Filled (opened staged) content ∧ (opened staged).temporary = some content ∧
      (opened staged).candidate = true ∧ (opened staged).identity = staged.identity ∧
      (opened staged).sourceBytes = staged.sourceBytes := by
  obtain ⟨hSize, hContent, hOpen, hConsumed, hPublished⟩ := h
  unfold Fileio.opened
  cases hTemporary : staged.temporary with
  | none =>
    rw [hTemporary] at hOpen hContent
    have hEmpty : content = [] := hContent.symm
    subst hEmpty
    rw [if_neg (by rw [hOpen]; simp)]
    exact ⟨⟨hSize, rfl, rfl, hConsumed, hPublished⟩, rfl, rfl, rfl, rfl⟩
  | some bytes =>
    rw [hTemporary] at hOpen hContent
    have hBytes : bytes = content := hContent
    subst hBytes
    have hTrue : staged.candidate = true := hOpen
    rw [if_pos hTrue]
    exact ⟨⟨hSize, by rw [hTemporary]; rfl, by rw [hTemporary]; exact hOpen, hConsumed, hPublished⟩,
      hTemporary, hOpen, rfl, rfl⟩

/-- So many bytes were copied, behind these. -/
def Copied (staged : StagedReplacement) (observed : List (Nat × List UInt8)) (content : List UInt8)
    (copied count : Nat) (w : Workspace) : Prop :=
  ∃ data, At { staged with temporary := some (content ++ data) } observed w ∧
    count = copied + data.length

theorem Copied.nothing (hContent : staged.temporary = some content) (copied : Nat)
    (h : At staged observed w) : Copied staged observed content copied copied w := by
  refine ⟨[], ?_, rfl⟩
  rw [List.append_nil, ← hContent]
  exact h

theorem Copied.more {content part : List UInt8} {copied count : Nat}
    (h : Copied { staged with temporary := some (content ++ part) } observed (content ++ part)
      (copied + part.length) count w) : Copied staged observed content copied count w := by
  obtain ⟨data, hAt, hCount⟩ := h
  refine ⟨part ++ data, ?_, ?_⟩
  · rw [← List.append_assoc]
    exact hAt
  · rw [hCount, List.length_append]
    omega

theorem copyKernel_spec (replies : List SourceReply) (staged : StagedReplacement)
    (h : staged.published = none) (hContent : staged.temporary = some content) {bytes copied : Nat}
    (hCopied : copied ≤ bytes) : Triple (At staged observed) (copyKernel bytes copied replies)
      (fun count w => Copied staged observed content copied count w ∧ count ≤ bytes) Unpublished
      fun _ => False := by
  have hStop : Triple (At staged observed) (pure copied : Work Nat)
      (fun count w => Copied staged observed content copied count w ∧ count ≤ bytes) Unpublished
      fun _ => False :=
    Triple.pure _ fun w hAt => ⟨.nothing hContent copied hAt, hCopied⟩
  induction replies generalizing staged content copied with
  | nil =>
    rw [copyKernel]
    split
    · exact (checkCancelled_spec h).bind fun _ _ => hStop
    · exact hStop
  | cons reply rest ih =>
    rw [copyKernel.eq_def]
    dsimp only
    split
    · refine (checkCancelled_spec h).bind fun _ _ => ?_
      split
      · exact ih staged h hContent hCopied hStop
      · exact hStop
      · rename_i data
        split
        · exact hStop
        generalize hData : data.take (min (bytes - copied) compareChunk) = part
        have hFits : copied + part.length ≤ bytes := by
          rw [← hData, List.length_take]
          omega
        refine Triple.bind (changeStaged_spec _) fun _ => ?_
        rw [hContent]
        refine (ih { staged with temporary := some (content ++ part) } h rfl hFits
          (Triple.pure _ fun w hAt => ⟨.nothing rfl _ hAt, hFits⟩)).conseq (fun _ hAt => hAt) ?_
          (fun _ _ hError => hError) (fun _ hHalted => hHalted)
        exact fun count w hPost => ⟨hPost.1.more, hPost.2⟩
    · exact hStop

theorem copyReads_spec (replies : List SourceReply) (staged : StagedReplacement)
    (h : staged.published = none) {content : List UInt8} (hContent : staged.temporary = some content)
    {bytes copied : Nat} (hCopied : copied ≤ bytes) :
    Triple (At staged observed) (copyReads bytes copied replies)
      (fun _ => Copied staged observed content copied bytes) Unpublished fun _ => False := by
  have hStop : ¬copied < bytes → Triple (At staged observed) (pure () : Work Unit)
      (fun _ => Copied staged observed content copied bytes) Unpublished fun _ => False := by
    intro hEnd
    have hSame : copied = bytes := by omega
    exact Triple.pure _ fun w hAt => hSame ▸ .nothing hContent copied hAt
  induction replies generalizing staged content copied with
  | nil =>
    rw [copyReads]
    split
    · exact (checkCancelled_spec h).bind fun _ _ => raise_spec h (by simp)
    · exact hStop ‹_›
  | cons reply rest ih =>
    rw [copyReads.eq_def]
    dsimp only
    split
    · refine (checkCancelled_spec h).bind fun _ _ => ?_
      split
      · exact ih staged h hContent hCopied hStop
      · exact raise_spec h (by simp)
      · rename_i data
        split
        · exact raise_spec h (by simp)
        generalize hData : data.take (min compareChunk (bytes - copied)) = part
        have hFits : copied + part.length ≤ bytes := by
          rw [← hData, List.length_take]
          omega
        refine Triple.bind (writeAll_spec h part) fun _ => ?_
        rw [hContent]
        refine (ih { staged with temporary := some (content ++ part) } h rfl hFits ?_).conseq
          (fun _ hAt => hAt) ?_ (fun _ _ hError => hError) (fun _ hHalted => hHalted)
        · intro hEnd
          have hSame : copied + part.length = bytes := by omega
          exact Triple.pure _ fun w hAt => hSame ▸ .nothing rfl _ hAt
        · exact fun _ w hPost => hPost.more
    · exact hStop ‹_›

variable {identity : FileIdentity} {sourceBytes : Nat} {content : List UInt8}

theorem of_ready {α : Type} {m : Work α} {Q : α → Workspace → Prop}
    (h : ∀ staged, Filled staged content → staged.identity = identity →
      staged.sourceBytes = sourceBytes → Triple (At staged observed) m Q Unpublished fun _ => False) :
    Triple (Ready identity sourceBytes observed content) m Q Unpublished fun _ => False := by
  refine Triple.of_state fun w hw => ?_
  obtain ⟨hFilled, hIdentity, hSource, hObserved⟩ := hw
  exact (h w.staged hFilled hIdentity hSource).pre fun t ht => by rw [ht]; exact ⟨rfl, hObserved⟩

theorem copyPrefix_spec (kernel reads : List SourceReply) (bytes : Nat) :
    Triple (Ready identity sourceBytes observed content) (copyPrefix kernel reads bytes)
      (fun _ w => ∃ data, data.length = bytes ∧
        Ready identity sourceBytes observed (content ++ data) w) Unpublished fun _ => False := by
  refine of_ready fun staged hFilled hIdentity hSource => ?_
  unfold copyPrefix
  refine Triple.bind (R := fun t w => t.staged = staged ∧ At staged observed w)
    (Triple.get fun w hAt => ⟨hAt.1, hAt⟩) fun t => ?_
  refine Triple.of_state fun w hw => ?_
  obtain ⟨hStaged, hAt⟩ := hw
  refine Triple.pre (P := At staged observed) ?_ fun u hu => by rw [hu]; exact hAt
  split
  · exact raise_spec hFilled.published (by simp)
  split
  · rename_i hZero
    refine Triple.pure _ fun u hu => ⟨[], hZero.symm, ?_⟩
    rw [List.append_nil]
    exact ⟨by rw [hu.1]; exact hFilled, by rw [hu.1]; exact hIdentity, by rw [hu.1]; exact hSource, hu.2⟩
  obtain ⟨hOpened, hTemporary, hCandidate, hIdentity', hSource'⟩ := hFilled.opened
  refine Triple.bind (ensureCandidate_spec hFilled.published) fun _ => ?_
  refine Triple.bind (copyKernel_spec kernel _ hOpened.published hTemporary (Nat.zero_le bytes))
    fun copied => ?_
  refine Triple.of_state fun u hu => ?_
  obtain ⟨⟨first, hFirst, hCount⟩, hLe⟩ := hu
  refine Triple.pre (P := At { opened staged with temporary := some (content ++ first) } observed)
    ?_ fun v hv => by rw [hv]; exact hFirst
  refine Triple.bind (copyReads_spec reads { opened staged with
    temporary := some (content ++ first) } hOpened.published rfl hLe) fun _ => ?_
  refine Triple.of_state fun v hv => ?_
  obtain ⟨second, hSecond, hTotal⟩ := hv
  refine Triple.modify _ fun x hx => ⟨first ++ second, ?_, ?_⟩
  · rw [List.length_append]
    omega
  · rw [hx]
    refine ⟨⟨?_, ?_, ?_, ?_, ?_⟩, ?_, ?_, hSecond.2⟩
    · rw [hSecond.1]
      simp only [List.length_append]
      rw [hOpened.size]
      omega
    · rw [hSecond.1, ← List.append_assoc]
      rfl
    · rw [hSecond.1]
      exact hCandidate
    · rw [hSecond.1]
      exact hOpened.consumed
    · rw [hSecond.1]
      exact hOpened.published
    · rw [hSecond.1]
      exact hIdentity'.trans hIdentity
    · rw [hSecond.1]
      exact hSource'.trans hSource

theorem writeChunks_spec (staged : StagedReplacement) (h : staged.published = none)
    (hContent : staged.temporary = some content) (bytes : List UInt8) :
    Triple (At staged observed) (writeChunks bytes)
      (fun _ => At { staged with
        temporary := some (content ++ bytes)
        candidateBytes := staged.candidateBytes + bytes.length } observed) Unpublished
      fun _ => False := by
  generalize hSize : bytes.length = size
  induction size using Nat.strongRecOn generalizing staged content bytes with
  | _ size ih =>
    rw [writeChunks]
    split
    · rename_i hZero
      have hEmpty : bytes = [] := List.length_eq_zero_iff.mp hZero
      refine Triple.pure _ fun w hAt => ?_
      rw [← hSize, hEmpty, List.append_nil, ← hContent]
      exact hAt
    rename_i hNotEmpty
    refine (checkCancelled_spec h).bind fun _ _ => ?_
    refine Triple.bind (writeAll_spec h _) fun _ => ?_
    refine Triple.bind (changeStaged_spec _) fun _ => ?_
    rw [hContent]
    have hChunk : 0 < compareChunk := by unfold compareChunk; omega
    refine (ih (size - compareChunk) (by omega) { staged with
      temporary := some (content ++ bytes.take compareChunk)
      candidateBytes := staged.candidateBytes + min bytes.length compareChunk } h rfl
      (bytes.drop compareChunk) (by rw [List.length_drop, hSize])).conseq (fun _ hAt => hAt) ?_
      (fun _ _ hError => hError) (fun _ hHalted => hHalted)
    intro _ w hAt
    dsimp only at hAt
    rw [List.append_assoc, List.take_append_drop] at hAt
    have hTotal : staged.candidateBytes + min bytes.length compareChunk + (size - compareChunk) =
        staged.candidateBytes + size := by omega
    rw [hTotal] at hAt
    exact hAt

theorem write_spec (bytes : List UInt8) :
    Triple (Ready identity sourceBytes observed content) (write bytes)
      (fun _ => Ready identity sourceBytes observed (content ++ bytes)) Unpublished
      fun _ => False := by
  refine of_ready fun staged hFilled hIdentity hSource => ?_
  unfold write
  refine Triple.bind (R := fun t w => t.staged = staged ∧ At staged observed w)
    (Triple.get fun w hAt => ⟨hAt.1, hAt⟩) fun t => ?_
  refine Triple.of_state fun w hw => ?_
  obtain ⟨hStaged, hAt⟩ := hw
  refine Triple.pre (P := At staged observed) ?_ fun u hu => by rw [hu]; exact hAt
  rw [hStaged, hFilled.consumed]
  obtain ⟨hOpened, hTemporary, hCandidate, hIdentity', hSource'⟩ := hFilled.opened
  refine Triple.bind (ensureCandidate_spec hFilled.published) fun _ => ?_
  refine (writeChunks_spec _ hOpened.published hTemporary bytes).conseq (fun _ h => h) ?_
    (fun _ _ hError => hError) (fun _ hHalted => hHalted)
  rintro _ u ⟨hu, hObserved⟩
  refine ⟨⟨?_, by rw [hu]; rfl, by rw [hu]; exact hCandidate, by rw [hu]; exact hOpened.consumed,
    by rw [hu]; exact hOpened.published⟩, by rw [hu]; exact hIdentity'.trans hIdentity,
    by rw [hu]; exact hSource'.trans hSource, hObserved⟩
  rw [hu, List.length_append]
  simp only [hOpened.size]

/-- The object once its candidate is closed. -/
def sealed (identity : FileIdentity) (sourceBytes : Nat) (content : List UInt8) :
    StagedReplacement where
  identity := identity
  sourceBytes := sourceBytes
  candidateBytes := content.length
  candidate := false
  consumed := false
  temporary := some content
  published := none

theorem Filled.sealed_eq (h : Filled staged content) (hTemporary : staged.temporary = some content)
    (hIdentity : staged.identity = identity) (hSource : staged.sourceBytes = sourceBytes) :
    { staged with candidate := false } = sealed identity sourceBytes content := by
  unfold sealed
  rw [h.size, h.consumed, h.published, hTemporary, hIdentity, hSource]

/-- A test of the state comes before an operation that depends on it. -/
theorem get_spec {α : Type} {f : Workspace → Work α} {Q : α → Workspace → Prop}
    {E : Fault → Workspace → Prop}
    (h : ∀ t, At staged observed t → Triple (At staged observed) (f t) Q E fun _ => False) :
    Triple (At staged observed) (get >>= f) Q E fun _ => False := by
  refine Triple.bind (R := fun t w => t = w ∧ At staged observed w)
    (Triple.get fun w hAt => ⟨rfl, hAt⟩) fun t => Triple.of_state fun w hw => ?_
  obtain ⟨rfl, hAt⟩ := hw
  exact (h t hAt).pre fun u hu => by rw [hu]; exact hAt

theorem preserveOwner_spec (h : staged.published = none) (env : Surroundings) :
    Plain staged observed (preserveOwner env) fun _ => True := by
  refine get_spec fun t _ => ?_
  split
  · exact systemCall_spec h _
  · exact Triple.pure _ fun w hAt => ⟨trivial, hAt⟩

variable (env : Surroundings)

theorem finishCandidate_spec :
    Triple (Ready identity sourceBytes observed content) (finishCandidate env)
      (fun _ => At (sealed identity sourceBytes content) observed) Unpublished fun _ => False := by
  refine of_ready fun staged hFilled hIdentity hSource => ?_
  obtain ⟨hOpened, hTemporary, hCandidate, hIdentity', hSource'⟩ := hFilled.opened
  have hEq := hOpened.sealed_eq hTemporary (hIdentity'.trans hIdentity) (hSource'.trans hSource)
  have hNone := hOpened.published
  unfold finishCandidate
  refine Triple.bind (ensureCandidate_spec hFilled.published) fun _ => ?_
  refine (systemCall_spec hNone _).bind fun _ _ => ?_
  refine get_spec fun t ht => ?_
  split
  · exact raise_spec hNone (by simp)
  refine (preserveOwner_spec hNone env).bind fun _ _ => ?_
  refine (systemCall_spec hNone _).bind fun _ _ => ?_
  refine (checkCancelled_spec hNone).bind fun _ _ => ?_
  refine (systemCall_spec hNone _).bind fun _ _ => ?_
  refine Triple.bind (changeStaged_spec _) fun _ => ?_
  rw [hEq]
  exact (systemCall_spec rfl _).conseq (fun _ hAt => hAt) (fun _ _ hPost => hPost.2)
    (fun _ _ hError => hError) (fun _ hHalted => hHalted)

/-! ## Publication -/

theorem checkedRegular_spec (h : staged.published = none) (info : FileIdentity) :
    Plain staged observed (checkedRegular info) fun _ => True := by
  refine (systemCall_spec h _).bind fun _ _ => ?_
  split
  · exact raise_spec h (by simp)
  · exact Triple.pure _ fun w hAt => ⟨trivial, hAt⟩

theorem confirmSourceUnchanged_spec (h : staged.published = none) (current : FileIdentity) :
    Plain staged observed (confirmSourceUnchanged current) fun _ =>
      current = staged.identity ∧ current.size = staged.sourceBytes := by
  refine (systemCall_spec h _).bind fun _ _ => ?_
  refine get_spec fun t ht => ?_
  split
  · exact raise_spec h (by simp)
  · rename_i hSame
    rw [not_or, not_not, not_not, ht.1] at hSame
    exact Triple.pure _ fun w hAt => ⟨hSame, hAt⟩

/-- What the comparison has found: the file is as long as what was scanned and has the matched
bytes in their place; the candidate differs from it in their replacement only; and the
observer has seen all of the rest. -/
structure Compared (file : OpenedFile) (sourceBytes matchByte : Nat) (matched candidate : List UInt8)
    (seen : List (Nat × List UInt8)) : Prop where
  length : file.content.length = sourceBytes
  span : (file.content.drop matchByte).take matched.length = matched
  candidate : candidate = file.content.take matchByte ++
    ((candidate.drop matchByte).take (candidate.length - (sourceBytes - matched.length)) ++
      file.content.drop (matchByte + matched.length))
  seen : ∃ before after, seen = before ++ after ∧ Pieces 0 (file.content.take matchByte) before ∧
    Pieces (matchByte + matched.length) (file.content.drop (matchByte + matched.length)) after

theorem compareFiles_spec (h : staged.published = none) (env : Surroundings) (file : OpenedFile)
    (candidate : List UInt8) {sourceBytes : Nat} (hLength : file.content.length = sourceBytes)
    (matchByte : Nat) (matched : List UInt8) :
    Triple (At staged []) (compareFiles env file candidate
        (candidate.length - (sourceBytes - matched.length)) matchByte matched)
      (fun _ w => w.staged = staged ∧
        Compared file sourceBytes matchByte matched candidate w.observed) Unpublished
      fun _ => False := by
  unfold compareFiles
  refine Triple.bind (compareExact_spec h matchByte file.content candidate 0 []) ?_
  rintro ⟨left, right⟩
  refine Triple.of_state fun w hw => ?_
  obtain ⟨⟨hStaged, before, hBefore, hPieces⟩, hPrefix, hShort, hRest⟩ := hw
  cases hRest
  refine Triple.pre (P := At staged before) ?_ fun u hu => by rw [hu]; exact ⟨hStaged, hBefore⟩
  refine (skipBytes_spec h _ _).bind fun right hSkip => ?_
  obtain ⟨hReplaced, rfl⟩ := hSkip
  refine (compareExpected_spec h matched _).bind fun left hExpected => ?_
  obtain ⟨hSpan, rfl⟩ := hExpected
  refine Triple.bind (compareToEnd_spec h _ _ _ before) fun _ => ?_
  refine Triple.of_state fun u hu => ?_
  obtain ⟨⟨hStaged', after, hAfter, hPieces'⟩, hSuffix⟩ := hu
  refine Triple.pre (P := At staged (before ++ after)) ?_ fun v hv => by rw [hv]; exact ⟨hStaged', hAfter⟩
  refine (systemCall_spec h _).bind fun _ _ => ?_
  refine get_spec fun t ht => ?_
  split
  · exact raise_spec h (by simp)
  refine Triple.pure _ fun v hv => ⟨hv.1, hLength, hSpan, ?_, before, after, hv.2, hPieces, ?_⟩
  · rw [List.drop_drop] at hSuffix
    rw [hSuffix, hPrefix, List.take_append_drop, List.take_append_drop]
  · rw [List.drop_drop] at hPieces'
    exact hPieces'

theorem verifyAgainstSource_spec (matchByte : Nat) (matched : List UInt8) :
    Triple (At (sealed identity sourceBytes content) []) (verifyAgainstSource env matchByte matched)
      (fun _ w => w.staged = sealed identity sourceBytes content ∧
        ∃ file, env.reopened = some file ∧
          Compared file sourceBytes matchByte matched content w.observed) Unpublished
      fun _ => False := by
  have hNone : (sealed identity sourceBytes content).published = none := rfl
  unfold verifyAgainstSource
  refine get_spec fun t ht => ?_
  rw [ht.1]
  split
  · exact raise_spec hNone (by simp)
  split
  · exact raise_spec hNone (by simp)
  split
  · exact raise_spec hNone (by simp)
  · rename_i file hFile
    refine (checkedRegular_spec hNone _).bind fun _ _ => ?_
    refine (confirmSourceUnchanged_spec hNone _).bind fun _ hUnchanged => ?_
    refine (systemCall_spec hNone _).bind fun _ _ => ?_
    have hLength : file.content.length = sourceBytes := file.size_eq.symm.trans hUnchanged.2
    exact (compareFiles_spec hNone env file content hLength matchByte matched).conseq
      (fun _ hAt => hAt) (fun _ w hPost => ⟨hPost.1, file, hFile, hPost.2⟩)
      (fun _ _ hError => hError) (fun _ hHalted => hHalted)

/-- The candidate has taken the place of the destination. -/
def Published (env : Surroundings) (sourceBytes matchByte : Nat) (matched content : List UInt8)
    (w : Workspace) : Prop :=
  w.staged.published = some content ∧ w.staged.temporary = none ∧ ∃ file, env.reopened = some file ∧
      Compared file sourceBytes matchByte matched content w.observed

theorem renameCandidate_spec (matchByte : Nat) (matched : List UInt8) :
    Triple (fun w => w.staged = sealed identity sourceBytes content ∧
        ∃ file, env.reopened = some file ∧
          Compared file sourceBytes matchByte matched content w.observed)
      renameCandidate (fun _ => Published env sourceBytes matchByte matched content)
      (fun fault w => (fault = .publishedUnsynced ∧
        Published env sourceBytes matchByte matched content w) ∨ Unpublished fault w)
      fun _ => False := by
  refine Triple.of_state fun w hw => ?_
  obtain ⟨hStaged, file, hFile, hCompared⟩ := hw
  refine Triple.pre (P := At (sealed identity sourceBytes content) w.observed) ?_
    fun t ht => by rw [ht]; exact ⟨hStaged, rfl⟩
  unfold renameCandidate
  refine Triple.bind ((systemCall_spec rfl _).conseq (fun _ hAt => hAt)
    (fun _ _ hPost => hPost.2) (fun _ _ hError => Or.inr hError) fun _ hHalted => hHalted)
    fun _ => ?_
  refine Triple.bind (changeStaged_spec _) fun _ => ?_
  have hPublished : ∀ t : Workspace,
      At { sealed identity sourceBytes content with
        published := some content, temporary := none, consumed := true } w.observed t →
        Published env sourceBytes matchByte matched content t := by
    intro t ht
    refine ⟨by rw [ht.1], by rw [ht.1], file, hFile, ?_⟩
    rw [ht.2]
    exact hCompared
  apply Triple.handle (F := fun _ => Published env sourceBytes matchByte matched content)
  · apply Triple.call
    · intro t a hAt _
      apply hPublished
      split <;> exact hAt
    · intro t fault hAt _
      apply hPublished
      split <;> exact hAt
  · intro fault
    exact Triple.raise _ fun t ht => Or.inl ⟨rfl, ht⟩

/-- A failure before the rename. -/
theorem unpublished_conseq {α : Type} {P : Workspace → Prop} {m : Work α}
    {Q : α → Workspace → Prop} {R : Fault → Workspace → Prop}
    (h : Triple P m Q Unpublished fun _ => False) :
    Triple P m Q (fun fault w => R fault w ∨ Unpublished fault w) fun _ => False :=
  h.conseq (fun _ hP => hP) (fun _ _ hQ => hQ) (fun _ _ hError => Or.inr hError) fun _ hHalted =>
    hHalted

/-- A call between the steps of `publish`. -/
theorem ready_plain {m : Work Unit} (h : ∀ staged : StagedReplacement, staged.published = none →
      Plain staged observed m fun _ => True) :
    Triple (Ready identity sourceBytes observed content) m
      (fun _ => Ready identity sourceBytes observed content) Unpublished fun _ => False := by
  refine of_ready fun staged hFilled hIdentity hSource => ?_
  refine (h staged hFilled.published).conseq (fun _ hAt => hAt) ?_ (fun _ _ hError => hError)
    fun _ hHalted => hHalted
  intro _ w hPost
  obtain ⟨hStaged, hObserved⟩ := hPost.2
  subst hStaged
  exact ⟨hFilled, hIdentity, hSource, hObserved⟩

theorem ensureCandidate_ready : Triple (Ready identity sourceBytes observed content) ensureCandidate
      (fun _ => Ready identity sourceBytes observed content) Unpublished fun _ => False := by
  refine of_ready fun staged hFilled hIdentity hSource => ?_
  obtain ⟨hOpened, _, _, hIdentity', hSource'⟩ := hFilled.opened
  refine (ensureCandidate_spec hFilled.published).conseq (fun _ hAt => hAt) ?_
    (fun _ _ hError => hError) fun _ hHalted => hHalted
  intro _ w hAt
  refine ⟨?_, ?_, ?_, hAt.2⟩
  · rw [hAt.1]
    exact hOpened
  · rw [hAt.1]
    exact hIdentity'.trans hIdentity
  · rw [hAt.1]
    exact hSource'.trans hSource

theorem publishChecked_spec (env : Surroundings) (matchByte : Nat) (matched : List UInt8) :
    Triple (fun w => w.staged = sealed identity sourceBytes content ∧
        ∃ file, env.reopened = some file ∧
          Compared file sourceBytes matchByte matched content w.observed)
      (publishChecked env)
      (fun _ => Published env sourceBytes matchByte matched content)
      (fun fault w => (fault = .publishedUnsynced ∧
        Published env sourceBytes matchByte matched content w) ∨ Unpublished fault w)
      fun _ => False := by
  refine Triple.of_state fun w hw => ?_
  obtain ⟨hStaged, hCompared⟩ := hw
  refine Triple.pre (P := At (sealed identity sourceBytes content) w.observed) ?_
    fun t ht => by rw [ht]; exact ⟨hStaged, rfl⟩
  have hNone : (sealed identity sourceBytes content).published = none := rfl
  unfold publishChecked
  refine (systemCall_spec hNone _).before fun _ _ => ?_
  split
  · exact unpublished_conseq (raise_spec hNone (by simp))
  refine (systemCall_spec hNone _).before fun _ _ => ?_
  split
  · exact unpublished_conseq (raise_spec hNone (by simp))
  refine (checkCancelled_spec hNone).before fun _ _ => ?_
  refine (renameCandidate_spec env matchByte matched).pre fun t ht => ⟨ht.1, ?_⟩
  rw [ht.2]
  exact hCompared

theorem publish_spec (matchByte : Nat) (matched : List UInt8) :
    Triple (Ready identity sourceBytes [] content) (publish env matchByte matched)
      (fun _ => Published env sourceBytes matchByte matched content)
      (fun fault w => (fault = .publishedUnsynced ∧
        Published env sourceBytes matchByte matched content w) ∨ Unpublished fault w)
      fun _ => False := by
  unfold publish
  refine Triple.bind (unpublished_conseq (ready_plain fun _ => checkCancelled_spec)) fun _ => ?_
  refine Triple.bind (R := fun t w => t = w ∧ Ready identity sourceBytes [] content w)
    (Triple.get fun w hReady => ⟨rfl, hReady⟩) fun t => ?_
  refine Triple.of_state fun w hw => ?_
  obtain ⟨rfl, hReady⟩ := hw
  refine Triple.pre (P := Ready identity sourceBytes [] content) ?_ fun u hu => hu ▸ hReady
  rw [if_neg (by rw [hReady.1.consumed]; decide)]
  refine Triple.bind (unpublished_conseq ensureCandidate_ready) fun _ => ?_
  refine Triple.bind (unpublished_conseq (finishCandidate_spec env)) fun _ => ?_
  refine (confirmSourceUnchanged_spec rfl _).before fun _ _ => ?_
  refine Triple.bind (unpublished_conseq (verifyAgainstSource_spec env matchByte matched))
    fun _ => ?_
  exact publishChecked_spec env matchByte matched

end SimplexAgent.Fileio
