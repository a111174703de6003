import Mathlib.Data.List.Basic

/-!
# Captured output

`process_io::CaptureBuffer`: the beginning of what each output stream of a child has
written, under one budget for all of them. Only the owner of the environment mutates it
or looks at it, one operation at a time.
-/

namespace SimplexAgent.ProcessIo

abbrev Bytes := List UInt8

inductive Stream where
  | stdout
  | stderr
  | terminal
  deriving DecidableEq

inductive OutputTopology where
  | separate
  | terminal
  deriving DecidableEq

inductive StreamEnd where
  | «open»
  | eof
  | stopped
  | failed
  deriving DecidableEq

/-- `boost::system::error_code`, apart from success, which is `none`. -/
inductive ErrorCode where
  | eof
  | brokenPipe
  | ioError
  | other (value : Nat)
  deriving DecidableEq

/-- `CaptureBuffer::Record`, and `StreamView`. -/
structure Record where
  bytes : Bytes := []
  truncated : Bool := false
  end_ : StreamEnd := .open
  error : Option ErrorCode := none
  deriving DecidableEq

namespace Record

/-- The record after these bytes, of which `count` are kept. -/
def append (record : Record) (bytes : Bytes) (count : Nat) : Record :=
  { record with
    bytes := record.bytes ++ bytes.take count
    truncated := record.truncated || count != bytes.length }

def finish (record : Record) (end_ : StreamEnd) (error : Option ErrorCode) : Record :=
  { record with
    end_ := end_
    error := error
    truncated := record.truncated || end_ == .stopped || end_ == .failed }

/-- No more bytes will be kept for the stream: it has ended, or it has lost some. -/
def IsFinal (record : Record) : Prop := record.truncated = true ∨ record.end_ ≠ .open

instance (record : Record) : Decidable record.IsFinal :=
  inferInstanceAs (Decidable (_ ∨ _))

/-- How a record goes on: more bytes, unless it is final. -/
structure Grows (record record' : Record) : Prop where
  bytes : ∃ more, record'.bytes = record.bytes ++ more
  final : record.IsFinal → record'.bytes = record.bytes ∧ record'.IsFinal

theorem Grows.refl (record : Record) : Grows record record where
  bytes := ⟨[], (List.append_nil _).symm⟩
  final := fun h => ⟨rfl, h⟩

theorem Grows.trans {a b c : Record} (h : Grows a b) (h' : Grows b c) : Grows a c where
  bytes := by
    obtain ⟨more, hB⟩ := h.bytes
    obtain ⟨more', hC⟩ := h'.bytes
    exact ⟨more ++ more', by rw [hC, hB, List.append_assoc]⟩
  final := fun hFinal => by
    obtain ⟨hB, hFinalB⟩ := h.final hFinal
    obtain ⟨hC, hFinalC⟩ := h'.final hFinalB
    exact ⟨hC.trans hB, hFinalC⟩

end Record

/-- The record of each stream that exists, and the budget with what is used of it. -/
structure CaptureBuffer where
  streams : Stream → Option Record
  limit : Nat
  retainedBytes : Nat := 0

inductive CaptureError where
  /-- `std::invalid_argument`: no such stream, or no end reason. -/
  | invalidArgument
  /-- `std::logic_error`: the stream has ended. -/
  | logicError
  deriving DecidableEq

namespace CaptureBuffer

def construct (topology : OutputTopology) (maxOutputBytes : Nat) : CaptureBuffer where
  streams := fun stream =>
    match topology, stream with
    | .separate, .stdout => some {}
    | .separate, .stderr => some {}
    | .terminal, .terminal => some {}
    | _, _ => none
  limit := maxOutputBytes

/-- `view`. -/
def view (c : CaptureBuffer) (stream : Stream) : Option Record := c.streams stream

def set (c : CaptureBuffer) (stream : Stream) (record : Record) : CaptureBuffer :=
  { c with streams := fun other => if other = stream then some record else c.streams other }

def room (c : CaptureBuffer) (bytes : Bytes) : Nat :=
  if c.limit = 0 then bytes.length else min bytes.length (c.limit - c.retainedBytes)

/-- The budget after bytes were kept. -/
def charge (c : CaptureBuffer) (count : Nat) : CaptureBuffer :=
  if c.limit ≠ 0 then { c with retainedBytes := c.retainedBytes + count } else c

/-- `append`. -/
def append (c : CaptureBuffer) (stream : Stream) (bytes : Bytes) :
    Except CaptureError CaptureBuffer :=
  match c.view stream with
  | none => .error .invalidArgument
  | some record =>
    if record.end_ ≠ .open then .error .logicError
    else
      let count := c.room bytes
      .ok ((c.set stream (record.append bytes count)).charge count)

/-- `finish`. -/
def finish (c : CaptureBuffer) (stream : Stream) (end_ : StreamEnd) (error : Option ErrorCode) :
    Except CaptureError CaptureBuffer :=
  if end_ = .open then .error .invalidArgument
  else
    match c.view stream with
    | none => .error .invalidArgument
    | some record =>
      if record.end_ ≠ .open then .ok c
      else .ok (c.set stream (record.finish end_ error))

/-- `complete`: every stream that exists has ended. -/
def complete (c : CaptureBuffer) : Bool :=
  [Stream.stdout, .stderr, .terminal].all fun stream =>
    match c.view stream with
    | none => true
    | some record => record.end_ != .open

/-- The stream can still be appended to. -/
def isOpen (c : CaptureBuffer) (stream : Stream) : Bool :=
  match c.view stream with
  | none => false
  | some record => record.end_ == .open

variable (c : CaptureBuffer) {bytes : Bytes}

@[simp] theorem view_set (stream other : Stream) (record : Record) :
    (c.set stream record).view other = if other = stream then some record else c.view other :=
  rfl

@[simp] theorem view_charge (count : Nat) (stream : Stream) :
    (c.charge count).view stream = c.view stream := by
  unfold charge
  split_ifs <;> rfl

@[simp] theorem limit_set (stream : Stream) (record : Record) :
    (c.set stream record).limit = c.limit := rfl

@[simp] theorem retainedBytes_set (stream : Stream) (record : Record) :
    (c.set stream record).retainedBytes = c.retainedBytes := rfl

@[simp] theorem limit_charge (count : Nat) : (c.charge count).limit = c.limit := by
  unfold charge
  split_ifs <;> rfl

theorem retainedBytes_charge {c : CaptureBuffer} (h : c.limit ≠ 0) (count : Nat) :
    (c.charge count).retainedBytes = c.retainedBytes + count := by
  unfold charge
  rw [if_pos h]

variable {c c' : CaptureBuffer} {stream : Stream} {error : Option ErrorCode} {end_ : StreamEnd}

theorem append_ok (h : c.append stream bytes = .ok c') : ∃ record, c.view stream = some record ∧
      record.end_ = .open ∧
      c' = (c.set stream (record.append bytes (c.room bytes))).charge (c.room bytes) := by
  unfold append at h
  split at h
  next => cases h
  next record hView =>
    by_cases hOpen : record.end_ = .open
    · rw [if_neg (not_not.mpr hOpen)] at h
      cases h
      exact ⟨record, hView, hOpen, rfl⟩
    · rw [if_pos hOpen] at h
      cases h

/-- What `finish` does: it ends an open stream, and nothing else. -/
theorem finish_ok (h : c.finish stream end_ error = .ok c') :
    ∃ record, c.view stream = some record ∧ end_ ≠ .open ∧ (record.end_ ≠ .open ∧ c' = c ∨
        record.end_ = .open ∧ c' = c.set stream (record.finish end_ error)) := by
  unfold finish at h
  by_cases hEnd : end_ = .open
  · rw [if_pos hEnd] at h
    cases h
  rw [if_neg hEnd] at h
  split at h
  next => cases h
  next record hView =>
    by_cases hOpen : record.end_ = .open
    · rw [if_neg (not_not.mpr hOpen)] at h
      cases h
      exact ⟨record, hView, hEnd, .inr ⟨hOpen, rfl⟩⟩
    · rw [if_pos hOpen] at h
      cases h
      exact ⟨record, hView, hEnd, .inl ⟨hOpen, rfl⟩⟩

theorem isOpen_of_view {c : CaptureBuffer} {record : Record} (h : c.view stream = some record) :
    c.isOpen stream = (record.end_ == .open) := by
  unfold isOpen
  rw [h]

theorem isOpen_set (stream other : Stream) (record : Record) : (c.set stream record).isOpen other =
      if other = stream then record.end_ == .open else c.isOpen other := by
  unfold isOpen
  rw [view_set]
  split_ifs <;> rfl

theorem isOpen_append (h : c.append stream bytes = .ok c') (other : Stream) :
    c'.isOpen other = c.isOpen other := by
  obtain ⟨record, hView, hOpen, rfl⟩ := append_ok h
  have hCharge (d : CaptureBuffer) (count : Nat) : (d.charge count).isOpen other = d.isOpen other := by
    unfold isOpen
    rw [view_charge]
  rw [hCharge, isOpen_set]
  split_ifs with hSame
  · rw [hSame, isOpen_of_view hView]
    rfl
  · rfl

theorem append_of_isOpen {c : CaptureBuffer} (h : c.isOpen stream = true) (bytes : Bytes) :
    ∃ c', c.append stream bytes = .ok c' := by
  unfold isOpen at h
  unfold append
  split at h
  next => cases h
  next record hView =>
    exact ⟨_, if_neg (not_not.mpr (beq_iff_eq.mp h))⟩

theorem isOpen_finish (h : c.finish stream end_ error = .ok c') (other : Stream) :
    c'.isOpen other = if other = stream then false else c.isOpen other := by
  obtain ⟨record, hView, hEnd, ⟨hOpen, rfl⟩ | ⟨-, rfl⟩⟩ := finish_ok h
  · split_ifs with hSame
    · rw [hSame, isOpen_of_view hView]
      exact beq_eq_false_iff_ne.mpr hOpen
    · rfl
  · rw [isOpen_set]
    split_ifs
    · exact beq_eq_false_iff_ne.mpr hEnd
    · rfl

theorem isOpen_of_finish_error {c : CaptureBuffer} {failure : CaptureError} (hEnd : end_ ≠ .open)
    (h : c.finish stream end_ error = .error failure) : c.isOpen stream = false := by
  unfold finish at h
  rw [if_neg hEnd] at h
  unfold isOpen
  split at h
  next => rfl
  next record hView => split_ifs at h

/-! ## The budget -/

/-- What is used is within the budget, and a stream that is still open has lost bytes to the
budget only. -/
structure Sound (c : CaptureBuffer) : Prop where
  budget : c.limit ≠ 0 → c.retainedBytes ≤ c.limit
  truncated : ∀ stream record, c.view stream = some record → record.truncated = true →
    record.end_ = .open → c.limit ≠ 0 ∧ c.retainedBytes = c.limit

theorem construct_sound (topology : OutputTopology) (maxOutputBytes : Nat) :
    (construct topology maxOutputBytes).Sound := by
  constructor
  · intro _
    exact Nat.zero_le _
  · intro stream record hView hTruncated _
    cases topology <;> cases stream <;> cases hView <;> cases hTruncated

theorem append_sound (h : c.Sound) (hAppend : c.append stream bytes = .ok c') : c'.Sound := by
  obtain ⟨record, hView, hOpen, rfl⟩ := append_ok hAppend
  have hUsed : c.limit ≠ 0 → c.retainedBytes ≤ c.limit := h.budget
  constructor
  · intro hLimit
    rw [limit_charge, limit_set] at hLimit ⊢
    rw [retainedBytes_charge (by rw [limit_set]; exact hLimit), retainedBytes_set]
    have hBudget := hUsed hLimit
    unfold room
    rw [if_neg hLimit]
    omega
  · intro other record' hRecord hTruncated hOther
    rw [limit_charge, limit_set]
    rw [view_charge, view_set] at hRecord
    have hFull : c.limit ≠ 0 ∧ c.retainedBytes + c.room bytes = c.limit := by
      by_cases hOld : c.limit ≠ 0 ∧ c.retainedBytes = c.limit
      · obtain ⟨hLimit, hEq⟩ := hOld
        refine ⟨hLimit, ?_⟩
        unfold room
        rw [if_neg hLimit]
        omega
      · by_cases hSame : other = stream
        · rw [if_pos hSame] at hRecord
          cases hRecord
          have hOldTruncated : record.truncated = false := by
            by_contra hNot
            exact hOld (h.truncated stream record hView (by simpa using hNot) hOpen)
          have hLost : c.room bytes ≠ bytes.length := by
            simpa [Record.append, hOldTruncated] using hTruncated
          have hLimit : c.limit ≠ 0 := by
            intro hZero
            unfold room at hLost
            rw [if_pos hZero] at hLost
            exact hLost rfl
          have hBudget := hUsed hLimit
          refine ⟨hLimit, ?_⟩
          unfold room at hLost ⊢
          rw [if_neg hLimit] at hLost ⊢
          omega
        · rw [if_neg hSame] at hRecord
          exact absurd (h.truncated other record' hRecord hTruncated hOther) hOld
    refine ⟨hFull.1, ?_⟩
    rw [retainedBytes_charge (by rw [limit_set]; exact hFull.1), retainedBytes_set]
    exact hFull.2

theorem finish_sound (h : c.Sound) (hFinish : c.finish stream end_ error = .ok c') : c'.Sound := by
  obtain ⟨record, hView, hEnd, ⟨-, rfl⟩ | ⟨hOpen, rfl⟩⟩ := finish_ok hFinish
  · exact h
  constructor
  · exact h.budget
  · intro other record' hRecord hTruncated hOther
    rw [view_set] at hRecord
    by_cases hSame : other = stream
    · rw [if_pos hSame] at hRecord
      cases hRecord
      exact absurd hOther hEnd
    · rw [if_neg hSame] at hRecord
      exact h.truncated other record' hRecord hTruncated hOther

/-! ## Final streams -/

theorem append_grows {stream other : Stream} {record : Record} (h : c.Sound)
    (hAppend : c.append stream bytes = .ok c') (hView : c.view other = some record) :
    ∃ record', c'.view other = some record' ∧ record.Grows record' := by
  obtain ⟨target, hTarget, hOpen, rfl⟩ := append_ok hAppend
  rw [view_charge, view_set]
  by_cases hSame : other = stream
  · rw [if_pos hSame]
    subst hSame
    obtain rfl : target = record := Option.some.inj (hTarget.symm.trans hView)
    refine ⟨_, rfl, ⟨_, rfl⟩, ?_⟩
    rintro (hTruncated | hEnd)
    · obtain ⟨hLimit, hEq⟩ := h.truncated other target hView hTruncated hOpen
      have hRoom : c.room bytes = 0 := by
        unfold room
        rw [if_neg hLimit]
        omega
      refine ⟨?_, .inl ?_⟩
      · show target.bytes ++ bytes.take (c.room bytes) = target.bytes
        rw [hRoom, List.take_zero, List.append_nil]
      · show (target.truncated || _) = true
        rw [hTruncated, Bool.true_or]
    · exact absurd hOpen hEnd
  · rw [if_neg hSame]
    exact ⟨record, hView, Record.Grows.refl record⟩

theorem finish_grows {stream other : Stream} {record : Record}
    (hFinish : c.finish stream end_ error = .ok c') (hView : c.view other = some record) :
    ∃ record', c'.view other = some record' ∧ record.Grows record' := by
  obtain ⟨target, hTarget, hEnd, ⟨-, rfl⟩ | ⟨hOpen, rfl⟩⟩ := finish_ok hFinish
  · exact ⟨record, hView, Record.Grows.refl record⟩
  rw [view_set]
  by_cases hSame : other = stream
  · rw [if_pos hSame]
    subst hSame
    obtain rfl : target = record := Option.some.inj (hTarget.symm.trans hView)
    exact ⟨_, rfl, ⟨[], (List.append_nil _).symm⟩, fun _ => ⟨rfl, .inr hEnd⟩⟩
  · rw [if_neg hSame]
    exact ⟨record, hView, Record.Grows.refl record⟩

end CaptureBuffer

end SimplexAgent.ProcessIo
