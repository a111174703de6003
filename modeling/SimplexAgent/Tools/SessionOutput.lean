import SimplexAgent.ProcessIo.Capture
import SimplexAgent.Tools.TextOutput

/-!
# Reading the output of a session

`ProcessSessionStore::read_output_on_session`: the captured streams of a child, as a
whole or from where the last delta read stopped. Appends, ends, reads and snapshots of
one session run on its strand, one after the other, so an interleaving is a list of
them. `read_session` is a read and, at some later point, a snapshot.

The cursors count raw bytes. What delta reads have returned is compared with the
display of the retained bytes through `Follows`: whatever is captured later, one
projection of all the bytes is what was returned and a projection of the rest.
-/

namespace SimplexAgent.Tools

open ProcessIo Verified

/-! ## The model -/

inductive OutputStream where
  | stdout
  | stderr
  | terminal
  | both
  deriving DecidableEq

def OutputStream.selects : OutputStream → Stream → Bool
  | .both, _ => true
  | .stdout, .stdout => true
  | .stderr, .stderr => true
  | .terminal, .terminal => true
  | _, _ => false

structure OutputSlice where
  text : Bytes := []
  truncated : Bool := false
  deriving DecidableEq

structure OutputRead where
  standardOutput : OutputSlice := {}
  standardError : OutputSlice := {}
  terminalOutput : Option OutputSlice := none
  terminalCursor : Nat := 0
  stdoutCursor : Nat := 0
  stderrCursor : Nat := 0
  deriving DecidableEq

structure SessionOutput where
  capture : CaptureBuffer
  stdoutCursor : Nat := 0
  stderrCursor : Nat := 0
  terminalCursor : Nat := 0

/-- `take`: the slice of a stream, and its cursor afterwards. -/
def take (capture : CaptureBuffer) (full text : Bool) (name : Stream) (cursor : Nat) :
    OutputSlice × Nat :=
  match capture.view name with
  | none => ({}, cursor)
  | some view =>
    let start := if full then 0 else min cursor view.bytes.length
    let raw := view.bytes.drop start
    let projected :=
      if text then textPrefix raw (decide view.IsFinal)
      else { text := raw, consumed := raw.length }
    ({ text := projected.text, truncated := view.truncated },
     if full then cursor else start + projected.consumed)

theorem take_none {capture : CaptureBuffer} {name : Stream} (h : capture.view name = none)
    (full text : Bool) (cursor : Nat) : take capture full text name cursor = ({}, cursor) := by
  unfold take
  rw [h]

namespace SessionOutput

/-- `take`, if the stream was asked for. -/
def takeIf (s : SessionOutput) (stream : OutputStream) (full text : Bool) (name : Stream)
    (cursor : Nat) : OutputSlice × Nat :=
  if stream.selects name then take s.capture full text name cursor else ({}, cursor)

/-- `read_output_on_session`. -/
def readOutput (s : SessionOutput) (stream : OutputStream) (full text : Bool) :
    SessionOutput × OutputRead :=
  let out := s.takeIf stream full text .stdout s.stdoutCursor
  let err := s.takeIf stream full text .stderr s.stderrCursor
  let terminal := s.takeIf stream full text .terminal s.terminalCursor
  ({ s with stdoutCursor := out.2, stderrCursor := err.2, terminalCursor := terminal.2 },
   { standardOutput := out.1
     standardError := err.1
     terminalOutput :=
       if stream.selects .terminal ∧ (s.capture.view .terminal).isSome then some terminal.1 else none
     terminalCursor := terminal.2
     stdoutCursor := out.2
     stderrCursor := err.2 })

def cursor (s : SessionOutput) : Stream → Nat
  | .stdout => s.stdoutCursor
  | .stderr => s.stderrCursor
  | .terminal => s.terminalCursor

end SessionOutput

def OutputRead.slice (r : OutputRead) : Stream → OutputSlice
  | .stdout => r.standardOutput
  | .stderr => r.standardError
  | .terminal => r.terminalOutput.getD {}

/-- What happens on the strand of a session. -/
inductive OutputEvent where
  | append (name : Stream) (bytes : Bytes)
  | finish (name : Stream) (end_ : StreamEnd) (error : Option ErrorCode)
  | read (stream : OutputStream) (full text : Bool)
  | snapshot
  deriving DecidableEq

namespace SessionOutput

/-- One operation; one that throws changes nothing. -/
def step (s : SessionOutput) : OutputEvent → SessionOutput
  | .append name bytes =>
    match s.capture.append name bytes with
    | .ok capture => { s with capture := capture }
    | .error _ => s
  | .finish name end_ error =>
    match s.capture.finish name end_ error with
    | .ok capture => { s with capture := capture }
    | .error _ => s
  | .read stream full text => (s.readOutput stream full text).1
  | .snapshot => s

def run (s : SessionOutput) (events : List OutputEvent) : SessionOutput := events.foldl step s

def start (topology : OutputTopology) (maxOutputBytes : Nat) : SessionOutput where
  capture := .construct topology maxOutputBytes

def deltaText (s : SessionOutput) (name : Stream) : OutputEvent → Bytes
  | .read stream false text => ((s.readOutput stream false text).2.slice name).text
  | _ => []

def deltas (name : Stream) (s : SessionOutput) : List OutputEvent → Bytes
  | [] => []
  | event :: events => s.deltaText name event ++ deltas name (s.step event) events

/-! ## One read -/

variable (s : SessionOutput) {stream : OutputStream}

theorem readOutput_cursor (stream : OutputStream) (full text : Bool) (name : Stream) :
    (s.readOutput stream full text).1.cursor name =
      (s.takeIf stream full text name (s.cursor name)).2 := by
  cases name <;> rfl

theorem readOutput_slice (stream : OutputStream) (full text : Bool) (name : Stream) :
    (s.readOutput stream full text).2.slice name =
      (s.takeIf stream full text name (s.cursor name)).1 := by
  cases name with
  | stdout => rfl
  | stderr => rfl
  | terminal =>
    unfold readOutput OutputRead.slice takeIf
    dsimp only
    by_cases hSelects : stream.selects .terminal = true
    · cases hView : s.capture.view .terminal with
      | none =>
        rw [if_neg (fun h => Bool.false_ne_true h.2), if_pos hSelects]
        exact (congrArg Prod.fst (take_none hView full text _)).symm
      | some view =>
        rw [if_pos ⟨hSelects, rfl⟩]
        rfl
    · rw [if_neg (fun h => hSelects h.1), if_neg hSelects]
      rfl

theorem readOutput_full (stream : OutputStream) (text : Bool) :
    (s.readOutput stream true text).1 = s := by
  have hCursor (name : Stream) (cursor : Nat) :
      (s.takeIf stream true text name cursor).2 = cursor := by
    unfold takeIf take
    by_cases hSelects : stream.selects name = true
    · rw [if_pos hSelects]
      split <;> rfl
    · rw [if_neg hSelects]
  unfold readOutput
  simp only [hCursor]

/-! ## What is still to come -/

variable {s : SessionOutput} {record : Record} {name : Stream} {returned : Bytes}

/-- After `returned`, the display of the bytes from `cursor` on is missing, however the stream
goes on. -/
structure Follows (record : Record) (cursor : Nat) (returned : Bytes) : Prop where
  bounded : cursor ≤ record.bytes.length
  growing : ¬record.IsFinal → ∀ more final, (textPrefix (record.bytes ++ more) final).text =
    returned ++ (textPrefix ((record.bytes ++ more).drop cursor) final).text
  whole : (textPrefix record.bytes true).text =
    returned ++ (textPrefix (record.bytes.drop cursor) true).text

theorem follows_start (record : Record) : Follows record 0 [] where
  bounded := Nat.zero_le _
  growing := fun _ _ _ => by rw [List.nil_append, List.drop_zero]
  whole := by rw [List.nil_append, List.drop_zero]

theorem follows_grows {record record' : Record} {cursor : Nat} (h : Follows record cursor returned)
    (hGrows : record.Grows record') : Follows record' cursor returned := by
  obtain ⟨more, hMore⟩ := hGrows.bytes
  by_cases hFinal : record.IsFinal
  · obtain ⟨hBytes, hFinal'⟩ := hGrows.final hFinal
    constructor
    · rw [hBytes]
      exact h.bounded
    · exact fun hNot => absurd hFinal' hNot
    · rw [hBytes]
      exact h.whole
  · constructor
    · rw [hMore, List.length_append]
      exact Nat.le_trans h.bounded (Nat.le_add_right _ _)
    · intro _ later final
      rw [hMore, List.append_assoc]
      exact h.growing hFinal (more ++ later) final
    · rw [hMore]
      exact h.growing hFinal more true

theorem Follows.all {cursor : Nat} (h : Follows record cursor returned) :
    (textPrefix record.bytes (decide record.IsFinal)).text =
      returned ++ (textPrefix (record.bytes.drop cursor) (decide record.IsFinal)).text := by
  by_cases hFinal : record.IsFinal
  · rw [decide_eq_true hFinal]
    exact h.whole
  · have hGrowing := h.growing hFinal [] false
    rw [List.append_nil] at hGrowing
    rw [decide_eq_false hFinal]
    exact hGrowing

theorem follows_read {cursor : Nat} (h : Follows record cursor returned) : Follows record
      (cursor + (textPrefix (record.bytes.drop cursor) (decide record.IsFinal)).consumed)
      (returned ++ (textPrefix (record.bytes.drop cursor) (decide record.IsFinal)).text) := by
  have hConsumed := textPrefix_consumed_le (record.bytes.drop cursor) (decide record.IsFinal)
  rw [List.length_drop] at hConsumed
  have hBounded := h.bounded
  refine ⟨by omega, ?_, ?_⟩
  · intro hFinal more final
    rw [decide_eq_false hFinal, h.growing hFinal more final, List.drop_append_of_le_length h.bounded,
      textPrefix_append, TextPrefix.push_text, List.append_assoc, ← List.drop_drop,
      List.drop_append_of_le_length h.bounded]
  · by_cases hFinal : record.IsFinal
    · have hEnd : record.bytes.drop (cursor + (record.bytes.length - cursor)) = [] :=
        List.drop_eq_nil_of_le (by omega)
      rw [decide_eq_true hFinal, textPrefix_consumed_final, List.length_drop, hEnd, textPrefix_nil,
        h.whole, List.append_nil]
    · have hAll := congrArg TextPrefix.text (textPrefix_append (record.bytes.drop cursor) [] true)
      rw [List.append_nil, TextPrefix.push_text, List.drop_drop] at hAll
      rw [decide_eq_false hFinal, h.whole, hAll, List.append_assoc]

/-- Whatever happens, a stream that exists goes on existing. -/
theorem step_grows (hSound : s.capture.Sound) (event : OutputEvent)
    (h : s.capture.view name = some record) :
    ∃ record', (s.step event).capture.view name = some record' ∧ record.Grows record' := by
  cases event with
  | append target bytes =>
    simp only [step]
    split
    next capture hAppend => exact CaptureBuffer.append_grows hSound hAppend h
    next => exact ⟨record, h, .refl record⟩
  | finish target end_ error =>
    simp only [step]
    split
    next capture hFinish => exact CaptureBuffer.finish_grows hFinish h
    next => exact ⟨record, h, .refl record⟩
  | read stream full text | snapshot => exact ⟨record, h, .refl record⟩

theorem step_sound (hSound : s.capture.Sound) (event : OutputEvent) :
    (s.step event).capture.Sound := by
  cases event with
  | append target bytes =>
    simp only [step]
    split
    next capture hAppend => exact CaptureBuffer.append_sound hSound hAppend
    next => exact hSound
  | finish target end_ error =>
    simp only [step]
    split
    next capture hFinish => exact CaptureBuffer.finish_sound hSound hFinish
    next => exact hSound
  | read stream full text | snapshot => exact hSound

/-! ## Runs -/

@[simp] theorem run_append (before after : List OutputEvent) :
    s.run (before ++ after) = (s.run before).run after := List.foldl_append

theorem run_single (event : OutputEvent) : s.run [event] = s.step event := rfl

theorem run_sound (h : s.capture.Sound) (events : List OutputEvent) :
    (s.run events).capture.Sound := by
  induction events generalizing s with
  | nil => exact h
  | cons event events ih => exact ih (step_sound h event)

theorem run_grows (hSound : s.capture.Sound) (events : List OutputEvent)
    (h : s.capture.view name = some record) :
    ∃ record', (s.run events).capture.view name = some record' ∧ record.Grows record' := by
  induction events generalizing s record with
  | nil => exact ⟨record, h, .refl record⟩
  | cons event events ih =>
    obtain ⟨middle, hMiddle, hGrows⟩ := step_grows hSound event h
    obtain ⟨record', hRecord', hGrows'⟩ := ih (step_sound hSound event) hMiddle
    exact ⟨record', hRecord', hGrows.trans hGrows'⟩

theorem deltas_append (name : Stream) (s : SessionOutput) (before after : List OutputEvent) :
    deltas name s (before ++ after) = deltas name s before ++ deltas name (s.run before) after := by
  induction before generalizing s with
  | nil => rfl
  | cons event before ih =>
    rw [List.cons_append, deltas, ih, deltas, List.append_assoc]
    rfl

def TextDeltas (name : Stream) (events : List OutputEvent) : Prop :=
  ∀ stream text, .read stream false text ∈ events → stream.selects name = true → text = true

theorem step_read (hView : s.capture.view name = some record)
    (hSelects : stream.selects name = true) (hBounded : s.cursor name ≤ record.bytes.length) :
    s.deltaText name (.read stream false true) =
      (textPrefix (record.bytes.drop (s.cursor name)) (decide record.IsFinal)).text ∧
    (s.step (.read stream false true)).cursor name = s.cursor name +
      (textPrefix (record.bytes.drop (s.cursor name)) (decide record.IsFinal)).consumed := by
  have hTake : s.takeIf stream false true name (s.cursor name) =
      take s.capture false true name (s.cursor name) := if_pos hSelects
  have hMin : min (s.cursor name) record.bytes.length = s.cursor name := Nat.min_eq_left hBounded
  constructor
  · show ((s.readOutput stream false true).2.slice name).text = _
    rw [readOutput_slice, hTake]
    unfold take
    rw [hView]
    dsimp only
    rw [if_neg Bool.false_ne_true, hMin, if_pos rfl]
  · show (s.readOutput stream false true).1.cursor name = _
    rw [readOutput_cursor, hTake]
    unfold take
    rw [hView]
    dsimp only
    rw [if_neg Bool.false_ne_true, if_neg Bool.false_ne_true, hMin, if_pos rfl]

theorem step_other {event : OutputEvent}
    (h : ∀ stream text, event = .read stream false text → stream.selects name = false) :
    s.deltaText name event = [] ∧ (s.step event).cursor name = s.cursor name := by
  cases event with
  | append target bytes | finish target end_ error =>
    refine ⟨rfl, ?_⟩
    simp only [step]
    split <;> cases name <;> rfl
  | snapshot => exact ⟨rfl, rfl⟩
  | read stream full text =>
    cases full with
    | true => exact ⟨rfl, by rw [step, readOutput_full]⟩
    | false =>
      have hTake : s.takeIf stream false text name (s.cursor name) = ({}, s.cursor name) := by
        unfold takeIf
        rw [h stream text rfl, if_neg Bool.false_ne_true]
      constructor
      · show ((s.readOutput stream false text).2.slice name).text = []
        rw [readOutput_slice, hTake]
      · show (s.readOutput stream false text).1.cursor name = _
        rw [readOutput_cursor, hTake]

theorem step_follows {event : OutputEvent} (hSound : s.capture.Sound)
    (hText : TextDeltas name [event]) (hView : s.capture.view name = some record)
    (h : Follows record (s.cursor name) returned) :
    ∃ record', (s.step event).capture.view name = some record' ∧
      Follows record' ((s.step event).cursor name) (returned ++ s.deltaText name event) := by
  by_cases hRead : ∃ stream text, event = .read stream false text ∧ stream.selects name = true
  · obtain ⟨stream, text, rfl, hSelects⟩ := hRead
    obtain rfl : text = true := hText stream text List.mem_cons_self hSelects
    obtain ⟨hDelta, hCursor⟩ := step_read hView hSelects h.bounded
    rw [hDelta, hCursor]
    exact ⟨record, hView, follows_read h⟩
  · have hOther : ∀ stream text, event = .read stream false text → stream.selects name = false := by
      intro stream text hEvent
      by_contra hNot
      exact hRead ⟨stream, text, hEvent, by simpa using hNot⟩
    obtain ⟨hDelta, hCursor⟩ := step_other (s := s) hOther
    obtain ⟨record', hView', hGrows⟩ := step_grows hSound event hView
    rw [hDelta, hCursor, List.append_nil]
    exact ⟨record', hView', follows_grows h hGrows⟩

theorem run_follows {events : List OutputEvent} (hSound : s.capture.Sound)
    (hText : TextDeltas name events) (hView : s.capture.view name = some record)
    (h : Follows record (s.cursor name) returned) :
    ∃ record', (s.run events).capture.view name = some record' ∧
      Follows record' ((s.run events).cursor name) (returned ++ deltas name s events) := by
  induction events generalizing s record returned with
  | nil =>
    rw [deltas, List.append_nil]
    exact ⟨record, hView, h⟩
  | cons event events ih =>
    have hHead : TextDeltas name [event] := fun stream text hMem =>
      hText stream text (List.mem_singleton.mp hMem ▸ List.mem_cons_self)
    have hTail : TextDeltas name events := fun stream text hMem =>
      hText stream text (List.mem_cons_of_mem event hMem)
    obtain ⟨middle, hMiddle, hFollows⟩ := step_follows hSound hHead hView h
    obtain ⟨record', hView', hFollows'⟩ := ih (step_sound hSound event) hTail hMiddle hFollows
    rw [deltas, ← List.append_assoc]
    exact ⟨record', hView', hFollows'⟩

/-! ## Final streams -/

theorem step_read_final (hView : s.capture.view name = some record) (hFinal : record.IsFinal)
    (hSelects : stream.selects name = true) (text : Bool) :
    (s.step (.read stream false text)).cursor name = record.bytes.length := by
  show (s.readOutput stream false text).1.cursor name = _
  have hStart := Nat.min_le_right (s.cursor name) record.bytes.length
  rw [readOutput_cursor]
  unfold takeIf take
  rw [if_pos hSelects, hView]
  cases text with
  | true =>
    show min _ _ + (textPrefix (record.bytes.drop (min _ _)) (decide record.IsFinal)).consumed = _
    rw [decide_eq_true hFinal, textPrefix_consumed_final, List.length_drop]
    omega
  | false =>
    show min _ _ + (record.bytes.drop (min _ _)).length = _
    rw [List.length_drop]
    omega

theorem deltaText_end (hView : s.capture.view name = some record)
    (hCursor : s.cursor name = record.bytes.length) (event : OutputEvent) :
    s.deltaText name event = [] := by
  by_cases hRead : ∃ stream text, event = .read stream false text ∧ stream.selects name = true
  · obtain ⟨stream, text, rfl, hSelects⟩ := hRead
    show ((s.readOutput stream false text).2.slice name).text = []
    rw [readOutput_slice]
    unfold takeIf take
    rw [if_pos hSelects, hView, hCursor]
    dsimp only
    rw [if_neg Bool.false_ne_true, Nat.min_self, List.drop_length]
    cases text with
    | true => rw [if_pos rfl, textPrefix_nil]
    | false => rfl
  · refine (step_other fun stream text hEvent => ?_).1
    by_contra hNot
    exact hRead ⟨stream, text, hEvent, by simpa using hNot⟩

/-- Nothing is returned any more. -/
theorem deltas_end (hSound : s.capture.Sound) (hView : s.capture.view name = some record)
    (hFinal : record.IsFinal) (hCursor : s.cursor name = record.bytes.length)
    (events : List OutputEvent) : deltas name s events = [] := by
  induction events generalizing s record with
  | nil => rfl
  | cons event events ih =>
    obtain ⟨record', hView', hGrows⟩ := step_grows hSound event hView
    obtain ⟨hBytes, hFinal'⟩ := hGrows.final hFinal
    have hCursor' : (s.step event).cursor name = record'.bytes.length := by
      rw [hBytes]
      by_cases hRead : ∃ stream text, event = .read stream false text ∧ stream.selects name = true
      · obtain ⟨stream, text, rfl, hSelects⟩ := hRead
        exact step_read_final hView hFinal hSelects text
      · rw [← hCursor]
        refine (step_other fun stream text hEvent => ?_).2
        by_contra hNot
        exact hRead ⟨stream, text, hEvent, by simpa using hNot⟩
    rw [deltas, deltaText_end hView hCursor, List.nil_append]
    exact ih (step_sound hSound event) hView' hFinal' hCursor'

theorem final_of_complete {c : CaptureBuffer} (h : c.complete = true)
    (hView : c.view name = some record) : record.IsFinal := by
  have hAll := List.all_eq_true.mp h name (by cases name <;> simp)
  rw [hView] at hAll
  exact .inr (bne_iff_ne.mp hAll)

theorem final_of_truncated {full text : Bool} (hView : s.capture.view name = some record)
    (h : ((s.readOutput stream full text).2.slice name).truncated = true) : record.IsFinal := by
  rw [readOutput_slice] at h
  unfold takeIf take at h
  by_cases hSelects : stream.selects name = true
  · rw [if_pos hSelects, hView] at h
    exact .inl h
  · rw [if_neg hSelects] at h
    cases h

theorem step_absent (h : s.capture.view name = none) (event : OutputEvent) :
    (s.step event).capture.view name = none := by
  cases event with
  | append target bytes =>
    simp only [step]
    split
    next capture hAppend =>
      obtain ⟨record, hTarget, -, rfl⟩ := CaptureBuffer.append_ok hAppend
      rw [CaptureBuffer.view_charge, CaptureBuffer.view_set, if_neg, h]
      rintro rfl
      rw [h] at hTarget
      cases hTarget
    next => exact h
  | finish target end_ error =>
    simp only [step]
    split
    next capture hFinish =>
      obtain ⟨record, hTarget, -, ⟨-, rfl⟩ | ⟨-, rfl⟩⟩ := CaptureBuffer.finish_ok hFinish
      · exact h
      rw [CaptureBuffer.view_set, if_neg, h]
      rintro rfl
      rw [h] at hTarget
      cases hTarget
    next => exact h
  | read stream full text => exact h
  | snapshot => exact h

theorem run_absent (h : s.capture.view name = none) (events : List OutputEvent) :
    (s.run events).capture.view name = none := by
  induction events generalizing s with
  | nil => exact h
  | cons event events ih => exact ih (step_absent h event)

theorem start_view (topology : OutputTopology) (maxOutputBytes : Nat) (events : List OutputEvent)
    (h : ((start topology maxOutputBytes).run events).capture.view name = some record) :
    (start topology maxOutputBytes).capture.view name = some {} := by
  cases hStart : (start topology maxOutputBytes).capture.view name with
  | none =>
    rw [run_absent hStart] at h
    cases h
  | some record' =>
    cases topology <;> cases name <;> cases hStart <;> rfl

/-! ## The reads of a session -/

/-- Every run of a session, seen from one of its streams. Delta reads of text return, one after
the other, the display of the retained bytes as one stream, except for the beginning of a
character at the end as long as more bytes may come. Full reads change nothing. A stream that a
read has seen ended or capped keeps its bytes, and after a delta read of it there is nothing
left. -/
theorem session_output_laws (topology : OutputTopology) (maxOutputBytes : Nat)
    (events : List OutputEvent) (name : Stream) (record : Record)
    (hView : ((start topology maxOutputBytes).run events).capture.view name = some record) :
    (TextDeltas name events → (∃ rest, Utf8Display.Displays
          (record.bytes.drop (((start topology maxOutputBytes).run events).cursor name)) rest ∧
        Utf8Display.Displays record.bytes
          (deltas name (start topology maxOutputBytes) events ++ rest)) ∧
      ∀ stream, stream.selects name = true →
        deltas name (start topology maxOutputBytes) (events ++ [.read stream false true]) =
          (textPrefix record.bytes (decide record.IsFinal)).text ∧
        (record.IsFinal → Utf8Display.Displays record.bytes
          (deltas name (start topology maxOutputBytes) (events ++ [.read stream false true]))) ∧
        record.bytes.length <
          ((start topology maxOutputBytes).run (events ++ [.read stream false true])).cursor name
            + 4) ∧
    (∀ stream text, ((start topology maxOutputBytes).run events).step (.read stream true text) =
      (start topology maxOutputBytes).run events) ∧
    (∀ stream full text,
      ((((start topology maxOutputBytes).run events).readOutput stream full text).2.slice
        name).truncated = true → record.IsFinal) ∧
    (((start topology maxOutputBytes).run events).capture.complete = true → record.IsFinal) ∧
    (record.IsFinal → ∀ later,
      (∃ record', ((start topology maxOutputBytes).run (events ++ later)).capture.view name =
        some record' ∧ record'.bytes = record.bytes ∧ record'.IsFinal) ∧
      ∀ stream text, stream.selects name = true →
        deltas name (((start topology maxOutputBytes).run events).step (.read stream false text))
          later = []) := by
  have hStart : (start topology maxOutputBytes).capture.Sound :=
    CaptureBuffer.construct_sound topology maxOutputBytes
  have hSound := run_sound hStart events
  refine ⟨?_, fun stream text => readOutput_full _ stream text,
    fun stream full text => final_of_truncated hView, fun h => final_of_complete h hView, ?_⟩
  · intro hText
    have hFollows : Follows record (((start topology maxOutputBytes).run events).cursor name)
        (deltas name (start topology maxOutputBytes) events) := by
      have hBegin : Follows {} ((start topology maxOutputBytes).cursor name) [] := by
        cases name <;> exact follows_start {}
      obtain ⟨record', hRecord', hFollows⟩ := run_follows hStart hText
        (start_view topology maxOutputBytes events hView) hBegin
      rw [hView] at hRecord'
      rw [List.nil_append] at hFollows
      cases hRecord'
      exact hFollows
    refine ⟨⟨_, textPrefix_displays _, ?_⟩, ?_⟩
    · rw [← hFollows.whole]
      exact textPrefix_displays record.bytes
    · intro stream hSelects
      obtain ⟨hDelta, hCursor⟩ := step_read hView hSelects hFollows.bounded
      have hAll : deltas name (start topology maxOutputBytes)
          (events ++ [.read stream false true]) =
            (textPrefix record.bytes (decide record.IsFinal)).text := by
        rw [deltas_append, deltas, deltas, List.append_nil, hDelta]
        exact (hFollows.all).symm
      refine ⟨hAll, ?_, ?_⟩
      · intro hFinal
        rw [hAll, decide_eq_true hFinal]
        exact textPrefix_displays record.bytes
      · have hPending := textPrefix_pending (record.bytes.drop
          (((start topology maxOutputBytes).run events).cursor name)) (decide record.IsFinal)
        rw [List.length_drop] at hPending
        rw [run_append, run_single, hCursor]
        omega
  · intro hFinal later
    constructor
    · obtain ⟨record', hView', hGrows⟩ := run_grows hSound later hView
      rw [run_append]
      exact ⟨record', hView', hGrows.final hFinal⟩
    · intro stream text hSelects
      exact deltas_end (step_sound hSound (.read stream false text)) hView hFinal
        (step_read_final hView hFinal hSelects text) later

/-- A character in two pieces with a delta read between them, another read, and the end. -/
def splitCharacter : List OutputEvent :=
  [.append .stdout [97, 0xc3], .read .both false true, .append .stdout [0xa9, 98],
   .read .stdout false true, .append .stdout [99], .finish .stdout .eof none]

theorem session_output_laws_sample :
    deltas .stdout (start .separate 0) (splitCharacter ++ [.read .both false true]) =
        [97, 0xc3, 0xa9, 98, 99] ∧
      deltas .stdout (((start .separate 0).run splitCharacter).step (.read .both false true))
        [.append .stdout [100], .read .both false true] = [] := by
  have hView : ((start .separate 0).run splitCharacter).capture.view .stdout =
      some { bytes := [97, 0xc3, 0xa9, 98, 99], end_ := .eof } := rfl
  obtain ⟨hDeltas, -, -, -, hEnd⟩ := session_output_laws .separate 0 splitCharacter .stdout _ hView
  have hFinal : Record.IsFinal { bytes := [97, 0xc3, 0xa9, 98, 99], end_ := .eof } := by decide
  have hText : TextDeltas .stdout splitCharacter := by
    intro stream text hMem _
    have hReads : stream = .both ∧ text = true ∨ stream = .stdout ∧ text = true := by
      simpa [splitCharacter] using hMem
    exact hReads.elim And.right And.right
  have hDisplay : Utf8Display.Displays [97, 0xc3, 0xa9, 98, 99] [97, 0xc3, 0xa9, 98, 99] :=
    .char 'a' (.char 'é' (.char 'b' (.char 'c' .nil)))
  refine ⟨?_, (hEnd hFinal _).2 .both true rfl⟩
  exact Utf8Display.displays_unique (((hDeltas hText).2 .both rfl).2.1 hFinal) hDisplay

/-- Raw and text reads share a cursor: a character of which a raw read took the first byte is
repaired. And `read_session` looks for the end of the streams after it has read: it reports
that they are drained together with a text that lacks their last byte. -/
theorem raw_and_late_snapshot_sample :
    (deltas .stdout (start .separate 0) [.append .stdout [0xc3], .read .stdout false false,
        .append .stdout [0xa9], .read .stdout false true] = [0xc3, 0xef, 0xbf, 0xbd] ∧
      (((start .separate 0).run [.append .stdout [0xc3], .read .stdout false false,
        .append .stdout [0xa9], .read .stdout false true]).capture.view .stdout) =
          some { bytes := [0xc3, 0xa9] } ∧
      ¬∃ rest, Utf8Display.Displays [0xc3, 0xa9] ([0xc3, 0xef, 0xbf, 0xbd] ++ rest)) ∧
    ∃ before after, before = (start .separate 0).run [.append .stdout [97]] ∧
      after = (before.step (.read .both false true)).run
        [.append .stdout [98], .finish .stdout .eof none, .finish .stderr .eof none] ∧
      before.deltaText .stdout (.read .both false true) = [97] ∧
      after.capture.complete = true ∧
      after.deltaText .stdout (.read .both false true) = [98] := by
  have hTail : textPrefix [0xa9] false = { text := [0xef, 0xbf, 0xbd], consumed := 1 } := by
    rw [textPrefix_replace (.inl (by decide)), textPrefix_nil]
    rfl
  have hOne (c : UInt8) (final : Bool) (h : c = 97 ∨ c = 98) :
      textPrefix [c] final = { text := [c], consumed := 1 } := by
    rcases h with rfl | rfl
    · rw [textPrefix_copy final (by decide) (by decide)]
      show TextPrefix.push _ _ (textPrefix [] final) = _
      rw [textPrefix_nil]
      rfl
    · rw [textPrefix_copy final (by decide) (by decide)]
      show TextPrefix.push _ _ (textPrefix [] final) = _
      rw [textPrefix_nil]
      rfl
  refine ⟨⟨?_, ?_, ?_⟩, _, _, rfl, rfl, ?_, ?_, ?_⟩
  · show [] ++ ([0xc3] ++ ([] ++ ((textPrefix [0xa9] false).text ++ []))) = _
    rw [hTail]
    rfl
  · rfl
  · rintro ⟨rest, hDisplay⟩
    have hChar : Utf8Display.Displays [0xc3, 0xa9] [0xc3, 0xa9] :=
      .char (Char.ofNat 0xe9) .nil
    cases Utf8Display.displays_unique hChar hDisplay
  · show (textPrefix [97] false).text = [97]
    rw [hOne 97 false (.inl rfl)]
  · rfl
  · have hCursor : (min (0 + (textPrefix [97] false).consumed) 2) = 1 := by
      rw [hOne 97 false (.inl rfl)]
      rfl
    show (textPrefix (([97, 98] : Bytes).drop (min (min 0 1 + (textPrefix [97] false).consumed) 2))
      true).text = [98]
    rw [show min 0 1 = 0 from rfl, hCursor]
    exact congrArg TextPrefix.text (hOne 98 true (.inr rfl))

end SessionOutput

end SimplexAgent.Tools
