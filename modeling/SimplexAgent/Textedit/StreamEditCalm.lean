import SimplexAgent.Textedit.StreamEditRun
import SimplexAgent.Textedit.StreamEditMatch
import SimplexAgent.Fileio.StagedReplaceCalm

/-!
# A streaming edit that nothing disturbs

The scan of a file that does not change, with no stop and no failing call. It ends with the
matcher fed the whole text and the candidate holding what was handed to it, or a limit is
exceeded: by the text, or by what is handed to the candidate up to the second match.
-/

namespace SimplexAgent.Textedit

open Verified.Interruptible Verified.Borders Fileio

/-! ## What is handed to the candidate -/

namespace StreamingMatcher

variable {old new text : List UInt8}
variable {m : StreamingMatcher} {made : List WriterCall}

theorem handed_append (source : List UInt8) (first second : List WriterCall) :
    handed source (first ++ second) = handed source first ++ handed source second := by
  induction first with
  | nil => rfl
  | cons call rest ih =>
    cases call with
    | begin prefixBytes replacement =>
      rw [List.cons_append, handed, handed, ih]
      simp only [List.append_assoc]
    | appendByte byte => rw [List.cons_append, handed, handed, ih, List.cons_append]
    | enable value => rw [List.cons_append, handed, handed, ih]

theorem calls_append (m : StreamingMatcher) (offset : Nat) (front back : List UInt8) :
    m.calls offset (front ++ back) =
      m.calls offset front ++ (m.feed offset front).calls (offset + front.length) back := by
  induction front generalizing m offset with
  | nil => rfl
  | cons byte rest ih =>
    rw [List.cons_append, calls, calls, ih, List.append_assoc, feed, List.length_cons,
      Nat.add_assoc offset 1, Nat.add_comm 1]

theorem step_second {seen : List UInt8} (hTracked : Tracked old new seen m made)
    (hActive : m.ambiguous = false) (byte : UInt8)
    (hAgain : (m.step byte seen.length).1.ambiguous = true) :
    m.found = true ∧ (m.step byte seen.length).2 = [.appendByte byte, .enable false] ∧
      (m.step byte seen.length).1.secondMatchByte = seen.length + 1 - old.length := by
  have hStopped : m.stopped = false := hTracked.searched.stopped.trans hActive
  by_cases hFound : m.found = true
  · refine ⟨hFound, ?_⟩
    unfold step at hAgain ⊢
    rw [if_neg (by rw [hStopped]; decide), if_neg (by rw [hFound]; decide)] at hAgain ⊢
    split at hAgain
    · rename_i hWhole
      have hFoundOn : (m.searchOn byte).found = true := hFound
      have hPattern : (m.searchOn byte).pattern = old := hTracked.searched.pattern
      unfold complete
      rw [if_pos hWhole, if_neg (by rw [hFoundOn]; decide), hPattern]
      exact ⟨rfl, rfl⟩
    · have hStill : m.ambiguous = true := hAgain
      rw [hActive] at hStill
      cases hStill
  · have hBefore : m.found = false := by simpa using hFound
    obtain ⟨-, hStep⟩ := step_spec hTracked.searched byte
    generalize hCalls : (m.step byte seen.length).2 = calls at hStep
    cases hStep with
    | stopped hAmbiguous => rw [hActive] at hAmbiguous; cases hAmbiguous
    | searching _ _ _ hUnique | matched _ _ _ hUnique => rw [hUnique] at hAgain; cases hAgain
    | suffix hAfter | again hAfter => rw [hBefore] at hAfter; cases hAfter

theorem step_matchByte {count : Nat} (h : Searched old new count m) (byte : UInt8)
    (hAfter : (m.step byte count).1.found = false) :
    m.found = false ∧ (m.step byte count).1.matchByte = m.matchByte := by
  by_cases hStopped : m.stopped = true
  · have hStep : m.step byte count = (m, []) := by rw [step, if_pos hStopped]
    rw [hStep] at hAfter ⊢
    exact ⟨hAfter, rfl⟩
  by_cases hFound : m.found = true
  · unfold step at hAfter
    rw [if_neg hStopped, if_neg (by rw [hFound]; decide)] at hAfter
    have hFoundOn : (m.searchOn byte).found = true := hFound
    split at hAfter
    · unfold complete at hAfter
      rw [if_neg (by rw [hFoundOn]; decide)] at hAfter
      have hStill : (m.searchOn byte).found = false := hAfter
      rw [hFoundOn] at hStill
      cases hStill
    · have hStill : (m.searchOn byte).found = false := hAfter
      rw [hFoundOn] at hStill
      cases hStill
  · have hBefore : m.found = false := by simpa using hFound
    obtain ⟨-, hPending, -⟩ := h.before hBefore
    obtain ⟨-, -, hSame⟩ := giveUp_spec h.toOf h.partly hPending byte
    have hKept : (m.giveUp byte).matchByte = m.matchByte := by rw [hSame]
    have hNotFound := (search_spec h hBefore byte).2.2.2.2.1
    refine ⟨hBefore, ?_⟩
    unfold step at hAfter ⊢
    rw [if_neg hStopped, if_pos hBefore] at hAfter ⊢
    split
    · rename_i hWhole
      rw [if_pos hWhole] at hAfter
      unfold complete at hAfter
      rw [if_pos hNotFound] at hAfter
      cases hAfter
    · show (m.search byte).matchByte = m.matchByte
      unfold search
      split
      · exact hKept
      · exact hKept

/-- The matcher after some bytes of a text, the calls it has made, and how much was handed to the
candidate if it has found two matches. -/
structure Reached (old new text seen : List UInt8) (m : StreamingMatcher)
    (made : List WriterCall) : Prop extends Tracked old new seen m made where
  size : m.ambiguous = true → (handed text made).length = m.secondMatchByte + new.length
  start : m.found = false → m.matchByte = 0

theorem reached_new (new text : List UInt8) (h : old ≠ []) :
    Reached old new text [] (StreamingMatcher.new old new) [] where
  toTracked := tracked_new new h
  size hAmbiguous := by cases hAmbiguous
  start _ := rfl

theorem Tracked.handed_length {seen : List UInt8} (hTracked : Tracked old new seen m made)
    (rest : List UInt8) (hFound : m.found = true) (hUnique : m.ambiguous = false) :
    (handed (seen ++ rest) made).length =
      m.matchByte + new.length + (seen.length - (m.matchByte + old.length)) := by
  obtain ⟨hEnd, -⟩ := hTracked.searched.after hFound
  rw [(hTracked.only hFound hUnique).2, handed, handed_appendByte, List.length_append,
    List.length_append, List.length_take, List.length_drop, List.length_append]
  omega

theorem Reached.step {seen rest : List UInt8} {byte : UInt8} (hMore : old ≠ [])
    (h : Reached old new (seen ++ byte :: rest) seen m made) :
    Reached old new (seen ++ byte :: rest) (seen ++ [byte]) (m.step byte seen.length).1
      (made ++ (m.step byte seen.length).2) := by
  refine ⟨step_tracked hMore h.toTracked byte, fun hAgain => ?_, fun hAfter => ?_⟩
  case refine_2 =>
    obtain ⟨hBefore, hSame⟩ := step_matchByte h.searched byte hAfter
    exact hSame.trans (h.start hBefore)
  by_cases hAmbiguous : m.ambiguous = true
  · have hStep : m.step byte seen.length = (m, []) := by
      rw [StreamingMatcher.step, if_pos (h.searched.stopped.trans hAmbiguous)]
    rw [hStep, List.append_nil]
    exact h.size hAmbiguous
  · have hActive : m.ambiguous = false := by simpa using hAmbiguous
    obtain ⟨hFound, hCalls, hSecond⟩ := step_second h.toTracked hActive byte hAgain
    obtain ⟨hEnd, -⟩ := h.searched.after hFound
    rw [hCalls, hSecond, handed_append, List.length_append, h.handed_length _ hFound hActive]
    simp only [handed, List.length_cons, List.length_nil]
    omega

theorem Reached.feed {seen bytes : List UInt8} (rest : List UInt8) (hMore : old ≠ [])
    (h : Reached old new (seen ++ (bytes ++ rest)) seen m made) :
    Reached old new (seen ++ (bytes ++ rest)) (seen ++ bytes) (m.feed seen.length bytes)
      (made ++ m.calls seen.length bytes) := by
  induction bytes generalizing seen m made with
  | nil =>
    rw [calls, List.append_nil, List.append_nil]
    exact h
  | cons byte bytes ih =>
    have hText : seen ++ (byte :: bytes ++ rest) = seen ++ [byte] ++ (bytes ++ rest) := by simp
    have hNext : Reached old new (seen ++ [byte] ++ (bytes ++ rest)) (seen ++ [byte])
        (m.step byte seen.length).1 (made ++ (m.step byte seen.length).2) := by
      rw [← hText]
      exact h.step hMore
    have hRest := ih hNext
    rw [← hText, List.append_assoc, List.append_assoc, List.length_append,
      List.length_singleton] at hRest
    exact hRest

end StreamingMatcher

/-! ## The writer -/

/-- The candidate and the buffer hold these bytes, which are within the limit. -/
structure Holding (identity : FileIdentity) (sourceBytes : Nat) (shown : List (UInt8 × Nat))
    (limit : Nat) (total : List UInt8) (writer : CandidateWriter) (w : Workspace) : Prop where
  enabled : writer.enabled = true
  bounded : writer.limit = limit
  written : writer.written = total.length
  fits : total.length ≤ limit
  spooled : ∃ content, CalmReady identity sourceBytes shown content w ∧
    content ++ writer.buffer = total

section Writer

variable {identity : FileIdentity} {sourceBytes limit : Nat} {shown : List (UInt8 × Nat)}
variable {total : List UInt8} {writer : CandidateWriter}
variable {E : Fault → Workspace → Prop} {H : Workspace → Prop}

theorem flush_calm {content : List UInt8} (hTotal : content ++ writer.buffer = total) :
    Triple (CalmReady identity sourceBytes shown content) writer.flush
      (fun flushed w => flushed = { writer with buffer := [] } ∧
        CalmReady identity sourceBytes shown total w) E H := by
  unfold CandidateWriter.flush
  split
  · refine Triple.bind (write_calm writer.buffer) fun _ => ?_
    exact Triple.pure _ fun w hReady => ⟨rfl, hTotal ▸ hReady⟩
  · rename_i hEmpty
    have hBuffer : writer.buffer = [] := List.length_eq_zero_iff.mp (by omega)
    refine Triple.pure _ fun w hReady => ⟨by rw [← hBuffer], ?_⟩
    rw [← hTotal, hBuffer, List.append_nil]
    exact hReady

theorem spill_calm {content bytes : List UInt8} (hTotal : content ++ writer.buffer = total) :
    Triple (CalmReady identity sourceBytes shown content) (writer.spill bytes)
      (fun after w => after.enabled = writer.enabled ∧ after.limit = writer.limit ∧
        after.written = writer.written ∧ ∃ kept, CalmReady identity sourceBytes shown kept w ∧
          kept ++ after.buffer = total ++ bytes) E H := by
  unfold CandidateWriter.spill
  refine bind_value (flush_calm hTotal) ?_
  split
  · refine Triple.bind (write_calm bytes) fun _ => ?_
    exact Triple.pure _ fun w hw => ⟨rfl, rfl, rfl, _, hw, List.append_nil _⟩
  · exact Triple.pure _ fun w hw => ⟨rfl, rfl, rfl, total, hw, rfl⟩

theorem append_calm {bytes : List UInt8} (hFits : total.length + bytes.length ≤ limit) :
    Triple (Holding identity sourceBytes shown limit total writer) (writer.append bytes)
      (Holding identity sourceBytes shown limit (total ++ bytes)) E H := by
  intro w hw
  obtain ⟨hEnabled, hLimit, hWritten, -, content, hReady, hTotal⟩ := hw
  have hMore : (total ++ bytes).length ≤ limit := by
    rw [List.length_append]
    exact hFits
  have hRun : Triple (CalmReady identity sourceBytes shown content) (writer.append bytes)
      (Holding identity sourceBytes shown limit (total ++ bytes)) E H := by
    unfold CandidateWriter.append
    rw [if_neg (by rw [hEnabled]; decide), if_neg (by rw [hLimit, hWritten]; omega)]
    split
    · refine Triple.pure _ fun u hu => ⟨hEnabled, hLimit, ?_, hMore, content, hu, ?_⟩
      · rw [List.length_append, ← hWritten]
      · rw [← hTotal, List.append_assoc]
    · have hSpill : Triple (CalmReady identity sourceBytes shown content)
          (CandidateWriter.spill { writer with written := writer.written + bytes.length } bytes)
          _ E H := spill_calm hTotal
      refine hSpill.conseq (fun _ hu => hu) ?_ (fun _ _ hError => hError) fun _ hHalted => hHalted
      intro after u hu
      obtain ⟨hEnabled', hLimit', hWritten', kept, hReady', hTotal'⟩ := hu
      refine ⟨hEnabled'.trans hEnabled, hLimit'.trans hLimit, ?_, hMore, kept, hReady', hTotal'⟩
      rw [hWritten', List.length_append, ← hWritten]
  exact hRun w hReady

theorem append_refused {bytes : List UInt8} {Q : CandidateWriter → Workspace → Prop}
    (hOver : limit < total.length + bytes.length)
    (hE : ∀ w, E (.lengthError "edited text exceeds the configured byte limit") w) :
    Triple (Holding identity sourceBytes shown limit total writer) (writer.append bytes) Q E H := by
  intro w hw
  have hFits := hw.fits
  unfold CandidateWriter.append
  rw [if_neg (by rw [hw.enabled]; decide), if_pos (by rw [hw.bounded, hw.written]; omega)]
  exact hE w

theorem begin_appends {text replacement : List UInt8} {kernel reads : List SourceReply}
    {prefixBytes : Nat} {Q : CandidateWriter → Workspace → Prop}
    (hSupplies : Supplies text 0 reads kernel)
    (hScanned : prefixBytes ≤ sourceBytes) (hInside : prefixBytes ≤ text.length)
    (hOver : limit < prefixBytes →
      ∀ w, E (.lengthError "edited text exceeds the configured byte limit") w)
    (hAppend : (text.take prefixBytes).length = prefixBytes →
      Triple (Holding identity sourceBytes shown limit (text.take prefixBytes)
        { writer with written := prefixBytes })
        (CandidateWriter.append { writer with written := prefixBytes } replacement) Q E H) :
    Triple (Holding identity sourceBytes shown limit [] writer)
      (writer.begin kernel reads prefixBytes replacement) Q E H := by
  intro w hw
  obtain ⟨hEnabled, hLimit, -, -, content, hReady, hTotal⟩ := hw
  obtain ⟨hContent, hBuffer⟩ := List.append_eq_nil_iff.mp hTotal
  have hPrefix : (text.take prefixBytes).length = prefixBytes := List.length_take_of_le hInside
  have hRun : Triple (CalmReady identity sourceBytes shown [])
      (writer.begin kernel reads prefixBytes replacement) Q E H := by
    unfold CandidateWriter.begin
    rw [if_neg (by rw [hEnabled]; decide)]
    split
    · rename_i hLess
      exact Triple.raise _ fun u _ => hOver (hLimit ▸ hLess) u
    · rename_i hLess
      refine Triple.bind (copyPrefix_calm hSupplies hScanned hInside) fun _ => ?_
      refine (hAppend hPrefix).pre fun u hu => ?_
      refine ⟨hEnabled, hLimit, hPrefix.symm, by rw [hPrefix]; omega, _, hu, ?_⟩
      rw [hBuffer, List.append_nil]
  rw [hContent] at hReady
  exact hRun w hReady

end Writer

/-! ## The scan -/

/-- The candidate holds what was handed to it, unless the writer is off. -/
structure Held (identity : FileIdentity) (sourceBytes : Nat) (shown : List (UInt8 × Nat))
    (request : EditRequest) (text : List UInt8) (m : StreamingMatcher) (made : List WriterCall)
    (writer : CandidateWriter) (w : Workspace) : Prop where
  fits : request.oldText ≠ request.newText →
    (StreamingMatcher.handed text made).length ≤ request.maxFileBytes
  writes : (writer.enabled = false ∧ (m.ambiguous = true ∨ request.oldText = request.newText) ∧
      ∃ content, CalmReady identity sourceBytes shown content w) ∨
    (request.oldText ≠ request.newText ∧ m.ambiguous = false ∧
      Holding identity sourceBytes shown request.maxFileBytes
        (StreamingMatcher.handed text made) writer w)

section Scan

variable {identity : FileIdentity} {sourceBytes : Nat} {shown : List (UInt8 × Nat)}
variable {request : EditRequest} {text seen rest : List UInt8} {m m' : StreamingMatcher}
variable {made calls : List WriterCall} {writer : CandidateWriter} {byte : UInt8}
variable {E : Fault → Workspace → Prop} {H : Workspace → Prop} {kernel reads : List SourceReply}

open StreamingMatcher

theorem step_off {content : List UInt8} (hOff : writer.enabled = false)
    (hWhy : m.ambiguous = true ∨ request.oldText = request.newText)
    (hFits : request.oldText ≠ request.newText → (handed text made).length ≤ request.maxFileBytes)
    (h : Stepped request.newText request.oldText.length seen.length byte m m' calls) :
    Triple (CalmReady identity sourceBytes shown content) (writer.performAll kernel reads calls)
      (Held identity sourceBytes shown request text m' (made ++ calls)) E H := by
  have hSame : m.ambiguous = false → request.oldText = request.newText := by
    intro hActive
    rw [hActive] at hWhy
    exact hWhy.resolve_left (by decide)
  have hHeld : ∀ (w : Workspace) (after : CandidateWriter), m.ambiguous = false →
      after.enabled = false → CalmReady identity sourceBytes shown content w →
        Held identity sourceBytes shown request text m' (made ++ calls) after w := by
    intro w after hActive hOff' hw
    exact ⟨fun hChanged => absurd (hSame hActive) hChanged,
      Or.inl ⟨hOff', Or.inr (hSame hActive), content, hw⟩⟩
  cases h with
  | stopped hAmbiguous hStill =>
    refine Triple.pure _ fun w hw => ⟨?_, Or.inl ⟨hOff, ?_, content, hw⟩⟩
    · rw [List.append_nil]
      exact hFits
    · rw [hStill]
      exact hWhy
  | searching _ hActive => exact Triple.pure _ fun w hw => hHeld w writer hActive hOff hw
  | matched _ hActive =>
    simp only [CandidateWriter.performAll, CandidateWriter.perform, begin_off writer hOff, pure_bind]
    exact Triple.pure _ fun w hw => hHeld w writer hActive hOff hw
  | suffix _ hActive =>
    simp only [CandidateWriter.performAll, CandidateWriter.perform, append_off writer hOff, pure_bind]
    exact Triple.pure _ fun w hw => hHeld w writer hActive hOff hw
  | again _ hActive =>
    simp only [CandidateWriter.performAll, CandidateWriter.perform, append_off writer hOff, pure_bind]
    exact Triple.pure _ fun w hw => hHeld w _ hActive rfl hw

theorem append_held (hE : request.maxFileBytes < (handed text (made ++ [.appendByte byte])).length →
      ∀ w, E (.lengthError "edited text exceeds the configured byte limit") w) :
    Triple (Holding identity sourceBytes shown request.maxFileBytes (handed text made) writer)
      (writer.append [byte])
      (Holding identity sourceBytes shown request.maxFileBytes
        (handed text (made ++ [.appendByte byte]))) E H := by
  have hHanded : handed text (made ++ [.appendByte byte]) = handed text made ++ [byte] := by
    rw [handed_append, handed, handed]
  rw [hHanded] at hE ⊢
  by_cases hFits : (handed text made).length + [byte].length ≤ request.maxFileBytes
  · exact append_calm hFits
  · exact append_refused (by omega) (hE (by rw [List.length_append]; omega))

theorem step_held (hSupplies : Supplies text 0 reads kernel)
    (hReached : Reached request.oldText request.newText text seen m made)
    (hInside : seen.length + 1 ≤ text.length) (hScanned : seen.length + 1 ≤ sourceBytes)
    (hE : request.oldText ≠ request.newText →
      request.maxFileBytes < (handed text (made ++ (m.step byte seen.length).2)).length →
        ∀ w, E (.lengthError "edited text exceeds the configured byte limit") w) :
    Triple (Held identity sourceBytes shown request text m made writer)
      (writer.performAll kernel reads (m.step byte seen.length).2)
      (Held identity sourceBytes shown request text (m.step byte seen.length).1
        (made ++ (m.step byte seen.length).2)) E H := by
  obtain ⟨-, hStep⟩ := step_spec hReached.searched byte
  generalize (m.step byte seen.length).1 = m' at hStep ⊢
  generalize (m.step byte seen.length).2 = calls at hStep hE ⊢
  intro w hw
  obtain ⟨hFits, hOff | hOn⟩ := hw
  · obtain ⟨hOff, hWhy, content, hReady⟩ := hOff
    exact step_off hOff hWhy hFits hStep w hReady
  obtain ⟨hChanged, hActive, hHolding⟩ := hOn
  have hHeld : ∀ (u : Workspace) (after : CandidateWriter), m'.ambiguous = false →
      Holding identity sourceBytes shown request.maxFileBytes (handed text (made ++ calls)) after u →
        Held identity sourceBytes shown request text m' (made ++ calls) after u :=
    fun u after hUnique hu => ⟨fun _ => hu.fits, Or.inr ⟨hChanged, hUnique, hu⟩⟩
  cases hStep with
  | stopped hAmbiguous => rw [hActive] at hAmbiguous; cases hAmbiguous
  | searching _ _ _ hUnique =>
    refine hHeld w writer hUnique ?_
    rw [List.append_nil]
    exact hHolding
  | matched hBefore _ _ hUnique hEnd =>
    obtain ⟨-, hMade⟩ := hReached.nothing hBefore
    subst hMade
    have hHanded : handed text ([] ++ [.begin m'.matchByte request.newText]) =
        text.take m'.matchByte ++ request.newText := by
      rw [List.nil_append, handed, handed, List.append_nil]
    rw [hHanded] at hHeld hE
    have hRun : Triple (Holding identity sourceBytes shown request.maxFileBytes [] writer)
        (writer.begin kernel reads m'.matchByte request.newText)
        (Holding identity sourceBytes shown request.maxFileBytes
          (text.take m'.matchByte ++ request.newText)) E H := by
      by_cases hLe : m'.matchByte + request.newText.length ≤ request.maxFileBytes
      · exact begin_appends hSupplies (by omega) (by omega) (fun hOver => by omega)
          fun hPrefix => append_calm (by rw [hPrefix]; exact hLe)
      · have hRefused := hE hChanged (by rw [List.length_append, List.length_take]; omega)
        exact begin_appends hSupplies (by omega) (by omega) (fun _ => hRefused)
          fun hPrefix => append_refused (by rw [hPrefix]; omega) hRefused
    exact Triple.bind hRun (fun after => Triple.pure after fun u hu => hHeld u after hUnique hu)
      w hHolding
  | suffix _ _ _ hUnique =>
    exact Triple.bind (append_held (hE hChanged))
      (fun after => Triple.pure after fun u hu => hHeld u after hUnique hu) w hHolding
  | again _ _ hAgain =>
    have hSize : handed text (made ++ [.appendByte byte, .enable false]) =
        handed text (made ++ [.appendByte byte]) := by
      rw [handed_append, handed_append, handed, handed, handed, handed, handed]
    rw [hSize] at hE
    refine Triple.bind (append_held (hE hChanged)) (fun after => ?_) w hHolding
    refine Triple.pure _ fun u hu => ⟨fun _ => ?_, Or.inl ⟨rfl, Or.inl hAgain, ?_⟩⟩
    · rw [hSize]
      exact hu.fits
    · obtain ⟨content, hReady, -⟩ := hu.spooled
      exact ⟨content, hReady⟩

theorem Held.ready {w : Workspace}
    (h : Held identity sourceBytes shown request text m made writer w) :
    ∃ content, CalmReady identity sourceBytes shown content w := by
  rcases h.writes with hOff | hOn
  · exact hOff.2.2
  · obtain ⟨content, hReady, -⟩ := hOn.2.2.spooled
    exact ⟨content, hReady⟩

/-- What leaves the candidate alone. -/
theorem of_held {α : Type} {p : Work α} {a : α} {count : Nat}
    (h : ∀ content, Triple (CalmReady identity sourceBytes shown content) p
      (fun b w => b = a ∧ CalmReady identity count shown content w) E H) :
    Triple (Held identity sourceBytes shown request text m made writer) p
      (fun b w => b = a ∧ Held identity count shown request text m made writer w) E H := by
  intro w hw
  obtain ⟨hFits, hOff | hOn⟩ := hw
  · obtain ⟨hOff, hWhy, content, hReady⟩ := hOff
    refine (h content).conseq (fun _ hu => hu) (fun b u hu => ⟨hu.1, hFits, ?_⟩)
      (fun _ _ hError => hError) (fun _ hHalted => hHalted) w hReady
    exact Or.inl ⟨hOff, hWhy, content, hu.2⟩
  · obtain ⟨hChanged, hActive, hHolding⟩ := hOn
    obtain ⟨content, hReady, hTotal⟩ := hHolding.spooled
    refine (h content).conseq (fun _ hu => hu) (fun b u hu => ⟨hu.1, hFits, ?_⟩)
      (fun _ _ hError => hError) (fun _ hHalted => hHalted) w hReady
    exact Or.inr ⟨hChanged, hActive, hHolding.enabled, hHolding.bounded, hHolding.written,
      hHolding.fits, content, hu.2, hTotal⟩

/-- The matcher after some bytes, and the calls it has made. -/
def fed (request : EditRequest) (seen : List UInt8) : StreamingMatcher :=
  (startMatcher request).feed 0 seen

def madeCalls (request : EditRequest) (seen : List UInt8) : List WriterCall :=
  (startMatcher request).calls 0 seen

theorem fed_snoc (request : EditRequest) (seen : List UInt8) (byte : UInt8) :
    fed request (seen ++ [byte]) = ((fed request seen).step byte seen.length).1 := by
  unfold fed
  rw [feed_append, Nat.zero_add]
  rfl

theorem madeCalls_snoc (request : EditRequest) (seen : List UInt8) (byte : UInt8) :
    madeCalls request (seen ++ [byte]) =
      madeCalls request seen ++ ((fed request seen).step byte seen.length).2 := by
  unfold madeCalls fed
  rw [calls_append, Nat.zero_add]
  simp only [calls, List.append_nil]

/-- A limit is exceeded: by the text, or by what is handed to the candidate. -/
def Outgrown (request : EditRequest) (text : List UInt8) : Prop :=
  request.maxFileBytes < text.length ∨ (request.oldText ≠ request.newText ∧
    request.maxFileBytes < (handed text (madeCalls request text)).length)

theorem outgrown_of_handed (hText : seen ++ rest = text)
    (hChanged : request.oldText ≠ request.newText)
    (hOver : request.maxFileBytes < (handed text (madeCalls request seen)).length) :
    Outgrown request text := by
  refine Or.inr ⟨hChanged, Nat.lt_of_lt_of_le hOver ?_⟩
  have hCalls : madeCalls request text =
      madeCalls request seen ++ (fed request seen).calls seen.length rest := by
    unfold madeCalls fed
    rw [← hText, calls_append, Nat.zero_add]
  rw [hCalls, handed_append, List.length_append]
  exact Nat.le_add_right _ _

theorem reached_fed (hMore : request.oldText ≠ []) (hText : seen ++ rest = text) :
    Reached request.oldText request.newText text seen (fed request seen)
      (madeCalls request seen) := by
  have hStart : Reached request.oldText request.newText ([] ++ (seen ++ rest)) []
      (startMatcher request) [] := reached_new request.newText _ hMore
  have hEnd := hStart.feed rest hMore
  rw [List.nil_append, hText] at hEnd
  exact hEnd

theorem reached_all (text : List UInt8) (hMore : request.oldText ≠ []) :
    Reached request.oldText request.newText text text (fed request text)
      (madeCalls request text) :=
  reached_fed hMore (List.append_nil text)

theorem scanBytes_held (env : EditSurroundings) (bytes : List UInt8)
    (hSupplies : Supplies text 0 env.reads env.kernel) (hMore : request.oldText ≠ [])
    (hText : seen ++ (bytes ++ rest) = text) (hScanned : seen.length + bytes.length ≤ sourceBytes)
    (hE : Outgrown request text → ∀ what w, E (.lengthError what) w) :
    Triple (Held identity sourceBytes shown request text (fed request seen)
        (madeCalls request seen) writer)
      (scanBytes env bytes seen.length (fed request seen) writer)
      (fun after w => after.1 = fed request (seen ++ bytes) ∧
        Held identity sourceBytes shown request text (fed request (seen ++ bytes))
          (madeCalls request (seen ++ bytes)) after.2 w) E H := by
  induction bytes generalizing seen writer with
  | nil =>
    rw [List.append_nil]
    exact Triple.pure _ fun w hw => ⟨rfl, hw⟩
  | cons byte bytes ih =>
    have hSnoc : seen ++ [byte] ++ (bytes ++ rest) = text := by
      rw [← hText]
      simp
    have hLength : (seen ++ [byte]).length = seen.length + 1 := by
      rw [List.length_append, List.length_singleton]
    have hInside : seen.length + 1 ≤ text.length := by
      rw [← hSnoc, List.length_append, hLength]
      omega
    rw [List.length_cons] at hScanned
    unfold scanBytes
    refine Triple.bind (step_held hSupplies (reached_fed hMore hText) hInside (by omega)
      fun hChanged hOver w => ?_) fun after => ?_
    · rw [← madeCalls_snoc] at hOver
      exact hE (outgrown_of_handed hSnoc hChanged hOver) _ w
    · have hJoin : seen ++ byte :: bytes = seen ++ [byte] ++ bytes := by simp
      rw [← fed_snoc, ← madeCalls_snoc, ← hLength, hJoin]
      exact ih hSnoc (by omega)

def ScansOn (text : List UInt8) (offset : Nat) : List SourceRead → Prop
  | [] => text.length ≤ offset
  | read :: rest => ∃ data, read.outcome = some data ∧ data.length ≠ 0 ∧
      data.length ≤ streamBufferBytes ∧ data <+: text.drop offset ∧
        ScansOn text (offset + data.length) rest

theorem attempts_calm {staged : StagedReplacement} (count : Nat) :
    Triple (Calm staged shown) (attempts count) (fun _ => Calm staged shown) E H := by
  induction count with
  | zero => exact checkCancelled_calm
  | succ count ih => exact Triple.bind checkCancelled_calm fun _ => ih

theorem nextSource_calm {content data : List UInt8} {read : SourceRead}
    (hOutcome : read.outcome = some data) (hShort : data.length ≤ streamBufferBytes) :
    Triple (CalmReady identity sourceBytes shown content) (nextSource read)
      (fun chunk w => chunk = data ∧
        CalmReady identity (sourceBytes + data.length) shown content w) E H := by
  refine of_calmReady fun staged hFilled hIdentity hSource => ?_
  unfold nextSource
  refine Triple.bind checkCancelled_calm fun _ => ?_
  refine Triple.bind (attempts_calm _) fun _ => ?_
  rw [hOutcome]
  dsimp only
  rw [List.take_of_length_le hShort]
  refine Triple.bind (changeStaged_calm _) fun _ => Triple.pure _ fun w hCalm => ⟨rfl, ?_⟩
  obtain ⟨hStaged, hQuiet⟩ := hCalm
  refine ⟨⟨?_, ?_, ?_, ?_, ?_⟩, ?_, ?_, hQuiet⟩
  · rw [hStaged]
    exact hFilled.size
  · rw [hStaged]
    exact hFilled.content
  · rw [hStaged]
    exact hFilled.isOpen
  · rw [hStaged]
    exact hFilled.consumed
  · rw [hStaged]
    exact hFilled.published
  · rw [hStaged]
    exact hIdentity
  · rw [hStaged, ← hSource]

theorem scan_held (env : EditSurroundings) (sources : List SourceRead)
    (hSupplies : Supplies text 0 env.reads env.kernel) (hMore : request.oldText ≠ [])
    (hScans : ScansOn text seen.length sources) (hText : seen ++ rest = text)
    (hWithin : seen.length ≤ request.maxFileBytes)
    (hE : Outgrown request text → ∀ what w, E (.lengthError what) w) :
    Triple (Held identity seen.length shown request text (fed request seen)
        (madeCalls request seen) writer)
      (scan env request.maxFileBytes sources seen.length (fed request seen) writer)
      (fun after w => (after.1 = fed request text ∧ text.length ≤ request.maxFileBytes) ∧
        Held identity text.length shown request text (fed request text) (madeCalls request text)
          after.2 w) E H := by
  induction sources generalizing seen rest writer with
  | nil =>
    have hEnd : text.length ≤ seen.length := hScans
    have hNone : rest = [] := by
      rw [← List.length_eq_zero_iff]
      rw [← hText, List.length_append] at hEnd
      omega
    rw [hNone, List.append_nil] at hText
    subst hText
    refine bind_value (of_held fun content => nextSource_calm rfl (Nat.zero_le _)) ?_
    exact Triple.pure _ fun w hw => ⟨⟨rfl, hWithin⟩, hw⟩
  | cons read sources ih =>
    obtain ⟨data, hOutcome, hSome, hShort, hPiece, hRest⟩ := hScans
    obtain ⟨rest', hRest'⟩ := hPiece
    have hSplit : seen ++ (data ++ rest') = text := by
      rw [hRest', ← hText, List.drop_left]
    unfold scan
    refine bind_value (of_held fun content => nextSource_calm hOutcome hShort) ?_
    rw [if_neg hSome]
    refine Triple.bind (R := fun t w => t.staged.sourceBytes = seen.length + data.length ∧
      Held identity (seen.length + data.length) shown request text (fed request seen)
        (madeCalls request seen) writer w) (Triple.get fun w hw => ?_) fun t => ?_
    · obtain ⟨content, hReady⟩ := hw.ready
      exact ⟨hReady.2.2.1, hw⟩
    intro w hw
    obtain ⟨hCount, hHeld⟩ := hw
    rw [hCount]
    have hLong : seen.length + data.length ≤ text.length := by
      rw [← hSplit, List.length_append, List.length_append]
      omega
    by_cases hOver : request.maxFileBytes < seen.length + data.length
    · rw [if_pos hOver]
      exact hE (Or.inl (Nat.lt_of_lt_of_le hOver hLong)) _ w
    · rw [if_neg hOver]
      refine Triple.bind (scanBytes_held env data hSupplies hMore hSplit (Nat.le_refl _) hE)
        (fun after => ?_) w hHeld
      intro u hu
      obtain ⟨hMatcher, hHeld'⟩ := hu
      have hLength : (seen ++ data).length = seen.length + data.length := List.length_append
      rw [← hLength] at hRest hHeld' hOver ⊢
      obtain ⟨matcher, after⟩ := after
      have hFed : matcher = fed request (seen ++ data) := hMatcher
      subst hFed
      exact ih hRest (by rw [List.append_assoc]; exact hSplit) (Nat.not_lt.mp hOver) u hHeld'

end Scan

end SimplexAgent.Textedit
