import SimplexAgent.Textedit.StreamEdit
import SimplexAgent.Fileio.StagedReplaceSpec

/-!
# What a streaming edit publishes

Along the scan, the candidate and the buffer of the writer together spell the new text of what
was scanned, but for the prefix, of which only the length is known: its bytes are those the
file had when they were copied. The comparison before the rename then settles the bytes.
-/

namespace SimplexAgent.Textedit

open Verified.Interruptible Fileio

variable {identity : FileIdentity} {sourceBytes : Nat} {content total : List UInt8}
variable (writer : CandidateWriter)

/-! ## The writer -/

/-- The candidate and the buffer spell this. -/
def Holds (identity : FileIdentity) (sourceBytes : Nat) (writer : CandidateWriter)
    (total : List UInt8) (w : Workspace) : Prop :=
  ∃ content, Ready identity sourceBytes [] content w ∧ content ++ writer.buffer = total

theorem of_holds {writer : CandidateWriter} {α : Type} {m : Work α} {Q : α → Workspace → Prop}
    (h : ∀ content, content ++ writer.buffer = total →
      Triple (Ready identity sourceBytes [] content) m Q Unpublished fun _ => False) :
    Triple (Holds identity sourceBytes writer total) m Q Unpublished fun _ => False := by
  refine Triple.of_state fun w hw => ?_
  obtain ⟨content, hReady, hTotal⟩ := hw
  exact (h content hTotal).pre fun t ht => ht ▸ hReady

theorem flush_spec : Triple (Holds identity sourceBytes writer total) writer.flush
      (fun flushed w => flushed = { writer with buffer := [] } ∧
        Ready identity sourceBytes [] total w) Unpublished fun _ => False := by
  refine of_holds fun content hTotal => ?_
  unfold CandidateWriter.flush
  split
  · refine Triple.bind (write_spec writer.buffer) fun _ => ?_
    exact Triple.pure _ fun w hReady => ⟨rfl, hTotal ▸ hReady⟩
  · rename_i hEmpty
    have hBuffer : writer.buffer = [] := List.length_eq_zero_iff.mp (by omega)
    refine Triple.pure _ fun w hReady => ⟨by rw [← hBuffer], ?_⟩
    rw [← hTotal, hBuffer, List.append_nil]
    exact hReady

theorem spill_spec (hEnabled : writer.enabled = true) (bytes : List UInt8) :
    Triple (Holds identity sourceBytes writer total) (writer.spill bytes)
      (fun after w => after.enabled = true ∧
        Holds identity sourceBytes after (total ++ bytes) w) Unpublished fun _ => False := by
  unfold CandidateWriter.spill
  refine Triple.bind (flush_spec writer) fun flushed => ?_
  refine Triple.of_state fun w hw => ?_
  obtain ⟨rfl, hReady⟩ := hw
  refine Triple.pre (P := Ready identity sourceBytes [] total) ?_ fun t ht => ht ▸ hReady
  split
  · refine Triple.bind (write_spec bytes) fun _ => ?_
    exact Triple.pure _ fun t ht => ⟨hEnabled, total ++ bytes, ht, List.append_nil _⟩
  · exact Triple.pure _ fun t ht => ⟨hEnabled, total, ht, rfl⟩

theorem raise_ready {α : Type} {Q : α → Workspace → Prop} {fault : Fault}
    (hFault : fault ≠ .publishedUnsynced) :
    Triple (Ready identity sourceBytes [] content) (Prog.raise fault) Q Unpublished
      fun _ => False :=
  Triple.raise fault fun _ hReady => ⟨hReady.1.published, hFault⟩

theorem append_spec (hEnabled : writer.enabled = true) (bytes : List UInt8) :
    Triple (Holds identity sourceBytes writer total) (writer.append bytes)
      (fun after w => after.enabled = true ∧
        Holds identity sourceBytes after (total ++ bytes) w) Unpublished fun _ => False := by
  unfold CandidateWriter.append
  rw [if_neg (by rw [hEnabled]; decide)]
  split
  · exact of_holds fun _ _ => raise_ready (by simp)
  split
  · refine Triple.pure _ fun w hw => ?_
    obtain ⟨content, hReady, hTotal⟩ := hw
    refine ⟨hEnabled, content, hReady, ?_⟩
    rw [← hTotal, List.append_assoc]
  · exact spill_spec { writer with written := writer.written + bytes.length } hEnabled bytes

theorem begin_spec (hEnabled : writer.enabled = true) (kernel reads : List SourceReply)
    (prefixBytes : Nat) (replacement : List UInt8) : Triple (Holds identity sourceBytes writer [])
      (writer.begin kernel reads prefixBytes replacement)
      (fun after w => after.enabled = true ∧ ∃ data, data.length = prefixBytes ∧
        Holds identity sourceBytes after (data ++ replacement) w) Unpublished fun _ => False := by
  refine of_holds fun content hTotal => ?_
  obtain ⟨rfl, hBuffer⟩ := List.append_eq_nil_iff.mp hTotal
  unfold CandidateWriter.begin
  rw [if_neg (by rw [hEnabled]; decide)]
  split
  · exact raise_ready (by simp)
  refine Triple.bind (copyPrefix_spec kernel reads prefixBytes) fun _ => ?_
  refine Triple.of_state fun w hw => ?_
  obtain ⟨data, hLength, hReady⟩ := hw
  let started : CandidateWriter := { writer with written := prefixBytes }
  have hAppend : Triple (Holds identity sourceBytes started data) (started.append replacement)
      _ _ _ := append_spec started hEnabled replacement
  refine hAppend.conseq (fun t ht => ?_) ?_ (fun _ _ hError => hError) fun _ hHalted => hHalted
  · rw [ht]
    exact ⟨data, hReady, by rw [hBuffer, List.append_nil]⟩
  · rintro after t ⟨hStill, hHolds⟩
    exact ⟨hStill, data, hLength, hHolds⟩

/-! ## The scan -/

/-- What the candidate and the buffer spell: nothing that matters when the writer is off, nothing
before the first match, and then the new text of what was scanned, with a prefix of the length
of its own. -/
inductive Spelled (request : EditRequest) (scanned : List UInt8) (m : StreamingMatcher) :
    Bool → List UInt8 → Prop where
  | off (total : List UInt8) (hOff : m.ambiguous = true ∨ request.oldText = request.newText) :
      Spelled request scanned m false total
  | searching (hFound : m.found = false) (hUnique : m.ambiguous = false) :
      Spelled request scanned m true []
  | matched (hFound : m.found = true) (hUnique : m.ambiguous = false) (data : List UInt8)
      (hLength : data.length = m.matchByte) :
      Spelled request scanned m true
        (data ++ request.newText ++ scanned.drop (m.matchByte + request.oldText.length))

/-- The state of the scan. -/
def Spool (identity : FileIdentity) (sourceBytes : Nat) (request : EditRequest)
    (scanned : List UInt8) (m : StreamingMatcher) (writer : CandidateWriter) (w : Workspace) :
    Prop :=
  ∃ total, Spelled request scanned m writer.enabled total ∧
    Holds identity sourceBytes writer total w

variable {request : EditRequest} {scanned : List UInt8} {m m' : StreamingMatcher}

theorem of_spool {writer : CandidateWriter} {α : Type} {p : Work α} {Q : α → Workspace → Prop}
    (h : ∀ total, Spelled request scanned m writer.enabled total →
      Triple (Holds identity sourceBytes writer total) p Q Unpublished fun _ => False) :
    Triple (Spool identity sourceBytes request scanned m writer) p Q Unpublished
      fun _ => False := by
  refine Triple.of_state fun w hw => ?_
  obtain ⟨total, hSpelled, hHolds⟩ := hw
  exact (h total hSpelled).pre fun t ht => ht ▸ hHolds

theorem append_off (hOff : writer.enabled = false) (bytes : List UInt8) :
    writer.append bytes = pure writer := by
  rw [CandidateWriter.append, if_pos hOff]

theorem begin_off (hOff : writer.enabled = false) (kernel reads : List SourceReply)
    (prefixBytes : Nat) (replacement : List UInt8) :
    writer.begin kernel reads prefixBytes replacement = pure writer := by
  rw [CandidateWriter.begin, if_pos hOff]

theorem drop_snoc {count : Nat} (h : count ≤ scanned.length) (byte : UInt8) :
    (scanned ++ [byte]).drop count = scanned.drop count ++ [byte] :=
  List.drop_append_of_le_length h

theorem step_spool (kernel reads : List SourceReply) {byte : UInt8} {calls : List WriterCall}
    (hSearched : StreamingMatcher.Searched request.oldText request.newText scanned.length m)
    (h : StreamingMatcher.Stepped request.newText request.oldText.length scanned.length byte m m'
      calls) :
    Triple (Spool identity sourceBytes request scanned m writer)
      (writer.performAll kernel reads calls)
      (fun after => Spool identity sourceBytes request (scanned ++ [byte]) m' after) Unpublished
      fun _ => False := by
  refine of_spool fun total hSpelled => ?_
  generalize hEnabled : writer.enabled = enabled at hSpelled
  cases h with
  | stopped hAmbiguous hSame =>
    subst hSame
    cases hSpelled with
    | off total hOff =>
      refine Triple.pure _ fun w hw => ⟨total, ?_, hw⟩
      rw [hEnabled]
      exact .off total hOff
    | searching hFound hUnique | matched hFound hUnique data hLength =>
      rw [hAmbiguous] at hUnique
      cases hUnique
  | searching hBefore hActive hAfter hUnique' =>
    cases hSpelled with
    | off total hOff =>
      refine Triple.pure _ fun w hw => ⟨total, ?_, hw⟩
      rw [hEnabled]
      exact .off total (Or.inr (hOff.resolve_left (by rw [hActive]; decide)))
    | searching hFound hUnique =>
      refine Triple.pure _ fun w hw => ⟨[], ?_, hw⟩
      rw [hEnabled]
      exact .searching hAfter hUnique'
    | matched hFound hUnique data hLength =>
      rw [hBefore] at hFound
      cases hFound
  | matched hBefore hActive hAfter hUnique' hEnd =>
    refine Triple.bind (R := fun after w =>
      Spool identity sourceBytes request (scanned ++ [byte]) m' after w) ?_ fun after =>
        Triple.pure _ fun w hw => hw
    cases hSpelled with
    | off total hOff =>
      rw [CandidateWriter.perform, begin_off writer hEnabled]
      refine Triple.pure _ fun w hw => ⟨total, ?_, hw⟩
      rw [hEnabled]
      exact .off total (Or.inr (hOff.resolve_left (by rw [hActive]; decide)))
    | searching hFound hUnique =>
      refine (begin_spec writer hEnabled kernel reads m'.matchByte request.newText).conseq
        (fun _ hw => hw) ?_ (fun _ _ hError => hError) fun _ hHalted => hHalted
      intro after w hw
      obtain ⟨hStill, data, hLength, hHolds⟩ := hw
      refine ⟨_, ?_, hHolds⟩
      have hNothing : (scanned ++ [byte]).drop (m'.matchByte + request.oldText.length) = [] := by
        apply List.drop_of_length_le
        rw [List.length_append, List.length_singleton]
        omega
      have hText : Spelled request (scanned ++ [byte]) m' true _ :=
        .matched hAfter hUnique' data hLength
      rw [hNothing, List.append_nil] at hText
      rw [hStill]
      exact hText
    | matched hFound hUnique data hLength =>
      rw [hBefore] at hFound
      cases hFound
  | suffix hBefore hActive hAfter hUnique' hStart =>
    refine Triple.bind (R := fun after w =>
      Spool identity sourceBytes request (scanned ++ [byte]) m' after w) ?_ fun after =>
        Triple.pure _ fun w hw => hw
    cases hSpelled with
    | off total hOff =>
      rw [CandidateWriter.perform, append_off writer hEnabled]
      refine Triple.pure _ fun w hw => ⟨total, ?_, hw⟩
      rw [hEnabled]
      exact .off total (Or.inr (hOff.resolve_left (by rw [hActive]; decide)))
    | searching hFound hUnique =>
      rw [hBefore] at hFound
      cases hFound
    | matched hFound hUnique data hLength =>
      refine (append_spec writer hEnabled [byte]).conseq (fun _ hw => hw) ?_
        (fun _ _ hError => hError) fun _ hHalted => hHalted
      intro after w hw
      obtain ⟨hStill, hHolds⟩ := hw
      refine ⟨_, ?_, hHolds⟩
      rw [hStill, List.append_assoc, ← drop_snoc (hSearched.after hFound).1, ← hStart]
      exact .matched hAfter hUnique' data (hLength.trans hStart.symm)
  | again hBefore hActive hAmbiguous =>
    refine Triple.bind (R := fun _ w => ∃ content, Ready identity sourceBytes [] content w) ?_
      fun after => ?_
    · cases hSpelled with
      | off total hOff =>
        rw [CandidateWriter.perform, append_off writer hEnabled]
        refine Triple.pure _ fun w hw => ?_
        obtain ⟨content, hReady, _⟩ := hw
        exact ⟨content, hReady⟩
      | searching hFound hUnique =>
        rw [hBefore] at hFound
        cases hFound
      | matched hFound hUnique data hLength =>
        refine (append_spec writer hEnabled [byte]).conseq (fun _ hw => hw) ?_
          (fun _ _ hError => hError) fun _ hHalted => hHalted
        intro after w hw
        obtain ⟨_, content, hReady, _⟩ := hw
        exact ⟨content, hReady⟩
    · refine Triple.pure _ fun w hw => ?_
      obtain ⟨content, hReady⟩ := hw
      exact ⟨content ++ after.buffer, .off _ (Or.inl hAmbiguous), content, hReady, rfl⟩

theorem scanBytes_spec (env : EditSurroundings) (bytes : List UInt8) {scanned : List UInt8}
    {m : StreamingMatcher} (writer : CandidateWriter)
    (hSearched : StreamingMatcher.Searched request.oldText request.newText scanned.length m) :
    Triple (Spool identity sourceBytes request scanned m writer)
      (scanBytes env bytes scanned.length m writer)
      (fun after w => after.1 = m.feed scanned.length bytes ∧
        Spool identity sourceBytes request (scanned ++ bytes) after.1 after.2 w) Unpublished
      fun _ => False := by
  induction bytes generalizing scanned m writer with
  | nil =>
    refine Triple.pure _ fun w hw => ⟨rfl, ?_⟩
    rw [List.append_nil]
    exact hw
  | cons byte rest ih =>
    obtain ⟨hNext, hStep⟩ := StreamingMatcher.step_spec hSearched byte
    refine Triple.bind (step_spool writer env.kernel env.reads hSearched hStep) fun after => ?_
    have hLength : (scanned ++ [byte]).length = scanned.length + 1 := by
      rw [List.length_append, List.length_singleton]
    rw [← hLength] at hNext ⊢
    refine (ih after hNext).conseq (fun _ hw => hw) ?_ (fun _ _ hError => hError)
      fun _ hHalted => hHalted
    intro result w hw
    obtain ⟨hFed, hSpool⟩ := hw
    refine ⟨?_, ?_⟩
    · rw [hFed, hLength]
      rfl
    · rw [List.append_assoc] at hSpool
      exact hSpool

def scannedBytes : List SourceRead → List UInt8
  | [] => []
  | read :: rest =>
    match read.outcome with
    | none => []
    | some data =>
      if (data.take streamBufferBytes).length = 0 then []
      else data.take streamBufferBytes ++ scannedBytes rest

theorem attempts_spec {staged : StagedReplacement} {observed : List (Nat × List UInt8)}
    (h : staged.published = none) (count : Nat) :
    Plain staged observed (attempts count) fun _ => True := by
  induction count with
  | zero => exact checkCancelled_spec h
  | succ count ih => exact (checkCancelled_spec h).bind fun _ _ => ih

theorem nextSource_spec {observed : List (Nat × List UInt8)} (read : SourceRead) :
    Triple (Ready identity sourceBytes observed content) (nextSource read)
      (fun chunk w => read.outcome.map (·.take streamBufferBytes) = some chunk ∧
        Ready identity (sourceBytes + chunk.length) observed content w) Unpublished
      fun _ => False := by
  refine of_ready fun staged hFilled hIdentity hSource => ?_
  refine (checkCancelled_spec hFilled.published).bind fun _ _ => ?_
  refine (attempts_spec hFilled.published _).bind fun _ _ => ?_
  cases hOutcome : read.outcome with
  | none => exact raise_spec hFilled.published (by simp)
  | some data =>
    refine Triple.bind (changeStaged_spec _) fun _ => ?_
    refine Triple.pure _ fun w hw => ⟨rfl, ?_⟩
    obtain ⟨hSize, hContent, hOpen, hConsumed, hPublished⟩ := hFilled
    refine ⟨?_, ?_, ?_, hw.2⟩
    · rw [hw.1]
      exact ⟨hSize, hContent, hOpen, hConsumed, hPublished⟩
    · rw [hw.1]
      exact hIdentity
    · rw [hw.1, ← hSource]

theorem nextSource_spool (read : SourceRead) :
    Triple (Spool identity sourceBytes request scanned m writer) (nextSource read)
      (fun chunk w => read.outcome.map (·.take streamBufferBytes) = some chunk ∧
        Spool identity (sourceBytes + chunk.length) request scanned m writer w) Unpublished
      fun _ => False := by
  refine of_spool fun total hSpelled => of_holds fun content hTotal => ?_
  refine (nextSource_spec read).conseq (fun _ hw => hw) ?_ (fun _ _ hError => hError)
    fun _ hHalted => hHalted
  intro chunk w hw
  exact ⟨hw.1, total, hSpelled, content, hw.2, hTotal⟩

theorem scan_spec (env : EditSurroundings) (maxFileBytes : Nat) (sources : List SourceRead)
    {scanned : List UInt8} {m : StreamingMatcher} (writer : CandidateWriter)
    (hSearched : StreamingMatcher.Searched request.oldText request.newText scanned.length m) :
    Triple (Spool identity scanned.length request scanned m writer)
      (scan env maxFileBytes sources scanned.length m writer)
      (fun after w => after.1 = m.feed scanned.length (scannedBytes sources) ∧
        Spool identity (scanned ++ scannedBytes sources).length request
          (scanned ++ scannedBytes sources) after.1 after.2 w) Unpublished fun _ => False := by
  induction sources generalizing scanned m writer with
  | nil =>
    refine Triple.bind (nextSource_spool writer _) fun chunk => ?_
    refine Triple.pure _ fun w hw => ⟨rfl, ?_⟩
    obtain ⟨hChunk, hSpool⟩ := hw
    cases hChunk
    rw [scannedBytes, List.append_nil]
    exact hSpool
  | cons read rest ih =>
    refine Triple.bind (nextSource_spool writer _) fun chunk => ?_
    refine Triple.of_state fun w hw => ?_
    obtain ⟨hChunk, hSpool⟩ := hw
    have hRest : scannedBytes (read :: rest) =
        if chunk.length = 0 then [] else chunk ++ scannedBytes rest := by
      rw [scannedBytes]
      cases hOutcome : read.outcome with
      | none => rw [hOutcome] at hChunk; cases hChunk
      | some data => rw [hOutcome] at hChunk; cases hChunk; rfl
    rw [hRest]
    split
    · rename_i hEnd
      refine Triple.pure _ fun t ht => ⟨rfl, ?_⟩
      rw [hEnd] at hSpool
      rw [List.append_nil, ht]
      exact hSpool
    refine Triple.bind (R := fun _ t => t = w) (Triple.get fun t ht => ht) fun t => ?_
    refine Triple.pre (P := Spool identity (scanned ++ chunk).length request scanned m writer) ?_
      fun t ht => by rw [ht, List.length_append]; exact hSpool
    split
    · exact of_spool fun _ _ => of_holds fun _ _ => raise_ready (by simp)
    refine Triple.bind (scanBytes_spec env chunk writer hSearched) fun after => ?_
    refine Triple.of_state fun u hu => ?_
    obtain ⟨hFed, hSpool'⟩ := hu
    have hNext := StreamingMatcher.feed_spec hSearched chunk
    rw [← hFed, ← List.length_append] at hNext
    refine Triple.pre (P := Spool identity (scanned ++ chunk).length request (scanned ++ chunk)
      after.1 after.2) ?_ fun v hv => by rw [hv]; exact hSpool'
    rw [← List.length_append]
    refine (ih after.2 hNext).conseq (fun _ hv => hv) ?_ (fun _ _ hError => hError)
      fun _ hHalted => hHalted
    intro result v hv
    obtain ⟨hFed', hDone⟩ := hv
    refine ⟨?_, ?_⟩
    · rw [hFed', hFed, List.length_append, StreamingMatcher.feed_append]
    · rw [List.append_assoc] at hDone
      exact hDone

/-! ## The publication -/

def matchOffset (env : EditSurroundings) (request : EditRequest) : Nat :=
  ((startMatcher request).feed 0 (scannedBytes env.scanned)).matchByte

/-- These bytes are what a file had when it was compared, with the span replaced; the file is as
long as what was scanned and has the span at its offset; and the observer was given the rest of
it, in order. -/
structure Replaced (env : EditSurroundings) (request : EditRequest) (bytes : List UInt8)
    (observed : List (Nat × List UInt8)) (file : OpenedFile) : Prop where
  opened : env.publication.reopened = some file
  length : file.content.length = (scannedBytes env.scanned).length
  span : (file.content.drop (matchOffset env request)).take request.oldText.length = request.oldText
  bytes : bytes = file.content.take (matchOffset env request) ++ (request.newText ++
    file.content.drop (matchOffset env request + request.oldText.length))
  seen : ∃ before after, observed = before ++ after ∧
    Pieces 0 (file.content.take (matchOffset env request)) before ∧
    Pieces (matchOffset env request + request.oldText.length)
      (file.content.drop (matchOffset env request + request.oldText.length)) after

/-- The destination has the new text. -/
def Settled (env : EditSurroundings) (request : EditRequest) (w : Workspace) : Prop :=
  ∃ bytes file, w.staged.published = some bytes ∧ Replaced env request bytes w.observed file

theorem region_eq {data new suffix : List UInt8} {start length size : Nat}
    (hData : data.length = start) (hSuffix : suffix.length = size - (start + length))
    (hFits : start + length ≤ size) : ((data ++ new ++ suffix).drop start).take
      ((data ++ new ++ suffix).length - (size - length)) = new := by
  have hLength : (data ++ new ++ suffix).length - (size - length) = new.length := by
    simp only [List.length_append]
    omega
  rw [hLength, List.append_assoc, ← hData, List.drop_left, List.take_left]

theorem settled_of_published {env : EditSurroundings} {w : Workspace} {data : List UInt8}
    (hMatch : m.matchByte = matchOffset env request) (hData : data.length = m.matchByte)
    (hEnd : m.matchByte + request.oldText.length ≤ (scannedBytes env.scanned).length)
    (h : Published env.publication (scannedBytes env.scanned).length m.matchByte request.oldText
      (data ++ request.newText ++
        (scannedBytes env.scanned).drop (m.matchByte + request.oldText.length)) w) :
    Settled env request w := by
  obtain ⟨hPublished, _, file, hFile, hCompared⟩ := h
  have hRegion := hCompared.candidate
  rw [region_eq hData List.length_drop hEnd] at hRegion
  refine ⟨_, file, hPublished, ?_⟩
  rw [hRegion]
  rw [hMatch] at hCompared ⊢
  exact ⟨hFile, hCompared.length, hCompared.span, rfl, hCompared.seen⟩

theorem publishChanged_spec (env : EditSurroundings)
    (hSearched : StreamingMatcher.Searched request.oldText request.newText
      (scannedBytes env.scanned).length m)
    (hFound : m.found = true) (hUnique : m.ambiguous = false)
    (hMatch : m.matchByte = matchOffset env request) (hChange : request.oldText ≠ request.newText) :
    Triple (Spool identity (scannedBytes env.scanned).length request (scannedBytes env.scanned) m
        writer)
      (publishChanged env m writer)
      (fun status w => ((status = .modified ∨ status = .publishedSyncFailed) ∧
          Settled env request w) ∨ (status = .conflict ∧ w.staged.published = none))
      Unpublished fun _ => False := by
  refine of_spool fun total hSpelled => ?_
  obtain ⟨hEnd, hSpan⟩ := hSearched.after hFound
  generalize hEnabled : writer.enabled = enabled at hSpelled
  cases hSpelled with
  | off total hOff =>
    cases hOff with
    | inl hAmbiguous => rw [hUnique] at hAmbiguous; cases hAmbiguous
    | inr hSame => exact absurd hSame hChange
  | searching hNotFound _ => rw [hFound] at hNotFound; cases hNotFound
  | matched _ _ data hData =>
    unfold publishChanged
    rw [hSpan]
    refine Triple.handle (F := fun fault w => (fault = .publishedUnsynced ∧
      Settled env request w) ∨ Unpublished fault w) ?_ fun fault => ?_
    · refine Triple.bind (unpublished_conseq (flush_spec writer)) fun flushed => ?_
      refine Triple.bind (R := fun _ w => Settled env request w) ?_ fun _ =>
        Triple.pure _ fun w hw => Or.inl ⟨Or.inl rfl, hw⟩
      refine (publish_spec env.publication m.matchByte request.oldText).conseq
        (fun w hw => hw.2) (fun _ w hw => settled_of_published hMatch hData hEnd hw) ?_
        fun _ hHalted => hHalted
      intro fault w hw
      cases hw with
      | inl hPublished =>
        exact Or.inl ⟨hPublished.1, settled_of_published hMatch hData hEnd hPublished.2⟩
      | inr hUnpublished => exact Or.inr hUnpublished
    · cases fault with
      | conflict reason =>
        refine Triple.pure _ fun w hw => Or.inr ⟨rfl, ?_⟩
        cases hw with
        | inl hPublished => cases hPublished.1
        | inr hUnpublished => exact hUnpublished.1
      | publishedUnsynced =>
        refine Triple.pure _ fun w hw => Or.inl ⟨Or.inr rfl, ?_⟩
        cases hw with
        | inl hPublished => exact hPublished.2
        | inr hUnpublished => exact absurd rfl hUnpublished.2
      | _ =>
        refine Triple.raise _ fun w hw => ?_
        cases hw with
        | inl hPublished => cases hPublished.1
        | inr hUnpublished => exact hUnpublished

/-! ## The edit -/

variable {α : Type} {capture : List (Nat × List UInt8) → Except Fault α}

def Untouched (w : Workspace) : Prop := w.staged.published = none

def Returned (env : EditSurroundings) (request : EditRequest) (result : EditResult α)
    (w : Workspace) : Prop :=
  (Settled env request w ∧ (result.status = .modified ∨ result.status = .publishedSyncFailed) ∧
      result.matchByte = matchOffset env request) ∨
    (Untouched w ∧ result.status ≠ .modified ∧ result.status ≠ .publishedSyncFailed)

/-- What is true of one that fails: it has not published, or it could not make the previews. -/
def Failed (env : EditSurroundings) (request : EditRequest)
    (capture : List (Nat × List UInt8) → Except Fault α) (fault : Fault) (w : Workspace) : Prop :=
  (Settled env request w ∧ capture w.observed = .error fault) ∨ Untouched w

/-- A call that leaves everything alone, wherever the operation is before the rename. -/
theorem untouched_plain {β : Type} {p : Work β} {Q : β → Prop}
    (h : ∀ staged observed, staged.published = none → Plain staged observed p Q) :
    Triple Untouched p (fun _ => Untouched) (fun _ => Untouched) fun _ => False := by
  refine Triple.of_state fun w hw => ?_
  refine (h w.staged w.observed hw).conseq (fun t ht => by rw [ht]; exact ⟨rfl, rfl⟩) ?_
    (fun _ _ hError => hError.1) fun _ hHalted => hHalted
  intro _ t ht
  show t.staged.published = none
  rw [ht.2.1]
  exact hw

theorem untouched_changeStaged {f : StagedReplacement → StagedReplacement}
    (h : ∀ staged, (f staged).published = staged.published) {E : Fault → Workspace → Prop} :
    Triple Untouched (changeStaged f) (fun _ => Untouched) E fun _ => False :=
  Triple.modify _ fun w hw => (h w.staged).trans hw

theorem untouched_nextSource (read : SourceRead) :
    Triple Untouched (nextSource read) (fun _ => Untouched) (fun _ => Untouched)
      fun _ => False := by
  refine Triple.bind (untouched_plain fun _ _ => checkCancelled_spec) fun _ => ?_
  refine Triple.bind (untouched_plain fun _ _ h => attempts_spec h _) fun _ => ?_
  cases read.outcome with
  | none => exact Triple.raise _ fun w hw => hw
  | some data =>
    refine Triple.bind (untouched_changeStaged (by intro _; rfl)) fun _ => ?_
    exact Triple.pure _ fun w hw => hw

theorem untouched_observe (offset : Nat) (bytes : List UInt8) :
    Triple Untouched (observe offset bytes) (fun _ => Untouched) (fun _ => Untouched)
      fun _ => False := by
  apply Triple.call
  · intro w a hw _
    dsimp only
    split <;> exact hw
  · intro w fault hw _
    dsimp only
    split <;> exact hw

theorem untouched_scanAgain (sources : List SourceRead) :
    Triple Untouched (scanAgain sources) (fun _ => Untouched) (fun _ => Untouched)
      fun _ => False := by
  induction sources with
  | nil => exact Triple.bind (untouched_nextSource _) fun _ => Triple.pure _ fun w hw => hw
  | cons read rest ih =>
    refine Triple.bind (untouched_nextSource read) fun chunk => ?_
    split
    · exact Triple.pure _ fun w hw => hw
    refine Triple.bind (R := fun _ => Untouched) (Triple.get fun w hw => hw) fun t => ?_
    exact Triple.bind (untouched_observe _ _) fun _ => ih

theorem withPreviews_spec {P : Workspace → Prop} (result : EditResult α) :
    Triple P (withPreviews capture result)
      (fun done w => P w ∧ done.status = result.status ∧ done.matchByte = result.matchByte)
      (fun fault w => P w ∧ capture w.observed = .error fault) fun _ => False := by
  refine Triple.bind (R := fun t w => t = w ∧ P w) (Triple.get fun w hw => ⟨rfl, hw⟩) fun t => ?_
  refine Triple.bind (R := fun _ => P) ?_ fun previews =>
    Triple.pure _ fun w hw => ⟨hw, rfl, rfl⟩
  refine Triple.check (fun _ _ w hw => hw.2) fun fault hFault w hw => ⟨hw.2, ?_⟩
  rw [← hw.1]
  exact hFault

theorem finishChanged_spec (env : EditSurroundings) (result : EditResult α)
    (hSearched : StreamingMatcher.Searched request.oldText request.newText
      (scannedBytes env.scanned).length m)
    (hFound : m.found = true) (hUnique : m.ambiguous = false)
    (hMatch : m.matchByte = matchOffset env request) (hChange : request.oldText ≠ request.newText)
    (hResult : result.matchByte = matchOffset env request) :
    Triple (Spool identity (scannedBytes env.scanned).length request (scannedBytes env.scanned) m
        writer)
      (finishChanged env capture m writer result) (Returned env request)
      (Failed env request capture) fun _ => False := by
  refine Triple.bind ((publishChanged_spec writer env hSearched hFound hUnique hMatch
    hChange).conseq (fun _ hw => hw) (fun _ _ hw => hw) (fun _ _ hError => Or.inr hError.1)
    fun _ hHalted => hHalted) fun status => ?_
  split
  · rename_i hConflict
    refine Triple.pure _ fun w hw => Or.inr ⟨?_, by simp, by simp⟩
    cases hw with
    | inl hPublished =>
      rw [hConflict] at hPublished
      simp at hPublished
    | inr hUnpublished => exact hUnpublished.2
  · rename_i hOther
    refine ((withPreviews_spec _).pre (P := fun w => (status = .modified ∨
      status = .publishedSyncFailed) ∧ Settled env request w) fun w hw =>
        hw.resolve_right fun hConflict => hOther hConflict.1).conseq (fun _ hw => hw) ?_ ?_
      fun _ hHalted => hHalted
    · intro done w hw
      exact Or.inl ⟨hw.1.2, hw.2.1 ▸ hw.1.1, hw.2.2.trans hResult⟩
    · intro fault w hw
      exact Or.inl ⟨hw.1.2, hw.2⟩

theorem finishUnchanged_spec (env : EditSurroundings) (result : EditResult α) :
    Triple Untouched (finishUnchanged env capture result) (Returned env request)
      (Failed env request capture) fun _ => False := by
  have hPlain : Triple Untouched (finishUnchanged env capture result)
      (fun done w => Untouched w ∧ (done.status = .conflict ∨ done.status = .unchanged))
      (fun _ => Untouched) fun _ => False := by
    refine Triple.bind (Triple.bind (untouched_plain fun _ _ h => systemCall_spec h _) fun _ =>
      untouched_changeStaged (by intro _; rfl)) fun _ => ?_
    refine Triple.bind (untouched_scanAgain _) fun _ => ?_
    refine Triple.bind (R := fun _ => Untouched) (Triple.get fun w hw => hw) fun t => ?_
    split
    · exact Triple.pure _ fun w hw => ⟨hw, Or.inl rfl⟩
    · refine Triple.bind ((withPreviews_spec (P := Untouched) _).conseq (fun _ hw => hw)
        (fun _ _ hw => hw) (fun _ _ hw => hw.1) fun _ hHalted => hHalted) fun done => ?_
      refine Triple.of_state fun w hw => ?_
      refine Triple.bind (R := fun _ => Untouched) ?_ fun _ =>
        Triple.pure _ fun t ht => ⟨ht, Or.inr hw.2.1⟩
      exact (untouched_changeStaged (by intro _; rfl)).pre fun t ht => ht ▸ hw.1
  refine hPlain.conseq (fun _ hw => hw) ?_ (fun _ _ hError => Or.inr hError) fun _ hHalted =>
    hHalted
  intro done w hw
  refine Or.inr ⟨hw.1, ?_, ?_⟩
  · cases hw.2 with
    | inl hConflict => rw [hConflict]; decide
    | inr hSame => rw [hSame]; decide
  · cases hw.2 with
    | inl hConflict => rw [hConflict]; decide
    | inr hSame => rw [hSame]; decide

theorem Spool.untouched {writer : CandidateWriter} {w : Workspace}
    (h : Spool identity sourceBytes request scanned m writer w) : Untouched w := by
  obtain ⟨_, _, _, hReady, _⟩ := h
  exact hReady.1.published

theorem finishFound_spec (env : EditSurroundings) (count : Nat)
    (hSearched : StreamingMatcher.Searched request.oldText request.newText
      (scannedBytes env.scanned).length m)
    (hFound : m.found = true) (hUnique : m.ambiguous = false)
    (hMatch : m.matchByte = matchOffset env request) :
    Triple (Spool identity (scannedBytes env.scanned).length request (scannedBytes env.scanned) m
        writer)
      (finishFound env request capture m writer count) (Returned env request)
      (Failed env request capture) fun _ => False := by
  unfold finishFound
  split
  · exact Triple.raise _ fun w hw => Or.inr hw.untouched
  split
  · exact Triple.raise _ fun w hw => Or.inr hw.untouched
  split
  · exact Triple.raise _ fun w hw => Or.inr hw.untouched
  split
  · exact finishChanged_spec writer env _ hSearched hFound hUnique hMatch ‹_› hMatch
  · exact (finishUnchanged_spec env _).pre fun w hw => hw.untouched

theorem discard_spec {P : Workspace → Prop}
    (hP : ∀ w : Workspace, P w → P { w with
      staged := { w.staged with candidate := false, temporary := none } })
    {E : Fault → Workspace → Prop} :
    Triple P discard (fun _ w => w.staged.temporary = none ∧ P w) E fun _ => False :=
  Triple.modify _ fun w hw => ⟨rfl, hP w hw⟩

theorem discarded_spec (env : EditSurroundings) (result : EditResult α)
    (h : result.status ≠ .modified ∧ result.status ≠ .publishedSyncFailed) :
    Triple Untouched (discard >>= fun _ => pure result) (Returned env request)
      (Failed env request capture) fun _ => False :=
  Triple.bind (discard_spec fun _ hw => hw) fun _ =>
    Triple.pure _ fun _ hw => Or.inr ⟨hw.2, h⟩

theorem editOpened_spec (env : EditSurroundings) (hOld : request.oldText.length ≠ 0) :
    Triple (Spool identity 0 request [] (startMatcher request) (startWriter request))
      (editOpened env request capture) (Returned env request) (Failed env request capture)
      fun _ => False := by
  have hStart : StreamingMatcher.Searched request.oldText request.newText ([] : List UInt8).length
      (startMatcher request) := StreamingMatcher.searched_new hOld
  unfold editOpened
  refine Triple.bind ((scan_spec env request.maxFileBytes env.scanned (startWriter request)
    hStart).conseq (fun _ hw => hw) (fun _ _ hw => hw) (fun _ _ hError => Or.inr hError.1)
    fun _ hHalted => hHalted) fun after => ?_
  refine Triple.of_state fun w hw => ?_
  obtain ⟨hFed, hSpool⟩ := hw
  have hSearched := StreamingMatcher.feed_spec hStart (scannedBytes env.scanned)
  rw [List.length_nil, Nat.zero_add] at hSearched
  rw [List.length_nil] at hFed
  have hMatch : after.1.matchByte = matchOffset env request := by rw [hFed]; rfl
  rw [← hFed] at hSearched
  rw [List.nil_append] at hSpool
  refine Triple.pre (P := Spool identity (scannedBytes env.scanned).length request
    (scannedBytes env.scanned) after.1 after.2) ?_ fun t ht => ht ▸ hSpool
  refine Triple.bind (R := fun _ w => Spool identity (scannedBytes env.scanned).length request
    (scannedBytes env.scanned) after.1 after.2 w) (Triple.get fun t ht => ht) fun t => ?_
  split
  · exact (discarded_spec env _ (by simp)).pre fun u hu => hu.untouched
  split
  · exact (discarded_spec env _ (by simp [scanResult])).pre fun u hu => hu.untouched
  rename_i hUnique hFound
  exact finishFound_spec after.2 env _ hSearched (by simpa using hFound) (by simpa using hUnique)
    hMatch

theorem withReplacement_spec {P : Workspace → Prop} (env : EditSurroundings)
    {body : Work (EditResult α)}
    (h : Triple P body (Returned env request) (Failed env request capture) fun _ => False) :
    Triple P (withReplacement body)
      (fun result w => w.staged.temporary = none ∧ Returned env request result w)
      (fun fault w => w.staged.temporary = none ∧ Failed env request capture fault w)
      fun _ => False := by
  refine Triple.bind (R := Returned env request) (Triple.handle h fun fault => ?_) fun result => ?_
  · refine Triple.bind (discard_spec fun w hw => hw) fun _ => ?_
    exact Triple.raise _ fun w hw => hw
  · refine Triple.bind (discard_spec fun w hw => hw) fun _ => ?_
    exact Triple.pure _ fun w hw => hw

/-- The object before the edit. -/
def Fresh (stops : List Bool) (replies : List Reply) (env : EditSurroundings) (w : Workspace) :
    Prop :=
  At (Workspace.start stops replies env).staged [] w

variable {stops : List Bool} {replies : List Reply}

theorem Fresh.spool {env : EditSurroundings} {w : Workspace} (h : Fresh stops replies env w) :
    Spool env.opened 0 request [] (startMatcher request) (startWriter request) w := by
  have hReady : Ready env.opened 0 [] [] w := by
    refine ⟨?_, ?_, ?_, h.2⟩
    · rw [h.1]
      exact ⟨rfl, rfl, rfl, rfl, rfl⟩
    · rw [h.1]
      rfl
    · rw [h.1]
      rfl
  refine ⟨[], ?_, [], hReady, rfl⟩
  unfold startWriter
  by_cases hSame : request.oldText = request.newText
  · simp only [hSame, ne_eq, not_true_eq_false, decide_false]
    exact .off [] (Or.inr hSame)
  · simp only [hSame, ne_eq, not_false_eq_true, decide_true]
    exact .searching rfl rfl

theorem checkCancelled_fresh (env : EditSurroundings) :
    Triple (Fresh stops replies env) checkCancelled (fun _ => Fresh stops replies env)
      (fun _ => Fresh stops replies env) fun _ => False := by
  apply Triple.call
  · intro w a hw _
    split <;> exact hw
  · intro w fault hw _
    split <;> exact hw

theorem systemCall_fresh (env : EditSurroundings) (operation : String) :
    Triple (Fresh stops replies env) (systemCall operation) (fun _ => Fresh stops replies env)
      (fun _ => Fresh stops replies env) fun _ => False := by
  apply Triple.call
  · intro w a hw _
    split <;> exact hw
  · intro w fault hw _
    split <;> exact hw

theorem openReplacement_spec (env : EditSurroundings) (opened : FileIdentity) :
    Triple (Fresh stops replies env) (openReplacement opened) (fun _ => Fresh stops replies env)
      (fun _ => Fresh stops replies env) fun _ => False := by
  refine Triple.bind (checkCancelled_fresh env) fun _ => ?_
  refine Triple.bind (systemCall_fresh env _) fun _ => ?_
  refine Triple.bind (Triple.bind (systemCall_fresh env _) fun _ => ?_) fun _ =>
    systemCall_fresh env _
  split
  · exact Triple.raise _ fun w hw => hw
  · exact Triple.pure _ fun w hw => hw

theorem strReplaceFile_spec (env : EditSurroundings) :
    Triple (Fresh stops replies env) (strReplaceFile env request capture)
      (fun result w => w.staged.temporary = none ∧ Returned env request result w)
      (fun fault w => w.staged.temporary = none ∧ Failed env request capture fault w)
      fun _ => False := by
  have hFailed : ∀ (fault : Fault) (w : Workspace), Fresh stops replies env w →
      w.staged.temporary = none ∧ Failed env request capture fault w := by
    intro fault w hw
    have hUntouched : Untouched w := by
      unfold Untouched
      rw [hw.1]
      rfl
    refine ⟨?_, Or.inr hUntouched⟩
    rw [hw.1]
    rfl
  unfold strReplaceFile
  split
  · exact Triple.raise _ (hFailed _)
  split
  · exact Triple.raise _ (hFailed _)
  split
  · exact Triple.raise _ (hFailed _)
  split
  · exact Triple.raise _ (hFailed _)
  rename_i hOld _ _ _
  refine Triple.bind ((openReplacement_spec env env.opened).conseq (fun _ hw => hw)
    (fun _ _ hw => hw) hFailed fun _ hHalted => hHalted) fun _ => ?_
  exact (withReplacement_spec env (editOpened_spec env hOld)).pre fun w hw => hw.spool

/-- Whatever an edit meets: its candidate is gone in the end; if the destination has a new
content, this is what a file of the scanned length had when it was compared, with the text at
the matched offset replaced, and the observer was given everything else of that file; a result
says whether that happened; and a failure after it is one of the previews. -/
theorem strReplaceFile_publishes (stops : List Bool) (replies : List Reply)
    (env : EditSurroundings) (request : EditRequest)
    (capture : List (Nat × List UInt8) → Except Fault α) :
    let (result, w) :=
      (strReplaceFile env request capture).exec (Workspace.start stops replies env)
    w.staged.temporary = none ∧ (∀ bytes, w.staged.published = some bytes →
        ∃ file, Replaced env request bytes w.observed file) ∧
      match result with
      | .ok result =>
        (w.staged.published.isSome = true ↔
            result.status = .modified ∨ result.status = .publishedSyncFailed) ∧
          (w.staged.published.isSome = true → result.matchByte = matchOffset env request)
      | .error (.failure fault) =>
        w.staged.published.isSome = true → capture w.observed = .error fault
      | .error .halted => False := by
  have hSpec : Triple (Fresh stops replies env) (strReplaceFile env request capture) _ _ _ :=
    strReplaceFile_spec env
  have hRun := hSpec (Workspace.start stops replies env) ⟨rfl, rfl⟩
  cases hExec : (strReplaceFile env request capture).exec (Workspace.start stops replies env) with
  | mk result w =>
    rw [hExec] at hRun
    have hReplaced : Settled env request w → w.staged.published.isSome = true ∧
        ∀ bytes, w.staged.published = some bytes →
          ∃ file, Replaced env request bytes w.observed file := by
      intro hSettled
      obtain ⟨bytes, file, hPublished, hFile⟩ := hSettled
      refine ⟨by rw [hPublished]; rfl, fun other hOther => ⟨file, ?_⟩⟩
      rw [hPublished] at hOther
      cases hOther
      exact hFile
    have hNothing : Untouched w → ¬w.staged.published.isSome = true ∧
        ∀ bytes, w.staged.published = some bytes →
          ∃ file, Replaced env request bytes w.observed file := by
      intro hUntouched
      unfold Untouched at hUntouched
      rw [hUntouched]
      exact ⟨by decide, fun bytes hBytes => by cases hBytes⟩
    cases result with
    | ok result =>
      obtain ⟨hGone, hReturned⟩ := hRun
      cases hReturned with
      | inl hDone =>
        obtain ⟨hSome, hBytes⟩ := hReplaced hDone.1
        exact ⟨hGone, hBytes, ⟨fun _ => hDone.2.1, fun _ => hSome⟩, fun _ => hDone.2.2⟩
      | inr hKept =>
        obtain ⟨hNone, hBytes⟩ := hNothing hKept.1
        refine ⟨hGone, hBytes, ⟨fun hSome => absurd hSome hNone, fun hStatus => ?_⟩,
          fun hSome => absurd hSome hNone⟩
        exact absurd hStatus (not_or.mpr hKept.2)
    | error interrupt =>
      cases interrupt with
      | halted => exact False.elim hRun
      | failure fault =>
        obtain ⟨hGone, hFailed⟩ := hRun
        cases hFailed with
        | inl hDone => exact ⟨hGone, (hReplaced hDone.1).2, fun _ => hDone.2⟩
        | inr hKept =>
          obtain ⟨hNone, hBytes⟩ := hNothing hKept
          exact ⟨hGone, hBytes, fun hSome => absurd hSome hNone⟩

end SimplexAgent.Textedit
