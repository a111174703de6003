import SimplexAgent.Textedit.StreamEditCalm

/-!
# An edit in memory and an edit of a file

`prepare_str_replace` of `textedit/edit.cpp`, the reference of the streaming edit, and how the two
agree on a file that does not change. They find the same and return the same, but not on when they
refuse a request for its size: the streaming edit bounds the replacement alone, before it looks at
the file, and every byte that is written to its candidate, which for an ambiguous text are those up
to the second match.
-/

namespace SimplexAgent.Textedit

open Verified.Interruptible Verified.Borders Fileio

/-! ## The edit in memory -/

/-- `string_view::find`, from an offset on. -/
def find (text pattern : List UInt8) (offset : Nat) : Option Nat :=
  (List.range' offset (text.length + 1 - offset)).find? fun i => pattern.isPrefixOf (text.drop i)

theorem find_eq_some {text pattern : List UInt8} {offset i : Nat} (hMore : pattern ≠ [])
    (hFrom : offset ≤ i) (hOccurs : OccursAt pattern text i)
    (hFirst : ∀ j, offset ≤ j → j < i → ¬OccursAt pattern text j) :
    find text pattern offset = some i := by
  have hInside := hOccurs.inside hMore
  unfold find
  rw [List.find?_range'_eq_some]
  refine ⟨List.isPrefixOf_iff_prefix.mpr hOccurs, ?_, fun j hj hLess => ?_⟩
  · rw [List.mem_range'_1]
    omega
  · rw [Bool.not_eq_true', Bool.eq_false_iff]
    intro hPrefix
    exact hFirst j hj hLess (List.isPrefixOf_iff_prefix.mp hPrefix)

theorem find_eq_none {text pattern : List UInt8} {offset : Nat}
    (hNone : ∀ j, offset ≤ j → ¬OccursAt pattern text j) : find text pattern offset = none := by
  unfold find
  rw [List.find?_range'_eq_none]
  intro j hj _
  rw [Bool.not_eq_true', Bool.eq_false_iff]
  intro hPrefix
  exact hNone j hj (List.isPrefixOf_iff_prefix.mp hPrefix)

/-- `PreparedEdit`. -/
structure PreparedEdit (α : Type) where
  result : EditResult α
  updatedText : List UInt8

variable {α : Type}

def unfoundResult (original : List UInt8) : EditResult α where
  status := .notFound
  matchesAtLeast := 0
  secondMatchByte := none
  matchByte := 0
  beforeBytes := original.length
  afterBytes := original.length
  previews := none
  persistenceError := false

section Prepare

variable (render : List UInt8 → List UInt8 → Nat → α) (original : List UInt8) (request : EditRequest)

/-- A single match. -/
def prepareFound (first : Nat) : Except Fault (PreparedEdit α) :=
  let base := original.length - request.oldText.length
  let updated := original.take first ++ request.newText ++
    original.drop (first + request.oldText.length)
  let changed : Bool := request.oldText ≠ request.newText
  let unfound : EditResult α := unfoundResult original
  if request.maxFileBytes < base ∨ request.maxFileBytes - base < request.newText.length then
    .error (.lengthError "edited text exceeds the configured byte limit")
  else
    .ok {
      result := { unfound with
        status := if changed then .modified else .unchanged
        matchesAtLeast := 1
        matchByte := first
        afterBytes := base + request.newText.length
        previews := some (render original (if changed then updated else original) first) }
      updatedText := if changed then updated else [] }

/-- `prepare_str_replace`. The positions and excerpts are a function of the text, the text after
the edit, and the offset. -/
def prepareStrReplace : Except Fault (PreparedEdit α) :=
  let unfound : EditResult α := unfoundResult original
  if request.oldText.length = 0 then
    .error (.invalidArgument "old_text must not be empty")
  else if maxContextLines < request.contextLines then
    .error (.invalidArgument "context_lines must not exceed 20")
  else if request.maxFileBytes < original.length then
    .error (.lengthError "original text exceeds the configured byte limit")
  else
    match find original request.oldText 0 with
    | none => .ok { result := unfound, updatedText := [] }
    | some first =>
      match find original request.oldText (first + 1) with
      | some second =>
        .ok {
          result := { unfound with
            status := .ambiguous
            matchesAtLeast := 2
            matchByte := first
            secondMatchByte := some second }
          updatedText := [] }
      | none => prepareFound render original request first

end Prepare

/-! ## The reference by what the matcher finds -/

section Reference

variable (render : List UInt8 → List UInt8 → Nat → α) {text : List UInt8} {request : EditRequest}

structure Accepted (request : EditRequest) : Prop where
  oldText : request.oldText ≠ []
  contextLines : request.contextLines ≤ maxContextLines

theorem Accepted.guards (h : Accepted request) :
    ¬request.oldText.length = 0 ∧ ¬maxContextLines < request.contextLines :=
  ⟨fun hEmpty => h.oldText (List.length_eq_zero_iff.mp hEmpty), Nat.not_lt.mpr h.contextLines⟩

theorem prepare_notFound (h : Accepted request) (hFits : text.length ≤ request.maxFileBytes)
    (hFound : (fed request text).found = false) : prepareStrReplace render text request =
      .ok { result := unfoundResult text, updatedText := [] } := by
  obtain ⟨hOld, hContext⟩ := h.guards
  have hReached := reached_all text h.oldText
  have hNone : find text request.oldText 0 = none :=
    find_eq_none fun j _ => (hReached.nothing hFound).1 j
  unfold prepareStrReplace
  rw [if_neg hOld, if_neg hContext, if_neg (Nat.not_lt.mpr hFits), hNone]

theorem prepare_ambiguous (h : Accepted request) (hFits : text.length ≤ request.maxFileBytes)
    (hAmbiguous : (fed request text).ambiguous = true) :
    prepareStrReplace render text request = .ok {
      result := { unfoundResult text with
        status := .ambiguous
        matchesAtLeast := 2
        matchByte := (fed request text).matchByte
        secondMatchByte := some (fed request text).secondMatchByte }
      updatedText := [] } := by
  obtain ⟨hOld, hContext⟩ := h.guards
  have hReached := reached_all text h.oldText
  obtain ⟨hFound, hOrder, hSecond, hBetween⟩ := hReached.second hAmbiguous
  obtain ⟨hOccurs, hFirst⟩ := hReached.first hFound
  have hFind : find text request.oldText 0 = some (fed request text).matchByte :=
    find_eq_some h.oldText (Nat.zero_le _) hOccurs fun j _ hLess => hFirst j hLess
  have hFindNext : find text request.oldText ((fed request text).matchByte + 1) =
      some (fed request text).secondMatchByte :=
    find_eq_some h.oldText hOrder hSecond fun j hAfter hBefore => hBetween j hAfter hBefore
  unfold prepareStrReplace
  rw [if_neg hOld, if_neg hContext, if_neg (Nat.not_lt.mpr hFits), hFind]
  dsimp only
  rw [hFindNext]

/-- What an edit with one match comes to. -/
def foundResult (text : List UInt8) (request : EditRequest) (first : Nat) : EditResult α where
  status := if request.oldText ≠ request.newText then .modified else .unchanged
  matchesAtLeast := 1
  secondMatchByte := none
  matchByte := first
  beforeBytes := text.length
  afterBytes := text.length - request.oldText.length + request.newText.length
  previews := none
  persistenceError := false

def EditResult.bare (result : EditResult α) : EditResult α := { result with previews := none }

theorem prepare_found (h : Accepted request) (hFits : text.length ≤ request.maxFileBytes)
    (hFound : (fed request text).found = true) (hUnique : (fed request text).ambiguous = false) :
    (request.maxFileBytes < text.length - request.oldText.length + request.newText.length ∧
      prepareStrReplace render text request =
        .error (.lengthError "edited text exceeds the configured byte limit")) ∨
    (text.length - request.oldText.length + request.newText.length ≤ request.maxFileBytes ∧
      ∃ plan, prepareStrReplace render text request = .ok plan ∧
        plan.result.bare = foundResult text request (fed request text).matchByte) := by
  obtain ⟨hOld, hContext⟩ := h.guards
  have hReached := reached_all text h.oldText
  obtain ⟨hOccurs, hFirst⟩ := hReached.first hFound
  obtain ⟨hOnly, -⟩ := hReached.only hFound hUnique
  have hFind : find text request.oldText 0 = some (fed request text).matchByte :=
    find_eq_some h.oldText (Nat.zero_le _) hOccurs fun j _ hLess => hFirst j hLess
  have hFindNext : find text request.oldText ((fed request text).matchByte + 1) = none :=
    find_eq_none fun j hAfter => hOnly j hAfter
  unfold prepareStrReplace
  rw [if_neg hOld, if_neg hContext, if_neg (Nat.not_lt.mpr hFits), hFind]
  dsimp only
  rw [hFindNext]
  dsimp only
  unfold prepareFound
  dsimp only
  split
  · rename_i hOver
    exact Or.inl ⟨by omega, rfl⟩
  · rename_i hLe
    refine Or.inr ⟨by omega, _, rfl, ?_⟩
    by_cases hChanged : request.oldText = request.newText
    · simp [EditResult.bare, foundResult, unfoundResult, hChanged]
    · simp [EditResult.bare, foundResult, unfoundResult, hChanged]

end Reference

/-! ## The edit of a file, after the scan -/

section Streamed

variable {file : OpenedFile} {env : EditSurroundings} {request : EditRequest}
variable {capture : List (Nat × List UInt8) → Except Fault α} {shown : List (UInt8 × Nat)}
variable {E : Fault → Workspace → Prop} {H : Workspace → Prop}

theorem withPreviews_calm (result : EditResult α)
    (h : ∀ w, Quiet shown w → ∃ previews, capture w.observed = .ok previews) :
    Triple (Quiet shown) (withPreviews capture result) (fun final _ => final.bare = result.bare)
      E H := by
  refine Triple.bind (R := fun t w => Quiet shown t ∧ Quiet shown w)
    (Triple.get fun w hw => ⟨hw, hw⟩) fun t => ?_
  intro w hw
  obtain ⟨previews, hPreviews⟩ := h t hw.1
  unfold Prog.check
  rw [hPreviews]
  rfl

def Previewable (capture : List (Nat × List UInt8) → Except Fault α) (text old : List UInt8) :
    Prop :=
  ∀ observed start, OccursAt old text start →
    (told observed = spared text start old.length ∨ told observed = text.zipIdx 0) →
      ∃ previews, capture observed = .ok previews

theorem publishChanged_calm {writer : CandidateWriter} {matcher : StreamingMatcher}
    (hEnv : Unchanging file env.publication) (hEditable : Editable file.info)
    {total : List UInt8} {limit : Nat}
    (h : Spliced file matcher.matchByte matcher.span request.newText total) :
    Triple (Holding file.info file.content.length [] limit total writer)
      (publishChanged env matcher writer)
      (fun status w => status = .modified ∧
        Quiet (spared file.content matcher.matchByte matcher.span.length) w) E H := by
  unfold publishChanged
  refine Triple.handle (F := fun _ _ => False) ?_ fun _ w hw => hw.elim
  intro w hw
  obtain ⟨content, hReady, hTotal⟩ := hw.spooled
  have hPublish : Triple (CalmReady file.info file.content.length [] total)
      (publish env.publication matcher.matchByte matcher.span)
      (fun _ => Quiet (spared file.content matcher.matchByte matcher.span.length))
      (fun _ _ => False) H := publish_calm hEnv hEditable h
  refine Triple.bind (flush_calm hTotal) (fun flushed => ?_) w hReady
  exact Triple.bind (hPublish.pre fun u hu => hu.2) fun _ => Triple.pure _ fun u hu => ⟨rfl, hu⟩

theorem finishChanged_calm {writer : CandidateWriter} {matcher : StreamingMatcher}
    (hEnv : Unchanging file env.publication) (hEditable : Editable file.info)
    {total : List UInt8} {limit : Nat} (result : EditResult α)
    (h : Spliced file matcher.matchByte matcher.span request.newText total)
    (hPreviews : Previewable capture file.content matcher.span)
    (hOccurs : OccursAt matcher.span file.content matcher.matchByte) :
    Triple (Holding file.info file.content.length [] limit total writer)
      (finishChanged env capture matcher writer result)
      (fun final _ => final.bare =
        { result with status := .modified, persistenceError := false }.bare) E H := by
  unfold finishChanged
  refine bind_value (publishChanged_calm hEnv hEditable h) ?_
  rw [if_neg (by simp)]
  refine (withPreviews_calm _ fun w hw => ?_).conseq (fun _ hw => hw) (fun _ _ hw => hw)
    (fun _ _ hError => hError) fun _ hHalted => hHalted
  exact hPreviews _ _ hOccurs (Or.inl hw.shown)

/-- What leaves the object alone. -/
theorem ready_of_calm {β : Type} {p : Work β} {Q : β → Prop} {identity : FileIdentity}
    {sourceBytes : Nat} {content : List UInt8} {shown' : List (UInt8 × Nat)}
    (h : ∀ staged, Triple (Calm staged shown) p (fun b w => Q b ∧ Calm staged shown' w) E H) :
    Triple (CalmReady identity sourceBytes shown content) p
      (fun b w => Q b ∧ CalmReady identity sourceBytes shown' content w) E H := by
  refine of_calmReady fun staged hFilled hIdentity hSource => ?_
  refine (h staged).conseq (fun _ hw => hw) (fun b w hw => ⟨hw.1, ?_⟩)
    (fun _ _ hError => hError) fun _ hHalted => hHalted
  obtain ⟨-, hStaged, hQuiet⟩ := hw
  rw [← hStaged] at hFilled hIdentity hSource
  exact ⟨hFilled, hIdentity, hSource, hQuiet⟩

theorem restartSource_calm {identity : FileIdentity} {sourceBytes : Nat} {content : List UInt8} :
    Triple (CalmReady identity sourceBytes shown content) restartSource
      (fun _ => CalmReady identity 0 shown content) E H := by
  refine of_calmReady fun staged hFilled hIdentity _ => ?_
  refine Triple.bind (systemCall_calm _) fun _ => ?_
  refine (changeStaged_calm _).conseq (fun _ hw => hw) (fun _ w hw => ?_)
    (fun _ _ hError => hError) fun _ hHalted => hHalted
  obtain ⟨hStaged, hQuiet⟩ := hw
  refine ⟨⟨?_, ?_, ?_, ?_, ?_⟩, ?_, ?_, hQuiet⟩
  · rw [hStaged]
    exact hFilled.size
  · rw [hStaged]
    exact hFilled.content
  · rw [hStaged]
    exact hFilled.isOpen
  · rw [hStaged]
    exact hFilled.consumed
  · rw [hStaged]
    exact hFilled.published
  · rw [hStaged]
    exact hIdentity
  · rw [hStaged]

theorem scanAgain_calm {identity : FileIdentity} {content text : List UInt8}
    (sources : List SourceRead) (offset : Nat) (hScans : ScansOn text offset sources)
    (hInside : offset ≤ text.length) :
    Triple (CalmReady identity offset ((text.take offset).zipIdx 0) content) (scanAgain sources)
      (fun _ => CalmReady identity text.length (text.zipIdx 0) content) E H := by
  induction sources generalizing offset with
  | nil =>
    have hEnd : offset = text.length := Nat.le_antisymm hInside hScans
    refine bind_value (nextSource_calm rfl (Nat.zero_le _)) ?_
    refine Triple.pure _ fun w hw => ?_
    rw [hEnd, List.take_length] at hw
    exact hw
  | cons read sources ih =>
    obtain ⟨data, hOutcome, hSome, hShort, hPiece, hRest⟩ := hScans
    have hLong := hPiece.length_le
    rw [List.length_drop] at hLong
    refine bind_value (nextSource_calm hOutcome hShort) ?_
    rw [if_neg hSome]
    refine Triple.bind (R := fun t w => t.staged.sourceBytes = offset + data.length ∧
      CalmReady identity (offset + data.length) ((text.take offset).zipIdx 0) content w)
      (Triple.get fun w hw => ⟨hw.2.2.1, hw⟩) fun t => ?_
    intro w hw
    obtain ⟨hCount, hReady⟩ := hw
    rw [hCount, Nat.add_sub_cancel]
    have hShown : (text.take offset).zipIdx 0 ++ data.zipIdx offset =
        (text.take (offset + data.length)).zipIdx 0 := by
      rw [← take_append_piece hPiece, List.zipIdx_append, List.length_take,
        Nat.min_eq_left hInside, Nat.zero_add]
    refine Triple.bind (ready_of_calm (Q := fun _ => True) fun staged =>
      (observe_calm offset data).conseq (fun _ hu => hu) (fun _ _ hu => ⟨trivial, hu⟩)
        (fun _ _ hError => hError) fun _ hHalted => hHalted) (fun _ => ?_) w hReady
    rw [hShown]
    exact (ih (offset + data.length) hRest (by omega)).pre fun _ hu => hu.2

theorem finishUnchanged_calm {identity : FileIdentity} {content text old : List UInt8}
    {start : Nat} (result : EditResult α) (hScans : ScansOn text 0 env.scannedAgain)
    (hSize : result.beforeBytes = text.length) (hPreviews : Previewable capture text old)
    (hOccurs : OccursAt old text start) :
    Triple (CalmReady identity text.length [] content) (finishUnchanged env capture result)
      (fun final _ => final.bare = { result with status := .unchanged }.bare) E H := by
  unfold finishUnchanged
  refine Triple.bind restartSource_calm fun _ => ?_
  refine Triple.bind (scanAgain_calm env.scannedAgain 0 hScans (Nat.zero_le _)) fun _ => ?_
  refine Triple.bind (R := fun t w => t.staged.sourceBytes = text.length ∧
    Quiet (text.zipIdx 0) w) (Triple.get fun w hw => ⟨hw.2.2.1, hw.2.2.2⟩) fun t => ?_
  intro w hw
  obtain ⟨hCount, hQuiet⟩ := hw
  rw [hCount, hSize, if_neg (by simp)]
  refine Triple.bind (withPreviews_calm _ fun u hu => ?_) (fun final => ?_) w hQuiet
  · exact hPreviews _ start hOccurs (Or.inr hu.shown)
  · exact Triple.bind (Triple.modify _ fun u hu => hu) fun _ => Triple.pure _ fun _ hu => hu

/-! ## The edit of a file -/

/-- A file that does not change while it is edited, and calls that neither fail nor are
cancelled. -/
structure Undisturbed (file : OpenedFile) (env : EditSurroundings) (stops : List Bool)
    (replies : List Reply) : Prop where
  editable : Editable file.info
  opened : env.opened = file.info
  scanned : ScansOn file.content 0 env.scanned
  copied : Supplies file.content 0 env.reads env.kernel
  scannedAgain : ScansOn file.content 0 env.scannedAgain
  publication : Unchanging file env.publication
  stops : ∀ stop ∈ stops, stop = false
  replies : Reply.failed ∉ replies

/-- What the reference returns, but for the positions and excerpts. -/
def AsPrepared (render : List UInt8 → List UInt8 → Nat → α) (text : List UInt8)
    (request : EditRequest) (result : EditResult α) : Prop :=
  ∃ plan, prepareStrReplace render text request = .ok plan ∧ result.bare = plan.result.bare

variable {render : List UInt8 → List UInt8 → Nat → α} {stops : List Bool} {replies : List Reply}
variable {writer : CandidateWriter}

theorem scanResult_bare (text : List UInt8) (m : StreamingMatcher) (hUnique : m.ambiguous = false)
    (hFound : m.found = true) (request : EditRequest) :
    { (scanResult m text.length : EditResult α) with
      afterBytes := text.length - request.oldText.length + request.newText.length
      status := if request.oldText ≠ request.newText then .modified else .unchanged }.bare =
      foundResult text request m.matchByte := by
  simp [EditResult.bare, scanResult, foundResult, hUnique, hFound]

/-- One match, within the limits. -/
theorem finishFound_calm (h : Undisturbed file env stops replies) (hAccepted : Accepted request)
    (hPreviews : Previewable capture file.content request.oldText)
    (hFound : (fed request file.content).found = true)
    (hUnique : (fed request file.content).ambiguous = false)
    (hFits : file.content.length ≤ request.maxFileBytes) :
    Triple (Held file.info file.content.length [] request file.content (fed request file.content)
        (madeCalls request file.content) writer)
      (finishFound env request capture (fed request file.content) writer file.content.length)
      (fun result _ => AsPrepared render file.content request result) E H := by
  have hReached := reached_all file.content hAccepted.oldText
  obtain ⟨hEnd, hSpan⟩ := hReached.searched.after hFound
  obtain ⟨hOccurs, -⟩ := hReached.first hFound
  intro w hw
  have hSize : file.content.length - request.oldText.length + request.newText.length ≤
      request.maxFileBytes := by
    by_cases hChanged : request.oldText = request.newText
    · rw [← hChanged]
      omega
    · have hHanded := hw.fits hChanged
      have hLength := hReached.handed_length [] hFound hUnique
      rw [List.append_nil] at hLength
      omega
  have hPrepared : ∀ result : EditResult α,
      result.bare = foundResult file.content request (fed request file.content).matchByte →
        AsPrepared render file.content request result := by
    intro result hResult
    rcases prepare_found render hAccepted hFits hFound hUnique with hOver | hPlan
    · omega
    · obtain ⟨-, plan, hPlan, hBare⟩ := hPlan
      exact ⟨plan, hPlan, hResult.trans hBare.symm⟩
  have hScan := @scanResult_bare α file.content _ hUnique hFound request
  unfold finishFound
  rw [hSpan, if_neg (by simp), if_neg (by omega), if_neg (by omega)]
  by_cases hChanged : request.oldText ≠ request.newText
  · rw [if_pos hChanged] at hScan ⊢
    rcases hw.writes with hOff | hOn
    · rcases hOff.2.1 with hAmbiguous | hSame
      · rw [hUnique] at hAmbiguous
        cases hAmbiguous
      · exact absurd hSame hChanged
    · have hTotal : StreamingMatcher.handed file.content (madeCalls request file.content) =
          file.content.take (fed request file.content).matchByte ++ request.newText ++
            file.content.drop ((fed request file.content).matchByte + request.oldText.length) := by
        rw [(hReached.only hFound hUnique).2, StreamingMatcher.handed,
          StreamingMatcher.handed_appendByte]
      have hSpliced : Spliced file (fed request file.content).matchByte
          (fed request file.content).span request.newText
          (StreamingMatcher.handed file.content (madeCalls request file.content)) := by
        rw [hSpan]
        exact ⟨(List.prefix_iff_eq_take.mp hOccurs).symm, hEnd, hTotal⟩
      refine (finishChanged_calm h.publication h.editable _ hSpliced ?_ ?_).conseq
        (fun _ hu => hu) (fun result _ hResult => hPrepared result ?_)
        (fun _ _ hError => hError) (fun _ hHalted => hHalted) w hOn.2.2
      · rw [hSpan]
        exact hPreviews
      · rw [hSpan]
        exact hOccurs
      · rw [← hScan]
        exact hResult
  · rw [if_neg hChanged] at hScan ⊢
    obtain ⟨content, hReady⟩ := hw.ready
    refine (finishUnchanged_calm _ h.scannedAgain rfl hPreviews hOccurs).conseq
      (fun _ hu => hu) (fun result _ hResult => hPrepared result ?_)
      (fun _ _ hError => hError) (fun _ hHalted => hHalted) w hReady
    rw [← hScan]
    exact hResult

theorem editOpened_calm (h : Undisturbed file env stops replies) (hAccepted : Accepted request)
    (hPreviews : Previewable capture file.content request.oldText)
    (hE : Outgrown request file.content → ∀ what w, E (.lengthError what) w) :
    Triple (CalmReady file.info 0 [] []) (editOpened env request capture)
      (fun result _ => ¬Outgrown request file.content ∧
        AsPrepared render file.content request result) E H := by
  have hMore := hAccepted.oldText
  have hStart : ∀ w, CalmReady file.info 0 [] [] w →
      Held file.info ([] : List UInt8).length [] request file.content (fed request [])
        (madeCalls request []) (startWriter request) w := by
    intro w hw
    refine ⟨fun _ => Nat.zero_le _, ?_⟩
    by_cases hChanged : request.oldText = request.newText
    · exact Or.inl ⟨by simp [startWriter, hChanged], Or.inr hChanged, [], hw⟩
    · exact Or.inr ⟨hChanged, rfl, by simp [startWriter, hChanged], rfl, rfl, Nat.zero_le _, [],
        hw, rfl⟩
  have hScans : ScansOn file.content ([] : List UInt8).length env.scanned := h.scanned
  unfold editOpened
  refine Triple.bind ((scan_held env env.scanned h.copied hMore hScans
    (List.nil_append file.content) (Nat.zero_le _) hE).pre hStart) fun after => ?_
  intro w hw
  obtain ⟨⟨hFed, hFits⟩, hHeld⟩ := hw
  obtain ⟨matcher, writer⟩ := after
  have hMatcher : matcher = fed request file.content := hFed
  subst hMatcher
  have hWithin : ¬Outgrown request file.content := by
    rintro (hLong | ⟨hChanged, hOver⟩)
    · omega
    · have hHanded := hHeld.fits hChanged
      omega
  have hReached := reached_all file.content hMore
  refine Triple.bind (R := fun t u => t.staged.sourceBytes = file.content.length ∧
    Held file.info file.content.length [] request file.content (fed request file.content)
      (madeCalls request file.content) writer u) (Triple.get fun u hu => ?_) (fun t => ?_) w hHeld
  · obtain ⟨content, hReady⟩ := hu.ready
    exact ⟨hReady.2.2.1, hu⟩
  intro u hu
  obtain ⟨hCount, hHeld'⟩ := hu
  rw [hCount]
  by_cases hAmbiguous : (fed request file.content).ambiguous = true
  · obtain ⟨hFound, -⟩ := hReached.second hAmbiguous
    rw [if_pos hAmbiguous]
    refine ⟨hWithin, _, prepare_ambiguous render hAccepted hFits hAmbiguous, ?_⟩
    simp [EditResult.bare, scanResult, unfoundResult, hAmbiguous, hFound]
  have hUnique : (fed request file.content).ambiguous = false := by simpa using hAmbiguous
  rw [if_neg hAmbiguous]
  by_cases hFound : (fed request file.content).found = true
  · rw [if_neg (by rw [hFound]; decide)]
    exact (finishFound_calm h hAccepted hPreviews hFound hUnique hFits).conseq (fun _ hx => hx)
      (fun _ _ hx => ⟨hWithin, hx⟩) (fun _ _ hError => hError) (fun _ hHalted => hHalted) u hHeld'
  · have hNotFound : (fed request file.content).found = false := by simpa using hFound
    rw [if_pos hNotFound]
    refine ⟨hWithin, _, prepare_notFound render hAccepted hFits hNotFound, ?_⟩
    simp [EditResult.bare, scanResult, unfoundResult, hNotFound, hReached.start hNotFound]

theorem openReplacement_calm {staged : StagedReplacement} {info : FileIdentity}
    (h : Editable info) :
    Triple (Calm staged shown) (openReplacement info) (fun _ => Calm staged shown) E H := by
  refine Triple.bind checkCancelled_calm fun _ => ?_
  refine Triple.bind (systemCall_calm _) fun _ => ?_
  exact Triple.bind (checkedRegular_calm h) fun _ => systemCall_calm _

theorem withReplacement_calm {P : Workspace → Prop} {body : Work (EditResult α)}
    {Q : EditResult α → Prop} {R : Fault → Prop}
    (h : Triple P body (fun result _ => Q result) (fun fault _ => R fault) H) :
    Triple P (withReplacement body) (fun result _ => Q result) (fun fault _ => R fault) H := by
  refine Triple.bind (Triple.handle h fun fault => ?_) fun result => ?_
  · exact Triple.bind (Triple.modify _ fun w hw => hw) fun _ => Triple.raise _ fun _ hw => hw
  · exact Triple.bind (Triple.modify _ fun w hw => hw) fun _ => Triple.pure _ fun _ hw => hw

/-- The edit returns what the reference does, or a limit is exceeded and it says so. -/
theorem strReplaceFile_calm (render : List UInt8 → List UInt8 → Nat → α)
    (h : Undisturbed file env stops replies)
    (hAccepted : Accepted request) (hMax : request.maxFileBytes ≠ sizeMax)
    (hNew : request.newText.length ≤ request.maxFileBytes)
    (hPreviews : Previewable capture file.content request.oldText) :
    Triple (fun w => w = Workspace.start stops replies env) (strReplaceFile env request capture)
      (fun result _ => ¬Outgrown request file.content ∧
        AsPrepared render file.content request result)
      (fun fault _ => Outgrown request file.content ∧ ∃ what, fault = .lengthError what)
      fun _ => False := by
  obtain ⟨hOld, hContext⟩ := hAccepted.guards
  have hStart : ∀ w, w = Workspace.start stops replies env → CalmReady file.info 0 [] [] w := by
    intro w hw
    subst hw
    exact ⟨⟨rfl, rfl, rfl, rfl, rfl⟩, h.opened, rfl, rfl, h.stops, h.replies⟩
  unfold strReplaceFile
  rw [if_neg hOld, if_neg hContext, if_neg hMax, if_neg (Nat.not_lt.mpr hNew), h.opened]
  refine Triple.bind (R := fun _ => CalmReady file.info 0 [] []) ?_ fun _ => ?_
  · refine (ready_of_calm (Q := fun _ => True) fun staged =>
      (openReplacement_calm h.editable).conseq (fun _ hw => hw) (fun _ _ hw => ⟨trivial, hw⟩)
        (fun _ _ hError => hError) fun _ hHalted => hHalted).conseq hStart (fun _ _ hw => hw.2)
        (fun _ _ hError => hError) fun _ hHalted => hHalted
  · exact withReplacement_calm (editOpened_calm h hAccepted hPreviews
      fun hOver what _ => ⟨hOver, what, rfl⟩)

end Streamed

/-! ## Agreement -/

section Agreement

variable (render : List UInt8 → List UInt8 → Nat → α) {text : List UInt8} {request : EditRequest}

def SizeRefused {β : Type} : Except Fault β → Prop
  | .error (.lengthError _) => True
  | _ => False

/-- The streaming edit alone refuses a request that the reference answers: the replacement is too
long, or the candidate is by the time of the second match. -/
def CandidateOutgrown (request : EditRequest) (result : EditResult α) : Prop :=
  request.maxFileBytes < request.newText.length ∨
    (request.oldText ≠ request.newText ∧ ∃ second, result.secondMatchByte = some second ∧
      request.maxFileBytes < second + request.newText.length)

def StreamRefuses (text : List UInt8) (request : EditRequest) : Prop :=
  SizeRefused (prepareStrReplace render text request) ∨
    ∃ plan, prepareStrReplace render text request = .ok plan ∧ CandidateOutgrown request plan.result

theorem prepare_oversized (h : Accepted request) (hOver : request.maxFileBytes < text.length) :
    prepareStrReplace render text request =
      .error (.lengthError "original text exceeds the configured byte limit") := by
  obtain ⟨hOld, hContext⟩ := h.guards
  unfold prepareStrReplace
  rw [if_neg hOld, if_neg hContext, if_pos hOver]

theorem streamRefuses_of_ok {plan : PreparedEdit α}
    (hPlan : prepareStrReplace render text request = .ok plan) :
    StreamRefuses render text request ↔ CandidateOutgrown request plan.result := by
  unfold StreamRefuses
  rw [hPlan]
  constructor
  · intro h
    rcases h with hRefused | ⟨plan', hSame, hOver⟩
    · exact hRefused.elim
    · cases hSame
      exact hOver
  · intro hOver
    exact Or.inr ⟨plan, rfl, hOver⟩

theorem streamRefuses_of_error {what : String}
    (hError : prepareStrReplace render text request = .error (.lengthError what)) :
    StreamRefuses render text request := by
  unfold StreamRefuses
  rw [hError]
  exact Or.inl trivial

theorem outgrown_iff (text : List UInt8) (h : Accepted request)
    (hNew : request.newText.length ≤ request.maxFileBytes) :
    Outgrown request text ↔ StreamRefuses render text request := by
  by_cases hFits : text.length ≤ request.maxFileBytes
  · have hReached := reached_all text h.oldText
    have hOutgrown : Outgrown request text ↔ (request.oldText ≠ request.newText ∧
        request.maxFileBytes < (StreamingMatcher.handed text (madeCalls request text)).length) :=
      or_iff_right (Nat.not_lt.mpr hFits)
    rw [hOutgrown]
    by_cases hFound : (fed request text).found = true
    · by_cases hAmbiguous : (fed request text).ambiguous = true
      · rw [streamRefuses_of_ok render (prepare_ambiguous render h hFits hAmbiguous),
          hReached.size hAmbiguous, CandidateOutgrown, or_iff_right (Nat.not_lt.mpr hNew)]
        simp
      · have hUnique : (fed request text).ambiguous = false := by simpa using hAmbiguous
        obtain ⟨hEnd, -⟩ := hReached.searched.after hFound
        have hLength := hReached.handed_length [] hFound hUnique
        rw [List.append_nil] at hLength
        rcases prepare_found render h hFits hFound hUnique with ⟨hOver, hError⟩ | ⟨hLe, hOk⟩
        · refine iff_of_true ⟨fun hSame => ?_, by omega⟩ (streamRefuses_of_error render hError)
          rw [← hSame] at hOver
          omega
        · obtain ⟨plan, hPlan, hBare⟩ := hOk
          rw [streamRefuses_of_ok render hPlan]
          refine iff_of_false (fun hOver => by omega) ?_
          rintro (hLong | ⟨-, second, hSecond, -⟩)
          · omega
          · have hNone := congrArg EditResult.secondMatchByte hBare
            have hSome : plan.result.bare.secondMatchByte = some second := hSecond
            rw [hNone] at hSome
            cases hSome
    · have hNotFound : (fed request text).found = false := by simpa using hFound
      rw [streamRefuses_of_ok render (prepare_notFound render h hFits hNotFound),
        (hReached.nothing hNotFound).2]
      refine iff_of_false (fun hOver => Nat.not_lt_zero _ hOver.2) ?_
      rintro (hLong | ⟨-, second, hSecond, -⟩)
      · omega
      · cases hSecond
  · exact iff_of_true (Or.inl (Nat.not_le.mp hFits))
      (streamRefuses_of_error render (prepare_oversized render h (Nat.not_le.mp hFits)))

theorem prepare_error (h : Accepted request) {fault : Fault}
    (hError : prepareStrReplace render text request = .error fault) :
    ∃ what, fault = .lengthError what := by
  obtain ⟨hOld, hContext⟩ := h.guards
  unfold prepareStrReplace at hError
  rw [if_neg hOld, if_neg hContext] at hError
  split at hError
  · cases hError
    exact ⟨_, rfl⟩
  split at hError
  · cases hError
  split at hError
  · cases hError
  · unfold prepareFound at hError
    dsimp only at hError
    split at hError
    · cases hError
      exact ⟨_, rfl⟩
    · cases hError

/-- The outcome of an edit of a file, without what only a run that is cut off would give. -/
def outcome {β : Type} : Except (Interrupt Fault) β → Option (Except Fault β)
  | .ok b => some (.ok b)
  | .error (.failure fault) => some (.error fault)
  | .error .halted => none

/-- The same result but for the positions and excerpts, or the same error. -/
def Agrees : Except Fault (EditResult α) → Except Fault (PreparedEdit α) → Prop
  | .ok result, .ok plan => result.bare = plan.result.bare
  | .error fault, .error fault' => fault = fault'
  | _, _ => False

theorem agrees_of_calm {file : OpenedFile} {env : EditSurroundings} {stops : List Bool}
    {replies : List Reply} {capture : List (Nat × List UInt8) → Except Fault α}
    (h : Undisturbed file env stops replies) (hAccepted : Accepted request)
    (hMax : request.maxFileBytes ≠ sizeMax) (hNew : request.newText.length ≤ request.maxFileBytes)
    (hPreviews : Previewable capture file.content request.oldText) :
    ∃ streamed, outcome ((strReplaceFile env request capture).exec
        (Workspace.start stops replies env)).1 = some streamed ∧
      (SizeRefused streamed ↔ StreamRefuses render file.content request) ∧
      (¬SizeRefused streamed → Agrees streamed (prepareStrReplace render file.content request)) := by
  have hRun := strReplaceFile_calm render h hAccepted hMax hNew hPreviews
    (Workspace.start stops replies env) rfl
  have hOutgrown := outgrown_iff render file.content hAccepted hNew
  cases hExec : (strReplaceFile env request capture).exec (Workspace.start stops replies env) with
  | mk result w =>
    rw [hExec] at hRun
    cases result with
    | ok result =>
      obtain ⟨hWithin, plan, hPlan, hBare⟩ := hRun
      refine ⟨.ok result, rfl, iff_of_false (fun hRefused => hRefused) ?_, fun _ => ?_⟩
      · rw [← hOutgrown]
        exact hWithin
      · rw [hPlan]
        exact hBare
    | error interrupt =>
      cases interrupt with
      | halted => exact hRun.elim
      | failure fault =>
        obtain ⟨hOver, what, hFault⟩ := hRun
        subst hFault
        exact ⟨_, rfl, iff_of_true trivial (hOutgrown.mp hOver), fun hNot => absurd trivial hNot⟩

/--
**An edit of a file against the edit in memory**: on a file that does not change, the streaming
edit refuses a request for its size when the reference does, when the replacement alone is too
long, and when the text is ambiguous and what is written up to the second match is. Otherwise both
return the same.
-/
theorem strReplaceFile_agrees {file : OpenedFile} {env : EditSurroundings} {stops : List Bool}
    {replies : List Reply} (h : Undisturbed file env stops replies)
    (capture : List (Nat × List UInt8) → Except Fault α)
    (hPreviews : Previewable capture file.content request.oldText)
    (hMax : request.maxFileBytes ≠ sizeMax) :
    ∃ streamed, outcome ((strReplaceFile env request capture).exec
        (Workspace.start stops replies env)).1 = some streamed ∧
      (SizeRefused streamed ↔ StreamRefuses render file.content request) ∧
      (¬SizeRefused streamed → Agrees streamed (prepareStrReplace render file.content request)) := by
  have hInvalid : ∀ {what : String},
      strReplaceFile env request capture = Prog.raise (.invalidArgument what) →
      prepareStrReplace render file.content request = .error (.invalidArgument what) →
      ∃ streamed, outcome ((strReplaceFile env request capture).exec
          (Workspace.start stops replies env)).1 = some streamed ∧
        (SizeRefused streamed ↔ StreamRefuses render file.content request) ∧
        (¬SizeRefused streamed →
          Agrees streamed (prepareStrReplace render file.content request)) := by
    intro what hStreamed hPrepared
    refine ⟨.error (.invalidArgument what), by rw [hStreamed]; rfl, ?_, fun _ => ?_⟩
    · refine iff_of_false (fun hRefused => hRefused) ?_
      rintro (hRefused | ⟨plan, hPlan, -⟩)
      · rw [hPrepared] at hRefused
        exact hRefused
      · rw [hPrepared] at hPlan
        cases hPlan
    · rw [hPrepared]
      rfl
  by_cases hOld : request.oldText.length = 0
  · exact hInvalid (by rw [strReplaceFile, if_pos hOld]) (by rw [prepareStrReplace, if_pos hOld])
  by_cases hContext : maxContextLines < request.contextLines
  · exact hInvalid (by rw [strReplaceFile, if_neg hOld, if_pos hContext])
      (by rw [prepareStrReplace, if_neg hOld, if_pos hContext])
  have hAccepted : Accepted request :=
    ⟨fun hEmpty => hOld (by rw [hEmpty]; rfl), Nat.not_lt.mp hContext⟩
  by_cases hNew : request.maxFileBytes < request.newText.length
  · have hStreamed : strReplaceFile env request capture =
        Prog.raise (.lengthError "edited text exceeds the configured byte limit") := by
      rw [strReplaceFile, if_neg hOld, if_neg hContext, if_neg hMax, if_pos hNew]
    refine ⟨.error (.lengthError _), by rw [hStreamed]; rfl, iff_of_true trivial ?_,
      fun hNot => absurd trivial hNot⟩
    cases hPrepared : prepareStrReplace render file.content request with
    | ok plan => exact (streamRefuses_of_ok render hPrepared).mpr (Or.inl hNew)
    | error fault =>
      obtain ⟨what, hWhat⟩ := prepare_error render hAccepted hPrepared
      rw [hWhat] at hPrepared
      exact streamRefuses_of_error render hPrepared
  · exact agrees_of_calm render h hAccepted hMax (Nat.not_lt.mp hNew) hPreviews

end Agreement

def oneByteFile : OpenedFile where
  info := {
    device := 1
    inode := 1
    size := 1
    mode := 33188
    owner := 1000
    group := 1000
    links := 1
    modifiedSeconds := 0
    changedSeconds := 0
    modifiedNanoseconds := 0
    changedNanoseconds := 0 }
  content := [97]
  size_eq := rfl

/-- The file is read in one piece. -/
def oneByteSurroundings : EditSurroundings where
  opened := oneByteFile.info
  scanned := [{ interruptions := 0, outcome := some [97] }]
  kernel := []
  reads := [.bytes [97]]
  scannedAgain := [{ interruptions := 0, outcome := some [97] }]
  publication := {
    created := oneByteFile.info
    source := oneByteFile.info
    reopened := some oneByteFile
    compared := oneByteFile.info
    original := oneByteFile.info
    current := some oneByteFile.info }

theorem undisturbed_oneByte : Undisturbed oneByteFile oneByteSurroundings [] [] where
  editable := ⟨rfl, rfl, rfl⟩
  opened := rfl
  scanned := ⟨[97], rfl, by decide, by decide, by decide, Nat.le_refl 1⟩
  copied := ⟨by decide, by decide, by decide, Nat.le_refl 1⟩
  scannedAgain := ⟨[97], rfl, by decide, by decide, by decide, Nat.le_refl 1⟩
  publication := ⟨rfl, rfl, rfl, rfl, rfl⟩
  stops := by simp
  replies := by simp

def oneByteRequest (oldText newText : List UInt8) : EditRequest where
  oldText := oldText
  newText := newText
  contextLines := 3
  maxFileBytes := 1

/-- `ab ab`. -/
def pairFile : OpenedFile where
  info := { oneByteFile.info with size := 5 }
  content := [97, 98, 32, 97, 98]
  size_eq := rfl

/-- The file comes in pieces, with interruptions. -/
def pairSurroundings : EditSurroundings where
  opened := pairFile.info
  scanned := [⟨1, some [97, 98, 32]⟩, ⟨0, some [97, 98]⟩]
  kernel := [.interrupted, .bytes [97]]
  reads := [.bytes [98, 32, 97], .interrupted, .bytes [98]]
  scannedAgain := [⟨0, some [97]⟩, ⟨2, some [98, 32, 97, 98]⟩]
  publication := {
    created := oneByteFile.info
    source := pairFile.info
    reopened := some pairFile
    compared := pairFile.info
    original := pairFile.info
    current := some pairFile.info }

theorem undisturbed_pair : Undisturbed pairFile pairSurroundings [] [] where
  editable := ⟨rfl, rfl, rfl⟩
  opened := rfl
  scanned := ⟨_, rfl, by decide, by decide, by decide, _, rfl, by decide, by decide, by decide,
    Nat.le_refl 5⟩
  copied := ⟨by decide, by decide, by decide, by decide, by decide, by decide, by decide,
    by decide, Nat.le_refl 5⟩
  scannedAgain := ⟨_, rfl, by decide, by decide, by decide, _, rfl, by decide, by decide, by decide,
    Nat.le_refl 5⟩
  publication := ⟨rfl, rfl, rfl, rfl, rfl⟩
  stops := by simp
  replies := by simp

/-- The second `ab` is met with three bytes for the first one written: the limit is the size of
the file, so the candidate has outgrown it. -/
def pairRequest : EditRequest where
  oldText := [97, 98]
  newText := [99, 99, 99]
  contextLines := 3
  maxFileBytes := 5

theorem strReplaceFile_agrees_pair : ∃ streamed,
    outcome ((strReplaceFile pairSurroundings pairRequest fun _ => .ok ()).exec
      (Workspace.start [] [] pairSurroundings)).1 = some streamed ∧ SizeRefused streamed ∧
    ∃ plan, prepareStrReplace (fun _ _ _ => ()) pairFile.content pairRequest = .ok plan := by
  have hLimit : pairRequest.maxFileBytes ≠ sizeMax := by decide
  obtain ⟨streamed, hRun, hRefused, -⟩ := strReplaceFile_agrees (fun _ _ _ => ())
    undisturbed_pair (fun _ => .ok ()) (fun _ _ _ _ => ⟨(), rfl⟩) hLimit
  have hOutgrown : StreamRefuses (fun _ _ _ => ()) pairFile.content pairRequest :=
    .inr ⟨_, rfl, .inr ⟨by decide, 3, rfl, by decide⟩⟩
  exact ⟨streamed, hRun, hRefused.mpr hOutgrown, _, rfl⟩

/-- A text that does not occur, and a replacement that is too long: only the edit of the file
refuses. -/
theorem strReplaceFile_refuses_notFound : Undisturbed oneByteFile oneByteSurroundings [] [] ∧
      outcome ((strReplaceFile oneByteSurroundings (oneByteRequest [98] [99, 99])
        fun _ => .ok ()).exec (Workspace.start [] [] oneByteSurroundings)).1 =
          some (.error (.lengthError "edited text exceeds the configured byte limit")) ∧
      ∃ plan, prepareStrReplace (fun _ _ _ => ()) oneByteFile.content
        (oneByteRequest [98] [99, 99]) = .ok plan ∧ plan.result.status = .notFound :=
  ⟨undisturbed_oneByte, rfl, _, rfl, rfl⟩

end SimplexAgent.Textedit
