import SimplexAgent.Persistence.ArchiveRead
import SimplexAgent.Textedit.StrReplace

/-!
# Searching archived text

`SqliteArchiveReader::search` of `sqlite_archive_query.cpp`, from the rows that SQLite yields on.
The rows are chunks that were indexed, in any order and number; `highlight()` of SQLite marks a
span of whole characters, whatever the markers are.

Every row retires its source, shown or not, and every chunk that is shown retires its text
(`searchLoop_spec`). A hit can be read on from where it begins (`hit_reads`).
-/

namespace SimplexAgent.Persistence.ArchiveSearch

open Verified Borders ArchiveIndex ArchiveRead
open Utf8 (encode encode_append Aligned)
open Textedit (find find_eq_some)

/-! ## The search -/

def isBlank (byte : UInt8) : Bool := byte = 32 || (9 ≤ byte && byte ≤ 13)

/-- What `validate_text` and the checks on the numbers accept. -/
structure ArchiveSearchRequest where
  text : List Char
  limit : Nat
  snippetBytes : Nat
  nonempty : text ≠ []
  short : (encode text).length ≤ 256
  printed : '\x00' ∉ text ∧ ∃ byte ∈ encode text, isBlank byte = false
  limited : 1 ≤ limit ∧ limit ≤ 100
  snippets : 32 ≤ snippetBytes ∧ snippetBytes ≤ 4096

/-- `search_terms`: what stands between blanks and has three characters. -/
def searchTerms (text : List UInt8) : List (List UInt8) :=
  let cut := Segments.cut isBlank text
  (cut.1 ++ [cut.2]).filter fun term =>
    3 ≤ term.countP fun byte => !Utf8.isContinuation byte

def ArchiveSearchRequest.fts (request : ArchiveSearchRequest) : Bool :=
  !(searchTerms (encode request.text)).isEmpty

/-- `ArchiveInfo`. -/
structure ArchiveInfo where
  archiveId : String
  sequence : Int
  createdAt : String
  outcome : String
  automatic : Bool

def marker (side : String) (candidate : Nat) : List UInt8 :=
  encode ("<simplex-match-" ++ toString candidate ++ side).toList

def opening : Nat → List UInt8 := marker "-open>"

def closing : Nat → List UInt8 := marker "-close>"

/-- The first span that is marked is this one, of whole characters. -/
def Marks (body : List UInt8) (highlight : List UInt8 → List UInt8 → List UInt8)
    (before marked : List Char) : Prop :=
  (∃ after, body = encode (before ++ (marked ++ after))) ∧
    ∀ first last, ∃ rest, highlight first last =
      encode before ++ (first ++ (encode marked ++ (last ++ rest)))

/-- A row that SQLite yields: a chunk with its archive, and what `highlight()` gives for it. -/
structure Row (request : ArchiveSearchRequest) where
  archive : ArchiveInfo
  source : Source
  block : List ChunkRow
  chunk : ChunkRow
  highlight : List UInt8 → List UInt8 → List UInt8
  indexed : Indexed archive.archiveId source block
  inserted : chunk ∈ block
  matching : if request.fts then ∃ before marked, Marks chunk.body highlight before marked
    else encode request.text <:+: chunk.body

/-! ## Markers -/

variable {body pattern : List UInt8}

theorem not_infix_of_find (h : find body pattern 0 = none) : ¬pattern <:+: body := by
  rintro ⟨before, after, hBody⟩
  have hNot := List.find?_eq_none.mp h before.length
  refine hNot (List.mem_range'_1.mpr ⟨Nat.zero_le _, ?_⟩) (List.isPrefixOf_iff_prefix.mpr ?_)
  · rw [← hBody, List.length_append, List.length_append]
    omega
  · rw [← hBody, List.append_assoc, List.drop_left]
    exact List.prefix_append _ _

/-- A marker begins with `<`, which comes nowhere else in it. -/
theorem marker_cons {side : String} (hSide : '<' ∉ side.toList) (candidate : Nat) :
    ∃ tail, marker side candidate = 60 :: tail ∧ 60 ∉ tail ∧
      (toString candidate).toList.length ≤ tail.length := by
  refine ⟨encode ("simplex-match-".toList ++ ((toString candidate).toList ++ side.toList)),
    ?_, ?_, ?_⟩
  · rw [marker, String.toList_append, String.toList_append, List.append_assoc]
    rfl
  · intro hMem
    obtain ⟨c, hChar, hByte⟩ := List.mem_flatMap.mp hMem
    obtain rfl : c = '<' := Dataclass.eq_of_mem_encodeChar hByte (by decide) rfl
    rcases List.mem_append.mp hChar with hName | hLater
    · exact absurd hName (by decide)
    · rcases List.mem_append.mp hLater with hDigit | hEnd
      · rw [show (toString candidate).toList = Nat.toDigits 10 candidate from Nat.toList_repr]
          at hDigit
        exact absurd (Nat.isDigit_of_mem_toDigits (by decide) (by decide) hDigit) (by decide)
      · exact hSide hEnd
  · refine Nat.le_trans ?_ (Utf8.length_le_encode _)
    rw [List.length_append, List.length_append]
    omega

theorem find_marker {tail front mid : List UInt8} (hTail : 60 ∉ tail)
    (hMid : ¬60 :: tail <:+: mid) (rest : List UInt8) :
    find (front ++ (mid ++ (60 :: tail ++ rest))) (60 :: tail) front.length =
      some (front.length + mid.length) := by
  refine find_eq_some (List.cons_ne_nil _ _) (Nat.le_add_right _ _) ?_ ?_
  · rw [OccursAt, ← List.drop_drop, List.drop_left, List.drop_left]
    exact List.prefix_append _ _
  · intro j hFrom hLess hOccurs
    obtain ⟨k, rfl⟩ : ∃ k, j = front.length + k := ⟨j - front.length, by omega⟩
    rw [OccursAt, ← List.drop_drop, List.drop_left,
      List.drop_append_of_le_length (by omega)] at hOccurs
    obtain ⟨later, hLater⟩ := hOccurs
    have hSuffix : mid.drop k <:+: mid := (List.drop_suffix k mid).isInfix
    rcases List.append_eq_append_iff.mp hLater with ⟨more, hMore, -⟩ | ⟨more, hMore, hRest⟩
    · exact hMid (.trans ⟨[], more, hMore.symm⟩ hSuffix)
    · cases more with
      | nil => exact hMid (.trans ⟨[], [], by rw [hMore]; simp⟩ hSuffix)
      | cons next more =>
        obtain ⟨first, others, hFirst⟩ := List.exists_cons_of_length_pos
          (show 0 < (mid.drop k).length by rw [List.length_drop]; omega)
        -- The marker would begin again inside itself.
        rw [hFirst, List.cons_append, List.cons.injEq] at hMore
        rw [List.cons_append, List.cons_append, List.cons.injEq] at hRest
        exact hTail (hMore.2 ▸ hRest.1 ▸ List.mem_append_right _ (List.mem_cons_self ..))

theorem exists_candidate (body : List UInt8) : ∃ candidate,
    find body (opening candidate) 0 = none ∧ find body (closing candidate) 0 = none := by
  have hLong : body.length < (toString (10 ^ body.length)).toList.length := by
    rw [show (toString (10 ^ body.length)).toList = Nat.toDigits 10 (10 ^ body.length) from
      Nat.toList_repr]
    by_contra hShort
    have hSome : 0 < (Nat.toDigits 10 (10 ^ body.length)).length := Nat.length_toDigits_pos
    exact Nat.lt_irrefl _ ((Nat.length_toDigits_le_iff (by decide) (by omega)).mp
      (Nat.le_of_not_lt hShort))
  have hNone : ∀ side : String, '<' ∉ side.toList →
      find body (marker side (10 ^ body.length)) 0 = none := by
    intro side hSide
    obtain ⟨tail, hMarker, -, hTail⟩ := marker_cons hSide (10 ^ body.length)
    refine Textedit.find_eq_none fun j _ hOccurs => ?_
    have hInside := hOccurs.inside (by simp [hMarker])
    rw [hMarker, List.length_cons] at hInside
    omega
  exact ⟨10 ^ body.length, hNone _ (by decide), hNone _ (by decide)⟩

/-- `first_fts_match`: the first candidate whose markers are not in the text, and the span between
them. -/
def firstFtsMatch (highlight : List UInt8 → List UInt8 → List UInt8) (body : List UInt8) :
    Option (Nat × Nat) := do
  let candidate := Nat.find (exists_candidate body)
  let highlighted := highlight (opening candidate) (closing candidate)
  let begin ← find highlighted (opening candidate) 0
  let markedBegin := begin + (opening candidate).length
  let markedEnd ← find highlighted (closing candidate) markedBegin
  if body.length < begin ∨ body.length - begin < markedEnd - markedBegin then none
  else return (begin, begin + (markedEnd - markedBegin))

/-- The bytes before a position that continue a character are left out. -/
def skipForward (body : List UInt8) : Nat → Nat → Nat
  | 0, start => start
  | n + 1, start =>
      if (body[start]?).any Utf8.isContinuation then skipForward body n (start + 1) else start

/-- `match_preview`. -/
def matchPreview (body : List UInt8) (begin stop byteLimit : Nat) : List UInt8 :=
  let context := if stop - begin < byteLimit then (byteLimit - (stop - begin)) / 2 else 0
  let start := skipForward body (begin - (begin - context)) (begin - context)
  let finish := boundaryBefore body (min body.length (start + byteLimit))
  (body.drop start).take (finish - start)

/-- `ArchiveHit`. -/
structure ArchiveHit where
  archive : ArchiveInfo
  sourceId : String
  kind : String
  turn : Option Int
  step : Option Int
  startByte : Nat
  endByte : Nat
  snippet : List UInt8
  truncated : Bool

variable {request : ArchiveSearchRequest}

def Row.span (row : Row request) : Option (Nat × Nat) :=
  if request.fts then firstFtsMatch row.highlight row.chunk.body
  else (find row.chunk.body (encode request.text) 0).map fun begin =>
    (begin, begin + (encode request.text).length)

def Row.hit (row : Row request) (span : Nat × Nat) : ArchiveHit :=
  let snippet := matchPreview row.chunk.body span.1 span.2 request.snippetBytes
  ⟨row.archive, row.chunk.sourceId, row.chunk.kind, row.chunk.turnIndex, row.chunk.stepIndex,
    row.chunk.startByte, row.chunk.endByte, snippet,
    row.chunk.startByte ≠ 0 || row.chunk.endByte < row.chunk.sourceBytes ||
      snippet ≠ row.chunk.body⟩

def Row.sourceKey (row : Row request) : String × String := (row.archive.archiveId, row.chunk.sourceId)

def Row.textKey (row : Row request) : String × List UInt8 := (row.chunk.kind, row.chunk.body)

structure Found where
  hits : List ArchiveHit := []
  hasMore : Bool := false
  seen : List (String × List UInt8) := []
  sources : List (String × String) := []
  scanned : Nat := 0

/-- The loop of `search`. -/
def searchLoop : List (Row request) → Found → Option Found
  | [], found => some found
  | row :: rest, found =>
      let found := { found with scanned := found.scanned + 1 }
      if row.sourceKey ∈ found.sources then searchLoop rest found
      else
        let found := { found with sources := row.sourceKey :: found.sources }
        if row.textKey ∈ found.seen then searchLoop rest found
        else if found.hits.length = request.limit then some { found with hasMore := true }
        else do
          let span ← row.span
          searchLoop rest { found with
            seen := row.textKey :: found.seen
            hits := found.hits ++ [row.hit span] }

/-- `search`. -/
def search (rows : List (Row request)) : Option (List ArchiveHit × Bool) := do
  let rowLimit := min 1000 (request.limit * 16 + 16)
  let found ← searchLoop (rows.take rowLimit) {}
  return (found.hits, found.hasMore || found.scanned = rowLimit)

theorem firstFtsMatch_marks {highlight : List UInt8 → List UInt8 → List UInt8}
    {before marked : List Char} (h : Marks body highlight before marked) :
    firstFtsMatch highlight body = some ((encode before).length,
      (encode before).length + (encode marked).length) := by
  obtain ⟨⟨after, hBody⟩, hMarks⟩ := h
  have hCandidate := Nat.find_spec (exists_candidate body)
  rw [firstFtsMatch]
  generalize Nat.find (exists_candidate body) = candidate at hCandidate ⊢
  obtain ⟨first, hOpening, hFirst, -⟩ := marker_cons (show _ ∉ "-open>".toList by decide) candidate
  obtain ⟨last, hClosing, hLast, -⟩ := marker_cons (show _ ∉ "-close>".toList by decide) candidate
  obtain ⟨rest, hHighlight⟩ := hMarks (opening candidate) (closing candidate)
  have hNoFirst := not_infix_of_find hCandidate.1
  have hNoLast := not_infix_of_find hCandidate.2
  rw [encode_append, encode_append] at hBody
  have hLength := congrArg List.length hBody
  rw [List.length_append, List.length_append] at hLength
  replace hOpening : opening candidate = 60 :: first := hOpening
  replace hClosing : closing candidate = 60 :: last := hClosing
  have hBegin : find (highlight (opening candidate) (closing candidate)) (opening candidate) 0 =
      some (encode before).length := by
    rw [hOpening] at hNoFirst hHighlight ⊢
    rw [hHighlight]
    have hFind := @find_marker _ [] _ hFirst (fun hIn => hNoFirst (hIn.trans ⟨[], _, hBody.symm⟩))
      (encode marked ++ (closing candidate ++ rest))
    rwa [List.length_nil, Nat.zero_add] at hFind
  have hEnd : find (highlight (opening candidate) (closing candidate)) (closing candidate)
      ((encode before).length + (opening candidate).length) =
      some ((encode before).length + (opening candidate).length + (encode marked).length) := by
    rw [hHighlight, ← List.length_append, ← List.append_assoc]
    rw [hClosing] at hNoLast ⊢
    exact find_marker hLast
      (fun hIn => hNoLast (hIn.trans ⟨_, _, (hBody.trans (List.append_assoc ..).symm).symm⟩)) rest
  dsimp only
  rw [hBegin, Option.bind_eq_bind, Option.bind_some, hEnd, Option.bind_some, if_neg (by omega),
    Nat.add_sub_cancel_left]
  rfl

/-! ## Previews -/

variable {text : List Char} {begin stop : Nat}

theorem aligned_of_scalar {i : Nat} (h : scalarSize ((encode text).drop i) ≠ 0) :
    Aligned text i := by
  obtain ⟨-, first, more, rest, hBytes, -, -, hFirst, -⟩ := scalar_bytes h
  have hByte : (encode text)[i]? = some first := by
    rw [show i = i + 0 from rfl, ← List.getElem?_drop, hBytes]
    rfl
  refine Utf8.aligned_of_not_continuation ?_ fun byte hThat => ?_
  · exact Nat.le_of_lt (List.getElem?_eq_some_iff.mp hByte).1
  · rw [hByte, Option.some.injEq] at hThat
    exact hThat ▸ hFirst

theorem aligned_iff {n : Nat} (h : n ≤ (encode text).length) :
    Aligned text n ↔ ¬Inside (encode text) n := by
  rcases Nat.lt_or_eq_of_le h with hLess | rfl
  · constructor
    · rintro ⟨before, after, rfl, rfl⟩
      refine not_inside_start ?_
      rw [encode_append, List.drop_left]
      cases after with
      | nil => simp at hLess
      | cons c after =>
        rw [Utf8.encode_cons, scalarSize_encode]
        exact (List.length_pos_iff.mpr String.utf8EncodeChar_ne_nil).ne'
    · intro hNot
      obtain ⟨start, hLe, hIn⟩ := inScalar_encode text [] n hLess
      rw [List.append_nil] at hIn
      rcases Nat.lt_or_eq_of_le hLe with hBefore | rfl
      · exact absurd ⟨start, hBefore, hIn⟩ hNot
      · exact aligned_of_scalar (by omega)
  · exact iff_of_true ⟨text, [], (List.append_nil text).symm, rfl⟩ fun hInside =>
      Nat.lt_irrefl _ (inside_le hInside)

theorem boundaryBefore_text {cut : Nat} (h : cut ≤ (encode text).length) :
    Aligned text (boundaryBefore (encode text) cut) ∧
      boundaryBefore (encode text) cut ≤ cut ∧ cut ≤ boundaryBefore (encode text) cut + 3 ∧
      ∀ n, Aligned text n → n ≤ cut → n ≤ boundaryBefore (encode text) cut := by
  rcases boundaryBefore_spec (encode text) cut with ⟨i, hLess, hInside, hIs⟩ | ⟨hNot, hIs⟩
  · have hSize := scalarSize_le ((encode text).drop i)
    rw [hIs]
    refine ⟨aligned_of_scalar (by omega), by omega, by omega, fun n hAligned hn => ?_⟩
    by_contra hLater
    exact (aligned_iff (by omega)).mp hAligned ⟨i, by omega, by omega⟩
  · rw [hIs]
    exact ⟨(aligned_iff h).mpr hNot, Nat.le_refl _, by omega, fun n _ hn => hn⟩

theorem skipForward_spec (body : List UInt8) (n start : Nat) :
    start ≤ skipForward body n start ∧ skipForward body n start ≤ start + n ∧
      (skipForward body n start = start + n ∨
        (body[skipForward body n start]?).any Utf8.isContinuation = false) := by
  induction n generalizing start with
  | zero => exact ⟨Nat.le_refl _, Nat.le_refl _, .inl rfl⟩
  | succ n ih =>
    rw [skipForward]
    cases hByte : (body[start]?).any Utf8.isContinuation with
    | true =>
      have hRest := ih (start + 1)
      rw [if_pos rfl]
      exact ⟨by omega, by omega, hRest.2.2.imp (fun h => by omega) id⟩
    | false =>
      rw [if_neg Bool.false_ne_true]
      exact ⟨Nat.le_refl _, Nat.le_add_right _ _, .inr hByte⟩

/-- What a snippet is: a part of the text, with the match in it when that fits and at its start
otherwise. -/
def Previews (body : List UInt8) (span : Nat × Nat) (limit : Nat) (snippet : List UInt8) : Prop :=
  ∃ before part after : List Char, body = encode (before ++ (part ++ after)) ∧
    snippet = encode part ∧ snippet.length ≤ limit ∧
    if span.2 - span.1 ≤ limit then
      (encode before).length ≤ span.1 ∧ span.2 ≤ (encode before).length + snippet.length
    else (encode before).length = span.1 ∧ snippet ≠ []

theorem matchPreview_previews {limit : Nat} (hBegin : Aligned text begin)
    (hStop : Aligned text stop) (h : begin ≤ stop) (hLimit : 4 ≤ limit) :
    Previews (encode text) (begin, stop) limit
      (matchPreview (encode text) begin stop limit) := by
  have hEnd : stop ≤ (encode text).length := by
    obtain ⟨before, after, rfl, rfl⟩ := hStop
    rw [encode_append, List.length_append]
    exact Nat.le_add_right _ _
  rw [matchPreview]
  generalize hContext : (if stop - begin < limit then (limit - (stop - begin)) / 2 else 0) = context
  have hRoom : stop - begin ≤ limit ∧ stop - begin + context ≤ limit ∨
      limit < stop - begin ∧ context = 0 := by
    split at hContext <;> omega
  obtain ⟨hLow, hHigh, hSkipped⟩ := skipForward_spec (encode text)
    (begin - (begin - context)) (begin - context)
  generalize skipForward (encode text) (begin - (begin - context)) (begin - context) = start
    at hLow hHigh hSkipped ⊢
  have hStart : Aligned text start := by
    rcases hSkipped with hIs | hByte
    · rwa [hIs, Nat.add_sub_cancel' (Nat.sub_le _ _)]
    · refine Utf8.aligned_of_not_continuation (by omega) fun byte hThat => ?_
      rwa [hThat, Option.any_some] at hByte
  obtain ⟨hFinish, hLe, hNear, hLast⟩ :=
    boundaryBefore_text (Nat.min_le_left (encode text).length (start + limit))
  generalize boundaryBefore (encode text) (min (encode text).length (start + limit)) =
    finish at hFinish hLe hNear hLast ⊢
  have hForward := hLast start hStart (by omega)
  have hWhole := hLast stop hStop
  obtain ⟨before, part, after, hText, rfl, rfl, hSnippet⟩ := exists_part hStart hFinish hForward
  rw [hSnippet]
  refine ⟨before, part, after, by rw [hText], rfl, by omega, ?_⟩
  dsimp only
  split
  · exact ⟨by omega, by omega⟩
  · refine ⟨by omega, fun hNil => ?_⟩
    rw [hNil, List.length_nil] at hNear
    omega

theorem aligned_of_occursAt {query : List Char} {i : Nat} (hSome : query ≠ [])
    (h : OccursAt (encode query) (encode text) i) :
    Aligned text i ∧ Aligned text (i + (encode query).length) := by
  obtain ⟨more, hMore⟩ := h
  have hStart : Aligned text i := by
    refine aligned_of_scalar ?_
    obtain ⟨c, rest, rfl⟩ := List.exists_cons_of_ne_nil hSome
    rw [← hMore, Utf8.encode_cons, List.append_assoc, scalarSize_encode]
    exact (List.length_pos_iff.mpr String.utf8EncodeChar_ne_nil).ne'
  refine ⟨hStart, ?_⟩
  obtain ⟨before, after, rfl, rfl⟩ := hStart
  rw [encode_append, List.drop_left] at hMore
  obtain ⟨back, rfl⟩ := Utf8Display.encode_suffix hMore.symm
  rw [← encode_append] at hMore
  refine ⟨before ++ query, back, ?_, ?_⟩
  · rw [← Utf8.encode_injective hMore, List.append_assoc]
  · rw [encode_append, List.length_append]

theorem find_of_infix (h : pattern <:+: body) : ∃ i, find body pattern 0 = some i ∧
    OccursAt pattern body i := by
  cases hFind : find body pattern 0 with
  | none => exact absurd h (not_infix_of_find hFind)
  | some i => exact ⟨i, rfl, List.isPrefixOf_iff_prefix.mp (List.find?_some hFind :)⟩

def Row.Matches (row : Row request) (span : Nat × Nat) : Prop :=
  if request.fts then ∃ before marked, Marks row.chunk.body row.highlight before marked ∧
    span = ((encode before).length, (encode before).length + (encode marked).length)
  else find row.chunk.body (encode request.text) 0 = some span.1 ∧
    OccursAt (encode request.text) row.chunk.body span.1 ∧
    span.2 = span.1 + (encode request.text).length

theorem Row.body_text (row : Row request) : ∃ text, row.chunk.body = encode text ∧
    row.chunk = chunkRow row.archive.archiveId row.source ⟨row.chunk.startByte, row.chunk.endByte⟩ := by
  obtain ⟨whole, -, -, hRows⟩ := row.indexed.bounds
  obtain ⟨hChunk, -, -, -, -, part, hPart, -⟩ := hRows row.chunk row.inserted
  exact ⟨part, hPart, hChunk⟩

theorem Row.exists_span (row : Row request) : ∃ span, row.span = some span ∧ row.Matches span ∧
    Previews row.chunk.body span request.snippetBytes
      (matchPreview row.chunk.body span.1 span.2 request.snippetBytes) := by
  have hMatching := row.matching
  have hLimit : 4 ≤ request.snippetBytes := Nat.le_trans (by decide) request.snippets.1
  rw [Row.span]
  unfold Row.Matches
  by_cases hFts : request.fts = true
  · rw [if_pos hFts] at hMatching ⊢
    obtain ⟨before, marked, hMarks⟩ := hMatching
    refine ⟨_, firstFtsMatch_marks hMarks, ?_, ?_⟩
    · rw [if_pos hFts]
      exact ⟨before, marked, hMarks, rfl⟩
    · obtain ⟨⟨after, hBody⟩, -⟩ := hMarks
      rw [hBody]
      refine matchPreview_previews ⟨before, _, rfl, rfl⟩ ⟨before ++ marked, after, ?_, ?_⟩
        (Nat.le_add_right _ _) hLimit
      · rw [List.append_assoc]
      · rw [encode_append, List.length_append]
  · rw [if_neg hFts] at hMatching ⊢
    obtain ⟨i, hFind, hOccurs⟩ := find_of_infix hMatching
    obtain ⟨text, hBody, -⟩ := row.body_text
    refine ⟨(i, i + (encode request.text).length), ?_, ?_, ?_⟩
    · rw [hFind, Option.map_some]
    · rw [if_neg hFts]
      exact ⟨hFind, hOccurs, rfl⟩
    · rw [hBody] at hOccurs ⊢
      obtain ⟨hBegin, hStop⟩ := aligned_of_occursAt request.nonempty hOccurs
      exact matchPreview_previews hBegin hStop (Nat.le_add_right _ _) hLimit

/-! ## Rows -/

abbrev Shown (request : ArchiveSearchRequest) := List (Row request × (Nat × Nat))

def Shown.texts (shown : Shown request) : List (String × List UInt8) := shown.map (·.1.textKey)

def Shown.hits (shown : Shown request) : List ArchiveHit :=
  shown.map fun entry => entry.1.hit entry.2

def firstOf (rows : List (Row request)) (row : Row request) : Option (Row request) :=
  rows.find? fun other => other.sourceKey = row.sourceKey

structure Retired (rows : List (Row request)) (sources : List (String × String))
    (shown : Shown request) : Prop where
  sources : ∀ row : Row request, row.sourceKey ∈ sources ↔ (firstOf rows row).isSome
  first : ∀ entry ∈ shown, firstOf rows entry.1 = some entry.1 ∧ entry.1.span = some entry.2
  covered : ∀ row, firstOf rows row = some row → row.textKey ∈ shown.texts

structure Passed (rows : List (Row request)) (found : Found) (shown : Shown request) : Prop where
  retired : Retired rows found.sources shown
  hits : found.hits = shown.hits
  room : shown.length ≤ request.limit
  seen : found.seen = shown.texts.reverse
  texts : shown.texts.Nodup
  distinct : (shown.map (·.1.sourceKey)).Nodup
  scanned : found.scanned = rows.length
  more : found.hasMore = false

variable {rows : List (Row request)} {row : Row request} {found : Found} {shown : Shown request}

theorem firstOf_append (other : Row request) : firstOf (rows ++ [row]) other =
    (firstOf rows other).or (if row.sourceKey = other.sourceKey then some row else none) := by
  rw [firstOf, List.find?_append, List.find?_singleton, firstOf]
  simp only [decide_eq_true_eq]

theorem Retired.next {sources later : List (String × String)} {shown' : Shown request}
    (h : Retired rows sources shown)
    (hLater : ∀ key, key ∈ later ↔ key ∈ sources ∨ key = row.sourceKey)
    (hEntries : ∀ entry ∈ shown', entry ∈ shown ∨
      entry.1 = row ∧ row.span = some entry.2 ∧ row.sourceKey ∉ sources)
    (hTexts : shown.texts ⊆ shown'.texts)
    (hText : row.sourceKey ∉ sources → row.textKey ∈ shown'.texts) :
    Retired (rows ++ [row]) later shown' where
  sources := by
    intro other
    rw [hLater, h.sources, firstOf_append, Option.isSome_or, Bool.or_eq_true]
    refine or_congr_right ?_
    split <;> simp_all [eq_comm]
  first := by
    intro entry hEntry
    rw [firstOf_append]
    rcases hEntries entry hEntry with hOld | ⟨hIs, hSpan, hNot⟩
    · obtain ⟨hFirst, hSpan⟩ := h.first entry hOld
      rw [hFirst]
      exact ⟨rfl, hSpan⟩
    · rw [h.sources, Option.not_isSome_iff_eq_none] at hNot
      rw [hIs, hNot, Option.none_or, if_pos rfl]
      exact ⟨rfl, hSpan⟩
  covered := by
    intro other hFirst
    rw [firstOf_append] at hFirst
    cases hOld : firstOf rows other with
    | some first =>
      rw [hOld, Option.some_or] at hFirst
      exact hTexts (h.covered other (hOld.trans hFirst))
    | none =>
      rw [hOld, Option.none_or] at hFirst
      obtain rfl := Option.some.inj (Option.ite_none_right_eq_some.mp hFirst).2
      refine hText fun hIn => ?_
      rw [h.sources, hOld] at hIn
      cases hIn

/-- **The loop.** It ends with hits for some first rows, of which the rows passed are all unless
there are more. -/
theorem searchLoop_spec (rest : List (Row request)) : ∀ (rows : List (Row request)) (found : Found)
    (shown : Shown request), Passed rows found shown → ∃ last done before shown',
      searchLoop rest found = some last ∧ last.hits = shown'.hits ∧ Passed done before shown' ∧
      done <+: rows ++ rest ∧
      (last.hasMore = false → done = rows ++ rest ∧ last.scanned = done.length) := by
  induction rest with
  | nil =>
    intro rows found shown h
    refine ⟨found, rows, found, shown, rfl, h.hits, h, List.prefix_append _ _, fun _ => ?_⟩
    exact ⟨(List.append_nil rows).symm, h.scanned⟩
  | cons row rest ih =>
    intro rows found shown h
    have hCount : found.scanned + 1 = (rows ++ [row]).length := by
      rw [h.scanned, List.length_append, List.length_singleton]
    rw [searchLoop]
    dsimp only
    rw [List.append_cons]
    by_cases hSource : row.sourceKey ∈ found.sources
    · rw [if_pos hSource]
      exact ih _ _ shown { h with
        scanned := hCount
        retired := h.retired.next (fun key => ⟨.inl, fun hKey => hKey.elim id (· ▸ hSource)⟩)
          (fun _ => .inl) (List.Subset.refl _) (absurd hSource) }
    · rw [if_neg hSource]
      have hLater : ∀ key, key ∈ row.sourceKey :: found.sources ↔
          key ∈ found.sources ∨ key = row.sourceKey := fun key => by rw [List.mem_cons, or_comm]
      by_cases hText : row.textKey ∈ found.seen
      · rw [if_pos hText]
        refine ih _ _ shown { h with scanned := hCount, retired := ?_ }
        rw [h.seen, List.mem_reverse] at hText
        exact h.retired.next hLater (fun entry => .inl) (List.Subset.refl _) fun _ => hText
      · rw [if_neg hText]
        rw [h.seen, List.mem_reverse] at hText
        by_cases hFull : found.hits.length = request.limit
        · rw [if_pos hFull]
          refine ⟨_, rows, found, shown, rfl, h.hits, h, ?_, fun hMore => by cases hMore⟩
          rw [List.append_assoc]
          exact List.prefix_append _ _
        · obtain ⟨span, hSpan, -⟩ := row.exists_span
          have hTexts : Shown.texts (shown ++ [(row, span)]) = shown.texts ++ [row.textKey] :=
            List.map_append
          rw [if_neg hFull, hSpan, Option.bind_eq_bind, Option.bind_some]
          refine ih _ _ (shown ++ [(row, span)]) ⟨?_, ?_, ?_, ?_, ?_, ?_, hCount, h.more⟩
          · refine h.retired.next hLater (fun entry hEntry => ?_) ?_ fun _ => ?_
            · rcases List.mem_append.mp hEntry with hOld | hNew
              · exact .inl hOld
              · rw [List.mem_singleton.mp hNew]
                exact .inr ⟨rfl, hSpan, hSource⟩
            · rw [hTexts]
              exact List.subset_append_left _ _
            · rw [hTexts]
              exact List.mem_append_right _ (List.mem_singleton_self _)
          · rw [h.hits, Shown.hits, Shown.hits, List.map_append, List.map_singleton]
          · have hRoom := h.room
            rw [h.hits, Shown.hits, List.length_map] at hFull
            rw [List.length_append, List.length_singleton]
            omega
          · rw [hTexts, List.reverse_append, h.seen]
            rfl
          · rw [hTexts, ← List.concat_eq_append]
            exact h.texts.concat hText
          · rw [List.map_append, List.map_singleton, ← List.concat_eq_append]
            refine h.distinct.concat fun hKey => ?_
            obtain ⟨entry, hEntry, hSame⟩ := List.mem_map.mp hKey
            rw [← show entry.1.sourceKey = row.sourceKey from hSame, h.retired.sources,
              (h.retired.first entry hEntry).1] at hSource
            exact hSource rfl

theorem Row.hit_whole {span : Nat × Nat} (h : (row.hit span).truncated = false) :
    (row.hit span).snippet = searchable row.source.body := by
  obtain ⟨-, -, hChunk⟩ := row.body_text
  rw [Row.hit] at h ⊢
  dsimp only at h ⊢
  rw [Bool.or_eq_false_iff, Bool.or_eq_false_iff, decide_eq_false_iff_not, not_not,
    decide_eq_false_iff_not, Nat.not_lt, decide_eq_false_iff_not, not_not] at h
  obtain ⟨⟨hStart, hEnd⟩, hBody⟩ := h
  rw [hBody]
  rw [hChunk] at hEnd ⊢
  rw [chunkRow] at hEnd ⊢
  dsimp only at hEnd ⊢
  rw [hStart, List.drop_zero, Nat.sub_zero, List.take_of_length_le hEnd]

/--
**Searching archived text.** Whatever rows SQLite yields, a search has a result: at most `limit`
hits, of sources that are pairwise distinct and of chunks whose kinds and texts are. A hit is of the
first row of its source, and its snippet is a part of the chunk of at most `snippetBytes` that has
the match in it when that fits and begins with it otherwise. A hit that is not truncated has the
whole text of its source. Without more, the text of the first row of every source is that of a hit.
-/
theorem search_laws (rows : List (Row request)) : ∃ (shown : Shown request) (more : Bool),
    search rows = some (shown.hits, more) ∧ shown.hits.length ≤ request.limit ∧
    (shown.hits.map fun hit => (hit.archive.archiveId, hit.sourceId)).Nodup ∧ shown.texts.Nodup ∧
    (∀ entry ∈ shown, firstOf rows entry.1 = some entry.1 ∧ entry.1.Matches entry.2 ∧
      Previews entry.1.chunk.body entry.2 request.snippetBytes (entry.1.hit entry.2).snippet ∧
      ((entry.1.hit entry.2).truncated = false →
        (entry.1.hit entry.2).snippet = searchable entry.1.source.body)) ∧
    (more = false → ∀ row ∈ rows, ∃ first, firstOf rows row = some first ∧
      first.textKey ∈ shown.texts) := by
  have hStart : Passed ([] : List (Row request)) {} [] :=
    ⟨⟨by simp [firstOf], by simp, by simp [firstOf]⟩, rfl, Nat.zero_le _, rfl, List.nodup_nil,
      List.nodup_nil, rfl, rfl⟩
  obtain ⟨last, done, before, shown, hLoop, hHits, hPassed, hDone, hAll⟩ :=
    searchLoop_spec (rows.take (min 1000 (request.limit * 16 + 16))) [] {} [] hStart
  rw [List.nil_append] at hDone hAll
  refine ⟨shown, last.hasMore || last.scanned = min 1000 (request.limit * 16 + 16), ?_, ?_, ?_,
    hPassed.texts, fun entry hEntry => ?_, fun hNone => ?_⟩
  · rw [search, hLoop, Option.bind_eq_bind, Option.bind_some, hHits]
    rfl
  · rw [Shown.hits, List.length_map]
    exact hPassed.room
  · rw [Shown.hits, List.map_map]
    exact hPassed.distinct
  · obtain ⟨hFirst, hSpan⟩ := hPassed.retired.first entry hEntry
    obtain ⟨span, hIs, hMatches, hPreviews⟩ := entry.1.exists_span
    obtain rfl : span = entry.2 := Option.some.inj (hIs.symm.trans hSpan)
    refine ⟨?_, hMatches, hPreviews, Row.hit_whole⟩
    obtain ⟨later, hLater⟩ := hDone.trans (List.take_prefix _ _)
    rw [firstOf] at hFirst
    rw [firstOf, ← hLater, List.find?_append, hFirst, Option.some_or]
  · intro row hRow
    rw [Bool.or_eq_false_iff, decide_eq_false_iff_not] at hNone
    obtain ⟨rfl, hScanned⟩ := hAll hNone.1
    rw [hScanned, List.length_take] at hNone
    rw [List.take_of_length_le (by omega)] at hPassed
    cases hFirst : firstOf rows row with
    | none => exact absurd (decide_eq_true rfl) (List.find?_eq_none.mp hFirst row hRow)
    | some first =>
      have hSame : first.sourceKey = row.sourceKey := by
        simpa using (List.find?_some hFirst :)
      refine ⟨first, rfl, hPassed.retired.covered first ?_⟩
      rwa [firstOf, hSame]

/-! ## Reading on from a hit -/

theorem not_inside_of_aligned {archiveId : String} {source : Source} {block : List ChunkRow}
    (h : Indexed archiveId source block) (hText : searchable source.body = encode text) {k : Nat}
    (hAligned : Aligned text k) : ¬Inside source.body k := by
  rintro ⟨start, hBefore, hAfter⟩
  have hKept := h.kept k ⟨start, hBefore.le, hAfter⟩
  obtain ⟨-, first, more, rest, hBytes, -, hSize, -, hMore, -⟩ :=
    scalar_bytes (show scalarSize (source.body.drop start) ≠ 0 by omega)
  obtain ⟨i, rfl⟩ : ∃ i, k = start + (i + 1) := ⟨k - start - 1, by omega⟩
  have hIn : i < more.length := by omega
  have hByte := hMore _ (List.getElem_mem hIn)
  have hAt : source.body[start + (i + 1)]? = some more[i] := by
    rw [← List.getElem?_drop, hBytes, List.getElem?_cons_succ, List.getElem?_append_left hIn,
      List.getElem?_eq_getElem hIn]
  rw [hText, hAt, Option.map_some] at hKept
  have hStart := hAligned.start _ hKept
  split at hStart
  · rename_i hZero
    rw [hZero] at hByte
    cases hByte
  · rw [hByte] at hStart
    cases hStart

/-- **A hit can be read.** Wherever a row begins, reading its source there is accepted for every
sequence of budgets, malformed bytes or not, and gives what follows, up to the end of the source. -/
theorem hit_reads (row : { row : Row request // row.source.body.length < 2 ^ 31 })
    (budgets : List Budget) : ∃ pages,
    follow ⟨row.val.source.body, row.property⟩ row.val.chunk.startByte budgets = .ok pages ∧
      pages.flatMap (·.text) <+: row.val.source.body.drop row.val.chunk.startByte ∧
      (row.val.source.body.length < row.val.chunk.startByte + budgets.length →
        pages.flatMap (·.text) = row.val.source.body.drop row.val.chunk.startByte) := by
  obtain ⟨row, hSize⟩ := row
  obtain ⟨text, hText, -, hRows⟩ := row.indexed.bounds
  obtain ⟨-, hStart, hEnd, hForward, -⟩ := hRows row.chunk row.inserted
  have hLength : (encode text).length = row.source.body.length := hText ▸ row.indexed.length
  have hLe : row.chunk.startByte ≤ row.source.body.length := by
    obtain ⟨before, after, rfl, hBefore⟩ := hStart
    rw [encode_append, List.length_append] at hLength
    omega
  obtain ⟨pages, hPages, -, hPrefix, hAll, hEnough⟩ := follow_pages ⟨row.source.body, hSize⟩
    budgets _ hLe (not_inside_of_aligned row.indexed hText hStart)
  exact ⟨pages, hPages, hPrefix, fun h => hAll (hEnough h)⟩

/-! ## A note -/

def noteRequest : ArchiveSearchRequest where
  text := "note".toList
  limit := 1
  snippetBytes := 32
  nonempty := by decide
  short := by decide +kernel
  printed := by decide +kernel
  limited := by decide
  snippets := by decide

def noteSource : Source := ⟨"0:input:0", some 0, none, "user", noteBody.bytes⟩

def noteChunk : ChunkRow := chunkRow "archive" noteSource ⟨0, 12⟩

theorem noteSource_indexed : Indexed "archive" noteSource [noteChunk] := by
  obtain ⟨chunks, hChunks, hIndexed⟩ := indexed_chunks "archive" noteSource
  have hOne : some chunks = some [⟨0, 12⟩] := hChunks.symm.trans (by decide +kernel)
  rw [Option.some.inj hOne] at hIndexed
  exact hIndexed

theorem noteRequest_fts : noteRequest.fts = true := by decide +kernel

def noteRow : Row noteRequest where
  archive := ⟨"archive", 1, "2026-01-01T00:00:00Z", "succeeded", false⟩
  source := noteSource
  block := [noteChunk]
  chunk := noteChunk
  highlight first last := encode "see ".toList ++
    (first ++ (encode "note".toList ++ (last ++ encode " é ".toList)))
  indexed := noteSource_indexed
  inserted := List.mem_singleton_self _
  matching := by
    rw [if_pos noteRequest_fts]
    exact ⟨"see ".toList, "note".toList, ⟨" é ".toList, by decide +kernel⟩, fun _ _ => ⟨_, rfl⟩⟩

theorem noteRow_span : noteRow.span = some (4, 8) := by
  rw [Row.span, if_pos noteRequest_fts]
  have hMarks : Marks noteRow.chunk.body noteRow.highlight "see ".toList "note".toList :=
    ⟨⟨" é ".toList, by decide +kernel⟩, fun _ _ => ⟨_, rfl⟩⟩
  exact firstFtsMatch_marks hMarks

/-- The note is found, once although it is yielded twice, with its match in the snippet. -/
theorem search_laws_note : search [noteRow, noteRow] = some ([noteRow.hit (4, 8)], false) ∧
    ∃ shown : Shown noteRequest, shown.hits = [noteRow.hit (4, 8)] ∧ shown.texts.Nodup ∧
      ∀ entry ∈ shown, entry.1.Matches entry.2 := by
  have hFound : search [noteRow, noteRow] = some ([noteRow.hit (4, 8)], false) := by
    simp [search, List.take, searchLoop, noteRow_span, show noteRequest.limit = 1 from rfl]
  obtain ⟨shown, more, hSearch, -, -, hTexts, hEntries, -⟩ := search_laws [noteRow, noteRow]
  rw [hFound, Option.some.injEq, Prod.mk.injEq] at hSearch
  exact ⟨hFound, shown, hSearch.1.symm, hTexts, fun entry h => (hEntries entry h).2.1⟩

/-- Read on from its hit in pages of four bytes, the note is there with its last byte. -/
theorem hit_reads_note : ∃ pages, follow noteBody noteRow.chunk.startByte
      (List.replicate 13 ⟨4, by decide⟩) = .ok pages ∧
    pages.flatMap (·.text) = noteBody.bytes := by
  obtain ⟨pages, hPages, -, hAll⟩ := hit_reads ⟨noteRow, noteBody.size⟩
    (List.replicate 13 ⟨4, by decide⟩)
  exact ⟨pages, hPages, hAll (by decide +kernel)⟩

end SimplexAgent.Persistence.ArchiveSearch
