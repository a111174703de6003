import SimplexAgent.Core.AnswerPage
import Mathlib

/-!
# Answers are read whole

A client that starts at part 0, offset 0 and follows the cursors reads every part byte for
byte, as long as the response stands where its locator says. When another response stands
there, every request with that locator is refused, provided the digest has no collisions.

The walk is an instance of `Verified.Paging`: one page moves the cursor forward or ends the
reading (`pageAt_spec`), because a character has at most four bytes and a page takes far
more. The fingerprint is an instance of `Verified.Framing`: the identity ahead of each part
tells where it ends and how many bytes follow.
-/

namespace SimplexAgent.Core.AnswerPage

open Dataclass Verified
open Protocol (fromJson toJson Record Member)

/-! ## The fingerprint tells the content -/

variable {digest : List UInt8 → List UInt8}
variable {turns : Turns}

theorem hexDigit_injective {a b : Nat} (hA : a < 16) (hB : b < 16)
    (h : hexDigit a = hexDigit b) : a = b := by
  have hAll : ∀ i j : Fin 16, hexDigit i = hexDigit j → i = j := by decide
  exact congrArg Fin.val (hAll ⟨a, hA⟩ ⟨b, hB⟩ h)

theorem hex_injective {a b : List UInt8} (h : hex a = hex b) : a = b := by
  have hDigits := String.ofList_injective h
  clear h
  induction a generalizing b with
  | nil =>
    cases b with
    | nil => rfl
    | cons y b => simp at hDigits
  | cons x a ih =>
    cases b with
    | nil => simp at hDigits
    | cons y b =>
      simp only [List.flatMap_cons, List.cons_append, List.nil_append, List.cons.injEq] at hDigits
      obtain ⟨hHigh, hLow, hRest⟩ := hDigits
      have hX := x.toNat_lt
      have hY := y.toNat_lt
      have hDiv := hexDigit_injective (by omega) (by omega) hHigh
      have hMod := hexDigit_injective (by omega) (by omega) hLow
      have hByte : x = y := UInt8.toNat_inj.mp (by omega)
      rw [hByte, ih hRest]

theorem bytesOf_injective {a b : String} (h : bytesOf a = bytesOf b) : a = b :=
  String.toList_injective (Utf8.encode_injective h)

theorem comma_not_mem_decimal (n : Nat) : (44 : UInt8) ∉ bytesOf (toString n) := by
  intro hMem
  obtain ⟨c, hDigit, hByte⟩ := List.mem_flatMap.mp hMem
  rw [show (toString n).toList = Nat.toDigits 10 n from Nat.toList_repr] at hDigit
  have hRange := Char.isDigit_iff_toNat.mp
    (Nat.isDigit_of_mem_toDigits (by decide) (by decide) hDigit)
  have hLow : 48 ≤ c.val.toNat ∧ c.val.toNat ≤ 57 := hRange
  unfold String.utf8EncodeChar at hByte
  dsimp only at hByte
  rw [if_pos (by omega), List.mem_singleton, ← UInt8.toNat_inj, UInt8.toNat_ofNat'] at hByte
  have hComma : (44 : UInt8).toNat = 44 := rfl
  omega

theorem modality_nameOf_injective : Modality.nameOf.Injective := by
  intro a b h
  cases a <;> cases b <;> simp_all [Modality.nameOf]

theorem contentType_nameOf_injective : ContentType.nameOf.Injective := by
  intro a b h
  cases a <;> cases b <;> simp_all [ContentType.nameOf]

theorem identity_selfDelimiting : Framing.SelfDelimiting PartKey.identity := by
  intro k k' rest rest' h
  have hComma : bytesOf ",\"modality\":\"" = 44 :: bytesOf "\"modality\":\"" := by decide
  have hQuote : bytesOf "\",\"type\":\"" = 34 :: bytesOf ",\"type\":\"" := by decide
  have hClose : bytesOf "\"\x7d" = [34, 125] := by decide
  have hModality : ∀ m : Modality, (34 : UInt8) ∉ bytesOf m.nameOf := by
    intro m
    cases m <;> decide
  have hType : ∀ t : ContentType, (34 : UInt8) ∉ bytesOf t.nameOf := by
    intro t
    cases t <;> decide
  simp only [PartKey.identity, hComma, hQuote, hClose, List.append_assoc, List.cons_append] at h
  obtain ⟨hBytes, h⟩ := Framing.field_inj (comma_not_mem_decimal _) (comma_not_mem_decimal _)
    (List.append_cancel_left h)
  obtain ⟨hModalityEq, h⟩ := Framing.field_inj (hModality _) (hModality _)
    (List.append_cancel_left h)
  obtain ⟨hTypeEq, -⟩ := Framing.field_inj (hType _) (hType _) (List.append_cancel_left h)
  have hCount : k.bytes = k'.bytes := Nat.repr_inj.mp (bytesOf_injective hBytes)
  have hModality := modality_nameOf_injective (bytesOf_injective hModalityEq)
  have hType := contentType_nameOf_injective (bytesOf_injective hTypeEq)
  cases k
  cases k'
  simp only [PartKey.mk.injEq]
  exact ⟨hCount, hModality, hType⟩

theorem digested_injective {a b : List Part} (h : digested a = digested b) : a = b := by
  have hRecords : a.flatMap (fun part => PartKey.identity (Part.key part) ++ Part.raw part) =
      b.flatMap (fun part => PartKey.identity (Part.key part) ++ Part.raw part) := h
  refine Framing.flatMap_injective identity_selfDelimiting ?_ ?_ ?_ hRecords
  · intro k hNil
    have hOpen : bytesOf "\x7b\"bytes\":" ≠ [] := by decide
    simp only [PartKey.identity, List.append_eq_nil_iff] at hNil
    exact hOpen hNil.1.1.1.1.1.1
  · intro a b hKey
    exact congrArg PartKey.bytes hKey
  · intro a b hKey hRaw
    cases a
    cases b
    simp_all [Part.key]

theorem fingerprint_injective (hDigest : Function.Injective digest) {a b : List Part}
    (h : fingerprint digest a = fingerprint digest b) : a = b :=
  digested_injective (hDigest (hex_injective h))

theorem resolve_eq_ok_iff {locator : AnswerSource} {found : Committed} :
    locator.resolve digest turns = .ok found ↔
      committedAt turns locator.turn locator.step = some found ∧
        locator.commitSequence = toString found.commitSequence.toNat ∧
        found.commitSequence ≠ 0 ∧ locator.fingerprint = fingerprint digest found.content := by
  unfold AnswerSource.resolve
  cases hAt : committedAt turns locator.turn locator.step with
  | none => simp
  | some committed =>
    simp only [Option.some.injEq]
    by_cases hIdentity : locator.commitSequence ≠ toString committed.commitSequence.toNat ∨
        committed.commitSequence = 0
    · rw [if_pos hIdentity]
      constructor
      · intro h
        cases h
      · rintro ⟨rfl, hSequence, hZero, -⟩
        exact absurd hIdentity (by simp [hSequence, hZero])
    · rw [if_neg hIdentity]
      rw [not_or, not_not] at hIdentity
      by_cases hContent : locator.fingerprint ≠ fingerprint digest committed.content
      · rw [if_pos hContent]
        constructor
        · intro h
          cases h
        · rintro ⟨rfl, -, -, hSame⟩
          exact absurd hSame hContent
      · rw [if_neg hContent, Except.ok.injEq]
        constructor
        · rintro rfl
          exact ⟨rfl, hIdentity.1, hIdentity.2, not_not.mp hContent⟩
        · exact fun h => h.1

theorem resolve_source (hDigest : Function.Injective digest) {response found : Committed}
    {turn step : UInt64} {workerId : String}
    (hFound : (source digest response turn step workerId).resolve digest turns = .ok found) :
    committedAt turns turn step = some response ∧ found = response := by
  obtain ⟨hAt, hSequence, -, hContent⟩ := resolve_eq_ok_iff.mp hFound
  have hNumber : response.commitSequence = found.commitSequence :=
    UInt64.toNat_inj.mp (Nat.repr_inj.mp hSequence)
  have hParts := fingerprint_injective hDigest hContent
  have hSame : found = response := by
    cases found
    cases response
    simp_all
  exact ⟨by rw [← hSame]; exact hAt, hSame⟩

/-! ## One page -/

/-- Where a page may start: inside the part or at its end, before a whole character. -/
def Boundary (raw : List UInt8) (offset : Nat) : Prop :=
  offset ≤ raw.length ∧ (offset < raw.length → ¬continues raw offset)

theorem stepBack_le (raw : List UInt8) (offset n : Nat) : stepBack raw offset n ≤ n := by
  induction n with
  | zero => exact Nat.le_refl 0
  | succ n ih =>
    rw [stepBack]
    split
    · omega
    · exact Nat.le_refl _

theorem offset_le_stepBack {raw : List UInt8} {offset n : Nat} (hLe : offset ≤ n) :
    offset ≤ stepBack raw offset n := by
  induction n with
  | zero => exact hLe
  | succ n ih =>
    rw [stepBack]
    split
    · rename_i hInside
      exact ih (by omega)
    · exact hLe

theorem stepBack_stops (raw : List UInt8) (offset n : Nat) :
    stepBack raw offset n ≤ offset ∨ raw.length ≤ stepBack raw offset n ∨
      ¬continues raw (stepBack raw offset n) := by
  induction n with
  | zero => exact .inl (Nat.zero_le _)
  | succ n ih =>
    rw [stepBack]
    split
    · exact ih
    · rename_i hStop
      by_cases hOffset : offset < n + 1
      · by_cases hEnd : n + 1 < raw.length
        · exact .inr (.inr fun h => hStop ⟨hOffset, hEnd, h⟩)
        · exact .inr (.inl (by omega))
      · exact .inl (by omega)

theorem le_stepBack {raw : List UInt8} {offset position n : Nat} (hLe : position ≤ n)
    (hStart : ¬continues raw position) : position ≤ stepBack raw offset n := by
  induction n with
  | zero => exact hLe
  | succ n ih =>
    rw [stepBack]
    split
    · rename_i hInside
      apply ih
      by_contra hPast
      have hHere : position = n + 1 := by omega
      exact hStart (hHere ▸ hInside.2.2)
    · exact hLe

theorem not_continues_iff (raw : List UInt8) (n : Nat) :
    ¬continues raw n ↔ ∀ byte, raw[n]? = some byte → Utf8.isContinuation byte = false := by
  unfold continues
  cases raw[n]? with
  | none => simp
  | some byte => simp

theorem pageEnd_spec (text : List Char) {offset : Nat}
    (hOffset : Boundary (Utf8.encode text) offset) :
    Boundary (Utf8.encode text) (pageEnd (Utf8.encode text) offset) ∧
      offset ≤ pageEnd (Utf8.encode text) offset ∧
      (offset < (Utf8.encode text).length → offset < pageEnd (Utf8.encode text) offset) := by
  obtain ⟨hLength, hStart⟩ := hOffset
  obtain ⟨limit, hLimit⟩ :
      ∃ limit, limit = offset + min pageBytes ((Utf8.encode text).length - offset) := ⟨_, rfl⟩
  have hPage : pageEnd (Utf8.encode text) offset = stepBack (Utf8.encode text) offset limit := by
    rw [pageEnd, hLimit]
  rw [hPage]
  have hUpper : stepBack (Utf8.encode text) offset limit ≤ limit := stepBack_le _ _ _
  have hLower : offset ≤ stepBack (Utf8.encode text) offset limit :=
    offset_le_stepBack (by omega)
  have hForward : offset < (Utf8.encode text).length →
      offset < stepBack (Utf8.encode text) offset limit := by
    intro hInside
    have hAligned : Utf8.Aligned text offset :=
      Utf8.aligned_of_not_continuation hLength ((not_continues_iff _ _).mp (hStart hInside))
    obtain ⟨next, hPast, hNear, hEnd, hByte⟩ := Utf8.exists_next_position hAligned hInside
    have hReached : next ≤ limit := by
      rw [hLimit]
      unfold pageBytes
      omega
    have hLe : next ≤ stepBack (Utf8.encode text) offset limit :=
      le_stepBack hReached ((not_continues_iff _ _).mpr hByte)
    omega
  refine ⟨⟨by omega, fun hInside => ?_⟩, hLower, hForward⟩
  rcases stepBack_stops (Utf8.encode text) offset limit with hBefore | hAfter | hStops
  · have hPast := hForward (by omega)
    omega
  · omega
  · exact hStops

def Textual (content : List Part) : Prop :=
  ∀ part ∈ content, part.type ≠ .binary ∧ ∃ text, part.raw = Utf8.encode text

/-- A cursor at which a page can be asked for. -/
def Accepts (content : List Part) (cursor : Cursor) : Prop :=
  ∃ part, content[cursor.part]? = some part ∧ Boundary part.raw cursor.offset

theorem pageAt_eq {content : List Part} (hTextual : Textual content) {cursor : Cursor}
    {part : Part} (hPart : content[cursor.part]? = some part)
    (hOffset : Boundary part.raw cursor.offset) (requestId : String) (locator : AnswerSource) :
    pageAt requestId locator content cursor.part cursor.offset =
      .ok (pageFrom requestId locator content cursor.part part cursor.offset) := by
  have hText := (hTextual part (List.mem_of_getElem? hPart)).1
  have hInside : ¬(part.raw.length < cursor.offset ∨
      (cursor.offset < part.raw.length ∧ continues part.raw cursor.offset)) := by
    rintro (hPast | ⟨hIn, hContinues⟩)
    · have hLe := hOffset.1
      omega
    · exact hOffset.2 hIn hContinues
  simp only [pageAt, hPart, if_neg hText, if_neg hInside]

theorem pageFrom_stop {content : List Part} (hTextual : Textual content) {cursor : Cursor}
    {part : Part} (hPart : content[cursor.part]? = some part)
    (hOffset : Boundary part.raw cursor.offset) :
    Boundary part.raw (pageEnd part.raw cursor.offset) ∧
      cursor.offset ≤ pageEnd part.raw cursor.offset ∧
      (cursor.offset < part.raw.length → cursor.offset < pageEnd part.raw cursor.offset) := by
  obtain ⟨-, text, hRaw⟩ := hTextual part (List.mem_of_getElem? hPart)
  rw [hRaw] at hOffset ⊢
  exact pageEnd_spec text hOffset

/-! ## The query of the client -/

section Query

open Protocol

theorem admit_default (value : Json) : Constraints.Admit {} value := by
  cases value <;> simp [Constraints.Admit]

theorem sourceRecord_conforms (source : AnswerSource) :
    conforms RecordDescriptor.LeavesIgnored (Wire.declarations.drop 31) Wire.answerSource.name
      [("worker_id", some (.text source.workerId)), ("turn", some (.number source.turn)),
       ("step", some (.number source.step)),
       ("commit_sequence", some (.text source.commitSequence)),
       ("fingerprint", some (.text source.fingerprint))] := by
  have hSplit : Wire.declarations.drop 31 =
      (Wire.declarations.drop 31).take 15 ++ Wire.answerSource :: Wire.declarations.drop 47 := rfl
  rw [hSplit, conforms_append (by decide +kernel)]
  refine ⟨⟨rfl, ?_, by simp [Wire.answerSource], by simp [Wire.answerSource]⟩, ?_⟩
  · simp [Wire.answerSource, Field.Conforms, Record.member, text, integer, Kind.Holds,
      admit_default, List.lookup]
  · intro field _ hIgnored
    simp [RecordDescriptor.ignoredField, Wire.answerSource] at hIgnored

theorem answerRequest_rule (requestId : String) (source : AnswerSource) (part offset : UInt64)
    {rule : Rule} (hRule : rule ∈ Wire.payloadRequest.rules)
    (hMatches : Wire.payloadRequest.ruleMatches (answerRequest requestId source part offset) rule =
      true) :
    rule.requiresFields = ["source"] ∧
      rule.forbidsFields = ["content", "options", "start", "step", "limit"] ∧
      rule.ignoresFields = [] := by
  have hMem : enumeration Wire.inputOperation "operation" "message" ∈
      Wire.payloadRequest.fields := by simp [Wire.payloadRequest]
  have hWhen : ∀ other ∈ Wire.payloadRequest.rules, other.whenField = "operation" := by
    simp [Wire.payloadRequest]
  have hAnswer : ∀ other ∈ Wire.payloadRequest.rules, other.whenEquals = "answer" →
      other.requiresFields = ["source"] ∧
        other.forbidsFields = ["content", "options", "start", "step", "limit"] ∧
        other.ignoresFields = [] := by
    simp [Wire.payloadRequest]
  have hOperation := (RecordDescriptor.ruleMatches_iff hMem rfl (hWhen rule hRule) rfl).mp hMatches
  exact hAnswer rule hRule hOperation.symm

theorem answerRequest_conforms (requestId : String) (source : AnswerSource) (part offset : UInt64) :
    conforms RecordDescriptor.LeavesIgnored Wire.declarations Wire.payloadRequest.name
      (answerRequest requestId source part offset) := by
  have hSplit : Wire.declarations =
      Wire.declarations.take 30 ++ Wire.payloadRequest :: Wire.declarations.drop 31 := rfl
  have hSource : conforms RecordDescriptor.LeavesIgnored (Wire.declarations.drop 31)
      "AnswerSource" _ := sourceRecord_conforms source
  rw [hSplit, conforms_append (by decide +kernel)]
  refine ⟨⟨rfl, ?_, ?_, by simp [Wire.payloadRequest]⟩, ?_⟩
  · simp [Wire.payloadRequest, answerRequest, Field.Conforms, Record.member, enumeration, text,
      records, opaqueJson, integer, record, Field.opt, Field.objectOnly, Field.defaultValue,
      Field.isRequired, Kind.Holds, admit_default, Wire.inputOperation, List.lookup, hSource]
  · intro rule hRule hMatches
    obtain ⟨hRequires, hForbids, -⟩ := answerRequest_rule requestId source part offset hRule hMatches
    rw [hRequires, hForbids]
    simp [RecordDescriptor.fieldPresent, Wire.payloadRequest, answerRequest, Record.member,
      enumeration, text, records, opaqueJson, integer, record, Field.opt, Field.objectOnly,
      Field.defaultValue, List.lookup]
  · intro field _ hIgnored
    simp only [RecordDescriptor.ignoredField, List.any_eq_true, Bool.and_eq_true] at hIgnored
    obtain ⟨rule, hRule, hMatches, hName⟩ := hIgnored
    rw [(answerRequest_rule requestId source part offset hRule hMatches).2.2] at hName
    simp at hName

theorem decode_answerQuery (requestId : String) (source : AnswerSource) (cursor : Cursor) :
    PayloadRequest.decode (answerQuery requestId source cursor) =
      .ok { operation := "answer", requestId := requestId, source := some source,
            part := some (UInt64.ofNat cursor.part),
            offset := some (UInt64.ofNat cursor.offset) } := by
  have hRead := restores_declared Wire.declarations wire_presentable "PayloadRequest" _
    (answerRequest_conforms requestId source (UInt64.ofNat cursor.part)
      (UInt64.ofNat cursor.offset)) ""
  unfold PayloadRequest.decode answerQuery
  rw [hRead]
  rfl

end Query

theorem answerPage_query {response : Committed} {turn step : UInt64}
    (hStands : committedAt turns turn step = some response)
    (hCommitted : response.commitSequence ≠ 0) {requestId workerId : String}
    (hId : requestId ≠ "" ∧ requestId.utf8ByteSize ≤ 128) {cursor : Cursor}
    (hPart : cursor.part < 2 ^ 64) (hOffset : cursor.offset < 2 ^ 64) : answerPage digest turns
        (answerQuery requestId (source digest response turn step workerId) cursor) workerId =
      pageAt requestId (source digest response turn step workerId) response.content cursor.part
        cursor.offset := by
  have hLocator : ∀ part offset, PayloadRequest.locator
      { operation := "answer", requestId := requestId,
        source := some (source digest response turn step workerId), part := part,
        offset := offset } workerId = .ok (source digest response turn step workerId) := by
    intro part offset
    have hLength : ¬(requestId = "" ∨ 128 < requestId.utf8ByteSize) := by
      rintro (hEmpty | hLong)
      · exact hId.1 hEmpty
      · omega
    simp [PayloadRequest.locator, hLength, source]
  have hResolve : (source digest response turn step workerId).resolve digest turns =
      .ok response := resolve_eq_ok_iff.mpr ⟨hStands, rfl, hCommitted, rfl⟩
  unfold answerPage
  rw [decode_answerQuery]
  simp only [bind, Except.bind, hLocator, hResolve, Option.getD_some, UInt64.toNat_ofNat',
    Nat.mod_eq_of_lt hPart, Nat.mod_eq_of_lt hOffset]

/-! ## The walk of the client -/

/-- The page that the worker returns to the `n`-th query, in the state it has then. -/
def fetch (digest : List UInt8 → List UInt8) (turns : Nat → Turns) (source : AnswerSource)
    (requestId workerId : String) (n : Nat) (cursor : Cursor) : Except String Page :=
  answerPage digest (turns n) (answerQuery requestId source cursor) workerId

def Page.chunk (page : Page) : Paging.Chunk UInt8 := ⟨page.part, page.offset, page.raw⟩

theorem boundary_zero {content : List Part} (hTextual : Textual content) {part : Part}
    (hMem : part ∈ content) : Boundary part.raw 0 := by
  obtain ⟨-, text, hRaw⟩ := hTextual part hMem
  rw [hRaw]
  exact ⟨Nat.zero_le _, fun _ => (not_continues_iff _ _).mpr (Utf8.encode_start text)⟩

theorem follow_pageFrom (requestId : String) (locator : AnswerSource) (content : List Part)
    (cursor : Cursor) (part : Part) :
    (pageFrom requestId locator content cursor.part part cursor.offset).follow =
      if pageEnd part.raw cursor.offset = part.raw.length then ⟨cursor.part + 1, 0⟩
      else ⟨cursor.part, pageEnd part.raw cursor.offset⟩ := by
  by_cases hEnd : pageEnd part.raw cursor.offset = part.raw.length
  · simp [Page.follow, pageFrom, hEnd]
  · simp [Page.follow, pageFrom, hEnd]

theorem done_pageFrom (requestId : String) (locator : AnswerSource) (content : List Part)
    (cursor : Cursor) (part : Part) :
    (pageFrom requestId locator content cursor.part part cursor.offset).done = true ↔
      pageEnd part.raw cursor.offset = part.raw.length ∧ cursor.part + 1 = content.length := by
  simp [pageFrom]

/-- What the client makes of the pages: each part byte for byte, an empty one too, by pages
whose cursors ascend, of which the last and no other is marked as done. -/
structure Delivered (content : List Part) (pages : List Page) : Prop where
  whole : ∀ i part, content[i]? = some part →
    Paging.received (pages.map Page.chunk) i = part.raw ∧ ∃ page ∈ pages, page.part = i
  exact : ∀ page ∈ pages, ∃ part, content[page.part]? = some part ∧
    page.raw = (part.raw.drop page.offset).take (page.nextOffset - page.offset)
  ascending : (pages.map Page.chunk).Pairwise Paging.Before
  advances : ∀ page ∈ pages, page.done = true ∨ page.part < page.follow.part ∨
    page.part = page.follow.part ∧ page.offset < page.follow.offset
  done : ∃ before last, pages = before ++ [last] ∧ last.done = true ∧
    ∀ page ∈ before, page.done = false

section Walk

variable {digest : List UInt8 → List UInt8} {response : Committed} {turn step : UInt64}
variable {cursor : Cursor}
variable {pages : List Page}

  {workerId requestId : String} {turns : Nat → Turns}

theorem fetch_eq (hCommitted : response.commitSequence ≠ 0) (hTextual : Textual response.content)
    (hId : requestId ≠ "" ∧ requestId.utf8ByteSize ≤ 128)
    (hStands : ∀ n, committedAt (turns n) turn step = some response) (n : Nat) {part : Part}
    (hPart : response.content[cursor.part]? = some part)
    (hOffset : Boundary part.raw cursor.offset) :
    fetch digest turns (source digest response turn step workerId) requestId workerId n cursor =
      .ok (pageFrom requestId (source digest response turn step workerId) response.content
        cursor.part part cursor.offset) := by
  have hIndex := (List.getElem?_eq_some_iff.mp hPart).1
  have hCount := response.fits
  have hBytes := part.fits
  have hLe := hOffset.1
  unfold fetch
  rw [answerPage_query (hStands n) hCommitted hId (by omega) (by omega),
    pageAt_eq hTextual hPart hOffset]

theorem accepts_follow (hTextual : Textual response.content) {part : Part}
    (hPart : response.content[cursor.part]? = some part) (hOffset : Boundary part.raw cursor.offset)
    {locator : AnswerSource}
    (hDone : (pageFrom requestId locator response.content cursor.part part cursor.offset).done = false) :
    Accepts response.content
      (pageFrom requestId locator response.content cursor.part part cursor.offset).follow := by
  have hIndex := (List.getElem?_eq_some_iff.mp hPart).1
  rw [← Bool.not_eq_true, done_pageFrom] at hDone
  rw [follow_pageFrom]
  by_cases hEnd : pageEnd part.raw cursor.offset = part.raw.length
  · rw [if_pos hEnd]
    have hNext : cursor.part + 1 < response.content.length := by
      by_contra hLast
      exact hDone ⟨hEnd, by omega⟩
    exact ⟨response.content[cursor.part + 1], List.getElem?_eq_getElem hNext,
      boundary_zero hTextual (List.getElem_mem hNext)⟩
  · rw [if_neg hEnd]
    exact ⟨part, hPart, (pageFrom_stop hTextual hPart hOffset).1⟩

theorem walk_reading (hCommitted : response.commitSequence ≠ 0)
    (hTextual : Textual response.content) (hId : requestId ≠ "" ∧ requestId.utf8ByteSize ≤ 128)
    (hStands : ∀ n, committedAt (turns n) turn step = some response) {n : Nat}
    (hAccepts : Accepts response.content cursor)
    (hWalk : Walk (fetch digest turns (source digest response turn step workerId) requestId workerId) n cursor pages) :
    Paging.Reading (response.content.map Part.raw) cursor.part cursor.offset
      (pages.map Page.chunk) := by
  induction hWalk with
  | @last n cursor page hPage hDone =>
    obtain ⟨part, hPart, hOffset⟩ := hAccepts
    rw [fetch_eq hCommitted hTextual hId hStands n hPart hOffset, Except.ok.injEq] at hPage
    subst hPage
    obtain ⟨hEnd, hLast⟩ := (done_pageFrom _ _ _ cursor part).mp hDone
    have hRaw : (part.raw.drop cursor.offset).take
        (pageEnd part.raw cursor.offset - cursor.offset) = part.raw.drop cursor.offset := by
      rw [hEnd, ← List.length_drop, List.take_length]
    have hWhole : (response.content.map Part.raw)[cursor.part]? = some part.raw := by
      rw [List.getElem?_map, hPart]
      rfl
    have hReading := Paging.Reading.last hWhole (by rw [List.length_map]; exact hLast) hOffset.1
    rw [← hRaw] at hReading
    exact hReading
  | @more n cursor page rest hPage hDone hRest ih =>
    obtain ⟨part, hPart, hOffset⟩ := hAccepts
    rw [fetch_eq hCommitted hTextual hId hStands n hPart hOffset, Except.ok.injEq] at hPage
    subst hPage
    have hLater := ih (accepts_follow hTextual hPart hOffset hDone)
    rw [follow_pageFrom] at hLater
    have hWhole : (response.content.map Part.raw)[cursor.part]? = some part.raw := by
      rw [List.getElem?_map, hPart]
      rfl
    obtain ⟨hStop, hLower, hForward⟩ := pageFrom_stop hTextual hPart hOffset
    by_cases hEnd : pageEnd part.raw cursor.offset = part.raw.length
    · rw [if_pos hEnd] at hLater
      have hRaw : (part.raw.drop cursor.offset).take
          (pageEnd part.raw cursor.offset - cursor.offset) = part.raw.drop cursor.offset := by
        rw [hEnd, ← List.length_drop, List.take_length]
      have hReading := Paging.Reading.next hWhole hOffset.1 hLater
      rw [← hRaw] at hReading
      exact hReading
    · rw [if_neg hEnd] at hLater
      have hBound := hStop.1
      exact Paging.Reading.more hWhole (hForward (by omega)) hLater

theorem walk_pages (hCommitted : response.commitSequence ≠ 0) (hTextual : Textual response.content)
    (hId : requestId ≠ "" ∧ requestId.utf8ByteSize ≤ 128)
    (hStands : ∀ n, committedAt (turns n) turn step = some response) {n : Nat}
    (hAccepts : Accepts response.content cursor)
    (hWalk : Walk (fetch digest turns (source digest response turn step workerId) requestId workerId) n cursor pages) :
    ∀ page ∈ pages, ∃ (here : Cursor) (part : Part), response.content[here.part]? = some part ∧
      Boundary part.raw here.offset ∧
      page = pageFrom requestId (source digest response turn step workerId) response.content
        here.part part here.offset := by
  induction hWalk with
  | @last n cursor page hPage hDone =>
    obtain ⟨part, hPart, hOffset⟩ := hAccepts
    rw [fetch_eq hCommitted hTextual hId hStands n hPart hOffset, Except.ok.injEq] at hPage
    intro other hMem
    rw [List.mem_singleton.mp hMem]
    exact ⟨cursor, part, hPart, hOffset, hPage.symm⟩
  | @more n cursor page rest hPage hDone hRest ih =>
    obtain ⟨part, hPart, hOffset⟩ := hAccepts
    rw [fetch_eq hCommitted hTextual hId hStands n hPart hOffset, Except.ok.injEq] at hPage
    subst hPage
    intro other hMem
    rcases List.mem_cons.mp hMem with rfl | hMem
    · exact ⟨cursor, part, hPart, hOffset, rfl⟩
    · exact ih (accepts_follow hTextual hPart hOffset hDone) other hMem

theorem walk_done {request : Nat → Cursor → Except String Page} {n : Nat}
    (hWalk : Walk request n cursor pages) :
    ∃ before last, pages = before ++ [last] ∧ last.done = true ∧
      ∀ page ∈ before, page.done = false := by
  induction hWalk with
  | @last n cursor page hPage hDone => exact ⟨[], page, rfl, hDone, by simp⟩
  | @more n cursor page rest hPage hDone hRest ih =>
    obtain ⟨before, last, rfl, hLast, hBefore⟩ := ih
    refine ⟨page :: before, last, rfl, hLast, fun other hMem => ?_⟩
    rcases List.mem_cons.mp hMem with rfl | hMem
    · exact hDone
    · exact hBefore other hMem

theorem walk_unique {request : Nat → Cursor → Except String Page} {n : Nat}
    {pages pages' : List Page} (hWalk : Walk request n cursor pages)
    (hWalk' : Walk request n cursor pages') : pages' = pages := by
  induction hWalk generalizing pages' with
  | @last n cursor page hPage hDone =>
    cases hWalk' with
    | last hPage' hDone' => rw [Except.ok.inj (hPage'.symm.trans hPage)]
    | more hPage' hDone' hRest' =>
      rw [Except.ok.inj (hPage'.symm.trans hPage), hDone] at hDone'
      cases hDone'
  | @more n cursor page rest hPage hDone hRest ih =>
    cases hWalk' with
    | last hPage' hDone' =>
      rw [Except.ok.inj (hPage'.symm.trans hPage), hDone] at hDone'
      cases hDone'
    | more hPage' hDone' hRest' =>
      have hSame := Except.ok.inj (hPage'.symm.trans hPage)
      subst hSame
      rw [ih hRest']

theorem walk_exists (hCommitted : response.commitSequence ≠ 0) (hTextual : Textual response.content)
    (hId : requestId ≠ "" ∧ requestId.utf8ByteSize ≤ 128)
    (hStands : ∀ n, committedAt (turns n) turn step = some response)
    (hAccepts : Accepts response.content cursor) (n : Nat) :
    ∃ pages, Walk (fetch digest turns (source digest response turn step workerId) requestId
      workerId) n cursor pages := by
  obtain ⟨part, hPart, hOffset⟩ := hAccepts
  have hWhole : (response.content.map Part.raw)[cursor.part]? = some part.raw := by
    rw [List.getElem?_map, hPart]
    rfl
  refine Paging.cursor_induction (motive := fun i offset => ∀ part,
    response.content[i]? = some part → Boundary part.raw offset → ∀ n,
      ∃ pages, Walk (fetch digest turns (source digest response turn step workerId) requestId
        workerId) n ⟨i, offset⟩ pages) ?_ cursor.part cursor.offset part.raw hWhole hOffset.1
      part hPart hOffset n
  intro i offset whole hRaw hBound hNextPart hNextOffset part hPart hOffset n
  have hSame : part.raw = whole := by
    rw [List.getElem?_map, hPart] at hRaw
    exact Option.some.inj hRaw
  have hHere : response.content[(Cursor.mk i offset).part]? = some part := hPart
  have hBoundary : Boundary part.raw (Cursor.mk i offset).offset := hOffset
  have hPage : fetch digest turns (source digest response turn step workerId) requestId workerId n
      ⟨i, offset⟩ = .ok (pageFrom requestId (source digest response turn step workerId)
        response.content i part offset) :=
    fetch_eq hCommitted hTextual hId hStands n hHere hBoundary
  have hFollow := follow_pageFrom requestId (source digest response turn step workerId)
    response.content ⟨i, offset⟩ part
  obtain ⟨hStop, hLower, hForward⟩ := pageFrom_stop hTextual hHere hBoundary
  cases hDone : (pageFrom requestId (source digest response turn step workerId)
      response.content i part offset).done with
  | true => exact ⟨_, .last hPage hDone⟩
  | false =>
    obtain ⟨next, hNext, hNextBoundary⟩ := accepts_follow hTextual hHere hBoundary hDone
    dsimp only at hFollow hStop hLower hForward hNext hNextBoundary
    rw [hFollow] at hNext hNextBoundary
    have hRest : ∃ rest, Walk (fetch digest turns (source digest response turn step workerId)
        requestId workerId) (n + 1) (pageFrom requestId
          (source digest response turn step workerId) response.content i part offset).follow
        rest := by
      rw [hFollow]
      by_cases hEnd : pageEnd part.raw offset = part.raw.length
      · rw [if_pos hEnd] at hNext hNextBoundary ⊢
        have hBelow := (List.getElem?_eq_some_iff.mp hNext).1
        exact hNextPart (by rw [List.length_map]; exact hBelow) next hNext hNextBoundary (n + 1)
      · rw [if_neg hEnd] at hNext hNextBoundary ⊢
        have hBelow := hStop.1
        exact hNextOffset _ (hForward (by omega)) (by rw [← hSame]; omega) next hNext
          hNextBoundary (n + 1)
    obtain ⟨rest, hRest⟩ := hRest
    exact ⟨_, .more hPage hDone hRest⟩

theorem walk_delivered (hCommitted : response.commitSequence ≠ 0) (hParts : response.content ≠ [])
    (hTextual : Textual response.content) (hId : requestId ≠ "" ∧ requestId.utf8ByteSize ≤ 128)
    (hStands : ∀ n, committedAt (turns n) turn step = some response)
    (hWalk : Walk (fetch digest turns (source digest response turn step workerId) requestId workerId) 0 ⟨0, 0⟩ pages) :
    Delivered response.content pages := by
  have hFirst : 0 < response.content.length := List.length_pos_iff.mpr hParts
  have hAccepts : Accepts response.content ⟨0, 0⟩ :=
    ⟨response.content[0], List.getElem?_eq_getElem hFirst,
      boundary_zero hTextual (List.getElem_mem hFirst)⟩
  have hReading := walk_reading hCommitted hTextual hId hStands hAccepts hWalk
  have hPages := walk_pages hCommitted hTextual hId hStands hAccepts hWalk
  refine ⟨?_, ?_, hReading.ascending, ?_, walk_done hWalk⟩
  · intro i part hPart
    have hWhole : (response.content.map Part.raw)[i]? = some part.raw := by
      rw [List.getElem?_map, hPart]
      rfl
    have hReceived := hReading.received i hWhole (Nat.zero_le i)
    rw [List.drop_zero, ite_self] at hReceived
    obtain ⟨chunk, hMem, hChunk⟩ := hReading.visited (Nat.zero_le i)
      (List.getElem?_eq_some_iff.mp hWhole).1
    obtain ⟨page, hPage, rfl⟩ := List.mem_map.mp hMem
    exact ⟨hReceived, page, hPage, hChunk⟩
  · intro page hMem
    obtain ⟨here, part, hPart, hOffset, rfl⟩ := hPages page hMem
    exact ⟨part, hPart, rfl⟩
  · intro page hMem
    obtain ⟨here, part, hPart, hOffset, rfl⟩ := hPages page hMem
    obtain ⟨hStop, hLower, hForward⟩ := pageFrom_stop hTextual hPart hOffset
    rw [follow_pageFrom]
    by_cases hEnd : pageEnd part.raw here.offset = part.raw.length
    · rw [if_pos hEnd]
      exact .inr (.inl (Nat.lt_succ_self here.part))
    · rw [if_neg hEnd]
      have hBelow := hStop.1
      exact .inr (.inr ⟨rfl, hForward (by omega)⟩)

end Walk

/-! ## The query of a response that is gone -/

theorem answerPage_refuses (hDigest : Function.Injective digest) {response : Committed}
    {turn step : UInt64} (hGone : committedAt turns turn step ≠ some response) {query : Json}
    {request : PayloadRequest} (hDecode : PayloadRequest.decode query = .ok request)
    {workerId asked : String}
    (hSource : request.source = some (source digest response turn step workerId)) :
    ∃ message, answerPage digest turns query asked = .error message := by
  have hResolve : ∀ found,
      (source digest response turn step workerId).resolve digest turns ≠ .ok found :=
    fun found hFound => hGone (resolve_source hDigest hFound).1
  unfold answerPage
  rw [hDecode]
  cases hLocator : request.locator asked with
  | error message => exact ⟨message, by simp only [bind, Except.bind, hLocator]⟩
  | ok locator =>
    have hSame : locator = source digest response turn step workerId := by
      unfold PayloadRequest.locator at hLocator
      rw [hSource] at hLocator
      dsimp only at hLocator
      split_ifs at hLocator
      exact (Except.ok.inj hLocator).symm
    subst hSame
    cases hFound : (source digest response turn step workerId).resolve digest turns with
    | ok found => exact absurd hFound (hResolve found)
    | error message => exact ⟨message, by simp only [bind, Except.bind, hLocator, hFound]⟩

/-- A client that follows the cursors through a committed textual answer of at least one
part has one walk, whatever else changes in the conversation meanwhile, and it delivers the
answer. Once another response stands at the position, or none, or one with another commit
sequence or content, every query with the locator is refused. -/
theorem answer_pages (digest : List UInt8 → List UInt8) :
    (∀ (response : Committed) (turn step : UInt64) (workerId requestId : String)
      (turns : Nat → Turns), response.commitSequence ≠ 0 → response.content ≠ [] →
      Textual response.content → requestId ≠ "" → requestId.utf8ByteSize ≤ 128 →
      (∀ n, committedAt (turns n) turn step = some response) →
      ∃ pages, Delivered response.content pages ∧
        ∀ pages', Walk (fetch digest turns (source digest response turn step workerId) requestId
          workerId) 0 ⟨0, 0⟩ pages' ↔ pages' = pages) ∧
    (Function.Injective digest →
      ∀ (response : Committed) (turn step : UInt64) (workerId asked : String) (turns : Turns)
        (query : Json) (request : PayloadRequest),
        PayloadRequest.decode query = .ok request →
        request.source = some (source digest response turn step workerId) →
        committedAt turns turn step ≠ some response →
        ∃ message, answerPage digest turns query asked = .error message) := by
  constructor
  · intro response turn step workerId requestId turns hCommitted hParts hTextual hName hLength
      hStands
    have hFirst : 0 < response.content.length := List.length_pos_iff.mpr hParts
    have hAccepts : Accepts response.content ⟨0, 0⟩ :=
      ⟨response.content[0], List.getElem?_eq_getElem hFirst,
        boundary_zero hTextual (List.getElem_mem hFirst)⟩
    obtain ⟨pages, hWalk⟩ : ∃ pages, Walk (fetch digest turns
        (source digest response turn step workerId) requestId workerId) 0 ⟨0, 0⟩ pages :=
      walk_exists hCommitted hTextual ⟨hName, hLength⟩ hStands hAccepts 0
    refine ⟨pages, walk_delivered hCommitted hParts hTextual ⟨hName, hLength⟩ hStands hWalk,
      fun pages' => ⟨walk_unique hWalk, ?_⟩⟩
    rintro rfl
    exact hWalk
  · intro hDigest response turn step workerId asked turns query request hDecode hSource hGone
    exact answerPage_refuses hDigest hGone hDecode hSource

/-- A response of tool calls alone. -/
def silent : Committed := { commitSequence := 1, content := [], fits := by decide }

/-- The cursor every client starts with is refused for it. -/
theorem silent_refused : silent.commitSequence ≠ 0 ∧ Textual silent.content ∧
      committedAt [[silent]] 0 0 = some silent ∧
      fetch id (fun _ => [[silent]]) (source id silent 0 0 "w") "q" "w" 0 ⟨0, 0⟩ =
        .error "answer part is unavailable" := by
  refine ⟨by decide, by simp [Textual, silent], by decide, ?_⟩
  unfold fetch
  rw [answerPage_query (by decide) (by decide) (by decide) (by decide)
    (by decide)]
  rfl

def letter : Committed where
  commitSequence := 2
  content := [⟨.text, .text, [97], by decide⟩, ⟨.text, .text, [], by decide⟩]
  fits := by decide

theorem letter_textual : Textual letter.content := by
  intro part hMem
  simp only [letter, List.mem_cons, List.not_mem_nil, or_false] at hMem
  rcases hMem with rfl | rfl
  · exact ⟨by decide, ['a'], by decide⟩
  · exact ⟨by decide, [], rfl⟩

theorem answer_pages_letter : (∃ pages, Delivered letter.content pages ∧
      ∀ pages', Walk (fetch id (fun _ => [[letter]]) (source id letter 0 0 "w") "q" "w") 0 ⟨0, 0⟩
        pages' ↔ pages' = pages) ∧
    ∃ message, answerPage id [[silent]] (answerQuery "q" (source id letter 0 0 "w") ⟨1, 0⟩) "w" =
      .error message :=
  ⟨(answer_pages id).1 letter 0 0 "w" "q" (fun _ => [[letter]]) (by decide) (by decide)
      letter_textual (by decide) (by decide) (fun _ => by decide),
    (answer_pages id).2 Function.injective_id letter 0 0 "w" "w" [[silent]] _ _
      (decode_answerQuery "q" (source id letter 0 0 "w") ⟨1, 0⟩) rfl (by decide)⟩

end SimplexAgent.Core.AnswerPage
