import SimplexAgent.Fileio.StagedReplace
import SimplexAgent.Textedit.Display

/-!
# The probe for UTF-8 text

`textedit/utf8_probe.cpp` with the read of `fileio/read_prefix.cpp` below it: the first bytes
of a file are tested for control characters and for sequences that encode no character. A
sequence that the end of the sample cuts is not held against the file.

Where a sequence is cut, `completion` goes on with bytes that the test accepts. So the test
accepts the beginning of a sequence exactly if it is the beginning of a character, and what the
probe reports can be said without the test: the text at the front of the sample, and what
follows it.
-/

namespace SimplexAgent.Textedit

open Verified Fileio

/-! ## The read -/

/-- The loop of `read_prefix`, with the answers to its calls: what is left of the file, and how
many bytes are still wanted. When the answers are used up, calls transfer all that is asked. -/
def readPrefixLoop : List Reply → List UInt8 → Nat → Option (List UInt8)
  | _, _, 0 => some []
  | [], content, want + 1 => some (content.take (want + 1))
  | .interrupted :: rest, content, want + 1 => readPrefixLoop rest content (want + 1)
  | .failed :: _, _, _ + 1 => none
  | .transfers more :: rest, content, want + 1 =>
    let received := min (min (more + 1) (min (want + 1) 8192)) content.length
    if received = 0 then some []
    else (readPrefixLoop rest (content.drop received) (want + 1 - received)).map
      (content.take received ++ ·)

theorem readPrefixLoop_eq {replies : List Reply} {content bytes : List UInt8} {want : Nat}
    (h : readPrefixLoop replies content want = some bytes) : bytes = content.take want := by
  induction replies generalizing content bytes want with
  | nil =>
    cases want with
    | zero | succ want => simpa [readPrefixLoop] using h.symm
  | cons reply rest ih =>
    cases want with
    | zero => simpa [readPrefixLoop] using h.symm
    | succ want =>
      cases reply with
      | interrupted => exact ih h
      | failed => cases h
      | transfers more =>
        unfold readPrefixLoop at h
        dsimp only at h
        generalize hReceived :
          min (min (more + 1) (min (want + 1) 8192)) content.length = received at h
        split at h
        · rename_i hNone
          have hEmpty : content = [] := by
            apply List.length_eq_zero_iff.mp
            omega
          rw [hEmpty, List.take_nil]
          exact (Option.some.inj h).symm
        · obtain ⟨after, hAfter, rfl⟩ := Option.map_eq_some_iff.mp h
          have hWant : want + 1 = received + (want + 1 - received) := by omega
          rw [ih hAfter, hWant, List.take_add, Nat.add_sub_cancel_left]

/-- A regular file that can be opened, with its content, or why it cannot be read. -/
inductive ProbedFile where
  | regular (content : List UInt8)
  | unreadable (code : String)

/-! ## The test -/

inductive Utf8TextLikelihood where
  | likely
  | unlikely
  | unknown
  deriving DecidableEq

structure Utf8ProbeResult where
  likelihood : Utf8TextLikelihood := .unknown
  sampledBytes : Nat := 0
  truncated : Bool := false
  incompleteSuffix : Bool := false
  invalidUtf8Offset : Option Nat := none
  suspiciousControlBytes : Nat := 0
  error : Option String := none
  deriving DecidableEq

def suspiciousControl (byte : UInt8) : Bool :=
  (byte < 0x20 && byte != 0x09 && byte != 0x0a && byte != 0x0d && byte != 0x0c) || byte == 0x7f

/-- The loop of `inspect_prefix` over the sequences, from an offset on. -/
def inspectFrom (offset : Nat) (bytes : List UInt8) (result : Utf8ProbeResult) :
    Utf8ProbeResult :=
  match bytes with
  | [] => result
  | first :: rest =>
    if first < 0x80 then inspectFrom (offset + 1) rest result
    else
      match leadWidth first with
      | none => { result with invalidUtf8Offset := some offset }
      | some width =>
        if continues first 1 (width - 1) rest = false then
          { result with invalidUtf8Offset := some offset }
        else if rest.length + 1 < width then
          if result.truncated = true then { result with incompleteSuffix := true }
          else { result with invalidUtf8Offset := some offset }
        else inspectFrom (offset + width) (rest.drop (width - 1)) result
termination_by bytes.length
decreasing_by
  · exact Nat.lt_succ_self _
  · rw [List.length_drop, List.length_cons]
    omega

/-- `inspect_prefix`. -/
def inspectPrefix (bytes : List UInt8) (result : Utf8ProbeResult) : Utf8ProbeResult :=
  let inspected := inspectFrom 0 bytes { result with
    suspiciousControlBytes := result.suspiciousControlBytes + bytes.countP suspiciousControl }
  { inspected with likelihood :=
      if inspected.invalidUtf8Offset.isSome = true ∨ inspected.suspiciousControlBytes ≠ 0 then
        .unlikely
      else .likely }

/-- `probe_utf8_file`; `none` is the exception for a sample size that is out of range. -/
def probeUtf8File (path : List Char) (file : ProbedFile) (replies : List Reply)
    (sampleBytes : Nat) : Option Utf8ProbeResult :=
  if sampleBytes = 0 ∨ 1024 * 1024 < sampleBytes then none
  else if '\x00' ∈ path then some { error := some "invalid_argument" }
  else
    match file with
    | .unreadable code => some { error := some code }
    | .regular content =>
      match readPrefixLoop replies content (sampleBytes + 1) with
      | none => some { error := some "read file prefix" }
      | some bytes =>
        let truncated := sampleBytes < bytes.length
        let sampled := if truncated then sampleBytes else bytes.length
        some (inspectPrefix (bytes.take sampled)
          { truncated := decide truncated, sampledBytes := sampled })

/-! ## Sequences that are cut -/

variable {rest : List UInt8} {first : UInt8}

/-- A byte that may stand at this place. -/
def filler (first : UInt8) (index : Nat) : UInt8 :=
  if index = 1 ∧ first = 0xe0 then 0xa0 else if index = 1 ∧ first = 0xf0 then 0x90 else 0x80

/-- The bytes from this place on, and as many more as are missing. -/
def completion (first : UInt8) (index : Nat) : Nat → List UInt8 → List UInt8
  | 0, _ => []
  | n + 1, [] => filler first index :: completion first (index + 1) n []
  | n + 1, byte :: rest => byte :: completion first (index + 1) n rest

theorem breaksScalar_filler (first : UInt8) (index : Nat) :
    breaksScalar first index (filler first index) = false := by
  unfold breaksScalar filler
  split_ifs with hThree hFour
  · simp [hThree.1, hThree.2]
  · simp [hFour.1, hFour.2]
  · simp
    tauto

theorem length_completion (first : UInt8) (index n : Nat) (rest : List UInt8) :
    (completion first index n rest).length = n := by
  induction n generalizing index rest with
  | zero => rfl
  | succ n ih => cases rest <;> simp [completion, ih]

theorem prefix_completion {index n : Nat} (h : rest.length ≤ n) :
    rest <+: completion first index n rest := by
  induction n generalizing index rest with
  | zero =>
    rw [List.length_eq_zero_iff.mp (Nat.le_zero.mp h)]
    exact List.nil_prefix
  | succ n ih =>
    cases rest with
    | nil => exact List.nil_prefix
    | cons byte rest =>
      exact List.cons_prefix_cons.mpr ⟨rfl, ih (Nat.le_of_succ_le_succ h)⟩

theorem continues_completion (first : UInt8) (index n : Nat) (rest : List UInt8) :
    continues first index n (completion first index n rest) = continues first index n rest := by
  induction n generalizing index rest with
  | zero => rfl
  | succ n ih =>
    cases rest with
    | nil =>
      have hNil : continues first (index + 1) n [] = true := by cases n <;> rfl
      show (!breaksScalar first index (filler first index) &&
        continues first (index + 1) n (completion first (index + 1) n [])) = true
      rw [breaksScalar_filler, ih, hNil]
      rfl
    | cons byte rest => rw [completion, continues, continues, ih]

theorem cutChar_of_continues {width : Nat} (hLead : leadWidth first = some width)
    (hContinues : continues first 1 (width - 1) rest = true) (hShort : rest.length + 1 < width) :
    Utf8Display.CutChar (first :: rest) := by
  have hLength := length_completion first 1 (width - 1) rest
  have hValid : validScalar first (completion first 1 (width - 1) rest) = true := by
    unfold validScalar
    rw [hLead]
    simp only [continues_completion, hContinues, hLength, Bool.and_true, Bool.or_eq_true,
      decide_eq_true_eq]
    omega
  obtain ⟨c, hTake, -⟩ := exists_char_of_validScalar hValid
  have hWidth : scalarWidth first = width := by rw [scalarWidth, hLead]; rfl
  have hAll : (first :: completion first 1 (width - 1) rest).take width =
      first :: completion first 1 (width - 1) rest := by
    apply List.take_of_length_le
    rw [List.length_cons]
    omega
  rw [hWidth, hAll] at hTake
  have hPrefix : rest <+: completion first 1 (width - 1) rest := prefix_completion (by omega)
  obtain ⟨more, hMore⟩ := hPrefix
  refine ⟨c, more, ?_, by rw [← hTake, ← hMore]; rfl⟩
  intro hNil
  rw [hNil, List.append_nil] at hMore
  rw [← hMore] at hLength
  omega

theorem continues_of_encode {c : Char} {rest more : List UInt8}
    (h : String.utf8EncodeChar c = first :: (rest ++ more)) (hHigh : ¬first < 0x80) :
    ∃ width, leadWidth first = some width ∧ continues first 1 (width - 1) rest = true ∧
      (rest ++ more).length + 1 = width := by
  have hValid : validScalar first (rest ++ more) = true := by
    cases hTest : validScalar first (rest ++ more) with
    | true => rfl
    | false => exact absurd (h ▸ List.prefix_rfl) (no_char_of_not_validScalar hTest c)
  obtain ⟨d, hTake, hLength⟩ := exists_char_of_validScalar hValid
  have hSame : String.utf8EncodeChar c = String.utf8EncodeChar d := by
    have hWhole : String.utf8EncodeChar c <+: first :: (rest ++ more) := h ▸ List.prefix_rfl
    have hFront : String.utf8EncodeChar d <+: first :: (rest ++ more) := by
      rw [← hTake]
      exact List.take_prefix _ _
    exact Utf8Display.encode_unique_front hWhole hFront
  rw [← hSame, h, List.length_cons, scalarWidth] at hLength
  unfold validScalar at hValid
  cases hLead : leadWidth first with
  | none => simp [hLead, hHigh] at hValid
  | some width =>
    simp only [hLead, hHigh, decide_false, Bool.false_or, Bool.and_eq_true] at hValid
    refine ⟨width, rfl, ?_, by rw [hLead] at hLength; exact hLength⟩
    by_contra hBroken
    rw [continues_eq, Bool.not_eq_true] at hBroken
    have hAppend := Tools.validFrom_append first 1 (width - 1) rest more hBroken
    rw [← continues_eq, hValid.2] at hAppend
    cases hAppend

/-! ## What the loop reports -/

/-- What the loop over the sequences finds: the text at the front, and after it nothing, the
beginning of a character at the end of a sample that goes on, or bytes that are malformed. -/
inductive Inspected (offset : Nat) (bytes : List UInt8) (result : Utf8ProbeResult) :
    Utf8ProbeResult → Prop where
  | text (text : List Char) (hBytes : bytes = Utf8.encode text) :
      Inspected offset bytes result result
  | cut (text : List Char) (tail : List UInt8) (hBytes : bytes = Utf8.encode text ++ tail)
      (hMore : tail ≠ []) (hNone : ∀ c, ¬String.utf8EncodeChar c <+: tail)
      (hCut : Utf8Display.CutChar tail) (hTruncated : result.truncated = true) :
      Inspected offset bytes result { result with incompleteSuffix := true }
  | malformed (text : List Char) (tail : List UInt8) (hBytes : bytes = Utf8.encode text ++ tail)
      (hMore : tail ≠ []) (hNone : ∀ c, ¬String.utf8EncodeChar c <+: tail)
      (hCut : Utf8Display.CutChar tail → result.truncated = false) :
      Inspected offset bytes result
        { result with invalidUtf8Offset := some (offset + (Utf8.encode text).length) }

theorem Inspected.char (c : Char) {offset : Nat} {bytes : List UInt8}
    {result inspected : Utf8ProbeResult}
    (h : Inspected (offset + (String.utf8EncodeChar c).length) bytes result inspected) :
    Inspected offset (String.utf8EncodeChar c ++ bytes) result inspected := by
  cases h with
  | text text hBytes => exact .text (c :: text) (by rw [hBytes, Utf8.encode_cons])
  | cut text tail hBytes hMore hNone hCut hTruncated =>
    exact .cut (c :: text) tail (by rw [hBytes, Utf8.encode_cons, List.append_assoc]) hMore hNone
      hCut hTruncated
  | malformed text tail hBytes hMore hNone hCut =>
    rw [Nat.add_assoc, ← List.length_append, ← Utf8.encode_cons]
    exact .malformed (c :: text) tail (by rw [hBytes, Utf8.encode_cons, List.append_assoc]) hMore
      hNone hCut

theorem Inspected.refused {offset : Nat} (result : Utf8ProbeResult) (hHigh : ¬first < 0x80)
    (h : ∀ width, leadWidth first = some width → continues first 1 (width - 1) rest = false) :
    Inspected offset (first :: rest) result { result with invalidUtf8Offset := some offset } := by
  refine .malformed [] (first :: rest) rfl (by simp) ?_ ?_
  · rintro c ⟨after, hAfter⟩
    cases hBytes : String.utf8EncodeChar c with
    | nil => exact Utf8Display.encode_ne_nil c hBytes
    | cons a more =>
      rw [hBytes, List.cons_append] at hAfter
      obtain ⟨rfl, rfl⟩ := List.cons.inj hAfter
      have hWhole : String.utf8EncodeChar c = a :: (more ++ []) := by rw [List.append_nil, hBytes]
      obtain ⟨width, hLead, hContinues, hWidth⟩ := continues_of_encode hWhole hHigh
      have hMore := h width hLead
      rw [continues_eq] at hContinues hMore
      rw [List.append_nil] at hWidth
      rw [Tools.validFrom_append_of_length _ _ _ _ _ (by omega), hContinues] at hMore
      cases hMore
  · rintro ⟨c, more, -, hChar⟩
    obtain ⟨width, hLead, hContinues, -⟩ := continues_of_encode hChar hHigh
    rw [h width hLead] at hContinues
    cases hContinues

theorem Inspected.sequence {offset : Nat} {result inspected : Utf8ProbeResult}
    (hValid : validScalar first rest = true)
    (h : Inspected (offset + scalarWidth first) (rest.drop (scalarWidth first - 1)) result inspected) :
    Inspected offset (first :: rest) result inspected := by
  obtain ⟨c, hTake, hLength⟩ := exists_char_of_validScalar hValid
  have hPos : 0 < scalarWidth first := by
    rw [← hLength]
    exact List.length_pos_iff.mpr (Utf8Display.encode_ne_nil c)
  have hSplit : first :: rest = String.utf8EncodeChar c ++ rest.drop (scalarWidth first - 1) := by
    obtain ⟨k, hk⟩ : ∃ k, scalarWidth first = k + 1 := ⟨scalarWidth first - 1, by omega⟩
    rw [← hTake, hk, Nat.add_sub_cancel, List.take_succ_cons, List.cons_append,
      List.take_append_drop]
  rw [hSplit]
  apply Inspected.char
  rw [hLength]
  exact h

theorem inspectFrom_spec (offset : Nat) (bytes : List UInt8) (result : Utf8ProbeResult) :
    Inspected offset bytes result (inspectFrom offset bytes result) := by
  induction hSize : bytes.length using Nat.strongRecOn generalizing offset bytes with
  | _ n ih =>
    cases bytes with
    | nil =>
      rw [inspectFrom.eq_def]
      exact .text [] rfl
    | cons first rest =>
      rw [List.length_cons] at hSize
      rw [inspectFrom.eq_def]
      dsimp only
      split
      · rename_i hAscii
        have hWidth : scalarWidth first = 1 := by rw [scalarWidth, leadWidth_ascii hAscii]; rfl
        refine .sequence (by simp [validScalar, hAscii]) ?_
        rw [hWidth]
        exact ih _ (by omega) _ rest rfl
      rename_i hHigh
      split
      · rename_i hLead
        refine .refused result hHigh ?_
        intro width hSome
        rw [hLead] at hSome
        cases hSome
      rename_i width hLead
      split
      · rename_i hBroken
        refine .refused result hHigh ?_
        intro other hSome
        rw [hLead] at hSome
        cases hSome
        exact hBroken
      rename_i hUnbroken
      have hContinues : continues first 1 (width - 1) rest = true := by simpa using hUnbroken
      split
      · rename_i hShort
        have hCut := cutChar_of_continues hLead hContinues hShort
        have hInvalid : validScalar first rest = false := by
          simp only [validScalar, hHigh, hLead, decide_false, Bool.false_or,
            Bool.and_eq_false_iff, decide_eq_false_iff_not]
          left
          omega
        have hNone := no_char_of_not_validScalar hInvalid
        split
        · rename_i hTruncated
          exact .cut [] (first :: rest) rfl (by simp) hNone hCut hTruncated
        · rename_i hWhole
          exact .malformed [] (first :: rest) rfl (by simp) hNone fun _ => by simpa using hWhole
      · rename_i hLong
        have hWidth : scalarWidth first = width := by rw [scalarWidth, hLead]; rfl
        have hValid : validScalar first rest = true := by
          simp only [validScalar, hLead, hContinues, Bool.and_true, Bool.or_eq_true,
            decide_eq_true_eq]
          omega
        refine .sequence hValid ?_
        rw [hWidth]
        exact ih _ (by rw [List.length_drop]; omega) _ _ rfl

/-! ## What the probe reports -/

def MalformedAt (sample : List UInt8) (truncated : Bool) (offset : Nat) : Prop :=
  ∃ text tail, sample = Utf8.encode text ++ tail ∧ (Utf8.encode text).length = offset ∧
    tail ≠ [] ∧ (∀ c, ¬String.utf8EncodeChar c <+: tail) ∧
    ¬(truncated = true ∧ Utf8Display.CutChar tail)

/-- The sample ends inside of a character, whatever stands before it. -/
def CutInside (sample : List UInt8) : Prop :=
  ∃ before tail, sample = before ++ tail ∧ tail ≠ [] ∧ Utf8Display.CutChar tail

def EndsInside (sample : List UInt8) : Prop :=
  ∃ text tail, sample = Utf8.encode text ++ tail ∧ tail ≠ [] ∧ Utf8Display.CutChar tail

theorem no_char_of_cutChar {tail : List UInt8} (h : Utf8Display.CutChar tail) (c : Char) :
    ¬String.utf8EncodeChar c <+: tail := by
  intro hBegins
  obtain ⟨d, more, hMore, hChar⟩ := h
  have hInside : tail <+: String.utf8EncodeChar d := ⟨more, hChar.symm⟩
  have hSame := Utf8Display.wellFormed_unique (Utf8Display.wellFormed_encode c)
    (Utf8Display.wellFormed_encode d) (hBegins.trans hInside)
  have hShort := hBegins.length_le
  rw [hSame, hChar, List.length_append] at hShort
  exact hMore (List.length_eq_zero_iff.mp (by omega))

theorem malformedAt_iff (text : List Char) {tail : List UInt8}
    (hNone : ∀ c, ¬String.utf8EncodeChar c <+: tail) (truncated : Bool) (offset : Nat) :
    MalformedAt (Utf8.encode text ++ tail) truncated offset ↔
      (Utf8.encode text).length = offset ∧ tail ≠ [] ∧
        ¬(truncated = true ∧ Utf8Display.CutChar tail) := by
  constructor
  · rintro ⟨text', tail', hBytes, hOffset, hMore, hNone', hCut⟩
    obtain ⟨hText, hTail⟩ := Utf8Display.encode_front_unique hNone hNone' hBytes
    rw [hText, hTail]
    exact ⟨hOffset, hMore, hCut⟩
  · intro ⟨hOffset, hMore, hCut⟩
    exact ⟨text, tail, rfl, hOffset, hMore, hNone, hCut⟩

theorem endsInside_iff (text : List Char) {tail : List UInt8}
    (hNone : ∀ c, ¬String.utf8EncodeChar c <+: tail) :
    EndsInside (Utf8.encode text ++ tail) ↔ tail ≠ [] ∧ Utf8Display.CutChar tail := by
  constructor
  · rintro ⟨text', tail', hBytes, hMore, hCut⟩
    obtain ⟨-, hTail⟩ := Utf8Display.encode_front_unique hNone (no_char_of_cutChar hCut) hBytes
    rw [hTail]
    exact ⟨hMore, hCut⟩
  · intro ⟨hMore, hCut⟩
    exact ⟨text, tail, rfl, hMore, hCut⟩

theorem not_cutInside_of_encode (text : List Char) : ¬CutInside (Utf8.encode text) := by
  rintro ⟨before, tail, hBytes, hMore, hCut⟩
  obtain ⟨d, more, -, hChar⟩ := id hCut
  have hStart : ∀ byte, (Utf8.encode text)[before.length]? = some byte →
      Utf8.isContinuation byte = false := by
    intro byte hByte
    obtain ⟨first, rest, rfl⟩ := List.exists_cons_of_ne_nil hMore
    rw [hBytes, List.getElem?_append_right (Nat.le_refl _), Nat.sub_self] at hByte
    refine (Utf8.aligned_zero [d]).start byte ?_
    rw [Utf8.encode_cons, hChar]
    exact hByte
  have hLe : before.length ≤ (Utf8.encode text).length := by
    rw [hBytes, List.length_append]
    omega
  obtain ⟨front, back, rfl, hLength⟩ := Utf8.aligned_of_not_continuation hLe hStart
  rw [Utf8.encode_append] at hBytes
  obtain ⟨-, hTail⟩ := List.append_inj hBytes hLength
  cases back with
  | nil => exact hMore hTail.symm
  | cons c back =>
    refine no_char_of_cutChar hCut c ⟨Utf8.encode back, ?_⟩
    rw [← hTail, Utf8.encode_cons]

theorem endsInside_iff_cutInside (sample : List UInt8) :
    EndsInside sample ↔ CutInside sample ∧ ∀ offset, ¬MalformedAt sample true offset := by
  constructor
  · rintro ⟨text, tail, rfl, hMore, hCut⟩
    refine ⟨⟨_, tail, rfl, hMore, hCut⟩, fun offset hMalformed => ?_⟩
    exact ((malformedAt_iff text (no_char_of_cutChar hCut) true offset).mp hMalformed).2.2
      ⟨rfl, hCut⟩
  · intro ⟨hCutInside, hClean⟩
    have hLoop := inspectFrom_spec 0 sample { truncated := true }
    generalize inspectFrom 0 sample _ = inspected at hLoop
    cases hLoop with
    | text text hBytes => exact absurd hCutInside (hBytes ▸ not_cutInside_of_encode text)
    | cut text tail hBytes hMore hNone hCut hTruncated => exact ⟨text, tail, hBytes, hMore, hCut⟩
    | malformed text tail hBytes hMore hNone hCut =>
      refine absurd ⟨text, tail, hBytes, rfl, hMore, hNone, ?_⟩ (hClean _)
      rintro ⟨-, hTail⟩
      cases hCut hTail

/-- What `inspect_prefix` reports about a sample. -/
structure Reported (sample : List UInt8) (truncated : Bool) (result : Utf8ProbeResult) : Prop where
  sampledBytes : result.sampledBytes = sample.length
  truncated_eq : result.truncated = truncated
  invalid : ∀ offset, result.invalidUtf8Offset = some offset ↔ MalformedAt sample truncated offset
  incomplete : result.incompleteSuffix = true ↔ truncated = true ∧ EndsInside sample
  controls : result.suspiciousControlBytes = sample.countP suspiciousControl
  likelihood : result.likelihood =
    if result.invalidUtf8Offset.isSome = true ∨ result.suspiciousControlBytes ≠ 0 then .unlikely
    else .likely

theorem inspectPrefix_spec (sample : List UInt8) (truncated : Bool) :
    Reported sample truncated (inspectPrefix sample
      { truncated := truncated, sampledBytes := sample.length }) := by
  have hLoop := inspectFrom_spec 0 sample
    { truncated := truncated, sampledBytes := sample.length
      suspiciousControlBytes := 0 + sample.countP suspiciousControl }
  unfold inspectPrefix
  dsimp only
  generalize inspectFrom 0 sample _ = inspected at hLoop
  cases hLoop with
  | text text hBytes =>
    have hNil : ∀ c, ¬String.utf8EncodeChar c <+: [] := fun c hBegins =>
      Utf8Display.encode_ne_nil c (List.prefix_nil.mp hBegins)
    have hMalformed := malformedAt_iff text hNil truncated
    have hInside := endsInside_iff text hNil
    rw [List.append_nil, ← hBytes] at hMalformed hInside
    exact ⟨rfl, rfl, by simp [hMalformed], by simp [hInside], Nat.zero_add _, rfl⟩
  | cut text tail hBytes hMore hNone hCut hTruncated =>
    have hMalformed := malformedAt_iff text hNone truncated
    have hInside := endsInside_iff text hNone
    rw [← hBytes] at hMalformed hInside
    have hTruncated' : truncated = true := hTruncated
    refine ⟨rfl, rfl, ?_, ?_, Nat.zero_add _, rfl⟩
    · intro offset
      rw [hMalformed]
      simp [hCut, hTruncated']
    · rw [hInside]
      simp [hCut, hMore, hTruncated']
  | malformed text tail hBytes hMore hNone hCut =>
    have hMalformed := malformedAt_iff text hNone truncated
    have hInside := endsInside_iff text hNone
    rw [← hBytes] at hMalformed hInside
    have hCut' : ¬(truncated = true ∧ Utf8Display.CutChar tail) := by
      rintro ⟨hTruncated, hTail⟩
      have hWhole : truncated = false := hCut hTail
      rw [hTruncated] at hWhole
      cases hWhole
    refine ⟨rfl, rfl, ?_, ?_, Nat.zero_add _, rfl⟩
    · intro offset
      rw [hMalformed]
      simp [hMore, hCut']
    · rw [hInside]
      simp only [Bool.false_eq_true, false_iff]
      rintro ⟨hTruncated, -, hTail⟩
      exact hCut' ⟨hTruncated, hTail⟩

theorem not_malformedAt_of_encode {text : List Char} {limit offset : Nat} :
    ¬MalformedAt ((Utf8.encode text).take limit) (decide (limit < (Utf8.encode text).length))
      offset := by
  rintro ⟨front, tail, hSample, -, hMore, hNone, hCut⟩
  have hSplit : Utf8.encode text =
      Utf8.encode front ++ (tail ++ (Utf8.encode text).drop limit) := by
    rw [← List.append_assoc, ← hSample, List.take_append_drop]
  obtain ⟨hInside, hAfter⟩ := Utf8Display.cutChar_of_encode hSplit hMore hNone
  refine hCut ⟨?_, hInside⟩
  have hLeft := List.length_pos_iff.mpr hAfter
  rw [List.length_drop] at hLeft
  simp only [decide_eq_true_eq]
  omega

/-- What the probe reports about a file it could read: the offset of the first malformed
sequence of the sample, and for a text without control characters that it is likely text,
wherever the sample ends. **That the sample ends inside of a character it reports exactly if no
malformed sequence stands before that character.** -/
theorem probeUtf8File_exact {path : List Char} {file : ProbedFile} {replies : List Reply}
    {sampleBytes : Nat} {result : Utf8ProbeResult}
    (h : probeUtf8File path file replies sampleBytes = some result) (hRead : result.error = none) :
    ∃ content, file = .regular content ∧ result.sampledBytes = min sampleBytes content.length ∧
      (result.truncated = true ↔ sampleBytes < content.length) ∧
      (∀ offset, result.invalidUtf8Offset = some offset ↔
        MalformedAt (content.take sampleBytes) result.truncated offset) ∧
      ((result.incompleteSuffix = true ↔
          sampleBytes < content.length ∧ CutInside (content.take sampleBytes)) ↔
        (sampleBytes < content.length → CutInside (content.take sampleBytes) →
          ∀ offset, ¬MalformedAt (content.take sampleBytes) true offset)) ∧
      (result.likelihood = .unlikely ↔ (∃ offset, result.invalidUtf8Offset = some offset) ∨
        ∃ byte ∈ content.take sampleBytes, suspiciousControl byte = true) ∧
      ((∃ text, content = Utf8.encode text) →
        (∀ byte ∈ content.take sampleBytes, suspiciousControl byte = false) →
          result.likelihood = .likely) := by
  unfold probeUtf8File at h
  split at h
  · cases h
  split at h
  · cases h
    cases hRead
  cases file with
  | unreadable code =>
    cases h
    cases hRead
  | regular content =>
    dsimp only at h
    cases hLoop : readPrefixLoop replies content (sampleBytes + 1) with
    | none =>
      rw [hLoop] at h
      cases h
      cases hRead
    | some bytes =>
      rw [hLoop] at h
      have hBytes := readPrefixLoop_eq hLoop
      have hLength : bytes.length = min (sampleBytes + 1) content.length := by
        rw [hBytes, List.length_take]
      have hSampled : (if sampleBytes < bytes.length then sampleBytes else bytes.length) =
          min sampleBytes content.length := by
        split <;> omega
      have hSample : bytes.take (min sampleBytes content.length) = content.take sampleBytes := by
        rw [hBytes, List.take_take]
        rw [List.take_eq_take_iff]
        omega
      have hMore : (sampleBytes < bytes.length) ↔ sampleBytes < content.length := by omega
      dsimp only at h
      rw [hSampled, hSample] at h
      have hSpec := inspectPrefix_spec (content.take sampleBytes)
        (decide (sampleBytes < bytes.length))
      rw [List.length_take, Option.some.inj h] at hSpec
      have hTruncated : result.truncated = true ↔ sampleBytes < content.length := by
        rw [hSpec.truncated_eq, decide_eq_true_eq, hMore]
      refine ⟨content, rfl, by rw [hSpec.sampledBytes, List.length_take], hTruncated, ?_, ?_,
        ?_, ?_⟩
      · intro offset
        rw [hSpec.truncated_eq]
        exact hSpec.invalid offset
      · rw [hSpec.incomplete, decide_eq_true_eq, hMore, endsInside_iff_cutInside]
        tauto
      · have hBad : (result.invalidUtf8Offset.isSome = true ∨ result.suspiciousControlBytes ≠ 0) ↔
            (∃ offset, result.invalidUtf8Offset = some offset) ∨
              ∃ byte ∈ content.take sampleBytes, suspiciousControl byte = true := by
          rw [hSpec.controls, Option.isSome_iff_exists, ← Nat.pos_iff_ne_zero, List.countP_pos_iff]
        rw [hSpec.likelihood, ← hBad]
        split
        · rename_i hFound
          exact iff_of_true rfl hFound
        · rename_i hClean
          exact iff_of_false (by decide) hClean
      · rintro ⟨text, rfl⟩ hControls
        have hNone : List.countP suspiciousControl ((Utf8.encode text).take sampleBytes) = 0 := by
          rw [List.countP_eq_zero]
          intro byte hMem
          rw [hControls byte hMem]
          decide
        rw [hSpec.likelihood, hSpec.controls, hNone, if_neg]
        rintro (hInvalid | hControl)
        · obtain ⟨offset, hOffset⟩ := Option.isSome_iff_exists.mp hInvalid
          have hMalformed := (hSpec.invalid offset).mp hOffset
          rw [decide_eq_decide.mpr hMore] at hMalformed
          exact not_malformedAt_of_encode hMalformed
        · exact hControl rfl

/-- A file that can be read, cut inside of its second character. -/
theorem probeUtf8File_exact_cut :
    ∃ result, probeUtf8File [] (.regular [0x41, 0xe2, 0x82, 0xac]) [] 2 = some result ∧
      result.incompleteSuffix = true ∧ CutInside [0x41, 0xe2] ∧ result.likelihood = .likely := by
  have hProbe : probeUtf8File [] (.regular [0x41, 0xe2, 0x82, 0xac]) [] 2 =
      some { likelihood := .likely, sampledBytes := 2, truncated := true
             incompleteSuffix := true } := by
    simp [probeUtf8File, readPrefixLoop, inspectPrefix, inspectFrom, leadWidth, continues,
      suspiciousControl]
  have hInside : EndsInside [0x41, 0xe2] :=
    ⟨['A'], [0xe2], by decide, by simp, '€', [0x82, 0xac], by simp, by decide⟩
  obtain ⟨content, hContent, -, -, -, hCut, -, -⟩ := probeUtf8File_exact hProbe rfl
  obtain rfl : [0x41, 0xe2, 0x82, 0xac] = content := by injection hContent
  obtain ⟨hSuffix, hClean⟩ := (endsInside_iff_cutInside [0x41, 0xe2]).mp hInside
  exact ⟨_, hProbe, rfl, ((hCut.mpr fun _ _ => hClean).mp rfl).2, rfl⟩

/-- **A cut character behind a malformed byte is not reported.** -/
theorem probeUtf8File_malformed_cut :
    ∃ result, probeUtf8File [] (.regular [0xff, 0xe2, 0x82, 0xac]) [] 3 = some result ∧
      result.truncated = true ∧ CutInside [0xff, 0xe2, 0x82] ∧
      result.incompleteSuffix = false := by
  refine ⟨{ likelihood := .unlikely, sampledBytes := 3, truncated := true
            invalidUtf8Offset := some 0 }, ?_, rfl, ?_, rfl⟩
  · simp [probeUtf8File, readPrefixLoop, inspectPrefix, inspectFrom, leadWidth,
      suspiciousControl]
  · exact ⟨[0xff], [0xe2, 0x82], rfl, by simp, '€', [0xac], by simp, by decide⟩

end SimplexAgent.Textedit
