import SimplexAgent.Dataclass.PromptTemplate
import SimplexAgent.Verified.Utf8

/-!
# The prompt template, byte for byte

A body may come from a model, and then nothing says that its bytes are a text. `RawPrompt` is
the template with bodies of bytes: the code reads no characters, so canonical form, rewriting
and rendering are those of `PromptTemplate` with a byte in place of a character. On bodies of
text the two agree (`canonicalizeBytes_encode`, `raw_rewrite`, `raw_markdown`).
-/

namespace SimplexAgent.Dataclass

open Verified Verified.Segments

def bytesOf (text : String) : List UInt8 := Utf8.encode text.toList

@[simp] theorem bytesOf_empty : bytesOf "" = [] := rfl

@[simp] theorem bytesOf_append (a b : String) : bytesOf (a ++ b) = bytesOf a ++ bytesOf b := by
  rw [bytesOf, String.toList_append, Utf8.encode_append]
  rfl

theorem length_bytesOf (text : String) : (bytesOf text).length = text.utf8ByteSize := by
  rw [← String.size_toByteArray, ← String.utf8Encode_toList, List.utf8Encode, List.size_toByteArray]
  rfl

/-! ## Canonical bytes -/

/-- Whitespace removed from the end of a line. -/
def isTrailingByte (b : UInt8) : Bool := b == 32 || b == 9 || b == 13

def isLineFeedByte (b : UInt8) : Bool := b == 10

/-- The pieces between line feeds, the last one included. -/
def splitByteLines (text : List UInt8) : List (List UInt8) :=
  (cut isLineFeedByte text).1 ++ [(cut isLineFeedByte text).2]

/-- One line of `canonicalize_` added to its output. -/
def pushByteLine (out line : List UInt8) : List UInt8 :=
  let stripped := line.rdropWhile isTrailingByte
  if out.isEmpty && stripped.isEmpty then out
  else if out.isEmpty then stripped
  else out ++ 10 :: stripped

/-- `canonicalize_`. -/
def canonicalizeBytes (text : List UInt8) : List UInt8 :=
  ((splitByteLines text).foldl pushByteLine []).rdropWhile isLineFeedByte

theorem length_cut {α : Type*} (p : α → Bool) (xs : List α) :
    ((cut p xs).1.map (·.length + 1)).sum + (cut p xs).2.length = xs.length := by
  induction xs with
  | nil => rfl
  | cons a as ih =>
    by_cases hEnd : p a = true
    · rw [cut_cons_of_terminator as hEnd]
      simp only [List.map_cons, List.sum_cons, List.length_nil, List.length_cons]
      omega
    · rw [cut, if_neg hEnd]
      cases hSegments : (cut p as).1 with
      | nil =>
        rw [hSegments] at ih
        simp only [List.map_nil, List.sum_nil, List.length_cons] at ih ⊢
        omega
      | cons s ss =>
        rw [hSegments] at ih
        simp only [List.map_cons, List.sum_cons, List.length_cons] at ih ⊢
        omega

theorem length_splitByteLines (text : List UInt8) :
    ((splitByteLines text).map (·.length + 1)).sum = text.length + 1 := by
  have hCut := length_cut isLineFeedByte text
  simp only [splitByteLines, List.map_append, List.sum_append, List.map_singleton,
    List.sum_singleton]
  omega

theorem length_pushByteLine (out line : List UInt8) :
    (pushByteLine out line).length + (if out.isEmpty then 1 else 0) ≤
      out.length + (line.length + 1) + (if (pushByteLine out line).isEmpty then 1 else 0) := by
  have hStrip := (List.rdropWhile_prefix isTrailingByte line).length_le
  unfold pushByteLine
  cases out with
  | nil =>
    cases hLine : line.rdropWhile isTrailingByte with
    | nil => simp
    | cons b bs =>
      rw [hLine] at hStrip
      simp at hStrip ⊢
      omega
  | cons b bs =>
    simp
    omega

theorem length_foldl_pushByteLine (lines : List (List UInt8)) (out : List UInt8) :
    (lines.foldl pushByteLine out).length + (if out.isEmpty then 1 else 0) ≤
      out.length + (lines.map (·.length + 1)).sum +
        (if (lines.foldl pushByteLine out).isEmpty then 1 else 0) := by
  induction lines generalizing out with
  | nil => simp
  | cons line rest ih =>
    have hFirst := length_pushByteLine out line
    have hRest := ih (pushByteLine out line)
    rw [List.foldl_cons, List.map_cons, List.sum_cons]
    omega

theorem length_canonicalizeBytes (text : List UInt8) :
    (canonicalizeBytes text).length ≤ text.length := by
  have hFold := length_foldl_pushByteLine (splitByteLines text) []
  have hDrop := (List.rdropWhile_prefix isLineFeedByte
    ((splitByteLines text).foldl pushByteLine [])).length_le
  rw [length_splitByteLines] at hFold
  rw [canonicalizeBytes]
  cases hOut : (splitByteLines text).foldl pushByteLine [] with
  | nil => simp
  | cons b bs =>
    rw [hOut] at hFold hDrop
    simp only [List.isEmpty_nil, List.isEmpty_cons, List.length_nil, if_true, Bool.false_eq_true,
      if_false] at hFold
    omega

/-! ## On bodies of text -/

theorem eq_of_mem_encodeChar {c d : Char} {b : UInt8} (hMem : b ∈ String.utf8EncodeChar c)
    (hSmall : b.toNat < 128) (hOther : String.utf8EncodeChar d = [b]) : c = d := by
  rcases Utf8.encodeChar_cases c with ⟨byte, hOne⟩ | ⟨first, rest, hMany, hFirst, hRest⟩
  · rw [hOne, List.mem_singleton] at hMem
    have hSame : Utf8.encode [c] = Utf8.encode [d] := by
      rw [Utf8.encode_cons, Utf8.encode_cons, hOne, hOther, hMem]
    exact (List.cons.inj (Utf8.encode_injective hSame)).1
  · rw [hMany] at hMem
    rcases List.mem_cons.mp hMem with hHead | hTail
    · rw [hHead] at hSmall
      omega
    · have := (hRest b hTail).2
      omega

structure SameTest (p : Char → Bool) (q : UInt8 → Bool) : Prop where
  holds : ∀ c, p c = true → ∃ b, String.utf8EncodeChar c = [b] ∧ q b = true
  fails : ∀ c, p c = false → ∀ b ∈ String.utf8EncodeChar c, q b = false

theorem sameTest_isLineFeed : SameTest isLineFeed isLineFeedByte where
  holds := by
    intro c hFeed
    rw [isLineFeed, beq_iff_eq] at hFeed
    rw [hFeed]
    exact ⟨10, rfl, rfl⟩
  fails := by
    intro c hFeed b hMem
    by_contra hByte
    rw [Bool.not_eq_false, isLineFeedByte, beq_iff_eq] at hByte
    rw [hByte] at hMem
    have hChar : c = '\n' := eq_of_mem_encodeChar hMem (by decide) rfl
    rw [hChar] at hFeed
    cases hFeed

theorem sameTest_isTrailing : SameTest isTrailing isTrailingByte where
  holds := by
    intro c hTrailing
    simp only [isTrailing, Bool.or_eq_true, beq_iff_eq] at hTrailing
    rcases hTrailing with (rfl | rfl) | rfl
    · exact ⟨32, rfl, rfl⟩
    · exact ⟨9, rfl, rfl⟩
    · exact ⟨13, rfl, rfl⟩
  fails := by
    intro c hTrailing b hMem
    by_contra hByte
    simp only [isTrailingByte, Bool.not_eq_false, Bool.or_eq_true, beq_iff_eq] at hByte
    have hChar : c = ' ' ∨ c = '\t' ∨ c = '\r' := by
      rcases hByte with (rfl | rfl) | rfl
      · exact Or.inl (eq_of_mem_encodeChar hMem (by decide) rfl)
      · exact Or.inr (Or.inl (eq_of_mem_encodeChar hMem (by decide) rfl))
      · exact Or.inr (Or.inr (eq_of_mem_encodeChar hMem (by decide) rfl))
    rcases hChar with rfl | rfl | rfl <;> cases hTrailing

/-- What no terminator closes goes in front of the first segment, or of the tail. -/
theorem cut_open_append {α : Type*} {p : α → Bool} {ws : List α} (ys : List α)
    (hOpen : ∀ w ∈ ws, p w = false) : cut p (ws ++ ys) = match (cut p ys).1 with
      | [] => ([], ws ++ (cut p ys).2)
      | s :: ss => ((ws ++ s) :: ss, (cut p ys).2) := by
  induction ws with
  | nil =>
    cases hSegments : cut p ys with
    | mk segments tail => cases segments <;> simp [hSegments]
  | cons w ws ih =>
    have hFirst : p w = false := hOpen w (by simp)
    have hRest := ih fun v hv => hOpen v (by simp [hv])
    rw [List.cons_append, cut, hFirst, hRest]
    cases (cut p ys).1 <;> simp

theorem cut_encode (text : List Char) : cut isLineFeedByte (Utf8.encode text) =
      ((cut isLineFeed text).1.map Utf8.encode, Utf8.encode (cut isLineFeed text).2) := by
  induction text with
  | nil => rfl
  | cons c rest ih =>
    rw [Utf8.encode_cons]
    cases hFeed : isLineFeed c with
    | true =>
      obtain ⟨b, hChar, hByte⟩ := sameTest_isLineFeed.holds c hFeed
      rw [hChar, List.singleton_append, cut_cons_of_terminator _ hByte,
        cut_cons_of_terminator _ hFeed, ih]
      rfl
    | false =>
      have hOpen := sameTest_isLineFeed.fails c hFeed
      rw [cut_open_append _ hOpen, ih, cut, hFeed]
      cases (cut isLineFeed rest).1 with
      | nil => simp
      | cons s ss => simp

theorem splitByteLines_encode (text : List Char) :
    splitByteLines (Utf8.encode text) = (splitLines text).map Utf8.encode := by
  simp [splitByteLines, splitLines, cut_encode]

theorem rdropWhile_encode {p : Char → Bool} {q : UInt8 → Bool} (h : SameTest p q)
    (text : List Char) : (Utf8.encode text).rdropWhile q = Utf8.encode (text.rdropWhile p) := by
  induction text using List.reverseRecOn with
  | nil => rfl
  | append_singleton text c ih =>
    cases hLast : p c with
    | true =>
      obtain ⟨b, hChar, hByte⟩ := h.holds c hLast
      rw [Utf8.encode_append, Utf8.encode_cons, Utf8.encode_nil, hChar, List.append_nil,
        List.rdropWhile_concat_pos _ _ _ hByte, ih, List.rdropWhile_concat_pos _ _ _ hLast]
    | false =>
      obtain ⟨init, b, hChar⟩ :=
        (List.eq_nil_or_concat' (String.utf8EncodeChar c)).resolve_left
          String.utf8EncodeChar_ne_nil
      have hByte := h.fails c hLast b (by rw [hChar]; simp)
      rw [List.rdropWhile_concat_neg _ _ _ (by simp [hLast]), Utf8.encode_append,
        Utf8.encode_cons, Utf8.encode_nil, hChar, List.append_nil, ← List.append_assoc,
        List.rdropWhile_concat_neg _ _ _ (by simp [hByte])]

theorem encode_isEmpty (text : List Char) : (Utf8.encode text).isEmpty = text.isEmpty := by
  cases text with
  | nil => rfl
  | cons c rest =>
    obtain ⟨first, more, hChar, -⟩ := Utf8.encodeChar_start c
    rw [Utf8.encode_cons, hChar]
    rfl

theorem pushByteLine_encode (out line : List Char) :
    pushByteLine (Utf8.encode out) (Utf8.encode line) = Utf8.encode (pushLine out line) := by
  simp only [pushByteLine, pushLine, rdropWhile_encode sameTest_isTrailing, encode_isEmpty]
  split
  · rfl
  · split
    · rfl
    · rw [Utf8.encode_append, Utf8.encode_cons]
      rfl

theorem canonicalizeBytes_encode (text : List Char) :
    canonicalizeBytes (Utf8.encode text) = Utf8.encode (canonicalizeChars text) := by
  have hFold : ∀ (lines : List (List Char)) (out : List Char),
      (lines.map Utf8.encode).foldl pushByteLine (Utf8.encode out) =
        Utf8.encode (lines.foldl pushLine out) := by
    intro lines
    induction lines with
    | nil => exact fun out => rfl
    | cons line rest ih =>
      intro out
      rw [List.map_cons, List.foldl_cons, List.foldl_cons, pushByteLine_encode, ih]
  rw [canonicalizeBytes, splitByteLines_encode, ← Utf8.encode_nil, hFold,
    rdropWhile_encode sameTest_isLineFeed, canonicalizeChars]

/-! ## The template -/

structure RawSection where
  name : String
  title : String
  stability : SectionStability
  text : List UInt8
  deriving DecidableEq

structure RawPrompt where
  headingLevel : Int32
  sections : List RawSection

def PromptSection.raw (s : PromptSection) : RawSection where
  name := s.name
  title := s.title
  stability := s.stability
  text := bytesOf s.text

def PromptTemplate.raw (t : PromptTemplate) : RawPrompt where
  headingLevel := t.headingLevel
  sections := t.sections.map PromptSection.raw

namespace RawPrompt

/-- `rewrite`: replace the body of a Volatile section. -/
def rewrite (t : RawPrompt) (name : String) (text : List UInt8) : Except JsonError RawPrompt :=
  match t.sections.find? fun s => s.name == name with
  | none => .error (.logicError ("PromptTemplate::rewrite: no section named '" ++ name ++ "'"))
  | some s =>
    if s.stability ≠ .volatile then
      .error (.logicError ("PromptTemplate::rewrite: section '" ++ name ++ "' is " ++
        s.stability.nameOf ++ ", not volatile"))
    else
      .ok { t with sections := t.sections.map fun s =>
        if s.name = name then { s with text := canonicalizeBytes text } else s }

def sectionBytes (headingLevel : Int32) (s : RawSection) : List UInt8 :=
  let heading :=
    if s.title.isEmpty then []
    else List.replicate headingLevel.toInt.toNat 35 ++ 32 :: bytesOf s.title
  if s.text.isEmpty then heading
  else if heading.isEmpty then s.text
  else heading ++ 10 :: 10 :: s.text

def renderBytes (headingLevel : Int32) (out : List UInt8) (s : RawSection) : List UInt8 :=
  let part := sectionBytes headingLevel s
  if part.isEmpty then out
  else if out.isEmpty then part
  else out ++ 10 :: 10 :: part

/-- The markdown that `render` gives. -/
def markdown (t : RawPrompt) : Except JsonError (List UInt8) :=
  if t.headingLevel < 1 ∨ 6 < t.headingLevel then
    .error (.logicError "PromptTemplate::render: heading_level must be within 1..6")
  else
    let out := t.sections.foldl (renderBytes t.headingLevel) []
    .ok (if out.isEmpty then out else out ++ [10])

end RawPrompt

namespace PromptTemplate

theorem locate_raw (t : PromptTemplate) (name : String) :
    (t.raw.sections.find? fun s => s.name == name) =
      (t.sections.find? fun s => s.name == name).map PromptSection.raw := by
  rw [raw, List.find?_map]
  rfl

theorem raw_rewrite (t : PromptTemplate) (name text : String) :
    t.raw.rewrite name (bytesOf text) = (t.rewrite name text).map PromptTemplate.raw := by
  have hCanonical : canonicalizeBytes (bytesOf text) = bytesOf (canonicalize text) := by
    rw [bytesOf, canonicalizeBytes_encode, bytesOf, canonicalize, String.toList_ofList]
  rw [RawPrompt.rewrite, locate_raw, rewrite, locate]
  cases hFind : t.sections.find? fun s => s.name == name with
  | none => rfl
  | some s =>
    by_cases hVolatile : s.stability = .volatile
    · have hRaw : s.raw.stability = .volatile := hVolatile
      have hSections : (t.raw.sections.map fun s =>
          if s.name = name then { s with text := bytesOf (canonicalize text) } else s) =
          (t.setText name (canonicalize text) (canonicalize_idem text)).raw.sections := by
        simp only [raw, setText, List.map_map]
        refine List.map_congr_left fun s' _ => ?_
        simp only [Function.comp, PromptSection.raw]
        by_cases hName : s'.name = name
        · simp only [hName, if_true]
        · simp only [hName, if_false]
      simp only [Option.map_some, hRaw, hVolatile, ne_eq, not_true, if_false, hCanonical,
        hSections, bind, Except.bind]
      rfl
    · have hRaw : s.raw.stability ≠ .volatile := hVolatile
      simp only [Option.map_some, hRaw, hVolatile, ne_eq, not_false_iff, if_true, bind, Except.bind]
      rfl

theorem isEmpty_bytesOf (text : String) : (bytesOf text).isEmpty = text.isEmpty := by
  rw [bytesOf, encode_isEmpty, Bool.eq_iff_iff, List.isEmpty_iff, String.toList_eq_nil_iff,
    String.isEmpty_iff]

theorem sectionBytes_raw (headingLevel : Int32) (s : PromptSection) :
    RawPrompt.sectionBytes headingLevel s.raw = bytesOf (sectionPart headingLevel s) := by
  have hHashes : ∀ n, bytesOf (String.ofList (List.replicate n '#')) = List.replicate n 35 := by
    intro n
    rw [bytesOf, String.toList_ofList]
    induction n with
    | zero => rfl
    | succ n ih =>
      rw [List.replicate_succ, Utf8.encode_cons, ih]
      rfl
  have hHeading : (if s.title.isEmpty then []
      else List.replicate headingLevel.toInt.toNat 35 ++ 32 :: bytesOf s.title) =
      bytesOf (if s.title.isEmpty then ""
        else String.ofList (List.replicate headingLevel.toInt.toNat '#') ++ " " ++ s.title) := by
    split
    · rfl
    · rw [bytesOf_append, bytesOf_append, hHashes, List.append_assoc]
      rfl
  unfold RawPrompt.sectionBytes sectionPart
  have hTitle : s.raw.title = s.title := rfl
  have hText : s.raw.text = bytesOf s.text := rfl
  rw [hTitle, hText]
  dsimp only
  rw [hHeading]
  generalize (if s.title.isEmpty then ""
    else String.ofList (List.replicate headingLevel.toInt.toNat '#') ++ " " ++ s.title) = heading
  rw [isEmpty_bytesOf, isEmpty_bytesOf]
  split
  · rfl
  · split
    · rfl
    · rw [bytesOf_append, bytesOf_append, List.append_assoc]
      rfl

theorem renderBytes_raw (headingLevel : Int32) (out : RenderedPrompt) (s : PromptSection) :
    RawPrompt.renderBytes headingLevel (bytesOf out.markdown) s.raw =
      bytesOf (renderSection headingLevel out s).markdown := by
  simp only [RawPrompt.renderBytes, renderSection, sectionBytes_raw, isEmpty_bytesOf]
  split
  · rfl
  · split
    · simp
    · simp only [bytesOf_append, List.append_assoc]
      rfl

theorem raw_markdown (t : PromptTemplate) :
    t.raw.markdown = t.render.map fun out => bytesOf out.markdown := by
  have hFold : ∀ (sections : List PromptSection) (out : RenderedPrompt),
      (sections.map PromptSection.raw).foldl (RawPrompt.renderBytes t.headingLevel)
        (bytesOf out.markdown) =
        bytesOf (sections.foldl (renderSection t.headingLevel) out).markdown := by
    intro sections
    induction sections with
    | nil => exact fun out => rfl
    | cons s rest ih =>
      intro out
      rw [List.map_cons, List.foldl_cons, List.foldl_cons, renderBytes_raw, ih]
  have hAll := hFold t.sections ⟨"", []⟩
  simp only [bytesOf_empty] at hAll
  unfold RawPrompt.markdown render
  simp only [raw, hAll, isEmpty_bytesOf]
  split
  · rfl
  · simp only [Except.map]
    split
    · rfl
    · rw [bytesOf_append]
      rfl

end PromptTemplate

end SimplexAgent.Dataclass
