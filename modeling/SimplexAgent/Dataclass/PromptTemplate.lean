import SimplexAgent.Dataclass.Json
import SimplexAgent.Verified.Segments
import Mathlib.Data.List.DropRight

/-!
# The prompt template

`PromptTemplate` of `dataclass/prompt_template.hpp`: named sections ordered by
stability tier, whose bodies are canonicalised once on entry and emitted verbatim.

The class keeps three invariants through its private storage: names are unique,
tiers never go backwards, and every stored body is its own canonical form. They
are fields of `PromptTemplate`, so a template that breaks them cannot be built,
and decoding a stored template reproduces it (`fromJson_toJson`).
-/

namespace SimplexAgent.Dataclass

open Verified.Segments

/-! ## Canonical text -/

variable {lines : List (List Char)}

/-- Whitespace removed from the end of a line. -/
def isTrailing (c : Char) : Bool := c == ' ' || c == '\t' || c == '\r'

def isLineFeed (c : Char) : Bool := c == '\n'

/-- The pieces between line feeds, the last one included. -/
def splitLines (text : List Char) : List (List Char) :=
  (cut isLineFeed text).1 ++ [(cut isLineFeed text).2]

/-- One line of `canonicalize_` added to its output. -/
def pushLine (out line : List Char) : List Char :=
  let stripped := line.rdropWhile isTrailing
  if out.isEmpty && stripped.isEmpty then out
  else if out.isEmpty then stripped
  else out ++ '\n' :: stripped

/--
`canonicalize_`: strip the end of every line, drop leading and trailing blank
lines.
-/
def canonicalizeChars (text : List Char) : List Char :=
  ((splitLines text).foldl pushLine []).rdropWhile isLineFeed

def canonicalize (text : String) : String := String.ofList (canonicalizeChars text.toList)

def joinLines : List (List Char) → List Char
  | [] => []
  | [line] => line
  | line :: next :: rest => line ++ '\n' :: joinLines (next :: rest)

theorem joinLines_cons {rest : List (List Char)} (line : List Char) (hRest : rest ≠ []) :
    joinLines (line :: rest) = line ++ '\n' :: joinLines rest := by
  cases rest with
  | nil => exact absurd rfl hRest
  | cons next rest => rfl

theorem joinLines_append_newline (a b : List Char) (rest : List (List Char)) :
    joinLines ((a ++ '\n' :: b) :: rest) = joinLines (a :: b :: rest) := by
  cases rest with
  | nil => rfl
  | cons next rest => simp [joinLines]

theorem joinLines_append {init : List (List Char)} (rest : List (List Char))
    (hInit : init ≠ []) (hRest : rest ≠ []) :
    joinLines (init ++ rest) = joinLines init ++ '\n' :: joinLines rest := by
  induction init with
  | nil => exact absurd rfl hInit
  | cons line init ih =>
    cases init with
    | nil => exact joinLines_cons line hRest
    | cons next init =>
      have hNext := ih (by simp)
      rw [List.cons_append, joinLines_cons line (by simp), hNext,
        joinLines_cons line (by simp)]
      simp

theorem splitLines_joinLines (hNe : lines ≠ [])
    (hLines : ∀ l ∈ lines, ∀ c ∈ l, isLineFeed c = false) :
    splitLines (joinLines lines) = lines := by
  induction lines with
  | nil => exact absurd rfl hNe
  | cons line rest ih =>
    have hLine : ∀ c ∈ line, isLineFeed c = false := hLines line (by simp)
    cases rest with
    | nil => simp [joinLines, splitLines, cut_of_open hLine]
    | cons next rest =>
      have hRest := ih (by simp) fun l hl => hLines l (by simp [hl])
      rw [joinLines_cons line (by simp), splitLines,
        cut_segment _ hLine (show isLineFeed '\n' = true from rfl)]
      simpa [splitLines] using hRest

variable (text : List Char)

theorem splitLines_open : ∀ l ∈ splitLines text, ∀ c ∈ l, isLineFeed c = false := by
  intro l hl
  rcases List.mem_append.mp hl with hSegment | hTail
  · exact cut_segments_open isLineFeed text l hSegment
  · rw [List.mem_singleton.mp hTail]
    exact cut_tail_open isLineFeed text

theorem foldl_pushLine_of_ne_nil (lines : List (List Char)) : ∀ out : List Char, out ≠ [] →
      lines.foldl pushLine out = joinLines (out :: lines.map (List.rdropWhile isTrailing)) := by
  induction lines with
  | nil => intro out _; rfl
  | cons line rest ih =>
    intro out hOut
    have hStep : pushLine out line = out ++ '\n' :: line.rdropWhile isTrailing := by
      simp [pushLine, hOut]
    rw [List.foldl_cons, hStep, ih _ (by simp), joinLines_append_newline, List.map_cons]

theorem foldl_pushLine (lines : List (List Char)) : lines.foldl pushLine [] =
      joinLines ((lines.map (List.rdropWhile isTrailing)).dropWhile List.isEmpty) := by
  induction lines with
  | nil => rfl
  | cons line rest ih =>
    by_cases hBlank : line.rdropWhile isTrailing = []
    · have hStep : pushLine [] line = [] := by simp [pushLine, hBlank]
      rw [List.foldl_cons, hStep, ih, List.map_cons, hBlank]
      rfl
    · have hStep : pushLine [] line = line.rdropWhile isTrailing := by
        simp [pushLine, hBlank]
      rw [List.foldl_cons, hStep, foldl_pushLine_of_ne_nil rest _ hBlank, List.map_cons,
        List.dropWhile_cons_of_neg (by simpa using hBlank)]

theorem rdropWhile_joinLines (lines : List (List Char))
    (hLines : ∀ l ∈ lines, ∀ c ∈ l, isLineFeed c = false) :
    (joinLines lines).rdropWhile isLineFeed = joinLines (lines.rdropWhile List.isEmpty) := by
  induction lines using List.reverseRecOn with
  | nil => rfl
  | append_singleton init last ih =>
    have hInit := ih fun l hl => hLines l (by simp [hl])
    by_cases hLast : last = []
    · subst hLast
      rw [List.rdropWhile_concat_pos _ _ _ (by rfl)]
      by_cases hEmpty : init = []
      · subst hEmpty
        rfl
      · rw [joinLines_append [[]] hEmpty (by simp)]
        show (joinLines init ++ ['\n']).rdropWhile isLineFeed = _
        rw [List.rdropWhile_concat_pos _ _ _ (by rfl), hInit]
    · rw [List.rdropWhile_concat_neg _ _ _ (by simpa using hLast)]
      obtain ⟨body, c, rfl⟩ := (List.eq_nil_or_concat' last).resolve_left hLast
      have hc : ¬ isLineFeed c = true := by
        simpa using hLines (body ++ [c]) (by simp) c (by simp)
      by_cases hEmpty : init = []
      · subst hEmpty
        exact List.rdropWhile_concat_neg _ _ _ hc
      · rw [joinLines_append _ hEmpty (by simp)]
        show (joinLines init ++ '\n' :: (body ++ [c])).rdropWhile isLineFeed = _
        rw [← List.cons_append, ← List.append_assoc, List.rdropWhile_concat_neg _ _ _ hc]
        simp [joinLines]

structure NormalLines (lines : List (List Char)) : Prop where
  feeds : ∀ l ∈ lines, ∀ c ∈ l, isLineFeed c = false
  stripped : ∀ l ∈ lines, l.rdropWhile isTrailing = l
  first : lines.dropWhile List.isEmpty = lines
  last : lines.rdropWhile List.isEmpty = lines

def normalLines (text : List Char) : List (List Char) :=
  (((splitLines text).map (List.rdropWhile isTrailing)).dropWhile List.isEmpty).rdropWhile
    List.isEmpty

theorem mem_normalLines {text line : List Char} (hMem : line ∈ normalLines text) :
    ∃ raw ∈ splitLines text, line = raw.rdropWhile isTrailing := by
  have hDrop := (List.rdropWhile_prefix _ _).subset hMem
  have hMap := (List.dropWhile_sublist _).subset hDrop
  obtain ⟨raw, hRaw, rfl⟩ := List.mem_map.mp hMap
  exact ⟨raw, hRaw, rfl⟩

theorem canonicalizeChars_eq : canonicalizeChars text = joinLines (normalLines text) := by
  rw [canonicalizeChars, foldl_pushLine, rdropWhile_joinLines, normalLines]
  intro line hLine c hc
  obtain ⟨raw, hRaw, rfl⟩ := List.mem_map.mp ((List.dropWhile_sublist _).subset hLine)
  exact splitLines_open text raw hRaw c ((List.rdropWhile_prefix _ _).subset hc)

theorem dropWhile_rdropWhile (hFirst : lines.dropWhile List.isEmpty = lines) :
    (lines.rdropWhile List.isEmpty).dropWhile List.isEmpty = lines.rdropWhile List.isEmpty := by
  obtain ⟨rest, hPrefix⟩ := List.rdropWhile_prefix List.isEmpty lines
  cases hKept : lines.rdropWhile List.isEmpty with
  | nil => rfl
  | cons line kept =>
    rw [hKept] at hPrefix
    subst hPrefix
    by_cases hBlank : line.isEmpty = true
    · exfalso
      rw [List.cons_append, List.dropWhile_cons_of_pos hBlank] at hFirst
      have hLength := congrArg List.length hFirst
      have hLe := (List.dropWhile_sublist List.isEmpty (l := kept ++ rest)).length_le
      rw [List.length_cons] at hLength
      omega
    · exact List.dropWhile_cons_of_neg hBlank

theorem normalLines_normal : NormalLines (normalLines text) := by
  refine ⟨?_, ?_, ?_, ?_⟩
  · intro line hLine c hc
    obtain ⟨raw, hRaw, rfl⟩ := mem_normalLines hLine
    exact splitLines_open text raw hRaw c ((List.rdropWhile_prefix _ _).subset hc)
  · intro line hLine
    obtain ⟨raw, _, rfl⟩ := mem_normalLines hLine
    exact List.rdropWhile_idempotent _ _
  · exact dropWhile_rdropWhile (List.dropWhile_idempotent _ _)
  · exact List.rdropWhile_idempotent _ _

theorem canonicalizeChars_joinLines (hNormal : NormalLines lines) :
    canonicalizeChars (joinLines lines) = joinLines lines := by
  by_cases hEmpty : lines = []
  · subst hEmpty
    rfl
  · have hMap : lines.map (List.rdropWhile isTrailing) = lines := by
      conv => rhs; rw [← List.map_id lines]
      exact List.map_congr_left hNormal.stripped
    rw [canonicalizeChars_eq, normalLines, splitLines_joinLines hEmpty hNormal.feeds, hMap,
      hNormal.first, hNormal.last]

theorem canonicalizeChars_idem :
    canonicalizeChars (canonicalizeChars text) = canonicalizeChars text := by
  rw [canonicalizeChars_eq text]
  exact canonicalizeChars_joinLines (normalLines_normal text)

@[simp] theorem canonicalize_idem (text : String) :
    canonicalize (canonicalize text) = canonicalize text := by
  simp [canonicalize, canonicalizeChars_idem]

theorem canonicalizeChars_append {text chunk : List Char}
    (hText : canonicalizeChars text = text) (hChunk : canonicalizeChars chunk = chunk)
    (hTextNe : text ≠ []) (hChunkNe : chunk ≠ []) :
    canonicalizeChars (text ++ '\n' :: '\n' :: chunk) = text ++ '\n' :: '\n' :: chunk := by
  rw [canonicalizeChars_eq] at hText hChunk
  have hTextLines := normalLines_normal text
  have hChunkLines := normalLines_normal chunk
  have hLeft : normalLines text ≠ [] := by
    intro hNil
    rw [hNil] at hText
    exact hTextNe hText.symm
  have hRight : normalLines chunk ≠ [] := by
    intro hNil
    rw [hNil] at hChunk
    exact hChunkNe hChunk.symm
  have hJoin : joinLines (normalLines text ++ [] :: normalLines chunk) =
      text ++ '\n' :: '\n' :: chunk := by
    rw [joinLines_append _ hLeft (by simp), joinLines_cons [] hRight, hText, hChunk]
    rfl
  rw [← hJoin]
  apply canonicalizeChars_joinLines
  refine ⟨?_, ?_, ?_, ?_⟩
  · intro line hLine
    rcases List.mem_append.mp hLine with h | h
    · exact hTextLines.feeds line h
    · rcases List.mem_cons.mp h with rfl | h
      · simp
      · exact hChunkLines.feeds line h
  · intro line hLine
    rcases List.mem_append.mp hLine with h | h
    · exact hTextLines.stripped line h
    · rcases List.mem_cons.mp h with rfl | h
      · rfl
      · exact hChunkLines.stripped line h
  · obtain ⟨line, rest, hCons⟩ := List.exists_cons_of_ne_nil hLeft
    have hFirst := hTextLines.first
    rw [hCons] at hFirst ⊢
    by_cases hBlank : line.isEmpty = true
    · rw [List.dropWhile_cons_of_pos hBlank] at hFirst
      have hLe := (List.dropWhile_sublist List.isEmpty (l := rest)).length_le
      have hLength := congrArg List.length hFirst
      rw [List.length_cons] at hLength
      omega
    · exact List.dropWhile_cons_of_neg hBlank
  · obtain ⟨init, line, hConcat⟩ := (List.eq_nil_or_concat' _).resolve_left hRight
    have hLast := hChunkLines.last
    rw [hConcat] at hLast ⊢
    by_cases hBlank : line.isEmpty = true
    · rw [List.rdropWhile_concat_pos _ _ _ hBlank] at hLast
      have hLe := (List.rdropWhile_prefix List.isEmpty init).length_le
      have hLength := congrArg List.length hLast
      simp only [List.length_append, List.length_singleton] at hLength
      omega
    · rw [← List.cons_append, ← List.append_assoc]
      exact List.rdropWhile_concat_neg _ _ _ hBlank

/-! ## Sections -/

inductive SectionStability where
  | immutable
  | growing
  | volatile
  deriving DecidableEq, Repr, Inhabited

namespace SectionStability

def rank : SectionStability → Nat
  | immutable => 0
  | growing => 1
  | volatile => 2

def nameOf : SectionStability → String
  | immutable => "immutable"
  | growing => "growing"
  | volatile => "volatile"

def toJson (s : SectionStability) : Json := .str s.nameOf

/-- An unrecognised tier reads as the first one. -/
def fromJson (j : Json) : Except JsonError SectionStability :=
  if j = .str "immutable" then .ok immutable
  else if j = .str "growing" then .ok growing
  else if j = .str "volatile" then .ok volatile
  else .ok immutable

theorem fromJson_toJson (s : SectionStability) : fromJson s.toJson = .ok s := by
  cases s <;> simp [fromJson, toJson, nameOf]

end SectionStability

structure PromptSection where
  name : String
  title : String
  stability : SectionStability
  text : String
  deriving DecidableEq

namespace PromptSection

def toJson (s : PromptSection) : Json :=
  .object [("name", .str s.name), ("title", .str s.title),
    ("stability", s.stability.toJson), ("text", .str s.text)]

def fromJson (j : Json) : Except JsonError PromptSection := do
  let name ← j.readField "name" "" Json.getString
  let title ← j.readField "title" "" Json.getString
  let stability ← j.readField "stability" .immutable SectionStability.fromJson
  let text ← j.readField "text" "" Json.getString
  return { name, title, stability, text }

theorem fromJson_toJson (s : PromptSection) : fromJson s.toJson = .ok s := by
  simp [fromJson, toJson, Json.readField, Json.getString, SectionStability.fromJson_toJson,
    bind, Except.bind, pure, Except.pure]

end PromptSection

/-- The ordering rule: tiers never go backwards. -/
def Tiered (sections : List PromptSection) : Prop :=
  sections.Pairwise fun a b => a.stability.rank ≤ b.stability.rank

instance (sections : List PromptSection) : Decidable (Tiered sections) :=
  inferInstanceAs (Decidable (List.Pairwise _ _))

/-- The template; the three invariants of its private storage are fields. -/
@[ext] structure PromptTemplate where
  headingLevel : Int32
  sections : List PromptSection
  unique : (sections.map PromptSection.name).Nodup
  tiered : Tiered sections
  canonical : ∀ s ∈ sections, canonicalize s.text = s.text

namespace PromptTemplate

instance : DecidableEq PromptTemplate := fun a b =>
  decidable_of_iff (a.headingLevel = b.headingLevel ∧ a.sections = b.sections)
    PromptTemplate.ext_iff.symm

def empty : PromptTemplate where
  headingLevel := 2
  sections := []
  unique := List.nodup_nil
  tiered := List.Pairwise.nil
  canonical := by simp

def contains (t : PromptTemplate) (name : String) : Bool :=
  t.sections.any fun s => s.name == name

theorem rank_le_getLast {sections : List PromptSection} (hTiered : Tiered sections)
    {last : PromptSection} (hLast : sections.getLast? = some last) :
    ∀ s ∈ sections, s.stability.rank ≤ last.stability.rank := by
  obtain ⟨init, rfl⟩ := List.getLast?_eq_some_iff.mp hLast
  intro s hs
  rcases List.mem_append.mp hs with hInit | hEnd
  · exact (List.pairwise_append.mp hTiered).2.2 s hInit last (by simp)
  · rw [List.mem_singleton.mp hEnd]

/-- Appending a fresh section of no lower tier and canonical text keeps the invariants. -/
def push (t : PromptTemplate) (s : PromptSection) (hFresh : t.contains s.name = false)
    (hTier : ∀ last, t.sections.getLast? = some last → last.stability.rank ≤ s.stability.rank)
    (hText : canonicalize s.text = s.text) : PromptTemplate where
  headingLevel := t.headingLevel
  sections := t.sections ++ [s]
  unique := by
    rw [List.map_append, List.nodup_append]
    refine ⟨t.unique, by simp, ?_⟩
    intro a ha b hb hab
    obtain ⟨s', hs', rfl⟩ := List.mem_map.mp ha
    have hName : s'.name = s.name := by simpa [hab] using hb
    simp only [contains, List.any_eq_false, beq_iff_eq] at hFresh
    exact hFresh s' hs' hName
  tiered := by
    refine List.pairwise_append.mpr ⟨t.tiered, by simp, ?_⟩
    intro a ha b hb
    rw [List.mem_singleton.mp hb]
    cases hLast : t.sections.getLast? with
    | none =>
      rw [List.getLast?_eq_none_iff] at hLast
      simp [hLast] at ha
    | some last => exact (rank_le_getLast t.tiered hLast a ha).trans (hTier last hLast)
  canonical := by
    intro s' hs'
    rcases List.mem_append.mp hs' with h | h
    · exact t.canonical s' h
    · rw [List.mem_singleton.mp h]
      exact hText

/-- `add_section`. -/
def addSection (t : PromptTemplate) (name title text : String)
    (stability : SectionStability) : Except JsonError PromptTemplate :=
  if hFresh : t.contains name = true then
    .error (.logicError
      ("PromptTemplate::add_section: duplicate section name '" ++ name ++ "'"))
  else if hTier : ∀ last, t.sections.getLast? = some last →
      last.stability.rank ≤ stability.rank then
    .ok (t.push { name, title, stability, text := canonicalize text } (by simpa using hFresh)
      hTier (canonicalize_idem text))
  else
    .error (.logicError
      ("PromptTemplate::add_section: stability cannot go backwards ('" ++ name ++ "' is " ++
        stability.nameOf ++ ", last section '" ++
        (t.sections.getLast?.map PromptSection.name).getD "" ++ "' is " ++
        (t.sections.getLast?.map fun s => s.stability.nameOf).getD "" ++ ")"))

/-- `locate_`: the named section, or an error naming the caller. -/
def locate (t : PromptTemplate) (name who : String) : Except JsonError PromptSection :=
  match t.sections.find? fun s => s.name == name with
  | some s => .ok s
  | none => .error (.logicError
      ("PromptTemplate::" ++ who ++ ": no section named '" ++ name ++ "'"))

/-- Replace the body of the named section; names are unique. -/
def setText (t : PromptTemplate) (name text : String) (hText : canonicalize text = text) :
    PromptTemplate where
  headingLevel := t.headingLevel
  sections := t.sections.map fun s => if s.name = name then { s with text := text } else s
  unique := by
    have hNames : PromptSection.name ∘
        (fun s => if s.name = name then { s with text := text } else s) =
        PromptSection.name := by
      funext s
      simp only [Function.comp]
      split <;> rfl
    rw [List.map_map, hNames]
    exact t.unique
  tiered := by
    refine List.pairwise_map.mpr (t.tiered.imp ?_)
    intro a b hab
    split <;> split <;> exact hab
  canonical := by
    intro s hs
    obtain ⟨s', hs', rfl⟩ := List.mem_map.mp hs
    split
    · exact hText
    · exact t.canonical s' hs'

/-- The body of a section after `append`: a blank line separates the chunk. -/
def appendedText (text chunk : String) : String :=
  if (canonicalize chunk).isEmpty then text
  else if text.isEmpty then canonicalize chunk
  else text ++ "\n\n" ++ canonicalize chunk

theorem canonicalize_appendedText {text : String} (chunk : String)
    (hText : canonicalize text = text) :
    canonicalize (appendedText text chunk) = appendedText text chunk := by
  unfold appendedText
  split
  · exact hText
  · rename_i hChunk
    split
    · exact canonicalize_idem chunk
    · rename_i hNe
      have hLeft : canonicalizeChars text.toList = text.toList := by
        rw [canonicalize] at hText
        have := congrArg String.toList hText
        simpa using this
      have hRight : canonicalizeChars (canonicalize chunk).toList =
          (canonicalize chunk).toList := by
        simp [canonicalize, canonicalizeChars_idem]
      have hTextNe : text.toList ≠ [] := by
        simpa [String.toList_eq_nil_iff] using hNe
      have hChunkNe : (canonicalize chunk).toList ≠ [] := by
        simpa [String.toList_eq_nil_iff] using hChunk
      have hJoin := canonicalizeChars_append hLeft hRight hTextNe hChunkNe
      have hList : (text ++ "\n\n" ++ canonicalize chunk).toList =
          text.toList ++ '\n' :: '\n' :: (canonicalize chunk).toList := by
        simp
      rw [canonicalize, hList, hJoin, ← hList, String.ofList_toList]

/-- `append`: grow a Growing section. -/
def append (t : PromptTemplate) (name text : String) : Except JsonError PromptTemplate :=
  match hFind : t.sections.find? fun s => s.name == name with
  | none => .error (.logicError
      ("PromptTemplate::append: no section named '" ++ name ++ "'"))
  | some s =>
    if s.stability ≠ .growing then
      .error (.logicError ("PromptTemplate::append: section '" ++ name ++ "' is " ++
        s.stability.nameOf ++ ", not growing"))
    else
      .ok (t.setText name (appendedText s.text text)
        (canonicalize_appendedText text (t.canonical s (List.mem_of_find?_eq_some hFind))))

/-- `rewrite`: replace the body of a Volatile section. -/
def rewrite (t : PromptTemplate) (name text : String) : Except JsonError PromptTemplate := do
  let s ← t.locate name "rewrite"
  if s.stability ≠ .volatile then
    throw (.logicError ("PromptTemplate::rewrite: section '" ++ name ++ "' is " ++
      s.stability.nameOf ++ ", not volatile"))
  return t.setText name (canonicalize text) (canonicalize_idem text)

/-- `erase`: remove a Volatile section. -/
def erase (t : PromptTemplate) (name : String) : Except JsonError PromptTemplate := do
  let s ← t.locate name "erase"
  if s.stability ≠ .volatile then
    throw (.logicError ("PromptTemplate::erase: section '" ++ name ++ "' is " ++
      s.stability.nameOf ++ ", not volatile"))
  return {
    headingLevel := t.headingLevel
    sections := t.sections.eraseP fun s => s.name == name
    unique := t.unique.sublist (List.Sublist.map _ List.eraseP_sublist)
    tiered := t.tiered.sublist List.eraseP_sublist
    canonical := fun s hs => t.canonical s (List.mem_of_mem_eraseP hs) }

/-! ## Rendering -/

structure SectionSpan where
  name : String
  stability : SectionStability
  spanBegin : Nat
  spanEnd : Nat
  deriving DecidableEq

structure RenderedPrompt where
  markdown : String
  spans : List SectionSpan

def sectionPart (headingLevel : Int32) (s : PromptSection) : String :=
  let heading :=
    if s.title.isEmpty then ""
    else String.ofList (List.replicate headingLevel.toInt.toNat '#') ++ " " ++ s.title
  if s.text.isEmpty then heading
  else if heading.isEmpty then s.text
  else heading ++ "\n\n" ++ s.text

def renderSection (headingLevel : Int32) (out : RenderedPrompt) (s : PromptSection) :
    RenderedPrompt :=
  let part := sectionPart headingLevel s
  if part.isEmpty then out
  else
    let before := if out.markdown.isEmpty then "" else out.markdown ++ "\n\n"
    { markdown := before ++ part
      spans := out.spans ++ [⟨s.name, s.stability, before.utf8ByteSize,
        (before ++ part).utf8ByteSize⟩] }

/-- `render`: refuses a heading level outside 1..6. -/
def render (t : PromptTemplate) : Except JsonError RenderedPrompt :=
  if t.headingLevel < 1 ∨ 6 < t.headingLevel then
    .error (.logicError "PromptTemplate::render: heading_level must be within 1..6")
  else
    let out := t.sections.foldl (renderSection t.headingLevel) ⟨"", []⟩
    .ok (if out.markdown.isEmpty then out else { out with markdown := out.markdown ++ "\n" })

/-! ## The JSON form -/

/-- `to_json`: the structured form, never the rendered one. -/
def toJson (t : PromptTemplate) : Json :=
  (Json.object [("heading_level", .int t.headingLevel)]).set "sections"
    (.arr (t.sections.map PromptSection.toJson))

/-- `from_json`: a `sections` value that is not an array is ignored. -/
def fromJson (j : Json) : Except JsonError PromptTemplate := do
  let headingLevel ← j.readField "heading_level" 2 Json.getInt32
  match j.find? "sections" with
  | some (.arr items) =>
    items.foldlM (fun t item => do
      let s ← PromptSection.fromJson item
      t.addSection s.name s.title s.text s.stability) { empty with headingLevel }
  | _ => return { empty with headingLevel }

theorem addSection_next (t u : PromptTemplate) (s : PromptSection) (rest : List PromptSection)
    (hSections : u.sections ++ s :: rest = t.sections) :
    ∃ v : PromptTemplate, u.addSection s.name s.title s.text s.stability = .ok v ∧
      v.headingLevel = u.headingLevel ∧ v.sections = u.sections ++ [s] := by
  have hFresh : u.contains s.name = false := by
    have hNodup := t.unique
    rw [← hSections, List.map_append, List.nodup_append] at hNodup
    simp only [contains, List.any_eq_false, beq_iff_eq]
    intro s' hs' hName
    exact hNodup.2.2 s'.name (List.mem_map_of_mem hs') s.name (by simp) hName
  have hTier : ∀ last, u.sections.getLast? = some last →
      last.stability.rank ≤ s.stability.rank := by
    intro last hLast
    have hTiered := t.tiered
    rw [← hSections] at hTiered
    exact (List.pairwise_append.mp hTiered).2.2 last (List.mem_of_getLast? hLast) s (by simp)
  have hText : canonicalize s.text = s.text :=
    t.canonical s (by rw [← hSections]; simp)
  have hSection : PromptSection.mk s.name s.title s.stability (canonicalize s.text) = s := by
    rw [hText]
  refine ⟨u.push ⟨s.name, s.title, s.stability, canonicalize s.text⟩ hFresh hTier
    (canonicalize_idem s.text), ?_, rfl, ?_⟩
  · rw [addSection, dif_neg (by simp [hFresh]), dif_pos hTier]
  · exact congrArg (fun added => u.sections ++ [added]) hSection

theorem foldlM_addSection (t : PromptTemplate) (rest : List PromptSection) :
    ∀ u : PromptTemplate, u.headingLevel = t.headingLevel → u.sections ++ rest = t.sections →
      rest.foldlM (fun u s => u.addSection s.name s.title s.text s.stability) u = Except.ok t := by
  induction rest with
  | nil =>
    intro u hLevel hSections
    have hEq : u = t := PromptTemplate.ext hLevel (by simpa using hSections)
    rw [hEq]
    rfl
  | cons s rest ih =>
    intro u hLevel hSections
    obtain ⟨v, hAdd, hLevel', hSections'⟩ := addSection_next t u s rest hSections
    simp only [List.foldlM_cons, hAdd]
    exact ih v (hLevel'.trans hLevel) (by rw [hSections']; simpa using hSections)

theorem foldlM_fromJson (sections : List PromptSection) : ∀ u : PromptTemplate,
      (sections.map PromptSection.toJson).foldlM (fun t item => do
        let s ← PromptSection.fromJson item
        t.addSection s.name s.title s.text s.stability) u =
      sections.foldlM (fun u s => u.addSection s.name s.title s.text s.stability) u := by
  induction sections with
  | nil => intro u; rfl
  | cons s rest ih =>
    intro u
    simp only [List.map_cons, List.foldlM_cons, PromptSection.fromJson_toJson]
    congr 1
    funext v
    exact ih v

/-- **Round trip**: decoding the stored form of a template gives the template. -/
theorem fromJson_toJson (t : PromptTemplate) : fromJson t.toJson = .ok t := by
  have hLevel : t.toJson.find? "heading_level" = some (.int t.headingLevel) := by
    simp [toJson, Json.find?_set]
  have hSections : t.toJson.find? "sections" =
      some (.arr (t.sections.map PromptSection.toJson)) := by
    simp [toJson, Json.find?_set]
  rw [fromJson, Json.readField_of_find hLevel, Json.getInt32_int, hSections]
  exact (foldlM_fromJson t.sections _).trans (foldlM_addSection t t.sections _ rfl rfl)

end PromptTemplate

end SimplexAgent.Dataclass
