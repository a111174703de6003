import SimplexAgent.Dataclass.RawPrompt
import SimplexAgent.Verified.Interruptible

/-!
# A prompt template under edits

The operations on `PromptTemplate`, `dataclass/prompt_template.hpp`, one after the other, and
what each of them leaves of the rendered prompt. A provider caches a prompt by its first bytes,
so what counts is how far the rendering before an operation is still the beginning of the
rendering after it (`KeepsUpTo`).

A rendering only ever grows at its end (`markdown_grows`). So the bytes up to the end of a span
depend on the sections up to that one alone (`span_section`).

The source works on the stored members and throws in between; `exec_inPlace` says that this comes
to the operations on whole templates.
-/

namespace SimplexAgent.Dataclass.PromptTemplate

open Verified.Interruptible

inductive Operation where
  | addSection (name title text : String) (stability : SectionStability)
  | append (name text : String)
  | rewrite (name text : String)
  | erase (name : String)
  | fromJson (j : Json)

def apply (t : PromptTemplate) : Operation → Except JsonError PromptTemplate
  | .addSection name title text stability => t.addSection name title text stability
  | .append name text => t.append name text
  | .rewrite name text => t.rewrite name text
  | .erase name => t.erase name
  | .fromJson j => fromJson j

def perform (t : PromptTemplate) (op : Operation) : Except JsonError Unit × PromptTemplate :=
  match t.apply op with
  | .ok changed => (.ok (), changed)
  | .error failure => (.error failure, t)

/-- One operation after the other, whether or not one is refused. -/
def performAll (t : PromptTemplate) (ops : List Operation) : PromptTemplate :=
  ops.foldl (fun t op => (t.perform op).2) t

def before (t : PromptTemplate) (name : String) : List PromptSection :=
  t.sections.takeWhile fun s => s.name ≠ name

/-- The sections whose rendered bytes an operation is to leave alone: those before the one it
is about, and for `append` that one as well. -/
def keptSections (t : PromptTemplate) : Operation → List PromptSection
  | .addSection name _ _ _ => t.before name
  | .append name _ => t.before name ++ t.sections.filter fun s => s.name = name
  | .rewrite name _ => t.before name
  | .erase name => t.before name
  | .fromJson _ => []

/-- The rendering begins with the first bytes of the one before. -/
def KeepsUpTo (old new : RenderedPrompt) (position : Nat) : Prop :=
  (bytesOf old.markdown).take position <+: bytesOf new.markdown

/-! ## The parts of a rendering -/

variable {t u : PromptTemplate}
variable {front back : List PromptSection} {t : PromptTemplate}

def renderSections (headingLevel : Int32) (sections : List PromptSection) : RenderedPrompt :=
  sections.foldl (renderSection headingLevel) ⟨"", []⟩

def contributes (headingLevel : Int32) (s : PromptSection) : Bool :=
  !(sectionPart headingLevel s).isEmpty

variable (headingLevel : Int32)

theorem renderSections_append (front : List PromptSection) (s : PromptSection) :
    renderSections headingLevel (front ++ [s]) =
      renderSection headingLevel (renderSections headingLevel front) s := by
  rw [renderSections, List.foldl_append]
  rfl

theorem renderSection_grows (out : RenderedPrompt) (s : PromptSection) :
    bytesOf out.markdown <+: bytesOf (renderSection headingLevel out s).markdown := by
  unfold renderSection
  by_cases hPart : (sectionPart headingLevel s).isEmpty = true
  · rw [if_pos hPart]
  · rw [if_neg hPart]
    by_cases hOut : out.markdown.isEmpty = true
    · rw [String.isEmpty_iff.mp hOut]
      exact List.nil_prefix
    · simp only [if_neg hOut, bytesOf_append, List.append_assoc]
      exact List.prefix_append _ _

theorem foldl_grows (sections : List PromptSection) : ∀ out, bytesOf out.markdown <+:
      bytesOf (sections.foldl (renderSection headingLevel) out).markdown := by
  induction sections with
  | nil => exact fun out => List.prefix_rfl
  | cons s rest ih =>
    intro out
    exact (renderSection_grows headingLevel out s).trans (ih _)

theorem markdown_grows (front back : List PromptSection) :
    bytesOf (renderSections headingLevel front).markdown <+:
      bytesOf (renderSections headingLevel (front ++ back)).markdown := by
  rw [renderSections, renderSections, List.foldl_append]
  exact foldl_grows headingLevel back _

theorem renderSection_prefix {headingLevel : Int32} {s s' : PromptSection} (out : RenderedPrompt)
    (hPart : bytesOf (sectionPart headingLevel s) <+: bytesOf (sectionPart headingLevel s')) :
    bytesOf (renderSection headingLevel out s).markdown <+:
      bytesOf (renderSection headingLevel out s').markdown := by
  by_cases hEmpty : (sectionPart headingLevel s).isEmpty = true
  · have hSame : renderSection headingLevel out s = out := by
      unfold renderSection
      rw [if_pos hEmpty]
    rw [hSame]
    exact renderSection_grows headingLevel out s'
  · have hEmpty' : ¬(sectionPart headingLevel s').isEmpty = true := by
      intro h
      rw [String.isEmpty_iff.mp h, bytesOf_empty, List.prefix_nil] at hPart
      rw [← isEmpty_bytesOf, hPart] at hEmpty
      exact hEmpty rfl
    unfold renderSection
    rw [if_neg hEmpty, if_neg hEmpty']
    simp only [bytesOf_append]
    exact (List.prefix_append_right_inj _).mpr hPart

theorem span_section {headingLevel : Int32} {sections : List PromptSection} {span : SectionSpan}
    (hSpan : span ∈ (renderSections headingLevel sections).spans) :
    ∃ front s back, sections = front ++ s :: back ∧ s.name = span.name ∧
      s.stability = span.stability ∧ contributes headingLevel s = true ∧
      span.spanEnd = (bytesOf (renderSections headingLevel (front ++ [s])).markdown).length := by
  induction sections using List.reverseRecOn with
  | nil => cases hSpan
  | append_singleton init last ih =>
    by_cases hPart : (sectionPart headingLevel last).isEmpty = true
    · have hSame : renderSections headingLevel (init ++ [last]) =
          renderSections headingLevel init := by
        rw [renderSections_append]
        unfold renderSection
        rw [if_pos hPart]
      rw [hSame] at hSpan
      obtain ⟨front, s, back, hInit, hRest⟩ := ih hSpan
      exact ⟨front, s, back ++ [last], by simp [hInit], hRest⟩
    · have hMarkdown := renderSections_append headingLevel init last
      rw [hMarkdown] at hSpan
      unfold renderSection at hSpan hMarkdown
      rw [if_neg hPart] at hSpan hMarkdown
      rcases List.mem_append.mp hSpan with hInit | hLast
      · obtain ⟨front, s, back, hSections, hRest⟩ := ih hInit
        exact ⟨front, s, back ++ [last], by simp [hSections], hRest⟩
      · rw [List.mem_singleton.mp hLast]
        refine ⟨init, last, [], rfl, rfl, rfl, by simp [contributes, hPart], ?_⟩
        rw [hMarkdown, length_bytesOf]

theorem span_names (sections : List PromptSection) :
    (renderSections headingLevel sections).spans.map SectionSpan.name =
      (sections.filter (contributes headingLevel)).map PromptSection.name := by
  induction sections using List.reverseRecOn with
  | nil => rfl
  | append_singleton init last ih =>
    rw [renderSections_append, List.filter_append, List.map_append, ← ih]
    unfold renderSection
    by_cases hPart : (sectionPart headingLevel last).isEmpty = true
    · rw [if_pos hPart, List.filter_singleton]
      simp [contributes, hPart]
    · rw [if_neg hPart, List.filter_singleton]
      simp [contributes, hPart]

/-- `render` puts one line feed behind the sections. -/
theorem render_eq_ok {out : RenderedPrompt} (hRender : t.render = .ok out) :
    ¬(t.headingLevel < 1 ∨ 6 < t.headingLevel) ∧
      out.spans = (renderSections t.headingLevel t.sections).spans ∧
      bytesOf (renderSections t.headingLevel t.sections).markdown <+: bytesOf out.markdown := by
  unfold render at hRender
  by_cases hLevel : t.headingLevel < 1 ∨ 6 < t.headingLevel
  · rw [if_pos hLevel] at hRender
    cases hRender
  · rw [if_neg hLevel] at hRender
    refine ⟨hLevel, ?_⟩
    simp only [Except.ok.injEq] at hRender
    rw [← hRender]
    split
    · exact ⟨rfl, List.prefix_rfl⟩
    · refine ⟨rfl, ?_⟩
      rw [bytesOf_append]
      exact List.prefix_append _ _

theorem exists_render (hLevel : ¬(t.headingLevel < 1 ∨ 6 < t.headingLevel)) :
    ∃ out, t.render = .ok out := by
  unfold render
  rw [if_neg hLevel]
  exact ⟨_, rfl⟩

theorem keepsUpTo_of_front {old new : RenderedPrompt} {front back back' : List PromptSection}
    {s s' : PromptSection} {position : Nat} (hOld : t.render = .ok old) (hNew : u.render = .ok new)
    (hLevel : u.headingLevel = t.headingLevel) (hSections : t.sections = front ++ s :: back)
    (hSections' : u.sections = front ++ s' :: back')
    (hPart : bytesOf (sectionPart t.headingLevel s) <+: bytesOf (sectionPart t.headingLevel s'))
    (hPosition : position = (bytesOf (renderSections t.headingLevel (front ++ [s])).markdown).length) :
    KeepsUpTo old new position := by
  have hBefore := (markdown_grows t.headingLevel (front ++ [s]) back).trans (by
    simpa [hSections] using (render_eq_ok hOld).2.2)
  have hAfter := (markdown_grows t.headingLevel (front ++ [s']) back').trans (by
    simpa [hSections', hLevel] using (render_eq_ok hNew).2.2)
  have hSame : bytesOf (renderSections t.headingLevel (front ++ [s])).markdown <+:
      bytesOf (renderSections t.headingLevel (front ++ [s'])).markdown := by
    rw [renderSections_append, renderSections_append]
    exact renderSection_prefix _ hPart
  unfold KeepsUpTo
  rw [hPosition, ← List.prefix_iff_eq_take.mp hBefore]
  exact hSame.trans hAfter

/-! ## What an operation leaves in front -/

theorem eq_of_name (t : PromptTemplate) {s s' : PromptSection} (hs : s ∈ t.sections)
    (hs' : s' ∈ t.sections) (hName : s.name = s'.name) : s = s' :=
  List.inj_on_of_nodup_map t.unique hs hs' hName

theorem front_of_before {name : String} {s : PromptSection}
    (hSections : t.sections = front ++ s :: back) (hMem : s ∈ t.before name) :
    ∀ x ∈ front ++ [s], x.name ≠ name := by
  have hFront : front ++ [s] <+: t.sections := ⟨back, by simp [hSections]⟩
  have hBefore : t.before name <+: t.sections := List.takeWhile_prefix _
  have hWithin : front ++ [s] <+: t.before name := by
    apply List.prefix_of_prefix_length_le hFront hBefore
    by_contra hShort
    have hInside : t.before name <+: front := by
      apply List.prefix_of_prefix_length_le hBefore ((List.prefix_append _ _).trans hFront)
      rw [List.length_append, List.length_singleton] at hShort
      omega
    have hNodup := t.unique.of_map
    rw [hSections] at hNodup
    exact (List.nodup_middle.mp hNodup).notMem (List.mem_append_left _ (hInside.subset hMem))
  intro x hx
  simpa using List.mem_takeWhile_imp (hWithin.subset hx)

theorem front_of_named {s : PromptSection} (hSections : t.sections = front ++ s :: back) :
    ∀ x ∈ front, x.name ≠ s.name := by
  intro x hx hName
  have hSame : x = s := t.eq_of_name (by simp [hSections, hx]) (by simp [hSections]) hName
  have hNodup := t.unique.of_map
  rw [hSections] at hNodup
  exact (List.nodup_middle.mp hNodup).notMem (List.mem_append_left _ (hSame ▸ hx))

def withText (name text : String) (s : PromptSection) : PromptSection :=
  if s.name = name then { s with text := text } else s

theorem map_withText {name text : String} {front : List PromptSection}
    (hFront : ∀ x ∈ front, x.name ≠ name) : front.map (withText name text) = front := by
  conv => rhs; rw [← List.map_id front]
  exact List.map_congr_left fun x hx => if_neg (hFront x hx)

theorem appendedText_grows (text chunk : String) :
    bytesOf text <+: bytesOf (appendedText text chunk) := by
  unfold appendedText
  by_cases hChunk : (canonicalize chunk).isEmpty = true
  · rw [if_pos hChunk]
  · rw [if_neg hChunk]
    by_cases hText : text.isEmpty = true
    · rw [String.isEmpty_iff.mp hText]
      exact List.nil_prefix
    · rw [if_neg hText, bytesOf_append, bytesOf_append, List.append_assoc]
      exact List.prefix_append _ _

/-- A longer body is more to contribute. -/
theorem sectionPart_grows (s : PromptSection) {text : String}
    (hText : bytesOf s.text <+: bytesOf text) : bytesOf (sectionPart headingLevel s) <+:
      bytesOf (sectionPart headingLevel { s with text := text }) := by
  unfold sectionPart
  generalize (if s.title.isEmpty = true then ""
    else String.ofList (List.replicate headingLevel.toInt.toNat '#') ++ " " ++ s.title) = heading
  by_cases hEmpty : s.text.isEmpty = true
  · simp only [hEmpty, if_true]
    by_cases hText' : text.isEmpty = true
    · rw [if_pos hText']
    · rw [if_neg hText']
      by_cases hHeading : heading.isEmpty = true
      · rw [if_pos hHeading, String.isEmpty_iff.mp hHeading]
        exact List.nil_prefix
      · rw [if_neg hHeading, bytesOf_append, bytesOf_append, List.append_assoc]
        exact List.prefix_append _ _
  · have hText' : ¬text.isEmpty = true := by
      intro h
      rw [String.isEmpty_iff.mp h, bytesOf_empty, List.prefix_nil] at hText
      rw [← isEmpty_bytesOf, hText] at hEmpty
      exact hEmpty rfl
    simp only [if_neg hEmpty, if_neg hText']
    by_cases hHeading : heading.isEmpty = true
    · simpa only [if_pos hHeading] using hText
    · simp only [if_neg hHeading, bytesOf_append]
      exact (List.prefix_append_right_inj _).mpr hText

theorem append_ok {name text : String} (hOk : t.append name text = .ok u) :
    u.headingLevel = t.headingLevel ∧ ∃ s ∈ t.sections, s.name = name ∧
      u.sections = t.sections.map (withText name (appendedText s.text text)) := by
  unfold append at hOk
  split at hOk
  · cases hOk
  · rename_i s hFind
    by_cases hGrowing : s.stability ≠ .growing
    · rw [if_pos hGrowing] at hOk
      cases hOk
    · rw [if_neg hGrowing] at hOk
      cases hOk
      exact ⟨rfl, s, List.mem_of_find?_eq_some hFind, by simpa using List.find?_some hFind, rfl⟩

theorem rewrite_ok {name text : String} (hOk : t.rewrite name text = .ok u) :
    u.headingLevel = t.headingLevel ∧
      u.sections = t.sections.map (withText name (canonicalize text)) := by
  unfold rewrite at hOk
  cases hFound : t.locate name "rewrite" with
  | error failure =>
    rw [hFound] at hOk
    cases hOk
  | ok s =>
    simp only [hFound, bind, Except.bind] at hOk
    by_cases hVolatile : s.stability ≠ .volatile
    · rw [if_pos hVolatile] at hOk
      cases hOk
    · rw [if_neg hVolatile] at hOk
      cases hOk
      exact ⟨rfl, rfl⟩

theorem erase_ok {name : String} (hOk : t.erase name = .ok u) : u.headingLevel = t.headingLevel ∧
      u.sections = t.sections.eraseP fun s => s.name == name := by
  unfold erase at hOk
  cases hFound : t.locate name "erase" with
  | error failure =>
    rw [hFound] at hOk
    cases hOk
  | ok s =>
    simp only [hFound, bind, Except.bind] at hOk
    by_cases hVolatile : s.stability ≠ .volatile
    · rw [if_pos hVolatile] at hOk
      cases hOk
    · rw [if_neg hVolatile] at hOk
      cases hOk
      exact ⟨rfl, rfl⟩

theorem addSection_ok {name title text : String} {stability : SectionStability}
    (hOk : t.addSection name title text stability = .ok u) :
    u.headingLevel = t.headingLevel ∧ ∃ s, u.sections = t.sections ++ [s] := by
  unfold addSection at hOk
  split at hOk
  · cases hOk
  · split at hOk
    · cases hOk
      exact ⟨rfl, _, rfl⟩
    · cases hOk

theorem apply_front {op : Operation} {s : PromptSection} (hOk : t.apply op = .ok u)
    (hSections : t.sections = front ++ s :: back) (hKept : s ∈ t.keptSections op) :
    u.headingLevel = t.headingLevel ∧ ∃ s' back', u.sections = front ++ s' :: back' ∧
      bytesOf (sectionPart t.headingLevel s) <+: bytesOf (sectionPart t.headingLevel s') := by
  cases op with
  | addSection name title text stability =>
    obtain ⟨hLevel, added, hAdded⟩ := addSection_ok hOk
    exact ⟨hLevel, s, back ++ [added], by simp [hAdded, hSections], List.prefix_rfl⟩
  | append name text =>
    obtain ⟨hLevel, found, hFound, hName, hChanged⟩ := append_ok hOk
    refine ⟨hLevel, ?_⟩
    rcases List.mem_append.mp hKept with hBefore | hNamed
    · have hFront := front_of_before hSections hBefore
      refine ⟨s, back.map (withText name (appendedText found.text text)), ?_, List.prefix_rfl⟩
      rw [hChanged, hSections, List.append_cons, List.map_append, map_withText hFront]
      simp
    · obtain ⟨hMem, hSelf⟩ := List.mem_filter.mp hNamed
      have hSelf : s.name = name := by simpa using hSelf
      have hSame : found = s := t.eq_of_name hFound hMem (hName.trans hSelf.symm)
      subst hSame
      have hFront := front_of_named hSections
      rw [hSelf] at hFront
      refine ⟨{ found with text := appendedText found.text text },
        back.map (withText name (appendedText found.text text)), ?_,
        sectionPart_grows _ _ (appendedText_grows _ _)⟩
      rw [hChanged, hSections, List.map_append, map_withText hFront, List.map_cons, withText,
        if_pos hSelf]
  | rewrite name text =>
    obtain ⟨hLevel, hChanged⟩ := rewrite_ok hOk
    have hFront := front_of_before hSections hKept
    refine ⟨hLevel, s, back.map (withText name (canonicalize text)), ?_, List.prefix_rfl⟩
    rw [hChanged, hSections, List.append_cons, List.map_append, map_withText hFront]
    simp
  | erase name =>
    obtain ⟨hLevel, hChanged⟩ := erase_ok hOk
    have hFront := front_of_before hSections hKept
    refine ⟨hLevel, s, back.eraseP fun s => s.name == name, ?_, List.prefix_rfl⟩
    rw [hChanged, hSections, List.append_cons, List.eraseP_append_right]
    · simp
    · intro x hx
      simpa using hFront x hx
  | fromJson j => cases hKept

theorem apply_level {op : Operation} (hOk : t.apply op = .ok u) (hEdit : ∀ j, op ≠ .fromJson j) :
    u.headingLevel = t.headingLevel := by
  cases op with
  | addSection name title text stability => exact (addSection_ok hOk).1
  | append name text => exact (append_ok hOk).1
  | rewrite name text => exact (rewrite_ok hOk).1
  | erase name => exact (erase_ok hOk).1
  | fromJson j => exact absurd rfl (hEdit j)

theorem keptSections_subset (t : PromptTemplate) (op : Operation) :
    t.keptSections op ⊆ t.sections := by
  have hBefore : ∀ name, t.before name ⊆ t.sections := fun _ =>
    (List.takeWhile_sublist _).subset
  cases op with
  | addSection name title text stability | rewrite name text | erase name => exact hBefore name
  | append name text =>
    exact List.append_subset.mpr ⟨hBefore name, List.filter_subset_self _⟩
  | fromJson j => exact List.nil_subset _

theorem apply_keepsUpTo {op : Operation} {old new : RenderedPrompt} {span : SectionSpan}
    (hOk : t.apply op = .ok u) (hOld : t.render = .ok old) (hNew : u.render = .ok new)
    (hSpan : span ∈ old.spans) (hKept : span.name ∈ (t.keptSections op).map PromptSection.name) :
    KeepsUpTo old new span.spanEnd := by
  rw [(render_eq_ok hOld).2.1] at hSpan
  obtain ⟨front, s, back, hSections, hName, -, -, hEnd⟩ := span_section hSpan
  obtain ⟨kept, hMem, hSame⟩ := List.mem_map.mp hKept
  have hEq : kept = s := t.eq_of_name (t.keptSections_subset op hMem) (by simp [hSections])
    (hSame.trans hName.symm)
  subst hEq
  obtain ⟨hLevel, s', back', hSections', hPart⟩ := apply_front hOk hSections hMem
  exact keepsUpTo_of_front hOld hNew hLevel hSections hSections' hPart hEnd

/-! ## In place -/

/-- The members of a template, on which the source works directly: what an exception finds
written stays written. -/
structure Stored where
  headingLevel : Int32
  sections : List PromptSection

def stored (t : PromptTemplate) : Stored := ⟨t.headingLevel, t.sections⟩

/-- `locate_`. -/
def locateIn (name who : String) : Prog Stored JsonError PromptSection := do
  let t ← get
  match t.sections.find? fun s => s.name == name with
  | some s => pure s
  | none => Prog.raise (.logicError
      ("PromptTemplate::" ++ who ++ ": no section named '" ++ name ++ "'"))

def changeText (name : String) (f : String → String) : Prog Stored JsonError Unit :=
  modify fun t => { t with
    sections := t.sections.map fun s => if s.name = name then { s with text := f s.text } else s }

def inPlace : Operation → Prog Stored JsonError Unit
  | .addSection name title text stability => do
    let t ← get
    if (t.sections.any fun s => s.name == name) = true then
      Prog.raise (.logicError
        ("PromptTemplate::add_section: duplicate section name '" ++ name ++ "'"))
    else if ∃ last ∈ t.sections.getLast?, stability.rank < last.stability.rank then
      Prog.raise (.logicError
        ("PromptTemplate::add_section: stability cannot go backwards ('" ++ name ++ "' is " ++
          stability.nameOf ++ ", last section '" ++
          (t.sections.getLast?.map PromptSection.name).getD "" ++ "' is " ++
          (t.sections.getLast?.map fun s => s.stability.nameOf).getD "" ++ ")"))
    else
      let added : PromptSection := { name, title, stability, text := canonicalize text }
      modify fun t => { t with sections := t.sections ++ [added] }
  | .append name text => do
    let s ← locateIn name "append"
    if s.stability ≠ .growing then
      Prog.raise (.logicError ("PromptTemplate::append: section '" ++ name ++ "' is " ++
        s.stability.nameOf ++ ", not growing"))
    else if (canonicalize text).isEmpty then pure ()
    else if s.text.isEmpty then changeText name (· ++ canonicalize text)
    else do
      changeText name (· ++ "\n\n")
      changeText name (· ++ canonicalize text)
  | .rewrite name text => do
    let s ← locateIn name "rewrite"
    if s.stability ≠ .volatile then
      Prog.raise (.logicError ("PromptTemplate::rewrite: section '" ++ name ++ "' is " ++
        s.stability.nameOf ++ ", not volatile"))
    else changeText name fun _ => canonicalize text
  | .erase name => do
    let s ← locateIn name "erase"
    if s.stability ≠ .volatile then
      Prog.raise (.logicError ("PromptTemplate::erase: section '" ++ name ++ "' is " ++
        s.stability.nameOf ++ ", not volatile"))
    else modify fun t => { t with sections := t.sections.eraseP fun s => s.name == name }
  | .fromJson j => do
    -- a side template is read and moved in place
    let rebuilt ← Prog.check (fromJson j)
    set rebuilt.stored

theorem exec_changeText {s : PromptSection} {name new : String} {f : String → String}
    (hMem : s ∈ t.sections) (hName : s.name = name) (hNew : f s.text = new) :
    (changeText name f).exec t.stored =
      (.ok (), ⟨t.headingLevel, t.sections.map (withText name new)⟩) := by
  have hSections : (t.sections.map fun s' =>
      if s'.name = name then { s' with text := f s'.text } else s') =
        t.sections.map (withText name new) := by
    refine List.map_congr_left fun s' hs' => ?_
    rw [withText]
    split
    · rename_i hSame
      rw [t.eq_of_name hs' hMem (hSame.trans hName.symm), hNew]
    · rfl
  rw [← hSections]
  rfl

theorem changeText_twice (name : String) (f g : String → String) (t : Stored) :
    (changeText name f >>= fun _ => changeText name g).exec t =
      (changeText name (g ∘ f)).exec t := by
  have hSections : (t.sections.map fun s => if s.name = name then { s with text := f s.text } else s).map
      (fun s => if s.name = name then { s with text := g s.text } else s) =
        t.sections.map fun s => if s.name = name then { s with text := g (f s.text) } else s := by
    rw [List.map_map]
    refine List.map_congr_left fun s _ => ?_
    by_cases hName : s.name = name <;> simp [hName]
  exact congrArg (fun sections => ((.ok (), ⟨t.headingLevel, sections⟩) :
    Except (Interrupt JsonError) Unit × Stored)) hSections

theorem changeText_id (name : String) (t : Stored) : (changeText name id).exec t = (.ok (), t) := by
  have hSections : (t.sections.map fun s =>
      if s.name = name then { s with text := id s.text } else s) = t.sections := by simp
  exact congrArg (fun sections => ((.ok (), ⟨t.headingLevel, sections⟩) :
    Except (Interrupt JsonError) Unit × Stored)) hSections

theorem append_eq {s : PromptSection} {name text : String}
    (hFind : (t.sections.find? fun s => s.name == name) = some s) :
    t.append name text = if s.stability ≠ .growing then
        .error (.logicError ("PromptTemplate::append: section '" ++ name ++ "' is " ++
          s.stability.nameOf ++ ", not growing"))
      else .ok (t.setText name (appendedText s.text text) (canonicalize_appendedText text
        (t.canonical s (List.mem_of_find?_eq_some hFind)))) := by
  unfold append
  split
  · rename_i hNone
    rw [hFind] at hNone
    cases hNone
  · rename_i s' hFind'
    rw [hFind, Option.some.injEq] at hFind'
    subst hFind'
    rfl

theorem exec_locateIn (t : PromptTemplate) (name who : String) :
    (locateIn name who).exec t.stored = ((t.locate name who).mapError .failure, t.stored) := by
  rw [locateIn, Prog.exec_bind, Prog.exec_get]
  dsimp only [stored]
  rw [locate]
  cases t.sections.find? fun s => s.name == name <;> rfl

/-- **The operations in place are those on whole templates**, also where one is refused. -/
theorem exec_inPlace (t : PromptTemplate) (op : Operation) : (inPlace op).exec t.stored =
    ((t.perform op).1.mapError .failure, (t.perform op).2.stored) := by
  cases op with
  | addSection name title text stability =>
    rw [inPlace, Prog.exec_bind, Prog.exec_get, perform, apply, addSection]
    dsimp only [stored]
    by_cases hFresh : t.contains name = true
    · have hAny : (t.sections.any fun s => s.name == name) = true := hFresh
      rw [dif_pos hFresh, if_pos hAny]
      rfl
    · have hAny : ¬(t.sections.any fun s => s.name == name) = true := hFresh
      rw [dif_neg hFresh, if_neg hAny]
      by_cases hTier : ∀ last, t.sections.getLast? = some last →
          last.stability.rank ≤ stability.rank
      · rw [dif_pos hTier, if_neg (by simpa using hTier)]
        rfl
      · rw [dif_neg hTier, if_pos (by simpa using hTier)]
        rfl
  | append name text =>
    rw [inPlace, Prog.exec_bind, exec_locateIn, perform, apply, locate]
    cases hFind : t.sections.find? fun s => s.name == name with
    | none =>
      have hRefused : t.append name text = .error (.logicError
          ("PromptTemplate::append: no section named '" ++ name ++ "'")) := by
        unfold append
        split
        · rfl
        · rename_i hSome
          rw [hFind] at hSome
          cases hSome
      rw [hRefused]
      rfl
    | some s =>
      have hChanged := fun f hNew => exec_changeText (List.mem_of_find?_eq_some hFind)
        (show s.name = name by simpa using List.find?_some hFind) (f := f)
        (show f s.text = appendedText s.text text from hNew)
      rw [append_eq hFind]
      simp only [Except.mapError]
      by_cases hGrowing : s.stability ≠ .growing
      · rw [if_pos hGrowing, if_pos hGrowing]
        rfl
      · rw [if_neg hGrowing, if_neg hGrowing]
        by_cases hChunk : (canonicalize text).isEmpty = true
        · rw [if_pos hChunk]
          exact (changeText_id name t.stored).symm.trans
            (hChanged id (by rw [appendedText, if_pos hChunk]; rfl))
        · rw [if_neg hChunk]
          by_cases hText : s.text.isEmpty = true
          · rw [if_pos hText]
            refine hChanged _ ?_
            rw [appendedText, if_neg hChunk, if_pos hText, String.isEmpty_iff.mp hText,
              String.empty_append]
          · rw [if_neg hText, changeText_twice]
            exact hChanged _ (by rw [appendedText, if_neg hChunk, if_neg hText]; rfl)
  | rewrite name text =>
    rw [inPlace, Prog.exec_bind, exec_locateIn, perform, apply, rewrite]
    cases t.locate name "rewrite" with
    | error e => rfl
    | ok s =>
      by_cases hStable : s.stability ≠ .volatile
      · simp only [Except.mapError, bind, Except.bind, if_pos hStable]
        rfl
      · simp only [Except.mapError, bind, Except.bind, if_neg hStable]
        rfl
  | erase name =>
    rw [inPlace, Prog.exec_bind, exec_locateIn, perform, apply, erase]
    cases t.locate name "erase" with
    | error e => rfl
    | ok s =>
      by_cases hStable : s.stability ≠ .volatile
      · simp only [Except.mapError, bind, Except.bind, if_pos hStable]
        rfl
      · simp only [Except.mapError, bind, Except.bind, if_neg hStable]
        rfl
  | fromJson j =>
    rw [inPlace, Prog.exec_bind, perform, apply]
    cases fromJson j <;> rfl

/-! ## Any operations -/

/--
**A template keeps its order, and its prompt its beginning.** After any operations, refused ones
among them: names are unique, tiers never go back, every body is canonical and the stored form
reads back; a further operation, performed in place, changes nothing if it is refused; and one that is not refused
leaves a prompt that renders as before does, up to the end of the last span before the section it
is about, and `append` up to the end of that section's own span. The spans are those of the
sections that contribute something, in order.
-/
theorem template_laws (start : PromptTemplate) (ops : List Operation) :
    let t := start.performAll ops
    ((t.sections.map PromptSection.name).Nodup ∧ Tiered t.sections ∧
      ∀ s ∈ t.sections, canonicalize s.text = s.text) ∧
    fromJson t.toJson = .ok t ∧
    (∀ old, t.render = .ok old → old.spans.map SectionSpan.name =
      (t.sections.filter (contributes t.headingLevel)).map PromptSection.name) ∧
    ∀ op,
      (inPlace op).exec t.stored =
        ((t.perform op).1.mapError .failure, (t.perform op).2.stored) ∧
      (∀ failure, (t.perform op).1 = .error failure → (t.perform op).2 = t) ∧
      ((t.perform op).1 = .ok () → (∀ j, op ≠ .fromJson j) →
        ∀ old, t.render = .ok old → ∃ new, (t.perform op).2.render = .ok new ∧ ∀ span ∈ old.spans,
            span.name ∈ (t.keptSections op).map PromptSection.name →
              KeepsUpTo old new span.spanEnd) := by
  intro t
  refine ⟨⟨t.unique, t.tiered, t.canonical⟩, fromJson_toJson t, ?_, ?_⟩
  · intro old hOld
    rw [(render_eq_ok hOld).2.1]
    exact span_names _ _
  intro op
  refine ⟨exec_inPlace t op, ?_⟩
  unfold perform
  cases hApply : t.apply op with
  | error failure =>
    refine ⟨fun _ _ => rfl, ?_⟩
    intro hOk
    cases hOk
  | ok u =>
    refine ⟨fun _ hError => (by cases hError), fun _ hEdit old hOld => ?_⟩
    have hLevel := (render_eq_ok hOld).1
    rw [← apply_level hApply hEdit] at hLevel
    obtain ⟨new, hNew⟩ := exists_render hLevel
    exact ⟨new, hNew, fun span hSpan hKept =>
      apply_keepsUpTo hApply hOld hNew hSpan hKept⟩

end SimplexAgent.Dataclass.PromptTemplate
