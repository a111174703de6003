import SimplexAgent.Hub.JsValue
import SimplexAgent.Verified.Shrink

/-!
# Fitting a dialogue into its bytes

`fit` of `subagents/conversation.ts` on dialogues whose strings need not be texts: what a worker
sends may hold lone surrogates, which take six bytes in JSON and three in a buffer, and which
cutting replaces.

Every move makes a turn lighter (`trim_weight`), so the loop ends. What the loop takes, it takes
from the old end: whole turns, then the steps of the last one, and only where a single step is left
the ends of its texts.
-/

namespace SimplexAgent.Hub.Js

open Verified

/-! ## Dialogues -/

structure ResponseExecution where
  workerId : Text
  requestId : Text
  runId : Text

structure AnswerSource where
  workerId : Text
  turn : Number
  step : Number
  commitSequence : Text
  fingerprint : Text

structure DialoguePart where
  type : Text
  modality : Text
  raw : Text
  truncated : Bool
  bytes : Option Number

structure DialogueStep where
  index : Number
  content : List DialoguePart
  execution : Option ResponseExecution
  answerSource : Option AnswerSource

/-- A turn. `source` is there exactly when `internal_input` is. -/
structure DialogueTurn where
  index : Number
  requestId : Option Text
  source : Option (Value Number)
  user : List DialoguePart
  steps : List DialogueStep

/-! ## Their JSON -/

/-- A member that may be missing. -/
def optional (key : String) (value : Option (Value Number)) : List (Text × Value Number) :=
  (value.map fun value => (text key, value)).toList

def ResponseExecution.toValue (execution : ResponseExecution) : Value Number :=
  .obj [(text "worker_id", .str execution.workerId), (text "request_id", .str execution.requestId),
    (text "run_id", .str execution.runId)]

def AnswerSource.toValue (source : AnswerSource) : Value Number :=
  .obj [(text "worker_id", .str source.workerId), (text "turn", .num source.turn),
    (text "step", .num source.step), (text "commit_sequence", .str source.commitSequence),
    (text "fingerprint", .str source.fingerprint)]

def DialoguePart.toValue (part : DialoguePart) : Value Number :=
  .obj ([(text "type", .str part.type), (text "modality", .str part.modality),
    (text "raw", .str part.raw)] ++
    optional "truncated" (if part.truncated then some (.bool true) else none) ++
    optional "bytes" (part.bytes.map .num))

def DialogueStep.toValue (step : DialogueStep) : Value Number :=
  .obj ([(text "index", .num step.index), (text "content", .arr (step.content.map (·.toValue)))] ++
    optional "execution" (step.execution.map (·.toValue)) ++
    optional "answer_source" (step.answerSource.map (·.toValue)))

def DialogueTurn.toValue (turn : DialogueTurn) : Value Number :=
  .obj ([(text "index", .num turn.index)] ++ optional "request_id" (turn.requestId.map .str) ++
    optional "internal_input" (turn.source.map fun _ => .str (text "auto_compact_continue")) ++
    optional "source" turn.source ++
    [(text "user", .arr (turn.user.map (·.toValue))),
      (text "steps", .arr (turn.steps.map (·.toValue)))])

/-- `Buffer.byteLength(JSON.stringify(turns))`. -/
def turnsBytes (turns : List DialogueTurn) : Nat := (Value.arr (turns.map (·.toValue))).bytes

/-! ## Cutting -/

def maxTurnSteps : Nat := 32

/-- `slice(-count)`. -/
def newest {α : Type} (count : Nat) (list : List α) : List α := list.drop (list.length - count)

def clipInput (user : List DialoguePart) : Option (List DialoguePart) :=
  match user with
  | input :: rest =>
    if 256 < Utf16.byteLength input.raw then
      some ({ input with raw := Utf16.takeBytes 256 input.raw } :: rest)
    else none
  | [] => none

/-- An answer loses its last part, and the text of its only part by halves. -/
def clipContent (content : List DialoguePart) : Option (List DialoguePart) :=
  if 1 < content.length then some content.dropLast
  else
    match content with
    | part :: rest =>
      if part.raw.length = 0 then none
      else
        some ({ part with
          bytes := some (part.bytes.getD (.safe (Utf16.byteLength part.raw)))
          truncated := true
          raw := Utf16.takeBytes (Utf16.byteLength part.raw / 2) part.raw } :: rest)
    | [] => none

/-- One move of `fit` on the only turn left, if there is one. -/
def trim (turn : DialogueTurn) : Option DialogueTurn :=
  if 1 < turn.steps.length then some { turn with steps := turn.steps.tail }
  else if 1 < turn.user.length then some { turn with user := turn.user.dropLast }
  else
    match clipInput turn.user with
    | some user => some { turn with user := user }
    | none =>
      match turn.steps with
      | [] => none
      | step :: rest =>
        (clipContent step.content).map fun content =>
          { turn with steps := { step with content := content } :: rest }

/-- One move of `fit`. -/
def evict (turns : List DialogueTurn) : List DialogueTurn :=
  match turns with
  | [] => []
  | [turn] => (trim turn).toList
  | _ :: rest => rest

/-- The loop of `fit` is over. -/
def fits (maxBytes : Int) (turns : List DialogueTurn) : Bool :=
  (turnsBytes turns : Int) ≤ maxBytes - 1024 || turns.isEmpty

/-- The first loop of `fit`. -/
def capSteps (turn : DialogueTurn) : DialogueTurn :=
  { turn with steps := newest maxTurnSteps turn.steps }

def partsWeight (parts : List DialoguePart) : Nat :=
  (parts.map fun part => 1 + Utf16.byteLength part.raw).sum

def DialogueStep.weight (step : DialogueStep) : Nat := 1 + partsWeight step.content

/-- What `trim` can take from a turn. -/
def DialogueTurn.weight (turn : DialogueTurn) : Nat :=
  partsWeight turn.user + (turn.steps.map (·.weight)).sum

/-- The bytes and the number of the parts that a dialogue can lose. -/
def weight (turns : List DialogueTurn) : Nat := (turns.map fun turn => 1 + turn.weight).sum

/-- `fit`. -/
def fit (maxBytes : Int) (turns : List DialogueTurn) : List DialogueTurn :=
  shrink (fits maxBytes) evict (weight (turns.map capSteps) + 1) (turns.map capSteps)

/-- The four moves of `trim`, in their order. -/
theorem trim_cases {turn trimmed : DialogueTurn} (h : trim turn = some trimmed) :
    (1 < turn.steps.length ∧ trimmed = { turn with steps := turn.steps.tail }) ∨
    turn.steps.length ≤ 1 ∧
      ((1 < turn.user.length ∧ trimmed = { turn with user := turn.user.dropLast }) ∨
      (∃ user, clipInput turn.user = some user ∧ trimmed = { turn with user := user }) ∨
      ∃ step rest content, turn.steps = step :: rest ∧ clipContent step.content = some content ∧
        trimmed = { turn with steps := { step with content := content } :: rest }) := by
  unfold trim at h
  by_cases hSteps : 1 < turn.steps.length
  · rw [if_pos hSteps, Option.some.injEq] at h
    exact .inl ⟨hSteps, h.symm⟩
  rw [if_neg hSteps] at h
  refine .inr ⟨Nat.not_lt.mp hSteps, ?_⟩
  by_cases hUser : 1 < turn.user.length
  · rw [if_pos hUser, Option.some.injEq] at h
    exact .inl ⟨hUser, h.symm⟩
  rw [if_neg hUser] at h
  cases hInput : clipInput turn.user with
  | some user =>
    rw [hInput] at h
    exact .inr (.inl ⟨user, rfl, (Option.some.inj h).symm⟩)
  | none =>
    rw [hInput] at h
    cases hTurn : turn.steps with
    | nil =>
      rw [hTurn] at h
      cases h
    | cons step rest =>
      simp only [hTurn, Option.map_eq_some_iff] at h
      obtain ⟨content, hContent, hTrimmed⟩ := h
      exact .inr (.inr ⟨step, rest, content, rfl, hContent, hTrimmed.symm⟩)

/-! ## The loop ends -/

theorem partsWeight_dropLast (part : DialoguePart) (rest : List DialoguePart) :
    partsWeight (part :: rest).dropLast < partsWeight (part :: rest) := by
  induction rest generalizing part with
  | nil =>
    simp only [partsWeight, List.dropLast_singleton, List.map_nil, List.sum_nil, List.map_cons,
      List.sum_cons]
    omega
  | cons next rest ih =>
    have hRest := ih next
    simp only [partsWeight, List.dropLast_cons_cons, List.map_cons, List.sum_cons] at hRest ⊢
    omega

theorem clipInput_weight {user clipped : List DialoguePart} (h : clipInput user = some clipped) :
    partsWeight clipped < partsWeight user := by
  cases user with
  | nil => cases h
  | cons input rest =>
    simp only [clipInput] at h
    split at h
    · rename_i hLarge
      rw [Option.some.injEq] at h
      subst h
      have hPrefix := Utf16.byteLength_takeBytes_le 256 input.raw
      simp only [partsWeight, List.map_cons, List.sum_cons]
      omega
    · cases h

theorem clipContent_weight {content clipped : List DialoguePart}
    (h : clipContent content = some clipped) : partsWeight clipped < partsWeight content := by
  unfold clipContent at h
  by_cases hMany : 1 < content.length
  · rw [if_pos hMany, Option.some.injEq] at h
    cases content with
    | nil => exact absurd hMany (Nat.not_lt_zero _)
    | cons part rest => exact h ▸ partsWeight_dropLast part rest
  · rw [if_neg hMany] at h
    cases content with
    | nil => cases h
    | cons part rest =>
      simp only at h
      split at h
      · cases h
      · rename_i hText
        rw [Option.some.injEq] at h
        subst h
        have hPositive := Utf16.byteLength_pos (List.length_eq_zero_iff.not.mp hText)
        have hPrefix := Utf16.byteLength_takeBytes_le (Utf16.byteLength part.raw / 2) part.raw
        simp only [partsWeight, List.map_cons, List.sum_cons]
        omega

theorem trim_weight {turn trimmed : DialogueTurn} (h : trim turn = some trimmed) :
    trimmed.weight < turn.weight := by
  rcases trim_cases h with ⟨hMany, rfl⟩ | ⟨-, ⟨hMany, rfl⟩ | ⟨user, hInput, rfl⟩ |
    ⟨step, rest, content, hTurn, hContent, rfl⟩⟩
  · cases hTurn : turn.steps with
    | nil =>
      rw [hTurn] at hMany
      exact absurd hMany (Nat.not_lt_zero _)
    | cons step rest =>
      simp only [DialogueTurn.weight, hTurn, List.tail_cons, List.map_cons, List.sum_cons,
        DialogueStep.weight]
      omega
  · cases hUser : turn.user with
    | nil =>
      rw [hUser] at hMany
      exact absurd hMany (Nat.not_lt_zero _)
    | cons part rest =>
      have hLess := partsWeight_dropLast part rest
      simp only [DialogueTurn.weight, hUser]
      omega
  · have hLess := clipInput_weight hInput
    simp only [DialogueTurn.weight]
    omega
  · have hLess := clipContent_weight hContent
    simp only [DialogueTurn.weight, hTurn, List.map_cons, List.sum_cons, DialogueStep.weight]
    omega

theorem evict_weight (maxBytes : Int) (turns : List DialogueTurn)
    (h : fits maxBytes turns = false) : weight (evict turns) < weight turns := by
  cases turns with
  | nil => simp [fits] at h
  | cons turn rest =>
    cases rest with
    | cons next more =>
      simp only [evict, weight, List.map_cons, List.sum_cons]
      omega
    | nil =>
      cases hMove : trim turn with
      | none =>
        simp only [evict, hMove, Option.toList_none, weight, List.map_cons, List.map_nil,
          List.sum_cons, List.sum_nil]
        omega
      | some trimmed =>
        have hLess := trim_weight hMove
        simp only [evict, hMove, Option.toList_some, weight, List.map_cons, List.map_nil,
          List.sum_cons, List.sum_nil]
        omega

theorem fit_fits (maxBytes : Int) (turns : List DialogueTurn) :
    fits maxBytes (fit maxBytes turns) = true :=
  shrink_fits weight (evict_weight maxBytes) _ _ (Nat.lt_succ_self _)

/-! ## What the loop leaves -/

/-- A text, or whole characters from its beginning, where the replacement stands for lone
surrogates. -/
def TextCut (cut whole : Text) : Prop :=
  cut = whole ∨ Utf16.WellFormed cut ∧ Utf16.chars cut <+: Utf16.chars whole

structure PartCut (cut whole : DialoguePart) : Prop where
  type : cut.type = whole.type
  modality : cut.modality = whole.modality
  raw : TextCut cut.raw whole.raw

def PartsCut (cut whole : List DialoguePart) : Prop :=
  ∀ (n : Nat) part, cut[n]? = some part → ∃ other, whole[n]? = some other ∧ PartCut part other

structure StepCut (cut whole : DialogueStep) : Prop where
  index : cut.index = whole.index
  execution : cut.execution = whole.execution
  answerSource : cut.answerSource = whole.answerSource
  content : PartsCut cut.content whole.content

structure TurnCut (cut whole : DialogueTurn) : Prop where
  index : cut.index = whole.index
  requestId : cut.requestId = whole.requestId
  source : cut.source = whole.source
  user : PartsCut cut.user whole.user
  steps : (cut.user = whole.user ∧ ∃ n, cut.steps = whole.steps.drop n) ∨ cut.steps.length ≤ 1 ∧
      ∀ step ∈ cut.steps, ∃ last, whole.steps.getLast? = some last ∧ StepCut step last
  kept : cut.steps = [] → whole.steps = []

def LeftOver (kept whole : List DialogueTurn) : Prop :=
  (∃ n, kept = whole.drop n) ∨
    ∃ cut last, kept = [cut] ∧ whole.getLast? = some last ∧ TurnCut cut last

theorem TextCut.takeBytes {cut whole : Text} (h : TextCut cut whole) (n : Nat) :
    TextCut (Utf16.takeBytes n cut) whole := by
  refine .inr ⟨Utf16.wellFormed_encode _, ?_⟩
  rcases h with rfl | ⟨-, hPrefix⟩
  · exact Utf16.chars_takeBytes _ _
  · exact (Utf16.chars_takeBytes _ _).trans hPrefix

theorem PartCut.refl (part : DialoguePart) : PartCut part part := ⟨rfl, rfl, .inl rfl⟩

namespace PartsCut

variable {cut whole clipped : List DialoguePart}

theorem refl (parts : List DialoguePart) : PartsCut parts parts :=
  fun _ part hPart => ⟨part, hPart, PartCut.refl part⟩

theorem dropLast (h : PartsCut cut whole) : PartsCut cut.dropLast whole := by
  intro n part hPart
  rw [List.getElem?_dropLast] at hPart
  split at hPart
  · exact h n part hPart
  · cases hPart

theorem first {part clip : DialoguePart} {rest : List DialoguePart}
    (h : PartsCut (part :: rest) whole)
    (hClip : ∀ other, PartCut part other → PartCut clip other) : PartsCut (clip :: rest) whole := by
  intro n found hFound
  cases n with
  | zero =>
    rw [List.getElem?_cons_zero, Option.some.injEq] at hFound
    obtain ⟨other, hOther, hCut⟩ := h 0 part rfl
    exact ⟨other, hOther, hFound ▸ hClip other hCut⟩
  | succ n => exact h (n + 1) found hFound

theorem clipInput (h : PartsCut cut whole) (hClip : Js.clipInput cut = some clipped) :
    PartsCut clipped whole := by
  cases cut with
  | nil => cases hClip
  | cons input rest =>
    simp only [Js.clipInput] at hClip
    split at hClip
    · rw [Option.some.injEq] at hClip
      exact hClip ▸ h.first fun other hCut => ⟨hCut.type, hCut.modality, hCut.raw.takeBytes _⟩
    · cases hClip

theorem clipContent (h : PartsCut cut whole) (hClip : Js.clipContent cut = some clipped) :
    PartsCut clipped whole := by
  unfold Js.clipContent at hClip
  by_cases hMany : 1 < cut.length
  · rw [if_pos hMany, Option.some.injEq] at hClip
    exact hClip ▸ h.dropLast
  · rw [if_neg hMany] at hClip
    cases cut with
    | nil => cases hClip
    | cons part rest =>
      simp only at hClip
      split at hClip
      · cases hClip
      · rw [Option.some.injEq] at hClip
        exact hClip ▸ h.first fun other hCut => ⟨hCut.type, hCut.modality, hCut.raw.takeBytes _⟩

end PartsCut

theorem StepCut.refl (step : DialogueStep) : StepCut step step :=
  ⟨rfl, rfl, rfl, PartsCut.refl _⟩

theorem TurnCut.refl (turn : DialogueTurn) : TurnCut turn turn :=
  ⟨rfl, rfl, rfl, PartsCut.refl _, .inl ⟨rfl, 0, rfl⟩, id⟩

theorem TurnCut.last {cut whole : DialogueTurn} (h : TurnCut cut whole)
    (hFew : cut.steps.length ≤ 1) :
    ∀ step ∈ cut.steps, ∃ last, whole.steps.getLast? = some last ∧ StepCut step last := by
  rcases h.steps with ⟨-, n, hSteps⟩ | ⟨-, hLast⟩
  · intro step hMem
    rw [hSteps] at hMem hFew
    cases hDrop : whole.steps.drop n with
    | nil =>
      rw [hDrop] at hMem
      cases hMem
    | cons first rest =>
      have hNone : rest = [] := by
        rw [hDrop, List.length_cons] at hFew
        exact List.length_eq_zero_iff.mp (by omega)
      rw [hDrop, hNone, List.mem_singleton] at hMem
      refine ⟨first, ?_, hMem ▸ StepCut.refl first⟩
      have hSplit := List.take_append_drop n whole.steps
      rw [hDrop, hNone] at hSplit
      rw [← hSplit, List.getLast?_append_of_ne_nil _ (by simp), List.getLast?_singleton]
  · exact hLast

theorem TurnCut.trim {cut whole trimmed : DialogueTurn} (h : TurnCut cut whole)
    (hTrim : Js.trim cut = some trimmed) : TurnCut trimmed whole := by
  rcases trim_cases hTrim with ⟨hSteps, rfl⟩ | ⟨hFew, hMove⟩
  · refine ⟨h.index, h.requestId, h.source, h.user, ?_, ?_⟩
    · rcases h.steps with ⟨hUser, n, hDrop⟩ | ⟨hFew, -⟩
      · exact .inl ⟨hUser, n + 1, by rw [hDrop, List.tail_drop]⟩
      · omega
    · intro hNone
      have hLength := congrArg List.length hNone
      simp only [List.length_tail, List.length_nil] at hLength
      omega
  · have hLast := h.last hFew
    rcases hMove with ⟨-, rfl⟩ | ⟨user, hInput, rfl⟩ | ⟨step, rest, content, hTurn, hContent, rfl⟩
    · exact ⟨h.index, h.requestId, h.source, h.user.dropLast, .inr ⟨hFew, hLast⟩, h.kept⟩
    · exact ⟨h.index, h.requestId, h.source, h.user.clipInput hInput, .inr ⟨hFew, hLast⟩, h.kept⟩
    · rw [hTurn] at hFew hLast
      refine ⟨h.index, h.requestId, h.source, h.user, .inr ⟨hFew, ?_⟩,
        fun hNone => absurd hNone (List.cons_ne_nil _ _)⟩
      intro found hMem
      rcases List.mem_cons.mp hMem with rfl | hRest
      · obtain ⟨last, hIs, hCut⟩ := hLast step (by simp)
        exact ⟨last, hIs, hCut.index, hCut.execution, hCut.answerSource,
          hCut.content.clipContent hContent⟩
      · exact hLast found (by simp [hRest])

theorem LeftOver.evict {kept whole : List DialogueTurn} (h : LeftOver kept whole) :
    LeftOver (Js.evict kept) whole := by
  cases kept with
  | nil => exact h
  | cons turn rest =>
    cases rest with
    | cons next more =>
      rcases h with ⟨n, hDrop⟩ | ⟨cut, last, hOne, -⟩
      · refine .inl ⟨n + 1, ?_⟩
        rw [← List.tail_drop, ← hDrop]
        rfl
      · cases hOne
    | nil =>
      have hCut : ∃ last, whole.getLast? = some last ∧ TurnCut turn last := by
        rcases h with ⟨n, hDrop⟩ | ⟨cut, last, hOne, hLast, hCut⟩
        · refine ⟨turn, ?_, TurnCut.refl turn⟩
          have hSplit := List.take_append_drop n whole
          rw [← hDrop] at hSplit
          rw [← hSplit, List.getLast?_append_of_ne_nil _ (by simp), List.getLast?_singleton]
        · cases hOne
          exact ⟨last, hLast, hCut⟩
      obtain ⟨last, hLast, hCut⟩ := hCut
      cases hTrim : Js.trim turn with
      | none =>
        refine .inl ⟨whole.length, ?_⟩
        rw [Js.evict, hTrim, List.drop_length]
        rfl
      | some trimmed =>
        refine .inr ⟨trimmed, last, ?_, hLast, hCut.trim hTrim⟩
        rw [Js.evict, hTrim]
        rfl

theorem fit_leftOver (maxBytes : Int) (turns : List DialogueTurn) :
    LeftOver (fit maxBytes turns) (turns.map capSteps) :=
  shrink_keeps (fun kept => LeftOver kept (turns.map capSteps)) (fun _ h _ => h.evict) _ _
    (.inl ⟨0, rfl⟩)

theorem length_capSteps (turn : DialogueTurn) : (capSteps turn).steps.length ≤ 32 := by
  rw [capSteps, newest, List.length_drop, maxTurnSteps]
  omega

theorem TurnCut.length_steps {cut whole : DialogueTurn} (h : TurnCut cut whole) :
    cut.steps.length ≤ whole.steps.length := by
  rcases h.steps with ⟨-, n, hDrop⟩ | ⟨hFew, -⟩
  · rw [hDrop, List.length_drop]
    omega
  · cases hSteps : cut.steps with
    | nil => exact Nat.zero_le _
    | cons step rest =>
      obtain ⟨last, hLast, -⟩ := h.last hFew step (by simp [hSteps])
      have hSome := List.length_pos_of_mem (List.mem_of_getLast? hLast)
      rw [hSteps] at hFew
      omega

/--
**The loop ends within its bounds.** What is left of a dialogue is empty or takes at most
`maxBytes - 1024` bytes, each of its turns has at most 32 steps, and it is a tail of the
dialogue with its steps bounded, or a single turn: the last one with its newest steps, and with
cut texts where that is one step. A text that was cut is well formed and, with lone surrogates
replaced, a beginning of the original.
-/
theorem fit_bounded (maxBytes : Int) (turns : List DialogueTurn) :
    (fit maxBytes turns = [] ∨ (turnsBytes (fit maxBytes turns) : Int) ≤ maxBytes - 1024) ∧
    (∀ turn ∈ fit maxBytes turns, turn.steps.length ≤ 32) ∧
    LeftOver (fit maxBytes turns) (turns.map capSteps) := by
  have hLeft := fit_leftOver maxBytes turns
  refine ⟨?_, ?_, hLeft⟩
  · have hFits := fit_fits maxBytes turns
    simp only [fits, Bool.or_eq_true, decide_eq_true_eq, List.isEmpty_iff] at hFits
    exact hFits.symm
  · have hCapped : ∀ turn ∈ turns.map capSteps, turn.steps.length ≤ 32 := by
      intro turn hMem
      obtain ⟨whole, -, rfl⟩ := List.mem_map.mp hMem
      exact length_capSteps whole
    intro turn hMem
    rcases hLeft with ⟨n, hDrop⟩ | ⟨cut, last, hOne, hLast, hCut⟩
    · rw [hDrop] at hMem
      exact hCapped turn (List.mem_of_mem_drop hMem)
    · rw [hOne, List.mem_singleton] at hMem
      have hLength := hCapped last (List.mem_of_getLast? hLast)
      have hLess := hCut.length_steps
      rw [hMem]
      omega

/-! ### Lone surrogates -/

def loneTurn : DialogueTurn where
  index := .safe 0
  requestId := none
  source := none
  user := []
  steps := [{
    index := .safe 0
    content := [{
      type := text "text"
      modality := text "text"
      raw := List.replicate 10 0xd800
      truncated := false
      bytes := none }]
    execution := none
    answerSource := none }]

/-- The half that is kept consists of replacement characters, which the original does not begin
with. -/
theorem fit_replaces_lone : (fit 1176 [loneTurn]).map (fun turn => turn.steps.map fun step =>
      step.content.map (·.raw)) = [[[List.replicate 5 0xfffd]]] ∧
    ¬List.replicate 5 (0xfffd : UInt16) <+: List.replicate 10 0xd800 := by
  refine ⟨by decide +kernel, by decide⟩

end SimplexAgent.Hub.Js
