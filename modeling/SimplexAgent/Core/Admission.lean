import SimplexAgent.Core.ApplicationRun
import SimplexAgent.Core.Confirmation
import SimplexAgent.Verified.RecentWindow

/-!
# Admission

The serialized admission of `consume` in `core/application.cpp`, with
`parse_input` of `core/protocol.cpp`. A payload is parsed, compared with the
recent requests, checked against the state of the session, and its options are
applied: the confirmation policy on a copy first, then the provider. Only then
does anything of the worker change.

The provider's options are the provider's business: a state of its own and a
function that applies options to it. `applyGenerationPatch` is the one the model
classes share.
-/

namespace SimplexAgent.Core

open Dataclass Verified

/-! ## Parsing -/

/-- A payload that cannot be admitted. Failures of the options are told apart. -/
inductive InputError where
  | options (what : String)
  | invalid (what : String)
  deriving DecidableEq

/-- `Input` as it is parsed. -/
structure ParsedInput where
  requestId : String
  operation : InputOperation := .message
  hasMessage : Bool := true
  message : MessageItem := {}
  options : Json := .obj []

def spellingMember (record : Protocol.Record) (name : String) : Option String :=
  match record.member name with
  | some (.enumerator spelling) => some spelling
  | _ => none

def jsonMember (record : Protocol.Record) (name : String) : Option Json :=
  match record.member name with
  | some (.json value) => some value
  | _ => none

def recordsMember (record : Protocol.Record) (name : String) : Option (List Protocol.Record) :=
  match record.member name with
  | some (.vector items) => some (items.filterMap fun item =>
    match item with
    | .record members => some members
    | _ => none)
  | _ => none

def spelled {α : Type} (values : List α) (nameOf : α → String) (what : String)
    (spelling : Option String) : Except InputError α :=
  match values.find? fun v => decide (spelling = some (nameOf v)) with
  | some v => .ok v
  | none => .error (.invalid ("no wire spelling for " ++ what))

/-- `model_content`. -/
def modelContent (part : Protocol.Record) : Except InputError Content := do
  let type ← spelled ContentType.values ContentType.nameOf "content type"
    (spellingMember part "type")
  let modality ← spelled Modality.values Modality.nameOf "modality"
    (spellingMember part "modality")
  return { type := type, modality := modality, raw := (textMember part "raw").getD "",
           extras := jsonMember part "extras" }

def inputPart (part : Protocol.Record) : Except InputError Content :=
  if textMember part "raw" = some "" then .error (.invalid "content raw must not be empty")
  else modelContent part

def inputMessage (content : Option (List Protocol.Record)) : Except InputError MessageItem :=
  match content with
  | none => .error (.invalid "content must be a nonempty array")
  | some [] => .error (.invalid "content must be a nonempty array")
  | some parts => do
    let content ← parts.mapM inputPart
    return { role := "user", content := content }

def checkCategory (entry : String × Json) : Except InputError Unit :=
  match entry.2 with
  | .obj fields =>
    if entry.1 = "model" ∨ entry.1 = "confirmation" then .ok ()
    else if entry.1 ≠ "tools" ∨ fields ≠ [] then
      .error (.options ("unsupported options category: " ++ entry.1))
    else .ok ()
  | _ => .error (.options "each options category must be an object")

def inputOptions (options : Option Json) : Except InputError Json :=
  match options with
  | some (.obj entries) => do
    entries.forM checkCategory
    return .obj entries
  | some value => .ok value
  | none => .ok (.obj [])

def inputOperation (spelling : Option String) : Except InputError InputOperation :=
  match spelling with
  | some "message" => .ok .message
  | some "continue" => .ok .continue
  | some "compact" => .ok .compact
  | _ => .error (.invalid "operation must be message, continue, or compact")

/-- Options that are no object are refused before the codec runs. -/
def checkOptionsShape (payload : Json) : Except InputError Unit :=
  match payload.find? "options" with
  | some (.obj _) => .ok ()
  | some _ => .error (.options "options must be an object")
  | none => .ok ()

def decodeRequest (payload : Json) : Except InputError Protocol.Record :=
  match Protocol.fromJson Protocol.Wire.declarations "PayloadRequest" payload "" with
  | .ok record => .ok record
  | .error e => .error (.invalid e.what)

def checkRequestId (id : String) : Except InputError Unit :=
  if id = "" ∨ id.utf8ByteSize > 128 then
    .error (.invalid "request_id must contain 1..128 bytes")
  else .ok ()

/-- `parse_input`. -/
def parseInput (payload : Json) : Except InputError ParsedInput := do
  checkOptionsShape payload
  let request ← decodeRequest payload
  let id := (textMember request "request_id").getD ""
  checkRequestId id
  let operation ← inputOperation (spellingMember request "operation")
  let message ← if operation = .message then inputMessage (recordsMember request "content")
    else .ok { role := "user" }
  let options ← inputOptions (jsonMember request "options")
  return { requestId := id, operation := operation, hasMessage := decide (operation = .message),
           message := message, options := options }

/-! ## The worker at admission -/

/-- How many requests the worker remembers. -/
def admissionWindow : Nat := 4096

/-- What admission reads and changes: the conversation, the provider's options,
the confirmation policy, and the recent requests. -/
structure Intake (ω : Type) where
  state : AgentInputState
  provider : ω
  confirmation : ConfirmationMode := .ask
  requests : RecentWindow String := RecentWindow.empty

abbrev OptionsHandler (ω : Type) := ω → Json → Except String Unit × ω

/-- An exception leaves the previous settings intact, as the interface demands. -/
def AllOrNothing {ω : Type} (handler : OptionsHandler ω) : Prop :=
  ∀ settings options what after, handler settings options = (.error what, after) → after = settings

/-- The checks of a payload against the session, in their order. -/
def requireAdmissible {ω : Type} (config : Configuration) (w : Intake ω) (input : ParsedInput) :
    Except InputError Unit :=
  if input.requestId ∈ w.requests.seen then
    .error (.invalid "duplicate request_id in the recent admission window")
  else if w.state.loop.any fun p => p.phase = .tools ∨ p.phase = .blocked then
    .error (.invalid "session requires operator recovery inspection")
  else if input.operation = .compact ∧ config.persistence = false then
    .error (.invalid "compact requires persistence.enabled")
  else if input.operation = .compact ∧ w.state.loop.any fun p => p.phase ≠ .ready then
    .error (.invalid "compact requires a settled ready state")
  else if input.operation = .compact ∧ (config.memory = false ∨ config.compactPrompt = "") then
    .error (.invalid "compact configuration is incomplete")
  else if input.hasMessage = false ∧ w.state.turns = [] ∧
      ¬ (input.operation = .continue ∧ canContinueMemory config w.state) then
    .error (.invalid (if input.operation = .compact then "no turns to compact"
      else "no turn to continue"))
  else .ok ()

def nextConfirmation (mode : ConfirmationMode) (options : Json) :
    Except String ConfirmationMode :=
  match options.find? "confirmation" with
  | some value => handleConfirmationOptions mode value
  | none => .ok mode

def applyModelOptions {ω : Type} (handler : OptionsHandler ω) (settings : ω) (options : Json) :
    Except String Unit × ω :=
  match options.find? "model" with
  | some value => handler settings value
  | none => (.ok (), settings)

/-- `InputRejectedData`. -/
structure InputRejectedData where
  requestId : Json
  message : String
  operation : Option InputOperation
  invalidOptions : Bool

/-- `input_operation` of the payload's own spelling. -/
def requestedOperation (payload : Json) : Option InputOperation :=
  match payload.find? "operation" with
  | some (.str "message") => some .message
  | some (.str "continue") => some .continue
  | some (.str "compact") => some .compact
  | _ => none

def rejection (payload : Json) (message : String) (invalidOptions : Bool) : InputRejectedData where
  requestId := (payload.find? "request_id").getD .null
  message := message
  operation := requestedOperation payload
  invalidOptions := invalidOptions

/-- A rejection outside the options is one of the options only by its type. -/
def rejectionOf (payload : Json) : InputError → InputRejectedData
  | .options what => rejection payload what true
  | .invalid what => rejection payload what false

/-- What became of a payload. A worker that is shutting down drops the payload
it has just taken in. -/
inductive Verdict where
  | rejected (data : InputRejectedData)
  | admitted (input : ParsedInput)
  | dropped

/-- The try block of `consume`. The worker it returns with a rejection is the one
the exception leaves behind. -/
def tryAdmit {ω : Type} (config : Configuration) (handler : OptionsHandler ω) (w : Intake ω)
    (payload : Json) : Except InputRejectedData ParsedInput × Intake ω :=
  match parseInput payload with
  | .error e => (.error (rejectionOf payload e), w)
  | .ok input =>
    match requireAdmissible config w input with
    | .error e => (.error (rejectionOf payload e), w)
    | .ok _ =>
      match nextConfirmation w.confirmation input.options with
      | .error what => (.error (rejection payload what true), w)
      | .ok next =>
        match applyModelOptions handler w.provider input.options with
        | (.error what, settings) =>
          (.error (rejection payload what true), { w with provider := settings })
        | (.ok _, settings) =>
          (.ok input, { w with provider := settings, confirmation := next })

def admitPayload {ω : Type} (config : Configuration) (handler : OptionsHandler ω) (shutdown : Bool)
    (now : String) (w : Intake ω) (payload : Json) : Verdict × Intake ω :=
  match tryAdmit config handler w payload with
  | (.error data, w) => (.rejected data, w)
  | (.ok input, w) =>
    let w := { w with requests := w.requests.push admissionWindow input.requestId }
    if shutdown then (.dropped, w)
    else if input.operation = .compact then (.admitted input, w)
    else
      (.admitted input, { w with state := { w.state with
        metaInfo := { w.state.metaInfo with updatedAt := now } } })

/-! ## The provider's merge -/

mutual
/-- RFC 7386, as the library applies it in place. -/
def mergePatch (target : Json) : Json → Json
  | .obj fields => mergeFields (if target.IsObject then target else .obj []) fields
  | patch => patch

def mergeFields (target : Json) : List (String × Json) → Json
  | [] => target
  | (key, value) :: rest =>
    mergeFields
      (if value.isNull then
        match target with
        | .obj fields => .obj (fields.filter fun entry => entry.1 ≠ key)
        | other => other
      else target.set key (mergePatch ((target.find? key).getD .null) value)) rest
end

def namesModel (generation : Json) : Bool :=
  match generation.find? "model" with
  | some (.str name) => name ≠ ""
  | _ => false

/-- `apply_generation_patch`: the merge is made on a copy and committed last. -/
def applyGenerationPatch : OptionsHandler Json := fun generation patch =>
  match generation, patch with
  | .obj fields, .obj changes =>
    match ["endpoint", "provider", "retry"].find? fun key => (Json.obj changes).find? key ≠ none with
    | some key => (.error ("set_generation(): '" ++ key ++
        "' is host-owned configuration, not a generation knob"), generation)
    | none =>
      let merged := mergePatch (.obj fields) (.obj changes)
      if namesModel merged then (.ok (), merged)
      else (.error "set_generation(): the patch would leave \"model\" missing or empty", generation)
  | .obj _, _ => (.error "set_generation(): the patch must be a JSON object", generation)
  | _, _ => (.error ("set_generation(): this model has no generation object " ++
      "(not built, or not a generation-knob model)"), generation)

/-- The shared merge keeps what the interface demands. -/
theorem applyGenerationPatch_allOrNothing : AllOrNothing applyGenerationPatch := by
  intro settings options what after h
  unfold applyGenerationPatch at h
  split at h
  · split at h
    · exact (Prod.mk.inj h).2.symm
    · dsimp only at h
      split at h
      · cases (Prod.mk.inj h).1
      · exact (Prod.mk.inj h).2.symm
  · exact (Prod.mk.inj h).2.symm
  · exact (Prod.mk.inj h).2.symm

/-! ## One payload -/

section Offer

variable {ω : Type} {config : Configuration} {handler : OptionsHandler ω} {w w' : Intake ω}
variable {payload : Json}

theorem tryAdmit_error (hHandler : AllOrNothing handler) {data : InputRejectedData}
    (h : tryAdmit config handler w payload = (.error data, w')) : w' = w := by
  unfold tryAdmit at h
  split at h
  · exact (Prod.mk.inj h).2.symm
  · split at h
    · exact (Prod.mk.inj h).2.symm
    · split at h
      · exact (Prod.mk.inj h).2.symm
      · split at h
        · rename_i what settings hModel
          have hKept : settings = w.provider := by
            unfold applyModelOptions at hModel
            split at hModel
            · exact hHandler _ _ _ _ hModel
            · cases (Prod.mk.inj hModel).1
          rw [← (Prod.mk.inj h).2, hKept]
        · cases (Prod.mk.inj h).1

theorem tryAdmit_ok {input : ParsedInput}
    (h : tryAdmit config handler w payload = (.ok input, w')) :
    input.requestId ∉ w.requests.seen ∧ w'.requests = w.requests := by
  unfold tryAdmit at h
  split at h
  · cases (Prod.mk.inj h).1
  · rename_i parsed hParsed
    split at h
    · cases (Prod.mk.inj h).1
    · rename_i hAdmissible
      split at h
      · cases (Prod.mk.inj h).1
      · split at h
        · cases (Prod.mk.inj h).1
        · obtain ⟨hInput, hWorker⟩ := Prod.mk.inj h
          rw [← hWorker]
          refine ⟨?_, rfl⟩
          have hSame : parsed = input := Except.ok.inj hInput
          intro hSeen
          rw [← hSame] at hSeen
          rw [requireAdmissible, if_pos hSeen] at hAdmissible
          cases hAdmissible

theorem admit_cases (config : Configuration) (hHandler : AllOrNothing handler)
    (w : Intake ω) (payload : Json) (shutdown : Bool) (now : String) :
    (∃ data, admitPayload config handler shutdown now w payload = (.rejected data, w)) ∨
    ∃ input w', input.requestId ∉ w.requests.seen ∧
      w'.requests = w.requests.push admissionWindow input.requestId ∧
      (admitPayload config handler shutdown now w payload = (.admitted input, w') ∨
        admitPayload config handler shutdown now w payload = (.dropped, w')) := by
  unfold admitPayload
  cases hTry : tryAdmit config handler w payload with
  | mk outcome after =>
    cases outcome with
    | error data =>
      rw [tryAdmit_error hHandler hTry]
      exact Or.inl ⟨data, rfl⟩
    | ok input =>
      obtain ⟨hNew, hRequests⟩ := tryAdmit_ok hTry
      let kept : Intake ω :=
        { after with requests := after.requests.push admissionWindow input.requestId }
      have hPush : kept.requests = w.requests.push admissionWindow input.requestId := by
        rw [← hRequests]
      cases shutdown with
      | true => exact Or.inr ⟨input, kept, hNew, hPush, Or.inr rfl⟩
      | false =>
        by_cases hCompact : input.operation = .compact
        · exact Or.inr ⟨input, kept, hNew, hPush, Or.inl (if_pos hCompact)⟩
        · exact Or.inr ⟨input, { kept with state := { kept.state with
            metaInfo := { kept.state.metaInfo with updatedAt := now } } }, hNew, hPush,
            Or.inl (if_neg hCompact)⟩

end Offer

/-! ## Sequences of payloads -/

/-- What happens at a worker's admission: a payload is offered, or the
conversation and the provider change in between, by a run or otherwise. -/
inductive IntakeEvent (ω : Type) where
  | offers (payload : Json) (shutdown : Bool) (now : String)
  | changes (state : AgentInputState) (provider : ω)

/-- One payload with the worker before and after it. -/
structure Offered (ω : Type) where
  before : Intake ω
  verdict : Verdict
  after : Intake ω

/-- The payloads of a worker's life. It takes no more of them once it dropped one. -/
def offered {ω : Type} (config : Configuration) (handler : OptionsHandler ω) :
    Intake ω → List (IntakeEvent ω) → List (Offered ω)
  | _, [] => []
  | w, .changes state provider :: rest =>
    offered config handler { w with state := state, provider := provider } rest
  | w, .offers payload shutdown now :: rest =>
    match admitPayload config handler shutdown now w payload with
    | (.dropped, after) => [{ before := w, verdict := .dropped, after := after }]
    | (verdict, after) =>
      { before := w, verdict := verdict, after := after } :: offered config handler after rest

def Offered.admitted? {ω : Type} (entry : Offered ω) : Option String :=
  match entry.verdict with
  | .admitted input => some input.requestId
  | _ => none

def admittedIds {ω : Type} (entries : List (Offered ω)) : List String :=
  entries.filterMap Offered.admitted?

theorem offered_spaced {ω : Type} {config : Configuration} {handler : OptionsHandler ω}
    (hHandler : AllOrNothing handler) (events : List (IntakeEvent ω)) :
    ∀ (w : Intake ω) (history : List String),
      RecentWindow.Tracks admissionWindow history w.requests →
      RecentWindow.Spaced admissionWindow history →
      (∀ entry ∈ offered config handler w events, ∀ data, entry.verdict = .rejected data →
        entry.after = entry.before) ∧
      RecentWindow.Spaced admissionWindow
        (history ++ admittedIds (offered config handler w events)) := by
  induction events with
  | nil =>
    intro w history hTracks hSpaced
    refine ⟨fun entry hMem => (by cases hMem), ?_⟩
    simpa [offered, admittedIds] using hSpaced
  | cons event rest ih =>
    intro w history hTracks hSpaced
    cases event with
    | changes state provider => exact ih _ history hTracks hSpaced
    | offers payload shutdown now =>
      rcases admit_cases config hHandler w payload shutdown now with
        ⟨data, hAdmit⟩ | ⟨input, after, hNew, hRequests, hAdmit | hAdmit⟩
      · obtain ⟨hRejected, hRest⟩ := ih w history hTracks hSpaced
        simp only [offered, hAdmit]
        refine ⟨?_, ?_⟩
        · intro entry hMem found hFound
          rcases List.mem_cons.mp hMem with rfl | hTail
          · rfl
          · exact hRejected entry hTail found hFound
        · rw [admittedIds, List.filterMap_cons_none rfl]
          exact hRest
      · have hAfter : RecentWindow.Tracks admissionWindow (history ++ [input.requestId])
            after.requests := by
          rw [hRequests]
          exact hTracks.push hNew (by decide)
        obtain ⟨hRejected, hRest⟩ := ih after _ hAfter (hSpaced.push hTracks hNew)
        simp only [offered, hAdmit]
        refine ⟨?_, ?_⟩
        · intro entry hMem found hFound
          rcases List.mem_cons.mp hMem with rfl | hTail
          · cases hFound
          · exact hRejected entry hTail found hFound
        · simpa [admittedIds, Offered.admitted?] using hRest
      · simp only [offered, hAdmit]
        refine ⟨?_, ?_⟩
        · intro entry hMem found hFound
          rw [List.mem_singleton.mp hMem] at hFound
          cases hFound
        · rw [admittedIds, List.filterMap_cons_none rfl]
          simpa using hSpaced

/-- A worker before its first payload. -/
def Intake.fresh {ω : Type} (state : AgentInputState) (provider : ω)
    (confirmation : ConfirmationMode) : Intake ω where
  state := state
  provider := provider
  confirmation := confirmation

/-- Whatever is offered to a worker: a payload that is rejected leaves the
conversation, the provider's options, the confirmation policy and the window as
they were, and two admitted payloads with one id have at least as many admissions
between them as the window holds. -/
theorem admission_atomic {ω : Type} (config : Configuration) (handler : OptionsHandler ω)
    (hHandler : AllOrNothing handler) (state : AgentInputState) (provider : ω)
    (confirmation : ConfirmationMode) (events : List (IntakeEvent ω)) :
    (∀ entry ∈ offered config handler (.fresh state provider confirmation) events,
      ∀ data, entry.verdict = .rejected data → entry.after = entry.before) ∧
    ∀ (i j : Nat) (id : String), i < j →
      (admittedIds (offered config handler (.fresh state provider confirmation) events))[i]? =
        some id →
      (admittedIds (offered config handler (.fresh state provider confirmation) events))[j]? =
        some id → 4096 ≤ j - i - 1 := by
  obtain ⟨hRejected, hSpaced⟩ := offered_spaced hHandler events
    (.fresh state provider confirmation) [] (RecentWindow.empty_tracks admissionWindow)
    (RecentWindow.spaced_nil admissionWindow)
  refine ⟨hRejected, ?_⟩
  intro i j id hLess hFirst hSecond
  have hApart := hSpaced i j id hLess hFirst hSecond
  rw [admissionWindow] at hApart
  omega

def samplePayload (id : String) (options : Json) : Json :=
  Json.object [("request_id", .str id), ("operation", .str "message"), ("options", options),
    ("content", .arr [Json.object [("type", .str "text"), ("modality", .str "text"),
      ("raw", .str "hello")]])]

/-- A message, the same id again, and options of which the provider refuses its
part. -/
def sampleOffers : List (IntakeEvent Json) :=
  [.offers (samplePayload "r1" (.obj [])) false "now",
    .offers (samplePayload "r1" (.obj [])) false "now",
    .offers (samplePayload "r2" (Json.object [("confirmation", Json.object [("mode", .str "deny")]),
      ("model", Json.object [("endpoint", .str "elsewhere")])])) false "now"]

def sampleConfiguration : Configuration where
  sessionId := "s"
  contextWindowTokens := 1000

def sampleOffered : List (Offered Json) :=
  offered sampleConfiguration applyGenerationPatch
    (.fresh {} (Json.object [("model", .str "m")]) .ask) sampleOffers

def Offered.isRejected {ω : Type} (entry : Offered ω) : Bool :=
  match entry.verdict with
  | .rejected _ => true
  | _ => false

theorem admission_atomic_sample : sampleOffered.map Offered.isRejected = [false, true, true] ∧
      admittedIds sampleOffered = ["r1"] ∧
      ∀ entry ∈ sampleOffered, ∀ data, entry.verdict = .rejected data →
        entry.after = entry.before := by
  refine ⟨by decide +kernel, by decide +kernel, ?_⟩
  exact (admission_atomic sampleConfiguration applyGenerationPatch
    applyGenerationPatch_allOrNothing {} (Json.object [("model", .str "m")]) .ask sampleOffers).1

end SimplexAgent.Core
