import SimplexAgent.Persistence.SqliteSnapshotRoundTrip

/-!
# The JSON store beside the SQLite store

`load::save_state` writes a state as one JSON document and `load::decode_state`
reads it back through `check_snapshot`, which looks at the shape of every known
record before the lenient readers of the data contract run. The document of a
state always passes that check, so what the JSON store restores is what
`from_json` makes of `to_json`.

The two stores are compared on one checkpoint. SQLite keeps an engaged null, the
JSON readers turn it into an absent value; everything else agrees.

Non-finite numbers and binary values, which `require_json_values` refuses, are not
values of `Json`.
-/

namespace SimplexAgent.Persistence

open Dataclass Dataclass.Json

/-! ## Shapes of a snapshot document -/

def requireObject : Json → Except JsonError Unit
  | .obj _ => .ok ()
  | _ => .error (.invalidArgument "snapshot record must be an object")

/-- `optional_record`: absent and null fields pass. -/
def optionalRecord (record : Json) (key : String) (check : Json → Except JsonError Unit) :
    Except JsonError Unit :=
  match record.find? key with
  | some value => if value.isNull then .ok () else check value
  | none => .ok ()

def recordArray (value : Json) (check : Json → Except JsonError Unit) : Except JsonError Unit :=
  match value with
  | .arr items => items.forM check
  | _ => .error (.invalidArgument "snapshot record collection must be an array")

def checkResult (value : Json) : Except JsonError Unit := do
  requireObject value
  optionalRecord value "query" requireObject
  optionalRecord value "output" requireObject

/-- `check_message`: content may still be the former single object. -/
def checkMessage (value : Json) : Except JsonError Unit := do
  requireObject value
  optionalRecord value "content" fun content =>
    match content with
    | .obj _ => .ok ()
    | other => recordArray other requireObject
  optionalRecord value "reasoning" requireObject
  optionalRecord value "action_status" requireObject
  optionalRecord value "cost" requireObject
  optionalRecord value "invoke_return" checkResult
  optionalRecord value "invokes" fun calls => recordArray calls requireObject

def checkStep (step : Json) : Except JsonError Unit := do
  requireObject step
  optionalRecord step "model_response" checkMessage
  optionalRecord step "invoke_returns" fun results => recordArray results checkMessage

def checkTurn (turn : Json) : Except JsonError Unit := do
  requireObject turn
  optionalRecord turn "user_input" checkMessage
  optionalRecord turn "agent_loop_step" fun steps => recordArray steps checkStep

def checkLoop (loop : Json) : Except JsonError Unit := do
  requireObject loop
  recordArray (← loop.atKey "pending_results") checkResult

/-- `check_snapshot`. -/
def checkSnapshot (document : Json) : Except JsonError Unit := do
  requireObject document
  requireObject (← document.atKey "meta")
  let systemPrompt ← document.atKey "system_prompt"
  requireObject systemPrompt
  optionalRecord systemPrompt "sections" fun sections => recordArray sections requireObject
  recordArray (← document.atKey "tools") requireObject
  recordArray (← document.atKey "turns") checkTurn
  optionalRecord document "loop" checkLoop

/-- `decode_state`. -/
def decodeState (document : Json) : Except JsonError AgentInputState := do
  checkSnapshot document
  AgentInputState.fromJson document

/-! ## Documents of states pass -/

variable {check : Json → Except JsonError Unit}

theorem requireObject_ok {j : Json} (hObj : j.IsObject) : requireObject j = .ok () := by
  cases j with
  | obj fields => rfl
  | _ => exact absurd hObj (by simp [IsObject])

theorem forM_map_ok {α : Type} {encode : α → Json} (xs : List α)
    (hItem : ∀ x ∈ xs, check (encode x) = .ok ()) : (xs.map encode).forM check = .ok () := by
  induction xs with
  | nil => rfl
  | cons x rest ih =>
    show (check (encode x) >>= fun _ => (rest.map encode).forM check) = .ok ()
    rw [hItem x (by simp)]
    exact ih fun y hy => hItem y (by simp [hy])

theorem recordArray_map {α : Type} {encode : α → Json} (xs : List α)
    (hItem : ∀ x ∈ xs, check (encode x) = .ok ()) :
    recordArray (.arr (xs.map encode)) check = .ok () :=
  forM_map_ok xs hItem

theorem optionalRecord_find {j : Json} {key : String} {v : Json} (hFind : j.find? key = some v)
    (hCheck : check v = .ok ()) : optionalRecord j key check = .ok () := by
  cases hNull : v.isNull <;> simp [optionalRecord, hFind, hNull, hCheck]

theorem optionalRecord_map {α : Type} {j : Json} {key : String} {encode : α → Json} {x : Option α}
    (hFind : j.find? key = x.map encode) (hCheck : ∀ a, x = some a → check (encode a) = .ok ()) :
    optionalRecord j key check = .ok () := by
  cases x with
  | none => simp [optionalRecord, hFind]
  | some a => exact optionalRecord_find hFind (hCheck a rfl)

theorem checkResult_toJson (r : InvokeReturn) : checkResult r.toJson = .ok () := by
  have hQuery : r.toJson.find? "query" = some r.query.toJson := by
    simp [InvokeReturn.toJson, find?_setOptional]
  have hOutput : r.toJson.find? "output" = some r.output.toJson := by
    simp [InvokeReturn.toJson, find?_setOptional]
  rw [checkResult, requireObject_ok r.toJson_isObject,
    optionalRecord_find hQuery (requireObject_ok r.query.toJson_isObject),
    optionalRecord_find hOutput (requireObject_ok r.output.toJson_isObject)]
  rfl

theorem checkMessage_toJson (m : MessageItem) : checkMessage m.toJson = .ok () := by
  have hContent : m.toJson.find? "content" = some (.arr (m.content.map Content.toJson)) := by
    simp [MessageItem.toJson, find?_setOptional]
  have hReasoning : m.toJson.find? "reasoning" = m.reasoning.map Content.toJson := by
    simp [MessageItem.toJson, find?_setOptional]
  have hStatus : m.toJson.find? "action_status" = m.actionStatus.map Content.toJson := by
    simp [MessageItem.toJson, find?_setOptional]
  have hCost : m.toJson.find? "cost" = m.cost.map TokenCost.toJson := by
    simp [MessageItem.toJson, find?_setOptional]
  have hReturn : m.toJson.find? "invoke_return" = m.invokeReturn.map InvokeReturn.toJson := by
    simp [MessageItem.toJson, find?_setOptional]
  have hInvokes : m.toJson.find? "invokes" =
      m.invokes.map fun qs => .arr (qs.map InvokeQuery.toJson) := by
    simp [MessageItem.toJson, find?_setOptional]
  rw [checkMessage, requireObject_ok m.toJson_isObject, optionalRecord_find hContent
      (recordArray_map m.content fun c _ => requireObject_ok c.toJson_isObject),
    optionalRecord_map hReasoning fun c _ => requireObject_ok c.toJson_isObject,
    optionalRecord_map hStatus fun c _ => requireObject_ok c.toJson_isObject,
    optionalRecord_map hCost fun c _ => requireObject_ok c.toJson_isObject,
    optionalRecord_map hReturn fun r _ => checkResult_toJson r,
    optionalRecord_map hInvokes fun qs _ =>
      recordArray_map qs fun q _ => requireObject_ok q.toJson_isObject]
  rfl

theorem checkStep_toJson (s : AgentLoopStep) : checkStep s.toJson = .ok () := by
  have hObj : s.toJson.IsObject := by simp [AgentLoopStep.toJson]
  have hResponse : s.toJson.find? "model_response" = some s.modelResponse.toJson := by
    simp [AgentLoopStep.toJson, find?_setOptional]
  have hReturns : s.toJson.find? "invoke_returns" =
      s.invokeReturns.map fun ms => .arr (ms.map MessageItem.toJson) := by
    simp [AgentLoopStep.toJson, find?_setOptional]
  rw [checkStep, requireObject_ok hObj,
    optionalRecord_find hResponse (checkMessage_toJson s.modelResponse),
    optionalRecord_map hReturns fun ms _ =>
      recordArray_map ms fun m _ => checkMessage_toJson m]
  rfl

theorem checkTurn_toJson (u : UserLoopStep) : checkTurn u.toJson = .ok () := by
  have hObj : u.toJson.IsObject := by simp [UserLoopStep.toJson]
  have hInput : u.toJson.find? "user_input" = some u.userInput.toJson := by
    simp [UserLoopStep.toJson, find?_setOptional]
  have hSteps : u.toJson.find? "agent_loop_step" =
      some (.arr (u.agentLoopStep.map AgentLoopStep.toJson)) := by
    simp [UserLoopStep.toJson, find?_setOptional]
  rw [checkTurn, requireObject_ok hObj,
    optionalRecord_find hInput (checkMessage_toJson u.userInput),
    optionalRecord_find hSteps (recordArray_map u.agentLoopStep fun s _ => checkStep_toJson s)]
  rfl

theorem checkLoop_toJson (p : LoopProgress) : checkLoop p.toJson = .ok () := by
  have hObj : p.toJson.IsObject := p.toJson_isObject
  have hPending : p.toJson.find? "pending_results" =
      some (.arr (p.pendingResults.map InvokeReturn.toJson)) := by
    simp [LoopProgress.toJson]
  rw [checkLoop, requireObject_ok hObj, atKey_eq_find? hObj hPending]
  exact recordArray_map p.pendingResults fun r _ => checkResult_toJson r

theorem checkSnapshot_toJson (s : AgentInputState) : checkSnapshot s.toJson = .ok () := by
  have hObj : s.toJson.IsObject := by simp [AgentInputState.toJson]
  have hLoop : s.toJson.find? "loop" = s.loop.map LoopProgress.toJson := by
    simp [AgentInputState.toJson, find?_setOptional]
  have hMeta : s.toJson.find? "meta" = some s.metaInfo.toJson := by
    simp [AgentInputState.toJson, find?_setOptional]
  have hPrompt : s.toJson.find? "system_prompt" = some s.systemPrompt.toJson := by
    simp [AgentInputState.toJson, find?_setOptional]
  have hTools : s.toJson.find? "tools" = some (.arr (s.tools.map Invocable.toJson)) := by
    simp [AgentInputState.toJson, find?_setOptional]
  have hTurns : s.toJson.find? "turns" = some (.arr (s.turns.map UserLoopStep.toJson)) := by
    simp [AgentInputState.toJson, find?_setOptional]
  have hMetaObject : s.metaInfo.toJson.IsObject := by simp [MetaInfo.toJson]
  have hPromptObject : s.systemPrompt.toJson.IsObject := by simp [PromptTemplate.toJson]
  have hSections : s.systemPrompt.toJson.find? "sections" =
      some (.arr (s.systemPrompt.sections.map PromptSection.toJson)) := by
    simp [PromptTemplate.toJson, find?_set]
  rw [checkSnapshot, requireObject_ok hObj, atKey_eq_find? hObj hMeta,
    atKey_eq_find? hObj hPrompt, atKey_eq_find? hObj hTools, atKey_eq_find? hObj hTurns]
  simp only [bind, Except.bind, requireObject_ok hMetaObject, requireObject_ok hPromptObject]
  rw [optionalRecord_find hSections
      (recordArray_map s.systemPrompt.sections fun p _ => requireObject_ok (by
        simp [PromptSection.toJson])),
    recordArray_map s.tools fun v _ => requireObject_ok (by simp [Invocable.toJson]),
    recordArray_map s.turns fun u _ => checkTurn_toJson u]
  exact optionalRecord_map hLoop fun p _ => checkLoop_toJson p

theorem decodeState_toJson (s : AgentInputState) : decodeState s.toJson = .ok s.dropNulls := by
  rw [decodeState, checkSnapshot_toJson, ← AgentInputState.fromJson_toJson]
  rfl

/-! ## Two stores, one checkpoint -/

section Stores

variable (print : Json → String) (dump : Json → String) (parse : String → Option Json)
  (newRowid : List Int → Int)

/-- Checkpoint into the JSON store and load: `save_state`, then `load_state`. -/
def jsonRestore (s : AgentInputState) : Option AgentInputState :=
  (parse (print s.toJson ++ "\n")).bind fun document => (decodeState document).toOption

/-- Checkpoint into the SQLite store and load: `replace_current`, then `load_current`. -/
def sqliteRestore (db : Database) (s : AgentInputState) : Option AgentInputState :=
  (replaceCurrent dump newRowid db s.metaInfo.sessionId s).toOption.bind fun written =>
    (loadCurrent parse written.2 s.metaInfo.sessionId).toOption.join

variable {print dump parse newRowid}

theorem jsonRestore_eq {s : AgentInputState}
    (hDocument : parse (print s.toJson ++ "\n") = some s.toJson) :
    jsonRestore print parse s = some s.dropNulls := by
  simp [jsonRestore, hDocument, decodeState_toJson, Except.toOption]

theorem sqliteRestore_eq (hNull : parse "null" = some .null)
    (hFresh : ∀ ids, newRowid ids ∉ ids) {db : Database} (hDb : db.Consistent)
    {s : AgentInputState} (hFields : s.JsonFields (Readable dump parse) (Readable dump parse))
    (hSession : requireSession db s.metaInfo.sessionId = .ok ()) :
    sqliteRestore dump parse newRowid db s = some s := by
  obtain ⟨id, d, hReplace, hLoad⟩ :=
    replaceCurrent_reads_back hNull hFresh hDb s hFields hSession
  simp [sqliteRestore, hReplace, hLoad, Except.toOption]

/-- Both directions of the data contract, and the stores agreeing on a checkpoint. -/
def RoundTrips (print dump : Json → String) (parse : String → Option Json)
    (newRowid : List Int → Int) (db : Database) (s : AgentInputState) : Prop :=
  AgentInputState.fromJson s.toJson = .ok s ∧
    ∃ r, sqliteRestore dump parse newRowid db s = some r ∧ jsonRestore print parse s = some r

/--
**When the stores restore the same state.** A state survives `to_json` and
`from_json`, and both stores restore it from one checkpoint, exactly when none of
its optional JSON values is engaged with null.
-/
theorem roundTrips_iff_no_engaged_null (print dump : Json → String)
    (parse : String → Option Json) (newRowid : List Int → Int)
    (hNull : parse "null" = some .null) (hFresh : ∀ ids, newRowid ids ∉ ids) (db : Database)
    (hDb : db.Consistent) (s : AgentInputState)
    (hDocument : parse (print s.toJson ++ "\n") = some s.toJson)
    (hFields : s.JsonFields (Readable dump parse) (Readable dump parse))
    (hSession : requireSession db s.metaInfo.sessionId = .ok ()) :
    RoundTrips print dump parse newRowid db s ↔ s.JsonFields NonNull AnyJson := by
  rw [← s.dropNulls_eq_self_iff, RoundTrips, s.fromJson_toJson,
    sqliteRestore_eq hNull hFresh hDb hFields hSession, jsonRestore_eq hDocument]
  constructor
  · rintro ⟨hSame, -⟩
    exact Except.ok.inj hSame
  · intro hSame
    rw [hSame]
    exact ⟨rfl, s, rfl, rfl⟩

end Stores

/-! ### A session with JSON values, and a fresh one with a null -/

mutual

/-- `dump` of values without floats whose texts need no escapes; `line depth` begins a line. -/
def render (line : Nat → String) (colon : String) (depth : Nat) : Json → String
  | .null => "null"
  | .bool value => toString value
  | .integer n => toString n.value
  | .float q => toString q
  | .str s => "\"" ++ s ++ "\""
  | .arr [] => "[]"
  | .arr (x :: xs) => "[" ++ line (depth + 1) ++ render line colon (depth + 1) x ++
      renderItems line colon (depth + 1) xs ++ line depth ++ "]"
  | .obj [] => "\x7b\x7d"
  | .obj ((key, x) :: rest) => "\x7b" ++ line (depth + 1) ++ "\"" ++ key ++ "\"" ++ colon ++
      render line colon (depth + 1) x ++ renderFields line colon (depth + 1) rest ++
      line depth ++ "\x7d"

def renderItems (line : Nat → String) (colon : String) (depth : Nat) : List Json → String
  | [] => ""
  | x :: xs => "," ++ line depth ++ render line colon depth x ++ renderItems line colon depth xs

def renderFields (line : Nat → String) (colon : String) (depth : Nat) :
    List (String × Json) → String
  | [] => ""
  | (key, x) :: rest => "," ++ line depth ++ "\"" ++ key ++ "\"" ++ colon ++
      render line colon depth x ++ renderFields line colon depth rest

end

/-- `dump()`. -/
def compact : Json → String := render (fun _ => "") ":" 0

/-- `dump(2)`. -/
def indented : Json → String :=
  render (fun depth => "\n" ++ String.ofList (List.replicate (2 * depth) ' ')) ": " 0

def parseOf (values : List Json) (text : String) : Option Json :=
  values.find? fun j => compact j = text ∨ indented j ++ "\n" = text

/-- A fresh session to which the host attached a value. -/
def freshState (extras : Option Json) : AgentInputState where
  metaInfo := { sessionId := "session" }
  extras := extras

def pathArguments : Json := Json.object [("path", .str "notes.md"), ("lines", Json.uint 20)]

def callExtras : Json := Json.object [("type", .str "function_call"), ("strict", .bool true)]

def callState : AgentInputState where
  metaInfo := { sessionId := "session", error := some (.str "stopped") }
  turns := [{
    userInput := { role := "user", content := [{ raw := "read the notes" }] }
    agentLoopStep := [{
      modelResponse := {
        type := .modelResponse
        invokes := some
          [{ id := "call", name := "read", arguments := pathArguments, extras := some callExtras }] }
      commitSequence := 1 }] }]
  extras := some (.arr [.str "host", .null])

/-- What the texts below stand for. -/
def storedValues : List Json :=
  [callState.toJson, (freshState none).toJson, (freshState (some .null)).toJson, .null, .obj [],
   pathArguments, callExtras, .str "stopped", .arr [.str "host", .null]]

theorem callState_jsonFields {P Q : Json → Prop} (hArguments : Q pathArguments)
    (hP : ∀ j ∈ [callExtras, .str "stopped", .arr [.str "host", .null]], P j) :
    callState.JsonFields P Q := by
  simp only [List.forall_mem_cons, List.not_mem_nil, false_implies, implies_true, and_true] at hP
  obtain ⟨hCall, hError, hExtras⟩ := hP
  refine ⟨by simp [callState], ?_, by simp [callState], ?_, by simpa [callState] using hExtras⟩
  · simpa [callState, MetaInfo.JsonFields] using hError
  · simp only [callState, List.mem_singleton, forall_eq]
    refine ⟨⟨?_, ?_, ?_, ?_, ?_, ?_⟩, ?_, ?_⟩ <;> simp [Content.JsonFields]
    refine ⟨⟨?_, ?_, ?_, ?_, ?_, ?_⟩, ?_, ?_⟩ <;> simp [InvokeQuery.JsonFields, hArguments, hCall]

theorem freshState_jsonFields {P Q : Json → Prop} {extras : Option Json}
    (hExtras : ∀ j, extras = some j → P j) : (freshState extras).JsonFields P Q := by
  refine ⟨?_, ?_, ?_, ?_, hExtras⟩ <;> simp [freshState, MetaInfo.JsonFields]

/-- The call, its arguments and every value survive both stores. -/
theorem roundTrips_call :
    RoundTrips indented compact (parseOf storedValues) nextRowid sampleDatabase callState :=
  (roundTrips_iff_no_engaged_null indented compact (parseOf storedValues) nextRowid
    (by decide +kernel) nextRowid_fresh sampleDatabase sampleDatabase_consistent callState
    (by decide +kernel)
    (callState_jsonFields (by unfold Readable; decide +kernel)
      (by unfold Readable; decide +kernel)) rfl).mpr
    (callState_jsonFields trivial (by unfold NonNull; decide))

/-- The engaged null is lost on the way through JSON and kept by SQLite. -/
theorem freshState_null_not_restored :
    AgentInputState.fromJson (freshState (some .null)).toJson = .ok (freshState none) ∧
      freshState none ≠ freshState (some .null) ∧
      jsonRestore indented (parseOf storedValues) (freshState (some .null)) =
        some (freshState none) ∧
      sqliteRestore compact (parseOf storedValues) nextRowid sampleDatabase
        (freshState (some .null)) = some (freshState (some .null)) ∧
      ¬RoundTrips indented compact (parseOf storedValues) nextRowid sampleDatabase
        (freshState (some .null)) := by
  have hDropped : (freshState (some .null)).dropNulls = freshState none := rfl
  have hDiffer : freshState none ≠ freshState (some .null) := by
    intro hSame
    exact absurd (congrArg AgentInputState.extras hSame) (by decide)
  have hJson : AgentInputState.fromJson (freshState (some .null)).toJson =
      .ok (freshState none) := by
    rw [AgentInputState.fromJson_toJson, hDropped]
  refine ⟨hJson, hDiffer, ?_, ?_, ?_⟩
  · rw [jsonRestore_eq (by decide +kernel), hDropped]
  · refine sqliteRestore_eq (by decide +kernel) nextRowid_fresh sampleDatabase_consistent
      (freshState_jsonFields ?_) rfl
    rintro _ ⟨⟩
    unfold Readable
    decide +kernel
  · rintro ⟨hSame, -⟩
    rw [hJson] at hSame
    exact hDiffer (Except.ok.inj hSame)

end SimplexAgent.Persistence
