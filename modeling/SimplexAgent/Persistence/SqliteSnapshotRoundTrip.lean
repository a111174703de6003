import SimplexAgent.Persistence.SqliteSnapshot

/-!
# Snapshots read back

Decoding the rows that encoding a state has written gives the state back. The
argument follows the tables.

Encoding is a long sequence of inserts, each under a row id the database has just
picked. What it leaves is described by the state together with the ids that were
picked (`EncodedTurn`, `EncodedStep`, `EncodedMessage`): every table grew by rows
that are a function of this tree, group by group, and the primary keys stayed
distinct. Decoding then is one query after another for the rows of one owner, and
each of them is an instance of `filter_append_flatMap_owner`: older rows point to
older owners, and of the new ones exactly those of the owner are found, in the
order in which they were written.
-/

namespace SimplexAgent.Persistence

open Dataclass Verified.Tables

/-! ## Columns -/

theorem decimalDigits_length (width value : Nat) : (decimalDigits width value).length = width := by
  induction width generalizing value with
  | zero => rfl
  | succ width ih => simp [decimalDigits, ih]

/-- A decimal digit is a byte between `0` and `9` that stands for its value. -/
theorem parseDigit_digit (column : String) {value digit : Nat} (hDigit : digit < 10)
    (hFits : value * 10 + digit < 2 ^ 64) :
    parseDigit column value (Char.ofNat ('0'.toNat + digit)) = .ok (value * 10 + digit) := by
  have hAll : ∀ d : Fin 10, ¬(Char.ofNat ('0'.toNat + d) < '0' ∨ '9' < Char.ofNat ('0'.toNat + d)) ∧
        (Char.ofNat ('0'.toNat + d)).toNat - '0'.toNat = d := by
    decide
  have hChar := hAll ⟨digit, hDigit⟩
  simp only at hChar
  have hNoOverflow : ¬ value > (2 ^ 64 - 1 - digit) / 10 := by omega
  rw [parseDigit, if_neg hChar.1, hChar.2]
  simp only [hNoOverflow, if_false]

theorem foldlM_parseDigit (column : String) (width : Nat) :
    ∀ value : Nat, value < 10 ^ width → value < 2 ^ 64 →
      (decimalDigits width value).foldlM (parseDigit column) 0 = .ok value := by
  induction width with
  | zero =>
    intro value hWidth _
    have hZero : value = 0 := by omega
    subst hZero
    rfl
  | succ width ih =>
    intro value hWidth hFits
    have hHigh : value / 10 < 10 ^ width := by
      rw [Nat.pow_succ] at hWidth
      omega
    have hLast := @parseDigit_digit column (value / 10) _ (Nat.mod_lt value (by decide))
      (by omega)
    have hValue : value / 10 * 10 + value % 10 = value := Nat.div_add_mod' value 10
    rw [hValue] at hLast
    rw [decimalDigits, List.foldlM_append, ih (value / 10) hHigh (by omega)]
    simp only [bind, Except.bind, List.foldlM_cons, hLast, List.foldlM_nil]
    rfl

/-- **Counters read back**, up to the extremes of 64 bits. -/
theorem parseU64_formatU64 (value : UInt64) (column : String) :
    parseU64 (formatU64 value) column = .ok value := by
  have hLt := value.toNat_lt
  have hDigits := foldlM_parseDigit column 20 value.toNat (by omega) (by omega)
  simp only [parseU64, formatU64, String.toList_ofList, decimalDigits_length, hDigits]
  simp [Except.map]

theorem enumValue_of_fromJson {α : Type} {fromJson : Json → Except JsonError α} {name : String}
    {v : α} (column : String) (hName : fromJson (.str name) = .ok v) :
    enumValue fromJson name column = .ok v := by
  simp [enumValue, hName]

section RoundTrip

variable {dump : Json → String} {parse : String → Option Json} {newRowid : List Int → Int}

/-- The text of `j` parses back to `j`. -/
def Readable (dump : Json → String) (parse : String → Option Json) (j : Json) : Prop :=
  parse (dump j) = some j

variable (hNull : parse "null" = some .null)

include hNull in
theorem decodeOptionalJson_encode {value : Option Json} (column : String)
    (hValue : ∀ j, value = some j → Readable dump parse j) :
    decodeOptionalJson parse (encodeOptionalJson dump value) column = .ok value := by
  cases value with
  | none => rfl
  | some j =>
    cases hIsNull : j.isNull with
    | true =>
      have hj : j = .null := by cases j <;> simp_all [Json.isNull]
      subst hj
      simp [encodeOptionalJson, Json.isNull, decodeOptionalJson, parseJson, hNull, Except.map]
    | false =>
      have hRead : parse (dump j) = some j := hValue j rfl
      simp [encodeOptionalJson, hIsNull, decodeOptionalJson, parseJson, hRead, Except.map]

theorem parseJson_dump {j : Json} (column : String) (hRead : Readable dump parse j) :
    parseJson parse (dump j) column = .ok j := by
  have hRead' : parse (dump j) = some j := hRead
  simp [parseJson, hRead']

include hNull in
theorem decodeContentColumns_encode {c : Content} (hc : c.JsonFields (Readable dump parse)) :
    decodeContentColumns parse (contentColumns dump c) = .ok c := by
  simp only [decodeContentColumns, contentColumns, enumValue_of_fromJson _ c.type.fromJson_toJson,
    enumValue_of_fromJson _ c.modality.fromJson_toJson,
    decodeOptionalJson_encode hNull _ hc]
  rfl

include hNull in
theorem decodeQueryColumns_encode {q : InvokeQuery}
    (hq : q.JsonFields (Readable dump parse) (Readable dump parse)) :
    decodeQueryColumns parse (queryColumns dump q) = .ok q := by
  simp only [decodeQueryColumns, queryColumns, enumValue_of_fromJson _ q.type.fromJson_toJson,
    enumValue_of_fromJson _ q.security.fromJson_toJson, parseJson_dump _ hq.1,
    decodeOptionalJson_encode hNull _ hq.2]
  rfl

include hNull in
theorem decodeReturnColumns_encode {r : InvokeReturn}
    (hr : r.JsonFields (Readable dump parse) (Readable dump parse)) :
    decodeReturnColumns parse (returnColumns dump r) = .ok r := by
  simp only [decodeReturnColumns, returnColumns, decodeQueryColumns_encode hNull hr.1,
    decodeContentColumns_encode hNull hr.2.1, decodeOptionalJson_encode hNull _ hr.2.2]
  rfl

end RoundTrip

/-! ## What encoding leaves

A message, step or turn together with the row ids picked for it.
-/

structure EncodedMessage where
  row : MessageRow
  item : MessageItem

structure EncodedStep where
  id : Int
  responseId : Int
  returns : List (Int × MessageItem)
  step : AgentLoopStep

structure EncodedTurn where
  id : Int
  inputId : Int
  steps : List EncodedStep
  turn : UserLoopStep

section Encode

variable (dump : Json → String) (newRowid : List Int → Int)

def encodedMessage (messageId snapshotId : Int) (turnId stepId : Option Int) (slot : String)
    (ordinal : Nat) (m : MessageItem) : EncodedMessage where
  row := messageRow dump messageId snapshotId turnId stepId slot ordinal m
  item := m

namespace EncodedMessage

def contentRows (e : EncodedMessage) : List ContentRow :=
  numbered (contentRow dump e.row.messageId "body") 0 e.item.content ++
    numbered (contentRow dump e.row.messageId "reasoning") 0 e.item.reasoning.toList ++
    numbered (contentRow dump e.row.messageId "action_status") 0 e.item.actionStatus.toList

def invokeRows (e : EncodedMessage) : List InvokeRow :=
  numbered (invokeRow dump e.row.messageId) 0 (e.item.invokes.getD [])

def costRows (e : EncodedMessage) : List CostRow :=
  e.item.cost.toList.map (costRow e.row.messageId)

def returnRows (e : EncodedMessage) : List InvokeReturnRow :=
  e.item.invokeReturn.toList.map fun r =>
    { messageId := e.row.messageId, result := returnColumns dump r }

end EncodedMessage

def EncodedStep.messages (snapshotId : Int) (e : EncodedStep) : List EncodedMessage :=
  encodedMessage dump e.responseId snapshotId none (some e.id) "model_response" 0
      e.step.modelResponse ::
    numbered (fun i p =>
      encodedMessage dump p.1 snapshotId none (some e.id) "invoke_return" i p.2) 0 e.returns

def EncodedTurn.input (snapshotId : Int) (t : EncodedTurn) : EncodedMessage :=
  encodedMessage dump t.inputId snapshotId (some t.id) none "user_input" 0 t.turn.userInput

def EncodedTurn.messages (snapshotId : Int) (t : EncodedTurn) : List EncodedMessage :=
  t.input dump snapshotId :: t.steps.flatMap (EncodedStep.messages dump snapshotId)

def EncodedTurn.stepRows (snapshotId : Int) (t : EncodedTurn) : List AgentStepRow :=
  numbered (fun i e => agentStepRow dump e.id snapshotId t.id i e.step) 0 t.steps

def Database.addMessages (db : Database) (es : List EncodedMessage) : Database :=
  { db with
    messages := db.messages ++ es.map EncodedMessage.row
    messageContents := db.messageContents ++ es.flatMap (EncodedMessage.contentRows dump)
    messageCosts := db.messageCosts ++ es.flatMap EncodedMessage.costRows
    messageInvokes := db.messageInvokes ++ es.flatMap (EncodedMessage.invokeRows dump)
    messageInvokeReturns :=
      db.messageInvokeReturns ++ es.flatMap (EncodedMessage.returnRows dump) }

theorem Database.addMessages_append (db : Database) (es fs : List EncodedMessage) :
    (db.addMessages dump es).addMessages dump fs = db.addMessages dump (es ++ fs) := by
  simp [addMessages]

theorem insertContents_eq (messageId : Int) (slot : String) (cs : List Content) :
    ∀ (db : Database) (n : Nat), insertContents dump db messageId slot n cs =
      { db with messageContents :=
          db.messageContents ++ numbered (contentRow dump messageId slot) n cs } := by
  induction cs with
  | nil => intro db n; simp [insertContents, numbered]
  | cons c cs ih =>
    intro db n
    simp only [insertContents, ih, insertContent, numbered, List.append_assoc,
      List.singleton_append]

theorem insertInvokes_eq (messageId : Int) (qs : List InvokeQuery) :
    ∀ (db : Database) (n : Nat), insertInvokes dump db messageId n qs =
      { db with messageInvokes :=
          db.messageInvokes ++ numbered (invokeRow dump messageId) n qs } := by
  induction qs with
  | nil => intro db n; simp [insertInvokes, numbered]
  | cons q qs ih =>
    intro db n
    simp only [insertInvokes, ih, numbered, List.append_assoc, List.singleton_append]

theorem insertMessage_eq (db : Database) (snapshotId : Int) (turnId stepId : Option Int)
    (slot : String) (ordinal : Nat) (m : MessageItem) :
    insertMessage dump newRowid db snapshotId turnId stepId slot ordinal m =
      db.addMessages dump [encodedMessage dump
        (newRowid (db.messages.map MessageRow.messageId)) snapshotId turnId stepId slot
        ordinal m] := by
  cases hInvokes : m.invokes <;> cases hCost : m.cost <;> cases hReturn : m.invokeReturn <;>
    simp [insertMessage, insertContents_eq, insertInvokes_eq, hInvokes, hCost, hReturn,
      Database.addMessages, EncodedMessage.contentRows, EncodedMessage.invokeRows,
      EncodedMessage.costRows, EncodedMessage.returnRows, encodedMessage, messageRow, numbered]

structure Database.KeysNodup (db : Database) : Prop where
  turns : (db.turns.map TurnRow.turnId).Nodup
  agentSteps : (db.agentSteps.map AgentStepRow.stepId).Nodup
  messages : (db.messages.map MessageRow.messageId).Nodup

variable {newRowid} (hFresh : ∀ ids, newRowid ids ∉ ids)

include hFresh in
theorem keysNodup_insertMessage {db : Database} (hKeys : db.KeysNodup) (snapshotId : Int)
    (turnId stepId : Option Int) (slot : String) (ordinal : Nat) (m : MessageItem) :
    (insertMessage dump newRowid db snapshotId turnId stepId slot ordinal m).KeysNodup := by
  rw [insertMessage_eq]
  refine ⟨hKeys.turns, hKeys.agentSteps, ?_⟩
  simp only [Database.addMessages, List.map_append]
  exact nodup_append_fresh hKeys.messages (hFresh _)

include hFresh in
theorem insertInvokeReturns_eq (snapshotId stepId : Int) (ms : List MessageItem) :
    ∀ (db : Database) (n : Nat), db.KeysNodup →
      ∃ returns : List (Int × MessageItem), returns.map Prod.snd = ms ∧
        insertInvokeReturns dump newRowid db snapshotId stepId n ms =
          db.addMessages dump (numbered (fun i p =>
            encodedMessage dump p.1 snapshotId none (some stepId) "invoke_return" i p.2) n
            returns) ∧
        (insertInvokeReturns dump newRowid db snapshotId stepId n ms).KeysNodup := by
  induction ms with
  | nil =>
    intro db n hKeys
    exact ⟨[], rfl, by simp [insertInvokeReturns, numbered, Database.addMessages], hKeys⟩
  | cons m ms ih =>
    intro db n hKeys
    have hNext := keysNodup_insertMessage dump hFresh hKeys snapshotId none (some stepId)
      "invoke_return" n m
    obtain ⟨returns, hItems, hEq, hNodup⟩ := ih _ (n + 1) hNext
    refine ⟨(newRowid (db.messages.map MessageRow.messageId), m) :: returns, ?_, ?_, hNodup⟩
    · simp [hItems]
    · rw [insertInvokeReturns, hEq, insertMessage_eq, Database.addMessages_append]
      rfl

def Database.addSteps (db : Database) (snapshotId turnId : Int) (n : Nat)
    (steps : List EncodedStep) : Database :=
  { db with
    agentSteps := db.agentSteps ++
      numbered (fun i (e : EncodedStep) => agentStepRow dump e.id snapshotId turnId i e.step)
        n steps
    }.addMessages dump (steps.flatMap (EncodedStep.messages dump snapshotId))

def EncodedStep.WellFormed (e : EncodedStep) : Prop :=
  e.returns.map Prod.snd = e.step.invokeReturns.getD []

include hFresh in
theorem insertAgentSteps_eq (snapshotId turnId : Int) (ss : List AgentLoopStep) :
    ∀ (db : Database) (n : Nat), db.KeysNodup →
      ∃ steps : List EncodedStep, steps.map EncodedStep.step = ss ∧ (∀ e ∈ steps, e.WellFormed) ∧
        insertAgentSteps dump newRowid db snapshotId turnId n ss =
          db.addSteps dump snapshotId turnId n steps ∧
        (insertAgentSteps dump newRowid db snapshotId turnId n ss).KeysNodup := by
  induction ss with
  | nil =>
    intro db n hKeys
    refine ⟨[], rfl, by simp, ?_, hKeys⟩
    simp [insertAgentSteps, Database.addSteps, Database.addMessages, numbered]
  | cons s ss ih =>
    intro db n hKeys
    have hRow : ({ db with agentSteps := db.agentSteps ++
        [agentStepRow dump (newRowid (db.agentSteps.map AgentStepRow.stepId)) snapshotId
          turnId n s] } : Database).KeysNodup := by
      refine ⟨hKeys.turns, ?_, hKeys.messages⟩
      simp only [List.map_append]
      exact nodup_append_fresh hKeys.agentSteps (hFresh _)
    have hResponse := keysNodup_insertMessage dump hFresh hRow snapshotId none
      (some (newRowid (db.agentSteps.map AgentStepRow.stepId))) "model_response" 0
      s.modelResponse
    obtain ⟨returns, hItems, hReturns, hReturnsKeys⟩ :=
      insertInvokeReturns_eq dump hFresh snapshotId
        (newRowid (db.agentSteps.map AgentStepRow.stepId)) (s.invokeReturns.getD []) _ 0
        hResponse
    obtain ⟨steps, hSteps, hWell, hEq, hNodup⟩ := ih _ (n + 1) hReturnsKeys
    refine ⟨⟨newRowid (db.agentSteps.map AgentStepRow.stepId),
      newRowid (db.messages.map MessageRow.messageId), returns, s⟩ :: steps, ?_, ?_, ?_,
      hNodup⟩
    · simp [hSteps]
    · intro e he
      rcases List.mem_cons.mp he with rfl | hRest
      · exact hItems
      · exact hWell e hRest
    · simp only [insertAgentSteps]
      rw [hEq, hReturns, insertMessage_eq]
      simp only [Database.addSteps, Database.addMessages,
        numbered, List.flatMap_cons, EncodedStep.messages, List.map_append, List.map_cons,
        List.flatMap_append, List.append_assoc, List.map_nil,
        List.flatMap_nil, List.append_nil, List.nil_append, List.cons_append]

def Database.addTurns (db : Database) (snapshotId : Int) (n : Nat) (ts : List EncodedTurn) :
    Database :=
  { db with
    turns := db.turns ++
      numbered (fun i (t : EncodedTurn) => turnRow dump t.id snapshotId i t.turn) n ts
    agentSteps := db.agentSteps ++ ts.flatMap (EncodedTurn.stepRows dump snapshotId)
    }.addMessages dump (ts.flatMap (EncodedTurn.messages dump snapshotId))

def EncodedTurn.WellFormed (t : EncodedTurn) : Prop :=
  t.steps.map EncodedStep.step = t.turn.agentLoopStep ∧ ∀ e ∈ t.steps, e.WellFormed

include hFresh in
/-- **What `insert_turns` leaves**, with the keys still distinct. -/
theorem insertTurns_eq (snapshotId : Int) (us : List UserLoopStep) :
    ∀ (db : Database) (n : Nat), db.KeysNodup →
      ∃ ts : List EncodedTurn, ts.map EncodedTurn.turn = us ∧ (∀ t ∈ ts, t.WellFormed) ∧
        insertTurns dump newRowid db snapshotId n us = db.addTurns dump snapshotId n ts ∧
        (insertTurns dump newRowid db snapshotId n us).KeysNodup := by
  induction us with
  | nil =>
    intro db n hKeys
    refine ⟨[], rfl, by simp, ?_, hKeys⟩
    simp [insertTurns, Database.addTurns, Database.addMessages, numbered]
  | cons u us ih =>
    intro db n hKeys
    have hRow : ({ db with turns := db.turns ++
        [turnRow dump (newRowid (db.turns.map TurnRow.turnId)) snapshotId n u] } :
        Database).KeysNodup := by
      refine ⟨?_, hKeys.agentSteps, hKeys.messages⟩
      simp only [List.map_append]
      exact nodup_append_fresh hKeys.turns (hFresh _)
    have hInput := keysNodup_insertMessage dump hFresh hRow snapshotId
      (some (newRowid (db.turns.map TurnRow.turnId))) none "user_input" 0 u.userInput
    obtain ⟨steps, hStepItems, hStepsWell, hSteps, hStepsKeys⟩ :=
      insertAgentSteps_eq dump hFresh snapshotId (newRowid (db.turns.map TurnRow.turnId))
        u.agentLoopStep _ 0 hInput
    obtain ⟨ts, hTurns, hWell, hEq, hNodup⟩ := ih _ (n + 1) hStepsKeys
    refine ⟨⟨newRowid (db.turns.map TurnRow.turnId),
      newRowid (db.messages.map MessageRow.messageId), steps, u⟩ :: ts, ?_, ?_, ?_, hNodup⟩
    · simp [hTurns]
    · intro t ht
      rcases List.mem_cons.mp ht with rfl | hRest
      · exact ⟨hStepItems, hStepsWell⟩
      · exact hWell t hRest
    · simp only [insertTurns]
      rw [hEq, hSteps, insertMessage_eq]
      simp only [Database.addTurns, Database.addSteps,
        Database.addMessages, numbered, List.flatMap_cons, EncodedTurn.messages,
        EncodedTurn.stepRows, EncodedTurn.input, List.map_append, List.map_cons,
        List.flatMap_append, List.append_assoc, List.map_nil,
        List.flatMap_nil, List.append_nil, List.nil_append, List.cons_append]

end Encode

/-! ## Reading the rows back -/

/--
Every reference between tables points to a row that is there; steps and messages
refer to their owner together with the snapshot both belong to.
-/
structure Database.References (db : Database) : Prop where
  promptSections : ∀ r ∈ db.promptSections, r.snapshotId ∈ db.snapshots.map (·.snapshotId)
  toolDefinitions : ∀ r ∈ db.toolDefinitions, r.snapshotId ∈ db.snapshots.map (·.snapshotId)
  turns : ∀ r ∈ db.turns, r.snapshotId ∈ db.snapshots.map (·.snapshotId)
  loopProgress : ∀ r ∈ db.loopProgress, r.snapshotId ∈ db.snapshots.map (·.snapshotId)
  pendingResults : ∀ r ∈ db.pendingResults, r.snapshotId ∈ db.snapshots.map (·.snapshotId)
  agentSteps : ∀ r ∈ db.agentSteps, ∃ t ∈ db.turns,
    t.turnId = r.turnId ∧ t.snapshotId = r.snapshotId
  messageTurns : ∀ r ∈ db.messages, ∀ k, r.turnId = some k → ∃ t ∈ db.turns,
    t.turnId = k ∧ t.snapshotId = r.snapshotId
  messageSteps : ∀ r ∈ db.messages, ∀ k, r.stepId = some k → ∃ s ∈ db.agentSteps,
    s.stepId = k ∧ s.snapshotId = r.snapshotId
  messageContents : ∀ r ∈ db.messageContents,
    r.messageId ∈ db.messages.map MessageRow.messageId
  messageCosts : ∀ r ∈ db.messageCosts, r.messageId ∈ db.messages.map MessageRow.messageId
  messageInvokes : ∀ r ∈ db.messageInvokes, r.messageId ∈ db.messages.map MessageRow.messageId
  messageInvokeReturns : ∀ r ∈ db.messageInvokeReturns,
    r.messageId ∈ db.messages.map MessageRow.messageId

section Decode

variable {dump : Json → String} {parse : String → Option Json}
variable {old d : Database} {es : List EncodedMessage} {ts : List EncodedTurn} {snapshotId : Int}
  {e : EncodedMessage}

/-- The message tables of `d` are those of `old` and the rows of the messages `es`. -/
structure MessagesWritten (dump : Json → String) (old d : Database)
    (es : List EncodedMessage) : Prop where
  messages : d.messages = old.messages ++ es.map EncodedMessage.row
  contents : d.messageContents = old.messageContents ++ es.flatMap (EncodedMessage.contentRows dump)
  costs : d.messageCosts = old.messageCosts ++ es.flatMap EncodedMessage.costRows
  invokes : d.messageInvokes = old.messageInvokes ++ es.flatMap (EncodedMessage.invokeRows dump)
  returns : d.messageInvokeReturns =
    old.messageInvokeReturns ++ es.flatMap (EncodedMessage.returnRows dump)
  nodup : (d.messages.map MessageRow.messageId).Nodup

theorem MessagesWritten.keys (hWritten : MessagesWritten dump old d es) :
    (old.messages.map MessageRow.messageId ++ es.map fun e => e.row.messageId).Nodup := by
  have hNodup := hWritten.nodup
  rw [hWritten.messages, List.map_append, List.map_map] at hNodup
  exact hNodup

theorem contentRows_owner (e : EncodedMessage) :
    ∀ r ∈ e.contentRows dump, r.messageId = e.row.messageId := by
  intro r hr
  simp only [EncodedMessage.contentRows, List.mem_append] at hr
  rcases hr with (hBody | hReasoning) | hStatus
  · obtain ⟨_, _, _, _, rfl⟩ := mem_numbered hBody
    rfl
  · obtain ⟨_, _, _, _, rfl⟩ := mem_numbered hReasoning
    rfl
  · obtain ⟨_, _, _, _, rfl⟩ := mem_numbered hStatus
    rfl

theorem filter_numbered_slot (messageId : Int) (slot slot' : String) (cs : List Content) :
    (numbered (contentRow dump messageId slot) 0 cs).filter (fun r => r.slot = slot') =
      if slot = slot' then numbered (contentRow dump messageId slot) 0 cs else [] := by
  split
  · rename_i hSlot
    apply filter_eq_self_of_owner
    intro r hr
    obtain ⟨_, _, _, _, rfl⟩ := mem_numbered hr
    exact hSlot
  · rename_i hSlot
    apply filter_eq_nil_of_owner
    intro r hr
    obtain ⟨_, _, _, _, rfl⟩ := mem_numbered hr
    exact hSlot

theorem contents_of_slot (hRefs : old.References) (hWritten : MessagesWritten dump old d es)
    (he : e ∈ es) (slot : String) :
    d.messageContents.filter (fun r => r.messageId = e.row.messageId ∧ r.slot = slot) =
      (e.contentRows dump).filter fun r => r.slot = slot := by
  have hOwner : (old.messageContents ++ es.flatMap (EncodedMessage.contentRows dump)).filter
      (fun r => r.messageId = e.row.messageId) = e.contentRows dump :=
    filter_append_flatMap_owner hRefs.messageContents (fun e _ => contentRows_owner e)
      hWritten.keys he
  rw [← hWritten.contents] at hOwner
  rw [← hOwner, List.filter_filter]
  congr 1
  funext r
  simp [Bool.and_comm]

variable (hNull : parse "null" = some .null)

include hNull in
theorem decodeContents_numbered (hRefs : old.References) (hWritten : MessagesWritten dump old d es)
    (he : e ∈ es) {slot : String} {cs : List Content}
    (hSlot : (e.contentRows dump).filter (fun r => r.slot = slot) = numbered (contentRow dump e.row.messageId slot) 0 cs)
    (hFields : ∀ c ∈ cs, c.JsonFields (Readable dump parse)) :
    decodeContents parse d e.row.messageId slot = .ok cs := by
  rw [decodeContents, contents_of_slot hRefs hWritten he, hSlot,
    orderBy_numbered _ _ fun _ _ => rfl]
  apply mapM_numbered
  intro c hc _
  exact decodeContentColumns_encode hNull (hFields c hc)

include hNull in
theorem decodeSingleContent_numbered (hRefs : old.References)
    (hWritten : MessagesWritten dump old d es) (he : e ∈ es) {slot : String} {c : Option Content}
    (hSlot : (e.contentRows dump).filter (fun r => r.slot = slot) = numbered (contentRow dump e.row.messageId slot) 0 c.toList)
    (hFields : ∀ c', c = some c' → c'.JsonFields (Readable dump parse)) :
    decodeSingleContent parse d e.row.messageId slot = .ok c := by
  have hContents := decodeContents_numbered hNull hRefs hWritten he hSlot fun c' hc' =>
    hFields c' (by simpa using hc')
  rw [decodeSingleContent, hContents]
  cases c <;> rfl

include hNull in
theorem decodeInvokes_written (hRefs : old.References) (hWritten : MessagesWritten dump old d es)
    (he : e ∈ es)
    (hFields : ∀ qs, e.item.invokes = some qs → ∀ q ∈ qs, q.JsonFields (Readable dump parse) (Readable dump parse)) :
    decodeInvokes parse d e.row.messageId e.item.invokes.isSome = .ok e.item.invokes := by
  have hOwner : (old.messageInvokes ++ es.flatMap (EncodedMessage.invokeRows dump)).filter
      (fun r => r.messageId = e.row.messageId) = e.invokeRows dump := by
    refine filter_append_flatMap_owner hRefs.messageInvokes ?_ hWritten.keys he
    intro e _ r hr
    obtain ⟨_, _, _, _, rfl⟩ := mem_numbered hr
    rfl
  have hDecode : (numbered (invokeRow dump e.row.messageId) 0 (e.item.invokes.getD [])).mapM
      (fun r => decodeQueryColumns parse r.query) = .ok (e.item.invokes.getD []) := by
    apply mapM_numbered
    intro q hq _
    cases hInvokes : e.item.invokes with
    | none => simp [hInvokes] at hq
    | some qs =>
      exact decodeQueryColumns_encode hNull (hFields qs hInvokes q (by simpa [hInvokes] using hq))
  rw [← hWritten.invokes] at hOwner
  rw [decodeInvokes, hOwner, EncodedMessage.invokeRows, orderBy_numbered _ _ fun _ _ => rfl,
    hDecode]
  cases e.item.invokes <;> rfl

theorem decodeCost_written (hRefs : old.References) (hWritten : MessagesWritten dump old d es)
    (he : e ∈ es) : decodeCost d e.row.messageId = .ok e.item.cost := by
  have hOwner : (old.messageCosts ++ es.flatMap EncodedMessage.costRows).filter
      (fun r => r.messageId = e.row.messageId) = e.costRows := by
    refine filter_append_flatMap_owner hRefs.messageCosts ?_ hWritten.keys he
    intro e _ r hr
    obtain ⟨_, _, rfl⟩ := List.mem_map.mp hr
    rfl
  rw [← hWritten.costs] at hOwner
  rw [decodeCost, hOwner, EncodedMessage.costRows]
  cases e.item.cost with
  | none => rfl
  | some c =>
    simp only [Option.toList_some, List.map_cons, costRow, parseU64_formatU64]
    rfl

include hNull in
theorem decodeInvokeReturn_written (hRefs : old.References)
    (hWritten : MessagesWritten dump old d es) (he : e ∈ es)
    (hFields : ∀ r, e.item.invokeReturn = some r → r.JsonFields (Readable dump parse) (Readable dump parse)) :
    decodeInvokeReturn parse d e.row.messageId = .ok e.item.invokeReturn := by
  have hOwner : (old.messageInvokeReturns ++ es.flatMap (EncodedMessage.returnRows dump)).filter
      (fun r => r.messageId = e.row.messageId) = e.returnRows dump := by
    refine filter_append_flatMap_owner hRefs.messageInvokeReturns ?_ hWritten.keys he
    intro e _ r hr
    obtain ⟨_, _, rfl⟩ := List.mem_map.mp hr
    rfl
  rw [← hWritten.returns] at hOwner
  rw [decodeInvokeReturn, hOwner, EncodedMessage.returnRows]
  cases hReturn : e.item.invokeReturn with
  | none => rfl
  | some r =>
    simp only [Option.toList_some, List.map_cons,
      decodeReturnColumns_encode hNull (hFields r hReturn)]
    rfl

/-- A message row that carries the scalar columns of its item. -/
structure EncodedMessage.Genuine (dump : Json → String) (e : EncodedMessage) : Prop where
  type : e.row.type = e.item.type.nameOf
  role : e.row.role = e.item.role
  invokesPresent : e.row.invokesPresent = if e.item.invokes.isSome then 1 else 0
  extrasJson : e.row.extrasJson = encodeOptionalJson dump e.item.extras

theorem genuine_encodedMessage (messageId snapshotId : Int) (turnId stepId : Option Int)
    (slot : String) (ordinal : Nat) (m : MessageItem) :
    (encodedMessage dump messageId snapshotId turnId stepId slot ordinal m).Genuine dump :=
  ⟨rfl, rfl, rfl, rfl⟩

include hNull in
/-- **A message reads back** from the tables it was written to. -/
theorem decodeMessage_written (hRefs : old.References) (hWritten : MessagesWritten dump old d es)
    (he : e ∈ es) (hGenuine : e.Genuine dump)
    (hFields : e.item.JsonFields (Readable dump parse) (Readable dump parse)) :
    decodeMessage parse d e.row.messageId = .ok e.item := by
  have hOwner : (old.messages ++ es.flatMap fun e => [e.row]).filter
      (fun r => r.messageId = e.row.messageId) = [e.row] := by
    refine filter_append_flatMap_owner (fun r hr => List.mem_map_of_mem hr) ?_ hWritten.keys he
    intro e _ r hr
    rw [List.mem_singleton.mp hr]
  have hMap : (es.flatMap fun e => [e.row]) = es.map EncodedMessage.row :=
    List.map_eq_flatMap.symm
  rw [hMap, ← hWritten.messages] at hOwner
  have hBody : (e.contentRows dump).filter (fun r => r.slot = "body") =
      numbered (contentRow dump e.row.messageId "body") 0 e.item.content := by
    simp [EncodedMessage.contentRows, filter_numbered_slot]
  have hReasoning : (e.contentRows dump).filter (fun r => r.slot = "reasoning") =
      numbered (contentRow dump e.row.messageId "reasoning") 0 e.item.reasoning.toList := by
    simp [EncodedMessage.contentRows, filter_numbered_slot]
  have hStatus : (e.contentRows dump).filter (fun r => r.slot = "action_status") =
      numbered (contentRow dump e.row.messageId "action_status") 0
        e.item.actionStatus.toList := by
    simp [EncodedMessage.contentRows, filter_numbered_slot]
  have hPresent : decide (e.row.invokesPresent ≠ 0) = e.item.invokes.isSome := by
    rw [hGenuine.invokesPresent]
    cases e.item.invokes <;> rfl
  simp only [decodeMessage, hOwner, hGenuine.type, hGenuine.role, hGenuine.extrasJson, hPresent,
    enumValue_of_fromJson _ e.item.type.fromJson_toJson,
    decodeOptionalJson_encode hNull _ hFields.extras,
    decodeContents_numbered hNull hRefs hWritten he hBody hFields.content,
    decodeSingleContent_numbered hNull hRefs hWritten he hReasoning hFields.reasoning,
    decodeSingleContent_numbered hNull hRefs hWritten he hStatus hFields.actionStatus,
    decodeInvokes_written hNull hRefs hWritten he hFields.invokes,
    decodeCost_written hRefs hWritten he,
    decodeInvokeReturn_written hNull hRefs hWritten he hFields.invokeReturn]
  rfl

/-- The tables of `d` are those of `old` and the rows of the turns `ts`. -/
structure TurnsWritten (dump : Json → String) (old d : Database) (snapshotId : Int)
    (ts : List EncodedTurn) : Prop where
  messages : MessagesWritten dump old d (ts.flatMap (EncodedTurn.messages dump snapshotId))
  agentSteps : d.agentSteps = old.agentSteps ++ ts.flatMap (EncodedTurn.stepRows dump snapshotId)
  turns : d.turns = old.turns ++
    numbered (fun i (t : EncodedTurn) => turnRow dump t.id snapshotId i t.turn) 0 ts
  stepNodup : (d.agentSteps.map AgentStepRow.stepId).Nodup
  turnNodup : (d.turns.map TurnRow.turnId).Nodup

theorem TurnsWritten.stepKeys (hWritten : TurnsWritten dump old d snapshotId ts) :
    (old.agentSteps.map AgentStepRow.stepId ++
      (ts.flatMap EncodedTurn.steps).map EncodedStep.id).Nodup := by
  have hNodup := hWritten.stepNodup
  have hRows : ∀ t : EncodedTurn, (t.stepRows dump snapshotId).map AgentStepRow.stepId =
      t.steps.map EncodedStep.id := by
    intro t
    apply map_numbered
    intro _ _
    rfl
  rw [hWritten.agentSteps, List.map_append, List.map_flatMap] at hNodup
  simp only [hRows] at hNodup
  rw [List.map_flatMap]
  exact hNodup

theorem TurnsWritten.turnKeys (hWritten : TurnsWritten dump old d snapshotId ts) :
    (old.turns.map TurnRow.turnId ++ ts.map EncodedTurn.id).Nodup := by
  have hNodup := hWritten.turnNodup
  have hRows : (numbered (fun i (t : EncodedTurn) => turnRow dump t.id snapshotId i t.turn) 0
      ts).map TurnRow.turnId = ts.map EncodedTurn.id := by
    apply map_numbered
    intro _ _
    rfl
  rw [hWritten.turns, List.map_append, hRows] at hNodup
  exact hNodup

theorem step_messages_owner {e : EncodedStep} {m : EncodedMessage}
    (hm : m ∈ e.messages dump snapshotId) :
    m.row.stepId = some e.id ∧ m.row.turnId = none ∧ m.Genuine dump := by
  rcases List.mem_cons.mp hm with rfl | hReturn
  · exact ⟨rfl, rfl, genuine_encodedMessage _ _ _ _ _ _ _⟩
  · obtain ⟨_, _, _, _, rfl⟩ := mem_numbered hReturn
    exact ⟨rfl, rfl, genuine_encodedMessage _ _ _ _ _ _ _⟩

theorem nodup_some_keys {old new : List Int} (hNodup : (old ++ new).Nodup) :
    ((none :: old.map some) ++ new.map some : List (Option Int)).Nodup := by
  rw [List.cons_append, ← List.map_append, List.nodup_cons]
  refine ⟨by simp, ?_⟩
  exact hNodup.map (Option.some_injective Int)

theorem messages_of_step (hRefs : old.References) (hWritten : TurnsWritten dump old d snapshotId ts)
    {e : EncodedStep} (he : e ∈ ts.flatMap EncodedTurn.steps) (slot : String) :
    stepMessages d e.id slot =
      ((e.messages dump snapshotId).map EncodedMessage.row).filter (fun r => r.slot = slot) := by
  have hSteps : ((ts.flatMap (EncodedTurn.messages dump snapshotId)).map
        EncodedMessage.row).filter (fun r => r.stepId = some e.id) =
      ((ts.flatMap EncodedTurn.steps).flatMap fun e =>
        (e.messages dump snapshotId).map EncodedMessage.row).filter
          (fun r => r.stepId = some e.id) := by
    simp [List.map_flatMap, List.filter_flatMap, EncodedTurn.messages, EncodedTurn.input,
      encodedMessage, messageRow, List.flatMap_assoc]
  have hOwner : (old.messages ++ (ts.flatMap EncodedTurn.steps).flatMap fun e =>
      (e.messages dump snapshotId).map EncodedMessage.row).filter
        (fun r => r.stepId = some e.id) =
      (e.messages dump snapshotId).map EncodedMessage.row := by
    have hKeys := nodup_some_keys hWritten.stepKeys
    rw [List.map_map (l := ts.flatMap EncodedTurn.steps)] at hKeys
    refine filter_append_flatMap_owner (γ := EncodedStep) ?_ ?_ hKeys he
    · intro r hr
      cases hStep : r.stepId with
      | none => simp
      | some s =>
        obtain ⟨owner, hOwner, rfl, -⟩ := hRefs.messageSteps r hr s hStep
        exact List.mem_cons_of_mem _ (List.mem_map_of_mem (List.mem_map_of_mem hOwner))
    · intro e _ r hr
      obtain ⟨m, hm, rfl⟩ := List.mem_map.mp hr
      exact (step_messages_owner hm).1
  have hAll : d.messages.filter (fun r => r.stepId = some e.id) =
      (e.messages dump snapshotId).map EncodedMessage.row := by
    rw [hWritten.messages.messages, List.filter_append, hSteps, ← List.filter_append, hOwner]
  rw [← hAll, List.filter_filter, stepMessages]
  congr 1
  funext r
  simp [Bool.and_comm]

theorem input_of_turn (hRefs : old.References) (hWritten : TurnsWritten dump old d snapshotId ts)
    {t : EncodedTurn} (ht : t ∈ ts) :
    turnMessages d t.id "user_input" = [(t.input dump snapshotId).row] := by
  have hNone : ∀ t' : EncodedTurn, ((t'.steps.flatMap (EncodedStep.messages dump snapshotId)).map
        EncodedMessage.row).filter (fun r => r.turnId = some t.id) = [] := by
    intro t'
    apply filter_eq_nil_of_owner
    intro r hr
    obtain ⟨m, hm, rfl⟩ := List.mem_map.mp hr
    obtain ⟨e, _, hm⟩ := List.mem_flatMap.mp hm
    rw [(step_messages_owner hm).2.1]
    simp
  have hInputs : ((ts.flatMap (EncodedTurn.messages dump snapshotId)).map
        EncodedMessage.row).filter (fun r => r.turnId = some t.id) =
      (ts.flatMap fun t => [(t.input dump snapshotId).row]).filter
        (fun r => r.turnId = some t.id) := by
    rw [List.map_flatMap, List.filter_flatMap, List.filter_flatMap]
    congr 1
    funext t'
    rw [EncodedTurn.messages, List.map_cons, ← List.singleton_append, List.filter_append,
      hNone, List.append_nil]
  have hOwner : (old.messages ++ ts.flatMap fun t => [(t.input dump snapshotId).row]).filter
      (fun r => r.turnId = some t.id) = [(t.input dump snapshotId).row] := by
    have hKeys := nodup_some_keys hWritten.turnKeys
    rw [List.map_map (l := ts)] at hKeys
    refine filter_append_flatMap_owner (γ := EncodedTurn) ?_ ?_ hKeys ht
    · intro r hr
      cases hTurn : r.turnId with
      | none => simp
      | some t' =>
        obtain ⟨owner, hOwner, rfl, -⟩ := hRefs.messageTurns r hr t' hTurn
        exact List.mem_cons_of_mem _ (List.mem_map_of_mem (List.mem_map_of_mem hOwner))
    · intro t _ r hr
      rw [List.mem_singleton.mp hr]
      rfl
  have hAll : d.messages.filter (fun r => r.turnId = some t.id) =
      [(t.input dump snapshotId).row] := by
    rw [hWritten.messages.messages, List.filter_append, hInputs, ← List.filter_append, hOwner]
  have hSlot : [(t.input dump snapshotId).row].filter (fun r => r.slot = "user_input") =
      [(t.input dump snapshotId).row] := rfl
  rw [← hSlot, ← hAll, List.filter_filter, turnMessages]
  congr 1
  funext r
  simp [Bool.and_comm]

def EncodedStep.returnMessages (dump : Json → String) (snapshotId : Int) (e : EncodedStep) :
    List EncodedMessage :=
  numbered (fun i p =>
    encodedMessage dump p.1 snapshotId none (some e.id) "invoke_return" i p.2) 0 e.returns

variable (dump) in
theorem step_messages_slot (snapshotId : Int) (e : EncodedStep) :
    ((e.messages dump snapshotId).map EncodedMessage.row).filter
        (fun r => r.slot = "model_response") =
      [(encodedMessage dump e.responseId snapshotId none (some e.id) "model_response" 0
        e.step.modelResponse).row] ∧
    ((e.messages dump snapshotId).map EncodedMessage.row).filter
        (fun r => r.slot = "invoke_return") =
      (e.returnMessages dump snapshotId).map EncodedMessage.row := by
  have hSlot : ∀ r ∈ (e.returnMessages dump snapshotId).map EncodedMessage.row,
      r.slot = "invoke_return" := by
    intro r hr
    obtain ⟨m, hm, rfl⟩ := List.mem_map.mp hr
    obtain ⟨_, _, _, _, rfl⟩ := mem_numbered hm
    rfl
  have hMessages : (e.messages dump snapshotId).map EncodedMessage.row =
      [(encodedMessage dump e.responseId snapshotId none (some e.id) "model_response" 0
        e.step.modelResponse).row] ++
      (e.returnMessages dump snapshotId).map EncodedMessage.row := rfl
  rw [hMessages, List.filter_append, List.filter_append]
  constructor
  · have hNone : ((e.returnMessages dump snapshotId).map EncodedMessage.row).filter
        (fun r => r.slot = "model_response") = [] := by
      apply filter_eq_nil_of_owner
      intro r hr
      rw [hSlot r hr]
      decide
    rw [hNone]
    rfl
  · rw [filter_eq_self_of_owner hSlot]
    rfl

include hNull in
/-- **A step reads back**: its response, and its results with their presence. -/
theorem decodeAgentStep_written (hRefs : old.References)
    (hWritten : TurnsWritten dump old d snapshotId ts) {t : EncodedTurn} (ht : t ∈ ts)
    {e : EncodedStep} (he : e ∈ t.steps) (hWell : e.WellFormed) (ordinal : Nat)
    (hFields : e.step.JsonFields (Readable dump parse) (Readable dump parse)) :
    decodeAgentStep parse d (agentStepRow dump e.id snapshotId t.id ordinal e.step) =
      .ok e.step := by
  have hStep : e ∈ ts.flatMap EncodedTurn.steps := List.mem_flatMap.mpr ⟨t, ht, he⟩
  obtain ⟨hResponseRows, hReturnRows⟩ := step_messages_slot dump snapshotId e
  have hMessage : ∀ m ∈ e.messages dump snapshotId,
      m.item.JsonFields (Readable dump parse) (Readable dump parse) →
      decodeMessage parse d m.row.messageId = .ok m.item := by
    intro m hm hItem
    have hMem : m ∈ ts.flatMap (EncodedTurn.messages dump snapshotId) :=
      List.mem_flatMap.mpr
        ⟨t, ht, List.mem_cons_of_mem _ (List.mem_flatMap.mpr ⟨e, he, hm⟩)⟩
    exact decodeMessage_written hNull hRefs hWritten.messages hMem
      (step_messages_owner hm).2.2 hItem
  have hResponse := hMessage _ (List.mem_cons_self ..) hFields.modelResponse
  have hItems : (e.returnMessages dump snapshotId).map EncodedMessage.item =
      e.step.invokeReturns.getD [] := by
    rw [← hWell]
    apply map_numbered
    intro _ _
    rfl
  have hReturns : decodeInvokeReturns parse d e.id = .ok (e.step.invokeReturns.getD []) := by
    have hOrdered : orderBy MessageRow.ordinal
        ((e.returnMessages dump snapshotId).map EncodedMessage.row) =
        (e.returnMessages dump snapshotId).map EncodedMessage.row := by
      rw [EncodedStep.returnMessages, numbered_map]
      apply orderBy_numbered
      intro _ _
      rfl
    rw [decodeInvokeReturns, messages_of_step hRefs hWritten hStep, hReturnRows, hOrdered, ← hItems]
    apply mapM_map_ok
    intro m hm
    refine hMessage m (List.mem_cons_of_mem _ hm) ?_
    have hMem : m.item ∈ e.step.invokeReturns.getD [] := hItems ▸ List.mem_map_of_mem hm
    cases hPresent : e.step.invokeReturns with
    | none => simp [hPresent] at hMem
    | some ms => exact hFields.invokeReturns ms hPresent m.item (by simpa [hPresent] using hMem)
  have hResponseId : messageForSlot (stepMessages d e.id "model_response") "model_response" =
      .ok e.responseId := by
    rw [messages_of_step hRefs hWritten hStep, hResponseRows]
    rfl
  rw [decodeAgentStep]
  simp only [agentStepRow]
  rw [enumValue_of_fromJson _ e.step.retainPriority.fromJson_toJson, parseU64_formatU64,
    decodeOptionalJson_encode hNull _ hFields.extras, hResponseId]
  simp only [bind, Except.bind]
  rw [show decodeMessage parse d e.responseId = .ok e.step.modelResponse from hResponse, hReturns]
  have hEta : AgentLoopStep.mk e.step.modelResponse e.step.invokeReturns e.step.extras
      e.step.commitSequence e.step.retainPriority = e.step := rfl
  conv => rhs; rw [← hEta]
  cases e.step.invokeReturns <;> rfl

include hNull in
/-- **A turn reads back**: its input and its steps, in order. -/
theorem decodeTurn_written (hRefs : old.References)
    (hWritten : TurnsWritten dump old d snapshotId ts) {t : EncodedTurn} (ht : t ∈ ts)
    (hWell : t.WellFormed) (ordinal : Nat)
    (hFields : t.turn.JsonFields (Readable dump parse) (Readable dump parse)) :
    decodeTurn parse d (turnRow dump t.id snapshotId ordinal t.turn) = .ok t.turn := by
  have hInput : decodeMessage parse d t.inputId = .ok t.turn.userInput :=
    decodeMessage_written (e := t.input dump snapshotId) hNull hRefs hWritten.messages
      (List.mem_flatMap.mpr ⟨t, ht, List.mem_cons_self ..⟩)
      (genuine_encodedMessage _ _ _ _ _ _ _) hFields.userInput
  have hInputId : messageForSlot (turnMessages d t.id "user_input") "user_input" =
      .ok t.inputId := by
    rw [input_of_turn hRefs hWritten ht]
    rfl
  have hSteps : turnSteps d t.id = t.stepRows dump snapshotId := by
    have hOwner : (old.agentSteps ++ ts.flatMap (EncodedTurn.stepRows dump snapshotId)).filter
        (fun r => r.turnId = t.id) = t.stepRows dump snapshotId := by
      refine filter_append_flatMap_owner ?_ ?_ hWritten.turnKeys ht
      · intro r hr
        obtain ⟨owner, hOwner, hId, -⟩ := hRefs.agentSteps r hr
        exact hId ▸ List.mem_map_of_mem hOwner
      · intro t _ r hr
        obtain ⟨_, _, _, _, rfl⟩ := mem_numbered hr
        rfl
    rw [turnSteps, hWritten.agentSteps, hOwner]
    apply orderBy_numbered
    intro _ _
    rfl
  have hDecode : (t.stepRows dump snapshotId).mapM (decodeAgentStep parse d) =
      .ok t.turn.agentLoopStep := by
    rw [← hWell.1]
    have hEach : ∀ e ∈ t.steps, ∀ i : Nat,
        decodeAgentStep parse d (agentStepRow dump e.id snapshotId t.id i e.step) = .ok e.step := by
      intro e he i
      have hMem : e.step ∈ t.turn.agentLoopStep := hWell.1 ▸ List.mem_map_of_mem he
      exact decodeAgentStep_written hNull hRefs hWritten ht he (hWell.2 e he) i
        (hFields.agentLoopStep e.step hMem)
    exact mapM_numbered_map _ _ _ _ hEach 0
  rw [decodeTurn]
  simp only [turnRow]
  rw [enumValue_of_fromJson _ t.turn.retainPriority.fromJson_toJson,
    decodeOptionalJson_encode hNull _ hFields.extras, hInputId, hSteps]
  simp only [bind, Except.bind, hInput, hDecode]
  rfl

include hNull in
/-- **The conversation reads back**, in order. -/
theorem decodeTurns_written (hRefs : old.References)
    (hWritten : TurnsWritten dump old d snapshotId ts)
    (hNew : ∀ r ∈ old.turns, r.snapshotId ≠ snapshotId) (hWell : ∀ t ∈ ts, t.WellFormed)
    (hFields : ∀ t ∈ ts, t.turn.JsonFields (Readable dump parse) (Readable dump parse)) :
    decodeTurns parse d snapshotId = .ok (ts.map EncodedTurn.turn) := by
  have hRows : d.turns.filter (fun r => r.snapshotId = snapshotId) =
      numbered (fun i (t : EncodedTurn) => turnRow dump t.id snapshotId i t.turn) 0 ts := by
    rw [hWritten.turns, List.filter_append, filter_eq_nil_of_owner hNew, List.nil_append]
    apply filter_eq_self_of_owner
    intro r hr
    obtain ⟨_, _, _, _, rfl⟩ := mem_numbered hr
    rfl
  rw [decodeTurns, hRows, orderBy_numbered _ _ fun _ _ => rfl]
  exact mapM_numbered_map _ _ _ _ (fun t ht i =>
    decodeTurn_written hNull hRefs hWritten ht (hWell t ht) i (hFields t ht)) 0

end Decode

/-! ## The whole snapshot -/

section Snapshot

variable {dump : Json → String} {parse : String → Option Json} {newRowid : List Int → Int}
variable {ts : List EncodedTurn} {db : Database} {snapshotId : Int} {s : AgentInputState}

theorem insertPromptSections_eq (snapshotId : Int) (ss : List PromptSection) :
    ∀ (db : Database) (n : Nat), insertPromptSections db snapshotId n ss =
      { db with promptSections :=
          db.promptSections ++ numbered (promptSectionRow snapshotId) n ss } := by
  induction ss with
  | nil => intro db n; simp [insertPromptSections, numbered]
  | cons s ss ih =>
    intro db n
    simp only [insertPromptSections, ih, numbered, List.append_assoc, List.singleton_append]

theorem insertTools_eq (snapshotId : Int) (vs : List Invocable) :
    ∀ (db : Database) (n : Nat), insertTools dump db snapshotId n vs =
      { db with toolDefinitions :=
          db.toolDefinitions ++ numbered (toolRow dump snapshotId) n vs } := by
  induction vs with
  | nil => intro db n; simp [insertTools, numbered]
  | cons v vs ih =>
    intro db n
    simp only [insertTools, ih, numbered, List.append_assoc, List.singleton_append]

theorem insertPending_eq (snapshotId : Int) (rs : List InvokeReturn) :
    ∀ (db : Database) (n : Nat), insertPending dump db snapshotId n rs =
      { db with pendingResults :=
          db.pendingResults ++ numbered (pendingRow dump snapshotId) n rs } := by
  induction rs with
  | nil => intro db n; simp [insertPending, numbered]
  | cons r rs ih =>
    intro db n
    simp only [insertPending, ih, numbered, List.append_assoc, List.singleton_append]

/-- The tables of `d` are those of `old` and the graph of `s` under `snapshotId`. -/
structure GraphWritten (dump : Json → String) (old d : Database) (snapshotId : Int)
    (s : AgentInputState) (ts : List EncodedTurn) : Prop where
  turns : TurnsWritten dump old d snapshotId ts
  wellFormed : ∀ t ∈ ts, t.WellFormed
  items : ts.map EncodedTurn.turn = s.turns
  promptSections : d.promptSections = old.promptSections ++
    numbered (promptSectionRow snapshotId) 0 s.systemPrompt.sections
  toolDefinitions : d.toolDefinitions = old.toolDefinitions ++
    numbered (toolRow dump snapshotId) 0 s.tools
  loopProgress : d.loopProgress = old.loopProgress ++ s.loop.toList.map (loopRow snapshotId)
  pendingResults : d.pendingResults = old.pendingResults ++
    numbered (pendingRow dump snapshotId) 0 ((s.loop.map LoopProgress.pendingResults).getD [])

variable (dump) in
theorem insertGraph_written (hFresh : ∀ ids, newRowid ids ∉ ids) (hKeys : db.KeysNodup)
    (headers : List SnapshotRow) (snapshotId : Int) (s : AgentInputState) :
    let d := insertGraph dump newRowid { db with snapshots := headers } snapshotId s
    d.snapshots = headers ∧ d.sessions = db.sessions ∧
      ∃ ts, GraphWritten dump db d snapshotId s ts := by
  have hStart : (insertTools dump (insertPromptSections { db with snapshots := headers }
      snapshotId 0 s.systemPrompt.sections) snapshotId 0 s.tools).KeysNodup := by
    rw [insertPromptSections_eq, insertTools_eq]
    exact ⟨hKeys.turns, hKeys.agentSteps, hKeys.messages⟩
  obtain ⟨ts, hItems, hWell, hEq, hNodup⟩ :=
    insertTurns_eq dump hFresh snapshotId s.turns _ 0 hStart
  rw [hEq] at hNodup
  rw [insertPromptSections_eq, insertTools_eq] at hEq hNodup
  cases hLoop : s.loop with
  | none =>
    simp only [insertGraph, insertPromptSections_eq, insertTools_eq, hEq, hLoop]
    refine ⟨rfl, rfl, ts, ⟨⟨rfl, rfl, rfl, rfl, rfl, hNodup.messages⟩, rfl, rfl,
      hNodup.agentSteps, hNodup.turns⟩, hWell, hItems, rfl, rfl, ?_, ?_⟩
    · simp [Database.addTurns, Database.addMessages, hLoop]
    · simp [Database.addTurns, Database.addMessages, hLoop, numbered]
  | some p =>
    simp only [insertGraph, insertPromptSections_eq, insertTools_eq, hEq, hLoop, insertLoop,
      insertPending_eq]
    refine ⟨rfl, rfl, ts, ⟨⟨rfl, rfl, rfl, rfl, rfl, hNodup.messages⟩, rfl, rfl,
      hNodup.agentSteps, hNodup.turns⟩, hWell, hItems, rfl, rfl, ?_, ?_⟩
    · simp [Database.addTurns, Database.addMessages, hLoop]
    · simp [Database.addTurns, Database.addMessages, hLoop]

variable (hNull : parse "null" = some .null)

theorem filter_fresh_snapshot {R : Type} {owner : R → Int} {old new : List R} {ids : List Int}
    (hOld : ∀ r ∈ old, owner r ∈ ids) (hFresh : snapshotId ∉ ids)
    (hNew : ∀ r ∈ new, owner r = snapshotId) :
    (old ++ new).filter (fun r => owner r = snapshotId) = new := by
  rw [List.filter_append, filter_eq_self_of_owner hNew, filter_eq_nil_of_owner, List.nil_append]
  intro r hr hEq
  exact hFresh (hEq ▸ hOld r hr)

theorem decodePrompt_written {old d : Database} (hRefs : old.References)
    (hWritten : GraphWritten dump old d snapshotId s ts)
    (hFresh : snapshotId ∉ old.snapshots.map (·.snapshotId)) :
    decodePrompt d snapshotId s.systemPrompt.headingLevel.toInt = .ok s.systemPrompt := by
  have hRows : d.promptSections.filter (fun r => r.snapshotId = snapshotId) =
      numbered (promptSectionRow snapshotId) 0 s.systemPrompt.sections := by
    rw [hWritten.promptSections]
    apply filter_fresh_snapshot hRefs.promptSections hFresh
    intro r hr
    obtain ⟨_, _, _, _, rfl⟩ := mem_numbered hr
    rfl
  have hFold : ∀ {read : PromptTemplate → PromptSectionRow → Except SnapshotError PromptTemplate},
      (∀ n (p : PromptSection) u v, u.addSection p.name p.title p.text p.stability = .ok v →
        read u (promptSectionRow snapshotId n p) = .ok v) →
      ∀ (rest : List PromptSection) (n : Nat) (u : PromptTemplate),
        u.headingLevel = s.systemPrompt.headingLevel →
        u.sections ++ rest = s.systemPrompt.sections →
        (numbered (promptSectionRow snapshotId) n rest).foldlM read u = .ok s.systemPrompt := by
    intro read hRead rest
    induction rest with
    | nil =>
      intro n u hLevel hSections
      have hEq : u = s.systemPrompt := PromptTemplate.ext hLevel (by simpa using hSections)
      rw [hEq]
      rfl
    | cons section' rest ih =>
      intro n u hLevel hSections
      obtain ⟨v, hAdd, hLevel', hSections'⟩ :=
        PromptTemplate.addSection_next s.systemPrompt u section' rest hSections
      have hNext := ih (n + 1) v (hLevel'.trans hLevel)
        (by rw [hSections']; simpa using hSections)
      rw [numbered, List.foldlM_cons, hRead n section' u v hAdd]
      exact hNext
  have hLow : -2 ^ 31 ≤ s.systemPrompt.headingLevel.toInt := s.systemPrompt.headingLevel.le_toInt
  have hHigh : s.systemPrompt.headingLevel.toInt < 2 ^ 31 := s.systemPrompt.headingLevel.toInt_lt
  rw [decodePrompt, if_neg (by omega), hRows, orderBy_numbered _ _ fun _ _ => rfl]
  apply hFold ?_ _ 0 _ (by simp) rfl
  intro n section' u v hAdd
  simp only [promptSectionRow, enumValue_of_fromJson _ section'.stability.fromJson_toJson,
    bind, Except.bind, hAdd]
  rfl

include hNull in
theorem decodeTools_written {old d : Database} (hRefs : old.References)
    (hWritten : GraphWritten dump old d snapshotId s ts)
    (hFresh : snapshotId ∉ old.snapshots.map (·.snapshotId))
    (hFields : ∀ v ∈ s.tools, v.JsonFields (Readable dump parse) (Readable dump parse)) :
    decodeTools parse d snapshotId = .ok s.tools := by
  have hRows : d.toolDefinitions.filter (fun r => r.snapshotId = snapshotId) =
      numbered (toolRow dump snapshotId) 0 s.tools := by
    rw [hWritten.toolDefinitions]
    apply filter_fresh_snapshot hRefs.toolDefinitions hFresh
    intro r hr
    obtain ⟨_, _, _, _, rfl⟩ := mem_numbered hr
    rfl
  rw [decodeTools, hRows, orderBy_numbered _ _ fun _ _ => rfl]
  apply mapM_numbered
  intro v hv _
  simp only [toolRow, parseJson_dump _ (hFields v hv).1,
    decodeOptionalJson_encode hNull _ (hFields v hv).2]
  rfl

include hNull in
theorem decodeLoop_written {old d : Database} (hRefs : old.References)
    (hWritten : GraphWritten dump old d snapshotId s ts)
    (hFresh : snapshotId ∉ old.snapshots.map (·.snapshotId))
    (hFields : ∀ p, s.loop = some p → p.JsonFields (Readable dump parse) (Readable dump parse)) :
    decodeLoop parse d snapshotId = .ok s.loop := by
  have hRows : d.loopProgress.filter (fun r => r.snapshotId = snapshotId) =
      s.loop.toList.map (loopRow snapshotId) := by
    rw [hWritten.loopProgress]
    apply filter_fresh_snapshot hRefs.loopProgress hFresh
    intro r hr
    obtain ⟨_, _, rfl⟩ := List.mem_map.mp hr
    rfl
  have hPending : d.pendingResults.filter (fun r => r.snapshotId = snapshotId) =
      numbered (pendingRow dump snapshotId) 0
        ((s.loop.map LoopProgress.pendingResults).getD []) := by
    rw [hWritten.pendingResults]
    apply filter_fresh_snapshot hRefs.pendingResults hFresh
    intro r hr
    obtain ⟨_, _, _, _, rfl⟩ := mem_numbered hr
    rfl
  rw [decodeLoop, hRows]
  cases hLoop : s.loop with
  | none => rfl
  | some p =>
    have hDecode : (numbered (pendingRow dump snapshotId) 0 p.pendingResults).mapM
        (fun r => decodeReturnColumns parse r.result) = .ok p.pendingResults := by
      apply mapM_numbered
      intro r hr _
      exact decodeReturnColumns_encode hNull (hFields p hLoop r hr)
    have hOrdered : orderBy PendingRow.ordinal
        (numbered (pendingRow dump snapshotId) 0 p.pendingResults) =
        numbered (pendingRow dump snapshotId) 0 p.pendingResults :=
      orderBy_numbered _ _ (fun _ _ => rfl) _ _
    rw [hLoop] at hPending
    simp only [Option.map_some, Option.getD_some] at hPending
    simp only [Option.toList_some, List.map_cons, loopRow, hPending, hOrdered, hDecode,
      enumValue_of_fromJson _ p.status.fromJson_toJson,
      enumValue_of_fromJson _ p.phase.fromJson_toJson, parseU64_formatU64]
    rfl

def headerRow (dump : Json → String) (snapshotId : Int) (kind : SnapshotKind)
    (s : AgentInputState) : SnapshotRow where
  snapshotId := snapshotId
  sessionId := s.metaInfo.sessionId
  kind := kind.name
  revision := 0
  operationId := ""
  metaSchemaVersion := s.metaInfo.schemaVersion.toNat
  sessionStatus := s.metaInfo.status.nameOf
  metaErrorJson := encodeOptionalJson dump s.metaInfo.error
  createdAt := s.metaInfo.createdAt
  updatedAt := s.metaInfo.updatedAt
  headingLevel := s.systemPrompt.headingLevel.toInt
  extrasJson := encodeOptionalJson dump s.extras

include hNull in
/-- **A snapshot reads back** from a header and the graph written below it. -/
theorem decodeSnapshot_written {old d : Database} (hRefs : old.References)
    (hWritten : GraphWritten dump old d snapshotId s ts)
    (hFresh : snapshotId ∉ old.snapshots.map (·.snapshotId)) (kind : SnapshotKind)
    (hHeader : d.snapshots = old.snapshots ++ [headerRow dump snapshotId kind s])
    (hFields : s.JsonFields (Readable dump parse) (Readable dump parse)) :
    decodeSnapshot parse d snapshotId = .ok s := by
  have hRow : d.snapshots.filter (fun r => r.snapshotId = snapshotId) =
      [headerRow dump snapshotId kind s] := by
    rw [hHeader]
    apply filter_fresh_snapshot (fun r hr => List.mem_map_of_mem hr) hFresh
    intro r hr
    rw [List.mem_singleton.mp hr]
    rfl
  have hNew : ∀ r ∈ old.turns, r.snapshotId ≠ snapshotId := fun r hr hEq =>
    hFresh (hEq ▸ hRefs.turns r hr)
  have hTurns := decodeTurns_written hNull hRefs hWritten.turns hNew hWritten.wellFormed
    fun t ht => hFields.turns t.turn (hWritten.items ▸ List.mem_map_of_mem ht)
  have hPrompt := decodePrompt_written hRefs hWritten hFresh
  have hTools := decodeTools_written hNull hRefs hWritten hFresh hFields.tools
  have hLoop := decodeLoop_written hNull hRefs hWritten hFresh hFields.loop
  rw [hWritten.items] at hTurns
  have hVersion : ¬((s.metaInfo.schemaVersion.toNat : Int) < 0 ∨
      2 ^ 32 - 1 < (s.metaInfo.schemaVersion.toNat : Int)) := by
    have hLt := s.metaInfo.schemaVersion.toNat_lt
    omega
  rw [decodeSnapshot, hRow]
  simp only [headerRow, if_neg hVersion, enumValue_of_fromJson _ s.metaInfo.status.fromJson_toJson,
    decodeOptionalJson_encode hNull _ hFields.metaInfo,
    decodeOptionalJson_encode hNull _ hFields.extras]
  rw [hPrompt, hTools, hTurns, hLoop]
  simp [bind, Except.bind, pure, Except.pure]

/-- What the constraints of the schema say about the snapshot tables. -/
structure Database.Consistent (db : Database) : Prop where
  references : db.References
  keys : db.KeysNodup
  snapshotKeys : (db.snapshots.map (·.snapshotId)).Nodup
  oneCurrent : ∀ sessionId,
    (db.snapshots.filter fun r => r.sessionId = sessionId ∧ r.kind = "current").length ≤ 1

theorem deleteSnapshot_references (hRefs : db.References) (snapshotId : Int) :
    (deleteSnapshot db snapshotId).References := by
  have hHeader : ∀ k : Int, k ≠ snapshotId → k ∈ db.snapshots.map (·.snapshotId) →
      k ∈ (deleteSnapshot db snapshotId).snapshots.map (·.snapshotId) := by
    intro k hk hMem
    obtain ⟨r, hr, rfl⟩ := List.mem_map.mp hMem
    exact List.mem_map_of_mem (List.mem_filter.mpr ⟨hr, by simpa using hk⟩)
  have hMessage : ∀ k : Int, k ∈ db.messages.map MessageRow.messageId →
      k ∉ (db.messages.filter fun r => r.snapshotId = snapshotId).map MessageRow.messageId →
      k ∈ (deleteSnapshot db snapshotId).messages.map MessageRow.messageId := by
    intro k hMem hKept
    obtain ⟨r, hr, rfl⟩ := List.mem_map.mp hMem
    refine List.mem_map_of_mem (List.mem_filter.mpr ⟨hr, ?_⟩)
    simp only [decide_eq_true_eq]
    intro hEq
    exact hKept (List.mem_map_of_mem (List.mem_filter.mpr ⟨hr, by simpa using hEq⟩))
  refine ⟨?_, ?_, ?_, ?_, ?_, ?_, ?_, ?_, ?_, ?_, ?_, ?_⟩
  · intro r hr
    obtain ⟨hMem, hKept⟩ := List.mem_filter.mp hr
    exact hHeader _ (by simpa using hKept) (hRefs.promptSections r hMem)
  · intro r hr
    obtain ⟨hMem, hKept⟩ := List.mem_filter.mp hr
    exact hHeader _ (by simpa using hKept) (hRefs.toolDefinitions r hMem)
  · intro r hr
    obtain ⟨hMem, hKept⟩ := List.mem_filter.mp hr
    exact hHeader _ (by simpa using hKept) (hRefs.turns r hMem)
  · intro r hr
    obtain ⟨hMem, hKept⟩ := List.mem_filter.mp hr
    exact hHeader _ (by simpa using hKept) (hRefs.loopProgress r hMem)
  · intro r hr
    obtain ⟨hMem, hKept⟩ := List.mem_filter.mp hr
    exact hHeader _ (by simpa using hKept) (hRefs.pendingResults r hMem)
  · intro r hr
    obtain ⟨hMem, hKept⟩ := List.mem_filter.mp hr
    obtain ⟨t, ht, hId, hSnapshot⟩ := hRefs.agentSteps r hMem
    exact ⟨t, List.mem_filter.mpr ⟨ht, by rw [hSnapshot]; exact hKept⟩, hId, hSnapshot⟩
  · intro r hr k hk
    obtain ⟨hMem, hKept⟩ := List.mem_filter.mp hr
    obtain ⟨t, ht, hId, hSnapshot⟩ := hRefs.messageTurns r hMem k hk
    exact ⟨t, List.mem_filter.mpr ⟨ht, by rw [hSnapshot]; exact hKept⟩, hId, hSnapshot⟩
  · intro r hr k hk
    obtain ⟨hMem, hKept⟩ := List.mem_filter.mp hr
    obtain ⟨t, ht, hId, hSnapshot⟩ := hRefs.messageSteps r hMem k hk
    exact ⟨t, List.mem_filter.mpr ⟨ht, by rw [hSnapshot]; exact hKept⟩, hId, hSnapshot⟩
  · intro r hr
    obtain ⟨hMem, hKept⟩ := List.mem_filter.mp hr
    exact hMessage _ (hRefs.messageContents r hMem) (by simpa using hKept)
  · intro r hr
    obtain ⟨hMem, hKept⟩ := List.mem_filter.mp hr
    exact hMessage _ (hRefs.messageCosts r hMem) (by simpa using hKept)
  · intro r hr
    obtain ⟨hMem, hKept⟩ := List.mem_filter.mp hr
    exact hMessage _ (hRefs.messageInvokes r hMem) (by simpa using hKept)
  · intro r hr
    obtain ⟨hMem, hKept⟩ := List.mem_filter.mp hr
    exact hMessage _ (hRefs.messageInvokeReturns r hMem) (by simpa using hKept)

theorem deleteSnapshot_keys (hKeys : db.KeysNodup) (snapshotId : Int) :
    (deleteSnapshot db snapshotId).KeysNodup :=
  ⟨hKeys.turns.sublist (List.filter_sublist.map _),
    hKeys.agentSteps.sublist (List.filter_sublist.map _),
    hKeys.messages.sublist (List.filter_sublist.map _)⟩

variable (dump) in
theorem insertSnapshotHeader_ok (s : AgentInputState) (kind : SnapshotKind)
    (explicitId : Option Int)
    (hKey : explicitId.getD (newRowid (db.snapshots.map (·.snapshotId))) ∉ db.snapshots.map (·.snapshotId))
    (hCurrent : kind = .current → (db.snapshots.filter fun r => r.sessionId = s.metaInfo.sessionId ∧ r.kind = "current") = []) :
    insertSnapshotHeader dump newRowid db s.metaInfo.sessionId s kind explicitId =
      .ok (explicitId.getD (newRowid (db.snapshots.map (·.snapshotId))),
        { db with snapshots := db.snapshots ++
            [headerRow dump (explicitId.getD (newRowid (db.snapshots.map (·.snapshotId))))
              kind s] }) := by
  have hNone : ¬(kind = .current ∧ db.snapshots.any (fun r =>
      r.sessionId = s.metaInfo.sessionId ∧ r.kind = "current") = true) := by
    rintro ⟨hKind, hAny⟩
    obtain ⟨r, hr, hRow⟩ := List.any_eq_true.mp hAny
    have hMem : r ∈ db.snapshots.filter fun r =>
        r.sessionId = s.metaInfo.sessionId ∧ r.kind = "current" :=
      List.mem_filter.mpr ⟨hr, hRow⟩
    rw [hCurrent hKind] at hMem
    simp at hMem
  simp only [insertSnapshotHeader, if_neg hKey, if_neg hNone]
  rfl

include hNull in
theorem encodeSnapshot_reads_back (hFresh : ∀ ids, newRowid ids ∉ ids) (hDb : db.Consistent)
    (s : AgentInputState) (hFields : s.JsonFields (Readable dump parse) (Readable dump parse))
    (hSession : requireSession db s.metaInfo.sessionId = .ok ()) (kind : SnapshotKind)
    (hKind : kind = .current → findCurrent db s.metaInfo.sessionId = .ok none) :
    ∃ id d, encodeSnapshot dump newRowid db s.metaInfo.sessionId s kind = .ok (id, d) ∧
      decodeSnapshot parse d id = .ok s := by
  have hNone : kind = .current → (db.snapshots.filter fun r =>
      r.sessionId = s.metaInfo.sessionId ∧ r.kind = "current") = [] := by
    intro hCurrent
    have hFind := hKind hCurrent
    unfold findCurrent at hFind
    split at hFind
    · assumption
    · simp at hFind
    · simp at hFind
  have hKey := hFresh (db.snapshots.map (·.snapshotId))
  have hHeader := insertSnapshotHeader_ok dump s kind none hKey hNone
  obtain ⟨hSnapshots, -, ts, hWritten⟩ := insertGraph_written dump hFresh hDb.keys
    (db.snapshots ++ [headerRow dump (newRowid (db.snapshots.map (·.snapshotId))) kind s])
    (newRowid (db.snapshots.map (·.snapshotId))) s
  refine ⟨_, _, ?_, decodeSnapshot_written hNull hDb.references hWritten hKey kind hSnapshots
    hFields⟩
  simp only [encodeSnapshot, requireMatchingSession, if_true, hSession, hHeader]
  rfl

theorem requireSession_updated {db d : Database} {sessionId : String} (updatedAt : String)
    (hSessions : d.sessions = db.sessions) (hSession : requireSession db sessionId = .ok ()) :
    requireSession (updateSessionTimestamp d sessionId updatedAt) sessionId = .ok () := by
  have hLength : ∀ rows : List SessionRow,
      ((rows.map fun r => if r.sessionId = sessionId then { r with updatedAt := updatedAt }
        else r).filter fun r => r.sessionId = sessionId).length =
      (rows.filter fun r => r.sessionId = sessionId).length := by
    intro rows
    induction rows with
    | nil => rfl
    | cons r rest ih =>
      by_cases hId : r.sessionId = sessionId
      · simp [hId, ih]
      · simp [hId, ih]
  simp only [requireSession, updateSessionTimestamp, hSessions, hLength] at hSession ⊢
  exact hSession

include hNull in
theorem replaceCurrent_reads_back (hFresh : ∀ ids, newRowid ids ∉ ids) (hDb : db.Consistent)
    (s : AgentInputState) (hFields : s.JsonFields (Readable dump parse) (Readable dump parse))
    (hSession : requireSession db s.metaInfo.sessionId = .ok ()) :
    ∃ id d, replaceCurrent dump newRowid db s.metaInfo.sessionId s = .ok (id, d) ∧
      loadCurrent parse d s.metaInfo.sessionId = .ok (some s) := by
  obtain ⟨current, cleared, hFind, hCleared, hRefs, hKeys, hKey, hNone, hSessions⟩ :
      ∃ current cleared, findCurrent db s.metaInfo.sessionId = .ok current ∧
        clearCurrent db current = cleared ∧
        cleared.References ∧ cleared.KeysNodup ∧
        current.getD (newRowid (cleared.snapshots.map (·.snapshotId))) ∉
          cleared.snapshots.map (·.snapshotId) ∧
        (cleared.snapshots.filter fun r =>
          r.sessionId = s.metaInfo.sessionId ∧ r.kind = "current") = [] ∧
        cleared.sessions = db.sessions := by
    have hOne := hDb.oneCurrent s.metaInfo.sessionId
    match hRows : db.snapshots.filter fun r =>
        r.sessionId = s.metaInfo.sessionId ∧ r.kind = "current" with
    | [] =>
      exact ⟨none, db, by rw [findCurrent, hRows], rfl, hDb.references, hDb.keys,
        hFresh _, hRows, rfl⟩
    | [row] =>
      refine ⟨some row.snapshotId, deleteSnapshot db row.snapshotId,
        by rw [findCurrent, hRows], rfl, deleteSnapshot_references hDb.references _,
        deleteSnapshot_keys hDb.keys _, ?_, ?_, rfl⟩
      · simp [deleteSnapshot]
      · simp only [deleteSnapshot, List.filter_filter]
        rw [List.filter_eq_nil_iff]
        intro r hr hCurrent
        simp only [Bool.and_eq_true, decide_eq_true_eq] at hCurrent
        have hMem : r ∈ db.snapshots.filter fun r =>
            r.sessionId = s.metaInfo.sessionId ∧ r.kind = "current" :=
          List.mem_filter.mpr ⟨hr, by simpa using hCurrent.1⟩
        rw [hRows, List.mem_singleton] at hMem
        exact hCurrent.2 (by rw [hMem])
    | _ :: _ :: _ =>
      rw [hRows] at hOne
      simp at hOne
  have hHeader := insertSnapshotHeader_ok dump s .current current hKey fun _ => hNone
  generalize hId : current.getD (newRowid (cleared.snapshots.map (·.snapshotId))) = id
    at hKey hHeader
  obtain ⟨hSnapshots, hGraphSessions, ts, hWritten⟩ := insertGraph_written dump hFresh
    hKeys (cleared.snapshots ++ [headerRow dump id .current s]) id s
  have hDecode := decodeSnapshot_written hNull hRefs hWritten hKey .current hSnapshots hFields
  refine ⟨id, updateSessionTimestamp (insertGraph dump newRowid
    { cleared with snapshots := cleared.snapshots ++ [headerRow dump id .current s] } id s)
    s.metaInfo.sessionId s.metaInfo.updatedAt, ?_, ?_⟩
  · simp only [replaceCurrent, requireMatchingSession, if_true, hSession, hFind]
    simp only [bind, Except.bind, hCleared, hHeader]
    rfl
  · have hReady := requireSession_updated s.metaInfo.updatedAt
      (hGraphSessions.trans hSessions) hSession
    have hCurrent : findCurrent (updateSessionTimestamp (insertGraph dump newRowid
        { cleared with snapshots := cleared.snapshots ++ [headerRow dump id .current s] } id s)
        s.metaInfo.sessionId s.metaInfo.updatedAt) s.metaInfo.sessionId = .ok (some id) := by
      simp only [findCurrent, updateSessionTimestamp, hSnapshots, List.filter_append, hNone]
      simp [headerRow, SnapshotKind.name]
    rw [loadCurrent, hReady, hCurrent]
    simp only [bind, Except.bind]
    rw [show decodeSnapshot parse (updateSessionTimestamp _ _ _) id = .ok s from hDecode]
    rfl

end Snapshot

/-- The row id the database documents: one above the largest in use. -/
def nextRowid (ids : List Int) : Int := ids.foldr max 0 + 1

theorem nextRowid_fresh (ids : List Int) : nextRowid ids ∉ ids := by
  have hBound : ∀ k ∈ ids, k ≤ ids.foldr max 0 := by
    induction ids with
    | nil => simp
    | cons i rest ih =>
      intro k hk
      rcases List.mem_cons.mp hk with rfl | hRest
      · exact le_max_left _ _
      · exact (ih k hRest).trans (le_max_right _ _)
  intro hMem
  have hLe := hBound _ hMem
  unfold nextRowid at hLe
  omega

/--
**Snapshots read back exactly.** For every state, whatever is present, absent,
engaged and empty or engaged with null in it, the rows that encoding writes decode
to that state: as an archive or first current snapshot through `encode_snapshot`,
and as the current one through `replace_current` and `load_current`. What is taken
from outside is that parsing inverts dumping on the JSON values of the state, that
the text `null` parses to null, that the database picks unused row ids, and that
its constraints held before.
-/
theorem snapshot_reads_back (dump : Json → String) (parse : String → Option Json)
    (newRowid : List Int → Int) (hNull : parse "null" = some .null)
    (hFresh : ∀ ids, newRowid ids ∉ ids) (db : Database) (hDb : db.Consistent) (s : AgentInputState)
    (hFields : s.JsonFields (Readable dump parse) (Readable dump parse))
    (hSession : requireSession db s.metaInfo.sessionId = .ok ()) :
    (∀ kind, (kind = .current → findCurrent db s.metaInfo.sessionId = .ok none) →
      ∃ id d, encodeSnapshot dump newRowid db s.metaInfo.sessionId s kind = .ok (id, d) ∧
        decodeSnapshot parse d id = .ok s) ∧
    ∃ id d, replaceCurrent dump newRowid db s.metaInfo.sessionId s = .ok (id, d) ∧
      loadCurrent parse d s.metaInfo.sessionId = .ok (some s) :=
  ⟨fun kind hKind => encodeSnapshot_reads_back hNull hFresh hDb s hFields hSession kind hKind,
    replaceCurrent_reads_back hNull hFresh hDb s hFields hSession⟩

/-! ### A session with every presence form -/

/-- The text of the values the sample state holds. -/
def sampleDump : Json → String
  | .null => "null"
  | .obj [] => "\x7b\x7d"
  | _ => "[]"

def sampleParse (text : String) : Option Json :=
  if text = "null" then some .null
  else if text = "\x7b\x7d" then some (.obj [])
  else none

/-- A call with its result pending, an engaged null and an engaged empty list. -/
def sampleState : AgentInputState where
  loop := some
    { phase := .projection
      committedResponseSequence := 18446744073709551615
      pendingResults := [{ query := { id := "call", name := "read" }, extras := some .null }] }
  metaInfo := { sessionId := "session", error := some .null }
  turns :=
    [{ userInput := { content := [{ raw := "hello" }] }
       agentLoopStep :=
        [{ modelResponse :=
            { type := .modelResponse, invokes := some [{ id := "call", name := "read" }] }
           invokeReturns := some []
           extras := some (.obj []) }] }]
  extras := some .null

def sampleDatabase : Database where
  sessions := [⟨"session", "", ""⟩]

theorem sampleState_jsonFields :
    sampleState.JsonFields (Readable sampleDump sampleParse) (Readable sampleDump sampleParse) := by
  have hNull : Readable sampleDump sampleParse .null := by rfl
  have hEmpty : Readable sampleDump sampleParse (.obj []) := by rfl
  have hCall : InvokeQuery.JsonFields (Readable sampleDump sampleParse)
      (Readable sampleDump sampleParse) { id := "call", name := "read" } :=
    ⟨hEmpty, by simp⟩
  have hPending : InvokeReturn.JsonFields (Readable sampleDump sampleParse)
      (Readable sampleDump sampleParse)
      { query := { id := "call", name := "read" }, extras := some .null } :=
    ⟨hCall, by simp [Content.JsonFields], by simpa using hNull⟩
  refine ⟨?_, ?_, by simp [sampleState], ?_, by simpa [sampleState] using hNull⟩
  · simpa [sampleState, LoopProgress.JsonFields] using hPending
  · simpa [sampleState, MetaInfo.JsonFields] using hNull
  · simp only [sampleState, List.mem_singleton, forall_eq]
    refine ⟨⟨?_, ?_, ?_, ?_, ?_, ?_⟩, ?_, ?_⟩ <;> simp [Content.JsonFields]
    refine ⟨⟨?_, ?_, ?_, ?_, ?_, ?_⟩, ?_, ?_⟩ <;> simp [hCall, hEmpty]

theorem sampleDatabase_consistent : sampleDatabase.Consistent := by
  refine ⟨?_, ?_, ?_, ?_⟩
  · constructor <;> simp [sampleDatabase]
  · constructor <;> simp [sampleDatabase]
  · simp [sampleDatabase]
  · simp [sampleDatabase]

theorem snapshot_reads_back_sample :
    (∀ kind, (kind = .current → findCurrent sampleDatabase "session" = .ok none) →
      ∃ id d, encodeSnapshot sampleDump nextRowid sampleDatabase "session" sampleState kind =
          .ok (id, d) ∧
        decodeSnapshot sampleParse d id = .ok sampleState) ∧
    ∃ id d, replaceCurrent sampleDump nextRowid sampleDatabase "session" sampleState = .ok (id, d) ∧
      loadCurrent sampleParse d "session" = .ok (some sampleState) :=
  snapshot_reads_back sampleDump sampleParse nextRowid rfl nextRowid_fresh sampleDatabase
    sampleDatabase_consistent sampleState sampleState_jsonFields rfl

end SimplexAgent.Persistence
