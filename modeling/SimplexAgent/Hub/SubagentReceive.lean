import Mathlib.Data.List.Infix
import SimplexAgent.Hub.DialogueFit

/-!
# Receiving a page of a dialogue

The paged reply of `receive`, `subagents/service.ts`: the status of a child, its newest
operations and some turns of its dialogue. A reply that is too large loses turns, then the
contents of its only turn, and last its operations.

The turns are cut before the operations are dropped. So a turn that would fit alone can lose its
contents to the operations beside it, and `Meets` says for which calls this does not happen
(`receive_iff`). Whatever is cut, the cursor moves past exactly the turns that a page shows, so
following it shows every turn once (`walk_shows`).
-/

namespace SimplexAgent.Hub.Js

open Verified

/-- `MAX_RPC_BYTES`. -/
def maxRpcBytes : Nat := 256 * 1024

/-- `Conversation`. -/
structure Projection where
  revision : Option Number
  workerId : Option Text
  turns : List DialogueTurn
  truncated : Bool
  incomplete : Bool
  stale : Bool
  refreshedAt : Option Text

/-- What `status` reads of a child. The members of its description are taken as they are. -/
structure ChildStatus where
  subagentId : Text
  subagent : List (Text × Value Number)
  processState : Text
  connected : Bool
  activeRunId : Text
  prompts : Nat
  error : Text

structure ReceiveCall where
  status : ChildStatus
  /-- The ledger of the child. -/
  requests : List (Value Number)
  conversation : Option Projection
  cursor : Nat
  limit : Nat
  bounded : 1 ≤ limit ∧ limit ≤ 10

/-- The `conversation` of a reply. -/
structure ConversationPage where
  projection : Projection
  cursor : Nat
  next : Nat
  total : Nat

structure ReceiveResult where
  status : ChildStatus
  requests : List (Value Number)
  requestsTruncated : Bool
  conversation : Option ConversationPage

/-! ## The JSON of a reply -/

/-- `value || null`. -/
def orNull (value : Text) : Value Number := if value.isEmpty then .null else .str value

/-- `status`. -/
def ChildStatus.members (status : ChildStatus) : List (Text × Value Number) :=
  (text "subagent_id", .str status.subagentId) :: status.subagent ++
    [(text "process_state", .str status.processState), (text "connected", .bool status.connected),
      (text "run_id", orNull status.activeRunId),
      (text "pending_approvals", .num (.safe status.prompts)), (text "error", orNull status.error)]

def ConversationPage.toValue (page : ConversationPage) : Value Number :=
  .obj [(text "revision", (page.projection.revision.map .num).getD .null),
    (text "worker_id", (page.projection.workerId.map .str).getD .null),
    (text "turns", .arr (page.projection.turns.map (·.toValue))),
    (text "truncated", .bool page.projection.truncated),
    (text "incomplete", .bool page.projection.incomplete),
    (text "stale", .bool page.projection.stale),
    (text "refreshed_at", (page.projection.refreshedAt.map .str).getD .null),
    (text "cursor", .num (.safe page.cursor)), (text "next", .num (.safe page.next)),
    (text "total", .num (.safe page.total))]

/-- `conversation ? … : null`. -/
def conversationValue (page : Option ConversationPage) : Value Number :=
  match page with
  | some page => page.toValue
  | none => .null

def ReceiveResult.toValue (result : ReceiveResult) : Value Number :=
  .obj (result.status.members ++ [(text "requests", .arr result.requests),
    (text "requests_truncated", .bool result.requestsTruncated),
    (text "conversation", conversationValue result.conversation)])

/-- `Buffer.byteLength(JSON.stringify(result))`. -/
def ReceiveResult.bytes (result : ReceiveResult) : Nat := result.toValue.bytes

/-! ## Cutting a reply -/

/-- What stands for the content of a turn that is too large. -/
def DialogueTurn.omitted (turn : DialogueTurn) : DialogueTurn :=
  { turn with
    user := []
    steps := (newest 1 turn.steps).map fun step =>
      { step with content := step.content.map fun part =>
        { part with
          raw := []
          truncated := true
          bytes := some (part.bytes.getD (.safe (Utf16.byteLength part.raw))) } } }

def ReceiveResult.dropRequests (result : ReceiveResult) : ReceiveResult :=
  shrink (fun result => result.requests.isEmpty || result.bytes ≤ maxRpcBytes - 2048)
    (fun result => { result with requests := result.requests.tail, requestsTruncated := true })
    (result.requests.length + 1) result

namespace ReceiveCall

def turns (call : ReceiveCall) : List DialogueTurn :=
  (call.conversation.map (·.turns)).getD []

def page (call : ReceiveCall) : List DialogueTurn :=
  (call.turns.drop call.cursor).take call.limit

/-- A reply with some turns and all operations. -/
def result (call : ReceiveCall) (shown : List DialogueTurn) (next : Nat) (cut : Bool) :
    ReceiveResult where
  status := call.status
  requests := newest 20 call.requests
  requestsTruncated := false
  conversation := call.conversation.map fun projection => {
    projection := { projection with turns := shown, truncated := projection.truncated || cut }
    cursor := call.cursor
    next := next
    total := projection.turns.length }

def measured (call : ReceiveCall) (shown : List DialogueTurn) : ReceiveResult :=
  call.result shown (call.cursor + call.page.length) false

/-- The loop that takes whole turns off the page. -/
def keptTurns (call : ReceiveCall) : List DialogueTurn :=
  shrink (fun shown =>
      decide (shown.length ≤ 1) || (call.measured shown).bytes ≤ maxRpcBytes - 4096)
    List.dropLast (call.page.length + 1) call.page

/-- The first turn loses its content if the rest is still too large. -/
def shownTurns (call : ReceiveCall) : List DialogueTurn :=
  if call.keptTurns.isEmpty = false ∧ maxRpcBytes - 4096 < (call.measured call.keptTurns).bytes then
    call.keptTurns.modifyHead DialogueTurn.omitted
  else call.keptTurns

/-- The reply before operations are dropped. -/
def settled (call : ReceiveCall) : ReceiveResult :=
  if maxRpcBytes < (call.measured call.page).bytes then
    let past := if call.shownTurns.isEmpty ∧ call.cursor < call.turns.length then 1 else 0
    call.result call.shownTurns (call.cursor + call.shownTurns.length + past) true
  else call.measured call.page

/-- `receive` of a page. -/
def receive (call : ReceiveCall) : ReceiveResult := call.settled.dropRequests

end ReceiveCall

/-! ## Sizes -/

/-- A reply with smaller parts is smaller. -/
theorem ReceiveResult.bytes_le {a b : ReceiveResult} (hStatus : a.status = b.status)
    (hRequests : (Value.arr a.requests).bytes ≤ (Value.arr b.requests).bytes)
    (hFlag : boolBytes a.requestsTruncated ≤ boolBytes b.requestsTruncated)
    (hConversation : (conversationValue a.conversation).bytes ≤
      (conversationValue b.conversation).bytes) : a.bytes ≤ b.bytes := by
  rw [ReceiveResult.bytes, ReceiveResult.bytes, ReceiveResult.toValue, ReceiveResult.toValue,
    Value.bytes_obj, Value.bytes_obj, hStatus, List.map_append, List.map_append]
  apply listBytes_le
  refine List.rel_append (List.forall₂_refl _) ?_
  simp only [List.map_cons, List.map_nil]
  refine .cons (Nat.add_le_add_left hRequests _) (.cons (Nat.add_le_add_left ?_ _)
    (.cons (Nat.add_le_add_left hConversation _) .nil))
  simpa only [Value.bytes] using hFlag

theorem ConversationPage.bytes_le {projection : Projection} {shown shown' : List DialogueTurn}
    {cursor next next' total : Nat} {cut cut' : Bool} (hTurns : turnsBytes shown ≤ turnsBytes shown')
    (hNext : next ≤ next') (hCut : cut' = true → cut = true) :
    (ConversationPage.mk { projection with
      turns := shown, truncated := projection.truncated || cut } cursor next total).toValue.bytes ≤
    (ConversationPage.mk { projection with
      turns := shown', truncated := projection.truncated || cut' } cursor next' total).toValue.bytes
    := by
  have hFlag : boolBytes (projection.truncated || cut) ≤ boolBytes (projection.truncated || cut') := by
    cases projection.truncated
    · cases cut
      · cases cut'
        · exact Nat.le_refl _
        · exact absurd (hCut rfl) (by decide)
      · cases cut'
        · decide
        · exact Nat.le_refl _
    · exact Nat.le_refl _
  rw [ConversationPage.toValue, ConversationPage.toValue, Value.bytes_obj, Value.bytes_obj]
  apply listBytes_le
  simp only [List.map_cons, List.map_nil]
  refine .cons (Nat.le_refl _) (.cons (Nat.le_refl _) (.cons (Nat.add_le_add_left hTurns _)
    (.cons (Nat.add_le_add_left ?_ _) (.cons (Nat.le_refl _) (.cons (Nat.le_refl _)
      (.cons (Nat.le_refl _) (.cons (Nat.le_refl _) (.cons (Nat.add_le_add_left ?_ _)
        (.cons (Nat.le_refl _) .nil)))))))))
  · simpa only [Value.bytes] using hFlag
  · simpa only [Value.bytes] using safe_bytes_le hNext

namespace ReceiveCall

theorem result_bytes_le (call : ReceiveCall) {shown shown' : List DialogueTurn} {next next' : Nat}
    {cut cut' : Bool} (hTurns : turnsBytes shown ≤ turnsBytes shown') (hNext : next ≤ next')
    (hCut : cut' = true → cut = true) :
    (call.result shown next cut).bytes ≤ (call.result shown' next' cut').bytes := by
  refine ReceiveResult.bytes_le rfl (Nat.le_refl _) (Nat.le_refl _) ?_
  cases hConversation : call.conversation with
  | none => simp [result, hConversation]
  | some projection =>
    simp only [result, hConversation, Option.map_some, conversationValue]
    exact ConversationPage.bytes_le hTurns hNext hCut

end ReceiveCall

theorem turnsBytes_sublist {shown shown' : List DialogueTurn} (h : shown.Sublist shown') :
    turnsBytes shown ≤ turnsBytes shown' := by
  rw [turnsBytes, turnsBytes, Value.bytes_arr, Value.bytes_arr]
  exact listBytes_sublist ((h.map _).map _)

/-! ## The loops -/

/-- A reply without operations. -/
def ReceiveResult.bare (result : ReceiveResult) : ReceiveResult :=
  { result with
    requests := []
    requestsTruncated := result.requestsTruncated || !result.requests.isEmpty }

/-- A reply after some of its oldest operations were dropped. -/
structure Dropped (result from' : ReceiveResult) : Prop where
  status : result.status = from'.status
  conversation : result.conversation = from'.conversation
  requests : ∃ n ≤ from'.requests.length, result.requests = from'.requests.drop n ∧
    result.requestsTruncated = (from'.requestsTruncated || decide (0 < n))

theorem boolBytes_true_le (value : Bool) : boolBytes true ≤ boolBytes value := by
  cases value
  · decide
  · exact Nat.le_refl _

theorem boolBytes_or_le (value more : Bool) : boolBytes (value || more) ≤ boolBytes value := by
  cases more
  · rw [Bool.or_false]
  · rw [Bool.or_true]
    exact boolBytes_true_le value

theorem Dropped.bytes_le {result from' : ReceiveResult} (h : Dropped result from') :
    result.bytes ≤ from'.bytes := by
  obtain ⟨n, -, hRequests, hFlag⟩ := h.requests
  refine ReceiveResult.bytes_le h.status ?_ ?_ ?_
  · rw [Value.bytes_arr, Value.bytes_arr, hRequests]
    exact listBytes_sublist ((List.drop_sublist _ _).map _)
  · rw [hFlag]
    exact boolBytes_or_le _ _
  · rw [h.conversation]

theorem dropRequests_spec (result : ReceiveResult) : Dropped result.dropRequests result ∧
      (result.dropRequests.requests = [] ∨ result.dropRequests.bytes ≤ maxRpcBytes - 2048) := by
  refine ⟨?_, ?_⟩
  · apply shrink_keeps fun reply => Dropped reply result
    · rintro reply ⟨hStatus, hConversation, n, hMany, hRequests, hFlag⟩ hLarge
      rw [Bool.or_eq_false_iff, List.isEmpty_eq_false_iff, hRequests, Ne, List.drop_eq_nil_iff,
        Nat.not_le] at hLarge
      refine ⟨hStatus, hConversation, n + 1, hLarge.1, ?_, ?_⟩
      · rw [hRequests, List.tail_drop]
      · simp
    · exact ⟨rfl, rfl, 0, Nat.zero_le _, rfl, by simp⟩
  · have hLess : ∀ reply : ReceiveResult,
        (reply.requests.isEmpty || decide (reply.bytes ≤ maxRpcBytes - 2048)) = false →
          reply.requests.tail.length < reply.requests.length := by
      intro reply hLarge
      cases hRequests : reply.requests with
      | nil => simp [hRequests] at hLarge
      | cons first rest => simp
    have hDone := @shrink_fits ReceiveResult _
      (fun reply => { reply with requests := reply.requests.tail, requestsTruncated := true })
      (fun reply => reply.requests.length) hLess _ result (Nat.lt_succ_self _)
    rwa [Bool.or_eq_true, List.isEmpty_iff, decide_eq_true_eq] at hDone

theorem Dropped.eq_bare {reply result : ReceiveResult} (h : Dropped reply result)
    (hNone : reply.requests = []) : reply = result.bare := by
  obtain ⟨n, hMany, hRequests, hFlag⟩ := h.requests
  have hAll : n = result.requests.length := by
    rw [hRequests, List.drop_eq_nil_iff] at hNone
    omega
  have hSome : decide (0 < n) = !result.requests.isEmpty := by
    rw [hAll]
    cases result.requests <;> simp
  rw [hSome] at hFlag
  cases reply
  simp only at hNone hFlag
  rw [ReceiveResult.bare, ← h.status, ← h.conversation, ← hFlag, hNone]

theorem dropRequests_fits (result : ReceiveResult) :
    result.dropRequests.bytes ≤ maxRpcBytes ↔ result.bare.bytes ≤ maxRpcBytes := by
  obtain ⟨hDropped, hEnd⟩ := dropRequests_spec result
  rcases hEnd with hNone | hSmall
  · rw [hDropped.eq_bare hNone]
  · refine iff_of_true (Nat.le_trans hSmall (Nat.sub_le _ _)) ?_
    refine Nat.le_trans ?_ (Nat.le_trans hSmall (Nat.sub_le _ _))
    obtain ⟨n, hMany, hRequests, hFlag⟩ := hDropped.requests
    refine ReceiveResult.bytes_le hDropped.status.symm ?_ ?_ ?_
    · rw [Value.bytes_arr, Value.bytes_arr]
      exact listBytes_sublist ((List.nil_sublist _).map _)
    · show boolBytes (result.requestsTruncated || !result.requests.isEmpty) ≤ _
      rw [hFlag]
      cases hEmpty : result.requests with
      | nil =>
        have hZero : n = 0 := by
          rw [hEmpty] at hMany
          exact Nat.le_zero.mp hMany
        simp [hZero]
      | cons first rest =>
        rw [List.isEmpty_cons, Bool.not_false, Bool.or_true]
        exact boolBytes_true_le _
    · rw [hDropped.conversation]
      exact Nat.le_refl _

theorem keptTurns_spec (call : ReceiveCall) :
    call.keptTurns <+: call.page ∧ (call.page ≠ [] → call.keptTurns ≠ []) ∧
      (call.keptTurns.length ≤ 1 ∨ (call.measured call.keptTurns).bytes ≤ maxRpcBytes - 4096) := by
  have hKept : call.keptTurns <+: call.page ∧ (call.page ≠ [] → call.keptTurns ≠ []) := by
    apply shrink_keeps fun kept => kept <+: call.page ∧ (call.page ≠ [] → kept ≠ [])
    · rintro kept ⟨hPrefix, hSome⟩ hLarge
      rw [Bool.or_eq_false_iff, decide_eq_false_iff_not, Nat.not_le] at hLarge
      refine ⟨(List.dropLast_prefix _).trans hPrefix, fun _ hNone => ?_⟩
      have hLength := congrArg List.length hNone
      rw [List.length_dropLast, List.length_nil] at hLength
      omega
    · exact ⟨List.prefix_rfl, id⟩
  have hLess : ∀ kept : List DialogueTurn,
      (decide (kept.length ≤ 1) || decide ((call.measured kept).bytes ≤ maxRpcBytes - 4096)) =
        false → kept.dropLast.length < kept.length := by
    intro kept hLarge
    rw [Bool.or_eq_false_iff, decide_eq_false_iff_not] at hLarge
    rw [List.length_dropLast]
    omega
  have hDone := shrink_fits List.length hLess (call.page.length + 1) call.page (Nat.lt_succ_self _)
  rw [Bool.or_eq_true, decide_eq_true_eq, decide_eq_true_eq] at hDone
  exact ⟨hKept.1, hKept.2, hDone⟩

/-! ## What a page shows -/

def ShownAs (shown whole : DialogueTurn) : Prop := shown = whole ∨ shown = whole.omitted

def ReceiveResult.turns (result : ReceiveResult) : List DialogueTurn :=
  (result.conversation.map (·.projection.turns)).getD []

/-- Where to go on. A child without a dialogue has no turns to go on to. -/
def ReceiveResult.next (result : ReceiveResult) : Nat := (result.conversation.map (·.next)).getD 0

namespace ReceiveCall

variable (call : ReceiveCall)

theorem length_page : call.page.length = min call.limit (call.turns.length - call.cursor) := by
  rw [page, List.length_take, List.length_drop]

theorem page_ne_nil (h : call.cursor < call.turns.length) : call.page ≠ [] := by
  intro hNone
  have hLength := call.length_page
  have hLimit := call.bounded.1
  rw [hNone, List.length_nil] at hLength
  omega

theorem forall₂_shownAs (turns : List DialogueTurn) : List.Forall₂ ShownAs turns turns :=
  List.forall₂_same.mpr fun _ _ => .inl rfl

theorem shownTurns_spec : List.Forall₂ ShownAs call.shownTurns
      (call.page.take call.shownTurns.length) ∧ (call.page ≠ [] → call.shownTurns ≠ []) := by
  obtain ⟨hPrefix, hSome, -⟩ := keptTurns_spec call
  have hTake : call.page.take call.keptTurns.length = call.keptTurns :=
    (List.prefix_iff_eq_take.mp hPrefix).symm
  unfold shownTurns
  split
  · cases hKept : call.keptTurns with
    | nil => exact ⟨by simp, fun h => absurd hKept (hSome h)⟩
    | cons turn rest =>
      rw [List.modifyHead_cons, List.length_cons, ← List.length_cons (a := turn), ← hKept, hTake,
        hKept]
      exact ⟨.cons (.inr rfl) (forall₂_shownAs rest), fun _ => List.cons_ne_nil _ _⟩
  · rw [hTake]
    exact ⟨forall₂_shownAs _, hSome⟩

theorem receive_conversation : call.receive.conversation = call.settled.conversation :=
  (dropRequests_spec call.settled).1.conversation

theorem receive_shows : List.Forall₂ ShownAs call.receive.turns
      ((call.turns.drop call.cursor).take call.receive.turns.length) ∧
    (call.cursor < call.turns.length → call.receive.turns ≠ []) ∧ (call.conversation.isSome = true →
      call.receive.next = call.cursor + call.receive.turns.length) := by
  have hTurns : call.receive.turns = call.settled.turns := by
    rw [ReceiveResult.turns, receive_conversation]
    rfl
  have hNext : call.receive.next = call.settled.next := by
    rw [ReceiveResult.next, receive_conversation]
    rfl
  rw [hTurns, hNext]
  cases hConversation : call.conversation with
  | none =>
    have hNone : call.settled.turns = [] := by
      unfold settled ReceiveResult.turns
      split <;> simp [measured, result, hConversation]
    rw [hNone]
    refine ⟨by simp, fun h => ?_, by simp⟩
    rw [turns, hConversation] at h
    exact absurd h (Nat.not_lt_zero _)
  | some projection =>
    have hShownTurns : ∀ shown next cut, (call.result shown next cut).turns = shown := by
      intro shown next cut
      simp [ReceiveResult.turns, result, hConversation]
    have hShownNext : ∀ shown next cut, (call.result shown next cut).next = next := by
      intro shown next cut
      simp [ReceiveResult.next, result, hConversation]
    obtain ⟨hShown, hSome⟩ := call.shownTurns_spec
    have hPage : ∀ count, count ≤ call.page.length →
        call.page.take count = (call.turns.drop call.cursor).take count := by
      intro count hCount
      rw [page, List.take_take, Nat.min_eq_left]
      rw [length_page] at hCount
      omega
    have hMany : call.shownTurns.length ≤ call.page.length := by
      have hLength := hShown.length_eq
      rw [List.length_take] at hLength
      omega
    unfold settled
    split
    · rw [hShownTurns, hShownNext]
      refine ⟨hPage _ hMany ▸ hShown, fun h => hSome (call.page_ne_nil h), fun _ => ?_⟩
      have hNot : ¬(call.shownTurns.isEmpty = true ∧ call.cursor < call.turns.length) := by
        rintro ⟨hEmpty, hInside⟩
        exact hSome (call.page_ne_nil hInside) (List.isEmpty_iff.mp hEmpty)
      rw [if_neg hNot, Nat.add_zero]
    · rw [measured, hShownTurns, hShownNext]
      refine ⟨?_, call.page_ne_nil, fun _ => rfl⟩
      rw [← hPage _ (Nat.le_refl _), List.take_length]
      exact forall₂_shownAs _

end ReceiveCall

/-! ## Following the cursor -/

/-- One call of a walk over a dialogue that does not change. -/
structure PageRequest where
  status : ChildStatus
  requests : List (Value Number)
  limit : Nat
  bounded : 1 ≤ limit ∧ limit ≤ 10

/-- A page of five turns of a child that is done. -/
instance : Inhabited PageRequest where
  default :=
    { status := ⟨text "child", [], text "exited", false, [], 0, []⟩
      requests := []
      limit := 5
      bounded := by decide }

def PageRequest.call (request : PageRequest) (projection : Projection) (cursor : Nat) :
    ReceiveCall where
  status := request.status
  requests := request.requests
  conversation := some projection
  cursor := cursor
  limit := request.limit
  bounded := request.bounded

/-- The turns that calls show which follow the cursor, and where it ends up. -/
def walk (projection : Projection) : List PageRequest → Nat → List DialogueTurn × Nat
  | [], cursor => ([], cursor)
  | request :: rest, cursor =>
    let reply := (request.call projection cursor).receive
    let later := walk projection rest reply.next
    (reply.turns ++ later.1, later.2)

theorem walk_shows (projection : Projection) (requests : List PageRequest) :
    ∀ cursor, cursor ≤ projection.turns.length → cursor ≤ (walk projection requests cursor).2 ∧
      (walk projection requests cursor).2 ≤ projection.turns.length ∧
      min projection.turns.length (cursor + requests.length) ≤ (walk projection requests cursor).2 ∧
      List.Forall₂ ShownAs (walk projection requests cursor).1
        ((projection.turns.drop cursor).take ((walk projection requests cursor).2 - cursor)) := by
  induction requests with
  | nil =>
    intro cursor hCursor
    simp only [walk, Nat.sub_self, List.take_zero, List.length_nil]
    exact ⟨Nat.le_refl _, hCursor, by omega, .nil⟩
  | cons request rest ih =>
    intro cursor hCursor
    obtain ⟨hShown, hSome, hNext⟩ := (request.call projection cursor).receive_shows
    have hNext : (request.call projection cursor).receive.next =
        cursor + (request.call projection cursor).receive.turns.length := hNext rfl
    have hSome : cursor < projection.turns.length →
        0 < (request.call projection cursor).receive.turns.length :=
      fun h => List.length_pos_of_ne_nil (hSome h)
    have hShown : List.Forall₂ ShownAs (request.call projection cursor).receive.turns
        ((projection.turns.drop cursor).take
          (request.call projection cursor).receive.turns.length) := hShown
    have hInside := hShown.length_eq
    rw [List.length_take, List.length_drop] at hInside
    simp only [walk]
    rw [hNext]
    generalize (request.call projection cursor).receive.turns = shown at *
    obtain ⟨hAfter, hEnd, hFar, hLater⟩ := ih (cursor + shown.length) (by omega)
    refine ⟨by omega, hEnd, ?_, ?_⟩
    · rw [List.length_cons]
      omega
    · have hSplit : (walk projection rest (cursor + shown.length)).2 - cursor = shown.length +
          ((walk projection rest (cursor + shown.length)).2 - (cursor + shown.length)) := by
        omega
      rw [hSplit, List.take_add, List.drop_drop]
      exact List.rel_append hShown hLater

/-! ## Which pages are as they should be -/

namespace ReceiveCall

/-- A call for one turn of a child without operations. -/
def alone (call : ReceiveCall) (index : Nat) : ReceiveCall :=
  { call with requests := [], cursor := index, limit := 1, bounded := by decide }

/-- A turn does not fit, even alone. -/
def TooLarge (call : ReceiveCall) (index : Nat) : Prop :=
  maxRpcBytes < ((call.alone index).measured (call.alone index).page).bytes

/-- A reply with some turns and no operations. -/
def stripped (call : ReceiveCall) (shown : List DialogueTurn) : ReceiveResult :=
  (call.result shown (call.cursor + shown.length) true).bare

/-- The page fits. If not, its first turn fits together with all operations, or it is too large
alone and the reply fits without its content and without operations. -/
def Meets (call : ReceiveCall) : Prop :=
  (call.measured call.page).bytes ≤ maxRpcBytes ∨
    match call.page with
    | [] => (call.stripped []).bytes ≤ maxRpcBytes
    | turn :: _ =>
      (call.measured [turn]).bytes ≤ maxRpcBytes - 4096 ∨
        (turn.omitted = turn ∨ call.TooLarge call.cursor) ∧
          (call.stripped [turn.omitted]).bytes ≤ maxRpcBytes

end ReceiveCall

def DialogueTurn.lastSource (turn : DialogueTurn) : Option (Option AnswerSource) :=
  turn.steps.getLast?.map (·.answerSource)

/-- A page within the limit from which the cursor goes on, whose turns are whole, but for one
that does not fit alone and then keeps its last source. -/
structure PageLaw (call : ReceiveCall) : Prop where
  size : call.receive.bytes ≤ maxRpcBytes
  next : call.cursor < call.turns.length → call.cursor < call.receive.next
  turns : ∀ (n : Nat) shown, call.receive.turns[n]? = some shown →
    ∃ turn, call.turns[call.cursor + n]? = some turn ∧
      (shown = turn ∨ call.TooLarge (call.cursor + n) ∧ shown.lastSource = turn.lastSource)

theorem ReceiveResult.bare_bytes_le (result : ReceiveResult) : result.bare.bytes ≤ result.bytes := by
  refine Dropped.bytes_le ⟨rfl, rfl, result.requests.length, Nat.le_refl _, by simp [bare], ?_⟩
  cases hRequests : result.requests with
  | nil | cons first rest => simp [bare, hRequests]

theorem lastSource_omitted (turn : DialogueTurn) : turn.omitted.lastSource = turn.lastSource := by
  rw [DialogueTurn.lastSource, DialogueTurn.lastSource, DialogueTurn.omitted, newest]
  cases hSteps : turn.steps using List.reverseRecOn with
  | nil => rfl
  | append_singleton init last =>
    rw [List.length_append, List.length_singleton, Nat.add_sub_cancel, List.drop_left]
    simp

namespace ReceiveCall

variable (call : ReceiveCall)

theorem receive_next (h : call.cursor < call.turns.length) : call.cursor < call.receive.next := by
  obtain ⟨-, hSome, hNext⟩ := call.receive_shows
  have hConversation : call.conversation.isSome = true := by
    rw [turns] at h
    cases hNone : call.conversation with
    | none =>
      rw [hNone] at h
      exact absurd h (Nat.not_lt_zero _)
    | some projection => rfl
  rw [hNext hConversation]
  have hPositive := List.length_pos_of_ne_nil (hSome h)
  omega

theorem receive_turns : call.receive.turns =
    if maxRpcBytes < (call.measured call.page).bytes then call.shownTurns else call.page := by
  have hTurns : call.receive.turns = call.settled.turns := by
    rw [ReceiveResult.turns, receive_conversation]
    rfl
  rw [hTurns, settled]
  cases hConversation : call.conversation with
  | none =>
    have hPage : call.page = [] := by simp [page, turns, hConversation]
    have hShown : call.shownTurns = [] := by
      have hLength := call.shownTurns_spec.1.length_eq
      rw [hPage, List.take_nil, List.length_nil] at hLength
      exact List.length_eq_zero_iff.mp hLength
    split <;> simp [ReceiveResult.turns, measured, result, hConversation, hPage, hShown]
  | some projection =>
    split <;> simp [ReceiveResult.turns, measured, result, hConversation]

theorem receive_size : call.receive.bytes ≤ maxRpcBytes ↔ call.settled.bare.bytes ≤ maxRpcBytes :=
  dropRequests_fits call.settled

theorem settled_of_large (h : maxRpcBytes < (call.measured call.page).bytes) :
    call.settled = call.result call.shownTurns (call.cursor + call.shownTurns.length) true := by
  have hNot : ¬(call.shownTurns.isEmpty = true ∧ call.cursor < call.turns.length) := by
    rintro ⟨hEmpty, hInside⟩
    exact call.shownTurns_spec.2 (call.page_ne_nil hInside) (List.isEmpty_iff.mp hEmpty)
  rw [settled, if_pos h]
  simp only [if_neg hNot, Nat.add_zero]

theorem measured_bytes_le {shown shown' : List DialogueTurn} (h : shown.Sublist shown') :
    (call.measured shown).bytes ≤ (call.measured shown').bytes :=
  call.result_bytes_le (turnsBytes_sublist h) (Nat.le_refl _) id

variable {call} {turn : DialogueTurn} {rest : List DialogueTurn}

section

variable (hPage : call.page = turn :: rest)
include hPage

theorem keptTurns_of_short (h : call.keptTurns.length ≤ 1) : call.keptTurns = [turn] := by
  obtain ⟨⟨after, hPrefix⟩, hSome, -⟩ := keptTurns_spec call
  cases hKept : call.keptTurns with
  | nil => exact absurd hKept (hSome (by simp [hPage]))
  | cons first more =>
    rw [hKept, hPage, List.cons_append, List.cons.injEq] at hPrefix
    rw [hKept, List.length_cons] at h
    rw [hPrefix.1, List.length_eq_zero_iff.mp (by omega : more.length = 0)]

theorem shownTurns_of_large (hLarge : maxRpcBytes - 4096 < (call.measured [turn]).bytes) :
    call.shownTurns = [turn.omitted] := by
  have hKept : call.keptTurns = [turn] := by
    obtain ⟨⟨after, hPrefix⟩, hSome, hEnd⟩ := keptTurns_spec call
    rcases hEnd with hShort | hSmall
    · exact keptTurns_of_short hPage hShort
    · exfalso
      cases hKept : call.keptTurns with
      | nil => exact hSome (by simp [hPage]) hKept
      | cons first more =>
        rw [hKept, hPage, List.cons_append, List.cons.injEq] at hPrefix
        have hTurn : [turn].Sublist call.keptTurns := by
          rw [hKept, hPrefix.1]
          exact List.singleton_sublist.mpr (by simp)
        have hLess := call.measured_bytes_le hTurn
        omega
  rw [shownTurns, hKept, if_pos ⟨rfl, hLarge⟩]
  rfl

theorem shownTurns_of_small (hSmall : (call.measured [turn]).bytes ≤ maxRpcBytes - 4096) :
    call.shownTurns = call.keptTurns ∧
      (call.measured call.keptTurns).bytes ≤ maxRpcBytes - 4096 := by
  have hKept : (call.measured call.keptTurns).bytes ≤ maxRpcBytes - 4096 := by
    obtain ⟨-, -, hEnd⟩ := keptTurns_spec call
    rcases hEnd with hShort | hFits
    · rw [keptTurns_of_short hPage hShort]
      exact hSmall
    · exact hFits
  refine ⟨?_, hKept⟩
  rw [shownTurns, if_neg]
  rintro ⟨-, hLarge⟩
  omega

end

theorem turns_of_prefix {shown : List DialogueTurn} (h : shown <+: call.page) :
    ∀ (n : Nat) found, shown[n]? = some found → call.turns[call.cursor + n]? = some found := by
  intro n found hFound
  obtain ⟨after, hPage⟩ := h
  have hMany := (List.getElem?_eq_some_iff.mp hFound).1
  have hAt : call.page[n]? = some found := by
    rw [← hPage, List.getElem?_append_left hMany]
    exact hFound
  rw [page, List.getElem?_take] at hAt
  split at hAt
  · rwa [List.getElem?_drop] at hAt
  · cases hAt

theorem pageLaw_of_whole (hSize : call.settled.bare.bytes ≤ maxRpcBytes)
    (hWhole : call.receive.turns <+: call.page) : PageLaw call where
  size := call.receive_size.mpr hSize
  next := call.receive_next
  turns n shown hShown := ⟨shown, turns_of_prefix hWhole n shown hShown, .inl rfl⟩

/-- **The pages that are as they should be.** -/
theorem receive_iff (call : ReceiveCall) : PageLaw call ↔ call.Meets := by
  by_cases hFull : (call.measured call.page).bytes ≤ maxRpcBytes
  · refine iff_of_true ?_ (.inl hFull)
    have hNot : ¬maxRpcBytes < (call.measured call.page).bytes := Nat.not_lt.mpr hFull
    refine pageLaw_of_whole ?_ ?_
    · rw [settled, if_neg hNot]
      exact (ReceiveResult.bare_bytes_le _).trans hFull
    · rw [receive_turns, if_neg hNot]
  have hLarge := Nat.not_le.mp hFull
  have hTurns : call.receive.turns = call.shownTurns := by rw [receive_turns, if_pos hLarge]
  have hSettled := call.settled_of_large hLarge
  cases hPage : call.page with
  | nil =>
    have hNone : call.shownTurns = [] := by
      have hLength := call.shownTurns_spec.1.length_eq
      rw [hPage, List.take_nil, List.length_nil] at hLength
      exact List.length_eq_zero_iff.mp hLength
    rw [hNone] at hTurns hSettled
    constructor
    · intro h
      have hSize := call.receive_size.mp h.size
      rw [hSettled] at hSize
      exact .inr (by rw [hPage]; exact hSize)
    · rintro (h | h)
      · exact absurd h hFull
      · rw [hPage] at h
        refine pageLaw_of_whole ?_ ?_
        · rw [hSettled]
          exact h
        · rw [hTurns]
          exact List.nil_prefix
  | cons turn rest =>
    by_cases hSmall : (call.measured [turn]).bytes ≤ maxRpcBytes - 4096
    · refine iff_of_true ?_ (.inr (by rw [hPage]; exact .inl hSmall))
      obtain ⟨hShown, hKept⟩ := shownTurns_of_small hPage hSmall
      have hPrefix := (keptTurns_spec call).1
      rw [hShown] at hTurns hSettled
      refine pageLaw_of_whole ?_ (hTurns ▸ hPrefix)
      rw [hSettled]
      refine (ReceiveResult.bare_bytes_le _).trans ?_
      have hLess : (call.result call.keptTurns (call.cursor + call.keptTurns.length) true).bytes ≤
          (call.measured call.keptTurns).bytes :=
        call.result_bytes_le (Nat.le_refl _) (Nat.add_le_add_left hPrefix.length_le _)
          (fun h => absurd h (by decide))
      exact hLess.trans (hKept.trans (Nat.sub_le _ _))
    · have hShown := shownTurns_of_large hPage (Nat.not_le.mp hSmall)
      rw [hShown] at hTurns hSettled
      have hAt : call.turns[call.cursor + 0]? = some turn :=
        turns_of_prefix List.prefix_rfl 0 turn (by rw [hPage]; rfl)
      constructor
      · intro h
        refine .inr ?_
        rw [hPage]
        refine .inr ⟨?_, ?_⟩
        · obtain ⟨whole, hWhole, hCut⟩ := h.turns 0 turn.omitted (by rw [hTurns]; rfl)
          rw [hAt, Option.some.injEq] at hWhole
          rw [← hWhole] at hCut
          exact hCut.imp id And.left
        · have hSize := call.receive_size.mp h.size
          rw [hSettled] at hSize
          exact hSize
      · rintro (h | h)
        · exact absurd h hFull
        rw [hPage] at h
        rcases h with h | ⟨hCut, hSize⟩
        · exact absurd h hSmall
        refine ⟨call.receive_size.mpr (by rw [hSettled]; exact hSize), call.receive_next, ?_⟩
        intro n shown hFound
        rw [hTurns] at hFound
        cases n with
        | succ n => cases hFound
        | zero =>
          rw [List.getElem?_cons_zero, Option.some.injEq] at hFound
          refine ⟨turn, hAt, ?_⟩
          rw [← hFound]
          exact hCut.imp id fun h => ⟨h, lastSource_omitted turn⟩

/--
**Pages of a dialogue.** A page is within the limit, with turns that are whole but for one that
does not fit alone, exactly if the call meets the condition on its sizes. Whatever the sizes are,
calls that follow the cursor from 0 show the turns of the dialogue once and in order, each whole
or without its content, and as many calls as there are turns show all of them.
-/
theorem receive_laws (call : ReceiveCall) (projection : Projection) (requests : List PageRequest) :
    (PageLaw call ↔ call.Meets) ∧ List.Forall₂ ShownAs (walk projection requests 0).1
        (projection.turns.take (walk projection requests 0).2) ∧
      (projection.turns.length ≤ requests.length →
        (walk projection requests 0).2 = projection.turns.length) := by
  obtain ⟨-, hEnd, hFar, hShown⟩ := walk_shows projection requests 0 (Nat.zero_le _)
  rw [List.drop_zero, Nat.sub_zero] at hShown
  refine ⟨receive_iff call, hShown, fun hMany => ?_⟩
  omega

/-! ### A short turn beside long operations -/

def compaction (summary : Text) : Value Number :=
  .obj [(text "request_id", .str (text "r")), (text "operation", .str (text "compact")),
    (text "state", .str (text "finished")), (text "run_id", .str (text "")),
    (text "status", .str (text "completed")), (text "summary", .str summary),
    (text "at", .str (text "2026-01-01T00:00:00.000Z"))]

def greetingCall : ReceiveCall where
  status := {
    subagentId := text "child"
    subagent := []
    processState := text "running"
    connected := true
    activeRunId := []
    prompts := 0
    error := [] }
  requests := List.replicate 9 (compaction (List.replicate 32000 0x61))
  conversation := some {
    revision := some (.safe 1)
    workerId := some (text "w")
    turns := [{
      index := .safe 0
      requestId := none
      source := none
      user := [{
        type := text "text"
        modality := text "text"
        raw := text "hello"
        truncated := false
        bytes := none }]
      steps := [] }]
    truncated := false
    incomplete := false
    stale := false
    refreshedAt := none }
  cursor := 0
  limit := 5
  bounded := by decide

theorem textBytes_replicate (n : Nat) : n ≤ textBytes (List.replicate n 0x61) := by
  have hEncode : ∀ n, Utf16.encode (List.replicate n 'a') = List.replicate n 0x61 := by
    intro n
    induction n with
    | zero => rfl
    | succ n ih =>
      rw [List.replicate_succ, List.replicate_succ, ← ih]
      rfl
  have hBytes : pointBytes (.scalar 'a') = 1 := by decide
  rw [textBytes, ← hEncode, Utf16.points_encode, List.map_replicate, List.map_replicate, hBytes,
    List.sum_replicate]
  simp

theorem compaction_bytes (summary : Text) : textBytes summary ≤ (compaction summary).bytes := by
  show (Value.str summary).bytes ≤ _
  apply Value.member_bytes_le
  exact .tail _ (.tail _ (.tail _ (.tail _ (.tail _ (.head _)))))

/-- The operations alone are larger than a reply may be. -/
theorem greetingCall_bytes (shown : List DialogueTurn) :
    maxRpcBytes < (greetingCall.measured shown).bytes := by
  have hRequests : (Value.arr (List.replicate 9 (compaction (List.replicate 32000 0x61)))).bytes ≤
      (greetingCall.measured shown).bytes :=
    Value.member_bytes_le (List.mem_append_right _ List.mem_cons_self)
  have hOne := (textBytes_replicate 32000).trans (compaction_bytes _)
  rw [Value.bytes_arr, List.map_replicate] at hRequests
  generalize (compaction (List.replicate 32000 0x61)).bytes = size at hOne hRequests
  rw [listBytes, List.sum_replicate, Nat.nsmul_eq_mul] at hRequests
  rw [maxRpcBytes]
  omega

/-- The greeting is shown without its content, although alone it takes less than 1 KiB. -/
theorem greeting_omitted : ¬PageLaw greetingCall ∧
    ((greetingCall.alone 0).measured (greetingCall.alone 0).page).bytes ≤ 1024 := by
  have hAlone : ((greetingCall.alone 0).measured (greetingCall.alone 0).page).bytes ≤ 1024 := by
    decide +kernel
  refine ⟨fun hLaw => ?_, hAlone⟩
  rcases (receive_iff greetingCall).mp hLaw with h | h
  · exact absurd h (Nat.not_le.mpr (greetingCall_bytes _))
  · rcases h with h | ⟨h | h, -⟩
    · exact absurd (h.trans (Nat.sub_le _ _)) (Nat.not_le.mpr (greetingCall_bytes _))
    · exact absurd (congrArg (fun turn => turn.user.length) h) (by decide)
    · exact absurd (Nat.lt_of_lt_of_le h hAlone) (by decide)

end ReceiveCall

end SimplexAgent.Hub.Js
