import SimplexAgent.Tools.Registry

/-!
# What a batch answers

Every run of a batch, in whatever order its branches come along, ends with one
record per query, each from the routing and the outcome of its own call.

`Moves` says once what an event can do. The invariants are derived from it one by
one: `Shape` keeps the calls where the routing put them, `Filed` ties every
record and report to the one outcome of its own call, and `Counted` balances the
reports against the receives. A weight that every event lowers bounds the length
of a run, and a batch without results always has an event that is possible.
-/

namespace SimplexAgent.Tools

open Dataclass

/-! ## The calls a routing produces -/

section Routing

variable {registry : ToolRegistry} {queries : List InvokeQuery}
variable {query : InvokeQuery} {call : PreparedCall}

/-- The call a query became, in either group. -/
def Routed.call? : Routed → Option PreparedCall
  | .answered _ => none
  | .serial call => some call
  | .parallel call => some call

theorem route_getElem? (registry : ToolRegistry) (queries : List InvokeQuery) (i : Nat) :
    (route registry queries)[i]? = queries[i]?.map fun query => routeCall registry i query := by
  simp [route]

theorem route_round {i : Nat} {r : InvokeQuery × Routed}
    (h : (route registry queries)[i]? = some r) :
    ∃ query, queries[i]? = some query ∧ routeCall registry i query = r := by
  rw [route_getElem?] at h
  exact Option.map_eq_some_iff.mp h

@[simp] theorem route_length (registry : ToolRegistry) (queries : List InvokeQuery) :
    (route registry queries).length = queries.length := by
  simp [route]

theorem routeCall_cases (registry : ToolRegistry) (i : Nat) (query : InvokeQuery) :
    (∃ record, (routeCall registry i query).2 = .answered record ∧
      record.query = (routeCall registry i query).1) ∨
    ∃ call, call.index = i ∧ call.query = (routeCall registry i query).1 ∧
      (routeCall registry i query).2 =
        if mayRunInParallel call.query.type then .parallel call else .serial call := by
  unfold routeCall
  split
  · exact Or.inl ⟨_, rfl, rfl⟩
  · split
    · rename_i toolSet _ _ settled tool _
      exact Or.inr ⟨{ index := i, toolSet := toolSet, tool := tool, query := settled },
        rfl, rfl, rfl⟩
    · exact Or.inl ⟨_, rfl, rfl⟩
    · exact Or.inl ⟨_, rfl, rfl⟩
    · exact Or.inl ⟨_, rfl, rfl⟩

theorem routeCall_call {i : Nat} (h : (routeCall registry i query).2.call? = some call) :
    call.index = i ∧ call.query = (routeCall registry i query).1 := by
  obtain ⟨record, hRoute, -⟩ | ⟨found, hIndex, hQuery, hRoute⟩ := routeCall_cases registry i query
  · rw [hRoute] at h
    cases h
  · have hCall : found = call := by
      rw [hRoute] at h
      split at h <;> exact Option.some.inj h
    rw [← hCall]
    exact ⟨hIndex, hQuery⟩

theorem routeCall_serial {i : Nat} (h : (routeCall registry i query).2 = .serial call) :
    mayRunInParallel call.query.type = false := by
  obtain ⟨record, hRoute, -⟩ | ⟨found, -, -, hRoute⟩ := routeCall_cases registry i query
  · rw [hRoute] at h
    cases h
  · rw [hRoute] at h
    by_cases hType : mayRunInParallel found.query.type
    · rw [if_pos hType] at h
      cases h
    · rw [if_neg hType] at h
      injection h with hCall
      rw [← hCall]
      simpa using hType

theorem routeCall_parallel {i : Nat} (h : (routeCall registry i query).2 = .parallel call) :
    mayRunInParallel call.query.type = true := by
  obtain ⟨record, hRoute, -⟩ | ⟨found, -, -, hRoute⟩ := routeCall_cases registry i query
  · rw [hRoute] at h
    cases h
  · rw [hRoute] at h
    by_cases hType : mayRunInParallel found.query.type
    · rw [if_pos hType] at h
      injection h with hCall
      rw [← hCall]
      exact hType
    · rw [if_neg hType] at h
      cases h

theorem routeCall_answered {i : Nat} {record : InvokeReturn}
    (h : (routeCall registry i query).2 = .answered record) :
    record.query = (routeCall registry i query).1 := by
  obtain ⟨found, hRoute, hQuery⟩ | ⟨call, -, -, hRoute⟩ := routeCall_cases registry i query
  · rw [hRoute] at h
    injection h with hRecord
    rw [← hRecord]
    exact hQuery
  · rw [hRoute] at h
    split at h <;> cases h

theorem routeCall_identity
    (hHooks : ∀ name toolSet, registry.find name = some toolSet → toolSet.KeepsIdentity)
    (i : Nat) (query : InvokeQuery) : (routeCall registry i query).1.id = query.id ∧
      (routeCall registry i query).1.name = query.name := by
  unfold routeCall
  split
  · exact ⟨rfl, rfl⟩
  · rename_i toolSet hFind
    have hKeeps := hHooks query.name toolSet hFind query
    split <;> simp_all

def callsOf (group : Routed → Option PreparedCall) (registry : ToolRegistry)
    (queries : List InvokeQuery) : List PreparedCall :=
  (route registry queries).filterMap fun r => group r.2

theorem mem_callsOf {group : Routed → Option PreparedCall}
    (hGroup : ∀ r call, group r = some call → r.call? = some call)
    (hMem : call ∈ callsOf group registry queries) : ∃ query, queries[call.index]? = some query ∧
      group (routeCall registry call.index query).2 = some call := by
  obtain ⟨r, hRoute, hCall⟩ := List.mem_filterMap.mp hMem
  obtain ⟨i, hi⟩ := List.mem_iff_getElem?.mp hRoute
  obtain ⟨query, hQuery, rfl⟩ := route_round hi
  have hIndex := (routeCall_call (hGroup _ _ hCall)).1
  rw [hIndex]
  exact ⟨query, hQuery, hCall⟩

theorem callsOf_pairwise {group : Routed → Option PreparedCall}
    (hGroup : ∀ r call, group r = some call → r.call? = some call) :
    ((callsOf group registry queries).map PreparedCall.index).Pairwise (· < ·) := by
  rw [List.pairwise_map, callsOf, List.pairwise_filterMap, List.pairwise_iff_getElem]
  intro i j hi hj hLess call hCall call' hCall'
  obtain ⟨query, -, hRound⟩ := route_round (List.getElem?_eq_getElem hi)
  obtain ⟨query', -, hRound'⟩ := route_round (List.getElem?_eq_getElem hj)
  rw [← hRound] at hCall
  rw [← hRound'] at hCall'
  rw [(routeCall_call (hGroup _ _ hCall)).1, (routeCall_call (hGroup _ _ hCall')).1]
  exact hLess

theorem serial?_call (r : Routed) (call : PreparedCall) (h : r.serial? = some call) :
    r.call? = some call := by
  cases r <;> first | exact h | cases h

theorem parallel?_call (r : Routed) (call : PreparedCall) (h : r.parallel? = some call) :
    r.call? = some call := by
  cases r <;> first | exact h | cases h

end Routing

/-! ## What an event does -/

namespace Batch

inductive Moves (b : Batch) : Event → Batch → Prop where
  | beginSerial (call : PreparedCall) (rest : List PreparedCall)
      (hSpawned : b.spawned = false) (hRunning : b.running = none)
      (hCalls : b.serialCalls = call :: rest) :
      Moves b (.begins call.index) { b with running := some call, serialCalls := rest }
  | finishSerial (call : PreparedCall) (outcome : Outcome InvokeReturn)
      (hSpawned : b.spawned = false) (hRunning : b.running = some call) :
      Moves b (.finishes call.index outcome)
        { b with
          running := none
          records := b.records.set call.index (some (runSettled call outcome)) }
  | spawns (hSpawned : b.spawned = false) (hRunning : b.running = none)
      (hCalls : b.serialCalls = []) : Moves b .spawns { b with spawned := true }
  | beginBranch (call : PreparedCall) (hSpawned : b.spawned = true)
      (hBranch : { call := call, status := .waiting } ∈ b.branches) :
      Moves b (.begins call.index) { b with branches := b.setStatus call.index .running }
  | finishBranch (call : PreparedCall) (outcome : Outcome InvokeReturn)
      (hSpawned : b.spawned = true)
      (hBranch : { call := call, status := .running } ∈ b.branches) :
      Moves b (.finishes call.index outcome)
        { b with branches := b.setStatus call.index (.finished (runSettled call outcome)) }
  | sends (call : PreparedCall) (record : InvokeReturn) (hSpawned : b.spawned = true)
      (hBranch : { call := call, status := .finished record } ∈ b.branches) :
      Moves b (.sends call.index)
        { b with
          branches := b.setStatus call.index .reported
          channel := b.channel ++ [some { index := call.index, record := record }] }
  | sendFails (call : PreparedCall) (record : InvokeReturn) (hSpawned : b.spawned = true)
      (hBranch : { call := call, status := .finished record } ∈ b.branches) :
      Moves b (.sendFails call.index)
        { b with branches := b.setStatus call.index .undelivered }
  | reportsEmpty (call : PreparedCall) (hSpawned : b.spawned = true)
      (hBranch : { call := call, status := .undelivered } ∈ b.branches) :
      Moves b (.reportsEmpty call.index)
        { b with branches := b.setStatus call.index .reported, channel := b.channel ++ [none] }
  | receives (report : Option Report) (rest : List (Option Report))
      (hSpawned : b.spawned = true) (hChannel : b.channel = report :: rest)
      (hReceived : b.received < b.branches.length) :
      Moves b .receives
        { b with
          channel := rest, received := b.received + 1, records := file b.records report }
  | assembles (hSpawned : b.spawned = true) (hReceived : b.received = b.branches.length) :
      Moves b .assembles { b with results := some (assemble b.queries b.records) }

theorem branch?_some {b : Batch} {index : Nat} {branch : Branch}
    (h : b.branch? index = some branch) : branch ∈ b.branches ∧ branch.call.index = index :=
  ⟨List.mem_of_find?_eq_some h, by simpa using List.find?_some h⟩

theorem step_moves {b b' : Batch} {event : Event} (h : b.step event = some b') :
    b.results = none ∧ b.Moves event b' := by
  unfold step at h
  split at h
  · cases h
  · rename_i hResults
    refine ⟨hResults, ?_⟩
    split at h
    · rename_i index hSpawned
      unfold beginSerial at h
      split at h
      · split at h
        · rename_i hRunning hCalls hIndex
          injection h with hBatch
          rw [← hBatch, ← hIndex]
          exact .beginSerial _ _ hSpawned hRunning hCalls
        · cases h
      · cases h
    · rename_i index outcome hSpawned
      unfold finishSerial at h
      split at h
      · split at h
        · rename_i hRunning hIndex
          injection h with hBatch
          rw [← hBatch, ← hIndex]
          exact .finishSerial _ _ hSpawned hRunning
        · cases h
      · cases h
    · rename_i hSpawned
      split at h
      · rename_i hIdle
        injection h with hBatch
        rw [← hBatch]
        exact .spawns hSpawned (by simpa using hIdle.1) hIdle.2
      · cases h
    · rename_i index hSpawned
      unfold beginBranch at h
      split at h
      · rename_i call hFound
        injection h with hBatch
        obtain ⟨hMem, rfl⟩ := branch?_some hFound
        rw [← hBatch]
        exact .beginBranch call hSpawned hMem
      · cases h
    · rename_i index outcome hSpawned
      unfold finishBranch at h
      split at h
      · rename_i call hFound
        injection h with hBatch
        obtain ⟨hMem, rfl⟩ := branch?_some hFound
        rw [← hBatch]
        exact .finishBranch call outcome hSpawned hMem
      · cases h
    · rename_i index hSpawned
      unfold sendReport at h
      split at h
      · rename_i call record hFound
        obtain ⟨hMem, rfl⟩ := branch?_some hFound
        split at h
        · injection h with hBatch
          rw [← hBatch]
          exact .sends call record hSpawned hMem
        · cases h
      · cases h
    · rename_i index hSpawned
      unfold sendFails at h
      split at h
      · rename_i call record hFound
        injection h with hBatch
        obtain ⟨hMem, rfl⟩ := branch?_some hFound
        rw [← hBatch]
        exact .sendFails call record hSpawned hMem
      · cases h
    · rename_i index hSpawned
      unfold reportEmpty at h
      split at h
      · rename_i call hFound
        obtain ⟨hMem, rfl⟩ := branch?_some hFound
        split at h
        · injection h with hBatch
          rw [← hBatch]
          exact .reportsEmpty call hSpawned hMem
        · cases h
      · cases h
    · rename_i hSpawned
      unfold receive at h
      split at h
      · rename_i report rest hChannel
        split at h
        · rename_i hReceived
          injection h with hBatch
          rw [← hBatch]
          exact .receives report rest hSpawned hChannel hReceived
        · cases h
      · cases h
    · rename_i hSpawned
      split at h
      · rename_i hReceived
        injection h with hBatch
        rw [← hBatch]
        exact .assembles hSpawned hReceived
      · cases h
    · cases h

/-! ## Moving one branch on -/

theorem mem_setStatus {b : Batch} {index : Nat} {status : BranchStatus} {branch : Branch}
    (h : branch ∈ b.setStatus index status) : (branch.call.index = index ∧ branch.status = status ∧
      ∃ old, { branch with status := old } ∈ b.branches) ∨
    (branch.call.index ≠ index ∧ branch ∈ b.branches) := by
  obtain ⟨old, hOld, hBranch⟩ := List.mem_map.mp h
  by_cases hIndex : old.call.index = index
  · rw [if_pos hIndex] at hBranch
    rw [← hBranch]
    exact Or.inl ⟨hIndex, rfl, old.status, hOld⟩
  · rw [if_neg hIndex] at hBranch
    rw [← hBranch]
    exact Or.inr ⟨hIndex, hOld⟩

@[simp] theorem setStatus_calls (b : Batch) (index : Nat) (status : BranchStatus) :
    (b.setStatus index status).map Branch.call = b.branches.map Branch.call := by
  rw [setStatus, List.map_map]
  apply List.map_congr_left
  intro branch _
  simp only [Function.comp_apply]
  split <;> rfl

@[simp] theorem setStatus_length (b : Batch) (index : Nat) (status : BranchStatus) :
    (b.setStatus index status).length = b.branches.length := by
  simp [setStatus]

def weigh (w : BranchStatus → Nat) (branches : List Branch) : Nat :=
  (branches.map fun branch => w branch.status).sum

theorem weigh_setStatus {b : Batch} (w : BranchStatus → Nat) (status : BranchStatus)
    {branch : Branch} (hMem : branch ∈ b.branches)
    (hNodup : (b.branches.map fun branch => branch.call.index).Nodup) :
    weigh w (b.setStatus branch.call.index status) + w branch.status =
      weigh w b.branches + w status := by
  unfold setStatus
  generalize b.branches = branches at hMem hNodup
  induction branches with
  | nil => cases hMem
  | cons head rest ih =>
    obtain ⟨hFresh, hRest⟩ := List.nodup_cons.mp hNodup
    rcases List.mem_cons.mp hMem with rfl | hTail
    · have hSame : (rest.map fun other => if other.call.index = branch.call.index then
          { other with status := status } else other) = rest := by
        rw [show rest = rest.map id from (List.map_id rest).symm, List.map_map]
        apply List.map_congr_left
        intro other hOther
        have hIndex : other.call.index ≠ branch.call.index := by
          intro hSame
          exact hFresh (List.mem_map.mpr ⟨other, hOther, hSame⟩)
        simp [hIndex]
      simp only [weigh, List.map_cons, hSame, List.sum_cons, if_pos]
      omega
    · have hOther : head.call.index ≠ branch.call.index := by
        intro hSame
        exact hFresh (List.mem_map.mpr ⟨branch, hTail, hSame.symm⟩)
      have hInduction := ih hTail hRest
      simp only [weigh, List.map_cons, if_neg hOther, List.sum_cons] at hInduction ⊢
      omega

/-! ## Induction over a run -/

theorem run_induction {P : List Event → Batch → Prop} {b : Batch} (hStart : P [] b)
    (hStep : ∀ past b event b', P past b → b.step event = some b' → P (past ++ [event]) b')
    {events : List Event} {b' : Batch} (hRun : b.run events = some b') : P events b' := by
  have hFrom : ∀ (events past : List Event) (b : Batch), P past b → b.run events = some b' →
      P (past ++ events) b' := by
    intro events
    induction events with
    | nil =>
      intro past b hPast hRun
      injection hRun with hBatch
      rw [← hBatch, List.append_nil]
      exact hPast
    | cons event rest ih =>
      intro past b hPast hRun
      obtain ⟨next, hNext, hRest⟩ := Option.bind_eq_some_iff.mp hRun
      have hTail := ih (past ++ [event]) next (hStep past b event next hPast hNext) hRest
      rwa [List.append_assoc] at hTail
  exact hFrom events [] b hStart hRun

end Batch

/-! ## What a trace says -/

def Event.outcomeAt (i : Nat) : Event → Option (Outcome InvokeReturn)
  | .finishes index outcome => if index = i then some outcome else none
  | _ => none

/-- The outcomes the call at a position came to, in order. -/
def outcomesOf (i : Nat) (events : List Event) : List (Outcome InvokeReturn) :=
  events.filterMap (Event.outcomeAt i)

def Event.begun? : Event → Option Nat
  | .begins index => some index
  | _ => none

/-- The positions of the calls that began, in order. -/
def begun (events : List Event) : List Nat := events.filterMap Event.begun?

def Event.isReport : Event → Bool
  | .sends _ => true
  | .reportsEmpty _ => true
  | _ => false

/-- The collector took a report. -/
def Event.isReceive : Event → Bool
  | .receives => true
  | _ => false

/-- The settled type of the query at a position lets nothing overlap its call. -/
def runsAlone (registry : ToolRegistry) (queries : List InvokeQuery) (i : Nat) : Bool :=
  match (route registry queries)[i]? with
  | some (settled, _) => !mayRunInParallel settled.type
  | none => false

/-- A record holds what a call came to: the output it returned, or the text of its failure. -/
def Reports (record : InvokeReturn) (outcome : Outcome InvokeReturn) : Prop :=
  let tells (what : String) : Prop := what.toList <:+: record.output.raw.toList
  match outcome with
  | .returned own => record.output = own.output
  | .failed e => tells e.what
  | .threw what => tells what
  | .unknown => tells unknownError

def OwnRecord (registry : ToolRegistry) (i : Nat) (query : InvokeQuery) (events : List Event)
    (record : InvokeReturn) : Prop :=
  match routeCall registry i query with
  | (_, .answered answer) => record = answer
  | (_, .serial call) => ∃ outcome, outcomesOf i events = [outcome] ∧
      record = runSettled call outcome ∧ Reports record outcome
  | (settled, .parallel call) => ∃ outcome, outcomesOf i events = [outcome] ∧
      (record = runSettled call outcome ∧ Reports record outcome ∨
        Event.sendFails i ∈ events ∧ record = Batch.missingRecord settled)

theorem InvokeException.message_infix (e : InvokeException) :
    e.message.toList <:+: e.what.toList := by
  unfold InvokeException.what
  dsimp only
  simp only [String.toList_append]
  exact List.infix_append _ _ _

theorem runSettled_reports (call : PreparedCall) (outcome : Outcome InvokeReturn) :
    Reports (runSettled call outcome) outcome := by
  have hBroken : ∀ what : String, what.toList <:+:
      (brokenSet call.toolSet "out of execute()" what call.query).output.raw.toList := by
    intro what
    refine List.IsInfix.trans ?_ (InvokeException.message_infix _)
    simp only [String.toList_append]
    exact (List.suffix_append _ _).isInfix
  cases outcome with
  | returned own =>
    show (correlate own call.query).output = own.output
    unfold correlate
    split <;> rfl
  | failed e => exact hBroken e.what
  | threw what => exact hBroken what
  | unknown => exact hBroken unknownError

end SimplexAgent.Tools
