import SimplexAgent.Tools.RegistryRun

/-!
# One record per query

The invariants of a batch over whole runs, and the theorem they add up to: every
query is answered once and by its own call, serial calls run alone and in batch
order, and the collector takes exactly the reports that are handed in.
-/

namespace SimplexAgent.Tools

open Dataclass

variable {registry : ToolRegistry} {queries : List InvokeQuery}

/-! ## Positions -/

variable {events : List Event} {call : PreparedCall} {event : Event} {b : Batch} {branch : Branch}
  {i : Nat}

def routedAt (registry : ToolRegistry) (queries : List InvokeQuery) (i : Nat) : Option Routed :=
  (route registry queries)[i]?.map Prod.snd

theorem routedAt_eq (registry : ToolRegistry) (queries : List InvokeQuery) (i : Nat) :
    routedAt registry queries i = queries[i]?.map fun query => (routeCall registry i query).2 := by
  rw [routedAt, route_getElem?, Option.map_map]
  rfl

theorem routedAt_of_serial (hMem : call ∈ callsOf Routed.serial? registry queries) :
    routedAt registry queries call.index = some (.serial call) := by
  obtain ⟨query, hQuery, hGroup⟩ := mem_callsOf serial?_call hMem
  rw [routedAt_eq, hQuery]
  generalize hRouted : (routeCall registry call.index query).2 = routed at hGroup
  cases routed <;> simp_all [Routed.serial?]

theorem routedAt_of_parallel (hMem : call ∈ callsOf Routed.parallel? registry queries) :
    routedAt registry queries call.index = some (.parallel call) := by
  obtain ⟨query, hQuery, hGroup⟩ := mem_callsOf parallel?_call hMem
  rw [routedAt_eq, hQuery]
  generalize hRouted : (routeCall registry call.index query).2 = routed at hGroup
  cases routed <;> simp_all [Routed.parallel?]

theorem runsAlone_of_serial (hMem : call ∈ callsOf Routed.serial? registry queries) :
    runsAlone registry queries call.index = true := by
  have hRouted := routedAt_of_serial hMem
  rw [routedAt_eq] at hRouted
  obtain ⟨query, hQuery, hSerial⟩ := Option.map_eq_some_iff.mp hRouted
  have hCall := routeCall_call (by rw [hSerial]; rfl)
  rw [runsAlone, route_getElem?, hQuery]
  simp only [Option.map_some]
  rw [← hCall.2, routeCall_serial hSerial]
  rfl

theorem not_runsAlone_of_parallel (hMem : call ∈ callsOf Routed.parallel? registry queries) :
    runsAlone registry queries call.index = false := by
  have hRouted := routedAt_of_parallel hMem
  rw [routedAt_eq] at hRouted
  obtain ⟨query, hQuery, hParallel⟩ := Option.map_eq_some_iff.mp hRouted
  have hCall := routeCall_call (by rw [hParallel]; rfl)
  rw [runsAlone, route_getElem?, hQuery]
  simp only [Option.map_some]
  rw [← hCall.2, routeCall_parallel hParallel]
  rfl

/-! ## The calls stay where the routing put them -/

/-- The settled queries and the branches are those of the routing, the serial
loop has a tail of its calls before it, and no branch moves before that loop has
ended. -/
structure Shape (registry : ToolRegistry) (queries : List InvokeQuery) (events : List Event)
    (b : Batch) : Prop where
  settled : b.queries = (route registry queries).map Prod.fst
  slots : b.records.length = queries.length
  branchCalls : b.branches.map Branch.call = callsOf Routed.parallel? registry queries
  serialCalls : b.running.toList ++ b.serialCalls <:+ callsOf Routed.serial? registry queries
  idle : b.spawned = true → b.running = none ∧ b.serialCalls = []
  quiet : b.spawned = false → ∀ branch ∈ b.branches, branch.status = .waiting
  order : (begun events).filter (runsAlone registry queries) ++
    b.serialCalls.map PreparedCall.index =
      (callsOf Routed.serial? registry queries).map PreparedCall.index

theorem file_length (records : List (Option InvokeReturn)) (report : Option Report) :
    (Batch.file records report).length = records.length := by
  cases report with
  | none => rfl
  | some report => simp [Batch.file]

theorem start_shape (registry : ToolRegistry) (queries : List InvokeQuery) :
    Shape registry queries [] (Batch.start registry queries) where
  settled := rfl
  slots := by simp [Batch.start]
  branchCalls := by
    rw [Batch.start, List.map_map]
    exact List.map_id _
  serialCalls := List.suffix_rfl
  idle := fun h => by cases h
  quiet := by
    intro _ branch hMem
    obtain ⟨call, -, rfl⟩ := List.mem_map.mp hMem
    rfl
  order := rfl

theorem begun_append_begins (events : List Event) (i : Nat) :
    begun (events ++ [.begins i]) = begun events ++ [i] := by
  simp [begun, Event.begun?]

theorem begun_append_other (events : List Event) (h : event.begun? = none) :
    begun (events ++ [event]) = begun events := by
  simp [begun, h]

theorem Shape.branch_mem (hShape : Shape registry queries events b) (hMem : branch ∈ b.branches) :
    branch.call ∈ callsOf Routed.parallel? registry queries := by
  rw [← hShape.branchCalls]
  exact List.mem_map.mpr ⟨branch, hMem, rfl⟩

theorem Shape.setStatus (hShape : Shape registry queries events b) (hSpawned : b.spawned = true)
    (index : Nat) (status : BranchStatus) (channel : List (Option Report))
    (hEvent : event.begun? = none) : Shape registry queries (events ++ [event])
      { b with branches := b.setStatus index status, channel := channel } := by
  refine { hShape with branchCalls := ?_, quiet := ?_, order := ?_ }
  · rw [← hShape.branchCalls]
    exact b.setStatus_calls index status
  · intro hBefore
    rw [hSpawned] at hBefore
    cases hBefore
  · rw [begun_append_other _ hEvent]
    exact hShape.order

theorem step_shape {b b' : Batch} (hShape : Shape registry queries events b)
    (hMoves : b.Moves event b') : Shape registry queries (events ++ [event]) b' := by
  cases hMoves with
  | beginSerial call rest hSpawned hRunning hCalls =>
    have hTail : call :: rest <:+ callsOf Routed.serial? registry queries := by
      have hSuffix := hShape.serialCalls
      rwa [hRunning, hCalls] at hSuffix
    have hAlone := runsAlone_of_serial (hTail.subset List.mem_cons_self)
    refine { hShape with serialCalls := hTail, idle := ?_, order := ?_ }
    · intro hAfter
      rw [hSpawned] at hAfter
      cases hAfter
    · have hOrder := hShape.order
      rw [hCalls, List.map_cons] at hOrder
      rw [begun_append_begins, List.filter_append, List.filter_cons_of_pos hAlone]
      simpa using hOrder
  | finishSerial call outcome hSpawned hRunning =>
    have hTail : b.serialCalls <:+ callsOf Routed.serial? registry queries := by
      have hSuffix := hShape.serialCalls
      rw [hRunning] at hSuffix
      exact (List.suffix_cons call b.serialCalls).trans hSuffix
    refine { hShape with slots := ?_, serialCalls := hTail, idle := ?_, order := ?_ }
    · simpa using hShape.slots
    · intro hAfter
      rw [hSpawned] at hAfter
      cases hAfter
    · rw [begun_append_other _ rfl]
      exact hShape.order
  | spawns hSpawned hRunning hCalls =>
    refine { hShape with idle := fun _ => ⟨hRunning, hCalls⟩, quiet := ?_, order := ?_ }
    · intro hBefore
      cases hBefore
    · rw [begun_append_other _ rfl]
      exact hShape.order
  | beginBranch call hSpawned hBranch =>
    have hAlone : runsAlone registry queries call.index = false :=
      not_runsAlone_of_parallel (hShape.branch_mem hBranch)
    refine { hShape with branchCalls := ?_, quiet := ?_, order := ?_ }
    · rw [← hShape.branchCalls]
      exact b.setStatus_calls _ _
    · intro hBefore
      rw [hSpawned] at hBefore
      cases hBefore
    · rw [begun_append_begins, List.filter_append,
        List.filter_cons_of_neg (by rw [hAlone]; exact Bool.false_ne_true)]
      simpa using hShape.order
  | finishBranch call outcome hSpawned hBranch | sends call record hSpawned hBranch
  | sendFails call record hSpawned hBranch | reportsEmpty call hSpawned hBranch =>
    exact hShape.setStatus hSpawned _ _ _ rfl
  | receives report rest hSpawned hChannel hReceived =>
    refine { hShape with slots := ?_, order := ?_ }
    · rw [file_length]
      exact hShape.slots
    · rw [begun_append_other _ rfl]
      exact hShape.order
  | assembles hSpawned hReceived =>
    refine { hShape with order := ?_ }
    rw [begun_append_other _ rfl]
    exact hShape.order

theorem Shape.nodup (hShape : Shape registry queries events b) :
    (b.branches.map fun branch => branch.call.index).Nodup := by
  have hOrder : ((callsOf Routed.parallel? registry queries).map PreparedCall.index).Pairwise
      (· < ·) := callsOf_pairwise parallel?_call
  rw [← hShape.branchCalls, List.map_map] at hOrder
  exact hOrder.imp fun h => Nat.ne_of_lt h

theorem Shape.branch_unique (hShape : Shape registry queries events b) {branch other : Branch}
    (hMem : branch ∈ b.branches) (hOther : other ∈ b.branches)
    (hIndex : branch.call.index = other.call.index) : branch = other :=
  List.inj_on_of_nodup_map hShape.nodup hMem hOther hIndex

/-! ## Reports and receives -/

/-- Whether a branch still owes its report. -/
def unreported : BranchStatus → Nat
  | .reported => 0
  | _ => 1

/-- Every branch owes its report, has it in the channel, or had it taken; and the
trace shows as many reports and receives. -/
structure Counted (events : List Event) (b : Batch) : Prop where
  balance : b.received + b.channel.length + Batch.weigh unreported b.branches = b.branches.length
  reports : events.countP Event.isReport = b.received + b.channel.length
  receives : events.countP Event.isReceive = b.received

theorem start_counted (registry : ToolRegistry) (queries : List InvokeQuery) :
    Counted [] (Batch.start registry queries) where
  balance := by
    simp only [Batch.start, Batch.weigh, List.map_map, List.length_map, List.length_nil]
    rw [show ((fun branch : Branch => unreported branch.status) ∘ fun call =>
      { call := call, status := .waiting }) = fun _ => 1 from rfl]
    simp
  reports := rfl
  receives := rfl

theorem Counted.keep (hCounted : Counted events b)
    (hNodup : (b.branches.map fun branch => branch.call.index).Nodup) (hMem : branch ∈ b.branches)
    (status : BranchStatus) (hOwed : unreported branch.status = unreported status)
    (hReport : event.isReport = false) (hReceive : event.isReceive = false) :
    Counted (events ++ [event]) { b with branches := b.setStatus branch.call.index status } := by
  have hWeigh := Batch.weigh_setStatus unreported status hMem hNodup
  have hBalance := hCounted.balance
  refine ⟨?_, ?_, ?_⟩
  · simp only [Batch.setStatus_length]
    omega
  · simpa [hReport] using hCounted.reports
  · simpa [hReceive] using hCounted.receives

theorem Counted.hand_in (hCounted : Counted events b)
    (hNodup : (b.branches.map fun branch => branch.call.index).Nodup) (hMem : branch ∈ b.branches)
    (hOwed : unreported branch.status = 1) (report : Option Report)
    (hReport : event.isReport = true) (hReceive : event.isReceive = false) :
    Counted (events ++ [event])
      { b with
        branches := b.setStatus branch.call.index .reported
        channel := b.channel ++ [report] } := by
  have hWeigh := Batch.weigh_setStatus unreported .reported hMem hNodup
  have hBalance := hCounted.balance
  have hReports := hCounted.reports
  have hDone : unreported .reported = 0 := rfl
  refine ⟨?_, ?_, ?_⟩
  · simp only [Batch.setStatus_length, List.length_append, List.length_singleton]
    omega
  · simp only [List.countP_append, List.countP_singleton, hReport, List.length_append,
      List.length_singleton, if_true]
    omega
  · simpa [hReceive] using hCounted.receives

theorem step_counted {b b' : Batch} (hShape : Shape registry queries events b)
    (hCounted : Counted events b) (hMoves : b.Moves event b') : Counted (events ++ [event]) b' := by
  have hNodup := hShape.nodup
  cases hMoves with
  | beginSerial call rest hSpawned hRunning hCalls | finishSerial call outcome hSpawned hRunning
  | spawns hSpawned hRunning hCalls | assembles hSpawned hReceived =>
    exact ⟨hCounted.balance, by simpa [Event.isReport] using hCounted.reports,
      by simpa [Event.isReceive] using hCounted.receives⟩
  | beginBranch call hSpawned hBranch => exact hCounted.keep hNodup hBranch _ rfl rfl rfl
  | finishBranch call outcome hSpawned hBranch | sendFails call record hSpawned hBranch =>
    exact hCounted.keep hNodup hBranch _ rfl rfl rfl
  | sends call record hSpawned hBranch | reportsEmpty call hSpawned hBranch =>
    exact hCounted.hand_in hNodup hBranch rfl _ rfl rfl
  | receives report rest hSpawned hChannel hReceived =>
    have hBalance := hCounted.balance
    have hReports := hCounted.reports
    rw [hChannel, List.length_cons] at hBalance hReports
    refine ⟨?_, ?_, ?_⟩
    · show b.received + 1 + rest.length + Batch.weigh unreported b.branches = b.branches.length
      omega
    · simp only [List.countP_append, List.countP_singleton, Event.isReport]
      show _ = b.received + 1 + rest.length
      simp only [Bool.false_eq_true, if_false]
      omega
    · simpa [Event.isReceive] using hCounted.receives

/-! ## Every run ends -/

/-- How many events a branch has still before it, its report being taken apart. -/
def eventsLeft : BranchStatus → Nat
  | .waiting => 5
  | .running => 4
  | .finished _ => 3
  | .undelivered => 2
  | .reported => 0

/-- A bound on the events a batch has still before it. -/
def remaining (b : Batch) : Nat :=
  2 * b.serialCalls.length + b.running.toList.length + (if b.spawned then 0 else 1) +
    Batch.weigh eventsLeft b.branches + b.channel.length + (if b.results.isNone then 1 else 0)

theorem step_remaining {b b' : Batch} (hShape : Shape registry queries events b)
    (hStep : b.step event = some b') : remaining b' < remaining b := by
  obtain ⟨hResults, hMoves⟩ := Batch.step_moves hStep
  have hWeigh : ∀ {branch : Branch} (status : BranchStatus), branch ∈ b.branches → _ :=
    fun status hMem => Batch.weigh_setStatus eventsLeft status hMem hShape.nodup
  cases hMoves with
  | beginSerial call rest hSpawned hRunning hCalls =>
    simp [remaining, hRunning, hCalls]
    omega
  | finishSerial call outcome hSpawned hRunning =>
    simp [remaining, hRunning]
  | spawns hSpawned hRunning hCalls =>
    simp [remaining, hSpawned]
  | beginBranch call hSpawned hBranch =>
    have hMoved := hWeigh .running hBranch
    simp only [remaining, eventsLeft] at hMoved ⊢
    omega
  | finishBranch call outcome hSpawned hBranch =>
    have hMoved := hWeigh (.finished (runSettled call outcome)) hBranch
    simp only [remaining, eventsLeft] at hMoved ⊢
    omega
  | sends call record hSpawned hBranch | reportsEmpty call hSpawned hBranch =>
    have hMoved := hWeigh .reported hBranch
    simp only [remaining, eventsLeft, List.length_append, List.length_singleton] at hMoved ⊢
    omega
  | sendFails call record hSpawned hBranch =>
    have hMoved := hWeigh .undelivered hBranch
    simp only [remaining, eventsLeft] at hMoved ⊢
    omega
  | receives report rest hSpawned hChannel hReceived =>
    simp only [remaining, hChannel, List.length_cons]
    omega
  | assembles hSpawned hReceived =>
    simp [remaining, hResults]

theorem group_lengths (routes : List (InvokeQuery × Routed)) :
    (routes.filterMap fun r => r.2.serial?).length +
      (routes.filterMap fun r => r.2.parallel?).length ≤ routes.length := by
  induction routes with
  | nil => simp
  | cons r rest ih =>
    obtain ⟨settled, routed⟩ := r
    cases routed with
    | answered record =>
      rw [List.filterMap_cons_none rfl, List.filterMap_cons_none rfl, List.length_cons]
      omega
    | serial call =>
      have hSerial : (Routed.serial call).serial? = some call := rfl
      have hParallel : (Routed.serial call).parallel? = none := rfl
      simp only [List.filterMap_cons, hSerial, hParallel, List.length_cons]
      omega
    | parallel call =>
      have hSerial : (Routed.parallel call).serial? = none := rfl
      have hParallel : (Routed.parallel call).parallel? = some call := rfl
      simp only [List.filterMap_cons, hSerial, hParallel, List.length_cons]
      omega

theorem start_remaining (registry : ToolRegistry) (queries : List InvokeQuery) :
    remaining (Batch.start registry queries) ≤ 5 * queries.length + 2 := by
  have hGroups := group_lengths (route registry queries)
  have hWaiting : Batch.weigh eventsLeft (Batch.start registry queries).branches =
      5 * ((route registry queries).filterMap fun r => r.2.parallel?).length := by
    simp only [Batch.start, Batch.weigh, List.map_map]
    rw [show ((fun branch : Branch => eventsLeft branch.status) ∘ fun call =>
      { call := call, status := .waiting }) = fun _ => 5 from rfl]
    simp [Nat.mul_comm]
  rw [route_length] at hGroups
  simp only [remaining, hWaiting]
  simp only [Batch.start, Option.toList_none, List.length_nil, Bool.false_eq_true, if_false,
    Option.isNone_none, if_true]
  omega

theorem exists_unreported {branches : List Branch} (h : Batch.weigh unreported branches ≠ 0) :
    ∃ branch ∈ branches, unreported branch.status = 1 := by
  induction branches with
  | nil => exact absurd rfl h
  | cons head rest ih =>
    by_cases hHead : unreported head.status = 0
    · have hRest : Batch.weigh unreported rest ≠ 0 := by
        simpa [Batch.weigh, hHead] using h
      obtain ⟨branch, hMem, hOwed⟩ := ih hRest
      exact ⟨branch, List.mem_cons_of_mem head hMem, hOwed⟩
    · refine ⟨head, List.mem_cons_self, ?_⟩
      cases hStatus : head.status <;> simp_all [unreported]

theorem Shape.branch?_eq (hShape : Shape registry queries events b) (hMem : branch ∈ b.branches) :
    b.branch? branch.call.index = some branch := by
  obtain ⟨found, hFound⟩ : ∃ found, b.branch? branch.call.index = some found := by
    rw [← Option.isSome_iff_exists, Batch.branch?, List.find?_isSome]
    exact ⟨branch, hMem, by simp⟩
  obtain ⟨hFoundMem, hIndex⟩ := Batch.branch?_some hFound
  rw [hFound, hShape.branch_unique hFoundMem hMem hIndex]

/-- A batch without results has an event that is possible: the serial loop goes
on, a branch that owes its report does, or the collector does. -/
theorem exists_step (hShape : Shape registry queries events b) (hCounted : Counted events b)
    (hResults : b.results = none) : ∃ event b', b.step event = some b' := by
  cases hSpawned : b.spawned with
  | false =>
    cases hRunning : b.running with
    | some call =>
      refine ⟨.finishes call.index .unknown, ?_⟩
      simp [Batch.step, hResults, hSpawned, Batch.finishSerial, hRunning]
    | none =>
      cases hCalls : b.serialCalls with
      | nil => exact ⟨.spawns, by simp [Batch.step, hResults, hSpawned, hRunning, hCalls]⟩
      | cons call rest =>
        refine ⟨.begins call.index, ?_⟩
        simp [Batch.step, hResults, hSpawned, Batch.beginSerial, hRunning, hCalls]
  | true =>
    have hBalance := hCounted.balance
    cases hChannel : b.channel with
    | cons report rest =>
      rw [hChannel, List.length_cons] at hBalance
      have hRoom : b.received < b.branches.length := by omega
      exact ⟨.receives, by simp [Batch.step, hResults, hSpawned, Batch.receive, hChannel, hRoom]⟩
    | nil =>
      rw [hChannel, List.length_nil] at hBalance
      by_cases hOwed : Batch.weigh unreported b.branches = 0
      · have hReceived : b.received = b.branches.length := by omega
        exact ⟨.assembles, by simp [Batch.step, hResults, hSpawned, hReceived]⟩
      · obtain ⟨branch, hMem, hStatus⟩ := exists_unreported hOwed
        have hFound := hShape.branch?_eq hMem
        have hRoom : 0 < b.branches.length := by omega
        obtain ⟨call, status⟩ := branch
        cases status with
        | waiting =>
          exact ⟨.begins call.index, by
            simp [Batch.step, hResults, hSpawned, Batch.beginBranch, hFound]⟩
        | running =>
          exact ⟨.finishes call.index .unknown, by
            simp [Batch.step, hResults, hSpawned, Batch.finishBranch, hFound]⟩
        | finished record =>
          exact ⟨.sends call.index, by
            simp [Batch.step, hResults, hSpawned, Batch.sendReport, hFound, hChannel, hRoom]⟩
        | undelivered =>
          exact ⟨.reportsEmpty call.index, by
            simp [Batch.step, hResults, hSpawned, Batch.reportEmpty, hFound, hChannel, hRoom]⟩
        | reported => cases hStatus

/-! ## Every record comes from its own call -/

theorem outcomesOf_append_finishes (i : Nat) (events : List Event) (index : Nat)
    (outcome : Outcome InvokeReturn) : outcomesOf i (events ++ [.finishes index outcome]) =
      outcomesOf i events ++ if index = i then [outcome] else [] := by
  rw [outcomesOf, List.filterMap_append]
  by_cases hIndex : index = i
  · simp [outcomesOf, Event.outcomeAt, hIndex]
  · simp [outcomesOf, Event.outcomeAt, hIndex]

theorem outcomesOf_append_other (i : Nat) (events : List Event) (h : event.outcomeAt i = none) :
    outcomesOf i (events ++ [event]) = outcomesOf i events := by
  simp [outcomesOf, h]

def FromOwnCall (events : List Event) (i : Nat) (call : PreparedCall) (record : InvokeReturn) :
    Prop :=
  ∃ outcome, outcomesOf i events = [outcome] ∧ record = runSettled call outcome

theorem FromOwnCall.append {record : InvokeReturn} (hOwn : FromOwnCall events i call record)
    (hEvent : event.outcomeAt i = none) : FromOwnCall (events ++ [event]) i call record := by
  obtain ⟨outcome, hOutcome, hRecord⟩ := hOwn
  exact ⟨outcome, by rw [outcomesOf_append_other i events hEvent, hOutcome], hRecord⟩

/-- What is filed in a slot, or on its way to one, comes from the slot's own
routing or call. -/
structure Filed (registry : ToolRegistry) (queries : List InvokeQuery) (events : List Event)
    (b : Batch) : Prop where
  answered : ∀ i record, routedAt registry queries i = some (.answered record) →
    b.records[i]? = some (some record)
  filed : ∀ i routed call record, routedAt registry queries i = some routed →
    routed.call? = some call → b.records[i]? = some (some record) →
    FromOwnCall events i call record
  reports : ∀ report, some report ∈ b.channel →
    ∃ call, routedAt registry queries report.index = some (.parallel call) ∧
      FromOwnCall events report.index call report.record

/-- A branch that is done left a record, or a report under way, or its send
failed. -/
def Delivered (events : List Event) (b : Batch) (i : Nat) : Prop :=
  (∃ record, b.records[i]? = some (some record)) ∨
  (∃ report, some report ∈ b.channel ∧ report.index = i) ∨ Event.sendFails i ∈ events

def BranchSound (events : List Event) (b : Batch) (branch : Branch) : Prop :=
  match branch.status with
  | .waiting => outcomesOf branch.call.index events = []
  | .running => outcomesOf branch.call.index events = []
  | .finished record => FromOwnCall events branch.call.index branch.call record
  | .undelivered => (∃ outcome, outcomesOf branch.call.index events = [outcome]) ∧
      Event.sendFails branch.call.index ∈ events
  | .reported => (∃ outcome, outcomesOf branch.call.index events = [outcome]) ∧
      Delivered events b branch.call.index

/-- How far the calls have come: those before their outcome have none, and those
past it have handed something in. -/
structure Progressed (registry : ToolRegistry) (queries : List InvokeQuery)
    (events : List Event) (b : Batch) : Prop where
  pending : ∀ call ∈ b.running.toList ++ b.serialCalls, outcomesOf call.index events = []
  done : ∀ call ∈ callsOf Routed.serial? registry queries,
    call ∈ b.running.toList ++ b.serialCalls ∨ ∃ record, b.records[call.index]? = some (some record)
  branches : ∀ branch ∈ b.branches, BranchSound events b branch

theorem start_filed (registry : ToolRegistry) (queries : List InvokeQuery) :
    Filed registry queries [] (Batch.start registry queries) := by
  have hSlot : ∀ i, (Batch.start registry queries).records[i]? =
      (routedAt registry queries i).map Routed.record? := by
    intro i
    simp only [Batch.start, routedAt, List.getElem?_map, Option.map_map]
    rfl
  refine ⟨?_, ?_, ?_⟩
  · intro i record hRouted
    rw [hSlot, hRouted]
    rfl
  · intro i routed call record hRouted hCall hRecord
    rw [hSlot, hRouted] at hRecord
    cases routed <;> simp_all [Routed.call?, Routed.record?]
  · intro report hMem
    cases hMem

theorem Filed.frame {b b' : Batch} (hFiled : Filed registry queries events b)
    (hEvent : ∀ i, event.outcomeAt i = none) (hRecords : b'.records = b.records)
    (hChannel : ∀ report, some report ∈ b'.channel → some report ∈ b.channel) :
    Filed registry queries (events ++ [event]) b' := by
  refine ⟨?_, ?_, ?_⟩
  · intro i record hRouted
    rw [hRecords]
    exact hFiled.answered i record hRouted
  · intro i routed call record hRouted hCall hRecord
    rw [hRecords] at hRecord
    exact (hFiled.filed i routed call record hRouted hCall hRecord).append (hEvent i)
  · intro report hMem
    obtain ⟨call, hRouted, hOwn⟩ := hFiled.reports report (hChannel report hMem)
    exact ⟨call, hRouted, hOwn.append (hEvent report.index)⟩

theorem FromOwnCall.append_finishes {record : InvokeReturn}
    (hOwn : FromOwnCall events i call record) {index : Nat} (outcome : Outcome InvokeReturn)
    (hFirst : outcomesOf index events = []) :
    FromOwnCall (events ++ [.finishes index outcome]) i call record := by
  have hOther : index ≠ i := by
    intro hSame
    obtain ⟨found, hFound, -⟩ := hOwn
    rw [← hSame, hFirst] at hFound
    cases hFound
  exact hOwn.append (by simp [Event.outcomeAt, hOther])

theorem fromOwnCall_finishes (call : PreparedCall) (outcome : Outcome InvokeReturn)
    (hFirst : outcomesOf call.index events = []) :
    FromOwnCall (events ++ [.finishes call.index outcome]) call.index call
      (runSettled call outcome) :=
  ⟨outcome, by simp [outcomesOf_append_finishes, hFirst], rfl⟩

theorem Filed.finishes (hFiled : Filed registry queries events b) {index : Nat}
    (outcome : Outcome InvokeReturn) (hFirst : outcomesOf index events = []) :
    Filed registry queries (events ++ [.finishes index outcome]) b := by
  refine ⟨hFiled.answered, ?_, ?_⟩
  · intro i routed call record hRouted hCall hRecord
    exact (hFiled.filed i routed call record hRouted hCall hRecord).append_finishes outcome hFirst
  · intro report hReport
    obtain ⟨call, hRouted, hOwn⟩ := hFiled.reports report hReport
    exact ⟨call, hRouted, hOwn.append_finishes outcome hFirst⟩

theorem Filed.file {b b' : Batch} (hFiled : Filed registry queries events b) {routed : Routed}
    {record : InvokeReturn} (hRouted : routedAt registry queries i = some routed)
    (hCall : routed.call? = some call) (hOwn : FromOwnCall events i call record)
    (hRecords : b'.records = b.records.set i (some record))
    (hChannel : ∀ report, some report ∈ b'.channel → some report ∈ b.channel) :
    Filed registry queries events b' := by
  refine ⟨?_, ?_, fun report hMem => hFiled.reports report (hChannel report hMem)⟩
  · intro j answer hAnswered
    have hOther : i ≠ j := by
      intro hSame
      rw [← hSame, hRouted] at hAnswered
      injection hAnswered with hAnswer
      rw [hAnswer] at hCall
      cases hCall
    rw [hRecords, List.getElem?_set_ne hOther]
    exact hFiled.answered j answer hAnswered
  · intro j routed' call' record' hRouted' hCall' hRecord
    rw [hRecords] at hRecord
    by_cases hSame : i = j
    · subst hSame
      have hRoutedEq : routed = routed' := by
        rw [hRouted] at hRouted'
        exact Option.some.inj hRouted'
      have hCallEq : call = call' := by
        rw [← hRoutedEq, hCall] at hCall'
        exact Option.some.inj hCall'
      have hRecordEq : record = record' := by
        rw [List.getElem?_set_self'] at hRecord
        cases hSlot : b.records[i]? <;> simp_all
      rw [← hCallEq, ← hRecordEq]
      exact hOwn
    · rw [List.getElem?_set_ne hSame] at hRecord
      exact hFiled.filed j routed' call' record' hRouted' hCall' hRecord

theorem step_filed {b b' : Batch} (hShape : Shape registry queries events b)
    (hFiled : Filed registry queries events b) (hProgressed : Progressed registry queries events b)
    (hMoves : b.Moves event b') : Filed registry queries (events ++ [event]) b' := by
  cases hMoves with
  | beginSerial call rest hSpawned hRunning hCalls | sendFails call record hSpawned hBranch =>
    exact hFiled.frame (fun _ => rfl) rfl fun _ h => h
  | finishSerial call outcome hSpawned hRunning =>
    have hMem : call ∈ b.running.toList ++ b.serialCalls := by simp [hRunning]
    have hFirst := hProgressed.pending call hMem
    have hRouted := routedAt_of_serial (hShape.serialCalls.subset hMem)
    exact (hFiled.finishes outcome hFirst).file hRouted rfl
      (fromOwnCall_finishes call outcome hFirst) rfl fun _ h => h
  | spawns hSpawned hRunning hCalls | beginBranch call hSpawned hBranch
  | assembles hSpawned hReceived => exact hFiled.frame (fun _ => rfl) rfl fun _ h => h
  | finishBranch call outcome hSpawned hBranch =>
    have hFirst : outcomesOf call.index events = [] := hProgressed.branches _ hBranch
    have hKept := hFiled.finishes outcome hFirst
    exact ⟨hKept.answered, hKept.filed, hKept.reports⟩
  | sends call record hSpawned hBranch =>
    have hOwn : FromOwnCall events call.index call record := hProgressed.branches _ hBranch
    have hRouted := routedAt_of_parallel (hShape.branch_mem hBranch)
    have hKept : Filed registry queries (events ++ [.sends call.index]) b :=
      hFiled.frame (fun _ => rfl) rfl fun _ h => h
    refine ⟨hKept.answered, hKept.filed, ?_⟩
    intro report hReport
    rcases List.mem_append.mp hReport with hOld | hNew
    · exact hKept.reports report hOld
    · have hReportEq : report = { index := call.index, record := record } := by
        simpa using hNew
      rw [hReportEq]
      exact ⟨call, hRouted, hOwn.append rfl⟩
  | reportsEmpty call hSpawned hBranch =>
    refine hFiled.frame (fun _ => rfl) rfl ?_
    intro report hReport
    simpa using hReport
  | receives report rest hSpawned hChannel hReceived =>
    have hKept : Filed registry queries (events ++ [.receives]) b :=
      hFiled.frame (fun _ => rfl) rfl fun _ h => h
    have hRest : ∀ other, some other ∈ rest → some other ∈ b.channel := by
      intro other hOther
      rw [hChannel]
      exact List.mem_cons_of_mem report hOther
    cases report with
    | none => exact ⟨hKept.answered, hKept.filed, fun other h => hKept.reports other (hRest other h)⟩
    | some report =>
      have hHead : some report ∈ b.channel := by
        rw [hChannel]
        exact List.mem_cons_self
      obtain ⟨call, hRouted, hOwn⟩ := hKept.reports report hHead
      exact hKept.file hRouted rfl hOwn rfl hRest

theorem start_progressed (registry : ToolRegistry) (queries : List InvokeQuery) :
    Progressed registry queries [] (Batch.start registry queries) where
  pending := fun _ _ => rfl
  done := fun call hMem => Or.inl hMem
  branches := by
    intro branch hMem
    obtain ⟨call, -, rfl⟩ := List.mem_map.mp hMem
    rfl

theorem filled_set {records : List (Option InvokeReturn)}
    (h : ∃ record, records[i]? = some (some record)) (j : Nat) (new : InvokeReturn) :
    ∃ record, (records.set j (some new))[i]? = some (some record) := by
  obtain ⟨record, hRecord⟩ := h
  by_cases hSame : j = i
  · exact ⟨new, by rw [hSame, List.getElem?_set_self', hRecord]; rfl⟩
  · exact ⟨record, by rw [List.getElem?_set_ne hSame, hRecord]⟩

theorem filled_file {records : List (Option InvokeReturn)}
    (h : ∃ record, records[i]? = some (some record)) (report : Option Report) :
    ∃ record, (Batch.file records report)[i]? = some (some record) := by
  cases report with
  | none => exact h
  | some report => exact filled_set h report.index report.record

theorem Delivered.frame {b b' : Batch} (hDelivered : Delivered events b i) (event : Event)
    (hRecords : (∃ record, b.records[i]? = some (some record)) → ∃ record, b'.records[i]? = some (some record))
    (hChannel : ∀ report, some report ∈ b.channel → report.index = i → some report ∈ b'.channel ∨ ∃ record, b'.records[i]? = some (some record)) :
    Delivered (events ++ [event]) b' i := by
  rcases hDelivered with hFilled | ⟨report, hMem, hIndex⟩ | hFails
  · exact Or.inl (hRecords hFilled)
  · rcases hChannel report hMem hIndex with hStays | hFilled
    · exact Or.inr (Or.inl ⟨report, hStays, hIndex⟩)
    · exact Or.inl hFilled
  · exact Or.inr (Or.inr (List.mem_append_left _ hFails))

theorem BranchSound.frame {b b' : Batch} (hSound : BranchSound events b branch)
    (hEvent : event.outcomeAt branch.call.index = none)
    (hDelivered : Delivered events b branch.call.index → Delivered (events ++ [event]) b' branch.call.index) :
    BranchSound (events ++ [event]) b' branch := by
  have hOutcomes := outcomesOf_append_other branch.call.index events hEvent
  unfold BranchSound at hSound ⊢
  split at hSound
  · rw [hOutcomes]
    exact hSound
  · rw [hOutcomes]
    exact hSound
  · exact hSound.append hEvent
  · rw [hOutcomes]
    exact ⟨hSound.1, List.mem_append_left _ hSound.2⟩
  · rw [hOutcomes]
    exact ⟨hSound.1, hDelivered hSound.2⟩

theorem Progressed.frame {b b' : Batch} (hProgressed : Progressed registry queries events b)
    (hEvent : ∀ i, event.outcomeAt i = none)
    (hSerial : b'.running.toList ++ b'.serialCalls = b.running.toList ++ b.serialCalls)
    (hRecords : ∀ i : Nat, (∃ record, b.records[i]? = some (some record)) → ∃ record, b'.records[i]? = some (some record))
    (hBranches : ∀ branch ∈ b'.branches, BranchSound (events ++ [event]) b' branch) :
    Progressed registry queries (events ++ [event]) b' := by
  refine ⟨?_, ?_, hBranches⟩
  · intro call hMem
    rw [hSerial] at hMem
    rw [outcomesOf_append_other _ _ (hEvent call.index)]
    exact hProgressed.pending call hMem
  · intro call hMem
    rw [hSerial]
    rcases hProgressed.done call hMem with hPending | hFilled
    · exact Or.inl hPending
    · exact Or.inr (hRecords call.index hFilled)

theorem branches_setStatus {b b' : Batch} (hShape : Shape registry queries events b)
    (hProgressed : Progressed registry queries events b) {old status : BranchStatus}
    (hBranch : { call := call, status := old } ∈ b.branches)
    (hBranches : b'.branches = b.setStatus call.index status)
    (hEvent : ∀ i, i ≠ call.index → event.outcomeAt i = none)
    (hRecords : b'.records = b.records)
    (hChannel : ∀ report, some report ∈ b.channel → some report ∈ b'.channel)
    (hMoved : BranchSound (events ++ [event]) b' { call := call, status := status }) :
    ∀ branch ∈ b'.branches, BranchSound (events ++ [event]) b' branch := by
  intro branch hMem
  rw [hBranches] at hMem
  rcases Batch.mem_setStatus hMem with ⟨hIndex, hStatus, before, hBefore⟩ | ⟨hIndex, hOld⟩
  · have hSame := hShape.branch_unique hBefore hBranch hIndex
    have hBranchEq : branch = { call := call, status := status } := by
      obtain ⟨branchCall, branchStatus⟩ := branch
      injection hSame with hCall
      exact congrArg₂ Branch.mk hCall hStatus
    rw [hBranchEq]
    exact hMoved
  · refine (hProgressed.branches branch hOld).frame (hEvent _ hIndex) ?_
    intro hDelivered
    refine hDelivered.frame event (fun h => by rw [hRecords]; exact h) ?_
    intro report hReport _
    exact Or.inl (hChannel report hReport)

theorem Shape.slot_lt (hShape : Shape registry queries events b) {routed : Routed}
    (hRouted : routedAt registry queries i = some routed) : i < b.records.length := by
  rw [routedAt_eq] at hRouted
  obtain ⟨query, hQuery, -⟩ := Option.map_eq_some_iff.mp hRouted
  rw [hShape.slots]
  exact (List.getElem?_eq_some_iff.mp hQuery).1

theorem Shape.serial_ne_branch (hShape : Shape registry queries events b)
    (hCall : call ∈ callsOf Routed.serial? registry queries) (hBranch : branch ∈ b.branches) :
    call.index ≠ branch.call.index := by
  intro hSame
  have hSerial := routedAt_of_serial hCall
  have hParallel := routedAt_of_parallel (hShape.branch_mem hBranch)
  rw [hSame, hParallel] at hSerial
  cases hSerial

theorem step_progressed {b b' : Batch} (hShape : Shape registry queries events b)
    (hFiled : Filed registry queries events b) (hProgressed : Progressed registry queries events b)
    (hMoves : b.Moves event b') : Progressed registry queries (events ++ [event]) b' := by
  have hStays : ∀ {event : Event} {b' : Batch} {branch : Branch}, branch ∈ b.branches →
      event.outcomeAt branch.call.index = none → b'.records = b.records →
      b'.channel = b.channel → BranchSound (events ++ [event]) b' branch := by
    intro event b' branch hMem hEvent hRecords hChannel
    refine (hProgressed.branches branch hMem).frame hEvent fun hDelivered => ?_
    refine hDelivered.frame event (fun h => by rw [hRecords]; exact h) ?_
    intro report hReport _
    exact Or.inl (by rw [hChannel]; exact hReport)
  cases hMoves with
  | beginSerial call rest hSpawned hRunning hCalls =>
    refine hProgressed.frame (fun _ => rfl) ?_ (fun _ h => h) ?_
    · simp [hRunning, hCalls]
    · exact fun branch hMem => hStays hMem rfl rfl rfl
  | finishSerial call outcome hSpawned hRunning =>
    have hSuffix := hShape.serialCalls
    rw [hRunning] at hSuffix
    have hSerial : call ∈ callsOf Routed.serial? registry queries :=
      hSuffix.subset List.mem_cons_self
    have hOrder : ((callsOf Routed.serial? registry queries).map PreparedCall.index).Pairwise
        (· < ·) := callsOf_pairwise serial?_call
    have hLater : ∀ other ∈ b.serialCalls, call.index ≠ other.index := by
      intro other hOther
      have hTail := hOrder.sublist (hSuffix.map PreparedCall.index).sublist
      exact Nat.ne_of_lt (List.rel_of_pairwise_cons hTail (List.mem_map.mpr ⟨other, hOther, rfl⟩))
    refine ⟨?_, ?_, ?_⟩
    · intro other hOther
      have hIndex := hLater other (by simpa using hOther)
      rw [outcomesOf_append_finishes, if_neg hIndex, List.append_nil]
      exact hProgressed.pending other (by rw [hRunning]; exact List.mem_cons_of_mem _ (by
        simpa using hOther))
    · intro other hOther
      rcases hProgressed.done other hOther with hPending | hFilled
      · rw [hRunning] at hPending
        rcases List.mem_cons.mp hPending with rfl | hTail
        · have hSlot := hShape.slot_lt (routedAt_of_serial hSerial)
          exact Or.inr ⟨_, List.getElem?_set_self hSlot⟩
        · exact Or.inl hTail
      · exact Or.inr (filled_set hFilled call.index _)
    · intro branch hMem
      have hIndex := hShape.serial_ne_branch hSerial hMem
      refine (hProgressed.branches branch hMem).frame (by simp [Event.outcomeAt, hIndex]) ?_
      intro hDelivered
      refine hDelivered.frame _ (fun h => filled_set h call.index _) ?_
      exact fun report hReport _ => Or.inl hReport
  | spawns hSpawned hRunning hCalls | assembles hSpawned hReceived =>
    exact hProgressed.frame (fun _ => rfl) rfl (fun _ h => h)
      fun branch hMem => hStays hMem rfl rfl rfl
  | beginBranch call hSpawned hBranch =>
    have hBefore : outcomesOf call.index events = [] := hProgressed.branches _ hBranch
    refine hProgressed.frame (fun _ => rfl) rfl (fun _ h => h) ?_
    refine branches_setStatus hShape hProgressed hBranch rfl (fun _ _ => rfl) rfl
      (fun _ h => h) ?_
    show outcomesOf call.index (events ++ [.begins call.index]) = []
    rw [outcomesOf_append_other _ _ rfl, hBefore]
  | finishBranch call outcome hSpawned hBranch =>
    have hBefore : outcomesOf call.index events = [] := hProgressed.branches _ hBranch
    refine ⟨?_, hProgressed.done, ?_⟩
    · intro other hOther
      have hIdle := hShape.idle hSpawned
      simp [hIdle] at hOther
    · refine branches_setStatus hShape hProgressed hBranch rfl ?_ rfl (fun _ h => h) ?_
      · intro i hOther
        simp [Event.outcomeAt, Ne.symm hOther]
      · exact fromOwnCall_finishes call outcome hBefore
  | sends call record hSpawned hBranch =>
    have hOwn : FromOwnCall events call.index call record := hProgressed.branches _ hBranch
    refine hProgressed.frame (fun _ => rfl) rfl (fun _ h => h) ?_
    refine branches_setStatus hShape hProgressed hBranch rfl (fun _ _ => rfl) rfl
      (fun _ h => List.mem_append_left _ h) ?_
    have hSent : FromOwnCall (events ++ [.sends call.index]) call.index call record :=
      hOwn.append rfl
    obtain ⟨outcome, hOutcome, -⟩ := hSent
    exact ⟨⟨outcome, hOutcome⟩, Or.inr (Or.inl ⟨{ index := call.index, record := record },
      List.mem_append_right _ List.mem_cons_self, rfl⟩)⟩
  | sendFails call record hSpawned hBranch =>
    have hOwn : FromOwnCall events call.index call record := hProgressed.branches _ hBranch
    refine hProgressed.frame (fun _ => rfl) rfl (fun _ h => h) ?_
    refine branches_setStatus hShape hProgressed hBranch rfl (fun _ _ => rfl) rfl
      (fun _ h => h) ?_
    have hFailed : FromOwnCall (events ++ [.sendFails call.index]) call.index call record :=
      hOwn.append rfl
    obtain ⟨outcome, hOutcome, -⟩ := hFailed
    exact ⟨⟨outcome, hOutcome⟩, List.mem_append_right _ List.mem_cons_self⟩
  | reportsEmpty call hSpawned hBranch =>
    obtain ⟨⟨outcome, hOutcome⟩, hFails⟩ := hProgressed.branches _ hBranch
    refine hProgressed.frame (fun _ => rfl) rfl (fun _ h => h) ?_
    refine branches_setStatus hShape hProgressed hBranch rfl (fun _ _ => rfl) rfl
      (fun _ h => List.mem_append_left _ h) ?_
    refine ⟨⟨outcome, ?_⟩, Or.inr (Or.inr (List.mem_append_left _ hFails))⟩
    rw [outcomesOf_append_other _ _ rfl]
    exact hOutcome
  | receives report rest hSpawned hChannel hReceived =>
    refine hProgressed.frame (fun _ => rfl) rfl (fun _ h => filled_file h report) ?_
    intro branch hMem
    refine (hProgressed.branches branch hMem).frame rfl fun hDelivered => ?_
    refine hDelivered.frame _ (fun h => filled_file h report) ?_
    intro other hOther hIndex
    rw [hChannel] at hOther
    rcases List.mem_cons.mp hOther with rfl | hRest
    · have hHead : some other ∈ b.channel := by
        rw [hChannel]
        exact List.mem_cons_self
      obtain ⟨call, hRouted, -⟩ := hFiled.reports other hHead
      exact Or.inr ⟨other.record, by
        rw [← hIndex]
        exact List.getElem?_set_self (hShape.slot_lt hRouted)⟩
    · exact Or.inl hRest

/-! ## Whole runs -/

/-- Everything that holds after any events of a batch. -/
structure Invariant (registry : ToolRegistry) (queries : List InvokeQuery)
    (events : List Event) (b : Batch) : Prop where
  shape : Shape registry queries events b
  counted : Counted events b
  filed : Filed registry queries events b
  progressed : Progressed registry queries events b
  assembled : ∀ results, b.results = some results →
    b.spawned = true ∧ b.received = b.branches.length ∧ results = Batch.assemble b.queries b.records
  bounded : events.length + remaining b ≤ 5 * queries.length + 2

theorem start_invariant (registry : ToolRegistry) (queries : List InvokeQuery) :
    Invariant registry queries [] (Batch.start registry queries) where
  shape := start_shape registry queries
  counted := start_counted registry queries
  filed := start_filed registry queries
  progressed := start_progressed registry queries
  assembled := fun results h => by cases h
  bounded := by simpa using start_remaining registry queries

theorem step_invariant {b b' : Batch} (hInvariant : Invariant registry queries events b)
    (hStep : b.step event = some b') : Invariant registry queries (events ++ [event]) b' := by
  obtain ⟨hResults, hMoves⟩ := Batch.step_moves hStep
  have hLess := step_remaining hInvariant.shape hStep
  have hBound := hInvariant.bounded
  refine ⟨step_shape hInvariant.shape hMoves, step_counted hInvariant.shape hInvariant.counted hMoves,
    step_filed hInvariant.shape hInvariant.filed hInvariant.progressed hMoves,
    step_progressed hInvariant.shape hInvariant.filed hInvariant.progressed hMoves, ?_, ?_⟩
  · intro results hSome
    cases hMoves with
    | assembles hSpawned hReceived =>
      injection hSome with hAssembled
      exact ⟨hSpawned, hReceived, hAssembled.symm⟩
    | _ => rw [show b.results = some results from hSome] at hResults; cases hResults
  · rw [List.length_append, List.length_singleton]
    omega

theorem run_invariant (hRun : (Batch.start registry queries).run events = some b) :
    Invariant registry queries events b :=
  Batch.run_induction (start_invariant registry queries)
    (fun _ _ _ _ hPast hStep => step_invariant hPast hStep) hRun

def runningBranches (b : Batch) : List PreparedCall :=
  b.branches.filterMap fun branch =>
    match branch.status with
    | .running => some branch.call
    | _ => none

theorem mem_runningBranches (hMem : call ∈ runningBranches b) :
    ∃ branch ∈ b.branches, branch.status = .running ∧ branch.call = call := by
  obtain ⟨branch, hBranch, hCall⟩ := List.mem_filterMap.mp hMem
  obtain ⟨branchCall, status⟩ := branch
  cases status with
  | running => exact ⟨_, hBranch, rfl, Option.some.inj hCall⟩
  | _ => cases hCall

theorem Shape.branch_type (hShape : Shape registry queries events b) (hMem : branch ∈ b.branches) :
    mayRunInParallel branch.call.query.type = true := by
  have hRouted := routedAt_of_parallel (hShape.branch_mem hMem)
  rw [routedAt_eq] at hRouted
  obtain ⟨query, -, hParallel⟩ := Option.map_eq_some_iff.mp hRouted
  exact routeCall_parallel hParallel

theorem Shape.alone (hShape : Shape registry queries events b) (hMem : call ∈ b.inProgress)
    (hType : mayRunInParallel call.query.type = false) : b.inProgress = [call] := by
  have hSplit : b.inProgress = b.running.toList ++ runningBranches b := rfl
  rw [hSplit] at hMem ⊢
  rcases List.mem_append.mp hMem with hSerial | hBranch
  · have hRunning : b.running = some call := by simpa using hSerial
    have hBefore : b.spawned = false := by
      cases hSpawned : b.spawned with
      | false => rfl
      | true =>
        rw [(hShape.idle hSpawned).1] at hRunning
        cases hRunning
    have hNone : runningBranches b = [] := by
      apply List.eq_nil_iff_forall_not_mem.mpr
      intro other hOther
      obtain ⟨branch, hBranch, hStatus, -⟩ := mem_runningBranches hOther
      rw [hShape.quiet hBefore branch hBranch] at hStatus
      cases hStatus
    rw [hRunning, hNone]
    rfl
  · obtain ⟨branch, hMemBranch, -, hCall⟩ := mem_runningBranches hBranch
    rw [← hCall, hShape.branch_type hMemBranch] at hType
    cases hType

theorem mem_callsOf_of_routedAt {group : Routed → Option PreparedCall} {routed : Routed}
    (hRouted : routedAt registry queries i = some routed) (hGroup : group routed = some call) :
    call ∈ callsOf group registry queries := by
  obtain ⟨r, hRoute, hSnd⟩ := Option.map_eq_some_iff.mp hRouted
  exact List.mem_filterMap.mpr ⟨r, List.mem_iff_getElem?.mpr ⟨i, hRoute⟩, by rw [hSnd]; exact hGroup⟩

theorem Counted.all_reported (hCounted : Counted events b)
    (hReceived : b.received = b.branches.length) :
    b.channel = [] ∧ ∀ branch ∈ b.branches, branch.status = .reported := by
  have hBalance := hCounted.balance
  have hChannel : b.channel.length = 0 := by omega
  have hOwed : Batch.weigh unreported b.branches = 0 := by omega
  refine ⟨List.length_eq_zero_iff.mp hChannel, ?_⟩
  intro branch hMem
  have hBranch : unreported branch.status = 0 := by
    rw [Batch.weigh, List.sum_eq_zero_iff_forall_eq_nat] at hOwed
    exact hOwed _ (List.mem_map.mpr ⟨branch, hMem, rfl⟩)
  cases hStatus : branch.status with
  | reported => rfl
  | _ => rw [hStatus] at hBranch; cases hBranch

section

variable (hInvariant : Invariant registry queries events b)
include hInvariant

theorem Invariant.serial_slot (hSpawned : b.spawned = true)
    (hRouted : routedAt registry queries i = some (.serial call)) :
    ∃ record, b.records[i]? = some (some record) ∧ FromOwnCall events i call record := by
  have hMem : call ∈ callsOf Routed.serial? registry queries :=
    mem_callsOf_of_routedAt hRouted rfl
  have hIndex : call.index = i := by
    rw [routedAt_eq] at hRouted
    obtain ⟨query, -, hSerial⟩ := Option.map_eq_some_iff.mp hRouted
    exact (routeCall_call (by rw [hSerial]; rfl)).1
  have hIdle := hInvariant.shape.idle hSpawned
  rcases hInvariant.progressed.done call hMem with hPending | ⟨record, hRecord⟩
  · simp [hIdle] at hPending
  · rw [hIndex] at hRecord
    exact ⟨record, hRecord, hInvariant.filed.filed i _ call record hRouted rfl hRecord⟩

theorem Invariant.branch_slot (hReceived : b.received = b.branches.length)
    (hRouted : routedAt registry queries i = some (.parallel call)) :
    (∃ record, b.records[i]? = some (some record) ∧ FromOwnCall events i call record) ∨
      b.records[i]? = some none ∧ Event.sendFails i ∈ events ∧
        ∃ outcome, outcomesOf i events = [outcome] := by
  have hMem : call ∈ callsOf Routed.parallel? registry queries :=
    mem_callsOf_of_routedAt hRouted rfl
  have hIndex : call.index = i := by
    rw [routedAt_eq] at hRouted
    obtain ⟨query, -, hParallel⟩ := Option.map_eq_some_iff.mp hRouted
    exact (routeCall_call (by rw [hParallel]; rfl)).1
  rw [← hInvariant.shape.branchCalls] at hMem
  obtain ⟨branch, hBranch, hCall⟩ := List.mem_map.mp hMem
  obtain ⟨hChannel, hReported⟩ := hInvariant.counted.all_reported hReceived
  have hSound := hInvariant.progressed.branches branch hBranch
  simp only [BranchSound, hReported branch hBranch, hCall, hIndex] at hSound
  obtain ⟨hOutcome, hDelivered⟩ := hSound
  obtain ⟨slot, hSlot⟩ : ∃ slot, b.records[i]? = some slot :=
    ⟨_, List.getElem?_eq_getElem (hInvariant.shape.slot_lt hRouted)⟩
  cases slot with
  | some record =>
    exact Or.inl ⟨record, hSlot, hInvariant.filed.filed i _ call record hRouted rfl hSlot⟩
  | none =>
    refine Or.inr ⟨hSlot, ?_, hOutcome⟩
    rcases hDelivered with ⟨record, hRecord⟩ | ⟨report, hReport, -⟩ | hFails
    · rw [hSlot] at hRecord
      cases hRecord
    · rw [hChannel] at hReport
      cases hReport
    · exact hFails

theorem Invariant.slot (hSpawned : b.spawned = true) (hReceived : b.received = b.branches.length)
    {query : InvokeQuery} (hQuery : queries[i]? = some query) : ∃ slot, b.records[i]? = some slot ∧
      (slot.getD (Batch.missingRecord (routeCall registry i query).1)).query =
        (routeCall registry i query).1 ∧
      OwnRecord registry i query events
        (slot.getD (Batch.missingRecord (routeCall registry i query).1)) := by
  have hRouted : routedAt registry queries i = some (routeCall registry i query).2 := by
    rw [routedAt_eq, hQuery]
    rfl
  unfold OwnRecord
  generalize hRound : routeCall registry i query = round at hRouted
  obtain ⟨settled, routed⟩ := round
  cases routed with
  | answered record =>
    refine ⟨some record, hInvariant.filed.answered i record hRouted, ?_, rfl⟩
    have hAnswered : (routeCall registry i query).2 = .answered record := by rw [hRound]
    have hAbout := routeCall_answered hAnswered
    rwa [hRound] at hAbout
  | serial call =>
    have hGroup : (routeCall registry i query).2.call? = some call := by rw [hRound]; rfl
    have hCall := (routeCall_call hGroup).2
    rw [hRound] at hCall
    obtain ⟨record, hSlot, outcome, hOutcome, hRecord⟩ := hInvariant.serial_slot hSpawned hRouted
    have hReports : Reports record outcome := hRecord ▸ runSettled_reports call outcome
    refine ⟨some record, hSlot, ?_, outcome, hOutcome, hRecord, hReports⟩
    rw [Option.getD_some, hRecord, runSettled_query, hCall]
  | parallel call =>
    have hGroup : (routeCall registry i query).2.call? = some call := by rw [hRound]; rfl
    have hCall := (routeCall_call hGroup).2
    rw [hRound] at hCall
    rcases hInvariant.branch_slot hReceived hRouted with
      ⟨record, hSlot, outcome, hOutcome, hRecord⟩ | ⟨hSlot, hFails, outcome, hOutcome⟩
    · have hReports : Reports record outcome := hRecord ▸ runSettled_reports call outcome
      refine ⟨some record, hSlot, ?_, outcome, hOutcome, Or.inl ⟨hRecord, hReports⟩⟩
      rw [Option.getD_some, hRecord, runSettled_query, hCall]
    · exact ⟨none, hSlot, rfl, outcome, hOutcome, Or.inr ⟨hFails, rfl⟩⟩

end

/-- Every run of a batch: once there are results, every query has one record, in
its place, with its own id and name and from its own call, and the collector has
taken every report; serial calls run alone and in batch order; and no run is
longer than its calls allow or stops before there are results. -/
theorem execute_answers (registry : ToolRegistry) (queries : List InvokeQuery)
    (hHooks : ∀ name toolSet, registry.find name = some toolSet → toolSet.KeepsIdentity)
    (events : List Event) (b : Batch) (hRun : (Batch.start registry queries).run events = some b) :
    (∀ results, b.results = some results → results.length = queries.length ∧
      (∀ i query, queries[i]? = some query → ∃ record, results[i]? = some record ∧
        record.query.id = query.id ∧ record.query.name = query.name ∧
        OwnRecord registry i query events record) ∧
      b.channel = [] ∧ events.countP Event.isReceive = b.branches.length ∧
      events.countP Event.isReport = b.branches.length) ∧
    (∀ call ∈ b.inProgress, mayRunInParallel call.query.type = false → b.inProgress = [call]) ∧
    ((begun events).filter (runsAlone registry queries)).Pairwise (· < ·) ∧
    (b.results = none → ∃ event b', b.step event = some b') ∧
    events.length ≤ 5 * queries.length + 2 := by
  have hInvariant := run_invariant hRun
  refine ⟨?_, fun call hMem hType => hInvariant.shape.alone hMem hType, ?_, ?_, ?_⟩
  · intro results hResults
    obtain ⟨hSpawned, hReceived, rfl⟩ := hInvariant.assembled results hResults
    obtain ⟨hChannel, -⟩ := hInvariant.counted.all_reported hReceived
    refine ⟨?_, ?_, hChannel, ?_, ?_⟩
    · simp [Batch.assemble, hInvariant.shape.settled, hInvariant.shape.slots]
    · intro i query hQuery
      obtain ⟨slot, hSlot, hAbout, hOwn⟩ := hInvariant.slot hSpawned hReceived hQuery
      have hIdentity := routeCall_identity hHooks i query
      have hSettled : b.queries[i]? = some (routeCall registry i query).1 := by
        rw [hInvariant.shape.settled, List.getElem?_map, route_getElem?, hQuery]
        rfl
      refine ⟨_, ?_, ?_, ?_, hOwn⟩
      · simp [Batch.assemble, List.getElem?_zipWith, hSettled, hSlot]
      · rw [hAbout]
        exact hIdentity.1
      · rw [hAbout]
        exact hIdentity.2
    · rw [hInvariant.counted.receives, hReceived]
    · rw [hInvariant.counted.reports, hReceived, hChannel]
      rfl
  · have hOrder : ((callsOf Routed.serial? registry queries).map PreparedCall.index).Pairwise
        (· < ·) := callsOf_pairwise serial?_call
    rw [← hInvariant.shape.order] at hOrder
    exact (List.pairwise_append.mp hOrder).1
  · exact exists_step hInvariant.shape hInvariant.counted
  · have hBound := hInvariant.bounded
    omega

def sampleSet : ToolSet :=
  ToolSet.standard "files" fun query =>
    if query.name = "read" then
      .returned (some { writeAttributes := fun q =>
        ({ q with type := .readOnly, security := .trusted }, .returned ()) })
    else .returned (some {})

def sampleRegistry : ToolRegistry where
  lookupTable := [("read", sampleSet), ("write", sampleSet)]

/-- Two reads, a write and an unknown tool, with one id used twice. -/
def sampleQueries : List InvokeQuery :=
  [{ id := "a", name := "read" }, { id := "b", name := "write" }, { id := "a", name := "read" },
    { id := "", name := "missing" }]

/-- The second read reports first, the write fails, and the first read answers
with a query of its own. -/
def sampleEvents : List Event :=
  [.begins 1, .finishes 1 (.threw "disk full"), .spawns, .begins 0, .begins 2,
    .finishes 2 (.returned { output := { raw := "second" } }), .sends 2, .receives,
    .finishes 0 (.returned { query := { id := "z" }, output := { raw := "first" } }), .sends 0,
    .receives, .assembles]

theorem sampleRegistry_keeps (name : String) (toolSet : ToolSet)
    (hFind : sampleRegistry.find name = some toolSet) : toolSet.KeepsIdentity := by
  have hSet : toolSet = sampleSet := by
    simp only [ToolRegistry.find, sampleRegistry, List.lookup_cons, List.lookup_nil] at hFind
    split at hFind
    · exact (Option.some.inj hFind).symm
    · split at hFind
      · exact (Option.some.inj hFind).symm
      · cases hFind
  rw [hSet]
  apply standard_keepsIdentity
  intro query tool hTool
  split at hTool
  · injection hTool with hSome
    rw [← Option.some.inj hSome]
    exact fun q => ⟨⟨rfl, rfl⟩, rfl, rfl⟩
  · injection hTool with hSome
    rw [← Option.some.inj hSome]
    exact fun q => ⟨⟨rfl, rfl⟩, rfl, rfl⟩

theorem execute_answers_sample : ∃ b results,
    (Batch.start sampleRegistry sampleQueries).run sampleEvents = some b ∧
      b.results = some results ∧ results.length = 4 ∧
      results.map (fun record => (record.query.id, record.query.name)) =
        [("a", "read"), ("b", "write"), ("a", "read"), ("", "missing")] := by
  have hRun : ((Batch.start sampleRegistry sampleQueries).run sampleEvents).isSome = true := by
    decide +kernel
  obtain ⟨b, hB⟩ := Option.isSome_iff_exists.mp hRun
  have hResults : (((Batch.start sampleRegistry sampleQueries).run sampleEvents).bind
      fun b => b.results).map (fun results => results.map fun record =>
        (record.query.id, record.query.name)) =
      some [("a", "read"), ("b", "write"), ("a", "read"), ("", "missing")] := by
    decide +kernel
  rw [hB, Option.bind_some] at hResults
  obtain ⟨results, hSome, hIdentity⟩ := Option.map_eq_some_iff.mp hResults
  have hAnswers := (execute_answers sampleRegistry sampleQueries sampleRegistry_keeps sampleEvents
    b hB).1 results hSome
  exact ⟨b, results, hB, hSome, hAnswers.1, hIdentity⟩

end SimplexAgent.Tools
