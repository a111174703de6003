import SimplexAgent.Tools.ToolSet

/-!
# Running a batch of calls

`tools/registry.hpp`. The registry settles a whole batch without waiting, runs
its serial calls one after the other, spawns the parallel ones together, collects
one report per branch, and assembles one record per query.

The batch waits at many places, and between two of them anything can happen in
the parallel branches. So a batch is a machine: an event is one thing that
happens, a call beginning or coming to its outcome, a branch handing in its
report, the collector taking one, and `run` goes through any list of them. The
routing before the first wait is a plain function.

A branch hands in exactly one report. Where sending its record fails, the
branch's completion handler sends an empty report in its place.
-/

namespace SimplexAgent.Tools

open Dataclass

/-- The routing table: which set provides a tool name. -/
structure ToolRegistry where
  lookupTable : List (String × ToolSet)

def ToolRegistry.find (registry : ToolRegistry) (name : String) : Option ToolSet :=
  registry.lookupTable.lookup name

/-- Only these two may overlap their neighbours. -/
def mayRunInParallel (type : InvokeType) : Bool :=
  type == .readOnly || type == .parallWrite

/-- One settled call: where it sits in the batch, the set and the tool it was
routed to, and the settled query. -/
structure PreparedCall where
  index : Nat
  toolSet : ToolSet
  tool : Option Tool
  query : InvokeQuery

def brokenSet (toolSet : ToolSet) (phase what : String) (query : InvokeQuery) : InvokeReturn :=
  InvokeException.toInvokeReturn
    { stage := .unknown
      message := "toolset \"" ++ toolSet.name ++ "\" broke its contract " ++ phase ++ ": " ++ what
      query := query }

def runSettled (call : PreparedCall) : Outcome InvokeReturn → InvokeReturn
  | .returned record => correlate record call.query
  | .failed e => brokenSet call.toolSet "out of execute()" e.what call.query
  | .threw what => brokenSet call.toolSet "out of execute()" what call.query
  | .unknown => brokenSet call.toolSet "out of execute()" unknownError call.query

@[simp] theorem runSettled_query (call : PreparedCall) (outcome : Outcome InvokeReturn) :
    (runSettled call outcome).query = call.query := by
  cases outcome with
  | returned record => exact correlate_query record call.query
  | failed e | threw what | unknown => rfl

/-! ## Routing -/

/-- What routing makes of a query: a record at once, or a call for one of the two
groups. -/
inductive Routed where
  | answered (record : InvokeReturn)
  | serial (call : PreparedCall)
  | parallel (call : PreparedCall)

def Routed.record? : Routed → Option InvokeReturn
  | .answered record => some record
  | _ => none

def Routed.serial? : Routed → Option PreparedCall
  | .serial call => some call
  | _ => none

def Routed.parallel? : Routed → Option PreparedCall
  | .parallel call => some call
  | _ => none

def notProvided (query : InvokeQuery) : InvokeException where
  stage := .dispatch
  message := "no toolset in the registry provides a tool named \"" ++ query.name ++ "\""
  query := query

def routeCall (registry : ToolRegistry) (index : Nat) (query : InvokeQuery) :
    InvokeQuery × Routed :=
  match registry.find query.name with
  | none => (query, .answered (notProvided query).toInvokeReturn)
  | some toolSet =>
    match toolSet.prepare query with
    | (settled, .returned tool) =>
      let call : PreparedCall :=
        { index := index, toolSet := toolSet, tool := tool, query := settled }
      (settled, if mayRunInParallel settled.type then .parallel call else .serial call)
    | (settled, .failed e) => (settled, .answered (e.toInvokeReturnFor settled))
    | (settled, .threw what) =>
      (settled, .answered (brokenSet toolSet "while settling the call" what settled))
    | (settled, .unknown) =>
      (settled, .answered (brokenSet toolSet "while settling the call" unknownError settled))

/-- The rounds of the routing loop. They touch nothing in common. -/
def route (registry : ToolRegistry) (queries : List InvokeQuery) : List (InvokeQuery × Routed) :=
  queries.mapIdx fun index query => routeCall registry index query

/-! ## The batch as a machine -/

/-- What a branch reports: the position of its call, and the record. -/
structure Report where
  index : Nat
  record : InvokeReturn

/-- How far a parallel branch has come. -/
inductive BranchStatus where
  | waiting
  | running
  | finished (record : InvokeReturn)
  | undelivered
  | reported

structure Branch where
  call : PreparedCall
  status : BranchStatus

/-- A batch between two events: the settled queries, the record slots, the serial
calls that have not begun and the one that is running, the branches, which may
run once they are spawned, the channel, how many reports the collector has taken,
and the results once they are assembled. -/
structure Batch where
  queries : List InvokeQuery
  records : List (Option InvokeReturn)
  serialCalls : List PreparedCall
  running : Option PreparedCall
  spawned : Bool
  branches : List Branch
  channel : List (Option Report)
  received : Nat
  results : Option (List InvokeReturn)

/-- What can happen to a batch. Calls are named by their position. -/
inductive Event where
  | begins (index : Nat)
  | finishes (index : Nat) (outcome : Outcome InvokeReturn)
  | spawns
  | sends (index : Nat)
  | sendFails (index : Nat)
  | reportsEmpty (index : Nat)
  | receives
  | assembles

namespace Batch

/-- The batch when the routing loop is done. -/
def start (registry : ToolRegistry) (queries : List InvokeQuery) : Batch :=
  let routes := route registry queries
  { queries := routes.map Prod.fst
    records := routes.map fun r => r.2.record?
    serialCalls := routes.filterMap fun r => r.2.serial?
    running := none
    spawned := false
    branches := (routes.filterMap fun r => r.2.parallel?).map fun call =>
      { call := call, status := .waiting }
    channel := []
    received := 0
    results := none }

def branch? (b : Batch) (index : Nat) : Option Branch :=
  b.branches.find? fun branch => branch.call.index == index

/-- The branches with one of them moved on. -/
def setStatus (b : Batch) (index : Nat) (status : BranchStatus) : List Branch :=
  b.branches.map fun branch =>
    if branch.call.index = index then { branch with status := status } else branch

/-- The record standing in for a call whose report was never delivered. -/
def missingRecord (query : InvokeQuery) : InvokeReturn :=
  InvokeException.toInvokeReturn
    { stage := .unknown
      message := "the batch produced no record for this call"
      query := query }

def assemble (queries : List InvokeQuery) (records : List (Option InvokeReturn)) :
    List InvokeReturn :=
  List.zipWith (fun query record => record.getD (missingRecord query)) queries records

/-- The serial loop awaits the next of its calls. -/
def beginSerial (b : Batch) (index : Nat) : Option Batch :=
  match b.running, b.serialCalls with
  | none, call :: rest =>
    if call.index = index then some { b with running := some call, serialCalls := rest }
    else none
  | _, _ => none

/-- The serial call in progress files its record. -/
def finishSerial (b : Batch) (index : Nat) (outcome : Outcome InvokeReturn) : Option Batch :=
  match b.running with
  | some call =>
    if call.index = index then
      some { b with
        running := none
        records := b.records.set index (some (runSettled call outcome)) }
    else none
  | none => none

/-- A spawned branch is resumed for the first time. -/
def beginBranch (b : Batch) (index : Nat) : Option Batch :=
  match b.branch? index with
  | some { status := .waiting, .. } => some { b with branches := b.setStatus index .running }
  | _ => none

def finishBranch (b : Batch) (index : Nat) (outcome : Outcome InvokeReturn) : Option Batch :=
  match b.branch? index with
  | some { call, status := .running } =>
    some { b with branches := b.setStatus index (.finished (runSettled call outcome)) }
  | _ => none

/-- A branch puts its report into the channel, which has room for the group. -/
def sendReport (b : Batch) (index : Nat) : Option Batch :=
  match b.branch? index with
  | some { call, status := .finished record } =>
    if b.channel.length < b.branches.length then
      some { b with
        branches := b.setStatus index .reported
        channel := b.channel ++ [some { index := call.index, record := record }] }
    else none
  | _ => none

def sendFails (b : Batch) (index : Nat) : Option Batch :=
  match b.branch? index with
  | some { status := .finished _, .. } =>
    some { b with branches := b.setStatus index .undelivered }
  | _ => none

def reportEmpty (b : Batch) (index : Nat) : Option Batch :=
  match b.branch? index with
  | some { status := .undelivered, .. } =>
    if b.channel.length < b.branches.length then
      some { b with
        branches := b.setStatus index .reported
        channel := b.channel ++ [none] }
    else none
  | _ => none

/-- The slots after the collector took a report. -/
def file (records : List (Option InvokeReturn)) : Option Report → List (Option InvokeReturn)
  | some report => records.set report.index (some report.record)
  | none => records

/-- The collector takes the report at the head of the channel, one receive for
each branch. -/
def receive (b : Batch) : Option Batch :=
  match b.channel with
  | report :: rest =>
    if b.received < b.branches.length then
      some { b with
        channel := rest
        received := b.received + 1
        records := file b.records report }
    else none
  | [] => none

/-- One event. The branches exist once the serial loop has ended, and nothing
happens after the assembly. -/
def step (b : Batch) (event : Event) : Option Batch :=
  match b.results with
  | some _ => none
  | none =>
    match b.spawned, event with
    | false, .begins index => b.beginSerial index
    | false, .finishes index outcome => b.finishSerial index outcome
    | false, .spawns =>
      if b.running.isNone ∧ b.serialCalls = [] then some { b with spawned := true } else none
    | true, .begins index => b.beginBranch index
    | true, .finishes index outcome => b.finishBranch index outcome
    | true, .sends index => b.sendReport index
    | true, .sendFails index => b.sendFails index
    | true, .reportsEmpty index => b.reportEmpty index
    | true, .receives => b.receive
    | true, .assembles =>
      if b.received = b.branches.length then
        some { b with results := some (assemble b.queries b.records) }
      else none
    | _, _ => none

/-- Any list of events, each of them possible when it happens. -/
def run (b : Batch) : List Event → Option Batch
  | [] => some b
  | event :: events => (b.step event).bind fun b' => b'.run events

/-- The calls of the batch whose execution has begun and not ended. -/
def inProgress (b : Batch) : List PreparedCall :=
  b.running.toList ++ b.branches.filterMap fun branch =>
    match branch.status with
    | .running => some branch.call
    | _ => none

end Batch

end SimplexAgent.Tools
