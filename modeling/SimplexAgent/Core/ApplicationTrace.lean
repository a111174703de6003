import SimplexAgent.Core.ApplicationRun
import SimplexAgent.Loop.Changes

/-!
# Conversations over the life of a worker

A session is traced with the responses that were committed to the conversation and
with those of a summary that is still being written; the latter join the former when
the replacement is committed.

`Keeps` lists what an invariant of the conversation has to survive: a change by the
loop, a time stamp, and the way of a copy from the conversation through a summary to a
replacement. An invariant that does holds in every session (`Session.Traces.kept`).
-/

namespace SimplexAgent.Core

open Dataclass Loop

section Trace

variable {Ω : Type} (host : Host Ω) (config : Configuration)

/-! ## Traces -/

variable {w : Worker Ω}

/-- The responses committed to the conversation, and those of a summary at work. -/
structure Ledger where
  committed : List MessageItem
  drafted : List MessageItem := []

/-- The ledger after one operation. -/
def Session.record (s : Session Ω) (l : Ledger) : Ledger :=
  match s with
  | .running _ _ c => { l with committed := l.committed ++ committing c }
  | .compacting _ _ _ _ => { l with drafted := [] }
  | .summarizing _ _ _ _ _ c => { l with drafted := l.drafted ++ committing c }
  | .replacing a mode segment result replacement w =>
    match commitReplacement host a mode segment result replacement w with
    | .compacted _ _ _ _ _ => { committed := l.committed ++ l.drafted }
    | _ => l
  | _ => l

/-- The sessions of a worker that starts after the responses in `history`. -/
inductive Session.Traces (w : Worker Ω) (history : List MessageItem) : Session Ω → Ledger → Prop
  | start : Session.Traces w history (Session.start host w) { committed := history }
  | step {s : Session Ω} {l : Ledger} (h : Session.Traces w history s l) :
      Session.Traces w history (s.step host config) (s.record host l)

/-! ## Invariants of conversations -/

/-- What an invariant `P` of the conversation has to survive, with `Q` for a summary that
is being written and `R` for a replacement that waits for its commit. -/
structure Keeps (P : List MessageItem → AgentInputState → Prop)
    (Q : List MessageItem → List MessageItem → AgentInputState → Config (Desk Ω) → Prop)
    (R : List MessageItem → List MessageItem → AgentInputState → AgentInputState → Prop) :
    Prop where
  touched : ∀ {log : List MessageItem} {s : AgentInputState} (time : String), P log s →
    P log { s with metaInfo := { s.metaInfo with updatedAt := time } }
  changed : ∀ {log : List MessageItem} {s s' : AgentInputState} {responses : List MessageItem},
    Change (workerEnv host config) s s' responses → P log s → P (log ++ responses) s'
  copied : ∀ {log : List MessageItem} {live : AgentInputState} (d : Desk Ω), P log live →
    Q log [] live ⟨.start, { state := { live with tools := [] }, world := d }⟩
  drafted : ∀ {log drafts : List MessageItem} {live : AgentInputState} {c : Config (Desk Ω)}
    (message : MessageItem), P log live → Q log drafts live c → SoundAt c →
    Prepared (summaryEnv host config) c →
    Q log (drafts ++ committing c) live
      (Loop.step (summaryEnv host config) summaryOptions (some message) c)
  replaced : ∀ {log drafts : List MessageItem} {live replacement : AgentInputState}
    {c : Config (Desk Ω)} {plan : CompactPlan} {time summary : String}, P log live →
    Q log drafts live c → c.point = .returned → c.run.result.status = .completed →
    draftSummary c.run.state = .ok summary →
    replacementOf host config plan live c.run.state time summary = .ok replacement →
    R log drafts live replacement
  adopted : ∀ {log drafts : List MessageItem} {live replacement : AgentInputState}, P log live →
    R log drafts live replacement → P (log ++ drafts) replacement

variable {host : Host Ω} {config : Configuration} {P : List MessageItem → AgentInputState → Prop}
variable {l : Ledger}

  {Q : List MessageItem → List MessageItem → AgentInputState → Config (Desk Ω) → Prop}
  {R : List MessageItem → List MessageItem → AgentInputState → AgentInputState → Prop}

variable (host config P Q R) in
def Kept (s : Session Ω) (l : Ledger) : Prop :=
  P l.committed s.live ∧
    match s with
    | .running _ _ c => SoundAt c ∧ Prepared (workerEnv host config) c
    | .summarizing _ _ _ _ live c =>
      Q l.committed l.drafted live c ∧ SoundAt c ∧ Prepared (summaryEnv host config) c
    | .summarized _ _ _ _ outcome draft w =>
      ∀ result, outcome = .ok result → ∃ c, Q l.committed l.drafted w.state c ∧
        c.point = .returned ∧ c.run.result = result ∧ c.run.state = draft
    | .replacing _ _ _ _ replacement w => R l.committed l.drafted w.state replacement
    | _ => True

theorem Keeps.finishController (k : Keeps host config P Q R) {log : List MessageItem}
    (result : RunResult) (h : P log w.state) : P log (finishController result w).state := by
  unfold Core.finishController
  cases hLoop : w.state.loop with
  | none => exact h
  | some p =>
    show P log (if p.phase = .ready then _ else w : Worker Ω).state
    by_cases hPhase : p.phase = .ready
    · rw [if_pos hPhase]
      have hChange := k.changed (.progress w.state (fun p => { p with
        status := if result.status = .cancelled then .cancelled else .failed
        error := result.error }) fun _ => rfl) h
      rw [hLoop, List.append_nil] at hChange
      exact hChange
    · rwa [if_neg hPhase]

theorem Keeps.decideCompact (k : Keeps host config P Q R) (a : Active) (result : RunResult)
    (h : P l.committed w.state) :
    Kept host config P Q R (decideCompact host config a result w) l := by
  unfold Core.decideCompact
  split
  · exact ⟨k.finishController _ h, trivial⟩
  · split
    · exact ⟨k.finishController _ h, trivial⟩
    · split
      · exact ⟨k.finishController _ h, trivial⟩
      · dsimp only
        split
        · exact ⟨h, trivial⟩
        · exact ⟨h, trivial⟩

theorem Keeps.afterSegment (k : Keeps host config P Q R) (a : Active)
    (outcome : Except Failure RunResult) (h : P l.committed w.state) :
    Kept host config P Q R (afterSegment host config a outcome w) l := by
  unfold Core.afterSegment
  cases outcome with
  | error failure => exact ⟨h, trivial⟩
  | ok result =>
    dsimp only
    split
    · exact ⟨h, trivial⟩
    · split
      · exact k.decideCompact _ _ h
      · exact ⟨h, trivial⟩

theorem kept_beginSegment (a : Active) (message : Option MessageItem) (h : P l.committed w.state) :
    Kept host config P Q R (beginSegment a message w) l :=
  ⟨h, rfl, trivial⟩

theorem Keeps.beginCompact (k : Keeps host config P Q R) {log : List MessageItem} (a : Active)
    (mode : CompactMode) (segment : RunResult) (h : P log w.state) :
    Kept host config P Q R (beginCompact host a mode segment w) ⟨log, []⟩ := by
  unfold Core.beginCompact
  split
  · exact ⟨h, trivial⟩
  · dsimp only
    split
    · exact ⟨h, trivial⟩
    · split
      · exact ⟨h, trivial⟩
      · exact ⟨h, k.copied _ h, rfl, trivial⟩

theorem Keeps.afterSummary (k : Keeps host config P Q R) (a : Active) (mode : CompactMode)
    (segment : RunResult) (plan : CompactPlan) {outcome : Except Failure RunResult}
    {draft : AgentInputState} (h : P l.committed w.state)
    (hDraft : ∀ result, outcome = .ok result → ∃ c, Q l.committed l.drafted w.state c ∧ c.point = .returned ∧ c.run.result = result ∧ c.run.state = draft) :
    Kept host config P Q R (afterSummary host config a mode segment plan outcome draft w) l := by
  unfold Core.afterSummary
  cases outcome with
  | error failure => exact ⟨h, trivial⟩
  | ok result =>
    dsimp only
    split
    · exact ⟨h, trivial⟩
    · split
      · exact ⟨h, trivial⟩
      · rename_i hStatus
        split
        · exact ⟨h, trivial⟩
        · split
          · exact ⟨h, trivial⟩
          · rename_i replacement hReplacement
            obtain ⟨c, hQ, hReturned, rfl, rfl⟩ := hDraft result rfl
            obtain ⟨summary, hSummary, hMade⟩ := Verified.Tables.bind_ok hReplacement
            exact ⟨h, k.replaced h hQ hReturned (Decidable.not_not.mp hStatus) hSummary hMade⟩

theorem Keeps.commitReplacement (k : Keeps host config P Q R) (a : Active) (mode : CompactMode)
    (segment result : RunResult) {replacement : AgentInputState} (h : P l.committed w.state)
    (hR : R l.committed l.drafted w.state replacement) :
    Kept host config P Q R (commitReplacement host a mode segment result replacement w)
      (match commitReplacement host a mode segment result replacement w with
        | .compacted _ _ _ _ _ => { committed := l.committed ++ l.drafted }
        | _ => l) := by
  unfold Core.commitReplacement
  split
  · exact ⟨h, trivial⟩
  · split
    · exact ⟨h, trivial⟩
    · split
      · exact ⟨h, trivial⟩
      · split
        · exact ⟨h, trivial⟩
        · exact ⟨k.adopted h hR, trivial⟩

theorem kept_reportCompacted (a : Active) (mode : CompactMode) (segment result : RunResult)
    (h : P l.committed w.state) :
    Kept host config P Q R (reportCompacted host a mode segment result w) l := by
  unfold Core.reportCompacted
  split
  · exact ⟨h, trivial⟩
  · dsimp only
    split
    · exact ⟨h, trivial⟩
    · exact ⟨h, trivial⟩

theorem Keeps.afterAutomatic (k : Keeps host config P Q R) (a : Active) (segment : RunResult)
    (outcome : Except Failure RunResult) (h : P l.committed w.state) :
    Kept host config P Q R (afterAutomatic host config a segment outcome w) l := by
  unfold Core.afterAutomatic
  extract_lets result a
  split
  · exact ⟨h, trivial⟩
  · split
    · exact ⟨k.finishController _ h, trivial⟩
    · split
      · exact ⟨k.finishController _ h, trivial⟩
      · exact kept_beginSegment _ _ h

theorem Keeps.conclude (k : Keeps host config P Q R) {log : List MessageItem} (a : Active)
    (outcome : Except Failure RunResult) (h : P log w.state) :
    P log (conclude a outcome w).2.state := by
  unfold Core.conclude
  cases outcome with
  | ok result => exact h
  | error failure =>
    dsimp only
    split
    · exact h
    · exact k.finishController _ h

theorem Keeps.settleRequest (k : Keeps host config P Q R) (a : Active)
    (outcome : Except Failure RunResult) (h : P l.committed w.state) :
    Kept host config P Q R (settleRequest host config a outcome w) l := by
  have hConcluded := k.conclude a outcome h
  unfold Core.settleRequest
  dsimp only
  split
  · exact ⟨hConcluded, trivial⟩
  · split
    · split
      · exact ⟨hConcluded, trivial⟩
      · exact ⟨hConcluded, trivial⟩
    · exact ⟨hConcluded, trivial⟩

theorem kept_reportRequest (h : P l.committed w.state) :
    Kept host config P Q R (reportRequest host w) l := by
  unfold Core.reportRequest
  split
  · exact ⟨h, trivial⟩
  · split
    · exact ⟨h, trivial⟩
    · exact ⟨h, trivial⟩

theorem Keeps.beginRequest (k : Keeps host config P Q R) (input : Input)
    (h : P l.committed w.state) : Kept host config P Q R (beginRequest host config input w) l := by
  have hTouched : ∀ w' : Worker Ω, P l.committed w'.state →
      P l.committed (if input.operation = .compact then w'
        else { state := (touch host w'.state w'.desk).1, desk := (touch host w'.state w'.desk).2 } :
          Worker Ω).state := by
    intro w' hw
    split
    · exact hw
    · exact k.touched _ hw
  unfold Core.beginRequest
  dsimp only
  split
  · exact ⟨hTouched _ h, trivial⟩
  · split
    · exact ⟨hTouched _ h, trivial⟩
    · split
      · exact ⟨h, trivial⟩
      · split
        · exact kept_beginSegment _ _ (k.touched _ h)
        · exact kept_beginSegment _ _ (k.touched _ h)

theorem Keeps.consume (k : Keeps host config P Q R) (h : P l.committed w.state) :
    Kept host config P Q R (consume host config w) l := by
  unfold Core.consume
  split
  · exact ⟨h, trivial⟩
  · dsimp only
    split
    · exact k.beginRequest _ h
    · split
      · exact ⟨h, trivial⟩
      · exact ⟨h, trivial⟩

theorem Keeps.closeDown (k : Keeps host config P Q R) (h : P l.committed w.state) :
    Kept host config P Q R (closeDown host config w) l := by
  unfold Core.closeDown
  split
  · exact ⟨k.touched _ h, trivial⟩
  · exact ⟨h, trivial⟩

/-- **One operation keeps the invariant.** -/
theorem Keeps.step (k : Keeps host config P Q R) {s : Session Ω} (h : Kept host config P Q R s l) :
    Kept host config P Q R (s.step host config) (s.record host l) := by
  cases s with
  | idle w => exact k.consume h.1
  | running a message c =>
    obtain ⟨hLive, hSound, hPrepared⟩ := h
    have hStep : Change (workerEnv host config) c.run.state
        (Loop.step (workerEnv host config) (runOptions config) message c).run.state
        (committing c) := step_change c hSound hPrepared
    have hSame : P (l.committed ++ []) c.run.state := by
      rw [List.append_nil]
      exact hLive
    have hNext : Kept host config P Q R
        (.running a message (Loop.step (workerEnv host config) (runOptions config) message c))
        { l with committed := l.committed ++ committing c } :=
      ⟨k.changed hStep hLive, step_sound c hSound, step_prepared c hPrepared⟩
    obtain ⟨point, run⟩ := c
    cases point with
    | returned | escaped failure => exact ⟨hSame, trivial⟩
    | _ => exact hNext
  | returned a outcome w => exact k.afterSegment a outcome h.1
  | compacting a mode segment w => exact k.beginCompact a mode segment h.1
  | summarizing a mode segment plan live c =>
    obtain ⟨hLive, hDraft, hSound, hPrepared⟩ := h
    have hNext : Kept host config P Q R
        (.summarizing a mode segment plan live (Loop.step (summaryEnv host config)
          summaryOptions (some (instruction config mode plan)) c))
        { l with drafted := l.drafted ++ committing c } :=
      ⟨hLive, k.drafted _ hLive hDraft hSound hPrepared, step_sound c hSound,
        step_prepared c hPrepared⟩
    obtain ⟨point, run⟩ := c
    cases point with
    | returned =>
      refine ⟨hLive, ?_⟩
      rintro result ⟨rfl⟩
      exact ⟨_, by simpa [Session.record, committing] using hDraft, rfl, rfl, rfl⟩
    | escaped failure =>
      refine ⟨hLive, ?_⟩
      rintro result ⟨⟩
    | _ => exact hNext
  | summarized a mode segment plan outcome draft w =>
    exact k.afterSummary a mode segment plan h.1 h.2
  | replacing a mode segment result replacement w =>
    exact k.commitReplacement a mode segment result h.1 h.2
  | compacted a mode segment result w => exact kept_reportCompacted a mode segment result h.1
  | abandoning a mode segment outcome w => exact ⟨h.1, trivial⟩
  | compactReturned a mode segment outcome w =>
    cases mode with
    | manual => exact ⟨h.1, trivial⟩
    | automatic => exact k.afterAutomatic a segment outcome h.1
  | settling a outcome w => exact k.settleRequest a outcome h.1
  | reporting a result w => exact kept_reportRequest h.1
  | stopped w => exact k.closeDown h.1
  | closed w => exact h

theorem kept_start {history : List MessageItem} (h : P history w.state) :
    Kept host config P Q R (Session.start host w) { committed := history } := by
  unfold Session.start
  split
  · exact ⟨h, trivial⟩
  · exact ⟨h, trivial⟩

/-- **An invariant of the conversation over the life of a worker.** -/
theorem Session.Traces.kept {history : List MessageItem} {s : Session Ω}
    (h : Session.Traces host config w history s l) (k : Keeps host config P Q R)
    (hStart : P history w.state) : Kept host config P Q R s l := by
  induction h with
  | start => exact kept_start hStart
  | step h ih => exact k.step ih

/-- The ledger of the session after some operations. -/
def Session.recorded (host : Host Ω) (config : Configuration) (w : Worker Ω)
    (history : List MessageItem) : Nat → Ledger
  | 0 => { committed := history }
  | n + 1 => (Session.after host config w n).record host (Session.recorded host config w history n)

theorem Session.traces_after (history : List MessageItem) (n : Nat) :
    Session.Traces host config w history (Session.after host config w n)
      (Session.recorded host config w history n) := by
  induction n with
  | zero => exact .start
  | succ n ih => exact .step ih

end Trace

/-! ## A session that compacts itself -/

/-- A model that calls a tool until it is asked for a summary: only then does the conversation
have a second turn. The sizes of prompts play no part. -/
def compactingHost (call summary : Option TokenCost) : Host Unit :=
  { quietHost with
    next := fun _ => (some
      { requestId := "request", message := some { type := .userInput, role := "user" } }, ())
    converse := fun state _ => (.ok (if state.turns.length = 2
      then { type := .modelResponse, role := "assistant", content := [{ raw := "memory" }],
             cost := summary }
      else { type := .modelResponse, role := "assistant", cost := call,
             invokes := some [{ id := "call", name := "tool" }] }), ())
    execute := fun calls _ => (.ok (calls.map fun call => { query := call }), ())
    reserveArchive := fun _ => (.ok (), ())
    promptBytes := fun _ => .ok 0 }

def meteredHost : Host Unit := compactingHost (some ⟨5, 1, 3⟩) (some ⟨9, 2, 0⟩)

/-- Compaction after every second exchange, or where the first one has a cost. -/
def compactingConfiguration : Configuration where
  sessionId := "session"
  maxExchanges := 2
  autoCompactThreshold := 1
  compactPrompt := "summarize"
  autoCompactPrompt := "summarize"
  autoCompactContinuePrompt := "continue"
  contextWindowTokens := 1000

/-- A worker that starts on a conversation without steps. -/
def freshWorker : Worker Unit :=
  { state := { metaInfo := { sessionId := "session" } }, desk := { outer := () } }

/-- Its first request, with a compaction in the middle: the worker is idle again. -/
def compactedSession : Session Unit :=
  Session.after meteredHost compactingConfiguration freshWorker 144

/-- A response, the summary that was committed, and the response after it. -/
def compactedLedger : Ledger :=
  Session.recorded meteredHost compactingConfiguration freshWorker [] 144

theorem compactedSession_traces : Session.Traces meteredHost compactingConfiguration freshWorker []
    compactedSession compactedLedger :=
  Session.traces_after [] 144

theorem compactedSession_view : compactedSession.isIdle = true ∧
    compactedLedger.committed.map MessageItem.cost =
      [some ⟨5, 1, 3⟩, some ⟨9, 2, 0⟩, some ⟨5, 1, 3⟩] ∧
    (countUpdate meteredHost compactingConfiguration compactedSession.live).isOk = true ∧
    (ContextStatistic.estimatedZeroRequestTokens meteredHost.encodedBytes
      compactedSession.live.systemPrompt compactedSession.live.tools).isOk = true ∧
    (syncExternalStatus compactedSession.live.extras ContextStatistic.name (.obj [])).isOk = true := by
  decide +kernel

end SimplexAgent.Core
