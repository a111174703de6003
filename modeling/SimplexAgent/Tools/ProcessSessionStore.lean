import SimplexAgent.Verified.KeyedTable
import Mathlib

/-!
# The process session store

`ProcessSessionStore` of the process toolset: children under names that the model can
come back to, with a bound on how many are kept. The table, the id counter and the
number of reservations are guarded by one mutex that is never held across a suspension,
so an interleaving is a sequence of critical sections. `Event` has one constructor per
section and per place where a call can fail or be cancelled.

A call of `spawn` is known by its position, and so is the session object it builds:
`found->second == session` compares positions. What the children do is outside: whether
one has exited is an argument of the event that looks.
-/

namespace SimplexAgent.Tools.Process

open Verified.KeyedTable

abbrev SessionId := String

/-- How far a call of `spawn` has got. -/
inductive SpawnPhase where
  /-- The store was full. -/
  | rejected
  /-- The slot is reserved; the child is being launched. -/
  | launching
  /-- The id is minted; the I/O tasks are being started. -/
  | starting (id : SessionId)
  /-- The session is published; the initial wait. -/
  | waiting (id : SessionId)
  | returned (id : SessionId)
  /-- An exception or a cancellation was caught; the child is being shut down.
  `reserved` is the reservation that is still to be given back. -/
  | unwinding (id : SessionId) (reserved : Bool)
  /-- The table was looked at; the scope of the reservation is being left. -/
  | rethrowing (id : SessionId) (reserved : Bool)
  | failed (id : SessionId)
  deriving DecidableEq

/-- How far a call of `release`, or of `read_session` with `release`, has got. -/
inductive ReleasePhase where
  /-- The session was found and its child has exited; the handle is being joined. -/
  | joining (session : Nat) (id : SessionId)
  /-- `false`: unknown, still running, or removed by somebody else. -/
  | refused
  | released (session : Nat)
  /-- An exception or a cancellation. -/
  | threw
  deriving DecidableEq

/-- The store, with the calls on it. `minted` is history that the code does not keep:
the spawns that were given an id, in that order. -/
structure ProcessSessionStore where
  sessions : List (SessionId × Nat) := []
  nextId : UInt64 := 1
  pendingSpawns : UInt64 := 0
  spawns : List SpawnPhase := []
  releases : List ReleasePhase := []
  minted : List Nat := []

inductive Event where
  /-- `spawn` enters, and reserves a slot if there is one. -/
  | spawn
  /-- The child is launched and the id minted. -/
  | mint (spawn : Nat)
  /-- The I/O tasks run: `publish_session`. -/
  | publish (spawn : Nat)
  /-- The initial wait is over, or there is none. -/
  | finish (spawn : Nat)
  /-- An exception or a cancellation, wherever the call is. -/
  | fail (spawn : Nat)
  /-- The rollback looks for its session in the table. -/
  | rollBack (spawn : Nat)
  /-- The exception leaves `spawn`. -/
  | rethrow (spawn : Nat)
  /-- `release` enters, or `read_session`, which may not want to release. -/
  | release (id : SessionId) (wanted exited : Bool)
  | removeSession (release : Nat)
  | failRelease (release : Nat)
  /-- The last section of `shutdown`. -/
  | shutdown

section Step

variable (maxSessions : UInt64) (incarnation : String)

/-- `mint_id_locked`: the text of an id. -/
def mintId (n : UInt64) : SessionId := "proc_" ++ incarnation ++ "_" ++ toString n.toNat

namespace ProcessSessionStore

/-- `find_session`. -/
def findSession (s : ProcessSessionStore) (id : SessionId) : Option Nat := s.sessions.lookup id

/-- `_sessions.erase`, if the entry of the id is this session. -/
def eraseOwn (s : ProcessSessionStore) (id : SessionId) (session : Nat) :
    List (SessionId × Nat) :=
  if s.findSession id = some session then drop s.sessions id else s.sessions

def failSpawn (s : ProcessSessionStore) (spawn : Nat) : ProcessSessionStore :=
  match s.spawns[spawn]? with
  | some .launching => { s with spawns := s.spawns.set spawn (.unwinding "" true) }
  | some (.starting id) => { s with spawns := s.spawns.set spawn (.unwinding id true) }
  | some (.waiting id) => { s with spawns := s.spawns.set spawn (.unwinding id false) }
  | _ => s

/-- One critical section, or one exit. Events that do not fit the phase of their call
change nothing. -/
def step (s : ProcessSessionStore) : Event → ProcessSessionStore
  | .spawn =>
    if maxSessions ≤ UInt64.ofNat s.sessions.length + s.pendingSpawns then
      { s with spawns := s.spawns ++ [.rejected] }
    else
      { s with pendingSpawns := s.pendingSpawns + 1, spawns := s.spawns ++ [.launching] }
  | .mint spawn =>
    if s.spawns[spawn]? = some .launching then
      { s with
        nextId := s.nextId + 1
        spawns := s.spawns.set spawn (.starting (mintId incarnation s.nextId))
        minted := s.minted ++ [spawn] }
    else s
  | .publish spawn =>
    match s.spawns[spawn]? with
    | some (.starting id) =>
      { s with
        sessions := emplace s.sessions id spawn
        pendingSpawns := s.pendingSpawns - 1
        spawns := s.spawns.set spawn (.waiting id) }
    | _ => s
  | .finish spawn =>
    match s.spawns[spawn]? with
    | some (.waiting id) => { s with spawns := s.spawns.set spawn (.returned id) }
    | _ => s
  | .fail spawn => s.failSpawn spawn
  | .rollBack spawn =>
    match s.spawns[spawn]? with
    | some (.unwinding id reserved) =>
      { s with
        sessions := s.eraseOwn id spawn
        spawns := s.spawns.set spawn (.rethrowing id reserved) }
    | _ => s
  | .rethrow spawn =>
    match s.spawns[spawn]? with
    | some (.rethrowing id reserved) =>
      { s with
        pendingSpawns := if reserved then s.pendingSpawns - 1 else s.pendingSpawns
        spawns := s.spawns.set spawn (.failed id) }
    | _ => s
  | .release id wanted exited =>
    match s.findSession id with
    | some session =>
      { s with releases := s.releases ++
          [if wanted && exited then .joining session id else .refused] }
    | none => { s with releases := s.releases ++ [.refused] }
  | .removeSession release =>
    match s.releases[release]? with
    | some (.joining session id) =>
      if s.findSession id = some session then
        { s with
          sessions := drop s.sessions id
          releases := s.releases.set release (.released session) }
      else { s with releases := s.releases.set release .refused }
    | _ => s
  | .failRelease release =>
    match s.releases[release]? with
    | some (.joining _ _) => { s with releases := s.releases.set release .threw }
    | _ => s
  | .shutdown => { s with sessions := [] }

def after (events : List Event) : ProcessSessionStore :=
  events.foldl (step maxSessions incarnation) {}

end ProcessSessionStore

end Step

/-! ## Phases -/

namespace SpawnPhase

/-- The reservation of the call is still to be given back or to become a session. -/
def reserved : SpawnPhase → Bool
  | .launching | .starting _ => true
  | .unwinding _ reserved | .rethrowing _ reserved => reserved
  | .rejected | .waiting _ | .returned _ | .failed _ => false

/-- The call has not come to its end. -/
def inFlight : SpawnPhase → Bool
  | .rejected | .returned _ | .failed _ => false
  | _ => true

/-- The session has been put into the table. -/
def published : SpawnPhase → Bool
  | .waiting _ | .returned _ | .unwinding _ false | .rethrowing _ false => true
  | _ => false

/-- The id of the call, empty while there is none. -/
def id : SpawnPhase → SessionId
  | .rejected | .launching => ""
  | .starting id | .waiting id | .returned id | .failed id => id
  | .unwinding id _ | .rethrowing id _ => id

/-- The session is in the table under this id, unless it was removed. -/
def PublishedAs : SpawnPhase → SessionId → Prop
  | .waiting i, id | .returned i, id | .unwinding i false, id => i = id
  | _, _ => False

/-- The session will not be published any more. -/
def past : SpawnPhase → Bool
  | .launching | .starting _ => false
  | _ => true

def rolledBack : SpawnPhase → Bool
  | .rethrowing _ _ | .failed _ => true
  | _ => false

theorem reserved_eq (phase : SpawnPhase) :
    phase.reserved = (phase.inFlight && !phase.published) := by
  cases phase with
  | unwinding id reserved | rethrowing id reserved => cases reserved <;> rfl
  | _ => rfl

theorem PublishedAs.past {phase : SpawnPhase} {i : SessionId} (h : phase.PublishedAs i) :
    phase.past = true := by
  cases phase <;> first | rfl | cases h

theorem PublishedAs.unique {phase : SpawnPhase} {i j : SessionId} (h : phase.PublishedAs i)
    (h' : phase.PublishedAs j) : i = j := by
  cases phase with
  | unwinding k reserved =>
    cases reserved with
    | true => cases h
    | false => exact h.symm.trans h'
  | waiting k | returned k => exact h.symm.trans h'
  | _ => cases h

theorem PublishedAs.not_rolledBack {phase : SpawnPhase} {i : SessionId}
    (h : phase.PublishedAs i) : phase.rolledBack = false := by
  cases phase <;> first | rfl | cases h

end SpawnPhase

/-! ## The invariant -/

namespace ProcessSessionStore

variable {maxSessions : UInt64} {incarnation : String}
variable {s : ProcessSessionStore} {releases : List ReleasePhase} {t : Nat}

/-- What every state of a store has in common. -/
structure Sound (maxSessions : UInt64) (incarnation : String) (s : ProcessSessionStore) :
    Prop where
  keyed : Keyed s.sessions
  /-- Entries belong to calls that have published them. -/
  stored : ∀ id t, (id, t) ∈ s.sessions → ∃ phase, s.spawns[t]? = some phase ∧ phase.PublishedAs id
  pending : s.pendingSpawns.toNat = s.spawns.countP SpawnPhase.reserved
  budget : s.sessions.length + s.pendingSpawns.toNat ≤ maxSessions.toNat
  /-- A released session has left the table and is not published again. -/
  released : ∀ (c t : Nat), s.releases[c]? = some (.released t) →
    (∀ id, (id, t) ∉ s.sessions) ∧ ∃ phase, s.spawns[t]? = some phase ∧ phase.past = true
  once : ∀ (c d t : Nat), s.releases[c]? = some (.released t) →
    s.releases[d]? = some (.released t) → c = d
  counter : s.nextId = UInt64.ofNat (s.minted.length + 1)
  ids : ∀ (k t : Nat), s.minted[k]? = some t → ∃ phase, s.spawns[t]? = some phase ∧
    phase.id = mintId incarnation (UInt64.ofNat (k + 1)) ∧ phase ≠ .launching
  mintedOnce : s.minted.Nodup
  named : ∀ (t : Nat) (phase : SpawnPhase), s.spawns[t]? = some phase → phase.id ≠ "" → t ∈ s.minted

theorem sound_empty : Sound maxSessions incarnation {} where
  keyed := List.nodup_nil
  stored _ _ h := by simp at h
  pending := rfl
  budget := by
    show 0 + 0 ≤ maxSessions.toNat
    omega
  released _ _ h := by simp at h
  once _ _ _ h := by simp at h
  counter := rfl
  ids _ _ h := by simp at h
  mintedOnce := List.nodup_nil
  named _ _ h := by simp at h

theorem countP_reserved_set {spawns : List SpawnPhase} {old : SpawnPhase}
    (hOld : spawns[t]? = some old) (new : SpawnPhase) :
    (spawns.set t new).countP SpawnPhase.reserved + old.reserved.toNat =
      spawns.countP SpawnPhase.reserved + new.reserved.toNat := by
  obtain ⟨hLess, hGet⟩ := List.getElem?_eq_some_iff.mp hOld
  rw [List.countP_set hLess, hGet]
  cases hReserved : old.reserved with
  | false => cases new.reserved <;> simp
  | true =>
    have hPos : 0 < spawns.countP SpawnPhase.reserved :=
      List.countP_pos_iff.mpr ⟨old, List.mem_of_getElem? hOld, hReserved⟩
    cases new.reserved <;> simp <;> omega

theorem exists_phase_set {spawns : List SpawnPhase} {t u : Nat} {old new : SpawnPhase}
    {P Q : SpawnPhase → Prop} (hOld : spawns[t]? = some old) (hNew : P old → Q new)
    (hKept : ∀ phase, u ≠ t → P phase → Q phase) (h : ∃ phase, spawns[u]? = some phase ∧ P phase) :
    ∃ phase, (spawns.set t new)[u]? = some phase ∧ Q phase := by
  obtain ⟨phase, hPhase, hP⟩ := h
  by_cases hSame : u = t
  · subst hSame
    obtain ⟨hLess, -⟩ := List.getElem?_eq_some_iff.mp hOld
    rw [hOld] at hPhase
    cases hPhase
    exact ⟨new, by simp [hLess], hNew hP⟩
  · exact ⟨phase, by rwa [List.getElem?_set_ne (Ne.symm hSame)], hKept phase hSame hP⟩

section

variable (h : Sound maxSessions incarnation s)
include h

theorem Sound.named_set {old new : SpawnPhase} (hOld : s.spawns[t]? = some old)
    (hId : new.id = old.id) (u : Nat) (phase : SpawnPhase)
    (hPhase : (s.spawns.set t new)[u]? = some phase) (hName : phase.id ≠ "") : u ∈ s.minted := by
  by_cases hSame : u = t
  · subst hSame
    rw [List.getElem?_set_self (List.getElem?_eq_some_iff.mp hOld).1] at hPhase
    cases hPhase
    exact h.named u old hOld (hId ▸ hName)
  · rw [List.getElem?_set_ne (Ne.symm hSame)] at hPhase
    exact h.named u phase hPhase hName

theorem Sound.setPhase {old new : SpawnPhase} (hOld : s.spawns[t]? = some old)
    (hReserved : new.reserved = old.reserved)
    (hPublished : ∀ i, old.PublishedAs i → new.PublishedAs i)
    (hPast : old.past = true → new.past = true) (hId : new.id = old.id)
    (hLaunching : new ≠ .launching) :
    Sound maxSessions incarnation { s with spawns := s.spawns.set t new } where
  keyed := h.keyed
  stored id u hMem := exists_phase_set hOld (hPublished id) (fun _ _ hP => hP)
    (h.stored id u hMem)
  pending := by
    have hCount := countP_reserved_set hOld new
    rw [hReserved] at hCount
    have hPending := h.pending
    show s.pendingSpawns.toNat = (s.spawns.set t new).countP SpawnPhase.reserved
    omega
  budget := h.budget
  released c u hReleased := ⟨(h.released c u hReleased).1,
    exists_phase_set hOld hPast (fun _ _ hP => hP) (h.released c u hReleased).2⟩
  once := h.once
  counter := h.counter
  ids k u hMinted := exists_phase_set hOld (fun hP => ⟨hId.trans hP.1, hLaunching⟩)
    (fun _ _ hP => hP) (h.ids k u hMinted)
  mintedOnce := h.mintedOnce
  named := h.named_set hOld hId

theorem Sound.dropEntry (id : SessionId) :
    Sound maxSessions incarnation { s with sessions := drop s.sessions id } where
  keyed := h.keyed.drop id
  stored i u hMem := h.stored i u (mem_drop.mp hMem).1
  pending := h.pending
  budget := by
    have hLength := length_drop_le s.sessions id
    have hBudget := h.budget
    show (drop s.sessions id).length + s.pendingSpawns.toNat ≤ _
    omega
  released c u hReleased := ⟨fun i hMem => (h.released c u hReleased).1 i (mem_drop.mp hMem).1,
    (h.released c u hReleased).2⟩
  once := h.once
  counter := h.counter
  ids := h.ids
  mintedOnce := h.mintedOnce
  named := h.named

theorem Sound.withReleases
    (hSame : ∀ (c t : Nat), releases[c]? = some (.released t) → s.releases[c]? = some (.released t)) :
    Sound maxSessions incarnation { s with releases := releases } where
  keyed := h.keyed
  stored := h.stored
  pending := h.pending
  budget := h.budget
  released c t hReleased := h.released c t (hSame c t hReleased)
  once c d t hFirst hSecond := h.once c d t (hSame c t hFirst) (hSame d t hSecond)
  counter := h.counter
  ids := h.ids
  mintedOnce := h.mintedOnce
  named := h.named

end

theorem released_of_append {last : ReleasePhase} {c t : Nat} (hLast : ∀ u, last ≠ .released u)
    (h : (releases ++ [last])[c]? = some (.released t)) : releases[c]? = some (.released t) := by
  by_cases hOld : c < releases.length
  · rwa [List.getElem?_append_left hOld] at h
  · have hMem := List.mem_of_getElem? h
    rw [List.getElem?_append_right (Nat.le_of_not_lt hOld)] at h
    have hEq : last = .released t := List.mem_singleton.mp (List.mem_of_getElem? h) ▸ rfl
    exact absurd hEq (hLast t)

theorem released_of_set {new : ReleasePhase} {r c t : Nat} (hNew : ∀ u, new ≠ .released u)
    (h : (releases.set r new)[c]? = some (.released t)) : releases[c]? = some (.released t) := by
  by_cases hSame : c = r
  · subst hSame
    rw [List.getElem?_set_self'] at h
    cases hOld : releases[c]? with
    | none => simp [hOld] at h
    | some old =>
      rw [hOld] at h
      exact absurd (Option.some.inj h) (hNew t)
  · rwa [List.getElem?_set_ne (Ne.symm hSame)] at h

/-! ### Spawning -/

section

variable (h : Sound maxSessions incarnation s)
include h

theorem Sound.spawnStep :
    Sound maxSessions incarnation (s.step maxSessions incarnation .spawn) := by
  have hKept : ∀ (last : SpawnPhase) {u : Nat} {P : SpawnPhase → Prop},
      (∃ phase, s.spawns[u]? = some phase ∧ P phase) →
      ∃ phase, (s.spawns ++ [last])[u]? = some phase ∧ P phase := by
    rintro last u P ⟨phase, hPhase, hP⟩
    exact ⟨phase, by rw [List.getElem?_append_left (List.getElem?_eq_some_iff.mp hPhase).1];
                     exact hPhase, hP⟩
  have hNamed : ∀ {last : SpawnPhase}, last.id = "" → ∀ (t : Nat) (phase : SpawnPhase),
      (s.spawns ++ [last])[t]? = some phase → phase.id ≠ "" → t ∈ s.minted := by
    intro last hLast t phase hPhase hName
    by_cases hOld : t < s.spawns.length
    · rw [List.getElem?_append_left hOld] at hPhase
      exact h.named t phase hPhase hName
    · rw [List.getElem?_append_right (Nat.le_of_not_lt hOld)] at hPhase
      rw [List.mem_singleton.mp (List.mem_of_getElem? hPhase)] at hName
      exact absurd hLast hName
  have hBudget := h.budget
  have hPending := h.pending
  have hMax := maxSessions.toNat_lt
  simp only [step]
  split
  · exact
      { keyed := h.keyed
        stored := fun id t hMem => hKept _ (h.stored id t hMem)
        pending := by simpa [SpawnPhase.reserved] using hPending
        budget := hBudget
        released := fun c t hReleased => ⟨(h.released c t hReleased).1,
          hKept _ (h.released c t hReleased).2⟩
        once := h.once
        counter := h.counter
        ids := fun k t hMinted => hKept _ (h.ids k t hMinted)
        mintedOnce := h.mintedOnce
        named := hNamed rfl }
  · rename_i hRoom
    have hLess : s.sessions.length + s.pendingSpawns.toNat < maxSessions.toNat := by
      rw [UInt64.not_le, UInt64.lt_iff_toNat_lt, UInt64.toNat_add,
        UInt64.toNat_ofNat_of_lt' (by show _ < 18446744073709551616; omega),
        Nat.mod_eq_of_lt (by show _ < 18446744073709551616; omega)] at hRoom
      exact hRoom
    have hNext : (s.pendingSpawns + 1).toNat = s.pendingSpawns.toNat + 1 := by
      rw [UInt64.toNat_add]
      exact Nat.mod_eq_of_lt (by show _ + 1 < 18446744073709551616; omega)
    exact
      { keyed := h.keyed
        stored := fun id t hMem => hKept _ (h.stored id t hMem)
        pending := by
          show (s.pendingSpawns + 1).toNat = (s.spawns ++ [SpawnPhase.launching]).countP SpawnPhase.reserved
          rw [hNext, hPending, List.countP_append]
          rfl
        budget := by
          show s.sessions.length + (s.pendingSpawns + 1).toNat ≤ _
          omega
        released := fun c t hReleased => ⟨(h.released c t hReleased).1,
          hKept _ (h.released c t hReleased).2⟩
        once := h.once
        counter := h.counter
        ids := fun k t hMinted => hKept _ (h.ids k t hMinted)
        mintedOnce := h.mintedOnce
        named := hNamed rfl }

theorem Sound.mintStep (t : Nat) :
    Sound maxSessions incarnation (s.step maxSessions incarnation (.mint t)) := by
  simp only [step]
  split
  · rename_i hOld
    have hNew : t ∉ s.minted := by
      intro hMem
      obtain ⟨k, hMinted⟩ := List.mem_iff_getElem?.mp hMem
      obtain ⟨phase, hPhase, -, hNe⟩ := h.ids k t hMinted
      rw [hOld] at hPhase
      exact hNe (Option.some.inj hPhase).symm
    have hLess := (List.getElem?_eq_some_iff.mp hOld).1
    refine
      { keyed := h.keyed
        stored := fun id u hMem => exists_phase_set hOld (fun hP => hP.elim) (fun _ _ hP => hP)
          (h.stored id u hMem)
        pending := ?_
        budget := h.budget
        released := fun c u hReleased => ⟨(h.released c u hReleased).1,
          exists_phase_set hOld (fun hP => by cases hP) (fun _ _ hP => hP)
            (h.released c u hReleased).2⟩
        once := h.once
        counter := ?_
        ids := ?_
        mintedOnce := List.Nodup.append h.mintedOnce (List.nodup_singleton t)
          (by simpa using hNew)
        named := ?_ }
    · have hCount := countP_reserved_set hOld (.starting (mintId incarnation s.nextId))
      rw [h.pending]
      exact (Nat.add_right_cancel hCount).symm
    · show s.nextId + 1 = UInt64.ofNat ((s.minted ++ [t]).length + 1)
      rw [h.counter, List.length_append, List.length_singleton,
        UInt64.ofNat_add (s.minted.length + 1) 1]
      rfl
    · intro k u hMinted
      by_cases hBefore : k < s.minted.length
      · rw [List.getElem?_append_left hBefore] at hMinted
        exact exists_phase_set hOld (fun hP => absurd rfl hP.2) (fun _ _ hP => hP)
          (h.ids k u hMinted)
      · have hIndex : k = s.minted.length := by
          have hBound := (List.getElem?_eq_some_iff.mp hMinted).1
          rw [List.length_append, List.length_singleton] at hBound
          omega
        rw [hIndex, List.getElem?_append_right (Nat.le_refl _), Nat.sub_self] at hMinted
        cases hMinted
        refine ⟨_, List.getElem?_set_self hLess, ?_, by simp⟩
        rw [hIndex, ← h.counter]
        rfl
    · intro u phase hPhase hName
      by_cases hSame : u = t
      · simp [hSame]
      · rw [List.getElem?_set_ne (Ne.symm hSame)] at hPhase
        exact List.mem_append_left _ (h.named u phase hPhase hName)
  · exact h

theorem Sound.toNat_giveBack {phase : SpawnPhase} (hPhase : s.spawns[t]? = some phase)
    (hReserved : phase.reserved = true) :
    (s.pendingSpawns - 1).toNat + 1 = s.pendingSpawns.toNat := by
  have hPos : 0 < s.pendingSpawns.toNat := by
    rw [h.pending]
    exact List.countP_pos_iff.mpr ⟨phase, List.mem_of_getElem? hPhase, hReserved⟩
  have hOne : (1 : UInt64) ≤ s.pendingSpawns := UInt64.le_iff_toNat_le.mpr hPos
  rw [UInt64.toNat_sub_of_le _ _ hOne]
  exact Nat.sub_add_cancel hPos

theorem Sound.publishStep (t : Nat) :
    Sound maxSessions incarnation (s.step maxSessions incarnation (.publish t)) := by
  simp only [step]
  split
  · rename_i id hOld
    have hCount := countP_reserved_set hOld (.waiting id)
    have hPending := h.pending
    have hBudget := h.budget
    have hLess := (List.getElem?_eq_some_iff.mp hOld).1
    have hBack := h.toNat_giveBack hOld rfl
    refine
      { keyed := h.keyed.emplace id t
        stored := ?_
        pending := ?_
        budget := ?_
        released := ?_
        once := h.once
        counter := h.counter
        ids := fun k u hMinted => exists_phase_set hOld (fun hP => ⟨hP.1, by simp⟩)
          (fun _ _ hP => hP) (h.ids k u hMinted)
        mintedOnce := h.mintedOnce
        named := h.named_set hOld rfl }
    · intro i u hMem
      rcases mem_emplace hMem with hMem | hEq
      · exact exists_phase_set hOld (fun hP => hP.elim) (fun _ _ hP => hP) (h.stored i u hMem)
      · cases hEq
        exact ⟨_, List.getElem?_set_self hLess, rfl⟩
    · have hSum : (s.spawns.set t (.waiting id)).countP SpawnPhase.reserved + 1 =
          s.spawns.countP SpawnPhase.reserved := hCount
      show (s.pendingSpawns - 1).toNat = (s.spawns.set t (.waiting id)).countP SpawnPhase.reserved
      omega
    · have hLength := length_emplace_le s.sessions id t
      show (emplace s.sessions id t).length + (s.pendingSpawns - 1).toNat ≤ _
      omega
    · intro c u hReleased
      obtain ⟨hGone, phase, hPhase, hPast⟩ := h.released c u hReleased
      have hOther : u ≠ t := by
        rintro rfl
        rw [hOld] at hPhase
        cases hPhase
        cases hPast
      refine ⟨?_, phase, by rwa [List.getElem?_set_ne (Ne.symm hOther)], hPast⟩
      intro i hMem
      rcases mem_emplace hMem with hMem | hEq
      · exact hGone i hMem
      · exact hOther (Prod.mk.inj hEq).2
  · exact h

theorem Sound.finishStep (t : Nat) :
    Sound maxSessions incarnation (s.step maxSessions incarnation (.finish t)) := by
  simp only [step]
  split
  · rename_i id hOld
    exact h.setPhase hOld rfl (fun _ hP => hP) (fun _ => rfl) rfl (by simp)
  · exact h

theorem Sound.failStep (t : Nat) :
    Sound maxSessions incarnation (s.step maxSessions incarnation (.fail t)) := by
  simp only [step, failSpawn]
  split
  · rename_i hOld
    exact h.setPhase hOld rfl (fun _ hP => hP.elim) (fun _ => rfl) rfl (by simp)
  · rename_i id hOld
    exact h.setPhase hOld rfl (fun _ hP => hP.elim) (fun _ => rfl) rfl (by simp)
  · rename_i id hOld
    exact h.setPhase hOld rfl (fun _ hP => hP) (fun _ => rfl) rfl (by simp)
  · exact h

end

theorem mem_eraseOwn (hKeyed : Keyed s.sessions) {id : SessionId} {entry : SessionId × Nat} :
    entry ∈ s.eraseOwn id t ↔ entry ∈ s.sessions ∧ entry ≠ (id, t) := by
  unfold eraseOwn findSession
  split
  · rename_i hFound
    rw [lookup_eq_some_iff hKeyed] at hFound
    rw [mem_drop]
    refine and_congr_right fun hMem => not_congr ⟨fun hKey => ?_, fun hEq => by rw [hEq]⟩
    obtain ⟨i, u⟩ := entry
    have hLookup := (lookup_eq_some_iff hKeyed).mpr hMem
    rw [show i = id from hKey, (lookup_eq_some_iff hKeyed).mpr hFound] at hLookup
    rw [show i = id from hKey, Option.some.inj hLookup]
  · rename_i hFound
    refine ⟨fun hMem => ⟨hMem, ?_⟩, And.left⟩
    rintro rfl
    exact hFound ((lookup_eq_some_iff hKeyed).mpr hMem)

theorem length_eraseOwn_le (s : ProcessSessionStore) (id : SessionId) (t : Nat) :
    (s.eraseOwn id t).length ≤ s.sessions.length := by
  unfold eraseOwn
  split
  · exact length_drop_le _ _
  · exact Nat.le_refl _

theorem Sound.rollBackStep (h : Sound maxSessions incarnation s) (t : Nat) :
    Sound maxSessions incarnation (s.step maxSessions incarnation (.rollBack t)) := by
  simp only [step]
  split
  · rename_i id reserved hOld
    have hMem : ∀ {entry}, entry ∈ s.eraseOwn id t ↔ entry ∈ s.sessions ∧ entry ≠ (id, t) :=
      mem_eraseOwn h.keyed
    refine
      { keyed := ?_
        stored := ?_
        pending := ?_
        budget := ?_
        released := ?_
        once := h.once
        counter := h.counter
        ids := fun k u hMinted => exists_phase_set hOld (fun hP => ⟨hP.1, by simp⟩)
          (fun _ _ hP => hP) (h.ids k u hMinted)
        mintedOnce := h.mintedOnce
        named := h.named_set hOld rfl }
    · show Keyed (s.eraseOwn id t)
      unfold eraseOwn
      split
      · exact h.keyed.drop id
      · exact h.keyed
    · intro i u hEntry
      obtain ⟨hStored, hOther⟩ := hMem.mp hEntry
      obtain ⟨phase, hPhase, hPublished⟩ := h.stored i u hStored
      have hApart : u ≠ t := by
        rintro rfl
        rw [hOld] at hPhase
        cases hPhase
        cases reserved with
        | true => exact hPublished
        | false => exact hOther (by rw [show id = i from hPublished])
      exact ⟨phase, by rwa [List.getElem?_set_ne (Ne.symm hApart)], hPublished⟩
    · have hCount := countP_reserved_set hOld (.rethrowing id reserved)
      rw [h.pending]
      exact (Nat.add_right_cancel hCount).symm
    · have hLength := s.length_eraseOwn_le id t
      have hBudget := h.budget
      show (s.eraseOwn id t).length + s.pendingSpawns.toNat ≤ _
      omega
    · intro c u hReleased
      obtain ⟨hGone, hPast⟩ := h.released c u hReleased
      exact ⟨fun i hEntry => hGone i (hMem.mp hEntry).1,
        exists_phase_set hOld (fun _ => rfl) (fun _ _ hP => hP) hPast⟩
  · exact h

theorem Sound.rethrowStep (h : Sound maxSessions incarnation s) (t : Nat) :
    Sound maxSessions incarnation (s.step maxSessions incarnation (.rethrow t)) := by
  simp only [step]
  split
  · rename_i id reserved hOld
    have hCount := countP_reserved_set hOld (.failed id)
    have hPending := h.pending
    have hBack : (if reserved then s.pendingSpawns - 1 else s.pendingSpawns).toNat +
        reserved.toNat = s.pendingSpawns.toNat := by
      cases reserved with
      | true => exact h.toNat_giveBack hOld rfl
      | false => rfl
    refine
      { keyed := h.keyed
        stored := fun i u hMem => exists_phase_set hOld (fun hP => hP.elim) (fun _ _ hP => hP)
          (h.stored i u hMem)
        pending := ?_
        budget := ?_
        released := fun c u hReleased => ⟨(h.released c u hReleased).1,
          exists_phase_set hOld (fun _ => rfl) (fun _ _ hP => hP) (h.released c u hReleased).2⟩
        once := h.once
        counter := h.counter
        ids := fun k u hMinted => exists_phase_set hOld (fun hP => ⟨hP.1, by simp⟩)
          (fun _ _ hP => hP) (h.ids k u hMinted)
        mintedOnce := h.mintedOnce
        named := h.named_set hOld rfl }
    · have hSum : (s.spawns.set t (.failed id)).countP SpawnPhase.reserved + reserved.toNat =
          s.spawns.countP SpawnPhase.reserved := hCount
      show (if reserved then s.pendingSpawns - 1 else s.pendingSpawns).toNat =
        (s.spawns.set t (.failed id)).countP SpawnPhase.reserved
      omega
    · have hBudget := h.budget
      show s.sessions.length + (if reserved then s.pendingSpawns - 1 else s.pendingSpawns).toNat ≤ _
      omega
  · exact h

/-! ### Releasing -/

section

variable (h : Sound maxSessions incarnation s)
include h

theorem Sound.releaseStep (id : SessionId) (wanted exited : Bool) : Sound maxSessions incarnation
      (s.step maxSessions incarnation (.release id wanted exited)) := by
  simp only [step]
  split
  · refine h.withReleases fun c t hReleased => released_of_append ?_ hReleased
    intro u
    split <;> simp
  · exact h.withReleases fun c t hReleased => released_of_append (by simp) hReleased

theorem Sound.removeStep (r : Nat) :
    Sound maxSessions incarnation (s.step maxSessions incarnation (.removeSession r)) := by
  simp only [step]
  split
  · rename_i t id hJoining
    split
    · rename_i hFound
      have hStored : (id, t) ∈ s.sessions := (lookup_eq_some_iff h.keyed).mp hFound
      obtain ⟨phase, hPhase, hPublished⟩ := h.stored id t hStored
      have hDropped := h.dropEntry id
      have hLess := (List.getElem?_eq_some_iff.mp hJoining).1
      have hOther : ∀ {c u : Nat}, c ≠ r →
          (s.releases.set r (.released t))[c]? = some (.released u) →
          s.releases[c]? = some (.released u) := by
        intro c u hNe hReleased
        rwa [List.getElem?_set_ne (Ne.symm hNe)] at hReleased
      have hSelf : ∀ {u : Nat},
          (s.releases.set r (.released t))[r]? = some (.released u) → u = t := by
        intro u hReleased
        rw [List.getElem?_set_self hLess] at hReleased
        cases hReleased
        rfl
      refine
        { keyed := hDropped.keyed
          stored := hDropped.stored
          pending := h.pending
          budget := hDropped.budget
          released := ?_
          once := ?_
          counter := h.counter
          ids := h.ids
          mintedOnce := h.mintedOnce
          named := h.named }
      · intro c u hReleased
        by_cases hSame : c = r
        · subst hSame
          rw [hSelf hReleased]
          refine ⟨?_, phase, hPhase, hPublished.past⟩
          intro i hMem
          obtain ⟨hOld, hKey⟩ := mem_drop.mp hMem
          obtain ⟨phase', hPhase', hPublished'⟩ := h.stored i t hOld
          rw [hPhase] at hPhase'
          cases hPhase'
          exact hKey (hPublished'.unique hPublished)
        · exact hDropped.released c u (hOther hSame hReleased)
      · intro c d u hFirst hSecond
        by_cases hc : c = r
        · by_cases hd : d = r
          · rw [hc, hd]
          · rw [hc] at hFirst
            rw [hSelf hFirst] at hSecond
            exact absurd hStored ((h.released d t (hOther hd hSecond)).1 id)
        · by_cases hd : d = r
          · rw [hd] at hSecond
            rw [hSelf hSecond] at hFirst
            exact absurd hStored ((h.released c t (hOther hc hFirst)).1 id)
          · exact h.once c d u (hOther hc hFirst) (hOther hd hSecond)
    · exact h.withReleases fun c t hReleased => released_of_set (by simp) hReleased
  · exact h

theorem Sound.shutdownStep :
    Sound maxSessions incarnation (s.step maxSessions incarnation .shutdown) where
  keyed := List.nodup_nil
  stored _ _ hMem := by simp [step] at hMem
  pending := h.pending
  budget := by
    have hBudget := h.budget
    show 0 + s.pendingSpawns.toNat ≤ _
    omega
  released c u hReleased := ⟨fun _ hMem => by simp [step] at hMem,
    (h.released c u hReleased).2⟩
  once := h.once
  counter := h.counter
  ids := h.ids
  mintedOnce := h.mintedOnce
  named := h.named

/-- Every section and every exit keeps the invariant. -/
theorem Sound.step (event : Event) :
    Sound maxSessions incarnation (s.step maxSessions incarnation event) := by
  cases event with
  | spawn => exact h.spawnStep
  | mint t => exact h.mintStep t
  | publish t => exact h.publishStep t
  | finish t => exact h.finishStep t
  | fail t => exact h.failStep t
  | rollBack t => exact h.rollBackStep t
  | rethrow t => exact h.rethrowStep t
  | release id wanted exited => exact h.releaseStep id wanted exited
  | removeSession r => exact h.removeStep r
  | failRelease r =>
    simp only [ProcessSessionStore.step]
    split
    · exact h.withReleases fun c t hReleased => released_of_set (by simp) hReleased
    · exact h
  | shutdown => exact h.shutdownStep

end

theorem sound_after (events : List Event) :
    Sound maxSessions incarnation (after maxSessions incarnation events) := by
  unfold after
  suffices hFrom : ∀ s, Sound maxSessions incarnation s → Sound maxSessions incarnation
        (events.foldl (ProcessSessionStore.step maxSessions incarnation) s) from
    hFrom _ sound_empty
  induction events with
  | nil =>
    intro s h
    exact h
  | cons event events ih =>
    intro s h
    exact ih _ (h.step event)

/-! ## Whole histories -/

/-- The session was released, or its spawn has rolled it back. -/
def Gone (s : ProcessSessionStore) (t : Nat) : Prop :=
  (∃ c : Nat, s.releases[c]? = some (.released t)) ∨
    ∃ phase, s.spawns[t]? = some phase ∧ phase.rolledBack = true

theorem Sound.not_found_of_gone (h : Sound maxSessions incarnation s) (hGone : s.Gone t)
    (id : SessionId) : s.findSession id ≠ some t := by
  intro hFound
  have hStored := (lookup_eq_some_iff h.keyed).mp hFound
  rcases hGone with ⟨c, hReleased⟩ | ⟨phase, hPhase, hRolledBack⟩
  · exact (h.released c t hReleased).1 id hStored
  · obtain ⟨phase', hPhase', hPublished⟩ := h.stored id t hStored
    rw [hPhase] at hPhase'
    cases hPhase'
    rw [hPublished.not_rolledBack] at hRolledBack
    cases hRolledBack

theorem released_append {last : ReleasePhase} (h : ∃ c : Nat, releases[c]? = some (.released t)) :
    ∃ c : Nat, (releases ++ [last])[c]? = some (.released t) := by
  obtain ⟨c, hc⟩ := h
  refine ⟨c, ?_⟩
  rwa [List.getElem?_append_left (List.getElem?_eq_some_iff.mp hc).1]

theorem released_set {new : ReleasePhase} {r t u : Nat} {id : SessionId}
    (hOld : releases[r]? = some (.joining u id))
    (h : ∃ c : Nat, releases[c]? = some (.released t)) :
    ∃ c : Nat, (releases.set r new)[c]? = some (.released t) := by
  obtain ⟨c, hc⟩ := h
  have hApart : r ≠ c := by
    rintro rfl
    rw [hOld] at hc
    cases hc
  exact ⟨c, by rwa [List.getElem?_set_ne hApart]⟩

theorem Gone.step (h : s.Gone t) (event : Event) :
    (s.step maxSessions incarnation event).Gone t := by
  have hSet : ∀ {u : Nat} {old new : SpawnPhase}, s.spawns[u]? = some old →
      (old.rolledBack = true → new.rolledBack = true) →
      (∃ phase, s.spawns[t]? = some phase ∧ phase.rolledBack = true) →
      ∃ phase, (s.spawns.set u new)[t]? = some phase ∧ phase.rolledBack = true :=
    fun hOld hNew hPhase => exists_phase_set hOld hNew (fun _ _ hP => hP) hPhase
  have hAppend : ∀ last : SpawnPhase,
      (∃ phase, s.spawns[t]? = some phase ∧ phase.rolledBack = true) →
      ∃ phase, (s.spawns ++ [last])[t]? = some phase ∧ phase.rolledBack = true := by
    rintro last ⟨phase, hPhase, hRolledBack⟩
    refine ⟨phase, ?_, hRolledBack⟩
    rwa [List.getElem?_append_left (List.getElem?_eq_some_iff.mp hPhase).1]
  unfold Gone at h ⊢
  cases event with
  | spawn =>
    simp only [ProcessSessionStore.step]
    split
    · exact h.imp_right (hAppend _)
    · exact h.imp_right (hAppend _)
  | mint u =>
    simp only [ProcessSessionStore.step]
    split
    · rename_i hOld
      exact h.imp_right (hSet hOld fun hP => by cases hP)
    · exact h
  | publish u | finish u =>
    simp only [ProcessSessionStore.step]
    split
    · rename_i id hOld
      exact h.imp_right (hSet hOld fun hP => by cases hP)
    · exact h
  | fail u =>
    simp only [ProcessSessionStore.step, failSpawn]
    split
    · rename_i hOld
      exact h.imp_right (hSet hOld fun hP => by cases hP)
    · rename_i id hOld
      exact h.imp_right (hSet hOld fun hP => by cases hP)
    · rename_i id hOld
      exact h.imp_right (hSet hOld fun hP => by cases hP)
    · exact h
  | rollBack u | rethrow u =>
    simp only [ProcessSessionStore.step]
    split
    · rename_i id reserved hOld
      exact h.imp_right (hSet hOld fun _ => rfl)
    · exact h
  | release id wanted exited =>
    simp only [ProcessSessionStore.step]
    split
    · exact h.imp_left released_append
    · exact h.imp_left released_append
  | removeSession r =>
    simp only [ProcessSessionStore.step]
    split
    · rename_i u id hOld
      split
      · exact h.imp_left (released_set hOld)
      · exact h.imp_left (released_set hOld)
    · exact h
  | failRelease r =>
    simp only [ProcessSessionStore.step]
    split
    · rename_i u id hOld
      exact h.imp_left (released_set hOld)
    · exact h
  | shutdown => exact h

theorem Gone.foldl (h : s.Gone t) (events : List Event) :
    (events.foldl (ProcessSessionStore.step maxSessions incarnation) s).Gone t := by
  induction events generalizing s with
  | nil => exact h
  | cons event events ih => exact ih (h.step event)

theorem Sound.fails_alone (h : Sound maxSessions incarnation s) {t u : Nat} {id : SessionId}
    (hApart : u ≠ t) (hFound : s.findSession id = some u) {event : Event}
    (hEvent : event = .fail t ∨ event = .rollBack t ∨ event = .rethrow t) :
    (s.step maxSessions incarnation event).findSession id = some u := by
  rcases hEvent with rfl | rfl | rfl
  · simp only [ProcessSessionStore.step, failSpawn]
    split <;> exact hFound
  · have hKeyed := (h.step (.rollBack t)).keyed
    simp only [ProcessSessionStore.step] at hKeyed ⊢
    split at hKeyed
    · exact (lookup_eq_some_iff hKeyed).mpr ((mem_eraseOwn h.keyed).mpr
        ⟨(lookup_eq_some_iff h.keyed).mp hFound, fun hEq => hApart (Prod.mk.inj hEq).2⟩)
    · exact hFound
  · simp only [ProcessSessionStore.step]
    split <;> exact hFound

theorem mintId_inj {m n : UInt64} (h : mintId incarnation m = mintId incarnation n) : m = n :=
  UInt64.toNat_inj.mp (Nat.repr_inj.mp ((String.append_right_inj _).mp h))

/-- Ids repeat only after the counter has. -/
theorem Sound.ids_distinct (h : Sound maxSessions incarnation s)
    (hMinted : s.minted.length ≤ 18446744073709551616) {t u : Nat} {phase phase' : SpawnPhase}
    (hPhase : s.spawns[t]? = some phase) (hPhase' : s.spawns[u]? = some phase')
    (hName : phase.id ≠ "") (hSame : phase.id = phase'.id) : t = u := by
  obtain ⟨j, hj⟩ := List.mem_iff_getElem?.mp (h.named t phase hPhase hName)
  obtain ⟨k, hk⟩ := List.mem_iff_getElem?.mp (h.named u phase' hPhase' (hSame ▸ hName))
  obtain ⟨p, hp, hId, -⟩ := h.ids j t hj
  obtain ⟨p', hp', hId', -⟩ := h.ids k u hk
  rw [hPhase] at hp
  rw [hPhase'] at hp'
  cases hp
  cases hp'
  rw [hId, hId'] at hSame
  have hNumber := congrArg UInt64.toNat (mintId_inj hSame)
  have hj' := (List.getElem?_eq_some_iff.mp hj).1
  have hk' := (List.getElem?_eq_some_iff.mp hk).1
  have hIndex : j = k := by
    rw [UInt64.toNat_ofNat', UInt64.toNat_ofNat'] at hNumber
    omega
  rw [hIndex, hk] at hj
  exact (Option.some.inj hj).symm

/-- What holds of a store after a history, and of its future. -/
structure Laws (maxSessions : UInt64) (incarnation : String) (events : List Event)
    (s : ProcessSessionStore) : Prop where
  budget : s.sessions.length + s.pendingSpawns.toNat ≤ maxSessions.toNat
  /-- The count is that of the calls under way whose session is not published. -/
  pending : s.pendingSpawns.toNat = s.spawns.countP fun phase => phase.inFlight && !phase.published
  idle : (∀ phase ∈ s.spawns, phase.inFlight = false) → s.pendingSpawns = 0
  /-- Among the first `2 ^ 64` ids there are no two alike. -/
  ids : s.minted.length ≤ 18446744073709551616 → ∀ (t u : Nat) (phase phase' : SpawnPhase),
    s.spawns[t]? = some phase → s.spawns[u]? = some phase' → phase.id ≠ "" →
    phase.id = phase'.id → t = u
  /-- A session that is gone is not found, now or later. -/
  gone : ∀ t, s.Gone t → ∀ (later : List Event) (id : SessionId),
    (after maxSessions incarnation (events ++ later)).findSession id ≠ some t
  /-- A spawn that fails removes its own session only. -/
  alone : ∀ (t u : Nat) (id : SessionId) (event : Event), u ≠ t → s.findSession id = some u →
    (event = .fail t ∨ event = .rollBack t ∨ event = .rethrow t) →
    (s.step maxSessions incarnation event).findSession id = some u
  /-- One call at most reports that it released a session. -/
  once : ∀ (c d t : Nat), s.releases[c]? = some (.released t) →
    s.releases[d]? = some (.released t) → c = d

/-- **The store under every interleaving** of spawns, failures, releases, lookups and
shutdowns. -/
theorem session_store_laws (maxSessions : UInt64) (incarnation : String) (events : List Event) :
    Laws maxSessions incarnation events (after maxSessions incarnation events) := by
  have h : Sound maxSessions incarnation (after maxSessions incarnation events) :=
    sound_after events
  have hCount : ∀ spawns : List SpawnPhase, spawns.countP SpawnPhase.reserved =
      spawns.countP fun phase => phase.inFlight && !phase.published := by
    intro spawns
    exact congrArg (spawns.countP ·) (funext SpawnPhase.reserved_eq)
  refine ⟨h.budget, h.pending.trans (hCount _), ?_, ?_, ?_, ?_, h.once⟩
  · intro hIdle
    apply UInt64.toNat_inj.mp
    rw [h.pending, hCount, List.countP_eq_zero.mpr]
    · rfl
    · intro phase hMem
      simp [hIdle phase hMem]
  · intro hMinted t u phase phase' hPhase hPhase' hName hSame
    exact h.ids_distinct hMinted hPhase hPhase' hName hSame
  · intro t hGone later id
    refine (sound_after (events ++ later)).not_found_of_gone ?_ id
    unfold after
    rw [List.foldl_append]
    exact hGone.foldl later
  · intro t u id event hApart hFound hEvent
    exact h.fails_alone hApart hFound hEvent

/-! ### A published spawn, and a counter that starts over -/

def failingSpawn (t : Nat) : List Event :=
  [.spawn, .mint t, .fail t, .rollBack t, .rethrow t]

def failingSpawns (n : Nat) : List Event := (List.range n).flatMap failingSpawn

/-- What they leave behind. -/
def failedStore (incarnation : String) (n : Nat) : ProcessSessionStore where
  nextId := UInt64.ofNat (n + 1)
  spawns := (List.range n).map fun k => .failed (mintId incarnation (UInt64.ofNat (k + 1)))
  minted := List.range n

theorem after_failingSpawns (incarnation : String) (n : Nat) :
    after 1 incarnation (failingSpawns n) = failedStore incarnation n := by
  induction n with
  | zero => rfl
  | succ n ih =>
    unfold after at ih ⊢
    rw [failingSpawns, List.range_succ, List.flatMap_append, List.foldl_append, ← failingSpawns, ih]
    simp [failedStore, failingSpawn, step, failSpawn, eraseOwn, findSession, List.range_succ]

/-- A spawn that waits for its child is under way and no longer counted as pending, and
the 64-bit counter gives the first id away again in the end. -/
theorem pending_and_ids_sample : (let s := after 4 "store" [.spawn, .mint 0, .publish 0]
     s.pendingSpawns.toNat ≠ s.spawns.countP SpawnPhase.inFlight) ∧
    ∃ (events : List Event) (t u : Nat) (phase phase' : SpawnPhase), t ≠ u ∧
      (after 1 "store" events).spawns[t]? = some phase ∧
      (after 1 "store" events).spawns[u]? = some phase' ∧
      phase.id ≠ "" ∧ phase.id = phase'.id := by
  refine ⟨by decide, failingSpawns (18446744073709551616 + 1), 0, 18446744073709551616,
    .failed (mintId "store" (UInt64.ofNat (0 + 1))),
    .failed (mintId "store" (UInt64.ofNat (18446744073709551616 + 1))), by decide, ?_, ?_, ?_, ?_⟩
  · rw [after_failingSpawns, failedStore, List.getElem?_map, List.getElem?_range (by omega)]
    rfl
  · rw [after_failingSpawns, failedStore, List.getElem?_map, List.getElem?_range (by omega)]
    rfl
  · decide
  · exact congrArg (mintId "store") (by decide)

end ProcessSessionStore

end SimplexAgent.Tools.Process
