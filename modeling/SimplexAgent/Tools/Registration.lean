import SimplexAgent.Tools.Registry
import SimplexAgent.Verified.KeyedTable
import Mathlib.Data.List.Flatten

/-!
# Registering tool sets

`add`, `remove` and `clear` of `ToolRegistry`, `tools/registry.hpp`. A registry is a list of
sets and a table from tool names to sets. The sets are foreign objects that are compared by
identity and say themselves which names they offer; a `Catalogue` is what they would answer at
a moment. `add` asks a set once, before it changes anything.

`Reaches` is any sequence of these operations. What the sets answer may change between two of
them, but for the sets that are registered at that time.
-/

namespace SimplexAgent.Tools

open Verified Verified.KeyedTable

/-- A `ToolSetPtr`, which compares by identity. -/
abbrev SetPtr := Nat

/-- What sets answer: their own name, and the names of their tools or what asking for them
throws. -/
structure Catalogue where
  name : SetPtr → String
  supportedNames : SetPtr → Except String (List String)

inductive AddFailure where
  | invalidArgument (what : String)
  | runtimeError (what : String)
  /-- What the set threw. -/
  | thrown (what : String)

structure Registrations where
  toolsetList : List SetPtr := []
  lookupTable : List (String × SetPtr) := []

namespace Registrations

/-! ## The operations -/

/-- The first pass of `add` over the names a set offers. -/
def checkNames (c : Catalogue) (r : Registrations) (set : SetPtr) (offered : List String) :
    List String → Except AddFailure Unit
  | [] => .ok ()
  | name :: rest =>
    if name = "" then
      .error (.invalidArgument ("toolset \"" ++ c.name set ++
        "\" offers a tool with no name, which no call could route to"))
    else if name ∈ offered then
      .error (.invalidArgument ("toolset \"" ++ c.name set ++ "\" offers the tool name \"" ++
        name ++ "\" twice: one name must resolve to one tool"))
    else
      match r.lookupTable.lookup name with
      | some occupied =>
        .error (.runtimeError ("duplicated tool name: " ++ name ++ ", occupied by: " ++
          c.name occupied ++ ", offered by: " ++ c.name set))
      | none => checkNames c r set (name :: offered) rest

/-- `add`: the outcome and what the registry holds afterwards. -/
def add (c : Catalogue) (r : Registrations) (toolSet : Option SetPtr) :
    Except AddFailure Unit × Registrations :=
  match toolSet with
  | none => (.error (.invalidArgument "ToolRegistry::add() was given a null toolset"), r)
  | some set =>
    match c.supportedNames set with
    | .error what => (.error (.thrown what), r)
    | .ok names =>
      match checkNames c r set [] names with
      | .error failure => (.error failure, r)
      | .ok () =>
        (.ok (), {
          toolsetList := r.toolsetList ++ [set]
          lookupTable := names.foldl (fun table name => emplace table name set)
            r.lookupTable })

/-- `remove`: whether anything was removed, and what the registry holds afterwards. -/
def remove (r : Registrations) (name : String) : Bool × Registrations :=
  match r.lookupTable.lookup name with
  | none => (false, r)
  | some removed =>
    (true, {
      toolsetList := r.toolsetList.filter (· ≠ removed)
      lookupTable := r.lookupTable.filter fun entry => entry.2 ≠ removed })

/-- `clear`. -/
def clear (_ : Registrations) : Registrations := {}

/-- `supported_names`: what the sets offer, one after the other. -/
def supportedNames (c : Catalogue) (r : Registrations) : Except String (List String) :=
  r.toolsetList.foldlM (fun names set => do
    let offered ← c.supportedNames set
    return names ++ offered) []

/-- The table as the dispatcher of a batch reads it. -/
def toRegistry (sets : SetPtr → ToolSet) (r : Registrations) : ToolRegistry where
  lookupTable := r.lookupTable.map fun entry => (entry.1, sets entry.2)

/-! ## Sequences of operations -/

inductive Reaches : Catalogue → Registrations → Prop
  | start (c : Catalogue) : Reaches c {}
  | add {c : Catalogue} {r : Registrations} (h : Reaches c r) (toolSet : Option SetPtr) :
      Reaches c (add c r toolSet).2
  | remove {c : Catalogue} {r : Registrations} (h : Reaches c r) (name : String) :
      Reaches c (remove r name).2
  | clear {c : Catalogue} {r : Registrations} (h : Reaches c r) : Reaches c (clear r)
  | changes {c c' : Catalogue} {r : Registrations} (h : Reaches c r)
      (hSteady : ∀ set ∈ r.toolsetList, c'.supportedNames set = c.supportedNames set) :
      Reaches c' r

def offers (c : Catalogue) (set : SetPtr) : List String :=
  match c.supportedNames set with
  | .ok names => names
  | .error _ => []

/-- The table is made of the names that the sets of the list offer, and no two of these offer
the same one. -/
structure Routes (c : Catalogue) (r : Registrations) : Prop where
  answers : ∀ set ∈ r.toolsetList, c.supportedNames set = .ok (offers c set)
  keyed : Keyed r.lookupTable
  entries : ∀ name set,
    (name, set) ∈ r.lookupTable ↔ set ∈ r.toolsetList ∧ name ∈ offers c set
  distinct : (r.toolsetList.flatMap (offers c)).Nodup

/-! ## Adding -/

variable {r : Registrations} {c : Catalogue}

/-- What the first pass lets through. -/
theorem checkNames_ok {set : SetPtr} {names : List String} :
    ∀ offered, checkNames c r set offered names = .ok () ↔
      ("" ∉ names ∧ names.Nodup ∧ (∀ name ∈ names, name ∉ offered)) ∧
        ∀ name ∈ names, r.lookupTable.lookup name = none := by
  induction names with
  | nil => simp [checkNames]
  | cons name rest ih =>
    intro offered
    rw [checkNames]
    by_cases hEmpty : name = ""
    · simp [hEmpty]
    by_cases hOffered : name ∈ offered
    · simp [hEmpty, hOffered]
    rw [if_neg hEmpty, if_neg hOffered]
    cases hTable : r.lookupTable.lookup name with
    | some occupied =>
      constructor
      · intro h
        cases h
      · rintro ⟨-, hFree⟩
        have hNone := hFree name (by simp)
        rw [hTable] at hNone
        cases hNone
    | none =>
      rw [ih (name :: offered)]
      simp only [List.mem_cons, List.nodup_cons, not_or, forall_eq_or_imp, hTable, true_and]
      constructor
      · rintro ⟨⟨hNamed, hRest, hNew⟩, hFree⟩
        exact ⟨⟨⟨fun h => hEmpty h.symm, hNamed⟩, ⟨fun h => (hNew name h).1 rfl, hRest⟩,
          hOffered, fun other h => (hNew other h).2⟩, hFree⟩
      · rintro ⟨⟨⟨-, hNamed⟩, ⟨hFirst, hRest⟩, -, hNew⟩, hFree⟩
        exact ⟨⟨hNamed, hRest, fun other h => ⟨fun hSame => hFirst (hSame ▸ h),
          hNew other h⟩⟩, hFree⟩

theorem foldl_emplace {names : List String} (set : SetPtr) :
    ∀ table : List (String × SetPtr), names.Nodup → (∀ name ∈ names, table.lookup name = none) →
      names.foldl (fun table name => emplace table name set) table =
        table ++ names.map fun name => (name, set) := by
  induction names with
  | nil => simp
  | cons name rest ih =>
    intro table hDistinct hFree
    have hNew : emplace table name set = table ++ [(name, set)] := by
      rw [emplace, hFree name (by simp)]
      rfl
    rw [List.foldl_cons, hNew, ih _ (List.nodup_cons.mp hDistinct).2]
    · simp
    · intro other hMem
      have hOther : other ≠ name := fun h => (List.nodup_cons.mp hDistinct).1 (h ▸ hMem)
      have hAbsent : other ∉ table.map Prod.fst := fun h => by
        have hSome := lookup_isSome_iff.mpr h
        rw [hFree other (by simp [hMem])] at hSome
        cases hSome
      rw [← Option.isNone_iff_eq_none, ← Option.not_isSome, Bool.not_eq_true',
        ← Bool.not_eq_true, lookup_isSome_iff]
      simp only [List.map_append, List.map_cons, List.map_nil, List.mem_append, List.mem_singleton]
      exact fun h => h.elim hAbsent hOther

/-- The conditions under which a set cannot be added. -/
def Refused (c : Catalogue) (r : Registrations) (toolSet : Option SetPtr) : Prop :=
  match toolSet with
  | none => True
  | some set =>
    match c.supportedNames set with
    | .error _ => True
    | .ok names =>
      "" ∈ names ∨ ¬names.Nodup ∨ ∃ name ∈ names, (r.lookupTable.lookup name).isSome = true

/-- `add` refuses exactly these sets, and then changes nothing. -/
theorem add_cases (c : Catalogue) (r : Registrations) (toolSet : Option SetPtr) :
    (Refused c r toolSet ∧ (∃ failure, (add c r toolSet).1 = .error failure) ∧
        (add c r toolSet).2 = r) ∨
      ¬Refused c r toolSet ∧ (add c r toolSet).1 = .ok () ∧
        ∃ set names, toolSet = some set ∧ c.supportedNames set = .ok names ∧
          names.Nodup ∧ (∀ name ∈ names, r.lookupTable.lookup name = none) ∧
          (add c r toolSet).2 = {
            toolsetList := r.toolsetList ++ [set]
            lookupTable := r.lookupTable ++ names.map fun name => (name, set) } := by
  cases toolSet with
  | none => exact .inl ⟨trivial, ⟨_, rfl⟩, rfl⟩
  | some set =>
    simp only [add, Refused]
    cases hNames : c.supportedNames set with
    | error what => exact .inl ⟨trivial, ⟨_, rfl⟩, rfl⟩
    | ok names =>
      dsimp only
      cases hCheck : checkNames c r set [] names with
      | error failure =>
        refine .inl ⟨?_, ⟨_, rfl⟩, rfl⟩
        by_contra hFine
        rw [not_or, not_or, not_not, not_exists] at hFine
        have hFree : ∀ name ∈ names, r.lookupTable.lookup name = none := by
          intro name hMem
          by_contra hTaken
          exact hFine.2.2 name ⟨hMem, Option.isSome_iff_ne_none.mpr hTaken⟩
        rw [(checkNames_ok []).mpr ⟨⟨hFine.1, hFine.2.1, by simp⟩, hFree⟩] at hCheck
        cases hCheck
      | ok u =>
        obtain ⟨⟨hNamed, hDistinct, -⟩, hFree⟩ := (checkNames_ok []).mp hCheck
        refine .inr ⟨?_, rfl, set, names, rfl, hNames, hDistinct, hFree, ?_⟩
        · rintro (h | h | ⟨name, hMem, h⟩)
          · exact hNamed h
          · exact h hDistinct
          · rw [hFree name hMem] at h
            cases h
        · dsimp only
          rw [foldl_emplace set r.lookupTable hDistinct hFree]

theorem Routes.lookup (h : Routes c r) (name : String) (set : SetPtr) :
    r.lookupTable.lookup name = some set ↔ set ∈ r.toolsetList ∧ name ∈ offers c set := by
  rw [lookup_eq_some_iff h.keyed, h.entries]

theorem Routes.add (h : Routes c r) (toolSet : Option SetPtr) : Routes c (add c r toolSet).2 := by
  rcases add_cases c r toolSet with ⟨-, -, hSame⟩ |
    ⟨-, -, set, names, -, hNames, hDistinct, hFree, hAdded⟩
  · rw [hSame]
    exact h
  have hOffers : offers c set = names := by rw [offers, hNames]
  have hKeys : ∀ name ∈ names, name ∉ r.lookupTable.map Prod.fst := by
    intro name hMem hKey
    have hSome := lookup_isSome_iff.mpr hKey
    rw [hFree name hMem] at hSome
    cases hSome
  rw [hAdded]
  refine ⟨?_, ?_, ?_, ?_⟩
  · intro other hMem
    rcases List.mem_append.mp hMem with hOld | hNew
    · exact h.answers other hOld
    · rw [List.mem_singleton.mp hNew, hOffers]
      exact hNames
  · unfold Keyed
    rw [List.map_append, List.map_map]
    refine List.Nodup.append h.keyed (by simpa [Function.comp_def] using hDistinct) ?_
    intro name hKey hNew
    exact hKeys name (by simpa [Function.comp_def] using hNew) hKey
  · intro name other
    simp only [List.mem_append, List.mem_map, List.mem_singleton, Prod.mk.injEq, h.entries]
    constructor
    · rintro (⟨hMem, hName⟩ | ⟨_, hName, rfl, rfl⟩)
      · exact ⟨.inl hMem, hName⟩
      · exact ⟨.inr rfl, hOffers ▸ hName⟩
    · rintro ⟨hMem | rfl, hName⟩
      · exact .inl ⟨hMem, hName⟩
      · exact .inr ⟨name, hOffers ▸ hName, rfl, rfl⟩
  · rw [List.flatMap_append, List.flatMap_singleton, hOffers]
    refine List.Nodup.append h.distinct hDistinct ?_
    intro name hOld hNew
    obtain ⟨other, hMem, hName⟩ := List.mem_flatMap.mp hOld
    exact hKeys name hNew (List.mem_map.mpr ⟨(name, other), (h.entries _ _).mpr ⟨hMem, hName⟩, rfl⟩)

/-! ## Removing -/

theorem Routes.remove (h : Routes c r) (name : String) : Routes c (remove r name).2 := by
  unfold Registrations.remove
  cases hFound : r.lookupTable.lookup name with
  | none => exact h
  | some removed =>
    refine ⟨?_, ?_, ?_, ?_⟩
    · exact fun set hMem => h.answers set (List.mem_of_mem_filter hMem)
    · exact h.keyed.sublist (List.Sublist.map _ List.filter_sublist)
    · intro other set
      simp only [List.mem_filter, h.entries, decide_eq_true_iff]
      tauto
    · exact h.distinct.sublist (List.filter_sublist.flatMap _)

theorem Routes.remove_exactly (h : Routes c r) {name : String} {set : SetPtr}
    (hFound : r.lookupTable.lookup name = some set) (other : String) :
    (Registrations.remove r name).2.lookupTable.lookup other =
      if other ∈ offers c set then none else r.lookupTable.lookup other := by
  have hAfter := h.remove name
  have hTable : (Registrations.remove r name).2.lookupTable =
      r.lookupTable.filter fun entry => entry.2 ≠ set := by
    rw [Registrations.remove, hFound]
  have hOf : ∀ owner, (Registrations.remove r name).2.lookupTable.lookup other = some owner ↔
      r.lookupTable.lookup other = some owner ∧ owner ≠ set := by
    intro owner
    rw [lookup_eq_some_iff hAfter.keyed, lookup_eq_some_iff h.keyed, hTable]
    simp
  by_cases hIts : other ∈ offers c set
  · have hOwner := (h.lookup other set).mpr ⟨((h.lookup name set).mp hFound).1, hIts⟩
    rw [if_pos hIts, Option.eq_none_iff_forall_not_mem]
    intro owner hOwned
    obtain ⟨hSame, hNe⟩ := (hOf owner).mp hOwned
    exact hNe (Option.some.inj (hSame.symm.trans hOwner))
  · rw [if_neg hIts]
    apply Option.ext
    intro owner
    rw [hOf owner]
    refine ⟨And.left, fun hOwned => ⟨hOwned, ?_⟩⟩
    rintro rfl
    exact hIts ((h.lookup other owner).mp hOwned).2

/-! ## Every sequence -/

theorem Reaches.routes (h : Reaches c r) : Routes c r := by
  induction h with
  | start c => exact ⟨by simp, by simp [Keyed], by simp, by simp⟩
  | add _ toolSet ih => exact ih.add toolSet
  | remove _ name ih => exact ih.remove name
  | clear _ _ =>
    unfold Registrations.clear
    exact ⟨by simp, by simp [Keyed], by simp, by simp⟩
  | @changes c c' r _ hSteady ih =>
    have hOffers : ∀ set ∈ r.toolsetList, offers c' set = offers c set := by
      intro set hMem
      rw [offers, offers, hSteady set hMem]
    refine ⟨?_, ih.keyed, ?_, ?_⟩
    · intro set hMem
      rw [hSteady set hMem, hOffers set hMem]
      exact ih.answers set hMem
    · intro name set
      rw [ih.entries]
      exact and_congr_right fun hMem => by rw [hOffers set hMem]
    · rw [List.flatMap_congr hOffers]
      exact ih.distinct

theorem foldlM_supportedNames {sets : List SetPtr}
    (hAnswers : ∀ set ∈ sets, c.supportedNames set = .ok (offers c set)) (names : List String) :
    sets.foldlM (fun names set => do
      let offered ← c.supportedNames set
      return names ++ offered) names = .ok (names ++ sets.flatMap (offers c)) := by
  induction sets generalizing names with
  | nil => simp [pure, Except.pure]
  | cons set rest ih =>
    have hFirst := hAnswers set (by simp)
    have hRest := ih (fun other hMem => hAnswers other (by simp [hMem])) (names ++ offers c set)
    rw [List.foldlM_cons, hFirst, List.flatMap_cons, ← List.append_assoc]
    exact hRest

theorem find_toRegistry (sets : SetPtr → ToolSet) (r : Registrations) (name : String) :
    (r.toRegistry sets).find name = (r.lookupTable.lookup name).map sets := by
  rw [ToolRegistry.find, toRegistry]
  induction r.lookupTable with
  | nil => rfl
  | cons entry rest ih =>
    obtain ⟨key, set⟩ := entry
    by_cases hKey : name = key
    · simp [hKey]
    · simpa [List.lookup_cons, beq_eq_false_iff_ne.mpr hKey] using ih

/--
**Names route to the registered sets.** After any sequence of `add`, `remove` and `clear`,
while the sets that are registered keep their names: a name is in the table exactly when a set
of the list offers it, with that set, and a batch is dispatched to it; `supported_names` lists
each of these names once; a set is refused exactly when it is null, cannot be asked, has a tool
without a name, offers a name twice or one that is taken, and nothing has changed then; and
removing a name removes the set behind it, wherever it is in the list, and the names it offers.
-/
theorem registry_routes (c : Catalogue) (r : Registrations) (hReach : Reaches c r) :
    (Keyed r.lookupTable ∧ ∀ name set, r.lookupTable.lookup name = some set ↔
      set ∈ r.toolsetList ∧ name ∈ offers c set) ∧
    (∀ sets name, (r.toRegistry sets).find name = (r.lookupTable.lookup name).map sets) ∧
    (∃ names, supportedNames c r = .ok names ∧ names.Nodup ∧
      ∀ name, name ∈ names ↔ (r.lookupTable.lookup name).isSome = true) ∧
    (∀ toolSet, ((∃ failure, (add c r toolSet).1 = .error failure) ↔ Refused c r toolSet) ∧
      (Refused c r toolSet → (add c r toolSet).2 = r)) ∧
    ∀ name,
      (r.lookupTable.lookup name = none → remove r name = (false, r)) ∧
      ∀ set, r.lookupTable.lookup name = some set →
        (remove r name).1 = true ∧ (remove r name).2.toolsetList = r.toolsetList.filter (· ≠ set) ∧
        ∀ other, (remove r name).2.lookupTable.lookup other =
          if other ∈ offers c set then none else r.lookupTable.lookup other := by
  have hRoutes := hReach.routes
  refine ⟨⟨hRoutes.keyed, hRoutes.lookup⟩, fun sets name => find_toRegistry sets r name,
    ⟨r.toolsetList.flatMap (offers c), ?_, hRoutes.distinct, ?_⟩, ?_, ?_⟩
  · exact foldlM_supportedNames hRoutes.answers []
  · intro name
    rw [List.mem_flatMap, Option.isSome_iff_exists]
    exact exists_congr fun set => (hRoutes.lookup name set).symm
  · intro toolSet
    rcases add_cases c r toolSet with ⟨hRefused, hFails, hSame⟩ | ⟨hTaken, hOk, -⟩
    · exact ⟨⟨fun _ => hRefused, fun _ => hFails⟩, fun _ => hSame⟩
    · refine ⟨⟨?_, fun h => absurd h hTaken⟩, fun h => absurd h hTaken⟩
      rintro ⟨failure, hError⟩
      rw [hOk] at hError
      cases hError
  · intro name
    refine ⟨fun hNone => by rw [remove, hNone], fun set hFound => ⟨?_, ?_, ?_⟩⟩
    · rw [remove, hFound]
    · rw [remove, hFound]
    · exact hRoutes.remove_exactly hFound

/-! ### Sets without tools -/

/-- Set 0 has no tools, set 1 has two. -/
def sampleCatalogue : Catalogue where
  name _ := "set"
  supportedNames set := .ok (if set = 1 then ["read", "write"] else [])

/-- The set without tools was added before and after the other one. -/
def sampleRegistrations : Registrations :=
  (add sampleCatalogue (add sampleCatalogue (add sampleCatalogue {} (some 0)).2 (some 1)).2
    (some 0)).2

theorem registry_routes_sample : Reaches sampleCatalogue sampleRegistrations ∧
      (remove sampleRegistrations "write").2.toolsetList = [0, 0] ∧
      (remove sampleRegistrations "write").2.lookupTable.lookup "read" = none := by
  have hReach : Reaches sampleCatalogue sampleRegistrations :=
    (((Reaches.start sampleCatalogue).add (some 0)).add (some 1)).add (some 0)
  obtain ⟨-, -, -, -, hRemove⟩ := registry_routes sampleCatalogue sampleRegistrations hReach
  obtain ⟨-, hList, hTable⟩ := (hRemove "write").2 1 (by decide)
  refine ⟨hReach, ?_, ?_⟩
  · rw [hList]
    decide
  · rw [hTable]
    decide

end Registrations

end SimplexAgent.Tools
