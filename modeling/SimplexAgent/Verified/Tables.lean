import Mathlib.Data.List.Sort
import Mathlib.Data.List.Infix

/-!
# Tables of rows

A table is the list of its rows in insertion order. Rows point to the row that
owns them by a key, and carry a position below that owner. A query keeps the rows
of one owner and orders them by position.

The general facts are about rows written group by group. `numbered` gives the
rows of one group consecutive positions, so ordering them changes nothing, and
`filter_flatMap_owner` reads one group back out of the concatenation of all of
them: this is what makes reassembling by keys the inverse of spreading over
tables, as long as the keys of the groups are distinct.
-/

namespace SimplexAgent.Verified.Tables

variable {α β γ κ R ε : Type*}
variable {owner : R → κ}

def orderBy (position : R → Nat) (rows : List R) : List R :=
  rows.insertionSort fun a b => position a ≤ position b

def numbered (row : Nat → α → R) : Nat → List α → List R
  | _, [] => []
  | n, a :: as => row n a :: numbered row (n + 1) as

theorem mem_numbered {row : Nat → α → R} {items : List α} {r : R} :
    ∀ {n : Nat}, r ∈ numbered row n items → ∃ i a, a ∈ items ∧ n ≤ i ∧ r = row i a := by
  induction items with
  | nil => intro n hr; simp [numbered] at hr
  | cons a as ih =>
    intro n hr
    rcases List.mem_cons.mp hr with rfl | hRest
    · exact ⟨n, a, by simp, Nat.le_refl n, rfl⟩
    · obtain ⟨i, b, hb, hi, rfl⟩ := ih hRest
      exact ⟨i, b, by simp [hb], by omega, rfl⟩

variable (row : Nat → α → R)

theorem map_numbered (f : R → β) (g : α → β) (hField : ∀ n a, f (row n a) = g a) (items : List α) :
    ∀ n : Nat, (numbered row n items).map f = items.map g := by
  induction items with
  | nil => intro n; rfl
  | cons a as ih => intro n; simp [numbered, hField, ih]

theorem numbered_map (f : R → β) (items : List α) :
    ∀ n : Nat, (numbered row n items).map f = numbered (fun i a => f (row i a)) n items := by
  induction items with
  | nil => intro n; rfl
  | cons a as ih => intro n; simp [numbered, ih]

theorem orderBy_numbered (position : R → Nat) (hPosition : ∀ n a, position (row n a) = n) (n : Nat)
    (items : List α) : orderBy position (numbered row n items) = numbered row n items := by
  apply List.Pairwise.insertionSort_eq
  induction items generalizing n with
  | nil => exact List.Pairwise.nil
  | cons a as ih =>
    refine List.Pairwise.cons ?_ (ih (n + 1))
    intro r hr
    obtain ⟨i, b, _, hi, rfl⟩ := mem_numbered hr
    rw [hPosition, hPosition]
    omega

/-- The parts of a fallible computation that succeeded. -/
theorem exists_ok_iff {x : Except ε α} : (∃ a, x = .ok a) ↔ x.isOk = true := by
  cases x <;> simp [Except.isOk, Except.toBool]

theorem bind_ok {x : Except ε α} {f : α → Except ε β} {b : β} (h : x.bind f = .ok b) :
    ∃ a, x = .ok a ∧ f a = .ok b := by
  cases x with
  | error e => cases h
  | ok a => exact ⟨a, rfl, h⟩

theorem forM_ok {check : α → Except ε PUnit} {xs : List α} (h : xs.forM check = .ok ⟨⟩) :
    ∀ x ∈ xs, check x = .ok ⟨⟩ := by
  induction xs with
  | nil => exact fun x hx => by cases hx
  | cons y rest ih =>
    obtain ⟨_, hHead, hRest⟩ := bind_ok h
    intro x hx
    rcases List.mem_cons.mp hx with rfl | hMem
    · exact hHead
    · exact ih hRest x hMem

theorem mapM_map_ok (encode : α → R) (decode : R → Except ε β) (f : α → β) (xs : List α)
    (hItem : ∀ x ∈ xs, decode (encode x) = .ok (f x)) :
    (xs.map encode).mapM decode = .ok (xs.map f) := by
  induction xs with
  | nil => rfl
  | cons x rest ih =>
    have hHead : decode (encode x) = .ok (f x) := hItem x (by simp)
    have hRest := ih fun y hy => hItem y (by simp [hy])
    simp only [List.map_cons, List.mapM_cons, hHead, hRest]
    rfl

theorem mapM_numbered_map (decode : R → Except ε β) (f : α → β) (items : List α)
    (hRow : ∀ a ∈ items, ∀ n, decode (row n a) = .ok (f a)) :
    ∀ n : Nat, (numbered row n items).mapM decode = .ok (items.map f) := by
  induction items with
  | nil => intro n; rfl
  | cons a as ih =>
    intro n
    have hHead := hRow a (by simp) n
    have hRest := ih (fun b hb => hRow b (by simp [hb])) (n + 1)
    simp only [numbered, List.mapM_cons, hHead, hRest]
    rfl

theorem mapM_numbered (decode : R → Except ε α) (items : List α)
    (hRow : ∀ a ∈ items, ∀ n, decode (row n a) = .ok a) (n : Nat) :
    (numbered row n items).mapM decode = .ok items := by
  rw [mapM_numbered_map row decode id items hRow, List.map_id]

theorem filter_eq_nil_of_owner [DecidableEq κ] {rows : List R} {k : κ}
    (hOwner : ∀ r ∈ rows, owner r ≠ k) : rows.filter (fun r => owner r = k) = [] := by
  simpa using hOwner

theorem filter_eq_self_of_owner [DecidableEq κ] {rows : List R} {k : κ}
    (hOwner : ∀ r ∈ rows, owner r = k) : rows.filter (fun r => owner r = k) = rows := by
  simpa using hOwner

/--
**One group out of all**: rows written group by group, every row pointing to its
group, are found again by the key of the group.
-/
theorem filter_flatMap_owner [DecidableEq κ] {groups : List γ} {key : γ → κ} {rows : γ → List R}
    (hOwner : ∀ g ∈ groups, ∀ r ∈ rows g, owner r = key g) (hNodup : (groups.map key).Nodup) {g : γ}
    (hg : g ∈ groups) : (groups.flatMap rows).filter (fun r => owner r = key g) = rows g := by
  induction groups with
  | nil => simp at hg
  | cons h rest ih =>
    rw [List.map_cons, List.nodup_cons] at hNodup
    obtain ⟨hFresh, hRest⟩ := hNodup
    rw [List.flatMap_cons, List.filter_append]
    rcases List.mem_cons.mp hg with rfl | hMem
    · have hHere := filter_eq_self_of_owner (hOwner g (by simp))
      have hElsewhere : (rest.flatMap rows).filter (fun r => owner r = key g) = [] := by
        apply filter_eq_nil_of_owner
        intro r hr hKey
        obtain ⟨g', hg', hr'⟩ := List.mem_flatMap.mp hr
        rw [hOwner g' (by simp [hg']) r hr'] at hKey
        exact hFresh (hKey ▸ List.mem_map_of_mem hg')
      rw [hHere, hElsewhere, List.append_nil]
    · have hHere : (rows h).filter (fun r => owner r = key g) = [] := by
        apply filter_eq_nil_of_owner
        intro r hr hKey
        rw [hOwner h (by simp) r hr] at hKey
        exact hFresh (hKey ▸ List.mem_map_of_mem hMem)
      rw [hHere, List.nil_append]
      exact ih (fun g' hg' => hOwner g' (by simp [hg'])) hRest hMem

theorem filter_append_flatMap_owner [DecidableEq κ] {old : List R} {oldKeys : List κ}
    {groups : List γ} {key : γ → κ} {rows : γ → List R} (hOld : ∀ r ∈ old, owner r ∈ oldKeys)
    (hOwner : ∀ g ∈ groups, ∀ r ∈ rows g, owner r = key g)
    (hNodup : (oldKeys ++ groups.map key).Nodup) {g : γ} (hg : g ∈ groups) :
    (old ++ groups.flatMap rows).filter (fun r => owner r = key g) = rows g := by
  obtain ⟨-, hGroups, hDisjoint⟩ := List.nodup_append.mp hNodup
  have hNone : old.filter (fun r => owner r = key g) = [] := by
    apply filter_eq_nil_of_owner
    intro r hr hKey
    exact hDisjoint _ (hOld r hr) _ (List.mem_map_of_mem hg) hKey
  rw [List.filter_append, hNone, List.nil_append]
  exact filter_flatMap_owner hOwner hGroups hg

theorem nodup_append_fresh {keys : List κ} {k : κ} (hKeys : keys.Nodup) (hFresh : k ∉ keys) :
    (keys ++ [k]).Nodup := by
  rw [List.nodup_append]
  refine ⟨hKeys, by simp, ?_⟩
  intro a ha b hb hab
  rw [List.mem_singleton.mp hb] at hab
  exact hFresh (hab ▸ ha)

end SimplexAgent.Verified.Tables
