import Mathlib.Data.Finset.Basic

/-!
# A window over the most recent keys

A bounded memory of keys: a set for membership beside a queue for the order of
arrival. A key that is pushed into a full window drops the oldest one.

`Tracks` says that a window is the last `capacity` keys of a history. A key that
is only pushed when the window does not hold it keeps that, and so any two
occurrences of one key in the history are more than `capacity` apart
(`Spaced.push`).
-/

namespace SimplexAgent.Verified

variable {κ : Type*} [DecidableEq κ]

/-- The keys a window holds, and their order of arrival. -/
structure RecentWindow (κ : Type*) where
  seen : Finset κ
  order : List κ

namespace RecentWindow

def empty : RecentWindow κ where
  seen := ∅
  order := []

def push (capacity : Nat) (w : RecentWindow κ) (key : κ) : RecentWindow κ :=
  match w.order with
  | oldest :: rest =>
    if w.order.length = capacity then
      { seen := insert key (w.seen.erase oldest), order := rest ++ [key] }
    else { seen := insert key w.seen, order := w.order ++ [key] }
  | [] => { seen := insert key w.seen, order := w.order ++ [key] }

/-- The window holds the last keys of a history, each of them once. -/
structure Tracks (capacity : Nat) (history : List κ) (w : RecentWindow κ) : Prop where
  order : w.order = history.drop (history.length - capacity)
  seen : w.seen = w.order.toFinset
  nodup : w.order.Nodup

theorem empty_tracks (capacity : Nat) : Tracks capacity [] (empty : RecentWindow κ) where
  order := by simp [empty]
  seen := rfl
  nodup := List.nodup_nil

variable {w : RecentWindow κ} {history : List κ} {capacity : Nat}

section

variable (h : Tracks capacity history w)
include h

theorem Tracks.length : w.order.length = min history.length capacity := by
  rw [h.order, List.length_drop]
  omega

theorem Tracks.push_room {key : κ} (hRoom : w.order.length ≠ capacity) (hNew : key ∉ w.seen) :
    Tracks capacity (history ++ [key])
      { seen := insert key w.seen, order := w.order ++ [key] } := by
  have hLength := h.length
  have hShort : history.length < capacity := by omega
  rw [h.seen, List.mem_toFinset] at hNew
  refine ⟨?_, ?_, ?_⟩
  · have hAll : w.order = history := by
      rw [h.order, show history.length - capacity = 0 by omega, List.drop_zero]
    rw [List.length_append, List.length_singleton,
      show history.length + 1 - capacity = 0 by omega, List.drop_zero]
    exact congrArg (· ++ [key]) hAll
  · rw [h.seen]
    ext other
    simp only [Finset.mem_insert, List.mem_toFinset, List.mem_append, List.mem_singleton]
    exact or_comm
  · exact List.Nodup.append h.nodup (List.nodup_singleton key) (by simpa using hNew)

theorem Tracks.push_full {key oldest : κ} {rest : List κ} (hOrder : w.order = oldest :: rest)
    (hFull : w.order.length = capacity) (hNew : key ∉ w.seen) : Tracks capacity (history ++ [key])
      { seen := insert key (w.seen.erase oldest), order := rest ++ [key] } := by
  have hLength := h.length
  have hLong : capacity ≤ history.length := by omega
  have hNodup := h.nodup
  rw [hOrder, List.nodup_cons] at hNodup
  rw [h.seen, List.mem_toFinset, hOrder] at hNew
  have hPositive : 0 < capacity := by
    rw [← hFull, hOrder]
    exact Nat.succ_pos _
  refine ⟨?_, ?_, ?_⟩
  · have hRest : rest = history.drop (history.length - capacity + 1) := by
      rw [← List.drop_drop, ← h.order, hOrder]
      rfl
    rw [List.length_append, List.length_singleton, List.drop_append_of_le_length (by omega),
      show history.length + 1 - capacity = history.length - capacity + 1 by omega]
    exact congrArg (· ++ [key]) hRest
  · rw [h.seen, hOrder]
    ext other
    by_cases hOldest : other = oldest
    · simp [hOldest, hNodup.1, or_comm]
    · simp only [Finset.mem_insert, Finset.mem_erase, List.mem_toFinset, List.mem_cons,
        List.mem_append, List.not_mem_nil, or_false, hOldest, ne_eq, not_false_iff, true_and,
        false_or]
      exact or_comm
  · refine List.Nodup.append hNodup.2 (List.nodup_singleton key) ?_
    have hAbsent : key ∉ rest := fun hMem => hNew (List.mem_cons_of_mem _ hMem)
    simpa using hAbsent

theorem Tracks.push {key : κ} (hNew : key ∉ w.seen) (hCapacity : 0 < capacity) :
    Tracks capacity (history ++ [key]) (w.push capacity key) := by
  unfold RecentWindow.push
  split
  · rename_i oldest rest hOrder
    split
    · rename_i hFull
      exact h.push_full hOrder hFull hNew
    · rename_i hRoom
      exact h.push_room hRoom hNew
  · rename_i hOrder
    refine h.push_room ?_ hNew
    rw [hOrder, List.length_nil]
    omega

end

/-- Two occurrences of one key have more than `capacity` steps between them. -/
def Spaced (capacity : Nat) (history : List κ) : Prop :=
  ∀ (i j : Nat) (key : κ), i < j → history[i]? = some key → history[j]? = some key →
    i + capacity < j

omit [DecidableEq κ] in
theorem spaced_nil (capacity : Nat) : Spaced capacity ([] : List κ) := by
  intro i j key _ hFirst
  cases hFirst

theorem Spaced.push {key : κ} (hSpaced : Spaced capacity history) (h : Tracks capacity history w)
    (hNew : key ∉ w.seen) : Spaced capacity (history ++ [key]) := by
  intro i j other hLess hFirst hSecond
  have hBound : j < (history ++ [key]).length := (List.getElem?_eq_some_iff.mp hSecond).1
  rw [List.length_append, List.length_singleton] at hBound
  rw [List.getElem?_append_left (by omega)] at hFirst
  by_cases hOld : j < history.length
  · rw [List.getElem?_append_left hOld] at hSecond
    exact hSpaced i j other hLess hFirst hSecond
  · have hLast : j = history.length := by omega
    have hKey : key = other := by
      rw [hLast, List.getElem?_append_right (Nat.le_refl _), Nat.sub_self] at hSecond
      exact Option.some.inj hSecond
    by_contra hNear
    apply hNew
    rw [h.seen, List.mem_toFinset, h.order, List.mem_iff_getElem?]
    refine ⟨i - (history.length - capacity), ?_⟩
    rw [List.getElem?_drop, hKey,
      show history.length - capacity + (i - (history.length - capacity)) = i by omega]
    exact hFirst

end RecentWindow

end SimplexAgent.Verified
