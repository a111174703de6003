import Mathlib.Data.List.Basic
import Mathlib.Data.List.TakeWhile

/-!
# Terminated segments and chunked input

Two general facts about programs that read a stream piece by piece.

`cut p xs` splits a list at the elements that satisfy `p`: the segments that were
closed by such an element, and the tail that no element has closed yet. Every
framer is an instance of it (bytes cut at a newline, lines cut at a blank line),
and `cut_append` is the reason a framer may be fed in pieces: the closed segments
of a longer input extend those of a shorter one, and only the open tail has to be
carried over.

`feed put s chunks` hands the chunks to a step that may refuse one and then stops.
`feed_spec` is the induction rule for it: an invariant that relates the state to
the concatenation of everything read so far holds at the end, whatever the cuts.
-/

namespace SimplexAgent.Verified.Segments

variable {α : Type*}

/-! ## Cutting a list at its terminators -/

variable {p : α → Bool} {xs : List α}

/-- The segments of `xs` closed by an element satisfying `p`, and the open tail. -/
def cut (p : α → Bool) : List α → List (List α) × List α
  | [] => ([], [])
  | a :: as =>
    if p a then ([] :: (cut p as).1, (cut p as).2)
    else
      match (cut p as).1 with
      | [] => ([], a :: (cut p as).2)
      | s :: ss => ((a :: s) :: ss, (cut p as).2)

theorem cut_cons_of_terminator {a : α} (as : List α) (ha : p a = true) :
    cut p (a :: as) = ([] :: (cut p as).1, (cut p as).2) := by
  simp [cut, ha]

theorem cut_of_open (hOpen : ∀ a ∈ xs, p a = false) : cut p xs = ([], xs) := by
  induction xs with
  | nil => rfl
  | cons a as ih =>
    have ha : p a = false := hOpen a (by simp)
    have hRest : cut p as = ([], as) := ih fun b hb => hOpen b (by simp [hb])
    simp [cut, ha, hRest]

theorem cut_tail_open (p : α → Bool) (xs : List α) : ∀ a ∈ (cut p xs).2, p a = false := by
  induction xs with
  | nil => simp [cut]
  | cons b bs ih =>
    intro a ha
    by_cases hb : p b = true
    · rw [cut_cons_of_terminator bs hb] at ha
      exact ih a ha
    · have hbf : p b = false := by simpa using hb
      simp only [cut, hbf, Bool.false_eq_true, if_false] at ha
      split at ha
      · rcases List.mem_cons.mp ha with rfl | hMem
        · exact hbf
        · exact ih a hMem
      · exact ih a ha

theorem cut_segments_open (p : α → Bool) (xs : List α) :
    ∀ s ∈ (cut p xs).1, ∀ a ∈ s, p a = false := by
  induction xs with
  | nil => simp [cut]
  | cons b bs ih =>
    by_cases hb : p b = true
    · rw [cut_cons_of_terminator bs hb]
      simpa using ih
    · have hbf : p b = false := by simpa using hb
      simp only [cut, hbf, Bool.false_eq_true, if_false]
      split
      · simp
      · rename_i s ss hSegments
        rw [hSegments] at ih
        intro s' hMem a ha
        rcases List.mem_cons.mp hMem with rfl | hRest
        · rcases List.mem_cons.mp ha with rfl | ha
          · exact hbf
          · exact ih s (by simp) a ha
        · exact ih s' (by simp [hRest]) a ha

theorem cut_segment {d : α} (rest : List α) (hOpen : ∀ a ∈ xs, p a = false) (hd : p d = true) :
    cut p (xs ++ d :: rest) = (xs :: (cut p rest).1, (cut p rest).2) := by
  induction xs with
  | nil => exact cut_cons_of_terminator rest hd
  | cons a as ih =>
    have ha : p a = false := hOpen a (by simp)
    have hRest := ih fun b hb => hOpen b (by simp [hb])
    simp [cut, ha, hRest]

/--
**Cutting is incremental**: the segments of `xs ++ ys` are those of `xs` followed
by those of its open tail continued with `ys`.
-/
theorem cut_append (p : α → Bool) (xs ys : List α) : cut p (xs ++ ys) =
      ((cut p xs).1 ++ (cut p ((cut p xs).2 ++ ys)).1, (cut p ((cut p xs).2 ++ ys)).2) := by
  induction xs with
  | nil => simp [cut]
  | cons a as ih =>
    by_cases ha : p a = true
    · rw [List.cons_append, cut_cons_of_terminator _ ha, cut_cons_of_terminator _ ha, ih]
      rfl
    · have haf : p a = false := by simpa using ha
      rw [List.cons_append]
      simp only [cut, haf, Bool.false_eq_true, if_false, ih]
      cases hSegments : (cut p as).1 with
      | nil =>
        simp only [List.nil_append, List.cons_append, cut, haf, Bool.false_eq_true, if_false]
      | cons s ss => simp

theorem drop_length_takeWhile (p : α → Bool) (xs : List α) :
    xs.drop (xs.takeWhile p).length = xs.dropWhile p := by
  have hSplit := List.takeWhile_append_dropWhile (p := p) (l := xs)
  calc xs.drop (xs.takeWhile p).length
      = (xs.takeWhile p ++ xs.dropWhile p).drop (xs.takeWhile p).length := by rw [hSplit]
    _ = xs.dropWhile p := List.drop_left

theorem take_length_takeWhile (p : α → Bool) (xs : List α) :
    xs.take (xs.takeWhile p).length = xs.takeWhile p := by
  have hSplit := List.takeWhile_append_dropWhile (p := p) (l := xs)
  calc xs.take (xs.takeWhile p).length
      = (xs.takeWhile p ++ xs.dropWhile p).take (xs.takeWhile p).length := by rw [hSplit]
    _ = xs.takeWhile p := List.take_left

theorem span_front {front : List α} (back : List α) (hFront : ∀ a ∈ front, p a = true)
    (hBack : ∀ a, back.head? = some a → p a = false) :
    (front ++ back).takeWhile p = front ∧ (front ++ back).dropWhile p = back := by
  have hStop : back.takeWhile p = [] ∧ back.dropWhile p = back := by
    cases back with
    | nil => exact ⟨rfl, rfl⟩
    | cons a rest => simp [hBack a rfl]
  rw [List.takeWhile_append_of_pos hFront, List.dropWhile_append_of_pos hFront, hStop.1, hStop.2,
    List.append_nil]
  exact ⟨rfl, rfl⟩

theorem terminator_of_dropWhile_eq_cons {d : α} {rest : List α}
    (hDrop : xs.dropWhile (fun a => !p a) = d :: rest) : p d = true := by
  have hHead := List.head_dropWhile_not (fun a => !p a)
    (show xs.dropWhile (fun a => !p a) ≠ [] by simp [hDrop])
  simpa [hDrop] using hHead

theorem open_of_mem_takeWhile : ∀ a ∈ xs.takeWhile (fun a => !p a), p a = false := by
  intro a ha
  simpa using List.mem_takeWhile_imp ha

/-- A list with a terminator, read as its first segment and what follows it. -/
theorem cut_of_any (hAny : xs.any p = true) : cut p xs =
      (xs.takeWhile (fun a => !p a) :: (cut p ((xs.dropWhile fun a => !p a).drop 1)).1,
        (cut p ((xs.dropWhile fun a => !p a).drop 1)).2) := by
  cases hDrop : xs.dropWhile (fun a => !p a) with
  | nil =>
    rw [List.dropWhile_eq_nil_iff] at hDrop
    obtain ⟨a, hMem, ha⟩ := List.any_eq_true.mp hAny
    have := hDrop a hMem
    simp [ha] at this
  | cons d rest =>
    have hSplit : xs = xs.takeWhile (fun a => !p a) ++ d :: rest := by
      rw [← hDrop, List.takeWhile_append_dropWhile]
    conv => lhs; rw [hSplit]
    exact cut_segment rest open_of_mem_takeWhile (terminator_of_dropWhile_eq_cons hDrop)

/-! ## Feeding chunks to a step that may refuse -/

section Feed

variable {S ε : Type*}

/-- Hand the chunks to `put` in order, stopping at the first one it refuses. -/
def feed (put : S → List α → S × Option ε) : S → List (List α) → S × Option ε
  | s, [] => (s, none)
  | s, c :: cs =>
    match put s c with
    | (s', none) => feed put s' cs
    | (s', some e) => (s', some e)

/--
Induction rule for `feed`. `Run` relates a running state to the input read so far
and `Stop` a refusal to it; a refusal must not depend on what was never read.
-/
theorem feed_spec (put : S → List α → S × Option ε)
    (Run : S → List α → Prop) (Stop : S → ε → List α → Prop)
    (hNext : ∀ s seen c s', Run s seen → put s c = (s', none) → Run s' (seen ++ c))
    (hFault : ∀ s seen c s' e, Run s seen → put s c = (s', some e) → Stop s' e (seen ++ c))
    (hMore : ∀ s e seen more, Stop s e seen → Stop s e (seen ++ more)) (chunks : List (List α)) :
    ∀ (s : S) (seen : List α), Run s seen →
      match feed put s chunks with
      | (s', none) => Run s' (seen ++ chunks.flatten)
      | (s', some e) => Stop s' e (seen ++ chunks.flatten) := by
  induction chunks with
  | nil =>
    intro s seen hRun
    simpa [feed] using hRun
  | cons c cs ih =>
    intro s seen hRun
    rw [List.flatten_cons, ← List.append_assoc]
    cases hPut : put s c with
    | mk s' fault =>
      cases fault with
      | none =>
        simp only [feed, hPut]
        exact ih s' (seen ++ c) (hNext s seen c s' hRun hPut)
      | some e =>
        simp only [feed, hPut]
        exact hMore s' e (seen ++ c) cs.flatten (hFault s seen c s' e hRun hPut)

end Feed

end SimplexAgent.Verified.Segments
