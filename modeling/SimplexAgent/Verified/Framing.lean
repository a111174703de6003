import Mathlib.Data.List.Basic

/-!
# Self-delimiting records

Records laid one after another without separators, each a header followed by a body. When
a header tells where it ends and how long its body is, the sequence of records can be read
off the bytes (`flatMap_injective`).
-/

namespace SimplexAgent.Verified.Framing

variable {α κ β : Type}

/-- A header tells where it ends, whatever follows it. -/
def SelfDelimiting (header : κ → List β) : Prop :=
  ∀ k k' rest rest', header k ++ rest = header k' ++ rest' → k = k'

theorem field_inj {delimiter : β} {a b rest rest' : List β} (hA : delimiter ∉ a)
    (hB : delimiter ∉ b) (h : a ++ delimiter :: rest = b ++ delimiter :: rest') :
    a = b ∧ rest = rest' := by
  induction a generalizing b with
  | nil =>
    cases b with
    | nil => exact ⟨rfl, (List.cons.inj h).2⟩
    | cons x b => exact absurd (List.cons.inj h).1 (List.ne_of_not_mem_cons hB)
  | cons y a ih =>
    cases b with
    | nil => exact absurd (List.cons.inj h).1.symm (List.ne_of_not_mem_cons hA)
    | cons x b =>
      rw [List.mem_cons, not_or] at hA hB
      obtain ⟨hHead, hTail⟩ := List.cons.inj h
      obtain ⟨rfl, rfl⟩ := ih hA.2 hB.2 hTail
      exact ⟨by rw [hHead], rfl⟩

theorem flatMap_injective {header : κ → List β} {key : α → κ} {body : α → List β}
    (hHeader : SelfDelimiting header) (hStart : ∀ k, header k ≠ [])
    (hLength : ∀ a b, key a = key b → (body a).length = (body b).length)
    (hRecord : ∀ a b, key a = key b → body a = body b → a = b) {xs ys : List α}
    (h : xs.flatMap (fun a => header (key a) ++ body a) =
      ys.flatMap (fun a => header (key a) ++ body a)) : xs = ys := by
  induction xs generalizing ys with
  | nil =>
    cases ys with
    | nil => rfl
    | cons y ys =>
      rw [List.flatMap_nil, List.flatMap_cons, eq_comm, List.append_eq_nil_iff,
        List.append_eq_nil_iff] at h
      exact absurd h.1.1 (hStart _)
  | cons x xs ih =>
    cases ys with
    | nil =>
      rw [List.flatMap_nil, List.flatMap_cons, List.append_eq_nil_iff, List.append_eq_nil_iff] at h
      exact absurd h.1.1 (hStart _)
    | cons y ys =>
      rw [List.flatMap_cons, List.flatMap_cons, List.append_assoc, List.append_assoc] at h
      have hKey := hHeader _ _ _ _ h
      rw [hKey] at h
      obtain ⟨hBody, hRest⟩ := List.append_inj (List.append_cancel_left h) (hLength x y hKey)
      rw [hRecord x y hKey hBody, ih hRest]

end SimplexAgent.Verified.Framing
