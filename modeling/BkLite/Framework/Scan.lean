import Mathlib.Data.List.Basic

/-!
# Scans that stop

A loop over a list goes on past the elements with `P` and stops at the first one without. It reaches
an element with `S` if there is one that only elements with `P` precede (`Reaches`). The step lemma
`reaches_cons` unfolds the loop.
-/

namespace Scan

variable {α : Type*} {P S : α → Prop} {x : α} {xs : List α}

/-- Some element with `S` stands behind elements with `P` only. -/
def Reaches (P S : α → Prop) (xs : List α) : Prop :=
  ∃ pre x post, xs = pre ++ x :: post ∧ (∀ y ∈ pre, P y) ∧ S x

@[simp] theorem not_reaches_nil : ¬Reaches P S [] := by
  rintro ⟨pre, x, post, h_nil, -⟩
  exact absurd h_nil.symm (by simp)

theorem reaches_cons : Reaches P S (x :: xs) ↔ S x ∨ P x ∧ Reaches P S xs := by
  constructor
  · rintro ⟨pre, y, post, h_eq, h_pre, h_y⟩
    cases pre with
    | nil =>
      obtain ⟨rfl, -⟩ := List.cons.inj h_eq
      exact .inl h_y
    | cons z pre =>
      obtain ⟨rfl, h_xs⟩ := List.cons.inj h_eq
      have h_behind : Reaches P S xs :=
        ⟨pre, y, post, h_xs, fun w h_w => h_pre w (List.mem_cons_of_mem _ h_w), h_y⟩
      exact .inr ⟨h_pre x List.mem_cons_self, h_behind⟩
  · rintro (h_x | ⟨h_x, pre, y, post, rfl, h_pre, h_y⟩)
    · exact ⟨[], x, xs, rfl, fun _ h => absurd h List.not_mem_nil, h_x⟩
    · refine ⟨x :: pre, y, post, rfl, ?_, h_y⟩
      exact List.forall_mem_cons.mpr ⟨h_x, h_pre⟩

theorem reaches_iff_exists : Reaches P S xs ↔ ∃ x, Reaches P (· = x) xs ∧ S x := by
  constructor
  · rintro ⟨pre, x, post, h_xs, h_pre, h_x⟩
    exact ⟨x, ⟨pre, x, post, h_xs, h_pre, rfl⟩, h_x⟩
  · rintro ⟨x, ⟨pre, _, post, h_xs, h_pre, rfl⟩, h_x⟩
    exact ⟨pre, _, post, h_xs, h_pre, h_x⟩

theorem mem_of_reaches (h : Reaches P (· = x) xs) : x ∈ xs := by
  obtain ⟨pre, _, post, rfl, -, rfl⟩ := h
  simp

end Scan
