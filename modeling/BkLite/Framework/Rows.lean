import Mathlib.Algebra.BigOperators.Group.List.Basic
import Mathlib.Tactic.Abel

/-!
# Rows of a list

A table, or the parties of a system, as a list of rows of which one at a time is written or added:
what a row is afterwards, and what becomes of a sum over the rows and of a property that some row
has.
-/

namespace Rows

variable {Row M : Type*} {rows : List Row} {f : Row → Row} {row row' : Row} {i k : ℕ}

/-! ### The rows afterwards -/

theorem of_getElem?_modify (h : (rows.modify i f)[k]? = some row') :
    ∃ row, rows[k]? = some row ∧ (i = k ∧ row' = f row ∨ i ≠ k ∧ row = row') := by
  rw [List.getElem?_modify] at h
  obtain ⟨row, h_row, h_eq⟩ := Option.map_eq_some_iff.mp h
  refine ⟨row, h_row, ?_⟩
  by_cases h_k : i = k
  · rw [if_pos h_k] at h_eq
    exact .inl ⟨h_k, h_eq.symm⟩
  · rw [if_neg h_k] at h_eq
    exact .inr ⟨h_k, h_eq⟩

theorem of_getElem?_concat (h : (rows ++ [row])[k]? = some row') :
    rows[k]? = some row' ∨ k = rows.length ∧ row' = row := by
  rw [List.getElem?_append] at h
  by_cases h_k : k < rows.length
  · rw [if_pos h_k] at h
    exact .inl h
  · rw [if_neg h_k] at h
    obtain ⟨h_zero, h_row⟩ := List.getElem?_eq_some_iff.mp h
    rw [List.length_singleton, Nat.lt_one_iff] at h_zero
    refine .inr ⟨by omega, ?_⟩
    rw [← h_row, List.getElem_singleton]

/-! ### Sums -/

theorem sum_map_modify [AddCommMonoid M] (g : Row → M) (f : Row → Row)
    (h : rows[k]? = some row) :
    ((rows.modify k f).map g).sum + g row = (rows.map g).sum + g (f row) := by
  induction rows generalizing k with
  | nil => cases h
  | cons first rows ih =>
    cases k with
    | zero =>
      obtain rfl : first = row := Option.some.inj h
      simp only [List.modify_zero_cons, List.map_cons, List.sum_cons]
      abel
    | succ k =>
      have h_rest := ih (k := k) h
      simp only [List.modify_succ_cons, List.map_cons, List.sum_cons]
      rw [add_assoc, h_rest, add_assoc]

theorem sum_map_set [AddCommMonoid M] (g : Row → M) (row' : Row) (h : rows[k]? = some row) :
    ((rows.set k row').map g).sum + g row = (rows.map g).sum + g row' := by
  have h_eq : rows.set k row' = rows.modify k fun _ => row' := by
    ext j : 1
    grind
  rw [h_eq]
  exact sum_map_modify g (fun _ => row') h

theorem sum_map_set_of_eq [AddCancelCommMonoid M] (g : Row → M) (h : rows[k]? = some row) {x : M}
    (h_eq : g row' = g row + x) : ((rows.set k row').map g).sum = (rows.map g).sum + x := by
  have h_sum := sum_map_set g row' h
  rw [h_eq, ← add_assoc, add_right_comm] at h_sum
  exact add_right_cancel h_sum

/-! ### Counting -/

theorem countP_lt {P Q : Row → Bool} (h_mono : ∀ q ∈ rows, P q = true → Q q = true)
    (h_row : row ∈ rows) (h_Q : Q row = true) (h_P : P row = false) :
    rows.countP P < rows.countP Q := by
  induction rows with
  | nil => exact absurd h_row List.not_mem_nil
  | cons first rows ih =>
    have h_rest : ∀ q ∈ rows, P q = true → Q q = true := fun q h_q =>
      h_mono q (List.mem_cons_of_mem first h_q)
    have h_le := List.countP_mono_left h_rest
    rw [List.countP_cons, List.countP_cons]
    obtain rfl | h_row := List.mem_cons.mp h_row
    · rw [if_neg (by simp [h_P]), if_pos h_Q]
      omega
    · have h_lt := ih h_rest h_row
      by_cases h_first : P first = true
      · rw [if_pos h_first, if_pos (h_mono first List.mem_cons_self h_first)]
        omega
      · rw [if_neg h_first]
        omega

/-! ### Some row -/

section Some

variable {Q : Row → Prop}

theorem exists_set (h : rows[k]? = some row) (h_Q : Q row') : ∃ q ∈ rows.set k row', Q q := by
  obtain ⟨h_k, -⟩ := List.getElem?_eq_some_iff.mp h
  exact ⟨row', List.mem_iff_getElem?.mpr ⟨k, List.getElem?_set_self h_k⟩, h_Q⟩

theorem exists_set_of_exists (h : rows[k]? = some row) (h_Q : Q row → Q row')
    (h_some : ∃ q ∈ rows, Q q) : ∃ q ∈ rows.set k row', Q q := by
  obtain ⟨q, h_q, h_has⟩ := h_some
  obtain ⟨j, h_j⟩ := List.mem_iff_getElem?.mp h_q
  by_cases h_k : k = j
  · obtain rfl := h_k
    obtain rfl := Option.some.inj (h.symm.trans h_j)
    exact exists_set h (h_Q h_has)
  · exact ⟨q, List.mem_iff_getElem?.mpr ⟨j, by rwa [List.getElem?_set_ne h_k]⟩, h_has⟩

theorem exists_of_exists_set (h_Q : ¬Q row') (h_some : ∃ q ∈ rows.set k row', Q q) :
    ∃ q ∈ rows, Q q := by
  obtain ⟨q, h_q, h_has⟩ := h_some
  obtain h_old | rfl := List.mem_or_eq_of_mem_set h_q
  · exact ⟨q, h_old, h_has⟩
  · exact absurd h_has h_Q

end Some

end Rows
