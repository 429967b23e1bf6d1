import Mathlib.Data.List.Nodup
import Mathlib.Data.List.Flatten

/-!
# Batches

A list that is worked on in batches of a fixed size. The batches are the list cut into
pieces (`chunks_flatten`), none of them is empty, and an element of a list without
repetition stands in one batch only (`eq_of_mem_batches`).
-/

namespace Batches

variable {α : Type*} {n : ℕ} {xs : List α}

/-- The batches of a list, at most `fuel` of them. -/
def chunksAux (n : ℕ) : ℕ → List α → List (List α)
  | 0, _ => []
  | _ + 1, [] => []
  | fuel + 1, x :: xs => (x :: xs).take n :: chunksAux n fuel ((x :: xs).drop n)

/-- The batches of `n` elements each, the last one shorter. -/
def chunks (n : ℕ) (xs : List α) : List (List α) :=
  chunksAux n xs.length xs

example : chunks 2 [1, 2, 3] = [[1, 2], [3]] := by decide

theorem chunksAux_flatten (h_n : 0 < n) {fuel : ℕ} (h_fuel : xs.length ≤ fuel) :
    (chunksAux n fuel xs).flatten = xs := by
  induction fuel generalizing xs with
  | zero =>
    rw [Nat.le_zero, List.length_eq_zero_iff] at h_fuel
    rw [h_fuel]
    rfl
  | succ fuel ih =>
    cases xs with
    | nil => rfl
    | cons x xs =>
      have h_rest : ((x :: xs).drop n).length ≤ fuel := by
        rw [List.length_drop]
        omega
      rw [chunksAux, List.flatten_cons, ih h_rest, List.take_append_drop]

theorem chunks_flatten (h_n : 0 < n) (xs : List α) : (chunks n xs).flatten = xs :=
  chunksAux_flatten h_n (Nat.le_refl _)

theorem ne_nil_of_mem_chunks (h_n : 0 < n) {batch : List α} (h : batch ∈ chunks n xs) :
    batch ≠ [] := by
  unfold chunks at h
  generalize xs.length = fuel at h
  induction fuel generalizing xs with
  | zero => exact absurd h List.not_mem_nil
  | succ fuel ih =>
    cases xs with
    | nil => exact absurd h List.not_mem_nil
    | cons x xs =>
      rcases List.mem_cons.mp h with rfl | h_later
      · obtain ⟨m, rfl⟩ := Nat.exists_eq_succ_of_ne_zero (Nat.ne_of_gt h_n)
        exact List.cons_ne_nil _ _
      · exact ih h_later

theorem eq_of_mem_batches {batches : List (List α)} (h_nodup : batches.flatten.Nodup) {i j : ℕ}
    {batch batch' : List α} (h_i : batches[i]? = some batch) (h_j : batches[j]? = some batch')
    {x : α} (h_x : x ∈ batch) (h_x' : x ∈ batch') : i = j := by
  have h_disjoint := (List.nodup_flatten.mp h_nodup).2
  rw [List.pairwise_iff_getElem] at h_disjoint
  obtain ⟨h_lt_i, rfl⟩ := List.getElem?_eq_some_iff.mp h_i
  obtain ⟨h_lt_j, rfl⟩ := List.getElem?_eq_some_iff.mp h_j
  rcases Nat.lt_trichotomy i j with h_lt | h_eq | h_gt
  · exact absurd h_x' (h_disjoint i j h_lt_i h_lt_j h_lt h_x)
  · exact h_eq
  · exact absurd h_x (h_disjoint j i h_lt_j h_lt_i h_gt h_x')

end Batches
