import Mathlib.Data.Fintype.Defs
import Mathlib.Order.WellFounded

/-!
# Topological orders

Every item has a list of predecessors. `staticOrder` releases the items in rounds: a round
releases the pending items whose predecessors are all released, and the order fails if a round
has nothing to release.
-/

namespace TopologicalOrder

variable {α : Type*} [DecidableEq α] {preds : α → List α} {released pending : List α} {x : α}

def ready (preds : α → List α) (released pending : List α) : List α :=
  pending.filter (fun x => (preds x).all (fun p => decide (p ∈ released)))

/-- The rounds, `none` for a cycle. -/
def staticOrder (preds : α → List α) : ℕ → List α → List α → Option (List α)
  | _, released, [] => some released
  | 0, _, _ :: _ => none
  | n + 1, released, pending@(_ :: _) =>
    match ready preds released pending with
    | [] => none
    | first :: others =>
      staticOrder preds n (released ++ (first :: others))
        (pending.filter (fun x => decide (x ∉ first :: others)))

theorem mem_ready :
    x ∈ ready preds released pending ↔ x ∈ pending ∧ ∀ p ∈ preds x, p ∈ released := by
  rw [ready, List.mem_filter]
  simp only [List.all_eq_true, decide_eq_true_eq]

def Precedes (preds : α → List α) (p x : α) : Prop := p ∈ preds x

theorem acc_of_ready (h_released : ∀ y ∈ released, Acc (Precedes preds) y)
    (h : x ∈ ready preds released pending) : Acc (Precedes preds) x :=
  ⟨x, fun p h_p => h_released p ((mem_ready.mp h).2 p h_p)⟩

/-- **Soundness.** If the rounds release everything then nothing pending is on or after a
cycle. -/
theorem acc_of_staticOrder (n : ℕ) (h_released : ∀ y ∈ released, Acc (Precedes preds) y)
    (h : (staticOrder preds n released pending).isSome) :
    ∀ y ∈ pending, Acc (Precedes preds) y := by
  induction n generalizing released pending with
  | zero =>
    cases pending with
    | nil => intro y h_y; cases h_y
    | cons _ _ => cases h
  | succ n ih =>
    cases pending with
    | nil => intro y h_y; cases h_y
    | cons head tail =>
      rw [staticOrder] at h
      split at h
      · cases h
      · rename_i first others h_ready
        have h_round : ∀ y ∈ first :: others, Acc (Precedes preds) y := by
          intro y h_y
          rw [← h_ready] at h_y
          exact acc_of_ready h_released h_y
        have h_next : ∀ y ∈ released ++ (first :: others), Acc (Precedes preds) y := by
          intro y h_y
          rcases List.mem_append.mp h_y with h_old | h_new
          · exact h_released y h_old
          · exact h_round y h_new
        intro y h_y
        by_cases h_now : y ∈ first :: others
        · exact h_round y h_now
        · refine ih h_next h y ?_
          exact List.mem_filter.mpr ⟨h_y, decide_eq_true h_now⟩

theorem exists_ready (h_ne : pending ≠ [])
    (h_acc : ∀ y ∈ pending, Acc (Precedes preds) y)
    (h_closed : ∀ y ∈ pending, ∀ p ∈ preds y, p ∈ released ∨ p ∈ pending) :
    ready preds released pending ≠ [] := by
  obtain ⟨y, h_y⟩ := List.exists_mem_of_ne_nil pending h_ne
  -- descend from a pending item to a pending predecessor as long as there is one
  induction h_acc y h_y with
  | intro y _ ih =>
    by_cases h_free : ∀ p ∈ preds y, p ∈ released
    · exact List.ne_nil_of_mem (mem_ready.mpr ⟨h_y, h_free⟩)
    · push Not at h_free
      obtain ⟨p, h_p, h_blocked⟩ := h_free
      have h_pending : p ∈ pending := (h_closed y h_y p h_p).resolve_left h_blocked
      exact ih p h_p h_pending

theorem staticOrder_isSome (n : ℕ) (h_len : pending.length ≤ n)
    (h_acc : ∀ y ∈ pending, Acc (Precedes preds) y)
    (h_closed : ∀ y ∈ pending, ∀ p ∈ preds y, p ∈ released ∨ p ∈ pending) :
    (staticOrder preds n released pending).isSome := by
  induction n generalizing released pending with
  | zero =>
    have h_nil : pending = [] := List.length_eq_zero_iff.mp (Nat.le_zero.mp h_len)
    rw [h_nil]
    rfl
  | succ n ih =>
    cases pending with
    | nil => rfl
    | cons head tail =>
      rw [staticOrder]
      split
      · rename_i h_ready
        exact absurd h_ready (exists_ready (List.cons_ne_nil head tail) h_acc h_closed)
      · rename_i first others h_ready
        have h_first : first ∈ head :: tail := by
          have h_mem : first ∈ ready preds released (head :: tail) := by
            rw [h_ready]
            exact List.mem_cons_self
          exact (mem_ready.mp h_mem).1
        refine ih ?_ ?_ ?_
        · -- the round releases at least `first`
          have h_lt : ((head :: tail).filter (fun x => decide (x ∉ first :: others))).length
              < (head :: tail).length := by
            refine List.length_filter_lt_length_iff_exists.mpr ⟨first, h_first, ?_⟩
            simp
          omega
        · intro y h_y
          exact h_acc y (List.mem_of_mem_filter h_y)
        · intro y h_y p h_p
          rcases h_closed y (List.mem_of_mem_filter h_y) p h_p with h_old | h_pending
          · exact Or.inl (List.mem_append_left _ h_old)
          · by_cases h_now : p ∈ first :: others
            · exact Or.inl (List.mem_append_right _ h_now)
            · exact Or.inr (List.mem_filter.mpr ⟨h_pending, decide_eq_true h_now⟩)

theorem staticOrder_isSome_iff (h_closed : ∀ y ∈ pending, ∀ p ∈ preds y, p ∈ pending) :
    (staticOrder preds pending.length [] pending).isSome ↔
      ∀ y ∈ pending, Acc (Precedes preds) y := by
  constructor
  · intro h_some
    exact acc_of_staticOrder pending.length (fun y h_y => absurd h_y List.not_mem_nil) h_some
  · intro h_acc
    exact staticOrder_isSome pending.length le_rfl h_acc
      (fun y h_y p h_p => Or.inr (h_closed y h_y p h_p))

end TopologicalOrder
