import Mathlib.Data.List.Nodup
import Mathlib.Data.List.Infix

/-!
# Sweeps over a list of keys

A periodic job visits the keys of a list one after the other, and a visit touches
only what belongs to its own key. `view` reads the part of the state that belongs
to one key: no visit to another key changes it (`h_frame`). Then a sweep over
keys without repetition changes the view of a key by at most one visit
(`sweep_of_mem`), and not at all if the key is not on the list
(`sweep_of_not_mem`).
-/

namespace Sweep

variable {Key State View : Type*} {visit : Key → State → State} {view : State → View}
  {k : Key}

def sweep (visit : Key → State → State) (keys : List Key) (s : State) : State :=
  keys.foldl (fun s k => visit k s) s

@[simp] theorem sweep_cons (k : Key) (keys : List Key) (s : State) :
    sweep visit (k :: keys) s = sweep visit keys (visit k s) := rfl

theorem sweep_invariant {I : State → Prop} (h_visit : ∀ k s, I s → I (visit k s))
    (keys : List Key) {s : State} (h : I s) : I (sweep visit keys s) := by
  induction keys generalizing s with
  | nil => exact h
  | cons k keys ih => exact ih (h_visit k s h)

variable (visit view) in
theorem sweep_of_not_mem (h_frame : ∀ k', k' ≠ k → ∀ s, view (visit k' s) = view s)
    {keys : List Key} (h : k ∉ keys) (s : State) : view (sweep visit keys s) = view s := by
  induction keys generalizing s with
  | nil => rfl
  | cons k' keys ih =>
    rw [List.mem_cons, not_or] at h
    rw [sweep_cons, ih h.2, h_frame k' (Ne.symm h.1)]

variable (visit view) in
theorem sweep_of_mem (h_frame : ∀ k', k' ≠ k → ∀ s, view (visit k' s) = view s)
    {keys : List Key} (h_nodup : keys.Nodup) (h : k ∈ keys) (s : State) :
    ∃ mid, (∃ pre, pre <+: keys ∧ mid = sweep visit pre s) ∧ view mid = view s ∧
      view (sweep visit keys s) = view (visit k mid) := by
  induction keys generalizing s with
  | nil => exact absurd h List.not_mem_nil
  | cons k' keys ih =>
    rw [List.nodup_cons] at h_nodup
    by_cases h_here : k = k'
    · subst h_here
      refine ⟨s, ⟨[], List.nil_prefix, rfl⟩, rfl, ?_⟩
      rw [sweep_cons, sweep_of_not_mem visit view h_frame h_nodup.1]
    · have h_later : k ∈ keys := (List.mem_cons.mp h).resolve_left h_here
      obtain ⟨mid, ⟨pre, h_pre, h_mid⟩, h_view, h_end⟩ := ih h_nodup.2 h_later (visit k' s)
      refine ⟨mid, ⟨k' :: pre, ?_, h_mid⟩, ?_, h_end⟩
      · exact List.cons_prefix_cons.mpr ⟨rfl, h_pre⟩
      · rw [h_view, h_frame k' (Ne.symm h_here)]

end Sweep
