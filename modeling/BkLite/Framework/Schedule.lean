import Mathlib.Tactic.Linarith

/-!
# Schedules of ticks

A schedule is a set of ticks on a linear order together with the two functions a
scheduler asks it for: the nearest tick strictly after a point and the nearest one
strictly before it. Nothing is assumed about the distances between ticks.
-/

structure Schedule (T : Type*) [LinearOrder T] where
  IsTick : T → Prop
  /-- The nearest tick strictly after a point. -/
  next : T → T
  /-- The nearest tick strictly before a point. -/
  prev : T → T
  next_isTick : ∀ t, IsTick (next t)
  lt_next : ∀ t, t < next t
  next_le : ∀ t s, IsTick s → t < s → next t ≤ s
  prev_isTick : ∀ t, IsTick (prev t)
  prev_lt : ∀ t, prev t < t
  le_prev : ∀ t s, IsTick s → s < t → s ≤ prev t

namespace Schedule

variable {T : Type*} [LinearOrder T] (c : Schedule T) {m t : T}

theorem next_le_prev (h : c.next m < t) : c.next m ≤ c.prev t :=
  c.le_prev t (c.next m) (c.next_isTick m) h

theorem prev_next_le : c.prev (c.next m) ≤ m := by
  by_contra h_after
  push Not at h_after
  have h_next : c.next m ≤ c.prev (c.next m) := c.next_le m _ (c.prev_isTick _) h_after
  exact absurd (c.prev_lt (c.next m)) (not_lt.mpr h_next)

theorem le_next_prev : t ≤ c.next (c.prev t) := by
  by_contra h_before
  push Not at h_before
  have h_le : c.next (c.prev t) ≤ c.prev t := c.le_prev t _ (c.next_isTick _) h_before
  exact absurd (c.lt_next (c.prev t)) (not_lt.mpr h_le)

theorem le_next_of_prev_le (h : c.prev t ≤ m) : t ≤ c.next m := by
  refine le_trans c.le_next_prev ?_
  exact c.next_le _ _ (c.next_isTick m) (lt_of_le_of_lt h (c.lt_next m))

def every (p : ℤ) (h : 0 < p) : Schedule ℤ where
  IsTick t := p ∣ t
  next t := (t / p + 1) * p
  prev t := (t - 1) / p * p
  next_isTick t := Dvd.intro_left _ rfl
  lt_next t := by
    have h_split := Int.emod_add_mul_ediv t p
    have h_mod := Int.emod_lt_of_pos t h
    linarith [mul_comm p (t / p), add_mul (t / p) 1 p]
  next_le t s h_tick h_lt := by
    obtain ⟨k, rfl⟩ := h_tick
    have h_quotient : t / p < k := Int.ediv_lt_of_lt_mul h (by rwa [mul_comm] at h_lt)
    rw [mul_comm p k]
    exact mul_le_mul_of_nonneg_right h_quotient h.le
  prev_isTick t := Dvd.intro_left _ rfl
  prev_lt t := by
    have h_split := Int.emod_add_mul_ediv (t - 1) p
    have h_mod := Int.emod_nonneg (t - 1) h.ne'
    linarith [mul_comm p ((t - 1) / p)]
  le_prev t s h_tick h_lt := by
    obtain ⟨k, rfl⟩ := h_tick
    have h_quotient : k ≤ (t - 1) / p := by
      rw [Int.le_ediv_iff_mul_le h, mul_comm]
      exact Int.le_sub_one_of_lt h_lt
    rw [mul_comm p k]
    exact mul_le_mul_of_nonneg_right h_quotient h.le

end Schedule
