import Mathlib.Data.Rat.Floor

/-!
# Windows that cover

A list of windows spans an interval if every point of the interval lies in one of them. Where
windows come one after another, a new one extends what is spanned up to its own end exactly if it
reaches back to where that ends (`spans_cons_iff`): what lies between the end and the start of the
window is in no other one.

A job that looks back by a fixed length `P` sees at time `t` the window `[t - P, t]`; its windows
are given by their times (`Covers`).
-/

namespace Coverage

/-! ### Windows -/

section Spans

variable {W T : Type*} [LinearOrder T] {start stop : W → T} {ws : List W} {v : W} {a b : T}

/-- Every point from `a` to `b` lies in one of the windows. -/
def Spans (start stop : W → T) (ws : List W) (a b : T) : Prop :=
  ∀ x, a ≤ x → x ≤ b → ∃ v ∈ ws, start v ≤ x ∧ x ≤ stop v

theorem spans_singleton : Spans start stop [v] (start v) (stop v) :=
  fun _ h_start h_stop => ⟨v, List.mem_singleton_self v, h_start, h_stop⟩

theorem Spans.mono (h : Spans start stop ws a b) {b' : T} (h_b : b' ≤ b) :
    Spans start stop ws a b' :=
  fun x h_a h_x => h x h_a (h_x.trans h_b)

theorem Spans.weaken (h : Spans start stop ws a b) : Spans start stop (v :: ws) a b := by
  intro x h_a h_b
  obtain ⟨v', h_mem, h_window⟩ := h x h_a h_b
  exact ⟨v', List.mem_cons_of_mem v h_mem, h_window⟩

theorem Spans.cons (h : Spans start stop ws a b) (h_back : start v ≤ b) :
    Spans start stop (v :: ws) a (stop v) := by
  intro x h_a h_stop
  rcases le_total x b with h_b | h_b
  · exact h.weaken x h_a h_b
  · exact ⟨v, List.mem_cons_self, h_back.trans h_b, h_stop⟩

/-- **Extending.** What windows up to `b` span is extended to the end of a window exactly if the
window reaches back to `b`. -/
theorem spans_cons_iff [DenselyOrdered T] (h : Spans start stop ws a b) (h_v : start v ≤ stop v)
    (h_a : a ≤ b) (h_ws : ∀ v' ∈ ws, stop v' ≤ b) :
    Spans start stop (v :: ws) a (stop v) ↔ start v ≤ b := by
  constructor
  · intro h_spans
    by_contra h_gap
    -- a point after the end of what is spanned and before the window
    obtain ⟨x, h_after, h_before⟩ := exists_between (not_le.mp h_gap)
    obtain ⟨v', h_mem, h_start, h_le⟩ :=
      h_spans x (h_a.trans h_after.le) (h_before.le.trans h_v)
    rcases List.mem_cons.mp h_mem with rfl | h_old
    · exact absurd h_start (not_le.mpr h_before)
    · exact absurd (h_le.trans (h_ws v' h_old)) (not_le.mpr h_after)
  · intro h_back
    exact h.cons h_back

end Spans

/-! ### Look-back windows -/

section Covers

variable {T : Type*} [AddCommGroup T] [LinearOrder T] {P a w t : T} {ts : List T}

/-- Every point from `a` to `b` lies in the window of one of the times. -/
def Covers (P : T) (ts : List T) (a b : T) : Prop :=
  ∀ x, a ≤ x → x ≤ b → ∃ t ∈ ts, t - P ≤ x ∧ x ≤ t

theorem covers_iff_spans : Covers P ts a w ↔ Spans (fun t => t - P) (fun t => t) ts a w := Iff.rfl

theorem covers_singleton : Covers P [t] (t - P) t :=
  covers_iff_spans.mpr spans_singleton

theorem Covers.cons (h : Covers P ts a w) (h_back : t - P ≤ w) : Covers P (t :: ts) a t :=
  covers_iff_spans.mpr (Spans.cons (covers_iff_spans.mp h) h_back)

/-- **Extending.** The coverage of times up to `w` is extended to `t` exactly if the window at `t`
reaches back to `w`. -/
theorem covers_cons_iff [IsOrderedAddMonoid T] [DenselyOrdered T] (h : Covers P ts a w)
    (h_P : 0 ≤ P) (h_a : a ≤ w) (h_ts : ∀ t' ∈ ts, t' ≤ w) :
    Covers P (t :: ts) a t ↔ t - P ≤ w :=
  covers_iff_spans.trans (spans_cons_iff (covers_iff_spans.mp h) (sub_le_self t h_P) h_a h_ts)

end Covers

/-! ### Periods that have passed -/

theorem toNat_periods_mul_le {P gap : ℚ} (h_P : 0 < P) (h_gap : 0 ≤ gap) {cap : ℤ}
    (h_cap : 0 ≤ cap) :
    ((min ⌊gap / P⌋ cap).toNat : ℚ) * P ≤ gap := by
  have h_floor : 0 ≤ ⌊gap / P⌋ := Int.floor_nonneg.mpr (div_nonneg h_gap h_P.le)
  have h_min : ((min ⌊gap / P⌋ cap).toNat : ℤ) ≤ ⌊gap / P⌋ := by
    rw [Int.toNat_of_nonneg (le_min h_floor h_cap)]
    exact min_le_left _ _
  calc ((min ⌊gap / P⌋ cap).toNat : ℚ) * P
      ≤ (⌊gap / P⌋ : ℚ) * P := mul_le_mul_of_nonneg_right (by exact_mod_cast h_min) h_P.le
    _ ≤ gap := (le_div_iff₀ h_P).mp (Int.floor_le _)

end Coverage
