import Mathlib.Data.List.Infix
import Mathlib.Data.List.SplitOn

/-!
# The first occurrence of a pattern

`find p s` is the position of the first occurrence of the list `p` in the list `s`. Cutting a text
at its first occurrence is what a hand-written scanner does; the lemmas say what the two parts are.
-/

namespace Find

theorem prefix_append_iff {α : Type*} {p a b : List α} (h : p.length ≤ a.length) :
    p <+: a ++ b ↔ p <+: a :=
  ⟨fun h_begins => List.prefix_of_prefix_length_le h_begins (List.prefix_append a b) h,
    fun h_begins => h_begins.trans (List.prefix_append a b)⟩

theorem infix_splitOnP_iff {α : Type*} {sep : α → Bool} {w : List α} (h_ne : w ≠ [])
    (h : ∀ x ∈ w, sep x = false) (s : List α) :
    w <:+: s ↔ ∃ part ∈ s.splitOnP sep, w <:+: part := by
  obtain ⟨c, w, rfl⟩ := List.exists_cons_of_ne_nil h_ne
  -- it begins a text if it begins the first part
  have h_head (v : List α) (h_v : ∀ x ∈ v, sep x = false) (s : List α) :
      v <+: s ↔ ∃ part ∈ (s.splitOnP sep).head?, v <+: part := by
    induction s generalizing v with
    | nil => simp
    | cons x s ih =>
      cases v with
      | nil =>
        obtain ⟨part, parts, h_split⟩ := List.exists_cons_of_ne_nil
          (List.splitOnP_ne_nil sep (x :: s))
        rw [h_split]
        exact iff_of_true (List.nil_prefix) ⟨part, rfl, List.nil_prefix⟩
      | cons y v =>
        have h_y := h_v y List.mem_cons_self
        rw [List.splitOnP_cons_eq_if_modifyHead, List.cons_prefix_cons]
        split_ifs with h_x
        · refine iff_of_false ?_ ?_
          · rintro ⟨rfl, -⟩
            rw [h_x] at h_y
            cases h_y
          · rintro ⟨part, h_part, h_begins⟩
            cases h_part
            exact absurd (List.prefix_nil.mp h_begins) (List.cons_ne_nil _ _)
        · rw [ih v fun z h_z => h_v z (List.mem_cons_of_mem _ h_z)]
          obtain ⟨part, parts, h_split⟩ := List.exists_cons_of_ne_nil
            (List.splitOnP_ne_nil sep s)
          simp [h_split, List.cons_prefix_cons]
  induction s with
  | nil => simp
  | cons x s ih =>
    obtain ⟨part, parts, h_split⟩ := List.exists_cons_of_ne_nil (List.splitOnP_ne_nil sep s)
    refine List.infix_cons_iff.trans ((or_congr (h_head _ h (x :: s)) ih).trans ?_)
    rw [List.splitOnP_cons_eq_if_modifyHead, h_split]
    split_ifs with h_x
    · simp
    · simp [List.infix_cons_iff, or_assoc]

variable {α : Type*} [DecidableEq α] {p s : List α} {n : ℕ}

/-- The position of the first occurrence of `p`. -/
def find (p : List α) : List α → Option ℕ
  | [] => if p = [] then some 0 else none
  | x :: s => if p <+: x :: s then some 0 else (find p s).map (· + 1)

theorem find_cons_of_begins {x : α} (h : p <+: x :: s) : find p (x :: s) = some 0 := by
  rw [find, if_pos h]

theorem find_cons_of_not_begins {x : α} (h : ¬p <+: x :: s) :
    find p (x :: s) = (find p s).map (· + 1) := by
  rw [find, if_neg h]

theorem find_eq_none : find p s = none ↔ ¬p <:+: s := by
  induction s with
  | nil => simp [find]
  | cons x s ih =>
    by_cases h_begins : p <+: x :: s
    · simp [find_cons_of_begins h_begins, h_begins.isInfix]
    · rw [find_cons_of_not_begins h_begins, Option.map_eq_none_iff, ih, List.infix_cons_iff,
        not_or, and_iff_right h_begins]

theorem find_tail_eq_none {x : α} (h : find p (x :: s) = none) : find p s = none :=
  find_eq_none.mpr fun h_inside =>
    find_eq_none.mp h (h_inside.trans (List.suffix_cons x s).isInfix)

theorem length_of_find (h : find p s = some n) : n + p.length ≤ s.length := by
  induction s generalizing n with
  | nil =>
    rw [find] at h
    split_ifs at h with h_nil
    obtain rfl := Option.some.inj h
    simp [h_nil]
  | cons x s ih =>
    by_cases h_begins : p <+: x :: s
    · rw [find_cons_of_begins h_begins] at h
      obtain rfl := Option.some.inj h
      simpa using h_begins.length_le
    · rw [find_cons_of_not_begins h_begins, Option.map_eq_some_iff] at h
      obtain ⟨n', h_n', rfl⟩ := h
      have h_room := ih h_n'
      simp only [List.length_cons]
      omega

end Find
