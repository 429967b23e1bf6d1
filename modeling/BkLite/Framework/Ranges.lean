import Mathlib.Data.List.Perm.Basic
import Mathlib.Order.Lattice

/-!
# Ranges of addresses

A range holds the points of one kind between two bounds. Two ranges overlap if one of them holds a
bound of the other (`overlaps_iff`), and in a list of ranges of which no two overlap the first one
that holds a point is the only one, so the order of the list does not matter (`find?_perm`).
-/

namespace Ranges

variable {κ α β : Type*} [LinearOrder α]

/-- The points of a kind from `lo` to `hi`. -/
structure Range (κ α : Type*) [LinearOrder α] where
  kind : κ
  lo : α
  hi : α
  le : lo ≤ hi
deriving DecidableEq

def Range.Contains (r : Range κ α) (kind : κ) (x : α) : Prop :=
  kind = r.kind ∧ r.lo ≤ x ∧ x ≤ r.hi

instance [DecidableEq κ] (r : Range κ α) (kind : κ) (x : α) : Decidable (r.Contains kind x) :=
  inferInstanceAs (Decidable (_ ∧ _ ∧ _))

def Range.Overlaps (a b : Range κ α) : Prop :=
  b.Contains a.kind a.lo ∨ b.Contains a.kind a.hi ∨ a.Contains b.kind b.lo ∨ a.Contains b.kind b.hi

instance [DecidableEq κ] (a b : Range κ α) : Decidable (a.Overlaps b) :=
  inferInstanceAs (Decidable (_ ∨ _ ∨ _ ∨ _))

theorem overlaps_iff {a b : Range κ α} :
    a.Overlaps b ↔ ∃ kind x, a.Contains kind x ∧ b.Contains kind x := by
  constructor
  · rintro (h | h | h | h)
    · exact ⟨a.kind, a.lo, ⟨rfl, le_rfl, a.le⟩, h⟩
    · exact ⟨a.kind, a.hi, ⟨rfl, a.le, le_rfl⟩, h⟩
    · exact ⟨b.kind, b.lo, h, rfl, le_rfl, b.le⟩
    · exact ⟨b.kind, b.hi, h, rfl, b.le, le_rfl⟩
  · rintro ⟨kind, x, ⟨rfl, h_lo, h_hi⟩, h_kind, h_lo', h_hi'⟩
    -- the later of the two lower bounds lies in both
    obtain h_le | h_le := le_total a.lo b.lo
    · exact .inr (.inr (.inl ⟨h_kind.symm, h_le, le_trans h_lo' h_hi⟩))
    · exact .inl ⟨h_kind, h_le, le_trans h_lo h_hi'⟩

theorem Range.Overlaps.symm {a b : Range κ α} (h : a.Overlaps b) : b.Overlaps a := by
  obtain ⟨kind, x, h_a, h_b⟩ := overlaps_iff.mp h
  exact overlaps_iff.mpr ⟨kind, x, h_b, h_a⟩

theorem find?_perm {l l' : List β} {p : β → Bool} (h : l.Perm l')
    (h_unique : ∀ x ∈ l, ∀ y ∈ l, p x = true → p y = true → x = y) : l.find? p = l'.find? p := by
  cases h_find : l.find? p with
  | none =>
    rw [List.find?_eq_none] at h_find
    exact (List.find?_eq_none.mpr fun x h_x => h_find x (h.mem_iff.mpr h_x)).symm
  | some x =>
    have h_x : x ∈ l := List.mem_of_find?_eq_some h_find
    cases h_find' : l'.find? p with
    | none =>
      exact absurd (List.find?_some h_find) (List.find?_eq_none.mp h_find' x (h.mem_iff.mp h_x))
    | some y =>
      have h_y : y ∈ l := h.mem_iff.mpr (List.mem_of_find?_eq_some h_find')
      rw [h_unique x h_x y h_y (List.find?_some h_find) (List.find?_some h_find')]

end Ranges
