import Mathlib.Data.List.Forall2

/-!
# Lists of results

`xs.mapM f` gives the results of all elements, or none if one of them has none. What it gives comes
from an element (`exists_of_mem_mapM`); where an element gives at most one result, the number of
results decides that each gives its own (`mapM_flatten_iff`).
-/

namespace List

theorem forall_of_all {α : Type} {p : α → Prop} [DecidablePred p] {xs : List α}
    (h : xs.all (fun x => decide (p x)) = true) : ∀ x ∈ xs, p x :=
  fun x h_x => of_decide_eq_true (List.all_eq_true.mp h x h_x)

theorem Forall₂.exists_of_mem {X Y : Type} {R : X → Y → Prop} {xs : List X} {ys : List Y} {x : X}
    (h : Forall₂ R xs ys) (h_x : x ∈ xs) : ∃ y ∈ ys, R x y := by
  induction h with
  | nil => cases h_x
  | @cons x' y xs ys h_R h_rest ih =>
    rcases List.mem_cons.mp h_x with rfl | h_x
    · exact ⟨y, List.mem_cons_self, h_R⟩
    · obtain ⟨y', h_y', h_R'⟩ := ih h_x
      exact ⟨y', List.mem_cons_of_mem y h_y', h_R'⟩

theorem exists_of_mem_mapM {X Y : Type} {f : X → Option Y} {xs : List X} {ys : List Y} {y : Y}
    (h : xs.mapM f = some ys) (h_y : y ∈ ys) : ∃ x ∈ xs, f x = some y := by
  induction xs generalizing ys with
  | nil =>
    cases h
    cases h_y
  | cons x xs ih =>
    rw [List.mapM_cons] at h
    obtain ⟨y', h_y', h⟩ := Option.bind_eq_some_iff.mp h
    obtain ⟨ys', h_ys', h⟩ := Option.bind_eq_some_iff.mp h
    cases h
    rcases List.mem_cons.mp h_y with rfl | h_rest
    · exact ⟨x, List.mem_cons_self, h_y'⟩
    · obtain ⟨x', h_x', h_f⟩ := ih h_ys' h_rest
      exact ⟨x', List.mem_cons_of_mem x h_x', h_f⟩

theorem mapM_eq_ok {ε X Y : Type} {f : X → Except ε Y} {g : X → Y} {xs : List X}
    (h : ∀ x ∈ xs, f x = .ok (g x)) : xs.mapM f = .ok (xs.map g) := by
  induction xs with
  | nil => rfl
  | cons x xs ih =>
    rw [List.mapM_cons, h x List.mem_cons_self, ih fun y h_y => h y (List.mem_cons_of_mem x h_y)]
    rfl

theorem exists_of_mapM_eq_ok {ε X Y : Type} {f : X → Except ε Y} {xs : List X} {ys : List Y}
    (h : xs.mapM f = .ok ys) : ∀ x ∈ xs, ∃ y, f x = .ok y := by
  induction xs generalizing ys with
  | nil => exact fun x h_x => absurd h_x List.not_mem_nil
  | cons x xs ih =>
    rw [List.mapM_cons] at h
    cases h_x : f x with
    | error e =>
      rw [h_x] at h
      cases h
    | ok y =>
      rw [h_x] at h
      cases h_xs : xs.mapM f with
      | error e =>
        simp [h_xs, bind, Except.bind] at h
      | ok ys' => exact List.forall_mem_cons.mpr ⟨⟨y, h_x⟩, ih h_xs⟩

theorem map_mapIdx {α β γ : Type} (f : Nat → α → β) (g : β → γ) (xs : List α) :
    (xs.mapIdx f).map g = xs.mapIdx fun i x => g (f i x) := by
  apply List.ext_getElem?
  intro i
  rw [List.getElem?_map, List.getElem?_mapIdx, List.getElem?_mapIdx, Option.map_map]
  rfl

theorem eq_nil_of_mapM {α β : Type} {f : α → Option β} {xs : List α} (h : xs.mapM f = some []) :
    xs = [] := by
  cases xs with
  | nil => rfl
  | cons x xs =>
    rw [List.mapM_cons] at h
    obtain ⟨y, -, h⟩ := Option.bind_eq_some_iff.mp h
    obtain ⟨ys, -, h⟩ := Option.bind_eq_some_iff.mp h
    cases h

theorem mapM_flatten_iff {α β γ : Type} {f : β → Option (List γ)} {g : α → β} {e : α → γ}
    (h_le : ∀ x ys, f x = some ys → ys.length ≤ 1) (xs : List α) :
    ((xs.map g).mapM f).map List.flatten = some (xs.map e) ↔ ∀ x ∈ xs, f (g x) = some [e x] := by
  have h_length {zs : List β} {yss : List (List γ)} (h : zs.mapM f = some yss) :
      yss.flatten.length ≤ zs.length := by
    induction zs generalizing yss with
    | nil =>
      cases h
      exact Nat.le_refl _
    | cons z zs ih =>
      rw [List.mapM_cons] at h
      obtain ⟨ys, h_ys, h⟩ := Option.bind_eq_some_iff.mp h
      obtain ⟨yss', h_yss', h⟩ := Option.bind_eq_some_iff.mp h
      cases h
      have h_first := h_le z ys h_ys
      have h_rest := ih h_yss'
      rw [List.flatten_cons, List.length_append, List.length_cons]
      omega
  induction xs with
  | nil => exact ⟨fun _ x h_x => absurd h_x List.not_mem_nil, fun _ => rfl⟩
  | cons x xs ih =>
    rw [List.forall_mem_cons, List.map_cons, List.map_cons, List.mapM_cons]
    refine ⟨fun h => ?_, ?_⟩
    · obtain ⟨yss, h_yss, h_flat⟩ := Option.map_eq_some_iff.mp h
      obtain ⟨ys, h_ys, h_yss⟩ := Option.bind_eq_some_iff.mp h_yss
      obtain ⟨yss', h_yss', h_yss⟩ := Option.bind_eq_some_iff.mp h_yss
      cases h_yss
      rw [List.flatten_cons] at h_flat
      have h_first := h_le _ _ h_ys
      have h_rest := h_length h_yss'
      have h_all := congrArg List.length h_flat
      rw [List.length_append, List.length_cons, List.length_map] at h_all
      rw [List.length_map] at h_rest
      obtain ⟨y, rfl⟩ := List.length_eq_one_iff.mp (by omega : ys.length = 1)
      obtain ⟨rfl, h_tail⟩ := List.cons.inj h_flat
      exact ⟨h_ys, ih.mp (Option.map_eq_some_iff.mpr ⟨yss', h_yss', h_tail⟩)⟩
    · rintro ⟨h_x, h_xs⟩
      obtain ⟨yss', h_yss', h_tail⟩ := Option.map_eq_some_iff.mp (ih.mpr h_xs)
      rw [h_x, h_yss']
      show some (List.flatten ([e x] :: yss')) = _
      rw [List.flatten_cons, h_tail]
      rfl

theorem cut_inj {α : Type} {m : α} {xs xs' ys ys' : List α} (h : m ∉ xs) (h' : m ∉ xs')
    (h_eq : xs ++ m :: ys = xs' ++ m :: ys') : xs = xs' ∧ ys = ys' := by
  induction xs generalizing xs' with
  | nil =>
    cases xs' with
    | nil => exact ⟨rfl, (List.cons.inj h_eq).2⟩
    | cons x' xs' => exact absurd ((List.cons.inj h_eq).1 ▸ List.mem_cons_self) h'
  | cons x xs ih =>
    cases xs' with
    | nil => exact absurd ((List.cons.inj h_eq).1 ▸ List.mem_cons_self) h
    | cons x' xs' =>
      obtain ⟨rfl, h_tail⟩ := List.cons.inj h_eq
      have h_xs := fun h_in => h (List.mem_cons_of_mem x h_in)
      have h_xs' := fun h_in => h' (List.mem_cons_of_mem x h_in)
      obtain ⟨rfl, h_ys⟩ := ih h_xs h_xs' h_tail
      exact ⟨rfl, h_ys⟩

theorem exists_answer_iff {α : Type} {f g : α → Bool} {P : α → Prop} {xs : List α} {b : Bool}
    (h : ∀ x ∈ xs, f x = g x ↔ P x) [Decidable (∃ x ∈ xs, g x = b)] :
    ((∃ x ∈ xs, f x = b) ↔ ∃ x ∈ xs, g x = b) ↔
      if ∃ x ∈ xs, g x = b then ∃ x ∈ xs, g x = b ↔ P x else ∀ x ∈ xs, P x := by
  split_ifs with h_some
  · -- the answer of `f` is `b` where `g` says so and both agree, or neither
    have h_each : ∀ x ∈ xs, f x = b ↔ (g x = b ↔ P x) := by
      intro x h_x
      rw [← h x h_x]
      cases f x <;> cases g x <;> cases b <;> simp
    refine ⟨fun h_iff => ?_, fun h_right => ⟨fun _ => h_some, fun _ => ?_⟩⟩
    · obtain ⟨x, h_x, h_f⟩ := h_iff.mpr h_some
      exact ⟨x, h_x, (h_each x h_x).mp h_f⟩
    · obtain ⟨x, h_x, h_right⟩ := h_right
      exact ⟨x, h_x, (h_each x h_x).mpr h_right⟩
  · have h_not : ∀ x ∈ xs, g x ≠ b := fun x h_x h_g => h_some ⟨x, h_x, h_g⟩
    refine ⟨fun h_iff x h_x => ?_, fun h_right => ⟨fun h_f => ?_, fun h_g => absurd h_g h_some⟩⟩
    · have h_f : f x ≠ b := fun h_f => h_some (h_iff.mp ⟨x, h_x, h_f⟩)
      exact (h x h_x).mp (by rw [Bool.eq_not_of_ne h_f, Bool.eq_not_of_ne (h_not x h_x)])
    · obtain ⟨x, h_x, h_f⟩ := h_f
      exact absurd ((h x h_x).mpr (h_right x h_x) ▸ h_f) (h_not x h_x)

end List
