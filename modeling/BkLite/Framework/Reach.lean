import Mathlib.Order.WellFoundedSet

/-!
# Reachable sets without cycles

The set reached from a start by the steps of a relation is closed under the steps, and each of its
members but the start is entered by a step from another member. Where the relation has no infinite
descent the two facts determine the set (`reached_iff`): a member that is entered from a member
that is entered from a member can be followed back only finitely often, so the way back ends at
the start.

A walk that takes places from a stack, visits them and puts their further places on it visits what
can be reached from the stack (`Leaves.found_visit`), with or without cycles.
-/

namespace Reach

open Relation

variable {α : Type*} {r : α → α → Prop} {start : α} {E : Set α}

def Supported (r : α → α → Prop) (start : α) (E : Set α) : Prop :=
  ∀ b ∈ E, b ≠ start → ∃ a ∈ E, r a b

def Closed (r : α → α → Prop) (E : Set α) : Prop :=
  ∀ a ∈ E, ∀ b, r a b → b ∈ E

theorem Closed.mem_of_reach (h : Closed r E) (h_start : start ∈ E) {b : α}
    (h_reach : ReflTransGen r start b) : b ∈ E := by
  induction h_reach with
  | refl => exact h_start
  | tail _ h_step ih => exact h _ ih _ h_step

theorem Supported.reach (wf : WellFounded r) (h : Supported r start E) {b : α} (h_b : b ∈ E) :
    ReflTransGen r start b := by
  induction b using wf.induction with
  | _ b ih =>
    by_cases h_eq : b = start
    · rw [h_eq]
    · obtain ⟨a, h_a, h_step⟩ := h b h_b h_eq
      exact (ih a h_step h_a).tail h_step

/-- **Reachable sets.** Those that are supported and closed, without infinite descent. -/
theorem reached_iff (wf : WellFounded r) (h_start : start ∈ E) :
    (∀ b, b ∈ E ↔ ReflTransGen r start b) ↔ Supported r start E ∧ Closed r E := by
  constructor
  · intro h
    constructor
    · intro b h_b h_ne
      rcases ReflTransGen.cases_tail ((h b).mp h_b) with h_eq | ⟨a, h_a, h_step⟩
      · exact absurd h_eq h_ne
      · exact ⟨a, (h a).mpr h_a, h_step⟩
    · intro a h_a b h_step
      exact (h b).mpr (((h a).mp h_a).tail h_step)
  · rintro ⟨h_supported, h_closed⟩ b
    exact ⟨fun h_b => h_supported.reach wf h_b, fun h_b => h_closed.mem_of_reach h_start h_b⟩

theorem wellFounded_of_acyclic (h_acyclic : ∀ a, ¬TransGen r a a) {s : Set α} (h_finite : s.Finite)
    (h_s : ∀ a b, r a b → a ∈ s ∧ b ∈ s) : WellFounded r := by
  have : IsStrictOrder α (TransGen r) := { irrefl := h_acyclic, trans := fun _ _ _ => .trans }
  have h_on : WellFounded fun a b => TransGen r a b ∧ a ∈ s ∧ b ∈ s :=
    Set.wellFoundedOn_iff.mp (h_finite.wellFoundedOn)
  exact Subrelation.wf (fun {a b} h_step => ⟨.single h_step, h_s a b h_step⟩) h_on

theorem wellFounded_flip (wf : WellFounded r) {s : Set α} (h_finite : s.Finite)
    (h_s : ∀ a b, r a b → a ∈ s ∧ b ∈ s) : WellFounded (flip r) := by
  refine wellFounded_of_acyclic (fun a h => ?_) h_finite fun a b h_step => (h_s b a h_step).symm
  exact wf.transGen.irrefl.irrefl a (transGen_swap.mp h)

/-! ### Walks with a set of visited places -/

section Walk

variable {visited : Finset α} {stack stack' : List α} {a b : α}

def Leaves (r : α → α → Prop) (visited : Finset α) (stack : List α) : Prop :=
  ∀ a ∈ visited, ∀ b, r a b → b ∈ visited ∨ b ∈ stack

def Found (r : α → α → Prop) (visited : Finset α) (stack : List α) (b : α) : Prop :=
  b ∈ visited ∨ ∃ s ∈ stack, ReflTransGen r s b

theorem Leaves.found (h : Leaves r visited stack) (h_a : a ∈ visited)
    (h_reach : ReflTransGen r a b) : Found r visited stack b := by
  induction h_reach with
  | refl => exact .inl h_a
  | tail _ h_step ih =>
    obtain h_mem | ⟨s, h_s, h_reach⟩ := ih
    · exact (h _ h_mem _ h_step).imp_right fun h_s => ⟨_, h_s, .refl⟩
    · exact .inr ⟨s, h_s, h_reach.tail h_step⟩

theorem Found.step (h : Leaves r visited []) (h_a : Found r visited stack a) (h_step : r a b) :
    Found r visited stack b := by
  obtain h_a | ⟨s, h_s, h_reach⟩ := h_a
  · exact .inl ((h a h_a b h_step).resolve_right List.not_mem_nil)
  · exact .inr ⟨s, h_s, h_reach.tail h_step⟩

theorem found_nil : Found r visited [] b ↔ b ∈ visited := by
  simp [Found]

theorem Leaves.pop (h : Leaves r visited (a :: stack)) (h_a : a ∈ visited) :
    Leaves r visited stack := by
  intro c h_c b h_step
  obtain h_b | h_b := h c h_c b h_step
  · exact .inl h_b
  · obtain rfl | h_b := List.mem_cons.mp h_b
    · exact .inl h_a
    · exact .inr h_b

theorem Leaves.found_pop (h : Leaves r visited stack) (h_a : a ∈ visited) :
    Found r visited stack b ↔ Found r visited (a :: stack) b := by
  constructor
  · rintro (h_b | ⟨s, h_s, h_reach⟩)
    · exact .inl h_b
    · exact .inr ⟨s, List.mem_cons_of_mem _ h_s, h_reach⟩
  · rintro (h_b | ⟨s, h_s, h_reach⟩)
    · exact .inl h_b
    · obtain rfl | h_s := List.mem_cons.mp h_s
      · exact h.found h_a h_reach
      · exact .inr ⟨s, h_s, h_reach⟩

variable [DecidableEq α]

theorem Leaves.visit (h : Leaves r visited (a :: stack)) (h_stack : ∀ b ∈ stack, b ∈ stack')
    (h_steps : ∀ b, r a b → b ∈ insert a visited ∨ b ∈ stack') :
    Leaves r (insert a visited) stack' := by
  intro c h_c b h_step
  obtain rfl | h_c := Finset.mem_insert.mp h_c
  · exact h_steps b h_step
  · obtain h_b | h_b := h c h_c b h_step
    · exact .inl (Finset.mem_insert_of_mem h_b)
    · obtain rfl | h_b := List.mem_cons.mp h_b
      · exact .inl (Finset.mem_insert_self _ _)
      · exact .inr (h_stack b h_b)

/-- **A visit.** With the top of the stack visited and its further steps on the stack, the walk
finds what it would have found. -/
theorem Leaves.found_visit (h : Leaves r (insert a visited) stack')
    (h_stack : ∀ b ∈ stack, b ∈ stack') (h_new : ∀ b ∈ stack', b ∈ stack ∨ r a b) :
    Found r (insert a visited) stack' b ↔ Found r visited (a :: stack) b := by
  constructor
  · rintro (h_b | ⟨s, h_s, h_reach⟩)
    · obtain rfl | h_b := Finset.mem_insert.mp h_b
      · exact .inr ⟨_, List.mem_cons_self, .refl⟩
      · exact .inl h_b
    · obtain h_s | h_step := h_new s h_s
      · exact .inr ⟨s, List.mem_cons_of_mem _ h_s, h_reach⟩
      · exact .inr ⟨a, List.mem_cons_self, h_reach.head h_step⟩
  · rintro (h_b | ⟨s, h_s, h_reach⟩)
    · exact .inl (Finset.mem_insert_of_mem h_b)
    · obtain rfl | h_s := List.mem_cons.mp h_s
      · exact h.found (Finset.mem_insert_self _ _) h_reach
      · exact .inr ⟨s, h_stack s h_s, h_reach⟩

end Walk

end Reach
