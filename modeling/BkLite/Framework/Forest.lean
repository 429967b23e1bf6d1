import Mathlib.Data.List.Nodup
import Mathlib.Order.WellFounded

/-!
# Trees out of their edges

A tree is unfolded from a root by the list of the children of each place, where that cannot go on
for ever. Its places are those that the root leads to (`mem_places`), each once if no two places
share a child (`nodup_places`), and at each stands the tree below it (`nodes_unfold`).
-/

namespace Forest

open Relation

variable {α β : Type*}

inductive Tree (β : Type*)
  | node (label : β) (subtrees : List (Tree β))

namespace Tree

def label : Tree β → β
  | node b _ => b

def subtrees : Tree β → List (Tree β)
  | node _ ts => ts

def nodes : Tree β → List (Tree β)
  | node b ts => node b ts :: ts.flatMap nodes

end Tree

def unfold (f : α → β) (children : α → List α) (wf : WellFounded fun c a => c ∈ children a)
    (a : α) : Tree β :=
  .node (f a) ((children a).attach.map fun c => unfold f children wf c.1)
termination_by wf.wrap a
decreasing_by exact c.2

def places (children : α → List α) (wf : WellFounded fun c a => c ∈ children a) (a : α) : List α :=
  a :: (children a).attach.flatMap fun c => places children wf c.1
termination_by wf.wrap a
decreasing_by exact c.2

def Below (children : α → List α) : α → α → Prop := ReflTransGen fun a c => c ∈ children a

variable {f : α → β} {children : α → List α} {wf : WellFounded fun c a => c ∈ children a}
  {a b c : α} {xs : List α}

theorem unfold_eq (a : α) :
    unfold f children wf a = .node (f a) ((children a).map (unfold f children wf)) := by
  rw [unfold, List.attach_map_val]

theorem places_eq (a : α) :
    places children wf a = a :: (children a).flatMap (places children wf) := by
  rw [places, List.flatMap_def, List.attach_map_val, List.flatMap_def]

@[simp] theorem label_unfold : (unfold f children wf a).label = f a := by
  rw [unfold_eq, Tree.label]

@[simp] theorem subtrees_unfold :
    (unfold f children wf a).subtrees = (children a).map (unfold f children wf) := by
  rw [unfold_eq, Tree.subtrees]

theorem nodes_unfold :
    (unfold f children wf a).nodes = (places children wf a).map (unfold f children wf) := by
  induction a using wf.induction with
  | _ a ih =>
    rw [unfold_eq, Tree.nodes, ← unfold_eq, places_eq, List.map_cons, List.flatMap_map,
      List.map_flatMap]
    exact congrArg _ (List.flatMap_congr ih)

theorem mem_places : b ∈ places children wf a ↔ Below children a b := by
  induction a using wf.induction with
  | _ a ih =>
    rw [places_eq, List.mem_cons, List.mem_flatMap, Below, ReflTransGen.cases_head_iff, eq_comm]
    exact or_congr_right (exists_congr fun c => and_congr_right fun h_c => ih c h_c)

theorem not_below_of_child (wf : WellFounded fun c a => c ∈ children a) (h : c ∈ children a) :
    ¬Below children c a := by
  intro h_below
  have h_cycle : TransGen (fun a c => c ∈ children a) a a := .head' h h_below
  exact wf.transGen.irrefl.irrefl a (transGen_swap.mp h_cycle)

section Unique

variable (h_unique : ∀ a b c, c ∈ children a → c ∈ children b → a = b)

include h_unique in
theorem nodup_flatMap_places (h_nodup : xs.Nodup)
    (h_apart : ∀ a ∈ xs, ∀ b ∈ xs, Below children a b → a = b)
    (h_each : ∀ a ∈ xs, (places children wf a).Nodup) :
    (xs.flatMap (places children wf)).Nodup := by
  refine List.nodup_flatMap.mpr ⟨h_each, h_nodup.imp_of_mem fun {a b} h_a h_b h_ne => ?_⟩
  intro d h_ad h_bd
  rw [mem_places] at h_ad h_bd
  have h_up : Relator.RightUnique fun c a => c ∈ children a := fun c a b => h_unique a b c
  obtain h | h := ReflTransGen.total_of_right_unique h_up h_ad.swap h_bd.swap
  · exact h_ne (h_apart b h_b a h_a h.swap).symm
  · exact h_ne (h_apart a h_a b h_b h.swap)

include h_unique in
theorem nodup_places (h_children : ∀ a, (children a).Nodup) (a : α) :
    (places children wf a).Nodup := by
  induction a using wf.induction with
  | _ a ih =>
    have h_apart : ∀ b ∈ children a, ∀ c ∈ children a, Below children b c → b = c := by
      intro b h_b c h_c h
      obtain h | ⟨p, h_p, h_child⟩ := ReflTransGen.cases_tail h
      · exact h.symm
      · rw [h_unique p a c h_child h_c] at h_p
        exact absurd h_p (not_below_of_child wf h_b)
    rw [places_eq, List.nodup_cons]
    refine ⟨?_, nodup_flatMap_places h_unique (h_children a) h_apart ih⟩
    intro h_mem
    obtain ⟨c, h_c, h_a⟩ := List.mem_flatMap.mp h_mem
    exact not_below_of_child wf h_c (mem_places.mp h_a)

end Unique

end Forest
