import BkLite.Framework.Reach

/-!
# The roles of a user

A user has the roles of the own list and those of the groups, and a group hands its roles down to
the groups below it where it allows that (`get_user_all_roles`, `nats_api.py`). Only the groups
above those of the user are loaded (`_collect_ancestor_group_ids`), and one set of visited groups
serves all the chains.

Both loops stop although the parents may run in a circle: each round but the last of a chain visits
a group of the table that was not visited before.
-/

namespace SystemMgmt
namespace GroupRoles

open Reach Relation

/-- A row of `Group`, with the ids of its roles. -/
structure Group where
  id : ℤ
  name : String
  parentId : ℤ
  roles : List ℕ
  isVirtual : Bool
  allowInheritRoles : Bool
deriving DecidableEq, Repr

structure User where
  roleList : List ℕ
  groupList : List ℤ
deriving DecidableEq, Repr

def get (groups : List Group) (id : ℤ) : Option Group := groups.find? (·.id = id)

def ids (groups : List Group) : Finset ℤ := (groups.map (·.id)).toFinset

variable {table groups : List Group} {g p : ℤ} {group : Group}

theorem get_id (h : get groups g = some group) : group.id = g := by
  simpa using List.find?_some h

theorem mem_ids (h : get groups g = some group) : g ∈ ids groups := by
  rw [ids, List.mem_toFinset, ← get_id h]
  exact List.mem_map_of_mem (List.mem_of_find?_eq_some h)

theorem card_insert_lt {visited : Finset ℤ} (h : get groups g = some group) (h_new : g ∉ visited) :
    (ids groups \ insert g visited).card < (ids groups \ visited).card := by
  rw [Finset.sdiff_insert]
  exact Finset.card_erase_lt_of_mem (Finset.mem_sdiff.mpr ⟨mem_ids h, h_new⟩)

/-! ### The code -/

/-- The loop of `_collect_ancestor_group_ids`, the top of the stack first. -/
def collectAncestors (table : List Group) : List ℤ → Finset ℤ → Finset ℤ
  | [], result => result
  | gid :: stack, result =>
    if h_new : gid ∈ result then collectAncestors table stack result
    else
      match h : get table gid with
      | none => collectAncestors table stack (insert gid result)
      | some group =>
        if group.parentId ≠ 0 ∧ group.parentId ∉ insert gid result then
          collectAncestors table (group.parentId :: stack) (insert gid result)
        else collectAncestors table stack (insert gid result)
termination_by stack result => ((ids table \ result).card, stack.length)
decreasing_by
  · exact Prod.Lex.right _ (Nat.lt_succ_self _)
  · refine Prod.Lex.right' _ (Finset.card_le_card ?_) (Nat.lt_succ_self _)
    exact Finset.sdiff_subset_sdiff subset_rfl (Finset.subset_insert _ _)
  · exact Prod.Lex.left _ _ (card_insert_lt h h_new)
  · exact Prod.Lex.left _ _ (card_insert_lt h h_new)

def collectAncestorGroupIds (table : List Group) (seedIds : List ℤ) : Finset ℤ :=
  collectAncestors table seedIds.reverse ∅

/-- The sets that `collect_roles` fills. -/
structure Collected where
  visited : Finset ℤ
  groupRoleIds : Finset ℕ
deriving DecidableEq

def collectRoles (allGroups : List Group) (groupId : ℤ) (c : Collected) : Collected :=
  if h_new : groupId ∈ c.visited then c
  else
    match h : get allGroups groupId with
    | none => ⟨insert groupId c.visited, c.groupRoleIds⟩
    | some group =>
      let collected := ⟨insert groupId c.visited, c.groupRoleIds ∪ group.roles.toFinset⟩
      if group.parentId ≠ 0 then
        match get allGroups group.parentId with
        | none => collected
        | some parent =>
          if parent.allowInheritRoles then collectRoles allGroups group.parentId collected
          else collected
      else collected
termination_by (ids allGroups \ c.visited).card
decreasing_by exact card_insert_lt h h_new

/-- `list` of a set: each member once, in some order. -/
structure SetOrder (α : Type) where
  list : Finset α → List α
  nodup : ∀ s, (list s).Nodup
  mem : ∀ s a, a ∈ list s ↔ a ∈ s

def getUserAllRoles (order : SetOrder ℕ) (table : List Group) (user : User) : List ℕ :=
  let ancestorIds := collectAncestorGroupIds table user.groupList
  let allGroups := table.filter (·.id ∈ ancestorIds)
  let collected := user.groupList.foldl (fun c gid => collectRoles allGroups gid c) ⟨∅, ∅⟩
  order.list (user.roleList.toFinset ∪ collected.groupRoleIds)

/-! ### The groups above -/

def HasParent (groups : List Group) (g p : ℤ) : Prop :=
  ∃ group, get groups g = some group ∧ group.parentId = p ∧ p ≠ 0

def Inherits (groups : List Group) (g p : ℤ) : Prop :=
  HasParent groups g p ∧ ∃ parent, get groups p = some parent ∧ parent.allowInheritRoles = true

def OwnRole (groups : List Group) (g : ℤ) (r : ℕ) : Prop :=
  ∃ group, get groups g = some group ∧ r ∈ group.roles

theorem hasParent_iff (h : get groups g = some group) :
    HasParent groups g p ↔ group.parentId = p ∧ p ≠ 0 := by
  simp [HasParent, h]

theorem ownRole_iff (h : get groups g = some group) (r : ℕ) :
    r ∈ group.roles.toFinset ↔ OwnRole groups g r := by
  simp [OwnRole, h]

theorem not_hasParent (h : get groups g = none) : ¬HasParent groups g p := by
  simp [HasParent, h]

theorem mem_collectAncestors {stack : List ℤ} {result : Finset ℤ}
    (h : Leaves (HasParent table) result stack) {x : ℤ} :
    x ∈ collectAncestors table stack result ↔ Found (HasParent table) result stack x := by
  induction stack, result using collectAncestors.induct table with
  | case1 result => rw [collectAncestors, found_nil]
  | case2 gid stack result h_mem ih =>
    have h_pop := h.pop h_mem
    rw [collectAncestors, dif_pos h_mem, ih h_pop, h_pop.found_pop h_mem]
  | case3 gid stack result h_new h_get ih =>
    have h_visit : Leaves (HasParent table) (insert gid result) stack :=
      h.visit (fun _ h_b => h_b) fun b h_step => absurd h_step (not_hasParent h_get)
    rw [collectAncestors, dif_neg h_new]
    split
    · rw [ih h_visit, h_visit.found_visit (fun _ h_b => h_b) fun _ h_b => .inl h_b]
    · cases h_get.symm.trans ‹_›
  | case4 gid stack result h_new group h_get h_parent ih =>
    have h_sub : ∀ b ∈ stack, b ∈ group.parentId :: stack := fun _ => List.mem_cons_of_mem _
    have h_visit : Leaves (HasParent table) (insert gid result) (group.parentId :: stack) := by
      refine h.visit h_sub fun b h_step => .inr ?_
      rw [((hasParent_iff h_get).mp h_step).1]
      exact List.mem_cons_self
    have h_back : ∀ b ∈ group.parentId :: stack, b ∈ stack ∨ HasParent table gid b := by
      intro b h_b
      obtain rfl | h_b := List.mem_cons.mp h_b
      · exact .inr ((hasParent_iff h_get).mpr ⟨rfl, h_parent.1⟩)
      · exact .inl h_b
    rw [collectAncestors, dif_neg h_new]
    split
    · cases h_get.symm.trans ‹_›
    · obtain rfl : group = _ := Option.some.inj (h_get.symm.trans ‹_›)
      rw [if_pos h_parent, ih h_visit, h_visit.found_visit h_sub h_back]
  | case5 gid stack result h_new group h_get h_parent ih =>
    have h_visit : Leaves (HasParent table) (insert gid result) stack := by
      refine h.visit (fun _ h_b => h_b) fun b h_step => .inl ?_
      obtain ⟨rfl, h_ne⟩ := (hasParent_iff h_get).mp h_step
      exact not_not.mp fun h_b => h_parent ⟨h_ne, h_b⟩
    rw [collectAncestors, dif_neg h_new]
    split
    · cases h_get.symm.trans ‹_›
    · obtain rfl : group = _ := Option.some.inj (h_get.symm.trans ‹_›)
      rw [if_neg h_parent, ih h_visit,
        h_visit.found_visit (fun _ h_b => h_b) fun _ h_b => .inl h_b]

/-! ### The roles -/

def Good (groups : List Group) (c : Collected) : Prop :=
  ∀ r, r ∈ c.groupRoleIds ↔ ∃ g ∈ c.visited, OwnRole groups g r

theorem Good.visit {c : Collected} (h : Good groups c) {own : Finset ℕ}
    (h_own : ∀ r, r ∈ own ↔ OwnRole groups g r) :
    Good groups ⟨insert g c.visited, c.groupRoleIds ∪ own⟩ := by
  intro r
  simp only [Finset.mem_union, h r, h_own r, Finset.mem_insert]
  constructor
  · rintro (⟨g', h_g', h_r⟩ | h_r)
    · exact ⟨g', .inr h_g', h_r⟩
    · exact ⟨g, .inl rfl, h_r⟩
  · rintro ⟨g', rfl | h_g', h_r⟩
    · exact .inr h_r
    · exact .inl ⟨g', h_g', h_r⟩

theorem found_last {visited : Finset ℤ} (h : Leaves (Inherits groups) visited [g])
    (h_last : ∀ b, ¬Inherits groups g b) {x : ℤ} :
    x ∈ insert g visited ↔ Found (Inherits groups) visited [g] x := by
  have h_visit : Leaves (Inherits groups) (insert g visited) [] :=
    h.visit (fun _ h_b => h_b) fun b h_step => absurd h_step (h_last b)
  rw [← h_visit.found_visit (fun _ h_b => h_b) fun _ h_b => .inl h_b, found_nil]

theorem collectRoles_of_get {c : Collected} (h_new : g ∉ c.visited)
    (h_get : get groups g = some group) :
    collectRoles groups g c =
      let collected := ⟨insert g c.visited, c.groupRoleIds ∪ group.roles.toFinset⟩
      if group.parentId ≠ 0 then
        match get groups group.parentId with
        | none => collected
        | some parent =>
          if parent.allowInheritRoles then collectRoles groups group.parentId collected
          else collected
      else collected := by
  rw [collectRoles, dif_neg h_new]
  split
  · cases h_get.symm.trans ‹_›
  · obtain rfl : group = _ := Option.some.inj (h_get.symm.trans ‹_›)
    rfl

theorem mem_collectRoles {c : Collected} (h : Leaves (Inherits groups) c.visited [g])
    (h_good : Good groups c) :
    (∀ x, x ∈ (collectRoles groups g c).visited ↔ Found (Inherits groups) c.visited [g] x) ∧
      Good groups (collectRoles groups g c) := by
  induction g, c using collectRoles.induct groups with
  | case1 g c h_mem =>
    rw [collectRoles, dif_pos h_mem]
    exact ⟨fun x => by rw [← (h.pop h_mem).found_pop h_mem, found_nil], h_good⟩
  | case2 g c h_new h_get =>
    have h_own : ∀ r, r ∈ (∅ : Finset ℕ) ↔ OwnRole groups g r := by simp [OwnRole, h_get]
    have h_last : ∀ b, ¬Inherits groups g b := fun b h_step => not_hasParent h_get h_step.1
    rw [collectRoles, dif_neg h_new]
    split
    · refine ⟨fun x => found_last h h_last, ?_⟩
      simpa using h_good.visit h_own
    · cases h_get.symm.trans ‹_›
  | case3 g c h_new group h_get h_parent h_none =>
    have h_last : ∀ b, ¬Inherits groups g b := by
      rintro b ⟨h_step, parent, h_some, -⟩
      rw [← ((hasParent_iff h_get).mp h_step).1, h_none] at h_some
      cases h_some
    rw [collectRoles_of_get h_new h_get]
    simp only [if_pos h_parent, h_none]
    exact ⟨fun x => found_last h h_last, h_good.visit (ownRole_iff h_get)⟩
  | case4 g c h_new group h_get collected h_parent parent h_some h_allow ih =>
    have h_step : Inherits groups g group.parentId :=
      ⟨(hasParent_iff h_get).mpr ⟨rfl, h_parent⟩, parent, h_some, h_allow⟩
    have h_visit : Leaves (Inherits groups) (insert g c.visited) [group.parentId] := by
      refine h.visit (fun _ h_b => absurd h_b List.not_mem_nil) fun b h_b => .inr ?_
      rw [((hasParent_iff h_get).mp h_b.1).1]
      exact List.mem_cons_self
    obtain ⟨h_visited, h_roles⟩ := ih h_visit (h_good.visit (ownRole_iff h_get))
    rw [collectRoles_of_get h_new h_get]
    simp only [if_pos h_parent, h_some, if_pos h_allow]
    refine ⟨fun x => (h_visited x).trans ?_, h_roles⟩
    refine h_visit.found_visit (fun _ h_b => absurd h_b List.not_mem_nil) fun b h_b => .inr ?_
    rw [List.mem_singleton.mp h_b]
    exact h_step
  | case5 g c h_new group h_get h_parent parent h_some h_allow =>
    have h_last : ∀ b, ¬Inherits groups g b := by
      rintro b ⟨h_step, parent', h_some', h_allow'⟩
      rw [← ((hasParent_iff h_get).mp h_step).1, h_some] at h_some'
      cases h_some'
      exact h_allow h_allow'
    rw [collectRoles_of_get h_new h_get]
    simp only [if_pos h_parent, h_some, if_neg h_allow]
    exact ⟨fun x => found_last h h_last, h_good.visit (ownRole_iff h_get)⟩
  | case6 g c h_new group h_get h_parent =>
    have h_last : ∀ b, ¬Inherits groups g b := by
      rintro b ⟨h_step, -⟩
      obtain ⟨rfl, h_ne⟩ := (hasParent_iff h_get).mp h_step
      exact h_parent h_ne
    rw [collectRoles_of_get h_new h_get]
    simp only [if_neg h_parent]
    exact ⟨fun x => found_last h h_last, h_good.visit (ownRole_iff h_get)⟩

theorem mem_collectRoles_foldl (gids : List ℤ) {c : Collected}
    (h : Leaves (Inherits groups) c.visited []) (h_good : Good groups c) :
    (∀ x, x ∈ (gids.foldl (fun c gid => collectRoles groups gid c) c).visited ↔
        Found (Inherits groups) c.visited gids x) ∧
      Good groups (gids.foldl (fun c gid => collectRoles groups gid c) c) := by
  induction gids generalizing c with
  | nil => exact ⟨fun x => found_nil.symm, h_good⟩
  | cons gid gids ih =>
    have h_leaves : Leaves (Inherits groups) c.visited [gid] :=
      fun a h_a b h_step => (h a h_a b h_step).imp_right (List.mem_cons_of_mem _)
    obtain ⟨h_visited, h_roles⟩ := mem_collectRoles h_leaves h_good
    have h_closed : Leaves (Inherits groups) (collectRoles groups gid c).visited [] := by
      intro a h_a b h_step
      rw [h_visited] at h_a ⊢
      exact .inl (h_a.step h h_step)
    obtain ⟨h_rest, h_all⟩ := ih h_closed h_roles
    refine ⟨fun x => (h_rest x).trans ?_, h_all⟩
    simp only [Found, h_visited, List.mem_cons, exists_eq_or_imp, or_assoc, List.not_mem_nil,
      false_and, exists_false, false_or]

/-! ### What is loaded -/

theorem get_filter (s : Finset ℤ) (g : ℤ) :
    get (table.filter (·.id ∈ s)) g = if g ∈ s then get table g else none := by
  rw [get, List.find?_filter]
  split_ifs with h_g
  · refine congrArg (table.find? ·) (funext fun a => ?_)
    by_cases h : a.id = g <;> simp [h, h_g]
  · refine List.find?_eq_none.mpr fun a _ => ?_
    by_cases h : a.id = g <;> simp [h, h_g]

theorem mem_collectAncestorGroupIds {seeds : List ℤ} :
    g ∈ collectAncestorGroupIds table seeds ↔ ∃ s ∈ seeds, ReflTransGen (HasParent table) s g := by
  rw [collectAncestorGroupIds, mem_collectAncestors fun _ h => absurd h (Finset.notMem_empty _)]
  simp [Found]

theorem loaded {seeds : List ℤ} {s : ℤ} (h_s : s ∈ seeds)
    (h : ReflTransGen (Inherits table) s g) : g ∈ collectAncestorGroupIds table seeds :=
  mem_collectAncestorGroupIds.mpr
    ⟨s, h_s, ReflTransGen.mono (fun _ _ h_step => h_step.1) _ _ h⟩

theorem inherits_filter {s : Finset ℤ} :
    Inherits (table.filter (·.id ∈ s)) g p ↔ g ∈ s ∧ p ∈ s ∧ Inherits table g p := by
  simp only [Inherits, HasParent, get_filter, ite_eq_iff, reduceCtorEq, and_false, or_false]
  tauto

theorem reach_filter {seeds : List ℤ} {s : ℤ} (h_s : s ∈ seeds) :
    ReflTransGen (Inherits (table.filter (·.id ∈ collectAncestorGroupIds table seeds))) s g ↔
      ReflTransGen (Inherits table) s g := by
  constructor
  · exact ReflTransGen.mono (fun _ _ h_step => (inherits_filter.mp h_step).2.2) _ _
  · intro h
    induction h with
    | refl => exact .refl
    | tail h_reach h_step ih =>
      have h_loaded := loaded h_s h_reach
      have h_loaded' := loaded h_s (h_reach.tail h_step)
      exact ih.tail (inherits_filter.mpr ⟨h_loaded, h_loaded', h_step⟩)

theorem mem_roles {order : SetOrder ℕ} {user : User} {r : ℕ} :
    r ∈ getUserAllRoles order table user ↔
      r ∈ user.roleList ∨ ∃ s ∈ user.groupList, ∃ g,
        ReflTransGen (Inherits table) s g ∧ OwnRole table g r := by
  obtain ⟨h_visited, h_good⟩ := @mem_collectRoles_foldl
    (table.filter (·.id ∈ collectAncestorGroupIds table user.groupList)) user.groupList ⟨∅, ∅⟩
    (fun _ h => absurd h (Finset.notMem_empty _)) fun _ => by simp
  rw [getUserAllRoles, order.mem, Finset.mem_union, List.mem_toFinset, h_good]
  refine or_congr_right ?_
  constructor
  · rintro ⟨g, h_g, group, h_get, h_r⟩
    obtain h_g | ⟨s, h_s, h_reach⟩ := (h_visited g).mp h_g
    · exact absurd h_g (Finset.notMem_empty _)
    · have h_reach' := (reach_filter h_s).mp h_reach
      rw [get_filter, if_pos (loaded h_s h_reach')] at h_get
      exact ⟨s, h_s, g, h_reach', group, h_get, h_r⟩
  · rintro ⟨s, h_s, g, h_reach, group, h_get, h_r⟩
    refine ⟨g, (h_visited g).mpr (.inr ⟨s, h_s, (reach_filter h_s).mpr h_reach⟩), group, ?_, h_r⟩
    rw [get_filter, if_pos (loaded h_s h_reach), h_get]

/-- **The roles of a user.** Each once: the personal ones, and those of the groups that hand theirs
down. -/
theorem getUserAllRoles_exact (order order' : SetOrder ℕ) (table : List Group) (user : User) :
    (getUserAllRoles order table user).Nodup ∧
      (∀ r, r ∈ getUserAllRoles order table user ↔
        r ∈ user.roleList ∨ ∃ s ∈ user.groupList, ∃ g,
          ReflTransGen (Inherits table) s g ∧ OwnRole table g r) ∧
      ∀ groupList, groupList.Perm user.groupList →
        (getUserAllRoles order' table { user with groupList }).Perm
          (getUserAllRoles order table user) := by
  refine ⟨order.nodup _, fun r => mem_roles, fun groupList h_perm => ?_⟩
  refine (List.perm_ext_iff_of_nodup (order'.nodup _) (order.nodup _)).mpr fun r => ?_
  rw [← getUserAllRoles, ← getUserAllRoles, mem_roles, mem_roles]
  simp only [h_perm.mem_iff]

end GroupRoles
end SystemMgmt
