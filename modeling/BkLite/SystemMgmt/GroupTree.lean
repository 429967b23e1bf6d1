import BkLite.Framework.Forest
import BkLite.SystemMgmt.GroupRoles

/-!
# The tree of the groups

A user is shown the groups that the user has and those above them, as trees
(`build_group_tree`, `utils/group_utils.py`). The groups above are added to a set that the groups of
the user are in from the start (`_get_visible_groups`), so a chain is left where it meets one of
them, which has a chain of its own (`mem_getVisibleGroups`). The trees are then put together by
references between the entries of a dictionary (`_assemble_tree`).

Below a group (`get_group_with_descendants_filtered`) the groups that are not permitted are left
out, and those below them are not.
-/

namespace SystemMgmt
namespace GroupTree

open Relation Forest GroupRoles

def ChildOf (rows : List Group) (c p : ℤ) : Prop :=
  ∃ group ∈ rows, group.id = c ∧ group.parentId = p

/-- The table of the groups, without circles. A root has the parent 0. -/
structure GroupTable where
  rows : List Group
  nodup : (rows.map (·.id)).Nodup
  positive : ∀ group ∈ rows, 0 < group.id
  acyclic : ∀ g, ¬TransGen (ChildOf rows) g g

def Above (rows : List Group) : ℤ → ℤ → Prop := ReflTransGen (ChildOf rows)

theorem GroupTable.wellFounded (table : GroupTable) : WellFounded (ChildOf table.rows) := by
  refine Reach.wellFounded_of_acyclic table.acyclic
    (s := {g | g ∈ table.rows.map (·.id) ∨ g ∈ table.rows.map (·.parentId)}) ?_ ?_
  · exact (List.finite_toSet _).union (List.finite_toSet _)
  · rintro _ _ ⟨group, h_group, rfl, rfl⟩
    exact ⟨.inl (List.mem_map_of_mem h_group), .inr (List.mem_map_of_mem h_group)⟩

/-! ### The entries -/

/-- A value of `group_dict`, but for its `subGroups`. -/
structure GroupData where
  id : ℤ
  name : String
  subGroupCount : ℕ
  hasAuth : Bool
  roleIds : List ℕ
  isVirtual : Bool
  parentId : Option ℤ
deriving DecidableEq, Repr

def groupData (isSuperuser : Bool) (userGroups : List ℤ) (group : Group) : GroupData where
  id := group.id
  name := group.name
  subGroupCount := 0
  hasAuth := isSuperuser || userGroups.contains group.id
  roleIds := group.roles
  isVirtual := group.isVirtual
  parentId := if group.parentId = 0 then none else some group.parentId

def buildGroupDict (groups : List Group) (isSuperuser : Bool) (userGroups : List ℤ) :
    List GroupData :=
  groups.map (groupData isSuperuser userGroups)

def entry (dict : List GroupData) (gid : ℤ) : Option GroupData := dict.find? (·.id = gid)

/-! ### `_assemble_tree` -/

abbrev Ref (dict : List GroupData) := {data : GroupData // data ∈ dict}

structure Assembly (dict : List GroupData) where
  rootGroups : List (Ref dict)
  subGroups : ℤ → List (Ref dict)
  subGroupCount : ℤ → ℕ

variable {dict : List GroupData}

def Assembly.place (a : Assembly dict) (ref : Ref dict) : Assembly dict :=
  match ref.1.parentId with
  | none => { a with rootGroups := a.rootGroups ++ [ref] }
  | some p =>
    if p ∈ dict.map (·.id) then
      { a with
        subGroups := Function.update a.subGroups p (a.subGroups p ++ [ref])
        subGroupCount := Function.update a.subGroupCount p (a.subGroupCount p + 1) }
    else { a with rootGroups := a.rootGroups ++ [ref] }

def assembly (dict : List GroupData) : Assembly dict :=
  dict.attach.foldl Assembly.place ⟨[], fun _ => [], fun _ => 0⟩

def sortById (refs : List (Ref dict)) : List (Ref dict) :=
  refs.mergeSort fun x y => x.1.id ≤ y.1.id

/-- The sorted `subGroups`. -/
def children (ref : Ref dict) : List (Ref dict) := sortById ((assembly dict).subGroups ref.1.id)

def counted (ref : Ref dict) : GroupData :=
  { ref.1 with subGroupCount := ref.1.subGroupCount + (assembly dict).subGroupCount ref.1.id }

def assembleTree (dict : List GroupData)
    (wf : WellFounded fun (c : Ref dict) a => c ∈ children a) : List (Forest.Tree GroupData) :=
  (sortById (assembly dict).rootGroups).map (unfold counted children wf)

/-! ### `_get_visible_groups` -/

/-- The `parentId` of the entry. -/
def parentOf (dict : List GroupData) (gid : ℤ) : Option ℤ := (entry dict gid).bind (·.parentId)

def parentIds (dict : List GroupData) : Finset ℤ := (dict.filterMap (·.parentId)).toFinset

theorem mem_parentIds {gid p : ℤ} (h : parentOf dict gid = some p) : p ∈ parentIds dict := by
  obtain ⟨data, h_entry, h_p⟩ := Option.bind_eq_some_iff.mp h
  have h_data : data ∈ dict := List.mem_of_find?_eq_some h_entry
  exact List.mem_toFinset.mpr (List.mem_filterMap.mpr ⟨data, h_data, h_p⟩)

def addParentGroups (dict : List GroupData) (gid : ℤ) (visibleIds : Finset ℤ) : Finset ℤ :=
  match h : parentOf dict gid with
  | none => visibleIds
  | some p =>
    if h_new : p ∈ visibleIds then visibleIds
    else addParentGroups dict p (insert p visibleIds)
termination_by (parentIds dict \ visibleIds).card
decreasing_by
  rw [Finset.sdiff_insert]
  exact Finset.card_erase_lt_of_mem (Finset.mem_sdiff.mpr ⟨mem_parentIds h, h_new⟩)

def getVisibleGroups (dict : List GroupData) (userGroups : List ℤ) : Finset ℤ :=
  userGroups.foldl (fun visibleIds gid => addParentGroups dict gid visibleIds) userGroups.toFinset

/-- `filtered_dict` of `_build_filtered_tree`. -/
def filteredDict (order : SetOrder ℤ) (dict : List GroupData) (visibleIds : Finset ℤ)
    (userGroups : List ℤ) : List GroupData :=
  (order.list visibleIds).filterMap fun gid => (entry dict gid).map fun data =>
    { data with hasAuth := userGroups.contains gid, subGroupCount := 0 }

/-! ### What the parts are -/

theorem mem_of_entry {gid : ℤ} {data : GroupData} (h : entry dict gid = some data) :
    data ∈ dict ∧ data.id = gid :=
  ⟨List.mem_of_find?_eq_some h, by simpa using List.find?_some h⟩

theorem entry_iff (h_nodup : (dict.map (·.id)).Nodup) {gid : ℤ} {data : GroupData} :
    entry dict gid = some data ↔ data ∈ dict ∧ data.id = gid := by
  refine ⟨mem_of_entry, ?_⟩
  rintro ⟨h_mem, rfl⟩
  have h_some : (entry dict data.id).isSome := List.find?_isSome.mpr ⟨data, h_mem, by simp⟩
  obtain ⟨found, h_found⟩ := Option.isSome_iff_exists.mp h_some
  obtain ⟨h_in, h_id⟩ := mem_of_entry h_found
  exact h_found.trans (congrArg some (List.inj_on_of_nodup_map h_nodup h_in h_mem h_id))

def childRefs (refs : List (Ref dict)) (p : ℤ) : List (Ref dict) :=
  refs.filter fun ref => ref.1.parentId = some p ∧ p ∈ dict.map (·.id)

def rootRefs (refs : List (Ref dict)) : List (Ref dict) :=
  refs.filter fun ref => ∀ p ∈ ref.1.parentId, p ∉ dict.map (·.id)

theorem foldl_place (refs : List (Ref dict)) (a : Assembly dict) :
    refs.foldl Assembly.place a =
      { rootGroups := a.rootGroups ++ rootRefs refs
        subGroups := fun p => a.subGroups p ++ childRefs refs p
        subGroupCount := fun p => a.subGroupCount p + (childRefs refs p).length } := by
  induction refs generalizing a with
  | nil => simp [rootRefs, childRefs]
  | cons ref refs ih =>
    rw [List.foldl_cons, ih, Assembly.place]
    match h_parent : ref.1.parentId with
    | none => simp [rootRefs, childRefs, h_parent]
    | some p =>
      by_cases h_p : p ∈ dict.map (·.id)
      · have h_root : rootRefs (ref :: refs) = rootRefs refs := by simp_all [rootRefs]
        have h_child : ∀ q, childRefs (ref :: refs) q =
            if q = p then ref :: childRefs refs q else childRefs refs q := by
          intro q
          rw [childRefs, List.filter_cons, h_parent]
          by_cases h_q : q = p
          · simp [h_q, h_p, childRefs]
          · simp [h_q, Ne.symm h_q, childRefs]
        simp only [if_pos h_p, h_root, Assembly.mk.injEq, true_and]
        constructor <;> funext q <;> rw [h_child] <;> by_cases h_q : q = p
        · simp [h_q]
        · simp [h_q]
        · simp only [h_q, Function.update_self, if_true, List.length_cons]
          omega
        · simp [h_q]
      · have h_root : rootRefs (ref :: refs) = ref :: rootRefs refs := by simp_all [rootRefs]
        have h_child : ∀ q, childRefs (ref :: refs) q = childRefs refs q := by
          intro q
          refine List.filter_cons_of_neg ?_
          simp only [h_parent, Option.some.injEq, decide_eq_true_eq, not_and]
          rintro rfl
          exact h_p
        simp only [if_neg h_p, h_root, h_child, List.append_assoc, List.singleton_append]

theorem assembly_eq : assembly dict =
    ⟨rootRefs dict.attach, childRefs dict.attach, fun p => (childRefs dict.attach p).length⟩ := by
  simp [assembly, foldl_place]

theorem mem_children {c a : Ref dict} : c ∈ children a ↔ c.1.parentId = some a.1.id := by
  rw [children, assembly_eq]
  show c ∈ List.mergeSort (childRefs dict.attach a.1.id) _ ↔ _
  rw [List.mem_mergeSort, childRefs, List.mem_filter]
  simp only [List.mem_attach, true_and, decide_eq_true_eq, and_iff_left_iff_imp]
  exact fun _ => List.mem_map_of_mem a.2

theorem mem_sortById {refs : List (Ref dict)} {ref : Ref dict} :
    ref ∈ sortById refs ↔ ref ∈ refs := List.mem_mergeSort

/-! ### The assembled trees -/

section Assembled

variable (h_nodup : (dict.map (·.id)).Nodup)
  {wf : WellFounded fun (c : Ref dict) a => c ∈ children a}

include h_nodup in
theorem ref_ext {a b : Ref dict} (h : a.1.id = b.1.id) : a = b :=
  Subtype.ext (List.inj_on_of_nodup_map h_nodup a.2 b.2 h)

include h_nodup in
theorem nodup_attach : dict.attach.Nodup := (List.nodup_attach.mpr (.of_map _ h_nodup))

include h_nodup in
theorem sorted_sortById {refs : List (Ref dict)} (h : refs.Nodup) :
    (sortById refs).Pairwise fun a b => a.1.id < b.1.id := by
  have h_le : (sortById refs).Pairwise fun a b => a.1.id ≤ b.1.id := by
    refine (List.pairwise_mergeSort ?_ ?_ refs).imp of_decide_eq_true
    · intro a b c h_ab h_bc
      exact decide_eq_true (Int.le_trans (of_decide_eq_true h_ab) (of_decide_eq_true h_bc))
    · intro a b
      simpa using Int.le_total a.1.id b.1.id
  have h_ne : (sortById refs).Nodup := (List.mergeSort_perm refs _).nodup_iff.mpr h
  exact (h_le.and h_ne).imp fun ⟨h_le, h_ne⟩ =>
    lt_of_le_of_ne h_le fun h_id => h_ne (ref_ext h_nodup h_id)

def refs (dict : List GroupData) (wf : WellFounded fun (c : Ref dict) a => c ∈ children a) :
    List (Ref dict) :=
  (sortById (assembly dict).rootGroups).flatMap (places children wf)

theorem nodes_assembleTree :
    (assembleTree dict wf).flatMap Tree.nodes =
      (refs dict wf).map (unfold counted children wf) := by
  rw [assembleTree, refs, List.flatMap_map, List.map_flatMap]
  exact List.flatMap_congr fun _ _ => nodes_unfold

theorem mem_rootGroups {ref : Ref dict} :
    ref ∈ sortById (assembly dict).rootGroups ↔ ∀ p ∈ ref.1.parentId, p ∉ dict.map (·.id) := by
  rw [mem_sortById, assembly_eq]
  simp [rootRefs]

theorem mem_refs (ref : Ref dict) : ref ∈ refs dict wf := by
  have h_up := Reach.wellFounded_flip wf (Set.toFinite Set.univ) fun _ _ _ => ⟨trivial, trivial⟩
  induction ref using h_up.induction with
  | _ ref ih =>
    by_cases h_root : ∀ p ∈ ref.1.parentId, p ∉ dict.map (·.id)
    · exact List.mem_flatMap.mpr ⟨ref, mem_rootGroups.mpr h_root, mem_places.mpr .refl⟩
    · push Not at h_root
      obtain ⟨p, h_p, h_mem⟩ := h_root
      obtain ⟨data, h_data, rfl⟩ := List.mem_map.mp h_mem
      have h_child : ref ∈ children (⟨data, h_data⟩ : Ref dict) := mem_children.mpr h_p
      obtain ⟨root, h_root, h_below⟩ := List.mem_flatMap.mp (ih ⟨data, h_data⟩ h_child)
      exact List.mem_flatMap.mpr
        ⟨root, h_root, mem_places.mpr ((mem_places.mp h_below).tail h_child)⟩

include h_nodup in
theorem nodup_children (ref : Ref dict) : (children ref).Nodup := by
  rw [children, assembly_eq]
  exact (List.mergeSort_perm _ _).nodup_iff.mpr ((nodup_attach h_nodup).filter _)

include h_nodup in
theorem nodup_refs : (refs dict wf).Nodup := by
  have h_unique : ∀ a b c : Ref dict, c ∈ children a → c ∈ children b → a = b := by
    intro a b c h_a h_b
    rw [mem_children] at h_a h_b
    exact ref_ext h_nodup (Option.some.inj (h_a.symm.trans h_b))
  refine nodup_flatMap_places h_unique ?_ ?_ fun a _ => nodup_places h_unique
    (nodup_children h_nodup) a
  · rw [assembly_eq]
    exact (List.mergeSort_perm _ _).nodup_iff.mpr ((nodup_attach h_nodup).filter _)
  · intro a _ b h_b h_below
    -- nobody has a root for a child
    obtain h | ⟨p, -, h_child⟩ := ReflTransGen.cases_tail h_below
    · exact h.symm
    · exact absurd (List.mem_map_of_mem p.2) (mem_rootGroups.mp h_b _ (mem_children.mp h_child))

end Assembled

/-! ### What is visible -/

def Up (dict : List GroupData) : ℤ → ℤ → Prop :=
  ReflTransGen fun a b => parentOf dict a = some b

def ParentIn (dict : List GroupData) (visibleIds : Finset ℤ) (a : ℤ) : Prop :=
  ∀ b, parentOf dict a = some b → b ∈ visibleIds

variable (dict)

theorem addParentGroups_spec (gid : ℤ) (visibleIds : Finset ℤ) :
    visibleIds ⊆ addParentGroups dict gid visibleIds ∧
      ∀ a ∈ addParentGroups dict gid visibleIds, (a ∈ visibleIds ∨ Up dict gid a) ∧
        (a ∈ visibleIds ∧ a ≠ gid ∨ ParentIn dict (addParentGroups dict gid visibleIds) a) := by
  -- the starting group is the one whose parent may be missing
  have h_done : ∀ {gid visibleIds}, ParentIn dict visibleIds gid → ∀ a ∈ visibleIds,
      (a ∈ visibleIds ∨ Up dict gid a) ∧
        (a ∈ visibleIds ∧ a ≠ gid ∨ ParentIn dict visibleIds a) := by
    intro gid visibleIds h_parent a h_a
    by_cases h_eq : a = gid
    · exact ⟨.inl h_a, .inr (h_eq ▸ h_parent)⟩
    · exact ⟨.inl h_a, .inl ⟨h_a, h_eq⟩⟩
  induction gid, visibleIds using addParentGroups.induct dict with
  | case1 gid visibleIds h =>
    have h_eq : addParentGroups dict gid visibleIds = visibleIds := by
      rw [addParentGroups]
      split
      · rfl
      · cases h.symm.trans ‹_›
    rw [h_eq]
    exact ⟨subset_rfl, h_done fun b h_b => nomatch h.symm.trans h_b⟩
  | case2 gid visibleIds p h h_mem =>
    have h_eq : addParentGroups dict gid visibleIds = visibleIds := by
      rw [addParentGroups]
      split
      · rfl
      · obtain rfl : p = _ := Option.some.inj (h.symm.trans ‹_›)
        exact dif_pos h_mem
    rw [h_eq]
    exact ⟨subset_rfl, h_done fun b h_b => Option.some.inj (h.symm.trans h_b) ▸ h_mem⟩
  | case3 gid visibleIds p h h_new ih =>
    have h_eq : addParentGroups dict gid visibleIds =
        addParentGroups dict p (insert p visibleIds) := by
      rw [addParentGroups]
      split
      · cases h.symm.trans ‹_›
      · obtain rfl : p = _ := Option.some.inj (h.symm.trans ‹_›)
        exact dif_neg h_new
    rw [h_eq]
    obtain ⟨h_sub, h_spec⟩ := ih
    have h_p := h_sub (Finset.mem_insert_self p visibleIds)
    refine ⟨(Finset.subset_insert _ _).trans h_sub, fun a h_a => ?_⟩
    obtain ⟨h_from, h_parent⟩ := h_spec a h_a
    constructor
    · rcases h_from with h_a | h_up
      · obtain rfl | h_a := Finset.mem_insert.mp h_a
        · exact .inr (.single h)
        · exact .inl h_a
      · exact .inr (.head h h_up)
    · rcases h_parent with ⟨h_a, h_ne⟩ | h_parent
      · by_cases h_gid : a = gid
        · rw [h_gid]
          exact .inr fun b h_b => Option.some.inj (h.symm.trans h_b) ▸ h_p
        · exact .inl ⟨(Finset.mem_insert.mp h_a).resolve_left h_ne, h_gid⟩
      · exact .inr h_parent

theorem foldl_addParentGroups {userGroups : List ℤ} (gids : List ℤ) {visibleIds : Finset ℤ}
    (h_gids : ∀ gid ∈ gids, gid ∈ userGroups)
    (h_from : ∀ a ∈ visibleIds, ∃ u ∈ userGroups, Up dict u a)
    (h_open : ∀ a ∈ visibleIds, a ∈ gids ∨ ParentIn dict visibleIds a) :
    let shown := gids.foldl (fun visibleIds gid => addParentGroups dict gid visibleIds) visibleIds
    visibleIds ⊆ shown ∧ ∀ a ∈ shown, (∃ u ∈ userGroups, Up dict u a) ∧ ParentIn dict shown a := by
  induction gids generalizing visibleIds with
  | nil =>
    exact ⟨subset_rfl, fun a h_a => ⟨h_from a h_a, (h_open a h_a).resolve_left List.not_mem_nil⟩⟩
  | cons gid gids ih =>
    obtain ⟨h_sub, h_spec⟩ := addParentGroups_spec dict gid visibleIds
    obtain ⟨h_rest, h_all⟩ := ih (fun g h_g => h_gids g (List.mem_cons_of_mem _ h_g))
      (fun a h_a => (h_spec a h_a).1.elim (h_from a)
        fun h_up => ⟨gid, h_gids gid List.mem_cons_self, h_up⟩)
      (fun a h_a => by
        obtain ⟨h_old, h_ne⟩ | h_parent := (h_spec a h_a).2
        · obtain h_mem | h_parent := h_open a h_old
          · exact .inl ((List.mem_cons.mp h_mem).resolve_left h_ne)
          · exact .inr fun b h_b => h_sub (h_parent b h_b)
        · exact .inr h_parent)
    exact ⟨h_sub.trans h_rest, h_all⟩

variable {dict}

theorem mem_getVisibleGroups {userGroups : List ℤ} {x : ℤ} :
    x ∈ getVisibleGroups dict userGroups ↔ ∃ u ∈ userGroups, Up dict u x := by
  obtain ⟨h_sub, h_all⟩ := foldl_addParentGroups dict userGroups
    (fun _ h => h) (fun a h_a => ⟨a, List.mem_toFinset.mp h_a, .refl⟩)
    fun a h_a => .inl (List.mem_toFinset.mp h_a)
  constructor
  · exact fun h => (h_all x h).1
  · rintro ⟨u, h_u, h_up⟩
    exact Reach.Closed.mem_of_reach (fun a h_a b h_step => (h_all a h_a).2 b h_step)
      (h_sub (List.mem_toFinset.mpr h_u)) h_up

/-! ### The tree of a user -/

variable {table : GroupTable} {isSuperuser : Bool} {userGroups : List ℤ} {order : SetOrder ℤ}

def FromTable (table : GroupTable) (dict : List GroupData) : Prop :=
  ∀ data ∈ dict, ∀ p, data.parentId = some p → ChildOf table.rows data.id p

theorem FromTable.wellFounded (h : FromTable table dict) :
    WellFounded fun (c : Ref dict) a => c ∈ children a :=
  Subrelation.wf (fun {c a} h_child => h c.1 c.2 a.1.id (mem_children.mp h_child))
    (InvImage.wf (fun ref : Ref dict => ref.1.id) table.wellFounded)

theorem groupData_parentId {group : Group} {p : ℤ} :
    (groupData isSuperuser userGroups group).parentId = some p ↔ group.parentId = p ∧ p ≠ 0 := by
  rw [groupData]
  split_ifs with h
  · simp [h, eq_comm]
  · simp only [Option.some.injEq]
    exact ⟨fun h_eq => ⟨h_eq, h_eq ▸ h⟩, And.left⟩

theorem fromTable_buildGroupDict :
    FromTable table (buildGroupDict table.rows isSuperuser userGroups) := by
  intro data h_data p h_p
  obtain ⟨group, h_group, rfl⟩ := List.mem_map.mp h_data
  exact ⟨group, h_group, rfl, (groupData_parentId.mp h_p).1⟩

theorem mem_filteredDict {visibleIds : Finset ℤ} {data : GroupData} :
    data ∈ filteredDict order dict visibleIds userGroups ↔
      ∃ gid ∈ visibleIds, ∃ whole, entry dict gid = some whole ∧
        { whole with hasAuth := userGroups.contains gid, subGroupCount := 0 } = data := by
  simp only [filteredDict, List.mem_filterMap, order.mem, Option.map_eq_some_iff]

theorem FromTable.filteredDict (h : FromTable table dict) {visibleIds : Finset ℤ} :
    FromTable table (filteredDict order dict visibleIds userGroups) := by
  intro data h_data
  obtain ⟨gid, -, whole, h_whole, rfl⟩ := mem_filteredDict.mp h_data
  exact h whole (mem_of_entry h_whole).1

theorem nodup_filteredDict {visibleIds : Finset ℤ} :
    ((filteredDict order dict visibleIds userGroups).map (·.id)).Nodup := by
  rw [GroupTree.filteredDict, List.map_filterMap]
  refine (order.nodup visibleIds).filterMap fun a b x h_a h_b => ?_
  simp only [Option.map_map, Option.mem_def, Option.map_eq_some_iff] at h_a h_b
  obtain ⟨whole, h_whole, rfl⟩ := h_a
  obtain ⟨whole', h_whole', h_id⟩ := h_b
  exact (mem_of_entry h_whole).2.symm.trans (h_id.symm.trans (mem_of_entry h_whole').2)

/-- `build_group_tree`. -/
def buildGroupTree (order : SetOrder ℤ) (table : GroupTable) (isSuperuser : Bool)
    (userGroups : List ℤ) : List (Forest.Tree GroupData) :=
  let groupDict := buildGroupDict table.rows isSuperuser userGroups
  if isSuperuser then assembleTree groupDict fromTable_buildGroupDict.wellFounded
  else
    assembleTree (filteredDict order groupDict (getVisibleGroups groupDict userGroups) userGroups)
      fromTable_buildGroupDict.filteredDict.wellFounded

/-! ### The groups below -/

/-- `children_map.get(gid, [])`. -/
def childIds (rows : List Group) (gid : ℤ) : List ℤ := (rows.filter (·.parentId = gid)).map (·.id)

theorem mem_childIds {rows : List Group} {c gid : ℤ} :
    c ∈ childIds rows gid ↔ ChildOf rows c gid := by
  simp [childIds, ChildOf, and_assoc, and_comm]

def Permitted (allowedSet : Option (List ℤ)) (gid : ℤ) : Bool := allowedSet.all (·.contains gid)

def collectDescendants (table : GroupTable) (allowedSet : Option (List ℤ)) (gid : ℤ)
    (result : Finset ℤ) : Finset ℤ :=
  (childIds table.rows gid).attach.foldl
    (fun result childId => collectDescendants table allowedSet childId.1 result)
    (if Permitted allowedSet gid then insert gid result else result)
termination_by table.wellFounded.wrap gid
decreasing_by exact mem_childIds.mp childId.2

def getGroupWithDescendantsFiltered (order : SetOrder ℤ) (table : GroupTable)
    (groupIds : List ℤ) (groupList : Option (List ℤ)) : List ℤ :=
  order.list (groupIds.foldl (fun result gid => collectDescendants table groupList gid result) ∅)

theorem mem_foldl {ι : Type} {f : Finset ℤ → ι → Finset ℤ} {P : ι → Prop} {x : ℤ} {is : List ι}
    (h : ∀ i ∈ is, ∀ result, x ∈ f result i ↔ x ∈ result ∨ P i) (result : Finset ℤ) :
    x ∈ is.foldl f result ↔ x ∈ result ∨ ∃ i ∈ is, P i := by
  induction is generalizing result with
  | nil => simp
  | cons i is ih =>
    rw [List.foldl_cons, ih fun j h_j => h j (List.mem_cons_of_mem _ h_j),
      h i List.mem_cons_self, or_assoc, List.exists_mem_cons_iff]

theorem mem_collectDescendants {allowedSet : Option (List ℤ)} {x : ℤ} (gid : ℤ)
    (result : Finset ℤ) :
    x ∈ collectDescendants table allowedSet gid result ↔
      x ∈ result ∨ Permitted allowedSet x = true ∧ Above table.rows x gid := by
  induction gid using table.wellFounded.induction generalizing result with
  | _ gid ih =>
    rw [collectDescendants, mem_foldl fun childId _ =>
      ih childId.1 (mem_childIds.mp childId.2)]
    have h_above : Above table.rows x gid ↔
        gid = x ∨ ∃ c ∈ childIds table.rows gid, Above table.rows x c := by
      rw [Above, ReflTransGen.cases_tail_iff]
      exact or_congr_right (exists_congr fun c => by rw [mem_childIds]; exact and_comm)
    have h_self : x ∈ (if Permitted allowedSet gid then insert gid result else result) ↔
        x ∈ result ∨ Permitted allowedSet x = true ∧ gid = x := by
      split_ifs with h
      · rw [Finset.mem_insert, or_comm]
        exact or_congr_right ⟨fun h_x => ⟨h_x ▸ h, h_x.symm⟩, fun h_x => h_x.2.symm⟩
      · exact ⟨.inl, fun h_x => h_x.resolve_right fun ⟨h_x, h_eq⟩ => h (h_eq ▸ h_x)⟩
    have h_child : (∃ childId ∈ (childIds table.rows gid).attach,
        Permitted allowedSet x = true ∧ Above table.rows x childId.1) ↔
          Permitted allowedSet x = true ∧ ∃ c ∈ childIds table.rows gid, Above table.rows x c :=
      ⟨fun ⟨c, _, h_x, h⟩ => ⟨h_x, c.1, c.2, h⟩,
        fun ⟨h_x, c, h_c, h⟩ => ⟨⟨c, h_c⟩, List.mem_attach _ _, h_x, h⟩⟩
    rw [h_self, h_child, h_above]
    tauto

/-! ### What is shown -/

def ids (forest : List (Forest.Tree GroupData)) : List ℤ := forest.map (·.label.id)

/-- The trees of the groups of a user. -/
structure Faithful (table : GroupTable) (userGroups : List ℤ)
    (forest : List (Forest.Tree GroupData)) : Prop where
  once : (ids (forest.flatMap Tree.nodes)).Nodup
  groups : ∀ g, g ∈ ids (forest.flatMap Tree.nodes) ↔
    g ∈ table.rows.map (·.id) ∧ ∃ u ∈ userGroups, Above table.rows u g
  hasAuth : ∀ t ∈ forest.flatMap Tree.nodes,
    (t.label.hasAuth = true ↔ t.label.id ∈ userGroups)
  subGroups : ∀ t ∈ forest.flatMap Tree.nodes, ∀ g, g ∈ ids t.subtrees ↔
    g ∈ ids (forest.flatMap Tree.nodes) ∧ ChildOf table.rows g t.label.id
  roots : (ids forest).Pairwise (· < ·)
  siblings : ∀ t ∈ forest.flatMap Tree.nodes, (ids t.subtrees).Pairwise (· < ·)
  subGroupCount : ∀ t ∈ forest.flatMap Tree.nodes, t.label.subGroupCount = t.subtrees.length

section Shown

variable {wf : WellFounded fun (c : Ref dict) a => c ∈ children a}

theorem ids_unfold (rs : List (Ref dict)) :
    ids (rs.map (unfold counted children wf)) = rs.map (·.1.id) := by
  rw [ids, List.map_map]
  refine List.map_congr_left fun ref _ => ?_
  rw [Function.comp_apply, label_unfold]
  rfl

theorem mem_nodes {t : Forest.Tree GroupData} :
    t ∈ (assembleTree dict wf).flatMap Tree.nodes ↔ ∃ ref, unfold counted children wf ref = t := by
  rw [nodes_assembleTree, List.mem_map]
  exact exists_congr fun ref => and_iff_right (mem_refs ref)

theorem mem_ids_nodes {g : ℤ} :
    g ∈ ids ((assembleTree dict wf).flatMap Tree.nodes) ↔ g ∈ dict.map (·.id) := by
  rw [nodes_assembleTree, ids_unfold, List.mem_map, List.mem_map]
  exact ⟨fun ⟨ref, _, h⟩ => ⟨ref.1, ref.2, h⟩,
    fun ⟨data, h_data, h⟩ => ⟨⟨data, h_data⟩, mem_refs _, h⟩⟩

end Shown

theorem entry_buildGroupDict {g : ℤ} {data : GroupData} :
    entry (buildGroupDict table.rows isSuperuser userGroups) g = some data ↔
      ∃ group ∈ table.rows, group.id = g ∧ groupData isSuperuser userGroups group = data := by
  have h_nodup : ((buildGroupDict table.rows isSuperuser userGroups).map (·.id)).Nodup := by
    rw [buildGroupDict, List.map_map]
    exact table.nodup
  rw [entry_iff h_nodup, buildGroupDict, List.mem_map]
  constructor
  · rintro ⟨⟨group, h_group, rfl⟩, h_id⟩
    exact ⟨group, h_group, h_id, rfl⟩
  · rintro ⟨group, h_group, h_id, rfl⟩
    exact ⟨⟨group, h_group, rfl⟩, h_id⟩

theorem parentOf_iff {g p : ℤ} :
    parentOf (buildGroupDict table.rows isSuperuser userGroups) g = some p ↔
      ChildOf table.rows g p ∧ p ≠ 0 := by
  simp only [parentOf, Option.bind_eq_some_iff, entry_buildGroupDict]
  constructor
  · rintro ⟨_, ⟨group, h_group, h_id, rfl⟩, h_p⟩
    obtain ⟨h_parent, h_ne⟩ := groupData_parentId.mp h_p
    exact ⟨⟨group, h_group, h_id, h_parent⟩, h_ne⟩
  · rintro ⟨⟨group, h_group, h_id, h_parent⟩, h_ne⟩
    exact ⟨_, ⟨group, h_group, h_id, rfl⟩, groupData_parentId.mpr ⟨h_parent, h_ne⟩⟩

theorem up_iff {u g : ℤ} (h_g : g ∈ table.rows.map (·.id)) :
    Up (buildGroupDict table.rows isSuperuser userGroups) u g ↔ Above table.rows u g := by
  constructor
  · exact ReflTransGen.mono (fun _ _ h_step => (parentOf_iff.mp h_step).1) _ _
  · intro h
    suffices u ∈ table.rows.map (·.id) ∧
        Up (buildGroupDict table.rows isSuperuser userGroups) u g from this.2
    induction h using ReflTransGen.head_induction_on with
    | refl => exact ⟨h_g, .refl⟩
    | head h_step _ ih =>
      obtain ⟨h_mem, h_up⟩ := ih
      obtain ⟨parent, h_parent, rfl⟩ := List.mem_map.mp h_mem
      have h_ne := (table.positive parent h_parent).ne'
      refine ⟨?_, .head (parentOf_iff.mpr ⟨h_step, h_ne⟩) h_up⟩
      obtain ⟨group, h_group, rfl, -⟩ := h_step
      exact List.mem_map_of_mem h_group

section Filtered

variable {visibleIds : Finset ℤ} {data : GroupData}

theorem mem_ids_filteredDict {g : ℤ} :
    g ∈ (filteredDict order (buildGroupDict table.rows isSuperuser userGroups) visibleIds
        userGroups).map (·.id) ↔ g ∈ visibleIds ∧ g ∈ table.rows.map (·.id) := by
  simp only [List.mem_map, mem_filteredDict, entry_buildGroupDict]
  constructor
  · rintro ⟨_, ⟨gid, h_visible, _, ⟨group, h_group, rfl, rfl⟩, rfl⟩, rfl⟩
    exact ⟨h_visible, group, h_group, rfl⟩
  · rintro ⟨h_visible, group, h_group, rfl⟩
    exact ⟨_, ⟨group.id, h_visible, _, ⟨group, h_group, rfl, rfl⟩, rfl⟩, rfl⟩

theorem filteredDict_spec (h : data ∈ filteredDict order
      (buildGroupDict table.rows isSuperuser userGroups) visibleIds userGroups) :
    data.hasAuth = userGroups.contains data.id ∧ data.subGroupCount = 0 ∧
      ∀ p, data.parentId = some p ↔ ChildOf table.rows data.id p ∧ p ≠ 0 := by
  obtain ⟨gid, -, whole, h_whole, rfl⟩ := mem_filteredDict.mp h
  obtain ⟨-, rfl⟩ := mem_of_entry h_whole
  refine ⟨rfl, rfl, fun p => ?_⟩
  rw [← @parentOf_iff table isSuperuser userGroups, parentOf, h_whole]
  rfl

end Filtered

theorem faithful_assembleTree {wf : WellFounded fun (c : Ref dict) a => c ∈ children a}
    (h_nodup : (dict.map (·.id)).Nodup)
    (h_ids : ∀ g, g ∈ dict.map (·.id) ↔
      g ∈ table.rows.map (·.id) ∧ ∃ u ∈ userGroups, Above table.rows u g)
    (h_spec : ∀ data ∈ dict, data.hasAuth = userGroups.contains data.id ∧ data.subGroupCount = 0 ∧
      ∀ p, data.parentId = some p ↔ ChildOf table.rows data.id p ∧ p ≠ 0) :
    Faithful table userGroups (assembleTree dict wf) where
  once := by
    rw [nodes_assembleTree, ids_unfold]
    exact (nodup_refs h_nodup).map fun a b h => ref_ext h_nodup h
  groups g := mem_ids_nodes.trans (h_ids g)
  hasAuth := by
    intro t h_t
    obtain ⟨ref, rfl⟩ := mem_nodes.mp h_t
    rw [label_unfold, counted, (h_spec ref.1 ref.2).1, List.contains_iff_mem]
  subGroups := by
    intro t h_t g
    obtain ⟨ref, rfl⟩ := mem_nodes.mp h_t
    rw [subtrees_unfold, ids_unfold, label_unfold, mem_ids_nodes, List.mem_map, List.mem_map]
    obtain ⟨parent, h_parent, h_id⟩ := List.mem_map.mp ((h_ids _).mp (List.mem_map_of_mem ref.2)).1
    have h_ne : ref.1.id ≠ 0 := h_id ▸ (table.positive parent h_parent).ne'
    constructor
    · rintro ⟨c, h_c, rfl⟩
      exact ⟨⟨c.1, c.2, rfl⟩, (((h_spec c.1 c.2).2.2 _).mp (mem_children.mp h_c)).1⟩
    · rintro ⟨⟨data, h_data, rfl⟩, h_child⟩
      have h_parent := ((h_spec data h_data).2.2 _).mpr ⟨h_child, h_ne⟩
      exact ⟨⟨data, h_data⟩, mem_children.mpr h_parent, rfl⟩
  roots := by
    rw [assembleTree, ids_unfold, assembly_eq]
    exact List.pairwise_map.mpr (sorted_sortById h_nodup ((nodup_attach h_nodup).filter _))
  siblings := by
    intro t h_t
    obtain ⟨ref, rfl⟩ := mem_nodes.mp h_t
    rw [subtrees_unfold, ids_unfold, children, assembly_eq]
    exact List.pairwise_map.mpr (sorted_sortById h_nodup ((nodup_attach h_nodup).filter _))
  subGroupCount := by
    intro t h_t
    obtain ⟨ref, rfl⟩ := mem_nodes.mp h_t
    rw [label_unfold, counted, subtrees_unfold, List.length_map, children, sortById,
      List.length_mergeSort, assembly_eq, (h_spec ref.1 ref.2).2.1, Nat.zero_add]

/-- **The tree of a user, and the groups below.** -/
theorem buildGroupTree_faithful (order : SetOrder ℤ) (table : GroupTable) (userGroups : List ℤ)
    (groupIds : List ℤ) (groupList : Option (List ℤ)) :
    Faithful table userGroups (buildGroupTree order table false userGroups) ∧
      (getGroupWithDescendantsFiltered order table groupIds groupList).Nodup ∧
      ∀ g, g ∈ getGroupWithDescendantsFiltered order table groupIds groupList ↔
        Permitted groupList g = true ∧ ∃ gid ∈ groupIds, Above table.rows g gid := by
  refine ⟨?_, order.nodup _, fun g => ?_⟩
  · refine faithful_assembleTree nodup_filteredDict (fun g => ?_) fun _ => filteredDict_spec
    rw [mem_ids_filteredDict, mem_getVisibleGroups, and_comm]
    exact and_congr_right fun h_g => exists_congr fun u => and_congr_right fun _ => up_iff h_g
  · rw [getGroupWithDescendantsFiltered, order.mem,
      mem_foldl fun gid _ => mem_collectDescendants gid]
    simp only [Finset.notMem_empty, false_or]
    tauto

end GroupTree
end SystemMgmt
