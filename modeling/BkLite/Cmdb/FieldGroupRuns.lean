import BkLite.Cmdb.FieldGroups
import BkLite.Framework.Runs

/-!
# The field groups of a model stay consistent

In a `Consistent` model every attribute is at home in one group, the places of the groups are told
apart, and each group lists attributes of its own, each once. The keys of the two tables (`Keyed`)
survive every operation.
-/

namespace Cmdb.FieldGroups

/-! ### Consistency -/

/-- The keys of the attributes and of the groups. -/
structure Keyed (m : FieldModel) : Prop where
  attrIds : (m.attrs.map (·.attrId)).Nodup
  names : (m.groups.map (·.groupName)).Nodup
  named : ∀ group ∈ m.groups, group.groupName ≠ ""

def Listed (attrs : List Attr) (group : FieldGroup) : Prop :=
  group.attrOrders.Nodup ∧ ∀ attrId ∈ group.attrOrders, attrId ∈ attrIdsOf attrs group.groupName

structure Consistent (m : FieldModel) : Prop where
  home : ∀ attr ∈ m.attrs, ∃! group, group ∈ m.groups ∧ attr.attrGroup = some group.groupName
  orders : (m.groups.map (·.order)).Nodup
  lists : ∀ group ∈ m.groups, Listed m.attrs group

theorem mem_attrIdsOf {attrs : List Attr} {groupName attrId : String} :
    attrId ∈ attrIdsOf attrs groupName ↔
      ∃ attr ∈ attrs, attr.attrGroup = some groupName ∧ attr.attrId = attrId := by
  simp only [attrIdsOf, List.mem_map, List.mem_filter, decide_eq_true_iff, and_assoc]

namespace Keyed

variable {m : FieldModel}

theorem eq_of_name (h : Keyed m) {a b : FieldGroup} (h_a : a ∈ m.groups) (h_b : b ∈ m.groups)
    (h_name : a.groupName = b.groupName) : a = b :=
  List.inj_on_of_nodup_map h.names h_a h_b h_name

theorem home_iff (h : Keyed m) {attr : Attr} :
    (∃! group, group ∈ m.groups ∧ attr.attrGroup = some group.groupName) ↔
      ∃ group ∈ m.groups, attr.attrGroup = some group.groupName := by
  refine ⟨ExistsUnique.exists, ?_⟩
  rintro ⟨group, h_group, h_attr⟩
  refine ⟨group, ⟨h_group, h_attr⟩, ?_⟩
  rintro other ⟨h_other, h_same⟩
  exact h.eq_of_name h_other h_group (Option.some.inj (h_same.symm.trans h_attr))

theorem eq_of_attrId (h : Keyed m) {a b : Attr} (h_a : a ∈ m.attrs) (h_b : b ∈ m.attrs)
    (h_id : a.attrId = b.attrId) : a = b :=
  List.inj_on_of_nodup_map h.attrIds h_a h_b h_id

end Keyed

/-! ### Writes to one group -/

section WriteGroup

variable {groups : List FieldGroup} {groupName : String} {f : FieldGroup → FieldGroup}

theorem mem_writeGroup {group : FieldGroup} :
    group ∈ writeGroup groups groupName f ↔
      ∃ old ∈ groups, (if old.groupName = groupName then f old else old) = group :=
  List.mem_map

theorem map_writeGroup {α : Type*} {g : FieldGroup → α} (h : ∀ group, g (f group) = g group) :
    (writeGroup groups groupName f).map g = groups.map g := by
  rw [writeGroup, List.map_map]
  refine List.map_congr_left fun group _ => ?_
  rw [Function.comp_apply]
  split_ifs
  · exact h group
  · rfl

theorem forall_writeGroup {P : FieldGroup → Prop}
    (h_this : ∀ group ∈ groups, group.groupName = groupName → P (f group))
    (h_other : ∀ group ∈ groups, group.groupName ≠ groupName → P group) :
    ∀ group ∈ writeGroup groups groupName f, P group := by
  intro group h_group
  obtain ⟨old, h_old, rfl⟩ := mem_writeGroup.mp h_group
  split_ifs with h_name
  · exact h_this old h_old h_name
  · exact h_other old h_old h_name

end WriteGroup

theorem exists_of_hasGroup {m : FieldModel} {groupName : String} (h : m.HasGroup groupName) :
    ∃ group ∈ m.groups, group.groupName = groupName :=
  List.mem_map.mp h

theorem home_of_names {m t : FieldModel} {attr : Attr}
    (h_names : t.groups.map (·.groupName) = m.groups.map (·.groupName))
    (h : ∃ group ∈ m.groups, attr.attrGroup = some group.groupName) :
    ∃ group ∈ t.groups, attr.attrGroup = some group.groupName := by
  obtain ⟨group, h_group, h_attr⟩ := h
  have h_mem : group.groupName ∈ t.groups.map (·.groupName) :=
    h_names ▸ List.mem_map_of_mem h_group
  obtain ⟨other, h_other, h_name⟩ := List.mem_map.mp h_mem
  exact ⟨other, h_other, h_name ▸ h_attr⟩

/-! ### Creating a group -/

section Create

variable {m t : FieldModel} {groupName description : String} {isCollapsed : Bool}

theorem le_maxOrder {groups : List FieldGroup} {group : FieldGroup} (h : group ∈ groups) :
    group.order ≤ maxOrder groups := by
  have h_mem : group.order ∈ groups.map (·.order) := List.mem_map_of_mem h
  rw [maxOrder]
  cases h_max : (groups.map (·.order)).max? with
  | none =>
    rw [List.max?_eq_none_iff] at h_max
    exact absurd (h_max ▸ h_mem) List.not_mem_nil
  | some max => exact (List.max?_eq_some_iff.mp h_max).2 _ h_mem

theorem createGroup_ok (h : createGroup m groupName description isCollapsed = .ok t) :
    stripped groupName ≠ "" ∧ ¬m.HasGroup (stripped groupName) ∧
      t = { m with groups := m.groups ++
        [⟨stripped groupName, maxOrder m.groups + 1, isCollapsed, description, []⟩] } := by
  rw [createGroup] at h
  split_ifs at h with h_empty h_there
  exact ⟨h_empty, h_there, (Except.ok.inj h).symm⟩

theorem Keyed.create (h : Keyed m) (h_ok : createGroup m groupName description isCollapsed = .ok t) :
    Keyed t := by
  obtain ⟨h_name, h_new, rfl⟩ := createGroup_ok h_ok
  refine ⟨h.attrIds, ?_, ?_⟩
  · rw [List.map_append]
    exact List.nodup_append_comm.mp (List.nodup_cons.mpr ⟨h_new, h.names⟩)
  · intro group h_group
    obtain h_group | h_group := List.mem_append.mp h_group
    · exact h.named group h_group
    · obtain rfl := List.mem_singleton.mp h_group
      exact h_name

theorem Consistent.create (h_keyed : Keyed m) (h : Consistent m)
    (h_ok : createGroup m groupName description isCollapsed = .ok t) : Consistent t := by
  have h_keyed' := h_keyed.create h_ok
  obtain ⟨-, -, rfl⟩ := createGroup_ok h_ok
  constructor
  · intro attr h_attr
    obtain ⟨group, h_group, h_home⟩ := h_keyed.home_iff.mp (h.home attr h_attr)
    exact h_keyed'.home_iff.mpr ⟨group, List.mem_append_left _ h_group, h_home⟩
  · rw [List.map_append]
    refine List.nodup_append_comm.mp (List.nodup_cons.mpr ⟨fun h_mem => ?_, h.orders⟩)
    obtain ⟨group, h_group, h_order⟩ := List.mem_map.mp h_mem
    have h_le := le_maxOrder h_group
    simp only at h_order
    omega
  · intro group h_group
    obtain h_group | h_group := List.mem_append.mp h_group
    · exact h.lists group h_group
    · obtain rfl := List.mem_singleton.mp h_group
      exact ⟨List.nodup_nil, fun _ h_none => absurd h_none List.not_mem_nil⟩

end Create

/-! ### Attributes that move together -/

section RenameAttrs

variable {attrs : List Attr} {oldName newName groupName attrId : String}

theorem map_renameAttrs :
    (renameAttrs attrs oldName newName).map (·.attrId) = attrs.map (·.attrId) := by
  rw [renameAttrs, List.map_map]
  refine List.map_congr_left fun attr _ => ?_
  rw [Function.comp_apply]
  split_ifs <;> rfl

theorem mem_attrIdsOf_renameAttrs (h : attrId ∈ attrIdsOf attrs groupName)
    (h_other : groupName ≠ oldName) :
    attrId ∈ attrIdsOf (renameAttrs attrs oldName newName) groupName := by
  obtain ⟨attr, h_attr, h_group, h_id⟩ := mem_attrIdsOf.mp h
  refine mem_attrIdsOf.mpr ⟨attr, List.mem_map.mpr ⟨attr, h_attr, if_neg fun h_old => ?_⟩, h_group,
    h_id⟩
  exact h_other (Option.some.inj (h_group.symm.trans h_old))

theorem mem_attrIdsOf_renameAttrs_self (h : attrId ∈ attrIdsOf attrs oldName) :
    attrId ∈ attrIdsOf (renameAttrs attrs oldName newName) newName := by
  obtain ⟨attr, h_attr, h_group, h_id⟩ := mem_attrIdsOf.mp h
  exact mem_attrIdsOf.mpr ⟨{ attr with attrGroup := some newName },
    List.mem_map.mpr ⟨attr, h_attr, if_pos h_group⟩, rfl, h_id⟩

theorem attrGroup_renameAttrs {attr : Attr} (h : attr ∈ renameAttrs attrs oldName newName) :
    (∃ old ∈ attrs, old.attrGroup = some oldName) ∧ attr.attrGroup = some newName ∨
      attr ∈ attrs ∧ attr.attrGroup ≠ some oldName := by
  obtain ⟨old, h_old, rfl⟩ := List.mem_map.mp h
  split_ifs with h_group
  · exact .inl ⟨⟨old, h_old, h_group⟩, rfl⟩
  · exact .inr ⟨h_old, h_group⟩

end RenameAttrs

/-! ### Changing a group -/

section Update

variable {m t : FieldModel} {group : FieldGroup} {newGroupName description : Option String}
  {isCollapsed : Option Bool}

theorem Keyed.write (h : Keyed m) {groupName : String} {f : FieldGroup → FieldGroup}
    (h_name : ∀ group, (f group).groupName = group.groupName) :
    Keyed { m with groups := writeGroup m.groups groupName f } := by
  refine ⟨h.attrIds, ?_, ?_⟩
  · show ((writeGroup m.groups groupName f).map (·.groupName)).Nodup
    rw [map_writeGroup h_name]
    exact h.names
  · exact forall_writeGroup (fun group h_group _ => h_name group ▸ h.named group h_group)
      fun group h_group _ => h.named group h_group

theorem Consistent.write (h_keyed : Keyed m) (h : Consistent m) {groupName : String}
    {f : FieldGroup → FieldGroup} (h_name : ∀ group, (f group).groupName = group.groupName)
    (h_order : ∀ group, (f group).order = group.order)
    (h_listed : ∀ group ∈ m.groups, group.groupName = groupName → Listed m.attrs (f group)) :
    Consistent { m with groups := writeGroup m.groups groupName f } := by
  constructor
  · intro attr h_attr
    refine (h_keyed.write h_name).home_iff.mpr (home_of_names ?_ (h.home attr h_attr).exists)
    exact map_writeGroup h_name
  · show ((writeGroup m.groups groupName f).map (·.order)).Nodup
    rw [map_writeGroup h_order]
    exact h.orders
  · exact forall_writeGroup h_listed fun group h_group _ => h.lists group h_group

/-- **What a change of a group does.** It writes the texts, or it renames the group and its
attributes. -/
theorem updateGroup_ok (h : updateGroup m group newGroupName description isCollapsed = .ok t) :
    (∃ f : FieldGroup → FieldGroup, t = { m with groups := writeGroup m.groups group.groupName f } ∧
      ∀ g, (f g).groupName = g.groupName ∧ (f g).order = g.order ∧ (f g).attrOrders = g.attrOrders) ∨
    ∃ (f : FieldGroup → FieldGroup) (newName : String), newName ≠ "" ∧ ¬m.HasGroup newName ∧
      t = ⟨writeGroup m.groups group.groupName f, renameAttrs m.attrs group.groupName newName⟩ ∧
      ∀ g, (f g).groupName = newName ∧ (f g).order = g.order ∧ (f g).attrOrders = g.attrOrders := by
  rw [updateGroup.eq_def] at h
  cases newGroupName with
  | none => exact .inl ⟨_, (Except.ok.inj h).symm, fun _ => ⟨rfl, rfl, rfl⟩⟩
  | some newGroupName =>
    dsimp only at h
    split_ifs at h with h_empty h_same h_there
    · exact .inl ⟨_, (Except.ok.inj h).symm, fun _ => ⟨rfl, rfl, rfl⟩⟩
    · exact .inr ⟨_, _, h_empty, h_there, (Except.ok.inj h).symm, fun _ => ⟨rfl, rfl, rfl⟩⟩

theorem nodup_rename {groups : List FieldGroup} {oldName newName : String}
    {f : FieldGroup → FieldGroup} (h : (groups.map (·.groupName)).Nodup)
    (h_new : newName ∉ groups.map (·.groupName)) (h_name : ∀ g, (f g).groupName = newName) :
    ((writeGroup groups oldName f).map (·.groupName)).Nodup := by
  rw [writeGroup, List.map_map]
  refine List.Nodup.map_on ?_ (List.Nodup.of_map _ h)
  intro a h_a b h_b h_eq
  simp only [Function.comp_apply] at h_eq
  have h_ne : ∀ g ∈ groups, g.groupName ≠ newName := fun g h_g h_g_new =>
    h_new (h_g_new ▸ List.mem_map_of_mem h_g)
  split_ifs at h_eq with h_old_a h_old_b h_old_b
  · exact List.inj_on_of_nodup_map h h_a h_b (h_old_a.trans h_old_b.symm)
  · exact absurd (h_eq.symm.trans (h_name a)) (h_ne b h_b)
  · exact absurd (h_eq.trans (h_name b)) (h_ne a h_a)
  · exact List.inj_on_of_nodup_map h h_a h_b h_eq

theorem Keyed.update (h : Keyed m)
    (h_ok : updateGroup m group newGroupName description isCollapsed = .ok t) : Keyed t := by
  obtain ⟨f, rfl, h_f⟩ | ⟨f, newName, h_name, h_new, rfl, h_f⟩ := updateGroup_ok h_ok
  · exact h.write fun g => (h_f g).1
  · refine ⟨?_, nodup_rename h.names h_new fun g => (h_f g).1, ?_⟩
    · show ((renameAttrs m.attrs group.groupName newName).map (·.attrId)).Nodup
      rw [map_renameAttrs]
      exact h.attrIds
    · exact forall_writeGroup (fun g _ _ => (h_f g).1 ▸ h_name) fun g h_g _ => h.named g h_g

theorem Consistent.update (h_keyed : Keyed m) (h : Consistent m) (h_group : group ∈ m.groups)
    (h_ok : updateGroup m group newGroupName description isCollapsed = .ok t) : Consistent t := by
  have h_keyed' := h_keyed.update h_ok
  obtain ⟨f, rfl, h_f⟩ | ⟨f, newName, h_name, h_new, rfl, h_f⟩ := updateGroup_ok h_ok
  · refine Consistent.write h_keyed h (fun g => (h_f g).1) (fun g => (h_f g).2.1) ?_
    intro g h_g _
    have h_listed := h.lists g h_g
    rwa [Listed, ← (h_f g).2.2, ← (h_f g).1] at h_listed
  · constructor
    · intro attr h_attr
      rw [h_keyed'.home_iff]
      obtain ⟨-, h_moved⟩ | ⟨h_old, h_stays⟩ := attrGroup_renameAttrs h_attr
      · exact ⟨f group, mem_writeGroup.mpr ⟨group, h_group, if_pos rfl⟩, (h_f group).1 ▸ h_moved⟩
      · obtain ⟨g, h_g, h_home⟩ := (h.home attr h_old).exists
        refine ⟨g, mem_writeGroup.mpr ⟨g, h_g, if_neg fun h_name => ?_⟩, h_home⟩
        exact h_stays (h_name ▸ h_home)
    · show ((writeGroup m.groups group.groupName f).map (·.order)).Nodup
      rw [map_writeGroup fun g => (h_f g).2.1]
      exact h.orders
    · refine forall_writeGroup ?_ ?_
      · intro g h_g h_old
        obtain ⟨h_nodup, h_ids⟩ := h.lists g h_g
        rw [Listed, (h_f g).2.2, (h_f g).1]
        exact ⟨h_nodup, fun attrId h_id => mem_attrIdsOf_renameAttrs_self (h_old ▸ h_ids attrId h_id)⟩
      · intro g h_g h_old
        obtain ⟨h_nodup, h_ids⟩ := h.lists g h_g
        exact ⟨h_nodup, fun attrId h_id => mem_attrIdsOf_renameAttrs (h_ids attrId h_id) h_old⟩

end Update

/-! ### Deleting a group -/

section Delete

variable {m t : FieldModel} {group : FieldGroup} {groups : List FieldGroup}

theorem byOrder_perm (groups : List FieldGroup) : (byOrder groups).Perm groups :=
  List.perm_insertionSort _ _

theorem map_order_reorder :
    (reorderAfterDelete groups).map (·.order) =
      (List.range groups.length).map fun i : ℕ => (i : ℤ) + 1 := by
  calc (reorderAfterDelete groups).map (·.order)
      = ((byOrder groups).zipIdx.map Prod.snd).map fun i : ℕ => (i : ℤ) + 1 := by
        rw [reorderAfterDelete, List.map_map, List.map_map]
        rfl
    _ = (List.range groups.length).map fun i : ℕ => (i : ℤ) + 1 := by
        rw [List.zipIdx_map_snd, ← List.range_eq_range', (byOrder_perm groups).length_eq]

theorem mem_reorder {g : FieldGroup} (h : g ∈ reorderAfterDelete groups) :
    ∃ old ∈ groups, g = { old with order := g.order } := by
  obtain ⟨entry, h_entry, rfl⟩ := List.mem_map.mp h
  have h_old : entry.1 ∈ byOrder groups := List.fst_mem_of_mem_zipIdx h_entry
  exact ⟨entry.1, (byOrder_perm groups).mem_iff.mp h_old, rfl⟩

theorem exists_mem_reorder {old : FieldGroup} (h : old ∈ groups) :
    ∃ g ∈ reorderAfterDelete groups, g.groupName = old.groupName := by
  have h_mem : old ∈ (byOrder groups).zipIdx.map Prod.fst := by
    rw [List.zipIdx_map_fst]
    exact (byOrder_perm groups).mem_iff.mpr h
  obtain ⟨entry, h_entry, rfl⟩ := List.mem_map.mp h_mem
  exact ⟨_, List.mem_map_of_mem h_entry, rfl⟩

theorem nodup_names_reorder (h : (groups.map (·.groupName)).Nodup) :
    ((reorderAfterDelete groups).map (·.groupName)).Nodup := by
  have h_names : (reorderAfterDelete groups).map (·.groupName) =
      ((byOrder groups).zipIdx.map Prod.fst).map (·.groupName) := by
    rw [reorderAfterDelete, List.map_map, List.map_map]
    rfl
  rw [h_names, List.zipIdx_map_fst]
  exact (((byOrder_perm groups).map _).nodup_iff).mpr h

theorem deleteGroup_ok (h : deleteGroup m group = .ok t) :
    ∃ firstGroup, (byOrder m.groups).head? = some firstGroup ∧ firstGroup ∈ m.groups ∧
      t = ⟨reorderAfterDelete (m.groups.filter (·.groupName ≠ group.groupName)),
        renameAttrs m.attrs group.groupName firstGroup.groupName⟩ := by
  rw [deleteGroup] at h
  split_ifs at h with h_last
  cases h_first : (byOrder m.groups).head? with
  | none =>
    have h_none : m.groups.length = 0 := by
      rw [← (byOrder_perm m.groups).length_eq, List.head?_eq_none_iff.mp h_first, List.length_nil]
    omega
  | some firstGroup =>
    rw [h_first] at h
    refine ⟨firstGroup, rfl, ?_, (Except.ok.inj h).symm⟩
    exact (byOrder_perm m.groups).mem_iff.mp (List.mem_of_mem_head? h_first)

theorem Keyed.delete (h : Keyed m) (h_ok : deleteGroup m group = .ok t) : Keyed t := by
  obtain ⟨firstGroup, -, -, rfl⟩ := deleteGroup_ok h_ok
  refine ⟨?_, ?_, ?_⟩
  · show ((renameAttrs m.attrs group.groupName firstGroup.groupName).map (·.attrId)).Nodup
    rw [map_renameAttrs]
    exact h.attrIds
  · exact nodup_names_reorder ((List.filter_sublist.map _).nodup h.names)
  · intro g h_g
    obtain ⟨old, h_old, h_eq⟩ := mem_reorder h_g
    rw [h_eq]
    exact h.named old (List.mem_filter.mp h_old).1

/-- **Deleting a group.** Its attributes have a home afterwards iff there are none, or the first
group is another one. -/
theorem consistent_delete_iff (h_keyed : Keyed m) (h : Consistent m) (h_group : group ∈ m.groups)
    (h_ok : deleteGroup m group = .ok t) :
    Consistent t ↔ attrIdsOf m.attrs group.groupName = [] ∨
      (byOrder m.groups).head? ≠ some group := by
  have h_keyed' := h_keyed.delete h_ok
  obtain ⟨firstGroup, h_first, h_mem, rfl⟩ := deleteGroup_ok h_ok
  -- where the attributes of the group would be
  have h_orphan : firstGroup = group → attrIdsOf m.attrs group.groupName ≠ [] →
      ∃ attr ∈ renameAttrs m.attrs group.groupName firstGroup.groupName,
        attr.attrGroup = some group.groupName := by
    rintro rfl h_some
    obtain ⟨attrId, h_id⟩ := List.exists_mem_of_ne_nil _ h_some
    have h_still : attrId ∈ attrIdsOf (renameAttrs m.attrs firstGroup.groupName
        firstGroup.groupName) firstGroup.groupName := mem_attrIdsOf_renameAttrs_self h_id
    obtain ⟨attr, h_attr, h_home, -⟩ := mem_attrIdsOf.mp h_still
    exact ⟨attr, h_attr, h_home⟩
  constructor
  · intro h_consistent
    by_contra h_not
    rw [not_or, not_not, h_first, Option.some_inj] at h_not
    obtain ⟨attr, h_attr, h_home⟩ := h_orphan h_not.2 h_not.1
    obtain ⟨g, h_g, h_name⟩ := (h_consistent.home attr h_attr).exists
    obtain ⟨old, h_old, h_eq⟩ := mem_reorder h_g
    have h_deleted : old.groupName = group.groupName := by
      rw [h_home, h_eq] at h_name
      exact (Option.some.inj h_name).symm
    exact of_decide_eq_true (List.mem_filter.mp h_old).2 h_deleted
  · intro h_cond
    constructor
    · intro attr h_attr
      rw [h_keyed'.home_iff]
      have h_stays : ∀ g ∈ m.groups, g.groupName ≠ group.groupName →
          ∃ g' ∈ reorderAfterDelete (m.groups.filter (·.groupName ≠ group.groupName)),
            g'.groupName = g.groupName := fun g h_g h_ne =>
        exists_mem_reorder (List.mem_filter.mpr ⟨h_g, decide_eq_true h_ne⟩)
      obtain ⟨⟨old, h_old, h_in⟩, h_moved⟩ | ⟨h_old, h_out⟩ := attrGroup_renameAttrs h_attr
      · -- the first group is another one, since the group has an attribute
        have h_ne : firstGroup.groupName ≠ group.groupName := by
          intro h_name
          obtain h_none | h_other := h_cond
          · have h_id : old.attrId ∈ attrIdsOf m.attrs group.groupName :=
              mem_attrIdsOf.mpr ⟨old, h_old, h_in, rfl⟩
            exact List.not_mem_nil (h_none ▸ h_id)
          · exact h_other (h_keyed.eq_of_name h_mem h_group h_name ▸ h_first)
        obtain ⟨g', h_g', h_name⟩ := h_stays firstGroup h_mem h_ne
        exact ⟨g', h_g', h_name ▸ h_moved⟩
      · obtain ⟨g, h_g, h_home⟩ := (h.home attr h_old).exists
        obtain ⟨g', h_g', h_name⟩ := h_stays g h_g fun h_name => h_out (h_name ▸ h_home)
        exact ⟨g', h_g', h_name ▸ h_home⟩
    · show ((reorderAfterDelete _).map (·.order)).Nodup
      rw [map_order_reorder]
      exact List.Nodup.map (fun i j h_eq => by omega) List.nodup_range
    · intro g h_g
      obtain ⟨old, h_old, h_eq⟩ := mem_reorder h_g
      obtain ⟨h_old, h_ne⟩ := List.mem_filter.mp h_old
      obtain ⟨h_nodup, h_ids⟩ := h.lists old h_old
      rw [h_eq]
      exact ⟨h_nodup, fun attrId h_id =>
        mem_attrIdsOf_renameAttrs (h_ids attrId h_id) (of_decide_eq_true h_ne)⟩

end Delete

/-! ### Moving a group -/

section Move

variable {m t : FieldModel} {groupName direction : String}

theorem moveGroup_ok (h : moveGroup m groupName direction = .ok t) :
    ∃ current ∈ m.groups, ∃ swap ∈ m.groups,
      t = { m with
        groups := writeGroup
          (writeGroup m.groups current.groupName fun group => { group with order := swap.order })
          swap.groupName fun group => { group with order := current.order } } := by
  rw [moveGroup] at h
  dsimp only at h
  split at h
  · cases h
  split at h
  · cases h
  split_ifs at h
  all_goals
    split at h
    · refine ⟨_, ?_, _, ?_, (Except.ok.inj h).symm⟩
      · exact (byOrder_perm m.groups).mem_iff.mp (List.mem_of_getElem? ‹_›)
      · exact (byOrder_perm m.groups).mem_iff.mp (List.mem_of_getElem? ‹_›)
    · cases h

theorem map_order_move (h_keyed : Keyed m) (h : (m.groups.map (·.order)).Nodup)
    {current swap : FieldGroup} (h_current : current ∈ m.groups) (h_swap : swap ∈ m.groups) :
    (writeGroup
      (writeGroup m.groups current.groupName fun group => { group with order := swap.order })
      swap.groupName fun group => { group with order := current.order }).map (·.order) =
    (m.groups.map (·.order)).map (Equiv.swap current.order swap.order) := by
  rw [writeGroup, writeGroup, List.map_map, List.map_map, List.map_map]
  refine List.map_congr_left fun group h_group => ?_
  have h_order : ∀ {a b : FieldGroup}, a ∈ m.groups → b ∈ m.groups → a ≠ b → a.order ≠ b.order :=
    fun h_a h_b h_ne h_eq => h_ne (List.inj_on_of_nodup_map h h_a h_b h_eq)
  simp only [Function.comp_apply]
  by_cases h_is_swap : group = swap
  · subst h_is_swap
    rw [Equiv.swap_apply_right]
    split_ifs <;> simp_all
  · have h_name_swap : group.groupName ≠ swap.groupName := fun h_name =>
      h_is_swap (h_keyed.eq_of_name h_group h_swap h_name)
    by_cases h_is_current : group = current
    · subst h_is_current
      rw [Equiv.swap_apply_left, if_pos rfl, if_neg h_name_swap]
    · have h_name_current : group.groupName ≠ current.groupName := fun h_name =>
        h_is_current (h_keyed.eq_of_name h_group h_current h_name)
      rw [if_neg h_name_current, if_neg h_name_swap, Equiv.swap_apply_of_ne_of_ne
        (h_order h_group h_current h_is_current) (h_order h_group h_swap h_is_swap)]

theorem Keyed.move (h : Keyed m) (h_ok : moveGroup m groupName direction = .ok t) : Keyed t := by
  obtain ⟨current, -, swap, -, rfl⟩ := moveGroup_ok h_ok
  have h_once : Keyed { m with groups := writeGroup m.groups current.groupName fun group =>
      { group with order := swap.order } } := h.write fun _ => rfl
  exact h_once.write fun _ => rfl

theorem Consistent.move (h_keyed : Keyed m) (h : Consistent m)
    (h_ok : moveGroup m groupName direction = .ok t) : Consistent t := by
  have h_keyed' := h_keyed.move h_ok
  obtain ⟨current, h_current, swap, h_swap, rfl⟩ := moveGroup_ok h_ok
  constructor
  · intro attr h_attr
    refine h_keyed'.home_iff.mpr (home_of_names ?_ (h.home attr h_attr).exists)
    show (writeGroup _ _ _).map (·.groupName) = m.groups.map (·.groupName)
    have h_name : ∀ order (group : FieldGroup),
        { group with order := order }.groupName = group.groupName := fun _ _ => rfl
    rw [map_writeGroup (h_name _), map_writeGroup (h_name _)]
  · show (List.map _ (writeGroup _ _ _)).Nodup
    rw [map_order_move h_keyed h.orders h_current h_swap]
    exact h.orders.map (Equiv.injective _)
  · have h_moved : ∀ group ∈ writeGroup m.groups current.groupName fun group =>
        { group with order := swap.order }, Listed m.attrs group :=
      forall_writeGroup (fun group h_group _ => h.lists group h_group)
        fun group h_group _ => h.lists group h_group
    exact forall_writeGroup (fun group h_group _ => h_moved group h_group)
      fun group h_group _ => h_moved group h_group

end Move

/-! ### Attributes that move one by one -/

section SetGroup

variable {attrs result : List Attr} {attrId groupName : String} {updates : List (String × String)}

theorem map_setGroup : (setGroup attrId groupName attrs).map (·.attrId) = attrs.map (·.attrId) := by
  induction attrs with
  | nil => rfl
  | cons attr attrs ih =>
    rw [setGroup]
    split_ifs
    · rfl
    · rw [List.map_cons, List.map_cons, ih]

theorem mem_setGroup {attr : Attr} (h : attr ∈ setGroup attrId groupName attrs) :
    attr = ⟨attrId, some groupName⟩ ∨ attr ∈ attrs := by
  induction attrs with
  | nil => exact .inr h
  | cons first attrs ih =>
    rw [setGroup] at h
    split_ifs at h with h_first
    · obtain rfl | h := List.mem_cons.mp h
      · exact .inl (h_first ▸ rfl)
      · exact .inr (List.mem_cons_of_mem _ h)
    · obtain rfl | h := List.mem_cons.mp h
      · exact .inr List.mem_cons_self
      · exact (ih h).imp_right (List.mem_cons_of_mem _)

theorem mem_setGroup_self (h : attrId ∈ attrs.map (·.attrId)) :
    ⟨attrId, some groupName⟩ ∈ setGroup attrId groupName attrs := by
  induction attrs with
  | nil => exact absurd h List.not_mem_nil
  | cons first attrs ih =>
    rw [setGroup]
    split_ifs with h_first
    · exact h_first ▸ List.mem_cons_self
    · obtain h_id | h := List.mem_cons.mp h
      · exact absurd h_id.symm h_first
      · exact List.mem_cons_of_mem _ (ih h)

theorem mem_setGroup_of_ne {attr : Attr} (h : attr ∈ attrs) (h_other : attr.attrId ≠ attrId) :
    attr ∈ setGroup attrId groupName attrs := by
  induction attrs with
  | nil => exact absurd h List.not_mem_nil
  | cons first attrs ih =>
    rw [setGroup]
    obtain rfl | h := List.mem_cons.mp h
    · rw [if_neg h_other]
      exact List.mem_cons_self
    · split_ifs
      · exact List.mem_cons_of_mem _ h
      · exact List.mem_cons_of_mem _ (ih h)

/-- **What the updates do.** -/
structure Applied (updates : List (String × String)) (attrs result : List Attr) : Prop where
  ids : result.map (·.attrId) = attrs.map (·.attrId)
  stays : ∀ attr ∈ result, attr.attrId ∉ updates.map (·.1) → attr ∈ attrs
  kept : ∀ attr ∈ attrs, attr.attrId ∉ updates.map (·.1) → attr ∈ result
  moved : ∀ attr ∈ result, attr.attrId ∈ updates.map (·.1) →
    ∃ groupName ∈ updates.map (·.2), attr.attrGroup = some groupName
  named : ∀ attrId ∈ updates.map (·.1), attrId ∈ attrs.map (·.attrId)

theorem Applied.nil : Applied [] attrs attrs where
  ids := rfl
  stays _ h _ := h
  kept _ h _ := h
  moved _ _ h_none := absurd h_none List.not_mem_nil
  named _ h_none := absurd h_none List.not_mem_nil

theorem Applied.cons (h_keys : (attrs.map (·.attrId)).Nodup)
    (h_there : attrId ∈ attrs.map (·.attrId))
    (h : Applied updates (setGroup attrId groupName attrs) result) :
    Applied ((attrId, groupName) :: updates) attrs result := by
  refine ⟨h.ids.trans map_setGroup, ?_, ?_, ?_, ?_⟩
  · intro attr h_attr h_id
    rw [List.map_cons, List.mem_cons, not_or] at h_id
    obtain rfl | h_old := mem_setGroup (h.stays attr h_attr h_id.2)
    · exact absurd rfl h_id.1
    · exact h_old
  · intro attr h_attr h_id
    rw [List.map_cons, List.mem_cons, not_or] at h_id
    exact h.kept attr (mem_setGroup_of_ne h_attr h_id.1) h_id.2
  · intro attr h_attr h_id
    by_cases h_later : attr.attrId ∈ updates.map (·.1)
    · obtain ⟨target, h_target, h_group⟩ := h.moved attr h_attr h_later
      exact ⟨target, List.mem_cons_of_mem _ h_target, h_group⟩
    · -- no later update moves the attribute again
      have h_first : attr.attrId = attrId := (List.mem_cons.mp h_id).resolve_right h_later
      have h_set : ⟨attrId, some groupName⟩ ∈ setGroup attrId groupName attrs :=
        mem_setGroup_self h_there
      have h_nodup : ((setGroup attrId groupName attrs).map (·.attrId)).Nodup := by
        rw [map_setGroup]
        exact h_keys
      have h_eq : attr = ⟨attrId, some groupName⟩ :=
        List.inj_on_of_nodup_map h_nodup (h.stays attr h_attr h_later) h_set h_first
      exact ⟨groupName, List.mem_cons_self, h_eq ▸ rfl⟩
  · intro other h_other
    obtain rfl | h_later := List.mem_cons.mp h_other
    · exact h_there
    · have h_id := h.named other h_later
      rwa [map_setGroup] at h_id

theorem applyUpdates_ok (h_keys : (attrs.map (·.attrId)).Nodup)
    (h : applyUpdates updates attrs = .ok result) : Applied updates attrs result := by
  induction updates generalizing attrs with
  | nil =>
    obtain rfl := Except.ok.inj h
    exact .nil
  | cons update updates ih =>
    obtain ⟨attrId, groupName⟩ := update
    rw [applyUpdates] at h
    split_ifs at h with h_there
    have h_keys' : ((setGroup attrId groupName attrs).map (·.attrId)).Nodup := by
      rw [map_setGroup]
      exact h_keys
    exact .cons h_keys h_there (ih h_keys' h)

end SetGroup

/-! ### Moving attributes in a batch -/

section Batch

variable {m t : FieldModel} {updates : List (String × String)} {attrs : List Attr}

theorem nodup_newOrders {ids existing : List String} (h : existing.Nodup) :
    (newOrders ids existing).Nodup := by
  have h_fold : ∀ (rest acc : List String), acc.Nodup → (rest.foldl (fun orders attrId =>
      if attrId ∈ orders then orders else orders ++ [attrId]) acc).Nodup := by
    intro rest
    induction rest with
    | nil => exact fun acc h_acc => h_acc
    | cons attrId rest ih =>
      intro acc h_acc
      rw [List.foldl_cons]
      refine ih _ ?_
      split_ifs with h_in
      · exact h_acc
      · exact List.nodup_append_comm.mp (List.nodup_cons.mpr ⟨h_in, h_acc⟩)
  exact h_fold ids _ (h.filter _)

theorem mem_of_mem_newOrders {ids existing : List String} {attrId : String}
    (h : attrId ∈ newOrders ids existing) : attrId ∈ ids := by
  have h_fold : ∀ (rest acc : List String), (∀ attrId ∈ rest, attrId ∈ ids) →
      (∀ attrId ∈ acc, attrId ∈ ids) → ∀ attrId ∈ rest.foldl (fun orders attrId =>
        if attrId ∈ orders then orders else orders ++ [attrId]) acc, attrId ∈ ids := by
    intro rest
    induction rest with
    | nil => exact fun acc _ h_acc => h_acc
    | cons first rest ih =>
      intro acc h_rest h_acc
      rw [List.foldl_cons]
      refine ih _ (fun a h_a => h_rest a (List.mem_cons_of_mem _ h_a)) fun a h_a => ?_
      split_ifs at h_a
      · exact h_acc a h_a
      · obtain h_a | h_a := List.mem_append.mp h_a
        · exact h_acc a h_a
        · exact List.mem_singleton.mp h_a ▸ h_rest first List.mem_cons_self
  refine h_fold ids _ (fun _ h_id => h_id) (fun a h_a => ?_) attrId h
  exact of_decide_eq_true (List.mem_filter.mp h_a).2

theorem batchUpdate_ok (h_keyed : Keyed m) (h : batchUpdateAttrsGroup m updates = .ok t) :
    (∀ groupName ∈ updates.map (·.2), m.HasGroup groupName) ∧ Applied updates m.attrs t.attrs ∧
      t.groups = m.groups.map fun group =>
        if group.groupName ∈ updates.map (·.2) then
          { group with
            attrOrders := newOrders (attrIdsOf t.attrs group.groupName) group.attrOrders }
        else group := by
  rw [batchUpdateAttrsGroup] at h
  split at h
  · cases h
  · rename_i h_all
    cases h_apply : applyUpdates updates m.attrs with
    | error e =>
      rw [h_apply] at h
      cases h
    | ok attrs =>
      rw [h_apply] at h
      obtain rfl := Except.ok.inj h
      refine ⟨?_, applyUpdates_ok h_keyed.attrIds h_apply, rfl⟩
      intro groupName h_name
      obtain ⟨update, h_update, rfl⟩ := List.mem_map.mp h_name
      simpa using List.find?_eq_none.mp h_all update h_update

theorem map_batch {α : Type*} {g : FieldGroup → α} {groups : List FieldGroup}
    (h : ∀ group orders, g { group with attrOrders := orders } = g group) :
    (groups.map fun group => if group.groupName ∈ updates.map (·.2) then
      { group with attrOrders := newOrders (attrIdsOf attrs group.groupName) group.attrOrders }
      else group).map g = groups.map g := by
  rw [List.map_map]
  refine List.map_congr_left fun group _ => ?_
  rw [Function.comp_apply]
  split_ifs
  · exact h group _
  · rfl

theorem Keyed.batch (h : Keyed m) (h_ok : batchUpdateAttrsGroup m updates = .ok t) : Keyed t := by
  obtain ⟨-, h_applied, h_groups⟩ := batchUpdate_ok h h_ok
  refine ⟨h_applied.ids ▸ h.attrIds, ?_, ?_⟩
  · rw [h_groups, map_batch fun _ _ => rfl]
    exact h.names
  · intro group h_group
    rw [h_groups] at h_group
    obtain ⟨old, h_old, rfl⟩ := List.mem_map.mp h_group
    split_ifs
    · exact h.named old h_old
    · exact h.named old h_old

theorem Applied.listed_iff {group : FieldGroup} (h : Applied updates m.attrs attrs)
    (h_listed : Listed m.attrs group) (h_target : group.groupName ∉ updates.map (·.2)) :
    Listed attrs group ↔ ∀ attrId ∈ group.attrOrders, attrId ∉ updates.map (·.1) := by
  constructor
  · rintro ⟨-, h_ids⟩ attrId h_id h_moved
    obtain ⟨attr, h_attr, h_group, rfl⟩ := mem_attrIdsOf.mp (h_ids attrId h_id)
    obtain ⟨target, h_in, h_here⟩ := h.moved attr h_attr h_moved
    exact h_target (Option.some.inj (h_group.symm.trans h_here) ▸ h_in)
  · refine fun h_stays => ⟨h_listed.1, fun attrId h_id => ?_⟩
    obtain ⟨attr, h_attr, h_group, rfl⟩ := mem_attrIdsOf.mp (h_listed.2 attrId h_id)
    exact mem_attrIdsOf.mpr ⟨attr, h.kept attr h_attr (h_stays _ h_id), h_group, rfl⟩

theorem Applied.home (h : Applied updates m.attrs attrs)
    (h_names : ∀ groupName ∈ updates.map (·.2), m.HasGroup groupName)
    (h_home : ∀ attr ∈ m.attrs, ∃ group ∈ m.groups, attr.attrGroup = some group.groupName)
    {attr : Attr} (h_attr : attr ∈ attrs) :
    ∃ group ∈ m.groups, attr.attrGroup = some group.groupName := by
  by_cases h_moved : attr.attrId ∈ updates.map (·.1)
  · obtain ⟨target, h_target, h_group⟩ := h.moved attr h_attr h_moved
    obtain ⟨group, h_mem, rfl⟩ := exists_of_hasGroup (h_names target h_target)
    exact ⟨group, h_mem, h_group⟩
  · exact h_home attr (h.stays attr h_attr h_moved)

/-- **Moving attributes in a batch** out of a group that lists them and gets none is the defect. -/
theorem consistent_batch_iff (h_keyed : Keyed m) (h : Consistent m)
    (h_ok : batchUpdateAttrsGroup m updates = .ok t) :
    Consistent t ↔ ∀ group ∈ m.groups, group.groupName ∉ updates.map (·.2) →
      ∀ attrId ∈ group.attrOrders, attrId ∉ updates.map (·.1) := by
  have h_keyed' := h_keyed.batch h_ok
  obtain ⟨h_names, h_applied, h_groups⟩ := batchUpdate_ok h_keyed h_ok
  constructor
  · intro h_consistent group h_group h_target
    have h_mem : group ∈ t.groups := by
      rw [h_groups]
      exact List.mem_map.mpr ⟨group, h_group, if_neg h_target⟩
    exact (h_applied.listed_iff (h.lists group h_group) h_target).mp (h_consistent.lists group h_mem)
  · intro h_stays
    constructor
    · intro attr h_attr
      refine h_keyed'.home_iff.mpr (home_of_names ?_ (h_applied.home h_names
        (fun a h_a => (h.home a h_a).exists) h_attr))
      rw [h_groups, map_batch fun _ _ => rfl]
    · rw [h_groups, map_batch fun _ _ => rfl]
      exact h.orders
    · intro group h_group
      rw [h_groups] at h_group
      obtain ⟨old, h_old, rfl⟩ := List.mem_map.mp h_group
      split_ifs with h_target
      · exact ⟨nodup_newOrders (h.lists old h_old).1, fun _ h_id => mem_of_mem_newOrders h_id⟩
      · exact (h_applied.listed_iff (h.lists old h_old) h_target).mpr (h_stays old h_old h_target)

end Batch

/-! ### Moving one attribute -/

section One

variable {m t : FieldModel} {attrId newGroupName groupName : String} {orderId : Option ℤ}
  {attrOrders : List String}

theorem insertPosition_le {orders : List String} : insertPosition orderId orders ≤ orders.length := by
  cases orderId with
  | none => exact le_rfl
  | some orderId =>
    rw [insertPosition]
    split_ifs
    · exact Nat.zero_le _
    · exact min_le_right _ _

theorem insertAttrOrder_perm {group : FieldGroup} :
    (insertAttrOrder orderId attrId group).attrOrders.Perm (attrId :: group.attrOrders.erase attrId) :=
  List.perm_insertIdx _ _ insertPosition_le

/-- **What moving an attribute does.** The attribute leaves the list of its old group and enters the
one of the new group. -/
theorem updateAttrGroup_ok (h : updateAttrGroup m attrId newGroupName orderId = .ok t) :
    ∃ attr ∈ m.attrs, attr.attrId = attrId ∧ m.HasGroup newGroupName ∧
      t = ⟨writeGroup (removeAttrOrder m.groups attr.attrGroup attrId) newGroupName
        (insertAttrOrder orderId attrId), setGroup attrId newGroupName m.attrs⟩ := by
  rw [updateAttrGroup] at h
  split_ifs at h with h_group
  split at h
  · cases h
  · rename_i attr h_find
    have h_id : decide (attr.attrId = attrId) = true := by simpa using List.find?_some h_find
    exact ⟨attr, List.mem_of_find?_eq_some h_find, of_decide_eq_true h_id, h_group,
      (Except.ok.inj h).symm⟩

theorem map_removeAttrOrder {α : Type*} {g : FieldGroup → α} {groups : List FieldGroup}
    {oldGroup : Option String} (h : ∀ group orders, g { group with attrOrders := orders } = g group) :
    (removeAttrOrder groups oldGroup attrId).map g = groups.map g := by
  rw [removeAttrOrder.eq_def]
  split
  · split_ifs
    · rfl
    · exact map_writeGroup fun group => h group _
  · rfl

theorem map_moved {α : Type*} {g : FieldGroup → α} {groups : List FieldGroup}
    {oldGroup : Option String} (h : ∀ group orders, g { group with attrOrders := orders } = g group) :
    (writeGroup (removeAttrOrder groups oldGroup attrId) newGroupName
      (insertAttrOrder orderId attrId)).map g = groups.map g := by
  have h_insert : ∀ group, g (insertAttrOrder orderId attrId group) = g group := fun group =>
    h group _
  rw [map_writeGroup h_insert, map_removeAttrOrder h]

theorem removed_lists (h_keyed : Keyed m) (h : Consistent m) {attr : Attr} (h_attr : attr ∈ m.attrs)
    {group : FieldGroup} (h_group : group ∈ removeAttrOrder m.groups attr.attrGroup attr.attrId) :
    Listed m.attrs group ∧ attr.attrId ∉ group.attrOrders := by
  obtain ⟨old, h_old, h_home⟩ := (h.home attr h_attr).exists
  rw [h_home, removeAttrOrder, if_neg (h_keyed.named old h_old)] at h_group
  refine forall_writeGroup (P := fun group => Listed m.attrs group ∧
    attr.attrId ∉ group.attrOrders) ?_ ?_ group h_group
  · intro group h_group _
    obtain ⟨h_nodup, h_ids⟩ := h.lists group h_group
    exact ⟨⟨h_nodup.erase _, fun id h_id => h_ids id (List.mem_of_mem_erase h_id)⟩,
      fun h_id => (h_nodup.mem_erase_iff.mp h_id).1 rfl⟩
  · intro group h_group h_other
    refine ⟨h.lists group h_group, fun h_id => ?_⟩
    -- another group lists attributes of its own only
    obtain ⟨other, h_mem, h_there, h_same⟩ := mem_attrIdsOf.mp ((h.lists group h_group).2 _ h_id)
    obtain rfl := h_keyed.eq_of_attrId h_mem h_attr h_same
    exact h_other (Option.some.inj (h_there.symm.trans h_home))

theorem Keyed.one (h : Keyed m) (h_ok : updateAttrGroup m attrId newGroupName orderId = .ok t) :
    Keyed t := by
  obtain ⟨attr, -, -, -, rfl⟩ := updateAttrGroup_ok h_ok
  have h_names : (writeGroup (removeAttrOrder m.groups attr.attrGroup attrId) newGroupName
      (insertAttrOrder orderId attrId)).map (·.groupName) = m.groups.map (·.groupName) :=
    map_moved fun _ _ => rfl
  refine ⟨?_, h_names ▸ h.names, fun group h_group => ?_⟩
  · show ((setGroup attrId newGroupName m.attrs).map (·.attrId)).Nodup
    rw [map_setGroup]
    exact h.attrIds
  · have h_mem : group.groupName ∈ m.groups.map (·.groupName) :=
      h_names ▸ List.mem_map_of_mem h_group
    obtain ⟨old, h_old, h_name⟩ := List.mem_map.mp h_mem
    exact h_name ▸ h.named old h_old

theorem Consistent.one (h_keyed : Keyed m) (h : Consistent m)
    (h_ok : updateAttrGroup m attrId newGroupName orderId = .ok t) : Consistent t := by
  have h_keyed' := h_keyed.one h_ok
  obtain ⟨attr, h_attr, rfl, h_there, rfl⟩ := updateAttrGroup_ok h_ok
  have h_mem : attr.attrId ∈ m.attrs.map (·.attrId) := List.mem_map_of_mem h_attr
  have h_applied : Applied [(attr.attrId, newGroupName)] m.attrs
      (setGroup attr.attrId newGroupName m.attrs) := .cons h_keyed.attrIds h_mem .nil
  -- a list without the attribute is right with the attribute moved
  have h_keeps : ∀ group ∈ removeAttrOrder m.groups attr.attrGroup attr.attrId,
      ∀ id ∈ group.attrOrders, id ∈ attrIdsOf (setGroup attr.attrId newGroupName m.attrs)
        group.groupName := by
    intro group h_group id h_id
    obtain ⟨h_listed, h_not⟩ := removed_lists h_keyed h h_attr h_group
    obtain ⟨other, h_other, h_in, rfl⟩ := mem_attrIdsOf.mp (h_listed.2 id h_id)
    refine mem_attrIdsOf.mpr ⟨other, mem_setGroup_of_ne h_other fun h_same => ?_, h_in, rfl⟩
    exact h_not (h_same ▸ h_id)
  constructor
  · intro a h_a
    refine h_keyed'.home_iff.mpr (home_of_names ?_ (h_applied.home ?_
      (fun a h_a => (h.home a h_a).exists) h_a))
    · exact map_moved fun _ _ => rfl
    · intro groupName h_name
      exact List.mem_singleton.mp h_name ▸ h_there
  · have h_orders : (writeGroup (removeAttrOrder m.groups attr.attrGroup attr.attrId) newGroupName
        (insertAttrOrder orderId attr.attrId)).map (·.order) = m.groups.map (·.order) :=
      map_moved fun _ _ => rfl
    exact h_orders ▸ h.orders
  · refine forall_writeGroup ?_ ?_
    · intro group h_group h_name
      obtain ⟨h_listed, h_not⟩ := removed_lists h_keyed h h_attr h_group
      have h_perm : (insertAttrOrder orderId attr.attrId group).attrOrders.Perm
          (attr.attrId :: group.attrOrders) := by
        rw [← List.erase_of_not_mem h_not]
        exact insertAttrOrder_perm
      refine ⟨h_perm.nodup_iff.mpr (List.nodup_cons.mpr ⟨h_not, h_listed.1⟩), fun id h_id => ?_⟩
      obtain rfl | h_id := List.mem_cons.mp (h_perm.mem_iff.mp h_id)
      · exact mem_attrIdsOf.mpr ⟨_, mem_setGroup_self h_mem, h_name ▸ rfl, rfl⟩
      · exact h_keeps group h_group id h_id
    · intro group h_group _
      exact ⟨(removed_lists h_keyed h h_attr h_group).1.1, h_keeps group h_group⟩

/-! ### Sorting the attributes of a group -/

theorem reorderGroupAttrs_ok (h : reorderGroupAttrs m groupName attrOrders = .ok t) :
    m.HasGroup groupName ∧ (∀ attrId ∈ attrOrders, attrId ∈ attrIdsOf m.attrs groupName) ∧
      t = { m with groups := writeGroup m.groups groupName fun group =>
        { group with attrOrders := attrOrders } } := by
  rw [reorderGroupAttrs] at h
  split_ifs at h with h_group
  dsimp only at h
  split at h
  · cases h
  · rename_i h_all
    split_ifs at h
    refine ⟨h_group, fun attrId h_id => ?_, (Except.ok.inj h).symm⟩
    simpa using List.find?_eq_none.mp h_all attrId h_id

theorem Keyed.reorder (h : Keyed m) (h_ok : reorderGroupAttrs m groupName attrOrders = .ok t) :
    Keyed t := by
  obtain ⟨-, -, rfl⟩ := reorderGroupAttrs_ok h_ok
  exact h.write fun _ => rfl

/-- **Sorting the attributes of a group.** The list is right iff it has no repetition. -/
theorem consistent_reorder_iff (h_keyed : Keyed m) (h : Consistent m)
    (h_ok : reorderGroupAttrs m groupName attrOrders = .ok t) :
    Consistent t ↔ attrOrders.Nodup := by
  obtain ⟨h_there, h_ids, rfl⟩ := reorderGroupAttrs_ok h_ok
  constructor
  · intro h_consistent
    obtain ⟨group, h_group, h_name⟩ := exists_of_hasGroup h_there
    exact (h_consistent.lists { group with attrOrders := attrOrders }
      (mem_writeGroup.mpr ⟨group, h_group, if_pos h_name⟩)).1
  · intro h_nodup
    refine Consistent.write h_keyed h (fun _ => rfl) (fun _ => rfl) fun group _ h_name => ?_
    exact ⟨h_nodup, fun attrId h_id => h_name ▸ h_ids attrId h_id⟩

end One

/-! ### Runs -/

/-- The operations; the groups that are changed or deleted are told by their names. -/
inductive Action
  | createGroup (groupName description : String) (isCollapsed : Bool)
  | updateGroup (groupName : String) (newGroupName description : Option String)
    (isCollapsed : Option Bool)
  | deleteGroup (groupName : String)
  | moveGroup (groupName direction : String)
  | batchUpdateAttrsGroup (updates : List (String × String))
  | updateAttrGroup (attrId newGroupName : String) (orderId : Option ℤ)
  | reorderGroupAttrs (groupName : String) (attrOrders : List String)

def FieldModel.group (m : FieldModel) (groupName : String) : Except String FieldGroup :=
  match m.groups.find? (·.groupName = groupName) with
  | some group => .ok group
  | none => .error "分组不存在"

def perform (m : FieldModel) : Action → Except String FieldModel
  | .createGroup groupName description isCollapsed =>
    FieldGroups.createGroup m groupName description isCollapsed
  | .updateGroup groupName newGroupName description isCollapsed => do
    FieldGroups.updateGroup m (← m.group groupName) newGroupName description isCollapsed
  | .deleteGroup groupName => do FieldGroups.deleteGroup m (← m.group groupName)
  | .moveGroup groupName direction => FieldGroups.moveGroup m groupName direction
  | .batchUpdateAttrsGroup updates => FieldGroups.batchUpdateAttrsGroup m updates
  | .updateAttrGroup attrId newGroupName orderId =>
    FieldGroups.updateAttrGroup m attrId newGroupName orderId
  | .reorderGroupAttrs groupName attrOrders => FieldGroups.reorderGroupAttrs m groupName attrOrders

def step (m : FieldModel) (a : Action) : FieldModel :=
  match perform m a with
  | .ok t => t
  | .error _ => m

def Numbered (m : FieldModel) : Action → FieldModel → Prop
  | .deleteGroup groupName, t => perform m (.deleteGroup groupName) = .ok t →
    ∀ order : ℤ, order ∈ t.groups.map (·.order) ↔ 1 ≤ order ∧ order ≤ t.groups.length
  | _, _ => True

/-- A successful operation leaves the attributes with their groups. -/
def Careful (m : FieldModel) : Action → FieldModel → Prop
  | .deleteGroup groupName, t => perform m (.deleteGroup groupName) = .ok t →
    attrIdsOf m.attrs groupName = [] ∨
      ((byOrder m.groups).head?.map (·.groupName)) ≠ some groupName
  | .batchUpdateAttrsGroup updates, t => perform m (.batchUpdateAttrsGroup updates) = .ok t →
    ∀ group ∈ m.groups, group.groupName ∉ updates.map (·.2) →
      ∀ attrId ∈ group.attrOrders, attrId ∉ updates.map (·.1)
  | .reorderGroupAttrs groupName attrOrders, t =>
    perform m (.reorderGroupAttrs groupName attrOrders) = .ok t → attrOrders.Nodup
  | _, _ => True

section Run

variable {m t : FieldModel} {a : Action}

theorem group_ok {groupName : String} {group : FieldGroup} (h : m.group groupName = .ok group) :
    group ∈ m.groups ∧ group.groupName = groupName := by
  rw [FieldModel.group] at h
  split at h
  · rename_i g h_find
    obtain rfl := Except.ok.inj h
    exact ⟨List.mem_of_find?_eq_some h_find, by simpa using List.find?_some h_find⟩
  · cases h

theorem bind_group_ok {groupName : String} {f : FieldGroup → Except String FieldModel}
    (h : (m.group groupName >>= f) = .ok t) :
    ∃ group ∈ m.groups, group.groupName = groupName ∧ f group = .ok t := by
  cases h_group : m.group groupName with
  | error e =>
    rw [h_group] at h
    cases h
  | ok group =>
    rw [h_group] at h
    exact ⟨group, (group_ok h_group).1, (group_ok h_group).2, h⟩

theorem Keyed.perform (h : Keyed m) (h_ok : perform m a = .ok t) : Keyed t := by
  cases a with
  | createGroup groupName description isCollapsed => exact h.create h_ok
  | updateGroup groupName newGroupName description isCollapsed =>
    obtain ⟨group, -, -, h_update⟩ := bind_group_ok h_ok
    exact h.update h_update
  | deleteGroup groupName =>
    obtain ⟨group, -, -, h_delete⟩ := bind_group_ok h_ok
    exact h.delete h_delete
  | moveGroup groupName direction => exact h.move h_ok
  | batchUpdateAttrsGroup updates => exact h.batch h_ok
  | updateAttrGroup attrId newGroupName orderId => exact h.one h_ok
  | reorderGroupAttrs groupName attrOrders => exact h.reorder h_ok

theorem Keyed.step (h : Keyed m) (a : Action) : Keyed (step m a) := by
  rw [FieldGroups.step]
  cases h_ok : FieldGroups.perform m a with
  | ok t => exact h.perform h_ok
  | error e => exact h

theorem consistent_perform_iff (h_keyed : Keyed m) (h : Consistent m) (h_ok : perform m a = .ok t) :
    Consistent t ↔ Careful m a t := by
  cases a with
  | createGroup groupName description isCollapsed =>
    exact iff_of_true (h.create h_keyed h_ok) trivial
  | updateGroup groupName newGroupName description isCollapsed =>
    obtain ⟨group, h_group, -, h_update⟩ := bind_group_ok h_ok
    exact iff_of_true (h.update h_keyed h_group h_update) trivial
  | deleteGroup groupName =>
    obtain ⟨group, h_group, rfl, h_delete⟩ := bind_group_ok h_ok
    obtain ⟨first, h_first, h_mem, -⟩ := deleteGroup_ok h_delete
    rw [consistent_delete_iff h_keyed h h_group h_delete, Careful, forall_prop_of_true h_ok, h_first]
    have h_same : some first = some group ↔
        Option.map (·.groupName) (some first) = some group.groupName := by
      rw [Option.some_inj, Option.map_some, Option.some_inj]
      exact ⟨fun h_eq => h_eq ▸ rfl, h_keyed.eq_of_name h_mem h_group⟩
    rw [Ne, Ne, h_same]
  | moveGroup groupName direction => exact iff_of_true (h.move h_keyed h_ok) trivial
  | batchUpdateAttrsGroup updates =>
    rw [Careful, forall_prop_of_true h_ok]
    exact consistent_batch_iff h_keyed h h_ok
  | updateAttrGroup attrId newGroupName orderId => exact iff_of_true (h.one h_keyed h_ok) trivial
  | reorderGroupAttrs groupName attrOrders =>
    rw [Careful, forall_prop_of_true h_ok]
    exact consistent_reorder_iff h_keyed h h_ok

theorem careful_of_error {e : String} (h_error : perform m a = .error e) : Careful m a t := by
  cases a with
  | deleteGroup groupName => exact fun h_ok => nomatch h_error.symm.trans h_ok
  | batchUpdateAttrsGroup updates => exact fun h_ok => nomatch h_error.symm.trans h_ok
  | reorderGroupAttrs groupName attrOrders => exact fun h_ok => nomatch h_error.symm.trans h_ok
  | _ => trivial

theorem consistent_step_iff (h_keyed : Keyed m) (h : Consistent m) (a : Action) :
    Consistent (step m a) ↔ Careful m a (step m a) := by
  rw [step]
  cases h_ok : perform m a with
  | ok t => exact consistent_perform_iff h_keyed h h_ok
  | error e => exact iff_of_true h (careful_of_error h_ok)

theorem numbered (m : FieldModel) (a : Action) (t : FieldModel) : Numbered m a t := by
  cases a with
  | deleteGroup groupName =>
    intro h_ok order
    obtain ⟨group, -, -, h_delete⟩ := bind_group_ok h_ok
    obtain ⟨first, -, -, rfl⟩ := deleteGroup_ok h_delete
    have h_length : ∀ groups : List FieldGroup,
        (reorderAfterDelete groups).length = groups.length := fun groups => by
      rw [← List.length_map (·.order), map_order_reorder, List.length_map, List.length_range]
    rw [map_order_reorder, h_length, List.mem_map]
    constructor
    · rintro ⟨i, h_i, rfl⟩
      have h_lt := List.mem_range.mp h_i
      omega
    · rintro ⟨h_one, h_le⟩
      exact ⟨(order - 1).toNat, List.mem_range.mpr (by omega), by omega⟩
  | _ => trivial

/-- **The field groups stay consistent iff every operation of the run is careful.** -/
theorem consistent_iff (h_keyed : Keyed m) (h : Consistent m) (as : List Action) :
    Runs.Always step Consistent m as ∧ Runs.Along step Numbered m as ↔
      Runs.Along step Careful m as := by
  have h_numbered : Runs.Along step Numbered m as :=
    Runs.along_of_step (I := fun _ => True) (fun m a _ => ⟨trivial, numbered m a _⟩) trivial as
  rw [and_iff_left h_numbered]
  exact Runs.always_iff_along (K := Keyed) (fun _ a h_keyed => h_keyed.step a)
    (fun _ a (_ : True) h_keyed h => consistent_step_iff h_keyed h a) (fun _ _ => trivial) h_keyed h

end Run

section Examples

private def host : FieldModel where
  groups := [⟨"base", 1, false, "", ["ip"]⟩, ⟨"hardware", 2, false, "", ["cpu", "memory"]⟩]
  attrs := [⟨"ip", some "base"⟩, ⟨"cpu", some "hardware"⟩, ⟨"memory", some "hardware"⟩]

private theorem host_keyed : Keyed host := ⟨by decide, by decide, by decide⟩

private theorem host_consistent : Consistent host := by
  refine ⟨fun attr h_attr => host_keyed.home_iff.mpr ?_, by decide, ?_⟩
  · revert attr
    decide
  · show ∀ group ∈ host.groups, group.attrOrders.Nodup ∧
      ∀ attrId ∈ group.attrOrders, attrId ∈ attrIdsOf host.attrs group.groupName
    decide

/-- The second group goes, its attributes come to the first one, and one of them goes on. -/
theorem consistent_careful :
    Runs.Always step Consistent host
      [.deleteGroup "hardware", .createGroup "network" "" false, .updateAttrGroup "ip" "network" none] ∧
    Runs.Along step Numbered host
      [.deleteGroup "hardware", .createGroup "network" "" false,
        .updateAttrGroup "ip" "network" none] := by
  refine (consistent_iff host_keyed host_consistent _).mpr ⟨fun _ => .inr ?_, trivial, trivial, trivial⟩
  decide

/-- The first group goes with its attribute in it. -/
theorem not_consistent_first :
    ¬∀ (m : FieldModel) (as : List Action), Keyed m → Consistent m →
      Runs.Always step Consistent m as ∧ Runs.Along step Numbered m as := by
  intro h_claim
  obtain ⟨h_always, -⟩ := h_claim host [.deleteGroup "base"] host_keyed host_consistent
  have h_ip : (⟨"ip", some "base"⟩ : Attr) ∈
      (Runs.run step host [.deleteGroup "base"]).attrs := by decide
  obtain ⟨group, h_group, h_home⟩ := (h_always.last.home _ h_ip).exists
  revert group
  decide

end Examples

end Cmdb.FieldGroups
