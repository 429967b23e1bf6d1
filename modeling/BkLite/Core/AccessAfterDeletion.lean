import BkLite.Core.RuleDeletion
import Mathlib.Data.Fintype.EquivFin

/-!
# Access after a deletion

A user reads the same rules before and after `delete_rules`, some with another list. In either
reading an object that is granted afterwards was granted before, unless by a list that has been
emptied or has lost its 0 (`grants_keep`); and such a list grants an object that nothing else does,
unless another rule covers it. `narrow_iff` puts the two directions together.
-/

namespace Core
namespace RuleDeletion

open PermissionRules
open OrderedDict (get)

/-! ### What the user reads -/

section Rules

variable {c} {dir : Directory} {db : Db} {q : Query} {p : Prepared} {app module key : String}
  {i groupId : ℕ} {moduleData : ModuleData} {es : List Entry} {o : Obj}

theorem mem_rulesOf {rule : RuleOf} : rule ∈ rulesOf db q p app module ↔
    ∃ i, Read db q p app module i rule.groupId rule.moduleData := by
  unfold rulesOf Read
  rw [List.mem_filterMap]
  constructor
  · rintro ⟨u, h_u, h_rule⟩
    obtain ⟨h_mem, h_user⟩ := List.mem_filter.mp h_u
    cases h_row : db.groupDataRules[u.groupRule]? with
    | none =>
      rw [h_row] at h_rule
      cases h_rule
    | some r =>
      rw [h_row] at h_rule
      dsimp only at h_rule
      split_ifs at h_rule with h_of
      obtain ⟨moduleData, h_get, rfl⟩ := Option.map_eq_some_iff.mp h_rule
      exact ⟨u.groupRule, ⟨u, h_mem, of_decide_eq_true h_user, rfl⟩, r, h_row, h_of, h_get, rfl⟩
  · rintro ⟨i, ⟨u, h_mem, h_user, rfl⟩, r, h_row, h_of, h_get, h_group⟩
    refine ⟨u, List.mem_filter.mpr ⟨h_mem, decide_eq_true h_user⟩, ?_⟩
    rw [h_row]
    dsimp only
    rw [if_pos h_of, h_get, h_group]
    rfl

/-- The deletion works on what is read of the `i`th rule. -/
def WorksOn (c : Deletion) (db : Db) (app module : String) (i groupId : ℕ) : Prop :=
  (app = c.app ∧ module = c.module) ∧ groupId ∈ c.groupIds ∧ Reached c db.groupDataRules i

instance : Decidable (WorksOn c db app module i groupId) :=
  inferInstanceAs (Decidable (_ ∧ _ ∧ _))

theorem read_deleteRules {moduleData' : ModuleData} :
    Read (deleteRules c db) q p app module i groupId moduleData' ↔
      ∃ moduleData, Read db q p app module i groupId moduleData ∧
        moduleData' = if WorksOn c db app module i groupId then rewrite c moduleData
          else moduleData := by
  unfold Read
  have h_rows : (deleteRules c db).groupDataRules[i]? = (db.groupDataRules[i]?).map fun r =>
      if Addressed c r ∧ Reached c db.groupDataRules i then (deleteFromRule c r).getD r else r :=
    getElem?_deleteFromRules c db.groupDataRules i
  rw [h_rows]
  constructor
  · rintro ⟨h_user, r', h_row', h_of, h_get, rfl⟩
    obtain ⟨r, h_row, rfl⟩ := Option.map_eq_some_iff.mp h_row'
    by_cases h_hit : Addressed c r ∧ Reached c db.groupDataRules i
    · obtain ⟨⟨⟨h_group, h_name⟩, h_app⟩, h_data⟩ := deleted_spec (c := c) r
      rw [if_pos h_hit] at h_of h_get ⊢
      rw [h_group, h_name, h_app] at h_of
      rw [h_data] at h_get
      obtain ⟨old, h_old, h_eq⟩ := Option.map_eq_some_iff.mp h_get
      refine ⟨old, ⟨h_user, r, h_row, h_of, h_old, h_group.symm⟩, ?_⟩
      rw [← h_eq, h_group]
      have h_app' : app = c.app := h_of.1.symm.trans h_hit.1.2
      exact if_congr ⟨fun h_module => ⟨⟨h_app', h_module⟩, h_hit.1.1, h_hit.2⟩,
        fun h => h.1.2⟩ rfl rfl
    · rw [if_neg h_hit] at h_of h_get ⊢
      refine ⟨moduleData', ⟨h_user, r, h_row, h_of, h_get, rfl⟩, ?_⟩
      exact (if_neg fun h => h_hit ⟨⟨h.2.1, h_of.1.trans h.1.1⟩, h.2.2⟩).symm
  · rintro ⟨moduleData, ⟨h_user, r, h_row, h_of, h_get, rfl⟩, rfl⟩
    rw [h_row, Option.map_some]
    refine ⟨h_user, _, rfl, ?_⟩
    by_cases h_hit : Addressed c r ∧ Reached c db.groupDataRules i
    · obtain ⟨⟨⟨h_group, h_name⟩, h_app⟩, h_data⟩ := deleted_spec (c := c) r
      rw [if_pos h_hit, h_group, h_name, h_app, h_data, h_get, Option.map_some]
      have h_app' : app = c.app := h_of.1.symm.trans h_hit.1.2
      refine ⟨h_of, congrArg some ?_, rfl⟩
      exact if_congr ⟨fun h_module => ⟨⟨h_app', h_module⟩, h_hit.1.1, h_hit.2⟩,
        fun h => h.1.2⟩ rfl rfl
    · rw [if_neg h_hit]
      refine ⟨h_of, ?_, rfl⟩
      rw [if_neg fun h => h_hit ⟨⟨h.2.1, h_of.1.trans h.1.1⟩, h.2.2⟩]
      exact h_get

theorem exists_rule_later (c : Deletion) {rule : RuleOf} (h : rule ∈ rulesOf db q p app module) :
    ∃ i, ⟨rule.groupId, if WorksOn c db app module i rule.groupId then rewrite c rule.moduleData
      else rule.moduleData⟩ ∈ rulesOf (deleteRules c db) q p app module := by
  obtain ⟨i, h_read⟩ := mem_rulesOf.mp h
  exact ⟨i, mem_rulesOf.mpr ⟨i, read_deleteRules.mpr ⟨_, h_read, rfl⟩⟩⟩

theorem mem_freeTeams_deleteRules {t : ℕ} :
    t ∈ freeTeams p (rulesOf (deleteRules c db) q p app module) ↔
      t ∈ freeTeams p (rulesOf db q p app module) := by
  have h_groups : t ∈ (rulesOf (deleteRules c db) q p app module).map (·.groupId) ↔
      t ∈ (rulesOf db q p app module).map (·.groupId) := by
    simp only [List.mem_map]
    constructor
    · rintro ⟨rule, h_rule, rfl⟩
      obtain ⟨i, h_read⟩ := mem_rulesOf.mp h_rule
      obtain ⟨moduleData, h_before, -⟩ := read_deleteRules.mp h_read
      exact ⟨⟨rule.groupId, moduleData⟩, mem_rulesOf.mpr ⟨i, h_before⟩, rfl⟩
    · rintro ⟨rule, h_rule, rfl⟩
      obtain ⟨i, h_later⟩ := exists_rule_later c h_rule
      exact ⟨_, h_later, rfl⟩
  unfold freeTeams
  rw [List.mem_filter, List.mem_filter, decide_eq_true_iff, decide_eq_true_iff, h_groups]

/-! ### One child module -/

theorem exists_fresh (texts : List String) : ∃ id, id ∉ texts := by
  obtain ⟨id, h_id⟩ := Infinite.exists_notMem_finset texts.toFinset
  exact ⟨id, fun h_mem => h_id (List.mem_toFinset.mpr h_mem)⟩

theorem Hits.read (h : Hits c db q p groupId es) : ∃ moduleData,
    (⟨groupId, moduleData⟩ ∈ rulesOf db q p c.app c.module ∧
      ⟨groupId, rewrite c moduleData⟩ ∈ rulesOf (deleteRules c db) q p c.app c.module) ∧
      targetList c moduleData = some es := by
  obtain ⟨i, moduleData, h_read, h_group, h_reached, h_list⟩ := h
  have h_works : WorksOn c db c.app c.module i groupId := ⟨⟨rfl, rfl⟩, h_group, h_reached⟩
  refine ⟨moduleData, ⟨mem_rulesOf.mpr ⟨i, h_read⟩, mem_rulesOf.mpr ⟨i, ?_⟩⟩, h_list⟩
  exact read_deleteRules.mpr ⟨moduleData, h_read, (if_pos h_works).symm⟩

theorem hits_of_grants {rule' : RuleOf}
    (h_rule : rule' ∈ rulesOf (deleteRules c db) q p app module)
    (h_grants : (targetData rule'.moduleData key).Grants rule'.groupId o) :
    (∃ rule ∈ rulesOf db q p app module, (targetData rule.moduleData key).Grants rule.groupId o) ∨
      (app = c.app ∧ module = c.module ∧ key = c.childModule) ∧
        ∃ es, Hits c db q p rule'.groupId es ∧
          ((Emptied c es ∧ rule'.groupId ∈ o.teams) ∨ Exposed c es o.id) := by
  obtain ⟨groupId, moduleData'⟩ := rule'
  obtain ⟨i, h_read'⟩ := mem_rulesOf.mp h_rule
  obtain ⟨moduleData, h_read, h_eq⟩ := read_deleteRules.mp h_read'
  dsimp only at h_read h_eq h_grants ⊢
  have h_mem := @mem_rulesOf db q p app module ⟨groupId, moduleData⟩ |>.mpr ⟨i, h_read⟩
  split_ifs at h_eq with h_works
  · subst h_eq
    obtain ⟨⟨rfl, rfl⟩, h_group, h_reached⟩ := h_works
    obtain h_same | ⟨rfl, es, h_list, h_rewrite⟩ := targetData_rewrite (c := c) moduleData key
    · rw [h_same] at h_grants
      exact .inl ⟨_, h_mem, h_grants⟩
    · rw [h_rewrite] at h_grants
      obtain h_before | h_opened := grants_keep h_grants
      · rw [← targetData_of_targetList h_list] at h_before
        exact .inl ⟨_, h_mem, h_before⟩
      · exact .inr ⟨⟨rfl, rfl, rfl⟩, es, ⟨i, moduleData, h_read, h_group, h_reached, h_list⟩,
          h_opened⟩
  · rw [h_eq] at h_grants
    exact .inl ⟨_, h_mem, h_grants⟩

theorem passes_of_later (h_p : prepareUserRulesQuery dir q app = some p)
    (h_user : p.isAdmin = false)
    (h_covered : app = c.app → module = c.module → key = c.childModule → ∀ groupId es,
      Hits c db q p groupId es → CoveredByApp c (rulesOf db q p app module) groupId es)
    (h : permissionFilter (getUserRulesByApp dir (deleteRules c db) q app module key) o = true) :
    permissionFilter (getUserRulesByApp dir db q app module key) o = true := by
  rw [passes_getUserRulesByApp h_p h_user] at h ⊢
  simp only [mem_freeTeams_deleteRules] at h
  obtain h_free | ⟨rule', h_rule', h_grants⟩ := h
  · exact .inl h_free
  obtain h_before | ⟨⟨h_app, h_module, h_key⟩, es, h_hits, h_opened⟩ :=
    hits_of_grants h_rule' h_grants
  · exact .inr h_before
  have h_cover := h_covered h_app h_module h_key _ es h_hits
  subst h_key
  obtain ⟨h_emptied, h_team⟩ | h_exposed := h_opened
  · obtain ⟨rule, h_rule, h_group, h_opens⟩ := h_cover.emptied h_emptied
    exact .inr ⟨rule, h_rule, (grants_of_opens h_opens).mpr (h_group ▸ h_team)⟩
  · obtain ⟨rule, h_rule, h_lists⟩ := h_cover.exposed o.id h_exposed
    exact .inr ⟨rule, h_rule, grants_of_lists h_lists⟩

theorem coveredByApp (h_p : prepareUserRulesQuery dir q c.app = some p) (h_user : p.isAdmin = false)
    (h_hits : Hits c db q p groupId es)
    (h : ∀ o, o.id ≠ c.instanceId.text →
      permissionFilter (getUserRulesByApp dir (deleteRules c db) q c.app c.module c.childModule) o =
        true →
      permissionFilter (getUserRulesByApp dir db q c.app c.module c.childModule) o = true) :
    CoveredByApp c (rulesOf db q p c.app c.module) groupId es := by
  simp only [passes_getUserRulesByApp h_p h_user, mem_freeTeams_deleteRules] at h
  obtain ⟨moduleData, ⟨h_mem, h_mem'⟩, h_list⟩ := h_hits.read
  have h_free : groupId ∉ freeTeams p (rulesOf db q p c.app c.module) := fun h_free =>
    of_decide_eq_true (List.mem_filter.mp h_free).2 (List.mem_map.mpr ⟨_, h_mem, rfl⟩)
  refine ⟨fun h_emptied => ?_, fun id h_exposed => ?_⟩
  · -- an object of the group that no rule names
    obtain ⟨id, h_id⟩ := exists_fresh (c.instanceId.text ::
      (rulesOf db q p c.app c.module).flatMap fun rule =>
        (processRuleData (targetData rule.moduleData c.childModule)).2.map (·.id.text))
    obtain ⟨h_other, h_unnamed⟩ := not_or.mp (mt List.mem_cons.mpr h_id)
    have h_after : (targetData (rewrite c moduleData) c.childModule).Grants groupId
        ⟨id, [groupId]⟩ := by
      rw [targetData_rewrite_of_targetList h_list]
      exact (grants_of_opens (opens_of_emptied h_emptied)).mpr (List.mem_singleton.mpr rfl)
    obtain ⟨t, h_t, h_team⟩ | ⟨rule, h_rule, h_grants⟩ :=
      h ⟨id, [groupId]⟩ h_other (.inr ⟨_, h_mem', h_after⟩)
    · obtain rfl := List.mem_singleton.mp h_t
      exact absurd h_team h_free
    · obtain ⟨h_opens, h_team⟩ | ⟨-, e, h_e, h_named⟩ := opens_or_lists h_grants
      · exact ⟨rule, h_rule, List.mem_singleton.mp h_team, h_opens⟩
      · refine absurd (List.mem_flatMap.mpr ⟨rule, h_rule, ?_⟩) h_unnamed
        exact List.mem_map.mpr ⟨e, h_e, h_named⟩
  · -- an object without organizations
    obtain ⟨h_lists, h_other⟩ := lists_of_exposed h_exposed
    rw [← targetData_rewrite_of_targetList h_list] at h_lists
    obtain ⟨t, h_t, -⟩ | ⟨rule, h_rule, h_grants⟩ :=
      h ⟨id, []⟩ h_other (.inr ⟨_, h_mem', grants_of_lists h_lists⟩)
    · exact absurd h_t List.not_mem_nil
    · obtain ⟨-, h_team⟩ | h_before := opens_or_lists h_grants
      · exact absurd h_team List.not_mem_nil
      · exact ⟨rule, h_rule, h_before⟩

/-! ### All child modules -/

theorem mentions?_deleteRules : mentions? (rulesOf (deleteRules c db) q p app module) = none ↔
    mentions? (rulesOf db q p app module) = none := by
  have h_none {rules : List RuleOf} :
      mentions? rules = none ↔ ∃ rule ∈ rules, rule.moduleData.items? = none := by
    rw [← not_iff_not, ← ne_eq, Option.ne_none_iff_exists']
    simp only [mentions?_eq_some, not_exists, not_and]
    exact ⟨fun ⟨_, h, _⟩ => h, fun h => ⟨_, h, rfl⟩⟩
  have h_items {i groupId : ℕ} {moduleData : ModuleData} :
      (if WorksOn c db app module i groupId then rewrite c moduleData
        else moduleData).items? = none ↔ moduleData.items? = none := by
    split_ifs
    · exact items?_rewrite
    · exact Iff.rfl
  rw [h_none, h_none]
  constructor
  · rintro ⟨rule, h_rule, h_list⟩
    obtain ⟨i, h_read⟩ := mem_rulesOf.mp h_rule
    obtain ⟨moduleData, h_before, h_eq⟩ := read_deleteRules.mp h_read
    rw [h_eq] at h_list
    exact ⟨⟨rule.groupId, moduleData⟩, mem_rulesOf.mpr ⟨i, h_before⟩, h_items.mp h_list⟩
  · rintro ⟨rule, h_rule, h_list⟩
    obtain ⟨i, h_later⟩ := exists_rule_later c h_rule
    exact ⟨_, h_later, h_items.mpr h_list⟩

section Mentions

variable {ms ms' : List Mention} (h_ms : mentions? (rulesOf db q p app module) = some ms)
  (h_ms' : mentions? (rulesOf (deleteRules c db) q p app module) = some ms')

include h_ms h_ms'

theorem mention_of_later {m : Mention} (h : m ∈ ms') : m ∈ ms ∨
    (app = c.app ∧ module = c.module ∧ m.key = c.childModule) ∧
      ∃ es, Hits c db q p m.groupId es ∧ m.es = keep c es ∧ ⟨m.key, es, m.groupId⟩ ∈ ms := by
  obtain ⟨h_dicts, rfl⟩ := mentions?_eq_some.mp h_ms
  obtain ⟨-, rfl⟩ := mentions?_eq_some.mp h_ms'
  obtain ⟨rule, h_rule, item, h_item, rfl⟩ := mem_mentions.mp h
  obtain ⟨groupId, moduleData'⟩ := rule
  obtain ⟨i, h_read'⟩ := mem_rulesOf.mp h_rule
  obtain ⟨moduleData, h_read, h_eq⟩ := read_deleteRules.mp h_read'
  dsimp only at h_read h_eq h_item ⊢
  have h_mem := @mem_rulesOf db q p app module ⟨groupId, moduleData⟩ |>.mpr ⟨i, h_read⟩
  split_ifs at h_eq with h_works
  · subst h_eq
    obtain ⟨⟨rfl, rfl⟩, h_group, h_reached⟩ := h_works
    obtain h_before | ⟨es, h_list, rfl⟩ := mem_items_rewrite h_item
    · exact .inl (mem_mentions.mpr ⟨_, h_mem, item, h_before, rfl⟩)
    · have h_hits : Hits c db q p groupId es :=
        ⟨i, moduleData, h_read, h_group, h_reached, h_list⟩
      refine .inr ⟨⟨rfl, rfl, rfl⟩, es, h_hits, rfl, ?_⟩
      exact mem_mentions.mpr ⟨_, h_mem, _,
        (mem_items_of_targetList h_list (h_dicts _ h_mem)).1, rfl⟩
  · rw [h_eq] at h_item
    exact .inl (mem_mentions.mpr ⟨_, h_mem, item, h_item, rfl⟩)

theorem mentioned_deleteRules : Mentioned ms' key ↔ Mentioned ms key := by
  constructor
  · rintro ⟨m, h_m, rfl⟩
    obtain h_before | ⟨-, es, -, -, h_before⟩ := mention_of_later h_ms h_ms' h_m
    · exact ⟨m, h_before, rfl⟩
    · exact ⟨_, h_before, rfl⟩
  · rintro ⟨m, h_m, rfl⟩
    obtain ⟨-, rfl⟩ := mentions?_eq_some.mp h_ms
    obtain ⟨-, rfl⟩ := mentions?_eq_some.mp h_ms'
    obtain ⟨rule, h_rule, item, h_item, rfl⟩ := mem_mentions.mp h_m
    obtain ⟨i, h_later⟩ := exists_rule_later c h_rule
    have h_item' : ∃ item' ∈ (if WorksOn c db app module i rule.groupId then
        rewrite c rule.moduleData else rule.moduleData).items, item'.1 = item.1 := by
      split_ifs
      · exact exists_item_rewrite h_item
      · exact ⟨item, h_item, rfl⟩
    obtain ⟨item', h_mem, h_key⟩ := h_item'
    exact ⟨_, mem_mentions.mpr ⟨_, h_later, item', h_mem, rfl⟩, h_key⟩

theorem grantedUnder_of_later (h : GrantedUnder ms' key o) : GrantedUnder ms key o ∨
    (app = c.app ∧ module = c.module ∧ key = c.childModule) ∧ ∃ groupId es,
      Hits c db q p groupId es ∧ ((Emptied c es ∧ groupId ∈ o.teams) ∨ Exposed c es o.id) := by
  obtain ⟨m, h_m, rfl, h_grants⟩ := h
  obtain h_before | ⟨h_target, es, h_hits, h_es, h_mem⟩ := mention_of_later h_ms h_ms' h_m
  · exact .inl ⟨m, h_before, rfl, h_grants⟩
  · rw [h_es] at h_grants
    obtain h_before | h_opened := grants_keep h_grants
    · exact .inl ⟨_, h_mem, rfl, h_before⟩
    · exact .inr ⟨h_target, m.groupId, es, h_hits, h_opened⟩

theorem openUnderAll_of_later (h : OpenUnderAll ms' o) : OpenUnderAll ms o ∨
    (app = c.app ∧ module = c.module ∧ "all" = c.childModule) ∧ ∃ groupId es,
      Hits c db q p groupId es ∧ Emptied c es ∧ groupId ∈ o.teams := by
  obtain ⟨m, h_m, h_all, h_opens, h_team⟩ := h
  obtain h_before | ⟨⟨h_app, h_module, h_key⟩, es, h_hits, h_es, h_mem⟩ :=
    mention_of_later h_ms h_ms' h_m
  · exact .inl ⟨m, h_before, h_all, h_opens, h_team⟩
  · rw [h_es] at h_opens
    obtain h_before | h_emptied := opens_keep h_opens
    · exact .inl ⟨_, h_mem, h_all, h_before, h_team⟩
    · exact .inr ⟨⟨h_app, h_module, h_all.symm.trans h_key⟩, m.groupId, es, h_hits, h_emptied,
        h_team⟩

end Mentions

theorem CoveredByModule.granted {ms : List Mention} (h : CoveredByModule c ms groupId es)
    (h_emptied : Emptied c es) (h_team : groupId ∈ o.teams) :
    GrantedUnder ms c.childModule o ∨ Mentioned ms "all" ∧ OpenUnderAll ms o := by
  obtain ⟨m, h_m, h_key | h_all, h_opens, rfl⟩ := h.emptied h_emptied
  · exact .inl ⟨m, h_m, h_key, (grants_of_opens h_opens).mpr h_team⟩
  · exact .inr ⟨⟨m, h_m, h_all⟩, m, h_m, h_all, h_opens, h_team⟩

theorem permissions_of_later {typeId : String}
    (h_p : prepareUserRulesQuery dir q app = some p) (h_user : p.isAdmin = false)
    (h_covered : app = c.app → module = c.module → ∀ ms, mentions? (rulesOf db q p app module) =
      some ms → ∀ groupId es, Hits c db q p groupId es → CoveredByModule c ms groupId es)
    (h : getInstancePermissions typeId o
      (getPermissionsRules dir (deleteRules c db) q app module).data
      (getPermissionsRules dir (deleteRules c db) q app module).team ≠ []) :
    getInstancePermissions typeId o (getPermissionsRules dir db q app module).data
      (getPermissionsRules dir db q app module).team ≠ [] := by
  cases h_ms' : mentions? (rulesOf (deleteRules c db) q p app module) with
  | none => exact absurd (instancePermissions_of_exception h_p h_user h_ms') h
  | some ms' =>
    obtain ⟨ms, h_ms⟩ := Option.ne_none_iff_exists'.mp fun h_none =>
      Option.some_ne_none _ (h_ms'.symm.trans (mentions?_deleteRules.mpr h_none))
    rw [instancePermissions_getPermissionsRules h_p h_user h_ms'] at h
    rw [instancePermissions_getPermissionsRules h_p h_user h_ms]
    simp only [mem_freeTeams_deleteRules, mentioned_deleteRules h_ms h_ms'] at h
    -- an object that an emptied list grants
    have h_emptied {groupId : ℕ} {es : List Entry} (h_app : app = c.app)
        (h_module : module = c.module) (h_hits : Hits c db q p groupId es)
        (h_emptied : Emptied c es) (h_team : groupId ∈ o.teams) :=
      (h_covered h_app h_module ms h_ms groupId es h_hits).granted h_emptied h_team
    obtain ⟨h_all, h_free | h_open⟩ | h_type := h
    · exact .inl ⟨h_all, .inl h_free⟩
    · obtain h_before | ⟨⟨h_app, h_module, h_key⟩, groupId, es, h_hits, h_empty, h_team⟩ :=
        openUnderAll_of_later h_ms h_ms' h_open
      · exact .inl ⟨h_all, .inr h_before⟩
      · obtain ⟨m, h_m, h_name, h_opens, rfl⟩ :=
          (h_covered h_app h_module ms h_ms groupId es h_hits).emptied h_empty
        rw [← h_key, or_self] at h_name
        exact .inl ⟨h_all, .inr ⟨m, h_m, h_name, h_opens, h_team⟩⟩
    · split_ifs at h_type ⊢ with h_mentioned
      · obtain h_free | h_granted := h_type
        · exact .inr (.inl h_free)
        obtain h_before | ⟨⟨h_app, h_module, rfl⟩, groupId, es, h_hits, h_opened⟩ :=
          grantedUnder_of_later h_ms h_ms' h_granted
        · exact .inr (.inr h_before)
        obtain ⟨h_empty, h_team⟩ | h_exposed := h_opened
        · obtain h_name | ⟨h_all, h_open⟩ := h_emptied h_app h_module h_hits h_empty h_team
          · exact .inr (.inr h_name)
          · exact .inl ⟨h_all, .inr h_open⟩
        · obtain ⟨m, h_m, h_key, h_lists⟩ :=
            (h_covered h_app h_module ms h_ms groupId es h_hits).exposed o.id h_exposed
          exact .inr (.inr ⟨m, h_m, h_key, grants_of_lists h_lists⟩)
      · exact .inr h_type

theorem coveredByModule {ms : List Mention} (h_p : prepareUserRulesQuery dir q c.app = some p)
    (h_user : p.isAdmin = false) (h_ms : mentions? (rulesOf db q p c.app c.module) = some ms)
    (h_hits : Hits c db q p groupId es)
    (h : ∀ o, o.id ≠ c.instanceId.text → getInstancePermissions c.childModule o
        (getPermissionsRules dir (deleteRules c db) q c.app c.module).data
        (getPermissionsRules dir (deleteRules c db) q c.app c.module).team ≠ [] →
      getInstancePermissions c.childModule o (getPermissionsRules dir db q c.app c.module).data
        (getPermissionsRules dir db q c.app c.module).team ≠ []) :
    CoveredByModule c ms groupId es := by
  obtain ⟨ms', h_ms'⟩ := Option.ne_none_iff_exists'.mp fun h_none =>
    Option.some_ne_none _ (h_ms.symm.trans (mentions?_deleteRules.mp h_none))
  obtain ⟨moduleData, ⟨h_mem, h_mem'⟩, h_list⟩ := h_hits.read
  obtain ⟨h_item, h_item'⟩ :=
    mem_items_of_targetList h_list ((mentions?_eq_some.mp h_ms).1 _ h_mem)
  have h_mention : ⟨c.childModule, es, groupId⟩ ∈ ms :=
    (mentions?_eq_some.mp h_ms).2 ▸ mem_mentions.mpr ⟨_, h_mem, _, h_item, rfl⟩
  have h_mention' : ⟨c.childModule, keep c es, groupId⟩ ∈ ms' :=
    (mentions?_eq_some.mp h_ms').2 ▸ mem_mentions.mpr ⟨_, h_mem', _, h_item', rfl⟩
  have h_free {t : ℕ} (h_t : t ∈ [groupId]) :
      t ∉ freeTeams p (rulesOf db q p c.app c.module) := fun h_free => by
    obtain rfl := List.mem_singleton.mp h_t
    exact of_decide_eq_true (List.mem_filter.mp h_free).2 (List.mem_map.mpr ⟨_, h_mem, rfl⟩)
  -- what is granted by the list afterwards, by a team of no rule aside
  have h_before (o : Obj) (h_other : o.id ≠ c.instanceId.text) (h_teams : o.teams ⊆ [groupId])
      (h_grants : (RuleData.entries (keep c es)).Grants groupId o) :
      OpenUnderAll ms o ∨ GrantedUnder ms c.childModule o := by
    have h_after : getInstancePermissions c.childModule o
        (getPermissionsRules dir (deleteRules c db) q c.app c.module).data
        (getPermissionsRules dir (deleteRules c db) q c.app c.module).team ≠ [] := by
      rw [instancePermissions_getPermissionsRules h_p h_user h_ms',
        if_pos ⟨_, h_mention', rfl⟩]
      exact .inr (.inr ⟨_, h_mention', rfl, h_grants⟩)
    have h_had := h o h_other h_after
    rw [instancePermissions_getPermissionsRules h_p h_user h_ms,
      if_pos ⟨_, h_mention, rfl⟩] at h_had
    obtain ⟨-, ⟨t, h_t, h_team⟩ | h_open⟩ | ⟨t, h_t, h_team⟩ | h_granted := h_had
    · exact absurd h_team (h_free (h_teams h_t))
    · exact .inl h_open
    · exact absurd h_team (h_free (h_teams h_t))
    · exact .inr h_granted
  refine ⟨fun h_emptied => ?_, fun id h_exposed => ?_⟩
  · obtain ⟨id, h_id⟩ := exists_fresh (c.instanceId.text :: ms.flatMap fun m =>
      (processRuleData (.entries m.es)).2.map (·.id.text))
    obtain ⟨h_other, h_unnamed⟩ := not_or.mp (mt List.mem_cons.mpr h_id)
    obtain ⟨m, h_m, h_key, h_opens, h_team⟩ | ⟨m, h_m, h_key, h_grants⟩ :=
      h_before ⟨id, [groupId]⟩ h_other (List.Subset.refl _)
        ((grants_of_opens (opens_of_emptied h_emptied)).mpr (List.mem_singleton.mpr rfl))
    · exact ⟨m, h_m, .inr h_key, h_opens, List.mem_singleton.mp h_team⟩
    · obtain ⟨h_opens, h_team⟩ | ⟨-, e, h_e, h_named⟩ := opens_or_lists h_grants
      · exact ⟨m, h_m, .inl h_key, h_opens, List.mem_singleton.mp h_team⟩
      · refine absurd (List.mem_flatMap.mpr ⟨m, h_m, ?_⟩) h_unnamed
        exact List.mem_map.mpr ⟨e, h_e, h_named⟩
  · obtain ⟨h_lists, h_other⟩ := lists_of_exposed h_exposed
    obtain ⟨m, -, -, -, h_team⟩ | ⟨m, h_m, h_key, h_grants⟩ :=
      h_before ⟨id, []⟩ h_other (List.nil_subset _) (grants_of_lists h_lists)
    · exact absurd h_team List.not_mem_nil
    · obtain ⟨-, h_team⟩ | h_named := opens_or_lists h_grants
      · exact absurd h_team List.not_mem_nil
      · exact ⟨m, h_m, h_key, h_named⟩

/-! ### What is left -/

theorem mem_addressedEntries {e : Entry} : e ∈ addressedEntries c moduleData ↔
    (∃ es, targetList c moduleData = some es ∧ e ∈ es) ∨ e ∈ outerEntries c moduleData := by
  cases moduleData with
  | entries es =>
    dsimp only [addressedEntries, targetList, outerEntries]
    split_ifs <;> simp
  | children cs keyed =>
    dsimp only [addressedEntries, targetList, outerEntries]
    constructor
    · intro h_e
      obtain ⟨⟨name, data⟩, h_child, h_in⟩ := List.mem_flatMap.mp h_e
      obtain ⟨item, h_item, h_e⟩ := List.mem_flatMap.mp h_in
      obtain ⟨h_item, h_at⟩ := List.mem_filter.mp h_item
      cases data with
      | entries es =>
        obtain rfl := List.mem_singleton.mp h_item
        by_cases h_empty : c.childModule = ""
        · refine .inr (List.mem_flatMap.mpr ⟨_, h_child, ?_⟩)
          dsimp only
          rwa [if_pos h_empty]
        · have h_name : name = c.childModule := by simpa [h_empty] using h_at
          subst h_name
          rw [if_neg h_empty, OrderedDict.get_of_mem keyed h_child]
          exact .inl ⟨es, rfl, h_e⟩
      | nested subs keyed' =>
        refine .inr (List.mem_flatMap.mpr ⟨_, h_child, List.mem_flatMap.mpr ⟨item, ?_, h_e⟩⟩)
        exact List.mem_filter.mpr ⟨h_item, h_at⟩
    · rintro (⟨es, h_list, h_e⟩ | h_e)
      · split_ifs at h_list with h_empty
        cases h_get : get cs c.childModule with
        | none =>
          rw [h_get] at h_list
          cases h_list
        | some data =>
          rw [h_get] at h_list
          cases data with
          | nested subs keyed' => cases h_list
          | entries es' =>
            cases h_list
            refine List.mem_flatMap.mpr ⟨_, OrderedDict.mem_of_get h_get, ?_⟩
            refine List.mem_flatMap.mpr ⟨_, List.mem_filter.mpr ⟨List.mem_singleton.mpr rfl, ?_⟩,
              h_e⟩
            simp
      · obtain ⟨⟨name, data⟩, h_child, h_in⟩ := List.mem_flatMap.mp h_e
        refine List.mem_flatMap.mpr ⟨_, h_child, ?_⟩
        cases data with
        | entries es =>
          dsimp only at h_in
          split_ifs at h_in with h_empty
          · refine List.mem_flatMap.mpr ⟨_, List.mem_filter.mpr ⟨List.mem_singleton.mpr rfl, ?_⟩,
              h_in⟩
            simp [h_empty]
          · exact absurd h_in List.not_mem_nil
        | nested subs keyed' => exact h_in

theorem targetList_rewrite :
    targetList c (rewrite c moduleData) = (targetList c moduleData).map (keep c) := by
  cases moduleData with
  | entries es =>
    dsimp only [rewrite, targetList]
    by_cases h_child : c.childModule = "" <;> simp [h_child]
  | children cs keyed =>
    dsimp only [rewrite, targetList]
    by_cases h_child : c.childModule = ""
    · simp [h_child]
    · rw [if_neg h_child, if_neg h_child]
      cases h_get : get cs c.childModule with
      | none => simp [h_child, h_get]
      | some data =>
        cases data with
        | entries es => simp [h_child, OrderedDict.get_set]
        | nested subs keyed' => simp [h_child, h_get]

theorem outerEntries_rewrite :
    outerEntries c (rewrite c moduleData) = outerEntries c moduleData := by
  cases moduleData with
  | entries es =>
    dsimp only [rewrite]
    split_ifs <;> rfl
  | children cs keyed =>
    dsimp only [rewrite]
    split_ifs with h_child
    · rfl
    cases h_get : get cs c.childModule with
    | none => rfl
    | some data =>
      cases data with
      | nested subs keyed' => rfl
      | entries es =>
        dsimp only [outerEntries]
        rw [List.flatMap_def, List.flatMap_def, OrderedDict.map_set h_get]
        dsimp only
        rw [if_neg h_child, if_neg h_child]

theorem clean_iff : (∀ r ∈ (deleteRules c db).groupDataRules, Addressed c r → ∀ moduleData,
      get r.rules c.module = some moduleData → ∀ e ∈ addressedEntries c moduleData,
        isDeleted c e = false) ↔
    ∀ i r, db.groupDataRules[i]? = some r → Addressed c r → ∀ moduleData,
      get r.rules c.module = some moduleData →
        (∀ e ∈ outerEntries c moduleData, isDeleted c e = false) ∧
        ∀ es, targetList c moduleData = some es → (∃ e ∈ es, isDeleted c e = true) →
          Reached c db.groupDataRules i := by
  have h_rows (i : ℕ) : (deleteRules c db).groupDataRules[i]? = (db.groupDataRules[i]?).map fun r =>
      if Addressed c r ∧ Reached c db.groupDataRules i then (deleteFromRule c r).getD r else r :=
    getElem?_deleteFromRules c db.groupDataRules i
  constructor
  · intro h i r h_row h_addressed moduleData h_get
    by_cases h_reached : Reached c db.groupDataRules i
    · refine ⟨fun e h_e => ?_, fun _ _ _ => h_reached⟩
      obtain ⟨⟨⟨h_group, -⟩, h_app⟩, h_data⟩ := deleted_spec (c := c) r
      have h_row' : (deleteRules c db).groupDataRules[i]? = some ((deleteFromRule c r).getD r) := by
        rw [h_rows, h_row, Option.map_some, if_pos ⟨h_addressed, h_reached⟩]
      refine h _ (List.mem_iff_getElem?.mpr ⟨i, h_row'⟩) ?_ (rewrite c moduleData) ?_ e ?_
      · unfold Addressed
        rw [h_group, h_app]
        exact h_addressed
      · rw [h_data, h_get, Option.map_some, if_pos rfl]
      · rw [mem_addressedEntries, outerEntries_rewrite]
        exact .inr h_e
    · have h_row' : (deleteRules c db).groupDataRules[i]? = some r := by
        rw [h_rows, h_row, Option.map_some, if_neg fun h => h_reached h.2]
      have h_none := h r (List.mem_iff_getElem?.mpr ⟨i, h_row'⟩) h_addressed moduleData h_get
      refine ⟨fun e h_e => h_none e (mem_addressedEntries.mpr (.inr h_e)), ?_⟩
      rintro es h_list ⟨e, h_e, h_deleted⟩
      rw [h_none e (mem_addressedEntries.mpr (.inl ⟨es, h_list, h_e⟩))] at h_deleted
      cases h_deleted
  · intro h r' h_r' h_addressed' moduleData' h_get' e h_e
    obtain ⟨i, h_row'⟩ := List.mem_iff_getElem?.mp h_r'
    rw [h_rows] at h_row'
    obtain ⟨r, h_row, rfl⟩ := Option.map_eq_some_iff.mp h_row'
    split_ifs at h_addressed' h_get' with h_hit
    · obtain ⟨-, h_data⟩ := deleted_spec (c := c) r
      rw [h_data] at h_get'
      obtain ⟨moduleData, h_get, h_eq⟩ := Option.map_eq_some_iff.mp h_get'
      rw [if_pos rfl] at h_eq
      subst h_eq
      rw [mem_addressedEntries, targetList_rewrite, outerEntries_rewrite] at h_e
      obtain ⟨es', h_list, h_e⟩ | h_outer := h_e
      · obtain ⟨es, -, rfl⟩ := Option.map_eq_some_iff.mp h_list
        exact (mem_keep.mp h_e).2
      · exact (h i r h_row h_hit.1 moduleData h_get).1 e h_outer
    · obtain ⟨h_outer, h_target⟩ := h i r h_row h_addressed' moduleData' h_get'
      obtain ⟨es, h_list, h_e⟩ | h_e := mem_addressedEntries.mp h_e
      · by_contra h_deleted
        exact h_hit ⟨h_addressed', h_target es h_list ⟨e, h_e, Bool.eq_true_of_not_eq_false
          h_deleted⟩⟩
      · exact h_outer e h_e

/-! ### Nobody, and administrators -/

theorem getUserRulesByApp_of_no_rules (db' : Db)
    (h : ∀ p, prepareUserRulesQuery dir q app = some p → p.isAdmin = true) :
    getUserRulesByApp dir db' q app module key = getUserRulesByApp dir db q app module key := by
  unfold getUserRulesByApp
  cases h_p : prepareUserRulesQuery dir q app with
  | none => rfl
  | some p =>
    dsimp only
    rw [if_pos (h p h_p), if_pos (h p h_p)]

theorem getPermissionsRules_of_no_rules (db' : Db)
    (h : ∀ p, prepareUserRulesQuery dir q app = some p → p.isAdmin = true) :
    getPermissionsRules dir db' q app module = getPermissionsRules dir db q app module := by
  unfold getPermissionsRules getUserRulesByModule
  cases h_p : prepareUserRulesQuery dir q app with
  | none => rfl
  | some p =>
    dsimp only
    rw [if_pos (h p h_p), if_pos (h p h_p)]

theorem no_rules_or_user (dir : Directory) (q : Query) (app : String) :
    (∀ p, prepareUserRulesQuery dir q app = some p → p.isAdmin = true) ∨
      ∃ p, prepareUserRulesQuery dir q app = some p ∧ p.isAdmin = false := by
  cases h_p : prepareUserRulesQuery dir q app with
  | none => exact .inl fun p h => nomatch h
  | some p =>
    cases h_admin : p.isAdmin with
    | true =>
      refine .inl fun p' h => ?_
      rwa [← Option.some.inj h]
    | false => exact .inr ⟨p, rfl, h_admin⟩

end Rules

/-! ### The result -/

/-- A deletion is narrow exactly if what it empties is covered, and it comes to all lists. -/
theorem narrow_iff (c : Deletion) (dir : Directory) (db : Db) (q : Query) :
    Narrow c dir db q ↔ Condition c dir db q := by
  constructor
  · intro h
    have h_other (o : Obj) (h_id : o.id ≠ c.instanceId.text) :
        Other c c.app c.module c.childModule o := fun h_same => h_id h_same.2.2.2
    refine ⟨fun p h_p h_user groupId es h_hits => ?_,
      fun p h_p h_user ms h_ms groupId es h_hits => ?_, clean_iff.mp h.clean⟩
    · exact coveredByApp h_p h_user h_hits fun o h_id =>
        h.byApp c.app c.module c.childModule o (h_other o h_id)
    · exact coveredByModule h_p h_user h_ms h_hits fun o h_id =>
        h.byModule c.app c.module c.childModule o (h_other o h_id)
  · intro h
    refine ⟨fun app module key o _ h_after => ?_, fun app module typeId o _ h_after => ?_,
      clean_iff.mpr h.clean⟩
    · obtain h_none | ⟨p, h_p, h_user⟩ := no_rules_or_user dir q app
      · rwa [getUserRulesByApp_of_no_rules _ h_none] at h_after
      · refine passes_of_later h_p h_user ?_ h_after
        rintro rfl rfl rfl groupId es h_hits
        exact h.byApp p h_p h_user groupId es h_hits
    · obtain h_none | ⟨p, h_p, h_user⟩ := no_rules_or_user dir q app
      · rwa [getPermissionsRules_of_no_rules _ h_none] at h_after
      · refine permissions_of_later h_p h_user ?_ h_after
        rintro rfl rfl ms h_ms groupId es h_hits
        exact h.byModule p h_p h_user ms h_ms groupId es h_hits

section Examples

private def reader : Directory where
  users := [⟨"reader", "domain.com", [1]⟩]
  roles := []
  guestGroup := none
  getUserAllRoles _ := []
  groupWithDescendants _ _ := []

private def oneEntry : Db where
  groupDataRules := [⟨1, "first", "opspilot",
    [("skill", .entries [⟨.int 5, ["View"]⟩])], List.nodup_singleton _⟩]
  userRules := [⟨"reader", "domain.com", 0⟩]

/-- With the only entry gone, all skills of the group are open. -/
theorem not_narrow : ¬∀ (c : Deletion) (dir : Directory) (db : Db) (q : Query),
    Narrow c dir db q := by
  intro h
  have h_app := (h ⟨[1], .int 5, "opspilot", "skill", ""⟩ reader oneEntry
    ⟨1, "reader", "domain.com", false⟩).byApp "opspilot" "skill" "" ⟨"6", [1]⟩
    (fun h_same => absurd h_same.2.2.2 (by decide)) (by decide +kernel)
  exact absurd h_app (by decide +kernel)

end Examples

end RuleDeletion
end Core
