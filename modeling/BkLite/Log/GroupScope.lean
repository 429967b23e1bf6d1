import BkLite.Log.Confinement
import BkLite.Log.GroupRules

/-!
# What the groups of a search say

The groups of a search mean one of their rules, and the filter that is written for them
(`_build_group_conditions`, `build_query_with_groups` in `utils/log_group.py`) is read so exactly if
their rules are plain (`means_iff`). `group_rules_iff` says in addition when a group more lets more
logs through: a group without a rule lets everything through on its own, and nothing beside another
one.
-/

namespace LogGroups

open LogsQL

/-! ### The groups -/

theorem strip_ne_nil {cs : Text} {c : Char} (h_c : c ∈ cs) (h_space : Py.isSpace c = false) :
    Py.strip cs ≠ [] := by
  intro h
  have h_left : c ∈ cs.dropWhile Py.isSpace := by
    obtain h_take | h_drop := List.mem_append.mp (List.takeWhile_append_dropWhile ▸ h_c :
      c ∈ cs.takeWhile Py.isSpace ++ cs.dropWhile Py.isSpace)
    · exact absurd (List.mem_takeWhile_imp h_take) (by simp [h_space])
    · exact h_drop
  have h_nil : (cs.dropWhile Py.isSpace).reverse.dropWhile Py.isSpace = [] :=
    List.reverse_eq_nil_iff.mp h
  have h_all := List.dropWhile_eq_nil_iff.mp h_nil c (List.mem_reverse.mpr h_left)
  exact absurd (h_space.symm.trans h_all) nofun

theorem colon_mem_expression (m : Meaning) : ':' ∈ m.expression := by
  simp [Meaning.expression]

theorem colon_mem_join (all : Bool) (m : Meaning) (ms : List Meaning) :
    ':' ∈ join (connector all) ((m :: ms).map Meaning.expression) := by
  cases ms with
  | nil => exact colon_mem_expression m
  | cons m' ms =>
    rw [join_cons]
    exact List.mem_append_left _ (List.mem_append_left _ (colon_mem_expression m))

theorem strip_expression_ne_nil (r : RuleMeaning) : Py.strip r.expression ≠ [] := by
  have h_space : Py.isSpace ':' = false := by decide
  refine strip_ne_nil ?_ h_space
  have h_join := colon_mem_join r.all r.first r.others
  unfold RuleMeaning.expression joinExpressions
  split
  case h_1 h => rwa [h] at h_join
  case h_2 => exact List.mem_append_left _ (List.mem_append_right _ h_join)

theorem buildGroupConditions_eq (groups : List LogGroup) :
    (buildGroupConditions groups).1 = (meanings groups).map RuleMeaning.expression := by
  induction groups with
  | nil => rfl
  | cons group groups ih =>
    have h_written := written_jsonToLogsqlExpression group.rule
    rw [buildGroupConditions_cons]
    cases h_meaning : group.rule.meaning with
    | some r =>
      rw [h_meaning] at h_written
      have h_meanings : meanings (group :: groups) = r :: meanings groups :=
        List.filterMap_cons_some h_meaning
      rw [show jsonToLogsqlExpression group.rule = .ok r.expression from h_written]
      dsimp only
      rw [if_pos (strip_expression_ne_nil r), h_meanings, List.map_cons, ih]
    | none =>
      rw [h_meaning] at h_written
      have h_meanings : meanings (group :: groups) = meanings groups :=
        List.filterMap_cons_none h_meaning
      rw [h_meanings, ← ih]
      obtain h_nil | ⟨e, h_error⟩ := h_written
      · rw [h_nil]
        rfl
      · rw [h_error]

theorem groupFilter_eq (conditions : List Text) :
    groupFilter conditions = joinExpressions false conditions := by
  match conditions with
  | [] => rfl
  | [_] => rfl
  | _ :: _ :: _ => rfl

def groupsFilter : List RuleMeaning → Option Filter
  | [] => none
  | r :: rs => some (joinFilters false r.filter (rs.map RuleMeaning.filter))

/-- **The rules mean what they say**: one filter for each of their conditions. -/
def Means (groups : List LogGroup) : Prop :=
  ∀ f, groupsFilter (meanings groups) = some f →
    ∃ ts, lex (groupFilter (buildGroupConditions groups).1) = some ts ∧ Parses .or ts f

theorem means_iff (groups : List LogGroup) :
    Means groups ↔ ∀ r ∈ meanings groups, r.Plain := by
  unfold Means
  rw [buildGroupConditions_eq, groupFilter_eq]
  cases meanings groups with
  | nil => simp [groupsFilter]
  | cons r rs =>
    have h_iff := (exact_join exact_rule false r rs).parses_iff
    rw [← h_iff]
    constructor
    · intro h
      exact h _ rfl
    · intro h f h_f
      exact Option.some.inj h_f ▸ h

/-! ### A group more -/

section Scope

variable {Log : Type} (holds : Option (List Char) → Atom → Log → Prop)

def scope (groups : List LogGroup) : Text :=
  (buildQueryWithGroups (fun _ => groups) "*".toList (groups.map LogGroup.id) (some groups)).1

def Unscoped (groups : List LogGroup) : Prop :=
  (∃ group ∈ groups, Py.strip group.id = "default".toList) ∨ ∀ group ∈ groups, EmptyRule group

def Grows (groups groups' : List LogGroup) : Prop :=
  ∀ log, Selected holds (scope groups) log → Selected holds (scope groups') log

def Allows (groups : List LogGroup) (log : Log) : Prop :=
  ∃ r ∈ meanings groups, r.filter.Selects holds none log

variable {holds} {groups : List LogGroup} {log : Log}

theorem selected_iff {text : Text} {ts : List Token} {f : Filter} (h_lex : lex text = some ts)
    (h : Parses .or ts f) : Selected holds text log ↔ f.Selects holds none log := by
  constructor
  · rintro ⟨us, g, h_us, h_g, h_log⟩
    obtain rfl := Option.some.inj (h_lex.symm.trans h_us)
    exact h.unique h_g ▸ h_log
  · intro h_log
    exact ⟨ts, f, h_lex, h, h_log⟩

theorem selected_star_iff :
    Selected holds "*".toList log ↔ holds none (.word "*".toList) log :=
  selected_iff (show lex "*".toList = some [.word "*".toList] from by decide)
    (.ofAnd (.ofUnary (.word _)))

theorem selected_deny_iff : Selected holds denyAllQuery log ↔ Denied holds log := by
  have h_lex : lex denyAllQuery =
      some (block (denyTokens "deny-1".toList) ++ guard (denyTokens "deny-2".toList)) := by
    decide +kernel
  have h_bal (text : Text) : Balanced (denyTokens text) := rfl
  have h_parses := (parses_block_guard_iff (h_bal "deny-1".toList) (h_bal "deny-2".toList)).mpr
    ⟨_, _, rfl, parses_field_quoted_iff.mpr rfl, parses_field_quoted_iff.mpr rfl⟩
  exact selected_iff h_lex h_parses

theorem selects_joinFilters (f : Filter) (fs : List Filter) :
    (joinFilters false f fs).Selects holds none log ↔ ∃ g ∈ f :: fs, g.Selects holds none log := by
  induction fs generalizing f with
  | nil => simp [joinFilters]
  | cons g fs ih =>
    rw [List.exists_mem_cons_iff, ← ih g]
    rfl

theorem meaning_eq_none {group : LogGroup} (h : EmptyRule group) : group.rule.meaning = none := by
  obtain ⟨c, h_c, h_strip⟩ := h
  have h_written := written_jsonToLogsqlExpression group.rule
  cases h_meaning : group.rule.meaning with
  | none => rfl
  | some r =>
    rw [h_meaning] at h_written
    obtain rfl : c = r.expression := Except.ok.inj (h_c.symm.trans h_written)
    exact absurd h_strip (strip_expression_ne_nil r)

theorem buildGroupConditions_of_empty (h : ∀ group ∈ groups, EmptyRule group) :
    buildGroupConditions groups = ([], groups.map fun group => (group.id, .emptyRule)) := by
  induction groups with
  | nil => rfl
  | cons group groups ih =>
    obtain ⟨⟨c, h_c, h_strip⟩, h_rest⟩ := List.forall_mem_cons.mp h
    rw [buildGroupConditions_cons, h_c]
    dsimp only
    rw [if_neg (not_not.mpr h_strip), ih h_rest]
    rfl

theorem status_of_empty (h : ∀ group ∈ groups, EmptyRule group) :
    ∀ item ∈ groupInfo groups, item.status = .emptyRule := by
  intro item h_item
  obtain ⟨group, h_group, rfl⟩ := List.mem_map.mp h_item
  rw [buildGroupConditions_of_empty h]
  dsimp only
  cases h_lookup : ((groups.map fun group => (group.id, Status.emptyRule)).reverse.lookup
      group.id) with
  | none =>
    have h_id : (group.id, Status.emptyRule) ∈
        (groups.map fun group => (group.id, Status.emptyRule)).reverse :=
      List.mem_reverse.mpr (List.mem_map_of_mem h_group)
    exact absurd (List.lookup_eq_none_iff.mp h_lookup _ h_id) (by simp)
  | some status =>
    obtain ⟨l, l', h_l, -⟩ := List.lookup_eq_some_iff.mp h_lookup
    have h_mem : (group.id, status) ∈
        (groups.map fun group => (group.id, Status.emptyRule)).reverse := by
      rw [h_l]
      simp
    obtain ⟨_, -, h_eq⟩ := List.mem_map.mp (List.mem_reverse.mp h_mem)
    exact (Prod.mk.inj h_eq).2.symm

theorem scope_of_unscoped (h : Unscoped groups) : scope groups = "*".toList := by
  have h_strip : Py.strip "*".toList = "*".toList := by decide
  by_cases h_nil : groups = []
  · subst h_nil
    rfl
  have h_ids : groups.map LogGroup.id ≠ [] := mt List.map_eq_nil_iff.mp h_nil
  unfold scope buildQueryWithGroups
  dsimp only [Option.getD_some]
  rw [if_neg h_ids, if_neg h_nil]
  obtain ⟨group, h_group, h_id⟩ | h_empty := h
  · have h_mem : "default".toList ∈
        ((groups.map LogGroup.id).map Py.strip).filter (· ≠ []) := by
      refine List.mem_filter.mpr ⟨?_, by decide⟩
      exact List.mem_map.mpr ⟨_, List.mem_map_of_mem h_group, h_id⟩
    rw [if_pos h_mem]
    exact h_strip
  · have h_conditions : (buildGroupConditions groups).1 = [] := by
      rw [buildGroupConditions_of_empty h_empty]
    rw [if_pos h_conditions, if_pos (status_of_empty h_empty)]
    split_ifs <;> exact h_strip

theorem scope_of_not_unscoped (h_key : ∀ g ∈ groups, ∀ g' ∈ groups, g.id = g'.id → g = g')
    (h : ¬Unscoped groups) :
    scope groups = scopedFilter "*".toList (buildGroupConditions groups).1 := by
  obtain ⟨h_default, h_empty⟩ := not_or.mp h
  have h_rule : ∃ g ∈ groups, ¬EmptyRule g := by
    by_contra h_all
    exact h_empty fun g h_g => by_contra fun h_g' => h_all ⟨g, h_g, h_g'⟩
  have h_ids : groups.map LogGroup.id ≠ [] := by
    obtain ⟨g, h_g, -⟩ := h_rule
    exact List.ne_nil_of_mem (List.mem_map_of_mem h_g)
  have h_id : ∀ id ∈ groups.map LogGroup.id, Py.strip id ≠ "default".toList := by
    intro id h_id h_eq
    obtain ⟨g, h_g, rfl⟩ := List.mem_map.mp h_id
    exact h_default ⟨g, h_g, h_eq⟩
  have h_pipes : pipesPart "*".toList = [] := by decide
  have h_scope := @buildQueryWithGroups_eq (fun _ => groups) "*".toList _ (some groups) groups h_ids
    h_id rfl h_key h_rule
  rw [scope, h_scope, h_pipes, ite_self, List.append_nil]

/-- **What is let through.** Without a scope everything is, and else the logs of one of the rules.
-/
theorem selected_scope_iff (h_star : ∀ log, holds none (.word "*".toList) log)
    (h_deny : ∀ log, ¬Denied holds log)
    (h_key : ∀ g ∈ groups, ∀ g' ∈ groups, g.id = g'.id → g = g')
    (h_plain : ∀ r ∈ meanings groups, r.Plain) :
    Selected holds (scope groups) log ↔ Unscoped groups ∨ Allows holds groups log := by
  by_cases h : Unscoped groups
  · rw [scope_of_unscoped h, selected_star_iff]
    exact iff_of_true (h_star log) (.inl h)
  rw [scope_of_not_unscoped h_key h, or_iff_right h, scopedFilter]
  have h_conditions := buildGroupConditions_eq groups
  unfold Allows
  cases h_meanings : meanings groups with
  | nil =>
    rw [h_meanings, List.map_nil] at h_conditions
    rw [if_pos h_conditions, selected_deny_iff]
    exact iff_of_false (h_deny log) (by simp)
  | cons r rs =>
    obtain ⟨ts, h_lex, h_f⟩ := (means_iff groups).mpr h_plain _ (by rw [h_meanings]; rfl)
    have h_ne : (buildGroupConditions groups).1 ≠ [] := by
      rw [h_conditions, h_meanings]
      exact List.cons_ne_nil _ _
    have h_part : filterPart "*".toList = "*".toList := by decide
    have h_guard := lex_guard (show lex "*".toList = some [.word "*".toList] from by decide)
      h_lex []
    rw [List.append_nil] at h_guard
    have h_parses := (parses_block_guard_iff (f := .and (.atom (.word "*".toList)) _)
      (show Balanced [.word "*".toList] from rfl) h_f.balanced).mpr
      ⟨_, _, rfl, .ofAnd (.ofUnary (.word _)), h_f⟩
    rw [if_neg h_ne, h_part, if_neg (by decide)]
    calc Selected holds _ log
      _ ↔ holds none (.word "*".toList) log ∧
            (joinFilters false r.filter (rs.map RuleMeaning.filter)).Selects holds none log :=
        selected_iff (h_guard.trans (by simp [lex, lexFrom, Mode.last, flush])) h_parses
      _ ↔ ∃ g ∈ r.filter :: rs.map RuleMeaning.filter, g.Selects holds none log :=
        (and_iff_right (h_star log)).trans (selects_joinFilters _ _)
      _ ↔ ∃ r' ∈ r :: rs, r'.filter.Selects holds none log := by simp

/-- **When the rules mean what they say.** Conditions are plain, and groups without a rule let every
log through. -/
theorem group_rules_iff (holds : Option (List Char) → Atom → Log → Prop)
    (h_star : ∀ log, holds none (.word "*".toList) log) (h_deny : ∀ log, ¬Denied holds log)
    (before after : List LogGroup) (group : LogGroup)
    (h_key : ∀ g ∈ before ++ group :: after, ∀ g' ∈ before ++ group :: after,
      g.id = g'.id → g = g') :
    (Means (before ++ after) ∧ Means (before ++ group :: after) ∧
        Grows holds (before ++ after) (before ++ group :: after)) ↔
      (∀ r ∈ meanings (before ++ group :: after), r.Plain) ∧
        (Unscoped (before ++ after) → Unscoped (before ++ group :: after) ∨
          ∀ log, Allows holds [group] log) := by
  have h_sub {g : LogGroup} (h : g ∈ before ++ after) : g ∈ before ++ group :: after := by
    simp only [List.mem_append, List.mem_cons] at h ⊢
    tauto
  have h_key' : ∀ g ∈ before ++ after, ∀ g' ∈ before ++ after, g.id = g'.id → g = g' :=
    fun g h_g g' h_g' => h_key g (h_sub h_g) g' (h_sub h_g')
  have h_meanings (r : RuleMeaning) : r ∈ meanings (before ++ group :: after) ↔
      r ∈ meanings [group] ∨ r ∈ meanings (before ++ after) := by
    have h_append (gs gs' : List LogGroup) : meanings (gs ++ gs') = meanings gs ++ meanings gs' :=
      List.filterMap_append ..
    have h_cons : meanings (group :: after) = meanings [group] ++ meanings after :=
      h_append [group] after
    rw [h_append, h_cons, h_append]
    simp only [List.mem_append]
    tauto
  constructor
  · rintro ⟨-, h_means, h_grows⟩
    have h_plain := (means_iff _).mp h_means
    have h_plain' : ∀ r ∈ meanings (before ++ after), r.Plain :=
      fun r h_r => h_plain r ((h_meanings r).mpr (.inr h_r))
    refine ⟨h_plain, fun h_unscoped => or_iff_not_imp_left.mpr fun h_scoped log => ?_⟩
    have h_log := h_grows log
      ((selected_scope_iff h_star h_deny h_key' h_plain').mpr (.inl h_unscoped))
    rw [selected_scope_iff h_star h_deny h_key h_plain, or_iff_right h_scoped] at h_log
    obtain ⟨r, h_r, h_log⟩ := h_log
    obtain h_own | h_r := (h_meanings r).mp h_r
    · exact ⟨r, h_own, h_log⟩
    -- the others have no rule, as none of them is the default
    obtain ⟨g, h_g, h_id⟩ | h_empty := h_unscoped
    · exact absurd (.inl ⟨g, h_sub h_g, h_id⟩) h_scoped
    · obtain ⟨g, h_g, h_rule⟩ := List.mem_filterMap.mp h_r
      rw [meaning_eq_none (h_empty g h_g)] at h_rule
      cases h_rule
  · rintro ⟨h_plain, h_scope⟩
    have h_plain' : ∀ r ∈ meanings (before ++ after), r.Plain :=
      fun r h_r => h_plain r ((h_meanings r).mpr (.inr h_r))
    refine ⟨(means_iff _).mpr h_plain', (means_iff _).mpr h_plain, fun log h_log => ?_⟩
    rw [selected_scope_iff h_star h_deny h_key' h_plain'] at h_log
    rw [selected_scope_iff h_star h_deny h_key h_plain]
    obtain h_unscoped | ⟨r, h_r, h_log⟩ := h_log
    · obtain h_unscoped' | h_all := h_scope h_unscoped
      · exact .inl h_unscoped'
      · obtain ⟨r, h_r, h_log⟩ := h_all log
        exact .inr ⟨r, (h_meanings r).mpr (.inl h_r), h_log⟩
    · exact .inr ⟨r, (h_meanings r).mpr (.inr h_r), h_log⟩

end Scope

/-! ### A rule that means what it says, and two that do not -/

section Examples

private def rule (field op value : String) : Rule :=
  .dict .missing (.value [⟨some field.toList, some op.toList, some value.toList⟩])

private def group (id : String) (rule : Rule) : LogGroup := ⟨id.toList, id.toList, rule⟩

private def reads (_ : Option (List Char)) : Atom → Text → Prop
  | .word w, log => w = "*".toList ∨ w = log
  | .quoted s, log => s = log
  | .call _ _, _ => False

private theorem not_denied_reads (log : Text) : ¬Denied reads log := by
  rintro ⟨h₁, h₂⟩
  exact absurd (h₁.trans h₂.symm) (by decide)

private theorem not_unscoped_rule {groups : List LogGroup} {id : String}
    (h : group id (rule "level" "==" "error") ∈ groups)
    (h_id : ∀ g ∈ groups, Py.strip g.id ≠ "default".toList) : ¬Unscoped groups := by
  rintro (⟨g, h_g, h_default⟩ | h_empty)
  · exact h_id g h_g h_default
  · have h_none : (rule "level" "==" "error").meaning = none := meaning_eq_none (h_empty _ h)
    exact absurd h_none (by decide)

theorem group_rules_plain :
    Means [group "g1" (rule "level" "==" "error")] ∧
      Means [group "g1" (rule "level" "==" "error"), group "g2" (rule "app" "contains" "db")] ∧
        Grows reads [group "g1" (rule "level" "==" "error")]
          [group "g1" (rule "level" "==" "error"), group "g2" (rule "app" "contains" "db")] := by
  refine (group_rules_iff reads (fun _ => .inl rfl) not_denied_reads
    [group "g1" (rule "level" "==" "error")] [] (group "g2" (rule "app" "contains" "db"))
    ?_).mpr ⟨by decide, fun h_unscoped => ?_⟩
  · decide
  · exact absurd h_unscoped (not_unscoped_rule (List.mem_singleton_self _) (by decide))

/-- **A quote in a value, and a group without a rule.** -/
theorem not_group_rules :
    (¬∀ groups, Means groups) ∧
      ¬∀ (Log : Type) (holds : Option (List Char) → Atom → Log → Prop),
        (∀ log, holds none (.word "*".toList) log) → (∀ log, ¬Denied holds log) →
        ∀ (before after : List LogGroup) (group : LogGroup),
          (∀ g ∈ before ++ group :: after, ∀ g' ∈ before ++ group :: after,
            g.id = g'.id → g = g') →
          Grows holds (before ++ after) (before ++ group :: after) := by
  constructor
  · intro h
    have h_plain := (means_iff _).mp (h [group "g1" (rule "level" "==" "a\"b")])
    exact absurd h_plain (by decide)
  · intro h
    have h_grows := h Text reads (fun _ => .inl rfl) not_denied_reads [group "g0" .falsy] []
      (group "g1" (rule "level" "==" "error")) (by decide)
    have h_empty : Unscoped [group "g0" .falsy] :=
      .inr (List.forall_mem_singleton.mpr ⟨[], rfl, rfl⟩)
    have h_all : Selected reads (scope [group "g0" .falsy]) "info".toList := by
      rw [scope_of_unscoped h_empty, selected_star_iff]
      exact .inl rfl
    have h_log := h_grows "info".toList h_all
    rw [selected_scope_iff (fun _ => .inl rfl) not_denied_reads (by decide)
      (by decide)] at h_log
    obtain h_unscoped | ⟨r, h_r, h_log⟩ := h_log
    · have h_mem := List.mem_append_right [group "g0" .falsy]
        (List.mem_singleton_self (group "g1" (rule "level" "==" "error")))
      exact absurd h_unscoped (not_unscoped_rule h_mem (by decide))
    · obtain rfl := List.mem_singleton.mp h_r
      exact absurd (show "error".toList = "info".toList from h_log) (by decide)

end Examples

end LogGroups
