import BkLite.Log.LogGroups
import Mathlib.Data.List.TakeWhile

/-!
# What a search is confined to

The texts a search sends are read here. Where the rules and the part of the query in front of its
first bar are texts of their own (`Closed`), the parentheses around that part and the conjunct of
the rules are tokens of the whole, and a search is confined to its groups exactly if no alternative
that the query puts in front of the conjunct leaves them (`Contained`). A part that is balanced
puts none there (`contained_of_balanced`).
-/

namespace LogGroups

open LogsQL

/-! ### The parts of a text -/

def filterPart (userQuery : Text) : Text :=
  let userQuery := Py.strip userQuery
  if '|' ∈ userQuery then Py.strip (userQuery.takeWhile (· ≠ '|')) else userQuery

def pipesPart (userQuery : Text) : Text :=
  let userQuery := Py.strip userQuery
  if '|' ∈ userQuery then " | ".toList ++ Py.strip (userQuery.dropWhile (· ≠ '|')).tail else []

def scopedFilter (userQuery : Text) (groupConditions : List Text) : Text :=
  if groupConditions = [] then denyAllQuery
  else if filterPart userQuery = [] then groupFilter groupConditions
  else "(".toList ++ filterPart userQuery ++ ") AND (".toList ++ groupFilter groupConditions ++
    ")".toList

theorem combineQueryAndGroups_eq (userQuery : Text) {groupConditions : List Text}
    (h : groupConditions ≠ []) :
    combineQueryAndGroups userQuery groupConditions
      = scopedFilter userQuery groupConditions ++ pipesPart userQuery := by
  unfold combineQueryAndGroups scopedFilter pipesPart filterPart
  dsimp only
  split_ifs <;> simp_all

theorem mem_of_mem_strip {c : Char} {cs : Text} (h : c ∈ Py.strip cs) : c ∈ cs := by
  have h_left := List.dropWhile_suffix (l := (cs.dropWhile Py.isSpace).reverse) Py.isSpace
  have h_c := h_left.subset (List.mem_reverse.1 h)
  exact (List.dropWhile_suffix Py.isSpace).subset (List.mem_reverse.1 h_c)

theorem pipe_notMem_filterPart (userQuery : Text) : '|' ∉ filterPart userQuery := by
  unfold filterPart
  dsimp only
  split_ifs with h
  · intro h_pipe
    have h_pipe := List.mem_takeWhile_imp (mem_of_mem_strip h_pipe)
    exact absurd h_pipe (by simp)
  · exact h

theorem tail_append {userQuery suffix : Text} (h : Tail suffix) :
    Tail (pipesPart userQuery ++ suffix) := by
  unfold pipesPart
  dsimp only
  split_ifs
  · exact .inr ⟨_, List.append_assoc _ _ _⟩
  · exact h

theorem tail_of_mem_suffixes {search : Search} {suffix : Text} (h : suffix ∈ search.suffixes) :
    Tail suffix := by
  cases search with
  | topStats attr topNum =>
    obtain rfl | rfl : suffix = _ ∨ suffix = _ := by simpa [Search.suffixes] using h
    · exact .inr ⟨"stats count() as total_count".toList, rfl⟩
    · exact .inr ⟨_, (List.take_append_drop 3 _).symm⟩
  | _ =>
    obtain rfl := List.mem_singleton.1 h
    exact .inl rfl

/-! ### The groups -/

theorem buildGroupConditions_cons (group : LogGroup) (groups : List LogGroup) :
    buildGroupConditions (group :: groups)
      = match jsonToLogsqlExpression group.rule with
        | .ok c =>
          if Py.strip c ≠ [] then
            (c :: (buildGroupConditions groups).1, (buildGroupConditions groups).2)
          else
            ((buildGroupConditions groups).1,
              (group.id, .emptyRule) :: (buildGroupConditions groups).2)
        | .error _ =>
          ((buildGroupConditions groups).1,
            (group.id, .invalidRule) :: (buildGroupConditions groups).2) := by
  rw [buildGroupConditions]
  cases group.rule <;> rfl

theorem mem_buildGroupConditions_iff {groups : List LogGroup} {c : Text} :
    c ∈ (buildGroupConditions groups).1 ↔
      ∃ group ∈ groups, jsonToLogsqlExpression group.rule = .ok c ∧ Py.strip c ≠ [] := by
  induction groups with
  | nil => simp [buildGroupConditions]
  | cons group groups ih =>
    rw [List.exists_mem_cons_iff, buildGroupConditions_cons]
    cases h_rule : jsonToLogsqlExpression group.rule with
    | error e => simpa [h_rule] using ih
    | ok d =>
      dsimp only
      split_ifs with h_d
      · rw [List.mem_cons, ih]
        refine or_congr_left ⟨?_, ?_⟩
        · rintro rfl
          exact ⟨rfl, h_d⟩
        · rintro ⟨h_eq, -⟩
          exact (Except.ok.inj h_eq).symm
      · rw [ih]
        refine (or_iff_right ?_).symm
        rintro ⟨h_eq, h_c⟩
        exact h_d (Except.ok.inj h_eq ▸ h_c)

def EmptyRule (group : LogGroup) : Prop :=
  ∃ c, jsonToLogsqlExpression group.rule = .ok c ∧ Py.strip c = []

theorem emptyRule_of_mem {groups : List LogGroup} {id : Text}
    (h : (id, .emptyRule) ∈ (buildGroupConditions groups).2) :
    ∃ group ∈ groups, group.id = id ∧ EmptyRule group := by
  induction groups with
  | nil => exact absurd h nofun
  | cons group groups ih =>
    have h_rest (h : (id, Status.emptyRule) ∈ (buildGroupConditions groups).2) :
        ∃ g ∈ group :: groups, g.id = id ∧ EmptyRule g := by
      obtain ⟨g, h_g, h_own⟩ := ih h
      exact ⟨g, List.mem_cons_of_mem _ h_g, h_own⟩
    rw [buildGroupConditions_cons] at h
    cases h_rule : jsonToLogsqlExpression group.rule with
    | error e =>
      rw [h_rule] at h
      obtain h | h := List.mem_cons.1 h
      · exact absurd h (by simp)
      · exact h_rest h
    | ok c =>
      rw [h_rule] at h
      dsimp only at h
      split_ifs at h with h_c
      · exact h_rest h
      · obtain h | h := List.mem_cons.1 h
        · exact ⟨group, List.mem_cons_self, (Prod.mk.inj h).1.symm, c, h_rule, not_not.1 h_c⟩
        · exact h_rest h

theorem exists_status_ne {groups : List LogGroup}
    (h_key : ∀ g ∈ groups, ∀ g' ∈ groups, g.id = g'.id → g = g') {group : LogGroup}
    (h_group : group ∈ groups) (h_rule : ¬EmptyRule group) :
    ¬∀ item ∈ groupInfo groups, item.status = .emptyRule := by
  intro h_all
  have h_status := h_all _ (List.mem_map_of_mem h_group)
  cases h_lookup : (buildGroupConditions groups).2.reverse.lookup group.id with
  | none =>
    rw [h_lookup] at h_status
    exact absurd h_status nofun
  | some status =>
    rw [h_lookup] at h_status
    obtain rfl : status = .emptyRule := h_status
    obtain ⟨l, l', h_l, -⟩ := List.lookup_eq_some_iff.1 h_lookup
    have h_mem : (group.id, Status.emptyRule) ∈ (buildGroupConditions groups).2 := by
      rw [← List.mem_reverse, h_l]
      simp
    obtain ⟨group', h_group', h_id, h_empty⟩ := emptyRule_of_mem h_mem
    rw [h_key group' h_group' group h_group h_id] at h_empty
    exact h_rule h_empty

theorem buildQueryWithGroups_eq {store : List Text → List LogGroup} {userQuery : Text}
    {ids : List Text} {resolved : Option (List LogGroup)} {groups : List LogGroup}
    (h_ids : ids ≠ []) (h_default : ∀ id ∈ ids, Py.strip id ≠ "default".toList)
    (h_groups : resolved.getD (store ((ids.map Py.strip).filter (· ≠ []))) = groups)
    (h_key : ∀ g ∈ groups, ∀ g' ∈ groups, g.id = g'.id → g = g')
    (h_rule : ∃ g ∈ groups, ¬EmptyRule g) :
    (buildQueryWithGroups store userQuery ids resolved).1
      = scopedFilter userQuery (buildGroupConditions groups).1 ++
        if (buildGroupConditions groups).1 = [] then [] else pipesPart userQuery := by
  obtain ⟨group, h_group, h_nonempty⟩ := h_rule
  have h_ne : groups ≠ [] := List.ne_nil_of_mem h_group
  have h_norm : "default".toList ∉ (ids.map Py.strip).filter (· ≠ []) := by
    intro h
    obtain ⟨id, h_id, h_eq⟩ := List.mem_map.1 (List.mem_filter.1 h).1
    exact h_default id h_id h_eq
  unfold buildQueryWithGroups
  dsimp only
  rw [if_neg h_ids, h_groups, if_neg h_ne, if_neg h_norm]
  by_cases h_conditions : (buildGroupConditions groups).1 = []
  · have h_status := exists_status_ne h_key h_group h_nonempty
    rw [if_pos h_conditions, if_neg h_status, if_pos h_conditions, scopedFilter,
      if_pos h_conditions, List.append_nil]
  · rw [if_neg h_conditions, if_neg h_conditions]
    exact combineQueryAndGroups_eq userQuery h_conditions

/-! ### What the rules select -/

section Rules

variable {Log : Type} (holds : Option (List Char) → Atom → Log → Prop)

def Selected (expression : Text) (log : Log) : Prop :=
  ∃ ts f, lex expression = some ts ∧ Parses .or ts f ∧ f.Selects holds none log

/-- A log satisfies the rule of one of the groups, read on its own. A group without a rule gives
access to nothing. -/
def Allowed (groups : List LogGroup) (log : Log) : Prop :=
  ∃ group ∈ groups, ∃ c, jsonToLogsqlExpression group.rule = .ok c ∧ Selected holds c log

theorem allowed_of_condition {groups : List LogGroup} {c : Text} {log : Log}
    (h_c : c ∈ (buildGroupConditions groups).1) (h : Selected holds c log) :
    Allowed holds groups log := by
  obtain ⟨group, h_group, h_rule, -⟩ := mem_buildGroupConditions_iff.1 h_c
  exact ⟨group, h_group, c, h_rule, h⟩

def tokens (expression : Text) : List Token :=
  (lex expression).getD []

def ClosedExpression (expression : Text) : Prop :=
  ∃ ts, lex expression = some ts ∧ Balanced ts

theorem ClosedExpression.lex_eq {c : Text} (h : ClosedExpression c) :
    lex c = some (tokens c) := by
  obtain ⟨ts, h_ts, -⟩ := h
  rw [tokens, h_ts]
  rfl

theorem ClosedExpression.balanced {c : Text} (h : ClosedExpression c) : Balanced (tokens c) := by
  obtain ⟨ts, h_ts, h_bal⟩ := h
  rw [tokens, h_ts]
  exact h_bal

theorem lex_join {conditions : List Text} (h : ∀ c ∈ conditions, ClosedExpression c) :
    lex (join " OR ".toList conditions) = some (joinOr (conditions.map tokens)) := by
  induction conditions using join.induct with
  | case1 => rfl
  | case2 c => exact (h c (List.mem_singleton_self c)).lex_eq
  | case3 c conditions h_ne ih =>
    have h_rest := ih fun d h_d => h d (List.mem_cons_of_mem _ h_d)
    have h_c := (h c List.mem_cons_self).lex_eq
    rw [join]
    · calc lex (c ++ " OR ".toList ++ join " OR ".toList conditions)
        _ = lex (c ++ ' ' :: ("OR ".toList ++ join " OR ".toList conditions)) := by simp
        _ = (lex (" OR ".toList ++ join " OR ".toList conditions)).map (tokens c ++ [] ++ ·) := by
          rw [lex_append h_c (separator_of_isSpace rfl)]
          exact congrArg _ (lex_cons_isSpace rfl _).symm
        _ = some (tokens c ++ .or :: joinOr (conditions.map tokens)) := by
          rw [lex_or, h_rest]
          simp
        _ = some (joinOr ((c :: conditions).map tokens)) := by
          rw [List.map_cons, joinOr]
          simpa using h_ne
    · exact h_ne

def groupTokens : List Text → List Token
  | [c] => tokens c
  | conditions => block (joinOr (conditions.map tokens))

theorem lex_groupFilter {conditions : List Text} (h : ∀ c ∈ conditions, ClosedExpression c) :
    lex (groupFilter conditions) = some (groupTokens conditions) := by
  unfold groupFilter groupTokens
  split
  · exact (h _ (List.mem_singleton_self _)).lex_eq
  · have h_block := lex_block (lex_join h) []
    rw [List.append_nil] at h_block
    rw [h_block]
    simp [lex, lexFrom, Mode.last, flush]

theorem balanced_of_mem_tokens {conditions : List Text}
    (h : ∀ c ∈ conditions, ClosedExpression c) : ∀ ts ∈ conditions.map tokens, Balanced ts := by
  rintro ts h_ts
  obtain ⟨c, h_c, rfl⟩ := List.mem_map.1 h_ts
  exact (h c h_c).balanced

theorem balanced_groupTokens {conditions : List Text} (h : ∀ c ∈ conditions, ClosedExpression c) :
    Balanced (groupTokens conditions) := by
  unfold groupTokens
  split
  · exact (h _ (List.mem_singleton_self _)).balanced
  · exact (balanced_joinOr (balanced_of_mem_tokens h)).block

theorem selected_of_groupTokens {conditions : List Text}
    (h : ∀ c ∈ conditions, ClosedExpression c) {f : Filter} {log : Log}
    (h_f : Parses .or (groupTokens conditions) f) (h_log : f.Selects holds none log) :
    ∃ c ∈ conditions, Selected holds c log := by
  unfold groupTokens at h_f
  split at h_f
  case h_1 c =>
    have h_c := List.mem_singleton_self c
    exact ⟨c, h_c, _, f, (h c h_c).lex_eq, h_f, h_log⟩
  case h_2 =>
    have h_map := balanced_of_mem_tokens h
    have h_join := h_f.of_parens (balanced_joinOr h_map)
    obtain ⟨ts, h_ts, g, h_g, h_sel⟩ := h_join.selects_joinOr holds none h_map h_log
    obtain ⟨c, h_c, rfl⟩ := List.mem_map.1 h_ts
    exact ⟨c, h_c, _, g, (h c h_c).lex_eq, h_g, h_sel⟩

end Rules

/-! ### What is sent -/

theorem lex_request (env : Env) (search : Search) {text : Text} (h_nil : lex text ≠ some [])
    (h_quoted : ∀ s, lex text ≠ some [.quoted s]) :
    lex (search.request env text) = lex text := by
  have h_strip : Py.strip text ≠ [] := by
    intro h
    rw [← lex_strip, h] at h_nil
    exact h_nil rfl
  have h_loads : env.loads (Py.strip text) = none := by
    cases h : env.loads (Py.strip text) with
    | none => rfl
    | some decoded =>
      obtain ⟨s, h_s⟩ := env.loads_quoted _ _ h
      exact absurd ((lex_strip text).symm.trans h_s) (h_quoted s)
  have h_norm : normalizeLogsqlQuery env text = Py.strip text := by
    rw [normalizeLogsqlQuery, if_neg h_strip, decode, h_loads]
  rw [← lex_strip text]
  cases search <;> simp only [Search.request, h_norm, if_neg h_strip]

theorem reads_congr {text text' : Text} (h : lex text = lex text') (f : Filter)
    (pipes : List Token) : Reads text f pipes ↔ Reads text' f pipes := by
  rw [Reads, Reads, h]

def tails (search : Search) (query : Text) (conditions : List Text) : List Text :=
  search.suffixes.map fun suffix =>
    (if conditions = [] then [] else pipesPart (search.userQuery query)) ++ suffix

theorem tail_of_mem_tails {search : Search} {query tail : Text} {conditions : List Text}
    (h : tail ∈ tails search query conditions) : Tail tail := by
  obtain ⟨suffix, h_suffix, rfl⟩ := List.mem_map.1 h
  have h_tail := tail_of_mem_suffixes h_suffix
  split_ifs
  · exact h_tail
  · exact tail_append h_tail

def Answered (tails : List Text) : Prop :=
  ∃ tail ∈ tails, ∃ pipes, lex tail = some pipes ∧ Balanced pipes

section Sent

variable {Log : Type} {holds : Option (List Char) → Atom → Log → Prop} {rule : Log → Prop}

theorem confined_requests_iff (env : Env) (search : Search) {text : Text} {ts : List Token}
    {tails : List Text} (h_reads : ∀ tail ∈ tails, ∀ f pipes,
      Reads (text ++ tail) f pipes ↔ Parses .or ts f ∧ lex tail = some pipes ∧ Balanced pipes)
    (h_lex : ∀ tail ∈ tails, lex (text ++ tail) ≠ some [] ∧
      ∀ s, lex (text ++ tail) ≠ some [.quoted s]) :
    (∀ tail ∈ tails, Confined holds rule (search.request env (text ++ tail))) ↔
      (Answered tails → ∀ f, Parses .or ts f → ∀ log, f.Selects holds none log → rule log) := by
  have h_iff (tail : Text) (h_tail : tail ∈ tails) (f : Filter) (pipes : List Token) :
      Reads (search.request env (text ++ tail)) f pipes ↔
        Parses .or ts f ∧ lex tail = some pipes ∧ Balanced pipes := by
    have h_request := lex_request env search (h_lex tail h_tail).1 (h_lex tail h_tail).2
    rw [reads_congr h_request, h_reads tail h_tail]
  constructor
  · rintro h ⟨tail, h_tail, pipes, h_pipes⟩ f h_f
    exact confined_iff.1 (h tail h_tail) f pipes ((h_iff tail h_tail f pipes).2 ⟨h_f, h_pipes⟩)
  · intro h tail h_tail
    refine confined_of_selects fun f pipes h_f => ?_
    obtain ⟨h_f, h_pipes⟩ := (h_iff tail h_tail f pipes).1 h_f
    exact h ⟨tail, h_tail, pipes, h_pipes⟩ f h_f

end Sent

/-- Each part is a text of its own: balanced, with no quote left open. -/
structure Closed (userQuery : Text) (conditions : List Text) : Prop where
  groups : ∀ c ∈ conditions, ClosedExpression c
  user : conditions ≠ [] → ∃ ts, lex (filterPart userQuery) = some ts
  bare : filterPart userQuery = [] → ∀ c ∈ conditions, conditions = [c] →
    .pipe ∉ tokens c ∧ ∀ s, tokens c ≠ [.quoted s]

/-- A quote is left open in front of the first bar, and the text cannot be read. -/
def Overrun (userQuery : Text) (conditions tails : List Text) : Prop :=
  conditions ≠ [] ∧ filterPart userQuery ≠ [] ∧ ∀ tail ∈ tails,
    lexFrom (modeAfter (.plain []) (filterPart userQuery))
      (") AND (".toList ++ groupFilter conditions ++ ")".toList ++ tail) = none

section Main

variable {Log : Type} (holds : Option (List Char) → Atom → Log → Prop) (groups : List LogGroup)

def denyTokens (text : Text) : List Token :=
  [.word "__bk_lite_log_scope__".toList, .colon, .quoted text]

def Denied (log : Log) : Prop :=
  holds (some "__bk_lite_log_scope__".toList) (.quoted "deny-1".toList) log ∧
    holds (some "__bk_lite_log_scope__".toList) (.quoted "deny-2".toList) log

/-- **What a search is confined by.** No alternative in front of the conjunct of the rules selects
more. -/
def Contained (search : Search) (query : Text) : Prop :=
  let conditions := (buildGroupConditions groups).1
  Answered (tails search query conditions) →
    (conditions = [] → ∀ log, Denied holds log → Allowed holds groups log) ∧
    (conditions ≠ [] →
      ∀ g, Ahead (block (tokens (filterPart (search.userQuery query)))) (groupTokens conditions) g →
        ∀ log, g.Selects holds none log → Allowed holds groups log)

theorem contained_of_balanced {search : Search} {query : Text}
    (h_rules : (buildGroupConditions groups).1 ≠ [])
    (h : Balanced (tokens (filterPart (search.userQuery query)))) :
    Contained holds groups search query :=
  fun _ => ⟨fun h_nil => absurd h_nil h_rules,
    fun _ _ h_ahead => absurd h_ahead (not_ahead_of_balanced h)⟩

variable {holds groups}

theorem denyAllQuery_eq :
    denyAllQuery
      = "(".toList ++ "__bk_lite_log_scope__:\"deny-1\"".toList ++ ") AND (".toList ++
          "__bk_lite_log_scope__:\"deny-2\"".toList ++ ")".toList := by
  decide +kernel

theorem confined_deny_iff (env : Env) (search : Search) {tails : List Text}
    (h_tails : ∀ tail ∈ tails, Tail tail) :
    (∀ tail ∈ tails,
        Confined holds (Allowed holds groups) (search.request env (denyAllQuery ++ tail))) ↔
      (Answered tails → ∀ log, Denied holds log → Allowed holds groups log) := by
  have h₁ : lex "__bk_lite_log_scope__:\"deny-1\"".toList = some (denyTokens "deny-1".toList) := by
    decide
  have h₂ : lex "__bk_lite_log_scope__:\"deny-2\"".toList = some (denyTokens "deny-2".toList) := by
    decide
  have h_bal (text : Text) : Balanced (denyTokens text) := rfl
  have h_sel : (∀ f, Parses .or (block (denyTokens "deny-1".toList) ++
        guard (denyTokens "deny-2".toList)) f →
          ∀ log, f.Selects holds none log → Allowed holds groups log) ↔
      ∀ log, Denied holds log → Allowed holds groups log := by
    constructor
    · rintro h log ⟨h_log₁, h_log₂⟩
      refine h (.and (.field _ (.atom (.quoted _))) (.field _ (.atom (.quoted _)))) ?_ log
        ⟨h_log₁, h_log₂⟩
      exact (parses_block_guard_iff (h_bal _) (h_bal _)).2
        ⟨_, _, rfl, parses_field_quoted_iff.2 rfl, parses_field_quoted_iff.2 rfl⟩
    · rintro h f h_f log h_log
      obtain ⟨g, g', rfl, h_g, h_g'⟩ := (parses_block_guard_iff (h_bal _) (h_bal _)).1 h_f
      obtain rfl := parses_field_quoted_iff.1 h_g
      obtain rfl := parses_field_quoted_iff.1 h_g'
      exact h log h_log
  rw [← h_sel]
  refine confined_requests_iff env search (fun tail h_tail f pipes => ?_) fun tail h_tail => ?_
  · rw [denyAllQuery_eq]
    exact reads_guard_iff h₁ (by decide) h₂ rfl (h_tails tail h_tail)
  · rw [denyAllQuery_eq]
    exact lex_append_tail_ne (lex_guard h₁ h₂ tail) (by simp [block]) (by simp [block])

theorem tokens_ne_nil {c : Text} (h_c : c ∈ (buildGroupConditions groups).1)
    (h : ClosedExpression c) : tokens c ≠ [] := by
  intro h_nil
  obtain ⟨_, _, _, h_strip⟩ := mem_buildGroupConditions_iff.1 h_c
  have h_space := (isSpace_of_lexFrom_eq_nil (h_nil ▸ h.lex_eq)).2
  have h_drop : c.dropWhile Py.isSpace = [] := List.dropWhile_eq_nil_iff.2 h_space
  exact h_strip (by rw [Py.strip, h_drop]; rfl)

theorem reads_groupFilter_iff {conditions : List Text} {tail : Text} (h_tail : Tail tail)
    (h_closed : ∀ c ∈ conditions, ClosedExpression c)
    (h_bare : ∀ c ∈ conditions, conditions = [c] → .pipe ∉ tokens c) {f : Filter}
    {pipes : List Token} :
    Reads (groupFilter conditions ++ tail) f pipes ↔
      Parses .or (groupTokens conditions) f ∧ lex tail = some pipes ∧ Balanced pipes := by
  have h_text := h_tail.lex_append (lex_groupFilter h_closed)
  unfold groupTokens at h_text ⊢
  split at h_text
  case h_1 c => exact reads_append_iff h_text (h_bare c (List.mem_singleton_self c) rfl) h_tail
  case h_2 =>
    exact reads_block_iff (List.nil_append (block _) ▸ h_text) List.not_mem_nil
      (balanced_joinOr (balanced_of_mem_tokens h_closed)) h_tail

theorem confined_groupFilter (env : Env) (search : Search) {tails : List Text}
    (h_tails : ∀ tail ∈ tails, Tail tail) {conditions : List Text}
    (h_conditions : (buildGroupConditions groups).1 = conditions)
    (h_closed : ∀ c ∈ conditions, ClosedExpression c) (h_bare : ∀ c ∈ conditions,
      conditions = [c] → .pipe ∉ tokens c ∧ ∀ s, tokens c ≠ [.quoted s]) :
    ∀ tail ∈ tails, Confined holds (Allowed holds groups)
      (search.request env (groupFilter conditions ++ tail)) := by
  have h_ne : groupTokens conditions ≠ [] ∧ ∀ s, groupTokens conditions ≠ [.quoted s] := by
    unfold groupTokens
    split
    case h_1 c =>
      have h_c := List.mem_singleton_self c
      exact ⟨tokens_ne_nil (h_conditions ▸ h_c) (h_closed c h_c), (h_bare c h_c rfl).2⟩
    case h_2 => exact ⟨by simp [block], by simp [block]⟩
  have h_reads (tail : Text) (h_tail : tail ∈ tails) (f : Filter) (pipes : List Token) :
      Reads (groupFilter conditions ++ tail) f pipes ↔
        Parses .or (groupTokens conditions) f ∧ lex tail = some pipes ∧ Balanced pipes :=
    reads_groupFilter_iff (h_tails tail h_tail) h_closed fun c h_c h_eq => (h_bare c h_c h_eq).1
  refine (confined_requests_iff env search h_reads fun tail h_tail => ?_).2
    fun _ f h_f log h_log => ?_
  · have h_text := (h_tails tail h_tail).lex_append (lex_groupFilter h_closed)
    exact lex_append_tail_ne h_text h_ne.1 h_ne.2
  · obtain ⟨c, h_c, h_sel⟩ := selected_of_groupTokens holds h_closed h_f h_log
    exact allowed_of_condition holds (h_conditions ▸ h_c) h_sel

theorem confined_guarded_iff (env : Env) (search : Search) {tails : List Text}
    (h_tails : ∀ tail ∈ tails, Tail tail) {conditions : List Text} {text : Text} {ts : List Token}
    (h_conditions : (buildGroupConditions groups).1 = conditions)
    (h_closed : ∀ c ∈ conditions, ClosedExpression c) (h_text : lex text = some ts)
    (h_bar : '|' ∉ text) :
    (∀ tail ∈ tails, Confined holds (Allowed holds groups) (search.request env
        ("(".toList ++ text ++ ") AND (".toList ++ groupFilter conditions ++ ")".toList ++
          tail))) ↔
      (Answered tails → ∀ g, Ahead (block ts) (groupTokens conditions) g →
        ∀ log, g.Selects holds none log → Allowed holds groups log) := by
  have h_lex := lex_groupFilter h_closed
  have h_balanced := balanced_groupTokens h_closed
  have h_rule (g : Filter) (h_g : Parses .or (groupTokens conditions) g) (log : Log)
      (h_log : g.Selects holds none log) : Allowed holds groups log := by
    obtain ⟨c, h_c, h_sel⟩ := selected_of_groupTokens holds h_closed h_g h_log
    exact allowed_of_condition holds (h_conditions ▸ h_c) h_sel
  rw [← guard_confines_iff holds none h_balanced h_rule]
  refine confined_requests_iff env search (fun tail h_tail f pipes => ?_) fun tail _ => ?_
  · exact reads_guard_iff h_text h_bar h_lex h_balanced (h_tails tail h_tail)
  · exact lex_append_tail_ne (lex_guard h_text h_lex tail) (by simp [block]) (by simp [block])

theorem confined_of_lex_eq_none (env : Env) (search : Search) {text : Text}
    (h : lex text = none) : Confined holds (Allowed holds groups) (search.request env text) := by
  have h_nil : lex text ≠ some [] := by simp [h]
  have h_quoted (s : List Char) : lex text ≠ some [.quoted s] := by simp [h]
  refine confined_of_selects fun f pipes h_reads => ?_
  obtain ⟨fs, h_fs, -⟩ := h_reads
  rw [lex_request env search h_nil h_quoted, h] at h_fs
  exact absurd h_fs nofun

theorem lex_overrun {userQuery : Text} {conditions tails : List Text}
    (h : Overrun userQuery conditions tails) {tail : Text} (h_tail : tail ∈ tails) :
    lex (scopedFilter userQuery conditions ++ tail) = none := by
  obtain ⟨h_conditions, h_part, h_none⟩ := h
  rw [scopedFilter, if_neg h_conditions, if_neg h_part]
  calc lex _
    _ = lex ('(' :: (filterPart userQuery ++
          (") AND (".toList ++ groupFilter conditions ++ ")".toList ++ tail))) := by simp
    _ = none := by
      rw [lex_lparen, Option.map_eq_none_iff]
      exact lexFrom_append_eq_none (h_none tail h_tail)

theorem sent_eq (env : Env) {store : List Text → List LogGroup} (search : Search) (query : Text)
    {ids : List Text} {resolved : Option (List LogGroup)} (h_ids : ids ≠ [])
    (h_default : ∀ id ∈ ids, Py.strip id ≠ "default".toList)
    (h_groups : resolved.getD (store ((ids.map Py.strip).filter (· ≠ []))) = groups)
    (h_key : ∀ g ∈ groups, ∀ g' ∈ groups, g.id = g'.id → g = g')
    (h_rule : ∃ g ∈ groups, ¬EmptyRule g) :
    sent env store search query ids resolved
      = (tails search query (buildGroupConditions groups).1).map fun tail =>
          search.request env
            (scopedFilter (search.userQuery query) (buildGroupConditions groups).1 ++ tail) := by
  rw [sent, tails, List.map_map]
  refine List.map_congr_left fun suffix _ => ?_
  dsimp only [Function.comp_apply]
  rw [buildQueryWithGroups_eq h_ids h_default h_groups h_key h_rule, List.append_assoc]

variable (holds groups)

/-- **When a search is confined to its log groups.** -/
theorem search_confined_iff (env : Env) (store : List Text → List LogGroup) (search : Search)
    (query : Text) (ids : List Text) (resolved : Option (List LogGroup)) (h_ids : ids ≠ [])
    (h_default : ∀ id ∈ ids, Py.strip id ≠ "default".toList)
    (h_groups : resolved.getD (store ((ids.map Py.strip).filter (· ≠ []))) = groups)
    (h_key : ∀ g ∈ groups, ∀ g' ∈ groups, g.id = g'.id → g = g')
    (h_rule : ∃ g ∈ groups, ¬EmptyRule g) :
    (Closed (search.userQuery query) (buildGroupConditions groups).1 →
      ((∀ text ∈ sent env store search query ids resolved,
          Confined holds (Allowed holds groups) text) ↔ Contained holds groups search query)) ∧
    (Overrun (search.userQuery query) (buildGroupConditions groups).1
        (tails search query (buildGroupConditions groups).1) →
      ∀ text ∈ sent env store search query ids resolved,
        Confined holds (Allowed holds groups) text) := by
  have h_tails (tail : Text)
      (h : tail ∈ tails search query (buildGroupConditions groups).1) : Tail tail :=
    tail_of_mem_tails h
  rw [sent_eq env search query h_ids h_default h_groups h_key h_rule, List.forall_mem_map]
  refine ⟨fun h_closed => ?_, fun h_overrun tail h_tail =>
    confined_of_lex_eq_none env search (lex_overrun h_overrun h_tail)⟩
  by_cases h_conditions : (buildGroupConditions groups).1 = []
  · -- No rule can be used: the query is not sent at all.
    rw [scopedFilter, if_pos h_conditions, confined_deny_iff env search h_tails]
    simp [Contained, h_conditions]
  · obtain ⟨ts, h_ts⟩ := h_closed.user h_conditions
    have h_tokens : tokens (filterPart (search.userQuery query)) = ts := by rw [tokens, h_ts]; rfl
    rw [scopedFilter, if_neg h_conditions]
    split_ifs with h_part
    · -- The filter of the groups is sent alone.
      refine iff_of_true
        (confined_groupFilter env search h_tails rfl h_closed.groups (h_closed.bare h_part)) ?_
      have h_nil : tokens (filterPart (search.userQuery query)) = [] := by
        rw [h_part]
        rfl
      exact contained_of_balanced holds groups h_conditions (h_nil ▸ rfl)
    · rw [confined_guarded_iff env search h_tails rfl h_closed.groups h_ts
        (pipe_notMem_filterPart _)]
      simp [Contained, h_conditions, h_tokens]

end Main

/-! ### A search that stays in its groups, and two that do not -/

section Examples

private def env : Env where
  loads _ := none
  loads_quoted _ _ h := absurd h nofun

private def errors : LogGroup where
  id := "g1".toList
  name := "errors".toList
  rule := .dict .missing
    (.value [{ field := some "level".toList, op := some "==".toList
               value := some "error".toList }])

private theorem conditions_errors :
    (buildGroupConditions [errors]).1 = ["level:\"error\"".toList] := by decide

private theorem not_emptyRule_errors : ¬EmptyRule errors := by
  rintro ⟨c, h_c, h_strip⟩
  obtain rfl : "level:\"error\"".toList = c := Except.ok.inj h_c
  exact absurd h_strip (by decide)

private theorem tokens_errors :
    lex "level:\"error\"".toList = some [.word "level".toList, .colon, .quoted "error".toList] := by
  decide

private def holds (_ : Option (List Char)) : Atom → Text → Prop
  | .word w, log => w = log
  | .quoted s, log => s = log
  | .call _ _, _ => False

theorem search_confined_host :
    sent env (fun _ => []) .searchLogs "host:web".toList ["g1".toList] (some [errors])
        = ["(host:web) AND (level:\"error\")".toList] ∧
      ∀ text ∈ sent env (fun _ => []) .searchLogs "host:web".toList ["g1".toList] (some [errors]),
        Confined holds (Allowed holds [errors]) text := by
  refine ⟨by decide +kernel, ?_⟩
  have h_iff := search_confined_iff holds [errors] env (fun _ => []) .searchLogs
    "host:web".toList ["g1".toList] (some [errors]) (by decide) (by decide) rfl (by simp)
    ⟨errors, List.mem_singleton_self _, not_emptyRule_errors⟩
  have h_closed : ClosedExpression "level:\"error\"".toList := ⟨_, tokens_errors, by decide⟩
  refine (h_iff.1 ⟨?_, fun _ => ⟨_, rfl⟩, fun h_part => ?_⟩).2 ?_
  · rw [conditions_errors]
    exact List.forall_mem_singleton.2 h_closed
  · exact absurd h_part (by decide)
  · refine contained_of_balanced holds [errors] ?_ (by decide)
    rw [conditions_errors]
    exact List.cons_ne_nil _ _

/-- `a) OR (b` closes the parenthesis: the logs with `a` are returned whatever the rule says. -/
theorem not_confined_closing :
    ¬∀ (Log : Type) (holds : Option (List Char) → Atom → Log → Prop) (env : Env)
      (store : List Text → List LogGroup) (search : Search) (query : Text) (ids : List Text)
      (resolved groups : List LogGroup), ids ≠ [] →
      (∀ id ∈ ids, Py.strip id ≠ "default".toList) → resolved = groups →
      (∀ g ∈ groups, ∀ g' ∈ groups, g.id = g'.id → g = g') → (∃ g ∈ groups, ¬EmptyRule g) →
      ∀ text ∈ sent env store search query ids (some resolved),
        Confined holds (Allowed holds groups) text := by
  intro h
  have h_confined := h Text holds env (fun _ => []) .searchLogs "a) OR (b".toList ["g1".toList]
    [errors] [errors] (by decide) (by decide) rfl (by simp)
    ⟨errors, List.mem_singleton_self _, not_emptyRule_errors⟩
    "(a) OR (b) AND (level:\"error\")".toList (by decide +kernel)
  have h_reads : Reads "(a) OR (b) AND (level:\"error\")".toList
      (.or (.atom (.word "a".toList)) (.and (.atom (.word "b".toList))
        (.field "level".toList (.atom (.quoted "error".toList))))) [] := by
    refine ⟨block [.word "a".toList] ++ .or :: (block [.word "b".toList] ++
      guard [.word "level".toList, .colon, .quoted "error".toList]), by decide +kernel, ?_, rfl,
      nofun⟩
    have h_word : Balanced [.word "b".toList] := rfl
    have h_level : Balanced [.word "level".toList, .colon, .quoted "error".toList] := rfl
    refine .or (.ofUnary (.parens (.ofAnd (.ofUnary (.word _))))) ?_
    exact (parses_block_guard_iff h_word h_level).2
      ⟨_, _, rfl, .ofAnd (.ofUnary (.word _)), parses_field_quoted_iff.2 rfl⟩
  obtain ⟨group, h_group, c, h_c, ts, f, h_ts, h_f, h_sel⟩ :=
    confined_iff.1 h_confined _ _ h_reads "a".toList (.inl rfl)
  obtain rfl := List.mem_singleton.1 h_group
  obtain rfl : "level:\"error\"".toList = c := Except.ok.inj h_c
  obtain rfl := Option.some.inj (tokens_errors.symm.trans h_ts)
  obtain rfl := parses_field_quoted_iff.1 h_f
  exact absurd (show "error".toList = "a".toList from h_sel) (by decide)

/-- `a OR ' | ')` hides the bar, and the rule with it, in a quoted text. -/
example :
    sent env (fun _ => []) .tail "a OR \x27 | \x27)".toList ["g1".toList] (some [errors])
        = ["(a OR \x27) AND (level:\"error\") | \x27)".toList] ∧
      lex "(a OR \x27) AND (level:\"error\") | \x27)".toList
        = some (block [.word "a".toList, .or,
            .quoted ") AND (level:\"error\") | ".toList]) := by
  decide +kernel

end Examples

end LogGroups
