import BkLite.Cmdb.Subscription
import BkLite.Framework.JsonText
import Mathlib.Data.List.Chain

/-!
# Reminders of a subscription

The triggers `expiration` and `config_file` of a subscription rule keep what they have notified in
the snapshot (`services/subscription_trigger.py`). Each check replaces that by what the check itself
has met, so nothing is known of the checks before the previous one.

A day is a number, and a check that raises changes nothing and is left out.
-/

namespace Cmdb.Reminders

open Py
open Cmdb.Subscription (TriggerEvent nameOf)

/-- `datetime.fromisoformat(..).date()`, `none` where it raises, and `date.isoformat`. -/
structure Env where
  fromisoformat : String → Option ℤ
  isoformat : ℤ → String
  isoformat_injective : Function.Injective isoformat

/-- `expiration` and `configFile`: the trigger is among the `trigger_types`. -/
structure Rule where
  id : ℕ
  name : String
  modelId : String
  modelName : String
  expiration : Bool
  configFile : Bool
  timeField : String
  daysBefore : Value
  createdAt : ℤ

/-- A row of `ConfigFileVersion`. -/
structure Version where
  instanceId : String
  modelId : String
  success : Bool
  createdAt : ℤ

/-- What a check reads: the instances that are matched, the versions, and the clock. -/
structure Check where
  instances : List Instance
  versions : List Version
  today : ℤ
  checkpoint : ℤ

/-- The keys of the two maps in `snapshot_data`, and `last_check_time`. -/
structure RuleState where
  expirationNotified : List String := []
  configFileNotified : List String := []
  lastCheckTime : Option ℤ := none

inductive Reminder
  | expiration (inst : Instance) (expireDate daysRemaining : ℤ)
  | configFile (inst : Instance)

/-- `TriggerEvent(..)`. -/
def Reminder.toEvent (env : Env) (rule : Rule) (nowStr : String) (reminder : Reminder) :
    TriggerEvent :=
  let (triggerType, inst, changeSummary) := match reminder with
    | .expiration inst expireDate daysRemaining =>
      ("expiration", inst, "字段 " ++ rule.timeField ++ " 将在 " ++ toString daysRemaining ++
        " 天后到期（" ++ env.isoformat expireDate ++ "）")
    | .configFile inst => ("config_file", inst, "检测到配置采集任务采集到配置文件")
  { ruleId := rule.id
    ruleName := rule.name
    modelId := rule.modelId
    modelName := rule.modelName
    triggerType
    instId := inst.id
    instName := nameOf inst.get inst.id
    changeSummary
    triggeredAt := nowStr }

/-! ### The checks -/

/-- `_parse_to_date` of a JSON value. -/
def parseToDate (env : Env) : Value → Option ℤ
  | .str raw => env.fromisoformat (String.ofList (raw.toList.flatMap fun c =>
      if c = 'Z' then "+00:00".toList else [c]))
  | _ => none

/-- `days_before`, where the configuration is valid; `True` is an integer. -/
def Rule.days (rule : Rule) : Option ℤ :=
  if rule.timeField = "" then none
  else
    match rule.daysBefore with
    | .int n => if n ≤ 0 then none else some n
    | .bool true => some 1
    | _ => none

def expiring (env : Env) (rule : Rule) (check : Check) : List (Instance × ℤ) :=
  match rule.days with
  | none => []
  | some days =>
    check.instances.filterMap fun inst =>
      let rawVal := inst.get rule.timeField
      if rawVal.truthy then
        (parseToDate env rawVal).bind fun expireDate =>
          if check.today ≤ expireDate ∧ expireDate ≤ check.today + days then
            some (inst, expireDate)
          else none
      else none

/-- `dedup_key`. -/
def dedupKey (env : Env) (rule : Rule) (instId : ℕ) (expireDate : ℤ) : String :=
  toString instId ++ ":" ++ (rule.timeField ++ ":" ++ env.isoformat expireDate)

/-- The reminders, and `current_notified`. -/
def checkExpiration (env : Env) (rule : Rule) (state : RuleState) (check : Check) :
    List Reminder × List String :=
  let met := expiring env rule check
  ((met.filter fun e => dedupKey env rule e.1.id e.2 ∉ state.expirationNotified).map
    fun e => .expiration e.1 e.2 (e.2 - check.today), met.map fun e => dedupKey env rule e.1.id e.2)

/-- The versions in order, the first of each instance that is not in `previous_notified`. -/
def checkConfigFile (rule : Rule) (state : RuleState) (check : Check) :
    List Reminder × List String :=
  if rule.modelId ≠ "host" then ([], [])
  else
    let instanceIds := check.instances.map fun inst => toString inst.id
    let lastCheck := state.lastCheckTime.getD rule.createdAt
    let versions := (check.versions.filter fun v => v.instanceId ∈ instanceIds ∧
      v.modelId = "host" ∧ v.success = true ∧ lastCheck < v.createdAt ∧
        v.createdAt ≤ check.checkpoint).mergeSort fun v w => v.createdAt ≤ w.createdAt
    let current := fromKeys
      ((versions.map Version.instanceId).filter (· ∉ state.configFileNotified))
    (current.filterMap fun key =>
      (check.instances.reverse.find? fun inst => toString inst.id = key).map .configFile, current)

/-- `process`. A trigger that is not on, and a check of no instances, leave no map. -/
def process (env : Env) (rule : Rule) (state : RuleState) (check : Check) :
    List Reminder × RuleState :=
  if check.instances = [] then ([], { lastCheckTime := some check.checkpoint })
  else
    let expired := if rule.expiration then checkExpiration env rule state check else ([], [])
    let collected := if rule.configFile then checkConfigFile rule state check else ([], [])
    (expired.1 ++ collected.1,
      { expirationNotified := expired.2
        configFileNotified := collected.2
        lastCheckTime := some check.checkpoint })

def reports (env : Env) (rule : Rule) : RuleState → List Check → List (List Reminder)
  | _, [] => []
  | state, check :: checks =>
    (process env rule state check).1 :: reports env rule (process env rule state check).2 checks

/-! ### What is claimed -/

def Reminder.expires : Reminder → Option (ℕ × ℤ)
  | .expiration inst expireDate _ => some (inst.id, expireDate)
  | .configFile _ => none

def Reminder.collects : Reminder → Option ℕ
  | .expiration _ _ _ => none
  | .configFile inst => some inst.id

def due (env : Env) (rule : Rule) (check : Check) : List (ℕ × ℤ) :=
  (expiring env rule check).map fun e => (e.1.id, e.2)

section Once

variable {α : Type*} [DecidableEq α]

/-- Of what is met in each round, `a` is told once, in the first round that meets it. -/
structure ToldOnce (a : α) (met told : List (List α)) : Prop where
  once : told.flatten.count a ≤ 1
  first : ∀ ds d ds', met = ds ++ d :: ds' → a ∈ d → (∀ e ∈ ds, a ∉ e) →
    (told[ds.length]?.getD []).count a = 1

/-- Where `a` is met and was not in the round before, it was never met before, and is met once. -/
def Unbroken (a : α) (met : List (List α)) : Prop :=
  ∀ ds d ds', met = ds ++ d :: ds' → a ∈ d → (∀ e ∈ ds.getLast?, a ∉ e) →
    d.count a = 1 ∧ ∀ e ∈ ds, a ∉ e

end Once

def windows : ℤ → List Check → List (ℤ × Check)
  | _, [] => []
  | lastCheck, check :: checks => (lastCheck, check) :: windows check.checkpoint checks

/-- A successful version of a matched instance was created in the window. -/
def Collected (window : ℤ × Check) (instId : ℕ) : Prop :=
  (∃ inst ∈ window.2.instances, inst.id = instId) ∧
    ∃ v ∈ window.2.versions, v.instanceId = toString instId ∧ v.modelId = "host" ∧
      v.success = true ∧ window.1 < v.createdAt ∧ v.createdAt ≤ window.2.checkpoint

/-- One event for each instance with a version. -/
def Reported (window : ℤ × Check) (report : List Reminder) : Prop :=
  (report.filterMap Reminder.collects).Nodup ∧
    ∀ instId, instId ∈ report.filterMap Reminder.collects ↔ Collected window instId

/-- The reminders neither repeat nor go missing. -/
structure Reminded (env : Env) (rule : Rule) (checks : List Check) : Prop where
  expiration : rule.expiration = true → ∀ key, ToldOnce key (checks.map (due env rule))
    ((reports env rule {} checks).map (·.filterMap Reminder.expires))
  configFile : rule.configFile = true → rule.modelId = "host" →
    List.Forall₂ Reported (windows rule.createdAt checks) (reports env rule {} checks)

/-- No expiry comes back, and no instance has versions in two windows that follow each other. -/
structure Undisturbed (env : Env) (rule : Rule) (checks : List Check) : Prop where
  expiration : rule.expiration = true → ∀ key, Unbroken key (checks.map (due env rule))
  configFile : rule.configFile = true → rule.modelId = "host" →
    (windows rule.createdAt checks).IsChain fun w w' => ∀ instId, Collected w instId →
      ¬Collected w' instId

/-! ### What is new in a round -/

section News

variable {α : Type*} [DecidableEq α] {a : α}

def news : List α → List (List α) → List (List α)
  | _, [] => []
  | before, d :: ds => d.filter (· ∉ before) :: news d ds

theorem news_append (before : List α) (ds ds' : List (List α)) :
    news before (ds ++ ds') = news before ds ++ news (ds.getLast?.getD before) ds' := by
  induction ds generalizing before with
  | nil => rfl
  | cons d ds ih => rw [List.cons_append, news, ih, List.getLast?_cons]; rfl

theorem length_news (before : List α) (ds : List (List α)) :
    (news before ds).length = ds.length := by
  induction ds generalizing before with
  | nil => rfl
  | cons d ds ih => exact congrArg (· + 1) (ih d)

theorem news_at (before d : List α) (ds ds' : List (List α)) :
    (news before (ds ++ d :: ds'))[ds.length]? =
      some (d.filter (· ∉ ds.getLast?.getD before)) := by
  rw [news_append, ← length_news before ds, List.getElem?_append_right le_rfl, Nat.sub_self]
  rfl

theorem notMem_news {before : List α} {ds : List (List α)}
    (h : ∀ us d vs, ds = us ++ d :: vs → a ∈ d → a ∈ us.getLast?.getD before) :
    a ∉ (news before ds).flatten := by
  induction ds generalizing before with
  | nil => exact List.not_mem_nil
  | cons d ds ih =>
    rw [news, List.flatten_cons, List.mem_append, List.mem_filter, not_or]
    constructor
    · rintro ⟨h_d, h_new⟩
      exact of_decide_eq_true h_new (h [] d ds rfl h_d)
    · refine ih fun us e vs h_eq h_e => ?_
      have h_last := h (d :: us) e vs (by rw [h_eq]; rfl) h_e
      rwa [List.getLast?_cons] at h_last

theorem exists_first (a : α) (ds : List (List α)) : (∀ d ∈ ds, a ∉ d) ∨
    ∃ us d vs, ds = us ++ d :: vs ∧ a ∈ d ∧ ∀ e ∈ us, a ∉ e := by
  induction ds with
  | nil => exact .inl fun _ h => absurd h List.not_mem_nil
  | cons d ds ih =>
    by_cases h_d : a ∈ d
    · exact .inr ⟨[], d, ds, rfl, h_d, fun _ h => absurd h List.not_mem_nil⟩
    · obtain h_never | ⟨us, e, vs, rfl, h_e, h_us⟩ := ih
      · exact .inl (List.forall_mem_cons.mpr ⟨h_d, h_never⟩)
      · exact .inr ⟨d :: us, e, vs, rfl, h_e, List.forall_mem_cons.mpr ⟨h_d, h_us⟩⟩

omit [DecidableEq α] in
theorem notMem_last {us : List (List α)} (h : ∀ e ∈ us.getLast?, a ∉ e) :
    a ∉ us.getLast?.getD [] := by
  cases h_last : us.getLast? with
  | none => exact List.not_mem_nil
  | some e => exact h e h_last

theorem count_filter_notMem {d before : List α} (h : a ∉ before) :
    (d.filter (· ∉ before)).count a = d.count a :=
  List.count_filter (decide_eq_true h)

theorem toldOnce_news_iff (met : List (List α)) :
    ToldOnce a met (news [] met) ↔ Unbroken a met := by
  constructor
  · rintro ⟨h_once, h_first⟩ ds d ds' rfl h_d h_last
    obtain h_never | ⟨us, e, vs, rfl, h_e, h_us⟩ := exists_first a ds
    · have h_one := h_first ds d ds' rfl h_d h_never
      rw [news_at, Option.getD_some, count_filter_notMem (notMem_last h_last)] at h_one
      exact ⟨h_one, h_never⟩
    · -- the first round that meets `a` has told it, and so has this one
      rw [List.append_assoc, List.cons_append] at h_once h_first
      have h_one := h_first us e _ rfl h_e h_us
      rw [news_at, Option.getD_some] at h_one
      have h_new : a ∉ vs.getLast?.getD e := by
        simpa [List.getLast?_append, List.getLast?_cons] using h_last
      have h_again : 0 < (d.filter (· ∉ vs.getLast?.getD e)).count a := by
        rw [count_filter_notMem h_new]
        exact List.count_pos_iff.mpr h_d
      rw [news_append, news, news_append, news] at h_once
      simp only [List.flatten_append, List.flatten_cons, List.count_append, h_one] at h_once
      omega
  · intro h
    have h_first : ∀ ds d ds', met = ds ++ d :: ds' → a ∈ d → (∀ e ∈ ds, a ∉ e) →
        ((news [] met)[ds.length]?.getD []).count a = 1 := by
      rintro ds d ds' rfl h_d h_never
      have h_last : ∀ e ∈ ds.getLast?, a ∉ e := fun e h_e => h_never e (List.mem_of_getLast? h_e)
      rw [news_at, Option.getD_some, count_filter_notMem (notMem_last h_last)]
      exact (h ds d ds' rfl h_d h_last).1
    refine ⟨?_, h_first⟩
    obtain h_never | ⟨us, d, vs, rfl, h_d, h_us⟩ := exists_first a met
    · rw [List.count_eq_zero_of_not_mem (notMem_news fun us d vs h_eq h_d =>
        absurd h_d (h_never d (by simp [h_eq])))]
      exact Nat.zero_le _
    · have h_before : a ∉ (news [] us).flatten := notMem_news fun us' e vs' h_eq h_e =>
        absurd h_e (h_us e (by simp [h_eq]))
      have h_after : a ∉ (news d vs).flatten := by
        refine notMem_news fun us' e vs' h_eq h_e => ?_
        by_contra h_new
        have h_last : ∀ f ∈ (us ++ d :: us').getLast?, a ∉ f := by
          simpa [List.getLast?_append, List.getLast?_cons] using h_new
        exact (h (us ++ d :: us') e vs' (by simp [h_eq]) h_e h_last).2 d (by simp) h_d
      have h_one := h_first us d vs rfl h_d h_us
      rw [news_at, Option.getD_some] at h_one
      rw [news_append, news, List.flatten_append, List.flatten_cons, List.count_append,
        List.count_append, h_one, List.count_eq_zero_of_not_mem h_before,
        List.count_eq_zero_of_not_mem h_after]

end News

/-! ### Expirations -/

section Expirations

variable {env : Env} {rule : Rule}

theorem dedupKey_injective :
    Function.Injective fun key : ℕ × ℤ => dedupKey env rule key.1 key.2 := by
  rintro ⟨i, d⟩ ⟨j, e⟩ h
  have h_colon : ∀ n : ℕ, ':' ∉ (toString n).toList := by
    intro n h_n
    rw [Nat.toString_eq_ofList_toDigits, String.toList_ofList] at h_n
    exact absurd (Nat.isDigit_of_mem_toDigits (by decide) (by decide) h_n) (by decide)
  have h_text := congrArg String.toList h
  simp only [dedupKey, String.toList_append, List.append_assoc] at h_text
  obtain ⟨h_id, h_rest⟩ := List.cut_inj (h_colon i) (h_colon j) h_text
  have h_date := List.append_cancel_left (List.append_cancel_left (List.append_cancel_left h_rest))
  exact Prod.ext (toString_injective (String.toList_inj.mp h_id))
    (env.isoformat_injective (String.toList_inj.mp h_date))

theorem due_nil {check : Check} (h : check.instances = []) : due env rule check = [] := by
  rw [due, expiring, h]
  cases rule.days <;> rfl

theorem expires_process (h_on : rule.expiration = true) (state : RuleState) (check : Check) :
    (process env rule state check).1.filterMap Reminder.expires = (due env rule check).filter
        (fun key => dedupKey env rule key.1 key.2 ∉ state.expirationNotified) ∧
      (process env rule state check).2.expirationNotified =
        (due env rule check).map fun key => dedupKey env rule key.1 key.2 := by
  by_cases h_nil : check.instances = []
  · rw [process, if_pos h_nil, due_nil h_nil]
    exact ⟨rfl, rfl⟩
  · rw [process, if_neg h_nil]
    have h_files : (checkConfigFile rule state check).1.filterMap Reminder.expires = [] := by
      rw [List.filterMap_eq_nil_iff, checkConfigFile]
      split_ifs
      · exact fun _ h => absurd h List.not_mem_nil
      · intro r h_r
        obtain ⟨key, -, h_key⟩ := List.mem_filterMap.mp h_r
        obtain ⟨inst, -, rfl⟩ := Option.map_eq_some_iff.mp h_key
        rfl
    have h_rest : (if rule.configFile = true then checkConfigFile rule state check
        else ([], [])).1.filterMap Reminder.expires = [] := by
      split_ifs
      · exact h_files
      · rfl
    dsimp only
    rw [List.filterMap_append, h_rest, List.append_nil, if_pos h_on, checkExpiration, due,
      List.filterMap_map, List.filter_map, List.map_map]
    exact ⟨congrFun List.filterMap_eq_map _, rfl⟩

theorem expires_reports (h_on : rule.expiration = true) {state : RuleState}
    {before : List (ℕ × ℤ)} (checks : List Check)
    (h : state.expirationNotified = before.map fun key => dedupKey env rule key.1 key.2) :
    (reports env rule state checks).map (·.filterMap Reminder.expires) =
      news before (checks.map (due env rule)) := by
  induction checks generalizing state before with
  | nil => rfl
  | cons check checks ih =>
    obtain ⟨h_told, h_notified⟩ := expires_process h_on state check
    rw [reports, List.map_cons, h_told, ih h_notified, h, List.map_cons, news]
    congr 1
    refine List.filter_congr fun key _ => decide_eq_decide.mpr (not_congr ?_)
    exact List.mem_map_of_injective dedupKey_injective

end Expirations

/-! ### Configuration files -/

section ConfigFiles

variable {env : Env} {rule : Rule} {state : RuleState} {check : Check}

theorem mem_checkConfigFile (h_host : rule.modelId = "host") {key : String} :
    key ∈ (checkConfigFile rule state check).2 ↔ key ∉ state.configFileNotified ∧
      ∃ instId, key = toString instId ∧
        Collected (state.lastCheckTime.getD rule.createdAt, check) instId := by
  rw [checkConfigFile, if_neg (not_not.mpr h_host)]
  simp only [mem_fromKeys, List.mem_filter, List.mem_map, List.mem_mergeSort, decide_eq_true_eq,
    Collected]
  constructor
  · rintro ⟨⟨v, ⟨h_v, ⟨inst, h_inst, h_id⟩, h_rest⟩, rfl⟩, h_new⟩
    exact ⟨h_new, inst.id, h_id.symm, ⟨inst, h_inst, rfl⟩, v, h_v, h_id.symm, h_rest⟩
  · rintro ⟨h_new, _, rfl, ⟨inst, h_inst, rfl⟩, v, h_v, h_id, h_rest⟩
    exact ⟨⟨v, ⟨h_v, ⟨inst, h_inst, h_id.symm⟩, h_rest⟩, h_id⟩, h_new⟩

theorem find_key (instances : List Instance) (key : String) {inst : Instance}
    (h : instances.reverse.find? (fun inst => toString inst.id = key) = some inst) :
    toString inst.id = key :=
  of_decide_eq_true (List.find?_some h :)

theorem collects_checkConfigFile (h_host : rule.modelId = "host") :
    ((checkConfigFile rule state check).1.filterMap Reminder.collects).Nodup ∧
      ∀ instId, instId ∈ (checkConfigFile rule state check).1.filterMap Reminder.collects ↔
        toString instId ∈ (checkConfigFile rule state check).2 := by
  have h_list : (checkConfigFile rule state check).1.filterMap Reminder.collects =
      (checkConfigFile rule state check).2.filterMap fun key =>
        (check.instances.reverse.find? fun inst => toString inst.id = key).map Instance.id := by
    rw [checkConfigFile, if_neg (not_not.mpr h_host), List.filterMap_filterMap]
    refine List.filterMap_congr fun key _ => ?_
    cases check.instances.reverse.find? fun inst => toString inst.id = key <;> rfl
  rw [h_list]
  constructor
  · refine List.Nodup.filterMap (fun key key' i h h' => ?_) ?_
    · obtain ⟨inst, h_inst, rfl⟩ := Option.map_eq_some_iff.mp h
      obtain ⟨inst', h_inst', h_id⟩ := Option.map_eq_some_iff.mp h'
      rw [← find_key _ _ h_inst, ← find_key _ _ h_inst', h_id]
    · rw [checkConfigFile, if_neg (not_not.mpr h_host)]
      exact nodup_fromKeys _
  · intro i
    rw [List.mem_filterMap]
    constructor
    · rintro ⟨key, h_key, h_find⟩
      obtain ⟨inst, h_inst, rfl⟩ := Option.map_eq_some_iff.mp h_find
      rwa [find_key _ _ h_inst]
    · intro h_key
      refine ⟨_, h_key, ?_⟩
      obtain ⟨-, j, h_j, ⟨inst, h_inst, rfl⟩, -⟩ := (mem_checkConfigFile h_host).mp h_key
      cases h_find : check.instances.reverse.find? fun inst => toString inst.id = toString i with
      | none =>
        have h_none := List.find?_eq_none.mp h_find inst (List.mem_reverse.mpr h_inst)
        exact absurd (decide_eq_true h_j.symm) h_none
      | some inst => exact congrArg some (toString_injective (find_key _ _ h_find))

theorem collects_process (h_on : rule.configFile = true) (h_host : rule.modelId = "host") :
    ((process env rule state check).1.filterMap Reminder.collects).Nodup ∧
      (∀ instId, instId ∈ (process env rule state check).1.filterMap Reminder.collects ↔
        toString instId ∉ state.configFileNotified ∧
          Collected (state.lastCheckTime.getD rule.createdAt, check) instId) ∧
      ∀ instId, toString instId ∈ (process env rule state check).2.configFileNotified ↔
        instId ∈ (process env rule state check).1.filterMap Reminder.collects := by
  by_cases h_nil : check.instances = []
  · rw [process, if_pos h_nil]
    refine ⟨List.nodup_nil, fun i => ⟨fun h => absurd h List.not_mem_nil, ?_⟩, fun i =>
      iff_of_false List.not_mem_nil List.not_mem_nil⟩
    rintro ⟨-, ⟨inst, h_inst, -⟩, -⟩
    rw [h_nil] at h_inst
    exact absurd h_inst List.not_mem_nil
  · rw [process, if_neg h_nil]
    have h_dates : (if rule.expiration = true then checkExpiration env rule state check
        else ([], [])).1.filterMap Reminder.collects = [] := by
      split_ifs
      · rw [checkExpiration, List.filterMap_map]
        exact List.filterMap_eq_nil_iff.mpr fun _ _ => rfl
      · rfl
    obtain ⟨h_nodup, h_mem⟩ := @collects_checkConfigFile rule state check h_host
    dsimp only
    rw [List.filterMap_append, h_dates, List.nil_append, if_pos h_on]
    refine ⟨h_nodup, fun i => ?_, fun i => (h_mem i).symm⟩
    rw [h_mem, mem_checkConfigFile h_host]
    constructor
    · rintro ⟨h_new, j, h_j, h_collected⟩
      exact ⟨h_new, toString_injective h_j ▸ h_collected⟩
    · rintro ⟨h_new, h_collected⟩
      exact ⟨h_new, i, rfl, h_collected⟩

theorem lastCheckTime_process :
    (process env rule state check).2.lastCheckTime = some check.checkpoint := by
  unfold process
  split_ifs <;> rfl

theorem reported_reports_iff (h_on : rule.configFile = true) (h_host : rule.modelId = "host")
    {lastCheck : ℤ} (checks : List Check)
    (h_last : state.lastCheckTime.getD rule.createdAt = lastCheck) :
    List.Forall₂ Reported (windows lastCheck checks) (reports env rule state checks) ↔
      (∀ w ∈ (windows lastCheck checks).head?, ∀ instId, Collected w instId →
        toString instId ∉ state.configFileNotified) ∧
      (windows lastCheck checks).IsChain fun w w' => ∀ instId, Collected w instId →
        ¬Collected w' instId := by
  induction checks generalizing state lastCheck with
  | nil => simp [windows, reports]
  | cons check checks ih =>
    obtain ⟨h_nodup, h_mem, h_notified⟩ := @collects_process env rule state check h_on h_host
    have h_next : (process env rule state check).2.lastCheckTime.getD rule.createdAt =
        check.checkpoint := by rw [lastCheckTime_process]; rfl
    rw [windows, reports, List.forall₂_cons, ih h_next, List.isChain_cons, List.head?_cons]
    have h_here : Reported (lastCheck, check) (process env rule state check).1 ↔
        ∀ i, Collected (lastCheck, check) i → toString i ∉ state.configFileNotified := by
      subst h_last
      exact ⟨fun h i h_i => ((h_mem i).mp ((h.2 i).mpr h_i)).1,
        fun h => ⟨h_nodup, fun i => (h_mem i).trans ⟨And.right, fun h_i => ⟨h i h_i, h_i⟩⟩⟩⟩
    simp only [Option.mem_some_iff, forall_eq']
    rw [h_here]
    refine and_congr_right fun h_new => and_congr_left fun _ => forall₂_congr fun w h_w => ?_
    have h_told : Reported (lastCheck, check) (process env rule state check).1 := h_here.mpr h_new
    refine forall_congr' fun i => ?_
    rw [h_notified, h_told.2]
    exact imp_not_comm

end ConfigFiles

/-- **Reminders.** They neither repeat nor go missing exactly if nothing comes back. -/
theorem reminded_iff (env : Env) (rule : Rule) (checks : List Check) :
    Reminded env rule checks ↔ Undisturbed env rule checks := by
  have h_expiration : rule.expiration = true → ((∀ key, ToldOnce key (checks.map (due env rule))
      ((reports env rule {} checks).map (·.filterMap Reminder.expires))) ↔
        ∀ key, Unbroken key (checks.map (due env rule))) := by
    intro h_on
    have h_empty : ({} : RuleState).expirationNotified =
        ([] : List (ℕ × ℤ)).map fun key => dedupKey env rule key.1 key.2 := rfl
    rw [expires_reports h_on checks h_empty]
    exact forall_congr' fun key => toldOnce_news_iff _
  have h_configFile : rule.configFile = true → rule.modelId = "host" →
      (List.Forall₂ Reported (windows rule.createdAt checks) (reports env rule {} checks) ↔
        (windows rule.createdAt checks).IsChain fun w w' => ∀ instId, Collected w instId →
          ¬Collected w' instId) := by
    intro h_on h_host
    rw [@reported_reports_iff env rule {} h_on h_host rule.createdAt checks rfl]
    exact and_iff_right fun w _ i _ => List.not_mem_nil
  constructor
  · intro h
    exact ⟨fun h_on => (h_expiration h_on).mp (h.expiration h_on),
      fun h_on h_host => (h_configFile h_on h_host).mp (h.configFile h_on h_host)⟩
  · intro h
    exact ⟨fun h_on => (h_expiration h_on).mpr (h.expiration h_on),
      fun h_on h_host => (h_configFile h_on h_host).mpr (h.configFile h_on h_host)⟩

/-! ### A second reminder -/

def Env.march : Env where
  fromisoformat s := if s = "2026-03-10" then some 739685 else none
  isoformat d := if d = 739685 then "2026-03-10" else String.ofList ('d' :: intRepr d)
  isoformat_injective := by
    intro d e h
    dsimp only at h
    split_ifs at h with h_d h_e h_e
    · rw [h_d, h_e]
    · exact absurd (congrArg (·.toList.head?) h) (by simp)
    · exact absurd (congrArg (·.toList.head?) h) (by simp)
    · exact intRepr_injective (List.cons.inj (String.ofList_injective h)).2

def warranty : Rule where
  id := 1
  name := "warranty"
  modelId := "host"
  modelName := "host"
  expiration := true
  configFile := false
  timeField := "expire_at"
  daysBefore := .int 7
  createdAt := 0

def server : Instance where
  id := 1
  get key := if key = "expire_at" then .str "2026-03-10" else .null

def backAgain : List Check :=
  [⟨[server], [], 739680, 60⟩, ⟨[], [], 739680, 120⟩, ⟨[server], [], 739680, 180⟩]

theorem not_reminded_backAgain : ¬Reminded .march warranty backAgain := by
  intro h
  exact absurd (h.expiration rfl (1, 739685)).once (by decide +kernel)

end Cmdb.Reminders
