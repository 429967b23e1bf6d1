import BkLite.Ansible.HostReports
import BkLite.JobMgmt.CompletionCallback

/-!
# The outcome of an Ansible run on both sides

The agent builds the payload of a run from the text that the process has printed
(`_build_task_result`, `_compact_callback_payload`), and the server reads the outcome of the
execution from the payload (`ansible_task_callback`). All that passes between them of the outcome is
what the text reports of its hosts (`Ended.reports`), so the two agree exactly if the reports tell
the outcome of the targets (`agrees_iff`): each is of a target of its own and right, and the targets
without one have failed; or the server can take none of them, and all targets have failed.

A playbook that prints more than is kept loses its recap, and reports nothing.
-/

namespace JobMgmt
namespace AnsibleOutcome

open Py Tasks Runs Ansible Ansible.Worker Ansible.Output

/-! ### Reading the payload -/

/-- `str` of a value that is no text, and `str(sanitize_sensitive_data(..))`. -/
structure Texts where
  str : Value → String
  sanitized : Value → String

namespace Texts

variable (texts : Texts)

def text : Value → String
  | .str s => s
  | v => texts.str v

/-- An element of `result`. -/
def readHost (item : Dict) : HostResult where
  host := texts.text (getText item "host")
  succeeded :=
    match Value.lookup item "status" with
    | .str s => s = "success"
    | _ => false
  errorMessage := texts.sanitized (.str (texts.text (getText item "error_message")))

def readResult : Value → Option (List HostResult)
  | .list [] => none
  | .list items => items.mapM fun
    | .dict item => some (texts.readHost item)
    | _ => none
  | _ => none

/-- `data.get("result", [])`. -/
def rawResult (data : Dict) : Value :=
  ((data.find? (·.1 = "result")).map (·.2)).getD (.list [])

def readCallback (data : Dict) : CallbackData where
  result := texts.readResult (rawResult data)
  rawResult := texts.sanitized (rawResult data)
  error := texts.sanitized (getText data "error")

end Texts

/-! ### The run and its outcome -/

structure Running where
  execution : Execution
  running : execution.row.status = .running

/-- An Ansible run over the targets: what the process has printed, and which targets have
succeeded. It exits with 0 if all have. -/
structure AnsibleRun (targets : List Target) where
  task : QueuedTask
  ownerId : Ansible.Owner
  ended : Ended
  startedAt : String
  finishedAt : String
  succeeded : Target → Bool
  exits : ended.code = 0 ↔ ∀ t ∈ targets, succeeded t = true

def AnsibleRun.payload {targets : List Target} (run : AnsibleRun targets) (codecs : Codecs)
    (reader : Reader) (env : Env) : Option Dict :=
  (run.ended.outcome codecs reader run.startedAt run.finishedAt).map fun o =>
    compactCallbackPayload env (buildTaskResult run.task run.ownerId o)

def delivered (job : Job) (data : CallbackData) (ans : Answer) (s : Execution) : Execution :=
  run (step job) s
    [.start (.callback data), .step s.tasks.length ans, .step s.tasks.length ans]

def statusOf (succeeded : Bool) : Status := if succeeded then .success else .failed

/-- The execution has ended as the run has, with a result for each target. -/
structure Agrees (targets : List Target) (succeeded : Target → Bool) (row : Row) : Prop where
  status : row.status = statusOf (decide (∀ t ∈ targets, succeeded t = true))
  results : (row.executionResults.map fun r => (r.targetKey, r.status)).Perm
    (targets.map fun t => (t.id, statusOf (succeeded t)))

def reportedTargets (targets : List Target) (reports : List Report) : List Target :=
  reports.filterMap (targetOf targets ·.host)

def Taken (targets : List Target) (reports : List Report) : Prop :=
  reports ≠ [] ∧ (∀ r ∈ reports, (targetOf targets r.host).isSome) ∧
    ((reportedTargets targets reports).map Target.id).Nodup

/-- Each report is of a target of its own, the only one with its id, and right. The targets without
a report have failed. -/
structure Covered (targets : List Target) (succeeded : Target → Bool) (reports : List Report) :
    Prop where
  some_report : reports ≠ []
  reported : ∀ r ∈ reports, ∃ t, targetOf targets r.host = some t ∧
    targets.filter (·.id = t.id) = [t] ∧ succeeded t = r.succeeded
  once : (reports.map (targetOf targets ·.host)).Nodup
  others : ∀ t ∈ targets, succeeded t = true → ∃ r ∈ reports, targetOf targets r.host = some t

def TellOutcome (targets : List Target) (succeeded : Target → Bool) (reports : List Report) :
    Prop :=
  Covered targets succeeded reports ∨
    ¬Taken targets reports ∧ targets ≠ [] ∧ ∀ t ∈ targets, succeeded t = false

/-! ### The loop over the hosts -/

section Match

variable {targets : List Target} {hosts : List HostResult} {acc results : List Result}

def reportOf (h : HostResult) : Report := ⟨h.host, h.succeeded⟩

def entryOf (targets : List Target) (h : HostResult) : Option Result :=
  (targetOf targets h.host).map fun t =>
    ⟨t.id, t.name, t.ip, statusOf h.succeeded, h.errorMessage⟩

theorem matchHosts_eq_ok_iff (h_acc : (acc.map (·.targetKey)).Nodup) :
    matchHosts targets hosts acc = .ok results ↔
      (∀ h ∈ hosts, (targetOf targets h.host).isSome) ∧
        (acc.map (·.targetKey) ++
          (hosts.filterMap (targetOf targets ·.host)).map Target.id).Nodup ∧
        results = acc ++ hosts.filterMap (entryOf targets) := by
  induction hosts generalizing acc with
  | nil =>
    rw [matchHosts, List.filterMap_nil, List.filterMap_nil, List.map_nil, List.append_nil,
      List.append_nil, Except.ok.injEq]
    exact ⟨fun h => ⟨fun _ h_mem => absurd h_mem List.not_mem_nil, h_acc, h.symm⟩,
      fun h => h.2.2.symm⟩
  | cons host hosts ih =>
    rw [matchHosts, List.forall_mem_cons]
    cases h_target : targetOf targets host.host with
    | none => exact ⟨by rintro ⟨⟩, fun h => absurd h.1.1 (by simp)⟩
    | some t =>
      have h_entry : entryOf targets host =
          some ⟨t.id, t.name, t.ip, statusOf host.succeeded, host.errorMessage⟩ := by
        unfold entryOf
        rw [h_target]
        rfl
      dsimp only
      rw [List.filterMap_cons_some (f := fun h : HostResult => targetOf targets h.host) h_target,
        List.filterMap_cons_some h_entry, List.map_cons, List.append_cons _ t.id,
        List.append_cons acc _ (hosts.filterMap _)]
      by_cases h_seen : t.id ∈ acc.map (·.targetKey)
      · rw [if_pos h_seen]
        refine ⟨by rintro ⟨⟩, fun h => absurd h.2.1 fun h_nodup => ?_⟩
        have h_apart := List.nodup_append.mp (List.nodup_append.mp h_nodup).1
        exact h_apart.2.2 _ h_seen _ (List.mem_singleton_self _) rfl
      · rw [if_neg h_seen]
        have h_keys (e : Result) : (acc ++ [e]).map (·.targetKey) =
            acc.map (·.targetKey) ++ [e.targetKey] := List.map_append
        have h_next := @ih (acc ++
          [⟨t.id, t.name, t.ip, statusOf host.succeeded, host.errorMessage⟩]) (by
            rw [h_keys]
            refine List.nodup_append.mpr ⟨h_acc, List.nodup_singleton _, fun k h_k l h_l h_eq => ?_⟩
            rw [h_eq, List.mem_singleton.mp h_l] at h_k
            exact h_seen h_k)
        rw [h_keys] at h_next
        refine h_next.trans ?_
        rw [Option.isSome_some, eq_self_iff_true, true_and]

end Match

/-! ### Entries against targets -/

section Entries

variable {targets : List Target} {succeeded : Target → Bool} {taken : List (Target × Bool)}

def tellOf (t : Target) (ok : Bool) : String × Status := (t.id, statusOf ok)

theorem statusOf_inj {a b : Bool} (h : statusOf a = statusOf b) : a = b := by
  revert a b
  decide

def entries (targets : List Target) (taken : List (Target × Bool)) : List (String × Status) :=
  (taken.map fun x => tellOf x.1 x.2) ++
    (targets.filter (·.id ∉ taken.map (·.1.id))).map fun t => tellOf t false

def Exact (targets : List Target) (succeeded : Target → Bool) (taken : List (Target × Bool)) :
    Prop :=
  ∀ x ∈ taken, targets.filter (·.id = x.1.id) = [x.1] ∧ succeeded x.1 = x.2

theorem exact_of_perm (h_sub : ∀ x ∈ taken, x.1 ∈ targets) (h_ids : (taken.map (·.1.id)).Nodup)
    (h : (entries targets taken).Perm (targets.map fun t => tellOf t (succeeded t))) :
    Exact targets succeeded taken := by
  intro x h_x
  have h_id : x.1.id ∈ taken.map (·.1.id) := List.mem_map_of_mem h_x
  have h_mem : x.1 ∈ targets.filter (·.id = x.1.id) :=
    List.mem_filter.mpr ⟨h_sub x h_x, decide_eq_true rfl⟩
  -- the id is told once, so one target has it
  have h_keys : (entries targets taken).map (·.1) =
      taken.map (·.1.id) ++ (targets.filter (·.id ∉ taken.map (·.1.id))).map Target.id := by
    unfold entries
    rw [List.map_append, List.map_map, List.map_map]
    rfl
  have h_rest :
      ((targets.filter (·.id ∉ taken.map (·.1.id))).map Target.id).count x.1.id = 0 := by
    refine List.count_eq_zero.mpr fun h_rest => ?_
    obtain ⟨t, h_t, h_eq⟩ := List.mem_map.mp h_rest
    exact of_decide_eq_true (List.mem_filter.mp h_t).2 (h_eq ▸ h_id)
  have h_count : (targets.filter (·.id = x.1.id)).length = 1 := by
    calc (targets.filter (·.id = x.1.id)).length
        = (targets.map Target.id).count x.1.id := by
          rw [← List.countP_eq_length_filter, List.count, List.countP_map]
          rfl
      _ = ((targets.map fun t => tellOf t (succeeded t)).map (·.1)).count x.1.id := by
          rw [List.map_map]
          rfl
      _ = ((entries targets taken).map (·.1)).count x.1.id := ((h.map _).count_eq _).symm
      _ = 1 := by
          rw [h_keys, List.count_append, h_rest, List.count_eq_one_of_mem h_ids h_id]
  obtain ⟨t, h_one⟩ := List.length_eq_one_iff.mp h_count
  have h_alone : targets.filter (·.id = x.1.id) = [x.1] := by
    rw [h_one] at h_mem ⊢
    rw [List.mem_singleton.mp h_mem]
  refine ⟨h_alone, ?_⟩
  -- and it is told as it has ended
  have h_told : tellOf x.1 x.2 ∈ targets.map fun t => tellOf t (succeeded t) :=
    h.subset (List.mem_append_left _ (List.mem_map_of_mem (f := fun x => tellOf x.1 x.2) h_x))
  obtain ⟨u, h_u, h_eq⟩ := List.mem_map.mp h_told
  obtain ⟨h_key, h_status⟩ := Prod.mk.inj h_eq
  have h_same : u ∈ [x.1] := h_alone ▸ List.mem_filter.mpr ⟨h_u, decide_eq_true h_key⟩
  rw [← List.mem_singleton.mp h_same]
  exact statusOf_inj h_status

theorem failed_of_perm
    (h : (entries targets taken).Perm (targets.map fun t => tellOf t (succeeded t))) :
    ∀ t ∈ targets, t.id ∉ taken.map (·.1.id) → succeeded t = false := by
  intro t h_t h_id
  have h_told : tellOf t (succeeded t) ∈ entries targets taken :=
    h.symm.subset (List.mem_map_of_mem (f := fun t => tellOf t (succeeded t)) h_t)
  obtain h_taken | h_rest := List.mem_append.mp h_told
  · obtain ⟨x, h_x, h_eq⟩ := List.mem_map.mp h_taken
    have h_key : x.1.id = t.id := congrArg Prod.fst h_eq
    exact absurd (List.mem_map.mpr ⟨x, h_x, h_key⟩) h_id
  · obtain ⟨u, -, h_eq⟩ := List.mem_map.mp h_rest
    have h_status : statusOf false = statusOf (succeeded t) := congrArg Prod.snd h_eq
    exact (statusOf_inj h_status).symm

theorem perm_of_exact (h_sub : ∀ x ∈ taken, x.1 ∈ targets)
    (h_ids : (taken.map (·.1.id)).Nodup) (h_exact : Exact targets succeeded taken)
    (h_failed : ∀ t ∈ targets, t.id ∉ taken.map (·.1.id) → succeeded t = false) :
    (entries targets taken).Perm (targets.map fun t => tellOf t (succeeded t)) := by
  have h_first : (taken.map (·.1)).Nodup := by
    refine List.Nodup.of_map Target.id ?_
    rwa [List.map_map]
  -- the targets with an entry are the ones taken
  have h_mem : ∀ t ∈ targets, (t.id ∈ taken.map (·.1.id) ↔ t ∈ taken.map (·.1)) := by
    intro t h_t
    refine ⟨fun h_id => ?_, fun h_in => ?_⟩
    · obtain ⟨x, h_x, h_eq⟩ := List.mem_map.mp h_id
      have h_same : t ∈ [x.1] :=
        (h_exact x h_x).1 ▸ List.mem_filter.mpr ⟨h_t, decide_eq_true h_eq.symm⟩
      rw [List.mem_singleton.mp h_same]
      exact List.mem_map_of_mem h_x
    · obtain ⟨x, h_x, rfl⟩ := List.mem_map.mp h_in
      exact List.mem_map_of_mem h_x
  have h_once : (targets.filter (·.id ∈ taken.map (·.1.id))).Nodup := by
    refine List.nodup_iff_count_le_one.mpr fun t => ?_
    by_cases h_t : t ∈ targets.filter (·.id ∈ taken.map (·.1.id))
    · obtain ⟨h_target, h_id⟩ := List.mem_filter.mp h_t
      obtain ⟨x, h_x, h_eq⟩ := List.mem_map.mp (of_decide_eq_true h_id)
      calc (targets.filter (·.id ∈ taken.map (·.1.id))).count t
          ≤ targets.count t := List.filter_sublist.count_le t
        _ ≤ targets.countP (·.id = x.1.id) := by
            refine List.countP_mono_left fun u _ h_u => ?_
            rw [eq_of_beq h_u]
            exact decide_eq_true h_eq.symm
        _ = 1 := by
            rw [List.countP_eq_length_filter, (h_exact x h_x).1]
            rfl
    · rw [List.count_eq_zero.mpr h_t]
      exact Nat.zero_le 1
  have h_perm : (targets.filter (·.id ∈ taken.map (·.1.id))).Perm (taken.map (·.1)) := by
    refine (List.perm_ext_iff_of_nodup h_once h_first).mpr fun t => ?_
    rw [List.mem_filter, decide_eq_true_iff]
    refine ⟨fun ⟨h_t, h_id⟩ => (h_mem t h_t).mp h_id, fun h_t => ?_⟩
    obtain ⟨x, h_x, rfl⟩ := List.mem_map.mp h_t
    exact ⟨h_sub x h_x, List.mem_map_of_mem h_x⟩
  have h_taken : (taken.map fun x => tellOf x.1 x.2) =
      (taken.map (·.1)).map fun t => tellOf t (succeeded t) := by
    rw [List.map_map]
    refine List.map_congr_left fun x h_x => ?_
    show tellOf x.1 x.2 = tellOf x.1 (succeeded x.1)
    rw [(h_exact x h_x).2]
  have h_rest : ((targets.filter (·.id ∉ taken.map (·.1.id))).map fun t => tellOf t false) =
      (targets.filter (·.id ∉ taken.map (·.1.id))).map fun t => tellOf t (succeeded t) := by
    refine List.map_congr_left fun t h_t => ?_
    obtain ⟨h_target, h_id⟩ := List.mem_filter.mp h_t
    rw [h_failed t h_target (of_decide_eq_true h_id)]
  unfold entries
  rw [h_taken, h_rest, ← List.map_append]
  refine List.Perm.map _ (((h_perm.symm).append_right _).trans ?_)
  have h_split := List.filter_append_perm (fun t : Target => decide (t.id ∈ taken.map (·.1.id)))
    targets
  refine List.Perm.trans (.of_eq ?_) h_split
  congr 1
  refine List.filter_congr fun t _ => ?_
  exact decide_not

end Entries

/-! ### The row that is written -/

section Delivery

variable {job : Job} {data : CallbackData} {ans : Answer} {s : Execution}

/-- What `_fail_execution` writes. -/
def failedRow (job : Job) (errorMessage : String) : Row :=
  ⟨.failed, job.targetList.map fun t => ⟨t.id, t.name, t.ip, .failed, errorMessage⟩, 0,
    job.targetList.length⟩

def settledRow (job : Job) (error : String) (results : List Result) : Row :=
  let results := fillMissing job.targetList error results
  ⟨if results.any (·.status = .failed) then .failed else .success, results,
    successCount results, results.countP (·.status = .failed)⟩

theorem row_delivered {op : Op} {next : Row → Work} {next' : Row → Work}
    (h_task : ansibleTaskCallback job data = .access .get next)
    (h_next : next s.row = .access op next') :
    (delivered job data ans s).row = op.apply s.row := by
  have h_first : (step job s (.start (.callback data))).tasks[s.tasks.length]? =
      some (.access .get next) := by
    show (s.tasks ++ [ansibleTaskCallback job data])[s.tasks.length]? = _
    rw [h_task, List.getElem?_concat_length]
  have h_second : (step job (step job s (.start (.callback data)))
      (.step s.tasks.length ans)).tasks[s.tasks.length]? = some (.access op next') := by
    show ((system job).step _ _).tasks[_]? = _
    rw [Pool.step_access h_first]
    show ((s.tasks ++ [ansibleTaskCallback job data]).set _ (next s.row))[_]? = _
    rw [List.getElem?_set_self (by simp), h_next]
  have h_row : (step job (step job s (.start (.callback data)))
      (.step s.tasks.length ans)).row = s.row := by
    show ((system job).step _ _).row = _
    rw [Pool.step_access h_first]
    rfl
  unfold delivered
  rw [run_cons, run_cons, run_cons, run_nil]
  show ((system job).step _ _).row = _
  rw [Pool.step_access h_second]
  exact congrArg op.apply h_row

theorem delivered_cases (h : s.row.status = .running) :
    match data.result with
    | none => ∃ errorMessage, (delivered job data ans s).row = failedRow job errorMessage
    | some hosts =>
      match matchHosts job.targetList hosts [] with
      | .error _ => ∃ errorMessage, (delivered job data ans s).row = failedRow job errorMessage
      | .ok results => (delivered job data ans s).row = settledRow job data.error results := by
  have h_open : ¬s.row.status.Terminal := by
    rw [h]
    decide
  cases h_result : data.result with
  | none => exact ⟨_, row_delivered rfl (by dsimp only; rw [if_neg h_open, h_result]; rfl)⟩
  | some hosts =>
    dsimp only
    cases h_match : matchHosts job.targetList hosts [] with
    | error errorMessage =>
      exact ⟨_, row_delivered rfl (by
        dsimp only
        rw [if_neg h_open, h_result]
        dsimp only
        rw [h_match]
        rfl)⟩
    | ok results =>
      dsimp only
      refine (row_delivered rfl (by
        dsimp only
        rw [if_neg h_open, h_result]
        dsimp only
        rw [h_match])).trans ?_
      unfold settledRow
      rw [h]
      rfl

end Delivery

/-! ### Agreement -/

section Agreement

variable {targets : List Target} {succeeded : Target → Bool} {reports : List Report}
  {hosts : List HostResult} {x : Target × Bool}

def takenOf (targets : List Target) (reports : List Report) : List (Target × Bool) :=
  reports.filterMap fun r => (targetOf targets r.host).map (·, r.succeeded)

theorem mem_takenOf : x ∈ takenOf targets reports ↔
    ∃ r ∈ reports, targetOf targets r.host = some x.1 ∧ r.succeeded = x.2 := by
  unfold takenOf
  rw [List.mem_filterMap]
  refine exists_congr fun r => and_congr_right fun _ => ?_
  rw [Option.map_eq_some_iff]
  refine ⟨?_, fun ⟨h_t, h_ok⟩ => ⟨x.1, h_t, ?_⟩⟩
  · rintro ⟨t, h_t, rfl⟩
    exact ⟨h_t, rfl⟩
  · rw [h_ok]

theorem map_takenOf :
    (takenOf targets reports).map (·.1.id) = (reportedTargets targets reports).map Target.id := by
  unfold takenOf reportedTargets
  rw [List.map_filterMap, List.map_filterMap]
  refine List.filterMap_congr fun r _ => ?_
  rw [Option.map_map]
  rfl

theorem mem_of_mem_takenOf (h : x ∈ takenOf targets reports) : x.1 ∈ targets := by
  obtain ⟨r, -, h_t, -⟩ := mem_takenOf.mp h
  exact mem_of_targetOf h_t

theorem map_some_reportedTargets (h : ∀ r ∈ reports, (targetOf targets r.host).isSome) :
    (reportedTargets targets reports).map some = reports.map (targetOf targets ·.host) := by
  unfold reportedTargets
  rw [List.map_filterMap, ← List.filterMap_eq_map]
  refine List.filterMap_congr fun r h_r => ?_
  obtain ⟨t, h_t⟩ := Option.isSome_iff_exists.mp (h r h_r)
  show Option.map some (targetOf targets r.host) = some (targetOf targets r.host)
  rw [h_t]
  rfl

theorem Covered.taken (h : Covered targets succeeded reports) : Taken targets reports := by
  refine ⟨h.some_report, fun r h_r => ?_, ?_⟩
  · obtain ⟨t, h_t, -⟩ := h.reported r h_r
    rw [h_t]
    rfl
  · refine List.Nodup.map_on (fun t h_t u h_u h_id => ?_) ?_
    · obtain ⟨r, h_r, h_target⟩ := List.mem_filterMap.mp h_t
      obtain ⟨t', h_t', h_alone, -⟩ := h.reported r h_r
      obtain rfl := Option.some.inj (h_target.symm.trans h_t')
      obtain ⟨r', -, h_target'⟩ := List.mem_filterMap.mp h_u
      have h_same : u ∈ [t] := h_alone ▸
        List.mem_filter.mpr ⟨mem_of_targetOf h_target', decide_eq_true h_id.symm⟩
      exact (List.mem_singleton.mp h_same).symm
    · have h_some : reportedTargets targets reports =
          (reports.map (targetOf targets ·.host)).filterMap id := by
        rw [List.filterMap_map]
        rfl
      rw [h_some]
      refine h.once.filterMap fun a a' b h_a h_a' => ?_
      exact (Option.mem_def.mp h_a).trans (Option.mem_def.mp h_a').symm

theorem covered_iff_exact (h : Taken targets reports) : Covered targets succeeded reports ↔
    Exact targets succeeded (takenOf targets reports) ∧
      ∀ t ∈ targets, t.id ∉ (takenOf targets reports).map (·.1.id) → succeeded t = false := by
  obtain ⟨h_some, h_targets, h_ids⟩ := h
  refine ⟨fun h => ⟨fun x h_x => ?_, fun t h_t h_id => ?_⟩, fun ⟨h_exact, h_failed⟩ => ?_⟩
  · obtain ⟨r, h_r, h_target, h_ok⟩ := mem_takenOf.mp h_x
    obtain ⟨t, h_t, h_alone, h_told⟩ := h.reported r h_r
    obtain rfl := Option.some.inj (h_target.symm.trans h_t)
    exact ⟨h_alone, h_told.trans h_ok⟩
  · by_contra h_ok
    obtain ⟨r, h_r, h_target⟩ := h.others t h_t (eq_true_of_ne_false h_ok)
    exact h_id (List.mem_map.mpr ⟨(t, r.succeeded), mem_takenOf.mpr ⟨r, h_r, h_target, rfl⟩, rfl⟩)
  · have h_mem : ∀ r ∈ reports, ∀ t, targetOf targets r.host = some t →
        (t, r.succeeded) ∈ takenOf targets reports := fun r h_r t h_t =>
      mem_takenOf.mpr ⟨r, h_r, h_t, rfl⟩
    refine ⟨h_some, fun r h_r => ?_, ?_, fun t h_t h_ok => ?_⟩
    · obtain ⟨t, h_t⟩ := Option.isSome_iff_exists.mp (h_targets r h_r)
      obtain ⟨h_alone, h_told⟩ := h_exact _ (h_mem r h_r t h_t)
      exact ⟨t, h_t, h_alone, h_told⟩
    · rw [← map_some_reportedTargets h_targets]
      exact (List.Nodup.of_map _ h_ids).map (Option.some_injective _)
    · by_contra h_none
      have h_id : t.id ∉ (takenOf targets reports).map (·.1.id) := by
        intro h_id
        obtain ⟨x, h_x, h_eq⟩ := List.mem_map.mp h_id
        obtain ⟨r, h_r, h_target, -⟩ := mem_takenOf.mp h_x
        have h_same : t ∈ [x.1] :=
          (h_exact x h_x).1 ▸ List.mem_filter.mpr ⟨h_t, decide_eq_true h_eq.symm⟩
        rw [← List.mem_singleton.mp h_same] at h_target
        exact h_none ⟨r, h_r, h_target⟩
      rw [h_failed t h_t h_id] at h_ok
      cases h_ok

theorem reportedTargets_reportOf : reportedTargets targets (hosts.map reportOf) =
    hosts.filterMap (targetOf targets ·.host) := List.filterMap_map

theorem matchHosts_of_taken (h : Taken targets (hosts.map reportOf)) :
    matchHosts targets hosts [] = .ok (hosts.filterMap (entryOf targets)) := by
  obtain ⟨-, h_targets, h_ids⟩ := h
  rw [reportedTargets_reportOf] at h_ids
  have h_start : (([] : List Result).map (·.targetKey)).Nodup := List.nodup_nil
  exact (matchHosts_eq_ok_iff h_start).mpr
    ⟨fun h h_mem => h_targets _ (List.mem_map_of_mem h_mem), h_ids, rfl⟩

theorem taken_of_matchHosts {results : List Result} (h_some : hosts.map reportOf ≠ [])
    (h : matchHosts targets hosts [] = .ok results) :
    Taken targets (hosts.map reportOf) ∧ results = hosts.filterMap (entryOf targets) := by
  have h_start : (([] : List Result).map (·.targetKey)).Nodup := List.nodup_nil
  obtain ⟨h_targets, h_ids, h_results⟩ := (matchHosts_eq_ok_iff h_start).mp h
  refine ⟨⟨h_some, fun r h_r => ?_, ?_⟩, h_results⟩
  · obtain ⟨host, h_host, rfl⟩ := List.mem_map.mp h_r
    exact h_targets host h_host
  · rw [reportedTargets_reportOf]
    exact h_ids

theorem map_entryOf : (hosts.filterMap (entryOf targets)).map (fun r => (r.targetKey, r.status)) =
    (takenOf targets (hosts.map reportOf)).map fun x => tellOf x.1 x.2 := by
  unfold takenOf
  rw [List.filterMap_map, List.map_filterMap, List.map_filterMap]
  refine List.filterMap_congr fun h _ => ?_
  show (entryOf targets h).map _ = ((targetOf targets h.host).map (·, h.succeeded)).map _
  unfold entryOf
  rw [Option.map_map, Option.map_map]
  rfl

/-- **The entries** that are written tell of the targets that are reported, and say of the others
that they have failed. -/
theorem map_fillMissing (h : Taken targets (hosts.map reportOf)) (error : String) :
    (fillMissing targets error (hosts.filterMap (entryOf targets))).map
        (fun r => (r.targetKey, r.status)) =
      entries targets (takenOf targets (hosts.map reportOf)) := by
  have h_keys : (hosts.filterMap (entryOf targets)).map (·.targetKey) =
      (takenOf targets (hosts.map reportOf)).map (·.1.id) := by
    have h_first := congrArg (List.map (·.1)) (@map_entryOf targets hosts)
    rwa [List.map_map, List.map_map] at h_first
  unfold fillMissing entries
  rw [h_keys]
  by_cases h_length : (hosts.filterMap (entryOf targets)).length < targets.length
  · rw [if_pos h_length, List.map_append, map_entryOf, List.map_map]
    rfl
  · rw [if_neg h_length]
    -- as many entries as targets, and with different ids: no target is left
    have h_perm : (reportedTargets targets (hosts.map reportOf)).Perm targets := by
      refine (List.subperm_of_subset (List.Nodup.of_map _ h.2.2) fun t h_t => ?_).perm_of_length_le
        ?_
      · obtain ⟨r, -, h_target⟩ := List.mem_filterMap.mp h_t
        exact mem_of_targetOf h_target
      · have h_same := congrArg List.length (h_keys.trans map_takenOf)
        rw [List.length_map, List.length_map] at h_same
        rw [← h_same]
        exact Nat.le_of_not_lt h_length
    have h_none : targets.filter (·.id ∉
        (takenOf targets (hosts.map reportOf)).map (·.1.id)) = [] := by
      refine List.filter_eq_nil_iff.mpr fun t h_t h_not => ?_
      refine of_decide_eq_true h_not ?_
      rw [map_takenOf]
      exact List.mem_map_of_mem (h_perm.symm.subset h_t)
    rw [h_none, List.map_nil, List.append_nil, map_entryOf]

theorem agrees_of_perm {row : Row}
    (h_status : row.status = if row.executionResults.any (·.status = .failed) then .failed
      else .success)
    (h : (row.executionResults.map fun r => (r.targetKey, r.status)).Perm
      (targets.map fun t => tellOf t (succeeded t))) : Agrees targets succeeded row := by
  refine ⟨h_status.trans ?_, h⟩
  have h_any : row.executionResults.any (·.status = .failed) =
      !decide (∀ t ∈ targets, succeeded t = true) := by
    calc row.executionResults.any (·.status = .failed)
        = (row.executionResults.map fun r => (r.targetKey, r.status)).any (·.2 = .failed) := by
          rw [List.any_map]
          rfl
      _ = (targets.map fun t => tellOf t (succeeded t)).any (·.2 = .failed) := h.any_eq
      _ = targets.any fun t => !succeeded t := by
          rw [List.any_map]
          refine List.any_congr rfl fun t => ?_
          show decide (statusOf (succeeded t) = .failed) = !succeeded t
          cases succeeded t with
          | false => rfl
          | true => rfl
      _ = !decide (∀ t ∈ targets, succeeded t = true) := by
          rw [← List.not_all_eq_any_not]
          refine congrArg (!·) (Bool.eq_iff_iff.mpr ?_)
          rw [List.all_eq_true, decide_eq_true_iff]
  rw [h_any]
  cases decide (∀ t ∈ targets, succeeded t = true) with
  | false => rfl
  | true => rfl

theorem agrees_failedRow_iff {job : Job} {errorMessage : String} {succeeded : Target → Bool} :
    Agrees job.targetList succeeded (failedRow job errorMessage) ↔
      job.targetList ≠ [] ∧ ∀ t ∈ job.targetList, succeeded t = false := by
  have h_rows : ((failedRow job errorMessage).executionResults.map fun r =>
      (r.targetKey, r.status)) = job.targetList.map fun t => tellOf t false := by
    show (job.targetList.map _).map _ = _
    rw [List.map_map]
    rfl
  refine ⟨fun h => ⟨fun h_nil => ?_, fun t h_t => ?_⟩, fun ⟨h_some, h_failed⟩ => ?_⟩
  · have h_status := h.status
    rw [h_nil] at h_status
    cases h_status
  · have h_told : tellOf t (succeeded t) ∈ job.targetList.map fun t => tellOf t false := by
      rw [← h_rows]
      exact h.results.symm.subset (List.mem_map_of_mem (f := fun t => tellOf t (succeeded t)) h_t)
    obtain ⟨u, -, h_eq⟩ := List.mem_map.mp h_told
    have h_status : statusOf false = statusOf (succeeded t) := congrArg Prod.snd h_eq
    exact (statusOf_inj h_status).symm
  · refine ⟨?_, ?_⟩
    · obtain ⟨t, ts, h_cons⟩ := List.exists_cons_of_ne_nil h_some
      have h_not : ¬∀ t ∈ job.targetList, succeeded t = true := by
        intro h_all
        have h_t : t ∈ job.targetList := h_cons ▸ List.mem_cons_self
        exact Bool.false_ne_true ((h_failed t h_t).symm.trans (h_all t h_t))
      rw [decide_eq_false h_not]
      rfl
    · rw [h_rows]
      refine .of_eq (List.map_congr_left fun t h_t => ?_)
      rw [h_failed t h_t]
      rfl

theorem agrees_settledRow_iff {job : Job} {succeeded : Target → Bool}
    (h : Taken job.targetList (hosts.map reportOf)) (error : String) :
    Agrees job.targetList succeeded
        (settledRow job error (hosts.filterMap (entryOf job.targetList))) ↔
      Covered job.targetList succeeded (hosts.map reportOf) := by
  have h_ids : ((takenOf job.targetList (hosts.map reportOf)).map (·.1.id)).Nodup := by
    rw [map_takenOf]
    exact h.2.2
  have h_sub : ∀ x ∈ takenOf job.targetList (hosts.map reportOf),
      x.1 ∈ job.targetList := fun x h_x => mem_of_mem_takenOf h_x
  rw [covered_iff_exact h]
  refine ⟨fun h_agrees => ?_, fun ⟨h_exact, h_failed⟩ => ?_⟩
  · have h_perm := h_agrees.results
    rw [show (settledRow job error _).executionResults = fillMissing _ _ _ from rfl,
      map_fillMissing h] at h_perm
    exact ⟨exact_of_perm h_sub h_ids h_perm, failed_of_perm h_perm⟩
  · refine agrees_of_perm rfl ?_
    rw [show (settledRow job error _).executionResults = fillMissing _ _ _ from rfl,
      map_fillMissing h]
    exact perm_of_exact h_sub h_ids h_exact h_failed

end Agreement

/-! ### What the server reads -/

section Reading

variable {texts : Texts} {data d : Dict} {r : Report} {rs : List Report}

theorem getD_of_lookup {key : String} {v default : Value} (h : Value.lookup data key = v)
    (h_v : v ≠ .null) : ((data.find? (·.1 = key)).map (·.2)).getD default = v := by
  unfold Value.lookup at h
  cases h_find : data.find? (·.1 = key) with
  | none =>
    rw [h_find] at h
    exact absurd h.symm h_v
  | some e =>
    rw [h_find] at h
    exact h

theorem report_readHost (h : Tells d r) : reportOf (texts.readHost d) = r := by
  have h_host : getText d "host" = .str r.host := getD_of_lookup h.host nofun
  have h_status : (texts.readHost d).succeeded = r.succeeded := by
    unfold Texts.readHost
    rw [h.status]
    cases r.succeeded with
    | true => rfl
    | false => rfl
  show Report.mk (texts.text (getText d "host")) (texts.readHost d).succeeded = r
  rw [h_host, h_status]
  rfl

/-- **The callback** tells the server what is reported, or that it is no list of results. -/
theorem result_readCallback (h : Carries (Value.lookup data "result") rs) :
    (rs = [] ∧ (texts.readCallback data).result = none) ∨
      rs ≠ [] ∧ ∃ hosts, (texts.readCallback data).result = some hosts ∧
        hosts.map reportOf = rs := by
  have h_raw : Texts.rawResult data = Value.lookup data "result" := by
    refine getD_of_lookup rfl fun h_null => ?_
    rw [h_null] at h
    cases h
  show (_ ∧ texts.readResult (Texts.rawResult data) = none) ∨
    _ ∧ ∃ hosts, texts.readResult (Texts.rawResult data) = some hosts ∧ _
  rw [h_raw]
  generalize Value.lookup data "result" = v at h
  cases h with
  | text s => exact .inl ⟨rfl, rfl⟩
  | @hosts ds _ h h_rs =>
    refine .inr ⟨h_rs, ds.map texts.readHost, ?_, ?_⟩
    · obtain _ | ⟨d, ds⟩ := ds
      · exact absurd (List.forall₂_nil_left_iff.mp h) h_rs
      · show List.mapM _ ((d :: ds).map Value.dict) = _
        rw [List.mapM_map]
        exact List.mapM_pure
    · rw [List.map_map]
      have h_all : List.Forall₂ (· = ·) (ds.map (reportOf ∘ texts.readHost)) rs :=
        List.forall₂_map_left_iff.mpr (h.imp fun d r h_d => report_readHost h_d)
      rwa [List.forall₂_eq_eq_eq] at h_all

end Reading

/-! ### The two sides -/

theorem agrees_delivered_iff {texts : Texts} {job : Job} {succeeded : Target → Bool}
    {s : Running} {ans : Answer} {data : Dict} {rs : List Report}
    (h : Carries (Value.lookup data "result") rs) :
    Agrees job.targetList succeeded
        (delivered job (texts.readCallback data) ans s.execution).row ↔
      TellOutcome job.targetList succeeded rs := by
  have h_failed {errorMessage : String} (h_not : ¬Taken job.targetList rs) :
      Agrees job.targetList succeeded (failedRow job errorMessage) ↔
        TellOutcome job.targetList succeeded rs := by
    rw [agrees_failedRow_iff]
    refine ⟨fun h => .inr ⟨h_not, h⟩, fun h_tell => ?_⟩
    obtain h_covered | ⟨-, h_all⟩ := h_tell
    · exact absurd h_covered.taken h_not
    · exact h_all
  have h_cases := @delivered_cases job (texts.readCallback data) ans _ s.running
  obtain ⟨h_nil, h_none⟩ | ⟨h_some, hosts, h_hosts, rfl⟩ := @result_readCallback texts _ _ h
  · rw [h_none] at h_cases
    obtain ⟨errorMessage, h_row⟩ := h_cases
    rw [h_row]
    exact h_failed fun h_taken => h_taken.1 h_nil
  · rw [h_hosts] at h_cases
    dsimp only at h_cases
    cases h_match : matchHosts job.targetList hosts [] with
    | error errorMessage =>
      rw [h_match] at h_cases
      obtain ⟨errorMessage, h_row⟩ := h_cases
      rw [h_row]
      refine h_failed fun h_taken => ?_
      rw [matchHosts_of_taken h_taken] at h_match
      cases h_match
    | ok results =>
      rw [h_match] at h_cases
      obtain ⟨h_taken, rfl⟩ := taken_of_matchHosts h_some h_match
      rw [h_cases, agrees_settledRow_iff h_taken]
      refine ⟨.inl, fun h_tell => h_tell.resolve_right fun h_not => h_not.1 h_taken⟩

theorem carries_payload (codecs : Codecs) (reader : Reader) (env : Env) {targets : List Target}
    (run : AnsibleRun targets) :
    Option.Rel (fun data rs => Carries (Value.lookup data "result") rs)
      (run.payload codecs reader env) (run.ended.reports codecs) := by
  have h_result := carries_result codecs reader run.ended run.startedAt run.finishedAt run.task
    run.ownerId
  unfold AnsibleRun.payload
  generalize run.ended.reports codecs = reports at h_result ⊢
  generalize run.ended.outcome codecs reader run.startedAt run.finishedAt = outcome at h_result ⊢
  cases h_result with
  | none => exact .none
  | some h => exact .some (carries_compact env h)

/-- **Agreement.** The execution ends as the run has exactly if the reports tell the outcome. -/
theorem agrees_iff (codecs : Codecs) (reader : Reader) (env : Env) (texts : Texts) (job : Job)
    (run : AnsibleRun job.targetList) (s : Running) (ans : Answer) :
    (∃ data, run.payload codecs reader env = some data ∧ Agrees job.targetList run.succeeded
        (delivered job (texts.readCallback data) ans s.execution).row) ↔
      ∃ reports, run.ended.reports codecs = some reports ∧
        TellOutcome job.targetList run.succeeded reports := by
  have h_payload := carries_payload codecs reader env run
  generalize run.ended.reports codecs = reports at h_payload
  generalize run.payload codecs reader env = payload at h_payload
  cases h_payload with
  | none => exact ⟨fun ⟨_, h, _⟩ => absurd h nofun, fun ⟨_, h, _⟩ => absurd h nofun⟩
  | @some data rs h =>
    have h_data : Agrees job.targetList run.succeeded
        (delivered job (texts.readCallback data) ans s.execution).row ↔
        TellOutcome job.targetList run.succeeded rs := agrees_delivered_iff h
    exact ⟨fun ⟨_, h_eq, h_agrees⟩ =>
        ⟨rs, rfl, h_data.mp (Option.some.inj h_eq ▸ h_agrees)⟩,
      fun ⟨_, h_eq, h_tell⟩ => ⟨data, rfl, h_data.mpr (Option.some.inj h_eq ▸ h_tell)⟩⟩

/-! ### A playbook that prints too much -/

section Examples

private def console (s : String) : Bytes := s.toList.map fun c => UInt8.ofNat c.toNat

private def longConsole : Bytes :=
  console "PLAY [all] ***\n\nTASK [report] ***\nok: [10.0.0.1] => \x7b\n    \"msg\": \"" ++
    List.replicate 262144 97 ++
    console "\"\n\x7d\n\nPLAY RECAP ***\n10.0.0.1 : ok=1 changed=0 unreachable=0 failed=0\n"

private theorem all_longConsole : longConsole.all fun b => b < 128 && b ≠ 124 := by
  unfold longConsole
  rw [List.all_append, List.all_append, List.all_replicate]
  decide

private theorem length_longConsole : defaultMaxOutputBytes < longConsole.length := by
  unfold longConsole
  rw [List.length_append, List.length_append, List.length_replicate]
  unfold defaultMaxOutputBytes
  have h_pos : 0 < (console
      "PLAY [all] ***\n\nTASK [report] ***\nok: [10.0.0.1] => \x7b\n    \"msg\": \"").length := by
    decide
  omega

private def ascii : Codecs where
  utf16le _ := none
  utf8 output :=
    if output.all (· < 128) then some (output.map fun b => Char.ofNat b.toNat) else none
  gbk _ := none
  utf8Replace output := output.map fun b => Char.ofNat b.toNat

private def oneTarget : Job where
  jobType := .playbook
  targetSource := .manual
  targetList := [⟨"", some "1", "host", "10.0.0.1"⟩]
  totalCount := 1
  files := []
  callbackType := .web
  callbackUrl := ""
  callbackSubject := ""
  maxWorkers := 5
  normalizeExecutorError := id

private def printing (bytes : Bytes) : AnsibleRun oneTarget.targetList where
  task := ⟨"1", "playbook", [], .null, ""⟩
  ownerId := "worker"
  ended := ⟨0, Batches.chunks 8192 bytes⟩
  startedAt := ""
  finishedAt := ""
  succeeded _ := true
  exits := by simp

variable {bytes : Bytes}

private theorem collected_printing :
    (printing bytes).ended.collected = collectedOf defaultMaxOutputBytes bytes := by
  show collectOutput defaultMaxOutputBytes (Batches.chunks 8192 bytes) = _
  rw [collectOutput_eq, List.takeWhile_eq_self_iff.mpr, Batches.chunks_flatten (by omega)]
  exact fun chunk h => decide_eq_true (Batches.ne_nil_of_mem_chunks (by omega) h)

private theorem output_printing (h : bytes.all fun b => b < 128 && b ≠ 124) :
    (printing bytes).ended.output ascii =
      (bytes.take defaultMaxOutputBytes).map fun b => Char.ofNat b.toNat := by
  have h_utf16 (output : Bytes) : decodeUtf16leOutput ascii output = none := by
    unfold decodeUtf16leOutput
    dsimp only [ascii]
    split_ifs
    all_goals rfl
  have h_ascii : (bytes.take defaultMaxOutputBytes).all (· < 128) = true := by
    refine List.all_eq_true.mpr fun b h_b => ?_
    have h_all := List.all_eq_true.mp h b (List.mem_of_mem_take h_b)
    exact (Bool.and_eq_true_iff.mp h_all).1
  unfold Ended.output decodeCommandOutput
  rw [collected_printing, h_utf16]
  show (((if (bytes.take defaultMaxOutputBytes).all (· < 128) then some _ else none) <|>
    none).getD _) = _
  rw [if_pos h_ascii]
  rfl

private theorem code_of_ofNat {n : ℕ} {c : Char} (h : Char.ofNat n = c) (h_c : c ≠ Char.ofNat 0) :
    n = c.toNat := by
  unfold Char.ofNat at h
  by_cases h_valid : n.isValidChar
  · rw [dif_pos h_valid] at h
    exact congrArg Char.toNat h
  · rw [dif_neg h_valid] at h
    exact absurd h.symm h_c

private theorem bar_not_mem (h : bytes.all fun b => b < 128 && b ≠ 124) :
    '|' ∉ (printing bytes).ended.output ascii := by
  rw [output_printing h]
  intro h_bar
  obtain ⟨b, h_b, h_char⟩ := List.mem_map.mp h_bar
  have h_all := List.all_eq_true.mp h b (List.mem_of_mem_take h_b)
  have h_code : b.toNat = 124 := code_of_ofNat h_char (by decide)
  exact of_decide_eq_true (Bool.and_eq_true_iff.mp h_all).2 (UInt8.toNat_inj.mp h_code)

private theorem truncated_printing (h : defaultMaxOutputBytes < bytes.length) :
    (printing bytes).ended.collected.truncated = true := by
  rw [collected_printing]
  exact decide_eq_true h

/-- **A cut recap.** The playbook succeeds, and the execution fails. -/
theorem not_agrees : ¬∀ (codecs : Codecs) (reader : Reader) (env : Env) (texts : Texts) (job : Job)
    (run : AnsibleRun job.targetList) (s : Running) (ans : Answer),
      ∃ data, run.payload codecs reader env = some data ∧ Agrees job.targetList run.succeeded
        (delivered job (texts.readCallback data) ans s.execution).row := by
  intro h
  have h_reports : (printing longConsole).ended.reports ascii = some [] :=
    Ended.reports_of_cut (truncated_printing length_longConsole) (bar_not_mem all_longConsole)
  obtain ⟨data, h_payload, h_agrees⟩ := h ascii ⟨fun _ => none, fun _ => ""⟩
    ⟨fun _ => "", fun _ => 0, 0, 1⟩ ⟨fun _ => "", fun _ => ""⟩ oneTarget (printing longConsole)
    ⟨⟨⟨.running, [], 0, 0⟩, [], []⟩, rfl⟩ ⟨[], false, none, [], .success, ""⟩
  have h_carries := carries_payload ascii ⟨fun _ => none, fun _ => ""⟩
    ⟨fun _ => "", fun _ => 0, 0, 1⟩ (printing longConsole)
  rw [h_payload, h_reports, Option.rel_some_some] at h_carries
  -- nothing is reported, and the target has succeeded
  obtain h_covered | ⟨-, -, h_failed⟩ := (agrees_delivered_iff h_carries).mp h_agrees
  · exact h_covered.some_report rfl
  · exact absurd (h_failed _ (List.mem_singleton_self _)) nofun

end Examples

end AnsibleOutcome
end JobMgmt
