import BkLite.JobMgmt.AnsibleOutcome

/-!
# The results of the hosts

`ansible_task_callback` with all that an element of the result carries. A result names a host, and
hosts are looked up in one map of the addresses and the ids of the targets, where a later target
replaces an earlier one. So a host stands for the last target whose address or id it is. The texts
are as they are read, after `sanitize_sensitive_data`; times are left out.
-/

namespace JobMgmt
namespace HostAttribution

open AnsibleOutcome Tasks

/-! ### The callback -/

/-- An element of `result`. -/
structure HostOutput extends HostResult where
  stdout : String := ""
  stderr : String := ""
  exitCode : Py.Value := .int 0

/-- An element of `execution_results`. -/
structure Entry extends Result where
  stdout : String
  stderr : String
  exitCode : Py.Value

def failedEntry (errorMessage : String) (t : Target) : Entry :=
  ⟨⟨t.id, t.name, t.ip, .failed, errorMessage⟩, "", errorMessage, .int 1⟩

def entryFor (t : Target) (host : HostOutput) : Entry :=
  ⟨⟨t.id, t.name, t.ip, statusOf host.succeeded, host.errorMessage⟩, host.stdout, host.stderr,
    host.exitCode⟩

def matchOutputs (targets : List Target) : List HostOutput → List Entry → Except String (List Entry)
  | [], entries => .ok entries
  | host :: hosts, entries =>
    match targetOf targets host.host with
    | none => .error ("结果中的主机未匹配到目标: " ++ host.host)
    | some t =>
      if t.id ∈ entries.map (·.targetKey) then .error ("结果中的主机重复: " ++ host.host)
      else matchOutputs targets hosts (entries ++ [entryFor t host])

def fillEntries (targets : List Target) (error : String) (entries : List Entry) : List Entry :=
  if entries.length < targets.length then
    entries ++ (targets.filter (·.id ∉ entries.map (·.targetKey))).map
      (failedEntry (if error ≠ "" then error else "未收到该目标执行结果"))
  else entries

/-- `ansible_task_callback` of a running execution: its status and its entries. -/
def settle (targets : List Target) (rawResult error : String) (hosts : List HostOutput) :
    Status × List Entry :=
  if hosts = [] then (.failed, targets.map (failedEntry ("回调结果格式非法: " ++ rawResult)))
  else
    match matchOutputs targets hosts [] with
    | .error errorMessage => (.failed, targets.map (failedEntry errorMessage))
    | .ok entries =>
      let entries := fillEntries targets error entries
      (if entries.any (·.status = .failed) then .failed else .success, entries)

/-! ### What is claimed -/

def hostOf (out : Target → HostOutput) (t : Target) : HostOutput := { out t with host := t.ip }

/-- **Each target has its own result**, and those without one have failed. -/
structure Attributed (targets ran : List Target) (out : Target → HostOutput)
    (settled : Status × List Entry) : Prop where
  one : (settled.2.map (·.targetKey)).Perm (targets.map Target.id)
  reported : ∀ t ∈ ran, ∀ e ∈ settled.2, e.targetKey = t.id → e = entryFor t (out t)
  missing : ∀ t ∈ targets, t ∉ ran → ∀ e ∈ settled.2, e.targetKey = t.id → e.status = .failed
  status : settled.1 = .success ↔ ∀ t ∈ targets, t ∈ ran ∧ (out t).succeeded = true

section Proofs

variable {targets ran : List Target} {hosts : List HostOutput} {acc entries : List Entry}
  {out : Target → HostOutput} {rawResult error : String}

/-! ### The model of the system -/

theorem map_matchOutputs : (matchOutputs targets hosts acc).map (·.map Entry.toResult) =
    matchHosts targets (hosts.map HostOutput.toHostResult) (acc.map Entry.toResult) := by
  induction hosts generalizing acc with
  | nil => rfl
  | cons host hosts ih =>
    rw [matchOutputs, List.map_cons, matchHosts]
    cases targetOf targets host.host with
    | none => rfl
    | some t =>
      have h_keys : (acc.map Entry.toResult).map (·.targetKey) = acc.map (·.targetKey) :=
        List.map_map
      dsimp only
      by_cases h_seen : t.id ∈ acc.map (·.targetKey)
      · rw [h_keys, if_pos h_seen, if_pos h_seen]
        rfl
      · rw [h_keys, if_neg h_seen, if_neg h_seen, ih, List.map_append]
        rfl

theorem map_fillEntries : (fillEntries targets error entries).map Entry.toResult =
    fillMissing targets error (entries.map Entry.toResult) := by
  have h_keys : (entries.map Entry.toResult).map (·.targetKey) = entries.map (·.targetKey) :=
    List.map_map
  rw [fillEntries, fillMissing, List.length_map, h_keys]
  by_cases h_left : entries.length < targets.length
  · rw [if_pos h_left, if_pos h_left, List.map_append, List.map_map]
    rfl
  · rw [if_neg h_left, if_neg h_left]

theorem row_settle {job : Job} {ans : Answer} {s : Execution} (h : s.row.status = .running)
    (hosts : List HostOutput) (rawResult error : String) :
    let settled := settle job.targetList rawResult error hosts
    let data : CallbackData :=
      ⟨if hosts = [] then none else some (hosts.map HostOutput.toHostResult), rawResult, error⟩
    (delivered job data ans s).row.status = settled.1 ∧
      (delivered job data ans s).row.executionResults = settled.2.map Entry.toResult := by
  have h_open : ¬s.row.status.Terminal := by
    rw [h]
    decide
  dsimp only
  rw [settle]
  split_ifs with h_none
  · rw [row_delivered rfl (by dsimp only; rw [if_neg h_open]; rfl)]
    refine ⟨rfl, ?_⟩
    rw [List.map_map]
    rfl
  · have h_match : (matchOutputs job.targetList hosts []).map (·.map Entry.toResult) =
        matchHosts job.targetList (hosts.map HostOutput.toHostResult) [] := map_matchOutputs
    cases h_outputs : matchOutputs job.targetList hosts [] with
    | error errorMessage =>
      rw [h_outputs] at h_match
      rw [row_delivered rfl (by dsimp only; rw [if_neg h_open, ← h_match]; rfl)]
      refine ⟨rfl, ?_⟩
      rw [List.map_map]
      rfl
    | ok entries =>
      rw [h_outputs] at h_match
      have h_any : (fillMissing job.targetList error (entries.map Entry.toResult)).any
          (·.status = .failed) = (fillEntries job.targetList error entries).any
            (·.status = .failed) := by
        rw [← map_fillEntries, List.any_map]
        rfl
      rw [row_delivered rfl (by dsimp only; rw [if_neg h_open, ← h_match]; rfl)]
      refine ⟨?_, map_fillEntries.symm⟩
      show (if s.row.status = .cancelling then _ else _) = _
      rw [h, if_neg (by decide), h_any]

/-! ### Who gets the results -/

theorem matchOutputs_own (h_own : ∀ t ∈ ran, targetOf targets t.ip = some t)
    (h_ids : (acc.map (·.targetKey) ++ ran.map Target.id).Nodup) :
    matchOutputs targets (ran.map (hostOf out)) acc =
      .ok (acc ++ ran.map fun t => entryFor t (hostOf out t)) := by
  induction ran generalizing acc with
  | nil => simp [matchOutputs]
  | cons t ran ih =>
    obtain ⟨h_t, h_own⟩ := List.forall_mem_cons.mp h_own
    have h_new : t.id ∉ acc.map (·.targetKey) := fun h_seen =>
      (List.nodup_append.mp h_ids).2.2 _ h_seen _ List.mem_cons_self rfl
    have h_target : targetOf targets (hostOf out t).host = some t := h_t
    rw [List.map_cons, matchOutputs, h_target]
    dsimp only
    rw [if_neg h_new, ih h_own (by simpa [entryFor] using h_ids), List.map_cons, List.append_assoc]
    rfl

theorem perm_ran (h_targets : targets.Nodup) (h_ran : ran.Nodup) (h_sub : ran ⊆ targets) :
    (ran ++ targets.filter (· ∉ ran)).Perm targets := by
  have h_apart : (ran ++ targets.filter (· ∉ ran)).Nodup := by
    refine List.nodup_append.mpr ⟨h_ran, h_targets.filter _, ?_⟩
    rintro t h_t u h_u rfl
    exact of_decide_eq_true (List.mem_filter.mp h_u).2 h_t
  refine (List.perm_ext_iff_of_nodup h_apart h_targets).mpr fun t => ?_
  rw [List.mem_append, List.mem_filter, decide_eq_true_iff]
  exact ⟨fun h => h.elim (h_sub ·) (·.1), fun h => (em (t ∈ ran)).imp id fun h_not => ⟨h, h_not⟩⟩

theorem fillEntries_own (h_ids : (targets.map Target.id).Nodup) (h_ran : ran.Nodup)
    (h_sub : ran ⊆ targets) :
    fillEntries targets error (ran.map fun t => entryFor t (hostOf out t)) =
      (ran.map fun t => entryFor t (hostOf out t)) ++ (targets.filter (· ∉ ran)).map
        (failedEntry (if error ≠ "" then error else "未收到该目标执行结果")) := by
  have h_targets : targets.Nodup := List.Nodup.of_map _ h_ids
  have h_keys : (ran.map fun t => entryFor t (hostOf out t)).map (·.targetKey) =
      ran.map Target.id := List.map_map
  have h_left : targets.filter (·.id ∉ ran.map Target.id) = targets.filter (· ∉ ran) := by
    refine List.filter_congr fun t h_t => ?_
    have h_iff : t.id ∈ ran.map Target.id ↔ t ∈ ran := by
      refine ⟨fun h_id => ?_, List.mem_map_of_mem⟩
      obtain ⟨u, h_u, h_id⟩ := List.mem_map.mp h_id
      rwa [← List.inj_on_of_nodup_map h_ids (h_sub h_u) h_t h_id]
    simp [h_iff]
  rw [fillEntries, h_keys, h_left, List.length_map]
  by_cases h_length : ran.length < targets.length
  · rw [if_pos h_length]
  · -- all targets were run
    have h_perm := (perm_ran h_targets h_ran h_sub).length_eq
    rw [List.length_append] at h_perm
    have h_none : targets.filter (· ∉ ran) = [] := List.length_eq_zero_iff.mp (by omega)
    rw [if_neg h_length, h_none, List.map_nil, List.append_nil]

theorem attributed_own (h_ids : (targets.map Target.id).Nodup) (h_ran : ran.Nodup)
    (h_sub : ran ⊆ targets) (h_targets : targets ≠ [])
    (h_own : ∀ t ∈ ran, targetOf targets t.ip = some t) :
    Attributed targets ran out (settle targets rawResult error (ran.map (hostOf out))) := by
  have h_inj {t u : Target} (h_t : t ∈ targets) (h_u : u ∈ targets) (h_id : t.id = u.id) : t = u :=
    List.inj_on_of_nodup_map h_ids h_t h_u h_id
  have h_perm := perm_ran (List.Nodup.of_map _ h_ids) h_ran h_sub
  by_cases h_none : ran = []
  · subst h_none
    obtain ⟨t, h_t⟩ := List.exists_mem_of_ne_nil targets h_targets
    refine ⟨?_, nofun, ?_, iff_of_false nofun fun h => List.not_mem_nil (h t h_t).1⟩
    · exact .of_eq List.map_map
    · intro t _ _ e h_e _
      obtain ⟨u, -, rfl⟩ := List.mem_map.mp h_e
      rfl
  · have h_start : (([] : List Entry).map (·.targetKey) ++ ran.map Target.id).Nodup :=
      h_ran.map_on fun t h_t u h_u => h_inj (h_sub h_t) (h_sub h_u)
    rw [settle, if_neg (mt List.map_eq_nil_iff.mp h_none), matchOutputs_own h_own h_start,
      List.nil_append]
    dsimp only
    rw [fillEntries_own h_ids h_ran h_sub]
    generalize (if error ≠ "" then error else "未收到该目标执行结果") = message
    refine ⟨?_, fun t h_t e h_e h_key => ?_, fun t h_t h_not e h_e h_key => ?_, ?_⟩
    · rw [List.map_append, List.map_map, List.map_map]
      exact (List.map_append ▸ h_perm.map Target.id :)
    · rcases List.mem_append.mp h_e with h_e | h_e
      · obtain ⟨u, h_u, rfl⟩ := List.mem_map.mp h_e
        rw [h_inj (h_sub h_u) (h_sub h_t) h_key]
        rfl
      · obtain ⟨u, h_u, rfl⟩ := List.mem_map.mp h_e
        obtain ⟨h_u, h_left⟩ := List.mem_filter.mp h_u
        rw [h_inj h_u (h_sub h_t) h_key] at h_left
        exact absurd h_t (of_decide_eq_true h_left)
    · rcases List.mem_append.mp h_e with h_e | h_e
      · obtain ⟨u, h_u, rfl⟩ := List.mem_map.mp h_e
        rw [h_inj (h_sub h_u) h_t h_key] at h_u
        exact absurd h_u h_not
      · obtain ⟨u, -, rfl⟩ := List.mem_map.mp h_e
        rfl
    · -- no entry has failed if all were run and have succeeded
      have h_any : ((ran.map fun t => entryFor t (hostOf out t)) ++
            (targets.filter (· ∉ ran)).map (failedEntry message)).any (·.status = .failed) = false ↔
          ∀ t ∈ targets, t ∈ ran ∧ (out t).succeeded = true := by
        rw [List.any_append, Bool.or_eq_false_iff, List.any_map, List.any_map, List.any_eq_false,
          List.any_eq_false]
        constructor
        · intro h t h_t
          have h_in : t ∈ ran := by
            by_contra h_not
            exact h.2 t (List.mem_filter.mpr ⟨h_t, decide_eq_true h_not⟩) rfl
          refine ⟨h_in, ?_⟩
          have h_status := h.1 t h_in
          by_contra h_failed
          rw [Bool.not_eq_true] at h_failed
          exact h_status (by simp [entryFor, hostOf, h_failed, statusOf])
        · intro h
          refine ⟨fun t h_t => ?_, fun t h_t => ?_⟩
          · simp [entryFor, hostOf, (h t (h_sub h_t)).2, statusOf]
          · obtain ⟨h_t, h_left⟩ := List.mem_filter.mp h_t
            exact absurd (h t h_t).1 (of_decide_eq_true h_left)
      rw [← h_any]
      cases List.any _ _ with
      | false => exact iff_of_true rfl rfl
      | true => exact iff_of_false nofun nofun

theorem exists_entry (h : matchOutputs targets hosts [] = .ok entries) {host : HostOutput}
    (h_host : host ∈ hosts) : ∃ t, targetOf targets host.host = some t ∧
      ∃ e ∈ entries, e.targetKey = t.id ∧ e.status = statusOf host.succeeded := by
  have h_match : (matchOutputs targets hosts []).map (·.map Entry.toResult) =
      matchHosts targets (hosts.map HostOutput.toHostResult) [] := map_matchOutputs
  rw [h] at h_match
  have h_start : (([] : List Result).map (·.targetKey)).Nodup := List.nodup_nil
  obtain ⟨h_some, -, h_results⟩ := (matchHosts_eq_ok_iff h_start).mp h_match.symm
  have h_mem : host.toHostResult ∈ hosts.map HostOutput.toHostResult := List.mem_map_of_mem h_host
  obtain ⟨t, h_t⟩ := Option.isSome_iff_exists.mp (h_some _ h_mem)
  have h_entry : entryOf targets host.toHostResult =
      some ⟨t.id, t.name, t.ip, statusOf host.succeeded, host.errorMessage⟩ := by
    rw [entryOf, h_t]
    rfl
  have h_result := List.mem_filterMap.mpr ⟨_, h_mem, h_entry⟩
  rw [List.nil_append] at h_results
  rw [← h_results] at h_result
  obtain ⟨e, h_e, h_eq⟩ := List.mem_map.mp h_result
  exact ⟨t, h_t, e, h_e, congrArg Result.targetKey h_eq, congrArg Result.status h_eq⟩

end Proofs

/-- **When the results are attributed right**: by addresses and ids of their own. -/
theorem attributed_iff (rawResult error : String) {targets ran : List Target}
    (h_ids : (targets.map Target.id).Nodup) (h_ran : ran.Nodup) (h_sub : ran ⊆ targets) :
    (∀ out, Attributed targets ran out
        (settle targets rawResult error (ran.map (hostOf out)))) ↔
      targets ≠ [] ∧ ∀ t ∈ ran, targetOf targets t.ip = some t := by
  refine ⟨fun h => ⟨?_, fun t h_t => ?_⟩, fun h out => attributed_own h_ids h_ran h_sub h.1 h.2⟩
  · rintro rfl
    obtain rfl := List.subset_nil.mp h_sub
    exact nomatch (h fun _ => ⟨⟨"", true, ""⟩, "", "", .int 0⟩).status.mpr nofun
  · -- only `t` succeeds
    have h_out := h fun u => ⟨⟨"", decide (u = t), ""⟩, "", "", .int 0⟩
    generalize h_def : (fun u => (⟨⟨"", decide (u = t), ""⟩, "", "", .int 0⟩ : HostOutput)) = out
      at h_out
    have h_succeeded (u : Target) : (out u).succeeded = decide (u = t) := by rw [← h_def]
    have h_self : (out t).succeeded = true := (h_succeeded t).trans (decide_eq_true rfl)
    obtain ⟨one, reported, missing, -⟩ := h_out
    rw [settle, if_neg fun h_nil => List.ne_nil_of_mem h_t (List.map_eq_nil_iff.mp h_nil)]
      at one reported missing
    cases h_outputs : matchOutputs targets (ran.map (hostOf out)) [] with
    | error errorMessage =>
      rw [h_outputs] at one reported
      obtain ⟨e, h_e, h_key⟩ := List.mem_map.mp
        (one.symm.subset (List.mem_map_of_mem (f := Target.id) (h_sub h_t)))
      have h_status : e.status = statusOf (out t).succeeded :=
        congrArg (·.status) (reported t h_t e h_e h_key)
      obtain ⟨u, -, rfl⟩ := List.mem_map.mp h_e
      rw [h_self] at h_status
      cases h_status
    | ok entries =>
      rw [h_outputs] at reported missing
      obtain ⟨u, h_u, e, h_e, h_key, h_status⟩ := exists_entry h_outputs (List.mem_map_of_mem h_t)
      have h_mem : e ∈ fillEntries targets error entries := by
        rw [fillEntries]
        split_ifs
        · exact List.mem_append_left _ h_e
        · exact List.mem_append_left _ h_e
        · exact h_e
      have h_success : e.status = .success := h_status.trans (congrArg statusOf h_self)
      rw [show t.ip = (hostOf out t).host from rfl, h_u]
      by_cases h_ran_u : u ∈ ran
      · have h_same : e.status = statusOf (out u).succeeded :=
          congrArg (·.status) (reported u h_ran_u e h_mem h_key)
        by_contra h_ne
        rw [h_success, h_succeeded, decide_eq_false fun h_eq => h_ne (congrArg some h_eq)] at h_same
        cases h_same
      · have h_failed := missing u (mem_of_targetOf h_u) h_ran_u e h_mem h_key
        rw [h_success] at h_failed
        cases h_failed

section Examples

private def hosts : List Target :=
  [⟨"", some "1", "a", "10.0.0.1"⟩, ⟨"", some "2", "b", "10.0.0.2"⟩]

private def sameAddress : List Target :=
  [⟨"", some "1", "a", "10.0.0.1"⟩, ⟨"", some "2", "b", "10.0.0.1"⟩]

private def outputOf (t : Target) : HostOutput := ⟨⟨t.ip, true, ""⟩, t.name, "", .int 0⟩

theorem hosts_attributed : Attributed hosts hosts.reverse outputOf
    (settle hosts "" "" (hosts.reverse.map (hostOf outputOf))) :=
  (@attributed_iff "" "" hosts hosts.reverse (by decide) (by decide) (by decide)).mpr
    ⟨by decide, by decide⟩ outputOf

theorem sameAddress_failed : ¬∀ targets ran out, (targets.map Target.id).Nodup → ran.Nodup →
    ran ⊆ targets → Attributed targets ran out (settle targets "" "" (ran.map (hostOf out))) := by
  intro h
  have h_status := (h sameAddress sameAddress (fun _ => ⟨⟨"", true, ""⟩, "", "", .int 0⟩)
    (by decide) (by decide) (by decide)).status
  revert h_status
  decide +kernel

end Examples

end HostAttribution
end JobMgmt
