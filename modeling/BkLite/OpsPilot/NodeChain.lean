import BkLite.Framework.Reach
import BkLite.OpsPilot.Flow
import Mathlib.Data.Rat.Floor

/-!
# The synchronous run of a flow

`execute` runs the start node and follows the selected edges recursively (`node_runner.py`). A
single successor is run with what is left of the time less one second; several run in parallel,
each with its share of it. A node that is entered without time fails with a `TimeoutError`.
-/

namespace OpsPilot

open Relation

inductive Failure where
  | invalid (errors : List String)
  | noStart (id : String)
  | timeout (id : String)
  | missing (id : String)
deriving DecidableEq, Repr

def Failure.message : Failure → String
  | .invalid errors =>
    let joined := String.intercalate "; " errors
    s!"流程验证失败: {joined}"
  | .noStart id => s!"指定的起始节点不存在: {id}"
  | .timeout id => s!"节点执行超时: {id}"
  | .missing id => s!"节点不存在: {id}"

structure ChainRun where
  completed : List String := []
  failures : List Failure := []
deriving DecidableEq, Repr

def ChainRun.join (runs : List ChainRun) : ChainRun where
  completed := runs.flatMap (·.completed)
  failures := runs.flatMap (·.failures)

def ChainRun.after (id : String) (run : ChainRun) : ChainRun :=
  { run with completed := id :: run.completed }

def ChainRun.InTime (run : ChainRun) : Prop := ∀ id, .timeout id ∉ run.failures

namespace Flow

variable (flow : Flow) (out : String → Output)

/-- `_execute_node_recursive`, for nodes that succeed with the results `out`. A level of the
recursion costs a second at least, so the fuel is the time rounded up. -/
def executeNodeRecursive : ℕ → String → List String → ℚ → ChainRun
  | 0, id, _, _ => { failures := [.timeout id] }
  | n + 1, id, visited, remaining =>
    if remaining ≤ 0 then { failures := [.timeout id] }
    else if id ∈ visited then {}
    else
      match flow.getNodeById id with
      | none => { failures := [.missing id] }
      | some _ =>
        match flow.getNextNodes id (out id) with
        | [] => { completed := [id] }
        | [next] => (executeNodeRecursive n next (id :: visited) (remaining - 1)).after id
        -- `_execute_parallel_nodes`: a branch starts with nothing visited
        | next :: others =>
          let share := (remaining - 1) / (next :: others).length
          (ChainRun.join ((next :: others).map fun b => executeNodeRecursive n b [] share)).after id

def executeNodeChain (id : String) (remaining : ℚ) : ChainRun :=
  flow.executeNodeRecursive out ⌈remaining⌉₊ id [] remaining

/-- `execute` from a given start node; `remaining` is the timeout less what the preparation
took. -/
def execute (start : String) (remaining : ℚ) : ChainRun :=
  if flow.validateFlow ≠ [] then { failures := [.invalid flow.validateFlow] }
  else
    match flow.getNodeById start with
    | none => { failures := [.noStart start] }
    | some _ => flow.executeNodeChain out start remaining

end Flow

/-! ### Joined runs -/

namespace ChainRun

variable {run : ChainRun} {runs : List ChainRun} {id x : String}

@[simp] theorem mem_completed_after :
    x ∈ (run.after id).completed ↔ x = id ∨ x ∈ run.completed := List.mem_cons

@[simp] theorem mem_completed_join :
    x ∈ (join runs).completed ↔ ∃ run ∈ runs, x ∈ run.completed := List.mem_flatMap

@[simp] theorem inTime_after : (run.after id).InTime ↔ run.InTime := Iff.rfl

@[simp] theorem inTime_join : (join runs).InTime ↔ ∀ run ∈ runs, run.InTime := by
  simp only [InTime, join, List.mem_flatMap, not_exists, not_and]
  exact ⟨fun h run h_run id => h id run h_run, fun h id run h_run => h run h_run id⟩

theorem not_inTime_timeout : ¬ InTime { failures := [.timeout id] } :=
  fun h => h id (List.mem_singleton_self _)

end ChainRun

namespace Flow

variable {flow : Flow} {out : String → Output} {id b x : String} {node : Node}
  {visited : List String} {n : ℕ} {remaining : ℚ}

/-! ### The nodes of a run -/

theorem executeNodeRecursive_level (h_node : flow.getNodeById id = some node)
    (h_visited : id ∉ visited)
    (h_time : (flow.executeNodeRecursive out (n + 1) id visited remaining).InTime) :
    ∃ (visited' : List String) (remaining' : ℚ),
      (∀ v ∈ visited', v = id ∨ v ∈ visited) ∧
      (∀ b ∈ flow.getNextNodes id (out id),
        (flow.executeNodeRecursive out n b visited' remaining').InTime) ∧
      ∀ x, x ∈ (flow.executeNodeRecursive out (n + 1) id visited remaining).completed ↔
        x = id ∨ ∃ b ∈ flow.getNextNodes id (out id),
          x ∈ (flow.executeNodeRecursive out n b visited' remaining').completed := by
  rw [executeNodeRecursive] at h_time ⊢
  by_cases h_late : remaining ≤ 0
  · rw [if_pos h_late] at h_time
    exact absurd h_time ChainRun.not_inTime_timeout
  rw [if_neg h_late, if_neg h_visited, h_node] at h_time ⊢
  simp only at h_time ⊢
  split at h_time
  · -- the last node
    rename_i h_next
    refine ⟨[], 0, fun v h_v => absurd h_v List.not_mem_nil, ?_, ?_⟩
    · intro b h_b
      rw [h_next] at h_b
      exact absurd h_b List.not_mem_nil
    · intro x
      rw [h_next]
      simp
  · -- one successor
    rename_i next h_next
    refine ⟨id :: visited, remaining - 1, fun v h_v => List.mem_cons.mp h_v, ?_, ?_⟩
    · intro b h_b
      rw [h_next, List.mem_singleton] at h_b
      rw [h_b]
      exact ChainRun.inTime_after.mp h_time
    · intro x
      rw [h_next]
      simp
  · -- parallel branches
    rename_i next others _ h_next
    refine ⟨[], (remaining - 1) / (next :: others).length,
      fun v h_v => absurd h_v List.not_mem_nil, ?_, ?_⟩
    · intro b h_b
      rw [h_next] at h_b
      rw [ChainRun.inTime_after, ChainRun.inTime_join] at h_time
      exact h_time _ (List.mem_map_of_mem h_b)
    · intro x
      rw [h_next]
      simp only [ChainRun.mem_completed_after, ChainRun.mem_completed_join, List.mem_map,
        exists_exists_and_eq_and]

theorem executeNodeRecursive_missing (h_node : flow.getNodeById id = none) :
    (flow.executeNodeRecursive out n id visited remaining).completed = [] := by
  cases n with
  | zero => rfl
  | succ n =>
    rw [executeNodeRecursive, h_node]
    split_ifs <;> rfl

theorem mem_executeNodeRecursive (wf : WellFounded flow.Links)
    (h_visited : ∀ v ∈ visited, TransGen flow.Links v id)
    (h_time : (flow.executeNodeRecursive out n id visited remaining).InTime) :
    x ∈ (flow.executeNodeRecursive out n id visited remaining).completed ↔
      (flow.getNodeById id).isSome ∧ ReflTransGen (flow.Selects out) id x := by
  induction n generalizing id visited remaining with
  | zero => exact absurd h_time ChainRun.not_inTime_timeout
  | succ n ih =>
    cases h_node : flow.getNodeById id with
    | none =>
      rw [executeNodeRecursive_missing h_node]
      simp
    | some node =>
      have h_fresh : id ∉ visited := fun h_v => wf.transGen.irrefl.irrefl id (h_visited id h_v)
      obtain ⟨visited', remaining', h_visited', h_times, h_mem⟩ :=
        executeNodeRecursive_level h_node h_fresh h_time
      have h_branch : ∀ b ∈ flow.getNextNodes id (out id),
          (x ∈ (flow.executeNodeRecursive out n b visited' remaining').completed ↔
            (flow.getNodeById b).isSome ∧ ReflTransGen (flow.Selects out) b x) := by
        intro b h_b
        have h_link : flow.Links id b := by
          obtain ⟨e, h_e, h_source, _, _, h_target⟩ := mem_getNextNodes.mp h_b
          exact ⟨e, h_e, h_source, h_target⟩
        refine ih ?_ (h_times b h_b)
        intro v h_v
        rcases h_visited' v h_v with h_id | h_before
        · rw [h_id]
          exact TransGen.single h_link
        · exact (h_visited v h_before).tail h_link
      rw [h_mem, ReflTransGen.cases_head_iff]
      constructor
      · rintro (h_eq | ⟨b, h_b, h_x⟩)
        · exact ⟨rfl, Or.inl h_eq.symm⟩
        · obtain ⟨h_some, h_reach⟩ := (h_branch b h_b).mp h_x
          exact ⟨rfl, Or.inr ⟨b, ⟨h_b, h_some⟩, h_reach⟩⟩
      · rintro ⟨_, h_eq | ⟨b, ⟨h_b, h_some⟩, h_reach⟩⟩
        · exact Or.inl h_eq.symm
        · exact Or.inr ⟨b, h_b, (h_branch b h_b).mpr ⟨h_some, h_reach⟩⟩

theorem mem_execute (h_accepted : flow.validateFlow = []) (h_node : flow.getNodeById id = some node)
    (h_time : (flow.execute out id remaining).InTime) :
    x ∈ (flow.execute out id remaining).completed ↔ ReflTransGen (flow.Selects out) id x := by
  have h_run : flow.execute out id remaining = flow.executeNodeChain out id remaining := by
    rw [execute, if_neg (not_not.mpr h_accepted), h_node]
  rw [h_run, executeNodeChain] at h_time ⊢
  rw [mem_executeNodeRecursive (wellFounded_links h_accepted)
    (fun v h_v => absurd h_v List.not_mem_nil) h_time, h_node]
  simp

/-! ### Time -/

theorem share_le {remaining : ℚ} {n : ℕ} (k : ℕ) (h : remaining ≤ n + 1) :
    (remaining - 1) / (k + 1 : ℕ) ≤ n := by
  have h_left : remaining - 1 ≤ n := by linarith
  have h_pos : (0 : ℚ) < (k + 1 : ℕ) := by positivity
  rw [div_le_iff₀ h_pos]
  have h_n : (0 : ℚ) ≤ n := Nat.cast_nonneg n
  calc remaining - 1 ≤ n := h_left
    _ = n * 1 := (mul_one _).symm
    _ ≤ n * (k + 1 : ℕ) := by
      refine mul_le_mul_of_nonneg_left ?_ h_n
      exact_mod_cast Nat.succ_pos k

theorem executeNodeRecursive_fuel (k : ℕ) (h : remaining ≤ n) :
    flow.executeNodeRecursive out (n + k) id visited remaining =
      flow.executeNodeRecursive out n id visited remaining := by
  induction n generalizing id visited remaining with
  | zero =>
    have h_late : remaining ≤ 0 := by exact_mod_cast h
    cases k with
    | zero => rfl
    | succ k =>
      rw [Nat.zero_add]
      simp only [executeNodeRecursive, if_pos h_late]
  | succ n ih =>
    have h_succ : remaining ≤ n + 1 := by exact_mod_cast h
    have h_single : remaining - 1 ≤ n := by linarith
    rw [Nat.add_right_comm, executeNodeRecursive, executeNodeRecursive]
    split_ifs
    · rfl
    · rfl
    · split
      · rfl
      · split
        · rfl
        · rw [ih h_single]
        · rename_i next others _ _
          have h_branch : ∀ b ∈ next :: others,
              flow.executeNodeRecursive out (n + k) b [] ((remaining - 1) / (next :: others).length)
                = flow.executeNodeRecursive out n b []
                    ((remaining - 1) / (next :: others).length) :=
            fun b _ => ih (share_le others.length h_succ)
          simp only
          rw [List.map_congr_left h_branch]

theorem inTime_level {T : ℚ} (h_T : 0 ≤ T)
    (h_next : ∀ b ∈ flow.getNextNodes id (out id), ∀ (n : ℕ) (visited : List String)
      (remaining : ℚ), T ≤ remaining → remaining ≤ n →
        (flow.executeNodeRecursive out n b visited remaining).InTime)
    (h_enough : 1 + (flow.getNextNodes id (out id)).length * T < remaining)
    (h_fuel : remaining ≤ n) :
    (flow.executeNodeRecursive out n id visited remaining).InTime := by
  have h_product : 0 ≤ (flow.getNextNodes id (out id)).length * T := by positivity
  cases n with
  | zero =>
    have h_zero : remaining ≤ 0 := by exact_mod_cast h_fuel
    linarith
  | succ n =>
    have h_succ : remaining ≤ n + 1 := by exact_mod_cast h_fuel
    rw [executeNodeRecursive, if_neg (by linarith)]
    split_ifs
    · intro i h_i
      cases h_i
    · split
      · intro i h_i
        rw [List.mem_singleton] at h_i
        cases h_i
      · split
        · intro i h_i
          cases h_i
        · rename_i next h_nodes
          rw [h_nodes] at h_enough h_next
          simp only [List.length_singleton, Nat.cast_one, one_mul] at h_enough
          rw [ChainRun.inTime_after]
          exact h_next next (List.mem_singleton_self next) n _ _ (by linarith) (by linarith)
        · rename_i next others _ h_nodes
          rw [h_nodes] at h_enough h_next
          rw [ChainRun.inTime_after, ChainRun.inTime_join]
          intro run h_run
          obtain ⟨b, h_b, rfl⟩ := List.mem_map.mp h_run
          refine h_next b h_b n _ _ ?_ (share_le others.length h_succ)
          have h_pos : (0 : ℚ) < (next :: others).length := by
            exact_mod_cast Nat.succ_pos others.length
          rw [le_div_iff₀ h_pos, mul_comm]
          linarith

theorem wellFounded_flip_links (wf : WellFounded flow.Links) : WellFounded (flip flow.Links) :=
  Reach.wellFounded_flip wf flow.topologyItems.finite_toSet
    fun _ _ h_link => mem_topologyItems_of_links h_link

theorem exists_bound {ids : List String} {P : String → ℚ → Prop}
    (h : ∀ b ∈ ids, ∃ T, ∀ t, T ≤ t → P b t) :
    ∃ T, 0 ≤ T ∧ ∀ b ∈ ids, ∀ t, T ≤ t → P b t := by
  induction ids with
  | nil => exact ⟨0, le_rfl, fun b h_b => absurd h_b List.not_mem_nil⟩
  | cons id ids ih =>
    obtain ⟨T, h_T⟩ := h id List.mem_cons_self
    obtain ⟨T', h_nonneg, h_T'⟩ := ih fun b h_b => h b (List.mem_cons_of_mem id h_b)
    refine ⟨max T T', le_max_of_le_right h_nonneg, ?_⟩
    intro b h_b t h_t
    rcases List.mem_cons.mp h_b with rfl | h_rest
    · exact h_T t ((le_max_left T T').trans h_t)
    · exact h_T' b h_rest t ((le_max_right T T').trans h_t)

/-- **Time.** For every accepted flow there is a timeout from which on no node times out. -/
theorem exists_time (h_accepted : flow.validateFlow = []) (out : String → Output) (id : String) :
    ∃ T, ∀ remaining, T ≤ remaining → (flow.execute out id remaining).InTime := by
  have h_runs : ∃ T, ∀ remaining : ℚ, T ≤ remaining → ∀ (n : ℕ) (visited : List String),
      remaining ≤ n → (flow.executeNodeRecursive out n id visited remaining).InTime := by
    -- from the last nodes back to the start
    induction id using (wellFounded_flip_links (wellFounded_links h_accepted)).induction with
    | _ id ih =>
      have h_next : ∀ b ∈ flow.getNextNodes id (out id), ∃ T, ∀ remaining : ℚ, T ≤ remaining →
          ∀ (n : ℕ) (visited : List String), remaining ≤ n →
            (flow.executeNodeRecursive out n b visited remaining).InTime := by
        intro b h_b
        obtain ⟨e, h_e, h_source, _, _, h_target⟩ := mem_getNextNodes.mp h_b
        exact ih b ⟨e, h_e, h_source, h_target⟩
      obtain ⟨T, h_nonneg, h_T⟩ := exists_bound h_next
      refine ⟨1 + (flow.getNextNodes id (out id)).length * T + 1, ?_⟩
      intro remaining h_enough n visited h_fuel
      refine inTime_level h_nonneg ?_ (by linarith) h_fuel
      intro b h_b n visited remaining h_left h_fuel
      exact h_T b h_b remaining h_left n visited h_fuel
  obtain ⟨T, h_T⟩ := h_runs
  refine ⟨T, ?_⟩
  intro remaining h_left
  rw [execute, if_neg (not_not.mpr h_accepted)]
  split
  · intro i h_i
    rw [List.mem_singleton] at h_i
    cases h_i
  · exact h_T remaining h_left _ [] (Nat.le_ceil remaining)

end Flow

end OpsPilot
