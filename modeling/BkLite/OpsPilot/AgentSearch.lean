import BkLite.OpsPilot.Flow
import Mathlib.Data.Finset.Card

/-!
# The search for the agents node

Before a flow is streamed, `_find_agent_node_via_bfs` looks for the agents node in breadth-first
order. It goes along every edge, whatever the results of the nodes will be, and collects the nodes
it meets; at an intent node it stops with that node collected and no agents node.

The loop is given as many rounds as it can take: each round empties one place of the queue, and
the queue is filled by nodes that were not visited before (`search_stable`).
-/

namespace OpsPilot

structure Frontier where
  queue : List String
  visited : List String
  /-- The nodes collected so far (`path_nodes`). -/
  before : List Node
deriving DecidableEq

/-- The loop over the targets of one node returns from the search or goes on. -/
inductive Scan where
  | stop (agent : Option Node) (before : List Node)
  | go (frontier : Frontier)
deriving DecidableEq

namespace Flow

variable (flow : Flow)

/-- `next_node_ids`. -/
def outTargets (id : String) : List String :=
  (flow.edges.filter (·.source = id)).map (·.target)

/-- The loop over `next_node_ids`. -/
def scan : List String → Frontier → Scan
  | [], f => .go f
  | id :: ids, f =>
    if id ∈ f.visited then scan ids f
    else
      match flow.getNodeById id with
      | none => scan ids { f with visited := id :: f.visited }
      | some node =>
        if node.type = "intent_classification" then .stop none (f.before ++ [node])
        else if node.type = "agents" then .stop (some node) f.before
        else scan ids ⟨f.queue ++ [id], id :: f.visited, f.before ++ [node]⟩

def search : ℕ → Frontier → Option Node × List Node
  | 0, _ => (none, [])
  | n + 1, f =>
    match f.queue with
    -- nothing found: the collected nodes are dropped
    | [] => (none, [])
    | id :: queue =>
      match flow.scan (flow.outTargets id) { f with queue := queue } with
      | .stop agent before => (agent, before)
      | .go f' => search n f'

/-- `_find_agent_node_via_bfs`: the agents node, and the nodes collected before it. -/
def findAgentNodeViaBfs (start : Node) : Option Node × List Node :=
  flow.search (flow.edges.length + 1) ⟨[start.id], [start.id], []⟩

/-! ### The number of rounds -/

def unmet (f : Frontier) : Finset String :=
  (flow.edges.map (·.target)).toFinset \ f.visited.toFinset

def budget (f : Frontier) : ℕ := f.queue.length + (flow.unmet f).card

variable {flow} {f f' : Frontier} {id : String} {ids : List String} {n : ℕ}

theorem card_unmet_visit (h_target : id ∈ flow.edges.map (·.target)) (h_new : id ∉ f.visited)
    (queue : List String) (before : List Node) :
    (flow.unmet ⟨queue, id :: f.visited, before⟩).card + 1 = (flow.unmet f).card := by
  have h_erase : flow.unmet ⟨queue, id :: f.visited, before⟩ = (flow.unmet f).erase id := by
    ext x
    simp only [unmet, List.toFinset_cons, Finset.mem_sdiff, Finset.mem_insert, Finset.mem_erase]
    tauto
  have h_mem : id ∈ flow.unmet f := by
    refine Finset.mem_sdiff.mpr ⟨List.mem_toFinset.mpr h_target, ?_⟩
    intro h_visited
    exact h_new (List.mem_toFinset.mp h_visited)
  rw [h_erase]
  exact Finset.card_erase_add_one h_mem

theorem budget_scan (h_targets : ∀ id ∈ ids, id ∈ flow.edges.map (·.target))
    (h : flow.scan ids f = .go f') : flow.budget f' ≤ flow.budget f := by
  induction ids generalizing f with
  | nil =>
    cases h
    exact le_rfl
  | cons id ids ih =>
    have h_id := h_targets id List.mem_cons_self
    have h_ids : ∀ id ∈ ids, id ∈ flow.edges.map (·.target) :=
      fun id h_id => h_targets id (List.mem_cons_of_mem _ h_id)
    rw [scan] at h
    split at h
    · exact ih h_ids h
    · rename_i h_new
      split at h
      · -- a target without a node is met and not queued
        have h_card := card_unmet_visit h_id h_new f.queue f.before
        have h_rest := ih h_ids h
        simp only [budget] at h_rest ⊢
        omega
      · rename_i node _
        split at h
        · cases h
        · split at h
          · cases h
          · have h_card :=
              card_unmet_visit h_id h_new (f.queue ++ [id]) (f.before ++ [node])
            have h_rest := ih h_ids h
            simp only [budget, List.length_append, List.length_singleton] at h_rest ⊢
            omega

theorem outTargets_subset (id : String) :
    ∀ x ∈ flow.outTargets id, x ∈ flow.edges.map (·.target) := by
  intro x h_x
  obtain ⟨e, h_e, h_target⟩ := List.mem_map.mp h_x
  exact List.mem_map.mpr ⟨e, List.mem_of_mem_filter h_e, h_target⟩

theorem search_stable (n k : ℕ) (h : flow.budget f ≤ n) :
    flow.search (n + k) f = flow.search n f := by
  induction n generalizing f with
  | zero =>
    have h_queue : f.queue = [] := by
      refine List.length_eq_zero_iff.mp ?_
      simp only [budget] at h
      omega
    cases k with
    | zero => rfl
    | succ k =>
      rw [Nat.zero_add]
      simp only [search, h_queue]
  | succ n ih =>
    rw [Nat.add_right_comm, search, search]
    split
    · rfl
    · rename_i id queue h_queue
      split
      · rfl
      · rename_i f' h_scan
        refine ih ?_
        have h_le := budget_scan (outTargets_subset id) h_scan
        simp only [budget, h_queue, List.length_cons] at h h_le ⊢
        -- the budget of the shortened queue is one less
        have h_unmet : flow.unmet { f with queue := queue } = flow.unmet f := rfl
        rw [h_unmet] at h_le
        omega

theorem findAgentNodeViaBfs_stable (start : Node) (k : ℕ) :
    flow.search (flow.edges.length + 1 + k) ⟨[start.id], [start.id], []⟩ =
      flow.findAgentNodeViaBfs start := by
  refine search_stable _ k ?_
  have h_card : (flow.unmet ⟨[start.id], [start.id], []⟩).card ≤ flow.edges.length := by
    calc (flow.unmet ⟨[start.id], [start.id], []⟩).card
        ≤ (flow.edges.map (·.target)).toFinset.card := Finset.card_le_card Finset.sdiff_subset
      _ ≤ (flow.edges.map (·.target)).length := List.toFinset_card_le _
      _ = flow.edges.length := List.length_map _
  simp only [budget, List.length_singleton]
  omega

end Flow

end OpsPilot
