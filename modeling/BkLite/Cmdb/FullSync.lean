import BkLite.Cmdb.AutoRelation

/-!
# A full sync is a reconciliation

A full sync reconciles the automatic edges with the assigned ones (`Reconcile`): the targets that
the rules ask for, but none where a source may have one target and the rules ask for several, and
each target by the first source that asks for it where a target may have one source
(`assignedTargets`). The loops of the service are the turns of the reconciliation, with the claims
as what the turns before have left (`Tracked`, `syncSources_run`).
-/

namespace Cmdb.AutoRelation

open Py
open Reconcile (Edge Limits Blocks Satisfies Still Lost Assignment)

def Mapping.limits : Mapping → Limits
  | .manyToMany => ⟨false, false⟩
  | .oneToMany => ⟨false, true⟩
  | .manyToOne => ⟨true, false⟩
  | .oneToOne => ⟨true, true⟩

theorem Mapping.srcSingle_iff {mapping : Mapping} :
    mapping.limits.srcSingle ↔ mapping ∈ [.manyToOne, .oneToOne] := by
  cases mapping <;> decide

theorem Mapping.dstSingle_iff {mapping : Mapping} :
    mapping.limits.dstSingle ↔ mapping ∈ [.oneToMany, .oneToOne] := by
  cases mapping <;> decide

/-! ### The edges of one source -/

section Creating

variable {mapping : Mapping} {edges : List (Edge ℕ)} {s t : ℕ}

theorem checkAssoMapping_eq_ok_iff {x : Unit} : checkAssoMapping mapping edges s t = .ok x ↔
    ∀ e ∈ edges,
      (mapping.limits.srcSingle → e.src ≠ s) ∧ (mapping.limits.dstSingle → e.dst ≠ t) := by
  cases mapping with
  | manyToMany => simp [checkAssoMapping, Mapping.limits]
  | oneToMany =>
    rw [checkAssoMapping]
    split_ifs with h
    · simpa [Mapping.limits] using h
    · simpa [Mapping.limits] using h
  | manyToOne =>
    rw [checkAssoMapping]
    split_ifs with h
    · simpa [Mapping.limits] using h
    · simpa [Mapping.limits] using h
  | oneToOne =>
    rw [checkAssoMapping]
    split_ifs with h_src h_dst
    · obtain ⟨e, h_mem, h_src⟩ := List.any_eq_true.mp h_src
      exact ⟨by rintro ⟨⟩,
        fun h => absurd (of_decide_eq_true h_src) ((h e h_mem).1 rfl)⟩
    · obtain ⟨e, h_mem, h_dst⟩ := List.any_eq_true.mp h_dst
      exact ⟨by rintro ⟨⟩,
        fun h => absurd (of_decide_eq_true h_dst) ((h e h_mem).2 rfl)⟩
    · refine ⟨fun _ e h_mem => ⟨fun _ h_eq => h_src ?_, fun _ h_eq => h_dst ?_⟩, fun _ => rfl⟩
      · exact List.any_eq_true.mpr ⟨e, h_mem, decide_eq_true h_eq⟩
      · exact List.any_eq_true.mpr ⟨e, h_mem, decide_eq_true h_eq⟩

theorem createEdge_eq_ok_iff {edges' : List (Edge ℕ)} : createEdge edges s t = .ok edges' ↔
    (∀ e ∈ edges, ¬((e.src = s ∧ e.dst = t) ∨ (e.src = t ∧ e.dst = s))) ∧
      edges' = edges ++ [⟨s, t, true⟩] := by
  rw [createEdge]
  split_ifs with h
  · obtain ⟨e, h_mem, h_joins⟩ := List.any_eq_true.mp h
    exact ⟨nofun, fun h_free => absurd (of_decide_eq_true h_joins) (h_free.1 e h_mem)⟩
  · rw [Except.ok.injEq, eq_comm, iff_and_self]
    exact fun _ e h_mem h_joins => h (List.any_eq_true.mpr ⟨e, h_mem, decide_eq_true h_joins⟩)

theorem create_eq_ok_iff {edges' : List (Edge ℕ)} :
    (checkAssoMapping mapping edges s t >>= fun _ => createEdge edges s t) = .ok edges' ↔
      (∀ e ∈ edges, ¬Blocks mapping.limits s t e) ∧ edges' = edges ++ [⟨s, t, true⟩] := by
  simp only [bind_eq_ok, checkAssoMapping_eq_ok_iff, createEdge_eq_ok_iff, Blocks]
  constructor
  · rintro ⟨-, h_check, h_create, h_eq⟩
    refine ⟨fun e h_mem => ?_, h_eq⟩
    rintro (h_same | h_back | ⟨h_single, h_src⟩ | ⟨h_single, h_dst⟩)
    · exact h_create e h_mem (.inl h_same)
    · exact h_create e h_mem (.inr h_back)
    · exact (h_check e h_mem).1 h_single h_src
    · exact (h_check e h_mem).2 h_single h_dst
  · rintro ⟨h_free, h_eq⟩
    refine ⟨(), fun e h_mem => ⟨fun h_single h_src => ?_, fun h_single h_dst => ?_⟩,
      fun e h_mem h_joins => ?_, h_eq⟩
    · exact h_free e h_mem (.inr (.inr (.inl ⟨h_single, h_src⟩)))
    · exact h_free e h_mem (.inr (.inr (.inr ⟨h_single, h_dst⟩)))
    · exact h_free e h_mem (h_joins.imp id .inl)

variable {creating : Creating}

theorem createMissing_cases (mapping : Mapping) (s t : ℕ) (creating : Creating) :
    (t ∈ creating.allExistingTargetIds ∧ createMissing mapping s creating t =
      { creating with skipped := creating.skipped + 1 }) ∨
    (t ∉ creating.allExistingTargetIds ∧ (∀ e ∈ creating.edges, ¬Blocks mapping.limits s t e) ∧
      createMissing mapping s creating t =
        { creating with
          edges := creating.edges ++ [⟨s, t, true⟩]
          allExistingTargetIds := creating.allExistingTargetIds ++ [t]
          created := creating.created + 1 }) ∨
    (t ∉ creating.allExistingTargetIds ∧ (∃ e ∈ creating.edges, Blocks mapping.limits s t e) ∧
      createMissing mapping s creating t =
        { creating with conflicts := creating.conflicts + 1 }) := by
  rw [createMissing]
  split_ifs with h_there
  · exact .inl ⟨h_there, rfl⟩
  · right
    split
    · rename_i edges' h_create
      obtain ⟨h_free, rfl⟩ := create_eq_ok_iff.mp h_create
      exact .inl ⟨h_there, h_free, rfl⟩
    · rename_i message h_create
      refine .inr ⟨h_there, ?_, rfl⟩
      by_contra h_blocked
      push Not at h_blocked
      rw [create_eq_ok_iff.mpr ⟨h_blocked, rfl⟩] at h_create
      cases h_create

theorem createMissing_edges
    (h : t ∈ creating.allExistingTargetIds → ∃ e ∈ creating.edges, e.src = s ∧ e.dst = t) :
    (createMissing mapping s creating t).edges =
      Reconcile.add mapping.limits s creating.edges t := by
  rw [Reconcile.add]
  obtain ⟨h_there, h_eq⟩ | ⟨-, h_free, h_eq⟩ | ⟨-, h_blocked, h_eq⟩ :=
    createMissing_cases mapping s t creating
  · obtain ⟨e, h_mem, h_joins⟩ := h h_there
    rw [h_eq, if_pos ⟨e, h_mem, .inl h_joins⟩]
  · rw [h_eq, if_neg]
    rintro ⟨e, h_mem, h_blocks⟩
    exact h_free e h_mem h_blocks
  · rw [h_eq, if_pos h_blocked]

theorem createMissing_created :
    (createMissing mapping s creating t).created + creating.edges.length =
      creating.created + (createMissing mapping s creating t).edges.length := by
  obtain ⟨-, h_eq⟩ | ⟨-, -, h_eq⟩ | ⟨-, -, h_eq⟩ :=
    createMissing_cases mapping s t creating
  · rw [h_eq]
  · rw [h_eq, List.length_append, List.length_singleton]
    exact Nat.add_right_comm _ _ _
  · rw [h_eq]

theorem createMissing_there {t' : ℕ}
    (h : t' ∈ creating.allExistingTargetIds → ∃ e ∈ creating.edges, e.src = s ∧ e.dst = t')
    (h_there : t' ∈ (createMissing mapping s creating t).allExistingTargetIds) :
    ∃ e ∈ (createMissing mapping s creating t).edges, e.src = s ∧ e.dst = t' := by
  obtain ⟨-, h_eq⟩ | ⟨-, -, h_eq⟩ | ⟨-, -, h_eq⟩ :=
    createMissing_cases mapping s t creating
  · rw [h_eq] at h_there ⊢
    exact h h_there
  · rw [h_eq] at h_there ⊢
    obtain h_old | h_new := List.mem_append.mp h_there
    · obtain ⟨e, h_mem, h_joins⟩ := h h_old
      exact ⟨e, List.mem_append_left _ h_mem, h_joins⟩
    · obtain rfl := List.mem_singleton.mp h_new
      exact ⟨_, List.mem_concat_self, rfl, rfl⟩
  · rw [h_eq] at h_there ⊢
    exact h h_there

variable {ts : List ℕ}

theorem createAll_edges (h : ∀ t ∈ ts, t ∈ creating.allExistingTargetIds →
      ∃ e ∈ creating.edges, e.src = s ∧ e.dst = t) :
    (ts.foldl (createMissing mapping s) creating).edges =
      ts.foldl (Reconcile.add mapping.limits s) creating.edges := by
  induction ts generalizing creating with
  | nil => rfl
  | cons t ts ih =>
    rw [List.foldl_cons, List.foldl_cons, ← createMissing_edges (h t List.mem_cons_self)]
    refine ih fun t' h_t' => createMissing_there ?_
    exact h t' (List.mem_cons_of_mem _ h_t')

theorem createAll_created :
    (ts.foldl (createMissing mapping s) creating).created + creating.edges.length =
      creating.created + (ts.foldl (createMissing mapping s) creating).edges.length := by
  induction ts generalizing creating with
  | nil => rfl
  | cons t ts ih =>
    have h_first : (createMissing mapping s creating t).created + creating.edges.length =
        creating.created + (createMissing mapping s creating t).edges.length :=
      createMissing_created
    rw [List.foldl_cons]
    have h_rest := @ih (createMissing mapping s creating t)
    omega

end Creating

section Source

variable {env : Env} {association : Association} {rules : List Rule}
  {targetInstances : List Instance} (edges : List (Edge ℕ)) {claims claims' : Option Claims}
  {source : Instance} {desired : List ℕ} {conflicts : ℕ}

theorem filter_stale (s : ℕ) (edges : List (Edge ℕ)) (desired : List ℕ) :
    edges.filter (· ∉ ((edges.filter (·.src = s)).filter (·.auto)).filter (·.dst ∉ desired)) =
      Reconcile.keep s (env.iterate desired) edges := by
  refine List.filter_congr fun e h_mem => ?_
  simp only [List.mem_filter, (env.iterate_perm desired).mem_iff, decide_eq_true_iff, h_mem,
    true_and, and_comm, and_assoc]

variable (h : filterDesiredTargets env association.mapping source.id
  (calculateDesiredTargetIds env source rules targetInstances) claims =
    (desired, conflicts, claims'))
include h

theorem reconcile_claims : (reconcileSourceInstance env association rules targetInstances edges
    claims source).claims = claims' := by
  simp only [reconcileSourceInstance, h]

theorem reconcile_edges : (reconcileSourceInstance env association rules targetInstances edges
    claims source).edges = (env.iterate desired).foldl
      (Reconcile.add association.mapping.limits source.id)
      (Reconcile.keep source.id (env.iterate desired) edges) := by
  simp only [reconcileSourceInstance, h]
  rw [createAll_edges, filter_stale]
  intro t h_t h_there
  obtain ⟨e, h_mem, rfl⟩ := List.mem_map.mp h_there
  have h_e := List.mem_filter.mp h_mem
  have h_desired := (env.iterate_perm desired).mem_iff.mp h_t
  refine ⟨e, List.mem_filter.mpr ⟨h_e.1, ?_⟩, of_decide_eq_true h_e.2, rfl⟩
  exact decide_eq_true fun h_stale => of_decide_eq_true (List.mem_filter.mp h_stale).2 h_desired

theorem reconcile_created : (reconcileSourceInstance env association rules targetInstances edges
      claims source).summary.created +
        (Reconcile.keep source.id (env.iterate desired) edges).length =
    (reconcileSourceInstance env association rules targetInstances edges
      claims source).edges.length := by
  simp only [reconcileSourceInstance, h]
  rw [← filter_stale]
  exact createAll_created.trans (Nat.zero_add _)

theorem reconcile_deleted : (reconcileSourceInstance env association rules targetInstances edges
      claims source).summary.deleted = 0 ↔
    Reconcile.keep source.id (env.iterate desired) edges = edges := by
  simp only [reconcileSourceInstance, h]
  rw [List.length_eq_zero_iff, ← filter_stale, List.filter_eq_self]
  constructor
  · intro h_none e _
    rw [h_none]
    exact decide_eq_true List.not_mem_nil
  · intro h_all
    refine List.eq_nil_iff_forall_not_mem.mpr fun e h_stale => ?_
    have h_mem := (List.mem_filter.mp (List.mem_filter.mp (List.mem_filter.mp h_stale).1).1).1
    exact of_decide_eq_true (h_all e h_mem) h_stale

theorem reconcile_idle : ((reconcileSourceInstance env association rules targetInstances edges
      claims source).summary.created = 0 ∧
    (reconcileSourceInstance env association rules targetInstances edges
      claims source).summary.deleted = 0) ↔
    Reconcile.keep source.id (env.iterate desired) edges = edges ∧
      (env.iterate desired).foldl
        (Reconcile.add association.mapping.limits source.id) edges = edges := by
  rw [reconcile_deleted edges h, and_comm]
  refine and_congr_right fun h_keep => ?_
  have h_created := reconcile_created edges h
  rw [reconcile_edges edges h, h_keep] at h_created
  rw [← Reconcile.length_adds_eq_iff]
  omega

end Source

/-! ### The assigned targets -/

section Assigned

variable (env : Env) (association : Association) (g : Graph)

def Graph.sourceIds (g : Graph) : List ℕ := g.sources.map (·.id)

def wantedOf (source : Instance) : List ℕ :=
  let desired := calculateDesiredTargetIds env source association.enabledRules g.targets
  if association.mapping.limits.srcSingle ∧ 1 < desired.length then [] else desired

def wantedTargets (src : ℕ) : List ℕ :=
  ((g.sources.find? (·.id = src)).map (wantedOf env association g)).getD []

/-- Of these the ones that no source before it asks for, if a target may have one source only. -/
def assignedTargets (src : ℕ) : List ℕ :=
  env.iterate (if association.mapping.limits.dstSingle then
    (env.iterate (wantedTargets env association g src)).filter fun dst =>
      ∀ src' ∈ g.sourceIds.takeWhile (· ≠ src), dst ∉ wantedTargets env association g src'
  else wantedTargets env association g src)

variable {env association g} {s s' t t' : ℕ}

theorem mem_assignedTargets : t ∈ assignedTargets env association g s ↔
    t ∈ wantedTargets env association g s ∧ (association.mapping.limits.dstSingle →
      ∀ s' ∈ g.sourceIds.takeWhile (· ≠ s), t ∉ wantedTargets env association g s') := by
  rw [assignedTargets, (env.iterate_perm _).mem_iff]
  split_ifs with h_single
  · rw [List.mem_filter, (env.iterate_perm _).mem_iff, decide_eq_true_iff]
    exact and_congr_right fun _ => ⟨fun h _ => h, fun h => h h_single⟩
  · exact ⟨fun h => ⟨h, fun h_s => absurd h_s h_single⟩, And.left⟩

theorem mem_wantedTargets : t ∈ wantedTargets env association g s ↔
    ∃ source, g.sources.find? (·.id = s) = some source ∧ t ∈ wantedOf env association g source := by
  rw [wantedTargets]
  cases h_find : g.sources.find? (·.id = s) with
  | none => simp
  | some source => simp

theorem mem_takeWhile_or {ids : List ℕ} (h : s ∈ ids) (h' : s' ∈ ids) (h_ne : s ≠ s') :
    s ∈ ids.takeWhile (· ≠ s') ∨ s' ∈ ids.takeWhile (· ≠ s) := by
  induction ids with
  | nil => exact absurd h List.not_mem_nil
  | cons id ids ih =>
    by_cases h_s : id = s
    · left
      rw [h_s, List.takeWhile_cons, if_pos (decide_eq_true h_ne)]
      exact List.mem_cons_self
    by_cases h_s' : id = s'
    · right
      rw [h_s', List.takeWhile_cons, if_pos (decide_eq_true h_ne.symm)]
      exact List.mem_cons_self
    · rw [List.takeWhile_cons, List.takeWhile_cons, if_pos (decide_eq_true h_s'),
        if_pos (decide_eq_true h_s)]
      have h_rest := (List.mem_cons.mp h).resolve_left (Ne.symm h_s)
      have h_rest' := (List.mem_cons.mp h').resolve_left (Ne.symm h_s')
      exact (ih h_rest h_rest').imp (List.mem_cons_of_mem _) (List.mem_cons_of_mem _)

theorem mem_sourceIds_of_wanted (h : t ∈ wantedTargets env association g s) : s ∈ g.sourceIds := by
  obtain ⟨source, h_find, -⟩ := mem_wantedTargets.mp h
  refine List.mem_map.mpr ⟨source, List.mem_of_find?_eq_some h_find, ?_⟩
  simpa using List.find?_some h_find

variable (env association g) in
def assignment : Assignment association.mapping.limits g.sourceIds where
  targets := assignedTargets env association g
  src_mem h := mem_sourceIds_of_wanted (mem_assignedTargets.mp h).1
  src_single h_single {s t t'} h h' := by
    obtain ⟨source, h_find, h_mem⟩ := mem_wantedTargets.mp (mem_assignedTargets.mp h).1
    obtain ⟨source', h_find', h_mem'⟩ := mem_wantedTargets.mp (mem_assignedTargets.mp h').1
    obtain rfl := Option.some.inj (h_find.symm.trans h_find')
    rw [wantedOf] at h_mem h_mem'
    split_ifs at h_mem h_mem' with h_many
    · exact absurd h_mem List.not_mem_nil
    · have h_length := not_lt.mp (not_and.mp h_many h_single)
      obtain ⟨i, h_i, rfl⟩ := List.getElem_of_mem h_mem
      obtain ⟨j, h_j, rfl⟩ := List.getElem_of_mem h_mem'
      obtain rfl : i = j := by omega
      rfl
  dst_single h_single {s s' t} h h' := by
    obtain ⟨h_mem, h_first⟩ := mem_assignedTargets.mp h
    obtain ⟨h_mem', h_first'⟩ := mem_assignedTargets.mp h'
    by_contra h_ne
    obtain h_before | h_before := mem_takeWhile_or (mem_sourceIds_of_wanted h_mem)
      (mem_sourceIds_of_wanted h_mem') h_ne
    · exact h_first' h_single s h_before h_mem
    · exact h_first h_single s' h_before h_mem'

end Assigned

/-! ### The claims -/

section Claims

variable {env : Env} {s t : ℕ} {claims : Claims} {filtered : Filtered} {ts : List ℕ}

theorem claimTarget_claims : (claimTarget s filtered t).claims =
    if (filtered.claims t).any (· ≠ s) then filtered.claims
    else Function.update filtered.claims t (some s) := by
  rw [claimTarget]
  split_ifs
  · rfl
  · rfl

theorem claimTarget_any (t' : ℕ) :
    ((claimTarget s filtered t).claims t').any (· ≠ s) = (filtered.claims t').any (· ≠ s) := by
  rw [claimTarget_claims]
  split_ifs with h_claimed
  · rfl
  · by_cases h_eq : t' = t
    · rw [h_eq, Function.update_self, Bool.eq_false_iff.mpr h_claimed]
      simp
    · rw [Function.update_of_ne h_eq]

theorem claimAll_targetIds : (ts.foldl (claimTarget s) filtered).targetIds =
    filtered.targetIds ++ ts.filter fun t => !(filtered.claims t).any (· ≠ s) := by
  induction ts generalizing filtered with
  | nil => exact (List.append_nil _).symm
  | cons t ts ih =>
    rw [List.foldl_cons, ih]
    simp only [claimTarget_any]
    cases h_claimed : (filtered.claims t).any (· ≠ s) with
    | true =>
      rw [List.filter_cons_of_neg (by simp only [h_claimed]; decide), claimTarget,
        if_pos h_claimed]
    | false =>
      rw [List.filter_cons_of_pos (by simp only [h_claimed]; decide), claimTarget,
        if_neg (by simp only [h_claimed]; decide)]
      exact List.append_assoc _ _ _

theorem claimAll_claims (t' : ℕ) : (ts.foldl (claimTarget s) filtered).claims t' =
    if t' ∈ ts ∧ ¬(filtered.claims t').any (· ≠ s) then some s else filtered.claims t' := by
  induction ts generalizing filtered with
  | nil => rw [if_neg (fun h => List.not_mem_nil h.1), List.foldl_nil]
  | cons t ts ih =>
    rw [List.foldl_cons, ih, claimTarget_any]
    by_cases h_other : (filtered.claims t').any (· ≠ s)
    · rw [if_neg fun h => h.2 h_other, if_neg fun h => h.2 h_other, claimTarget_claims]
      split_ifs with h_claimed
      · rfl
      · rw [Function.update_of_ne]
        rintro rfl
        exact h_claimed h_other
    · by_cases h_mem : t' ∈ ts
      · rw [if_pos ⟨h_mem, h_other⟩, if_pos ⟨List.mem_cons_of_mem _ h_mem, h_other⟩]
      · rw [if_neg fun h => h_mem h.1]
        by_cases h_eq : t' = t
        · subst h_eq
          rw [if_pos ⟨List.mem_cons_self, h_other⟩, claimTarget_claims, if_neg h_other,
            Function.update_self]
        · rw [if_neg fun h => (List.mem_cons.mp h.1).elim h_eq h_mem, claimTarget_claims]
          split_ifs
          · rfl
          · exact Function.update_of_ne h_eq _ _

variable (env) (association : Association) (g : Graph)

def Claimed (pre : List Instance) (claims : Claims) : Prop :=
  ∀ t, claims t = (pre.find? fun source => t ∈ wantedOf env association g source).map (·.id)

variable {env association g} {pre post : List Instance} {source : Instance}

theorem Claimed.any_iff (h : Claimed env association g pre claims)
    (h_new : ∀ source' ∈ pre, source'.id ≠ source.id) :
    (claims t).any (· ≠ source.id) ↔ ∃ source' ∈ pre, t ∈ wantedOf env association g source' := by
  rw [h t]
  cases h_find : pre.find? fun source => t ∈ wantedOf env association g source with
  | none =>
    rw [List.find?_eq_none] at h_find
    refine ⟨nofun, fun ⟨source', h_mem, h_wanted⟩ => ?_⟩
    exact absurd (decide_eq_true h_wanted) (h_find source' h_mem)
  | some source' =>
    have h_mem := List.mem_of_find?_eq_some h_find
    refine ⟨fun _ => ⟨source', h_mem, ?_⟩, fun _ => ?_⟩
    · simpa using List.find?_some h_find
    · exact decide_eq_true (h_new source' h_mem)

theorem Claimed.concat_of_nil (h : Claimed env association g pre claims)
    (h_nil : wantedOf env association g source = []) :
    Claimed env association g (pre ++ [source]) claims := by
  intro t
  rw [h t, List.find?_append, List.find?_singleton, h_nil]
  simp

theorem Claimed.concat {conflicts : ℕ} (h : Claimed env association g pre claims)
    (h_new : ∀ source' ∈ pre, source'.id ≠ source.id)
    (h_ts : ∀ t, t ∈ ts ↔ t ∈ wantedOf env association g source) :
    Claimed env association g (pre ++ [source])
      (ts.foldl (claimTarget source.id) ⟨[], conflicts, claims⟩).claims := by
  intro t
  rw [claimAll_claims, List.find?_append, List.find?_singleton]
  have h_first := h t
  by_cases h_other : (claims t).any (· ≠ source.id)
  · rw [if_neg fun h => h.2 h_other]
    cases h_find : pre.find? fun source => t ∈ wantedOf env association g source with
    | none =>
      rw [h_find] at h_first
      rw [h_first] at h_other
      cases h_other
    | some source' =>
      rw [h_find] at h_first
      exact h_first
  · have h_none : (pre.find? fun source => t ∈ wantedOf env association g source) = none := by
      rw [List.find?_eq_none]
      intro source' h_mem h_wanted
      exact h_other ((h.any_iff h_new).mpr ⟨source', h_mem, of_decide_eq_true h_wanted⟩)
    rw [h_none] at h_first ⊢
    by_cases h_mem : t ∈ ts
    · rw [if_pos ⟨h_mem, h_other⟩, if_pos (decide_eq_true ((h_ts t).mp h_mem))]
      rfl
    · have h_unwanted : ¬decide (t ∈ wantedOf env association g source) = true :=
        fun h_wanted => h_mem ((h_ts t).mpr (of_decide_eq_true h_wanted))
      rw [if_neg fun h => h_mem h.1, if_neg h_unwanted]
      exact h_first

/-- The claims are there iff a target may have one source only. -/
structure Tracked (env : Env) (association : Association) (g : Graph) (pre : List Instance)
    (targetClaims : Option Claims) : Prop where
  isSome : targetClaims.isSome ↔ association.mapping.limits.dstSingle
  claimed : ∀ claims ∈ targetClaims, Claimed env association g pre claims

theorem filter_cases (env : Env) (mapping : Mapping) (src : ℕ) (desired : List ℕ)
    (targetClaims : Option Claims) :
    ((desired = [] ∨ (mapping.limits.srcSingle ∧ 1 < desired.length)) ∧ ∃ conflicts,
      filterDesiredTargets env mapping src desired targetClaims = ([], conflicts, targetClaims)) ∨
    (¬(mapping.limits.srcSingle ∧ 1 < desired.length) ∧
      (targetClaims = none ∨ ¬mapping.limits.dstSingle) ∧
      filterDesiredTargets env mapping src desired targetClaims = (desired, 0, targetClaims)) ∨
    (¬(mapping.limits.srcSingle ∧ 1 < desired.length) ∧ mapping.limits.dstSingle ∧ ∃ claims,
      targetClaims = some claims ∧
      filterDesiredTargets env mapping src desired targetClaims =
        (((env.iterate desired).foldl (claimTarget src) ⟨[], 0, claims⟩).targetIds,
          ((env.iterate desired).foldl (claimTarget src) ⟨[], 0, claims⟩).conflicts,
          some ((env.iterate desired).foldl (claimTarget src) ⟨[], 0, claims⟩).claims)) := by
  rw [Mapping.srcSingle_iff, Mapping.dstSingle_iff]
  unfold filterDesiredTargets
  by_cases h_empty : desired = []
  · left
    rw [if_pos h_empty, h_empty]
    exact ⟨.inl rfl, 0, rfl⟩
  rw [if_neg h_empty]
  by_cases h_many : mapping ∈ [.manyToOne, .oneToOne] ∧ 1 < desired.length
  · rw [if_pos h_many]
    exact .inl ⟨.inr h_many, 1, rfl⟩
  right
  rw [if_neg h_many]
  cases targetClaims with
  | none => exact .inl ⟨h_many, .inl rfl, rfl⟩
  | some claims =>
    by_cases h_single : mapping ∈ [.oneToMany, .oneToOne]
    · exact .inr ⟨h_many, h_single, claims, rfl, if_pos h_single⟩
    · exact .inl ⟨h_many, .inr h_single, if_neg h_single⟩

section Turn

variable (h_nodup : g.sourceIds.Nodup) (h_split : g.sources = pre ++ source :: post)
include h_nodup h_split

theorem id_ne_of_mem : ∀ source' ∈ pre, source'.id ≠ source.id := by
  intro source' h_mem h_eq
  rw [Graph.sourceIds, h_split, List.map_append, List.map_cons] at h_nodup
  refine List.disjoint_of_nodup_append h_nodup (List.mem_map.mpr ⟨source', h_mem, h_eq⟩) ?_
  exact List.mem_cons_self

omit h_split in
theorem wantedTargets_eq (h_mem : source ∈ g.sources) :
    wantedTargets env association g source.id = wantedOf env association g source := by
  obtain ⟨pre, post, h_split⟩ := List.append_of_mem h_mem
  have h_find : g.sources.find? (·.id = source.id) = some source := by
    have h_none : pre.find? (·.id = source.id) = none := by
      rw [List.find?_eq_none]
      exact fun source' h_mem h_eq =>
        id_ne_of_mem h_nodup h_split source' h_mem (of_decide_eq_true h_eq)
    have h_own : (source :: post).find? (·.id = source.id) = some source :=
      List.find?_cons_of_pos (decide_eq_true rfl)
    rw [h_split, List.find?_append, h_none, h_own]
    rfl
  rw [wantedTargets, h_find]
  rfl

theorem takeWhile_sourceIds : g.sourceIds.takeWhile (· ≠ source.id) = pre.map (·.id) := by
  rw [Graph.sourceIds, h_split, List.map_append, List.takeWhile_append_of_pos, List.map_cons,
    List.takeWhile_cons_of_neg, List.append_nil]
  · simp
  · intro id h_mem
    obtain ⟨source', h_mem', rfl⟩ := List.mem_map.mp h_mem
    exact decide_eq_true (id_ne_of_mem h_nodup h_split source' h_mem')

theorem filter_eq {targetClaims : Option Claims} (h : Tracked env association g pre targetClaims) :
    ∃ desired conflicts targetClaims',
      filterDesiredTargets env association.mapping source.id
        (calculateDesiredTargetIds env source association.enabledRules g.targets) targetClaims =
          (desired, conflicts, targetClaims') ∧
      env.iterate desired = assignedTargets env association g source.id ∧
      Tracked env association g (pre ++ [source]) targetClaims' := by
  have h_wanted : wantedTargets env association g source.id = wantedOf env association g source :=
    wantedTargets_eq h_nodup (h_split ▸ List.mem_append_right _ List.mem_cons_self)
  have h_new := id_ne_of_mem h_nodup h_split
  have h_nil : wantedOf env association g source = [] →
      env.iterate [] = assignedTargets env association g source.id ∧
        Tracked env association g (pre ++ [source]) targetClaims := by
    intro h_nil
    refine ⟨?_, h.isSome, fun claims h_mem => (h.claimed claims h_mem).concat_of_nil h_nil⟩
    rw [assignedTargets, h_wanted, h_nil, (env.iterate_perm []).eq_nil, List.filter_nil, ite_self]
    exact (env.iterate_perm []).eq_nil.symm
  obtain ⟨h_none, conflicts, h_filter⟩ | ⟨h_few, h_free, h_filter⟩ |
      ⟨h_few, h_single, claims, rfl, h_filter⟩ :=
    filter_cases env association.mapping source.id
      (calculateDesiredTargetIds env source association.enabledRules g.targets) targetClaims
  · refine ⟨[], conflicts, targetClaims, h_filter, h_nil ?_⟩
    rw [wantedOf]
    split_ifs with h_many
    · rfl
    · exact h_none.resolve_right h_many
  · have h_single : ¬association.mapping.limits.dstSingle := by
      intro h_single
      obtain rfl | h_not := h_free
      · cases h.isSome.mpr h_single
      · exact h_not h_single
    refine ⟨_, 0, targetClaims, h_filter, ?_, h.isSome, fun claims h_some => ?_⟩
    · rw [assignedTargets, if_neg h_single, h_wanted, wantedOf, if_neg h_few]
    · exact absurd (h.isSome.mp (Option.isSome_iff_exists.mpr ⟨claims, h_some⟩)) h_single
  · have h_of : wantedOf env association g source =
        calculateDesiredTargetIds env source association.enabledRules g.targets := if_neg h_few
    have h_claimed := h.claimed claims rfl
    rw [← h_of] at h_filter ⊢
    refine ⟨_, _, _, h_filter, ?_, ⟨fun _ => h_single, fun _ => rfl⟩, ?_⟩
    · rw [assignedTargets, if_pos h_single, h_wanted, takeWhile_sourceIds h_nodup h_split,
        claimAll_targetIds, List.nil_append]
      congr 1
      refine List.filter_congr fun t _ => ?_
      rw [Bool.eq_iff_iff, Bool.not_eq_true', Bool.eq_false_iff, Ne, h_claimed.any_iff h_new,
        decide_eq_true_iff, not_exists, List.forall_mem_map]
      refine forall_congr' fun source' => ?_
      rw [not_and]
      refine forall_congr' fun h_mem => ?_
      rw [wantedTargets_eq h_nodup (h_split ▸ List.mem_append_left _ h_mem)]
    · rintro claims' h_some
      obtain rfl := Option.some.inj h_some
      exact h_claimed.concat h_new fun t => (env.iterate_perm _).mem_iff

end Turn

end Claims

/-! ### The run -/

section Run

variable {env : Env} {association : Association} {g : Graph} (h_nodup : g.sourceIds.Nodup)
include h_nodup

theorem syncSources_run {pre post : List Instance} (h_split : g.sources = pre ++ post)
    {syncing : Syncing} (h : Tracked env association g pre syncing.claims) :
    (post.foldl (syncSource env association association.enabledRules g.targets) syncing).edges =
      Reconcile.run association.mapping.limits (assignedTargets env association g) syncing.edges
        (post.map (·.id)) ∧
    ∃ created deleted,
      (post.foldl (syncSource env association association.enabledRules g.targets)
        syncing).summary.created = syncing.summary.created + created ∧
      (post.foldl (syncSource env association association.enabledRules g.targets)
        syncing).summary.deleted = syncing.summary.deleted + deleted ∧
      (created = 0 ∧ deleted = 0 ↔ Still association.mapping.limits
        (assignedTargets env association g) (post.map (·.id)) syncing.edges) := by
  induction post generalizing pre syncing with
  | nil => exact ⟨rfl, 0, 0, rfl, rfl, fun _ => Reconcile.still_nil, fun _ => ⟨rfl, rfl⟩⟩
  | cons source post ih =>
    obtain ⟨desired, conflicts, targetClaims, h_filter, h_targets, h_tracked⟩ :=
      filter_eq h_nodup h_split h
    have h_edges := reconcile_edges syncing.edges h_filter
    have h_idle := reconcile_idle syncing.edges h_filter
    rw [h_targets] at h_edges h_idle
    rw [List.append_cons] at h_split
    rw [← reconcile_claims syncing.edges h_filter] at h_tracked
    obtain ⟨h_run, created, deleted, h_created, h_deleted, h_still⟩ :=
      @ih (pre ++ [source]) h_split
        (syncSource env association association.enabledRules g.targets syncing source) h_tracked
    set item := reconcileSourceInstance env association association.enabledRules g.targets
      syncing.edges syncing.claims source
    refine ⟨?_, item.summary.created + created, item.summary.deleted + deleted, ?_, ?_, ?_⟩
    · rw [List.foldl_cons, h_run]
      change Reconcile.run _ _ item.edges _ = _
      rw [h_edges]
      rfl
    · rw [List.foldl_cons, h_created]
      exact Nat.add_assoc _ _ _
    · rw [List.foldl_cons, h_deleted]
      exact Nat.add_assoc _ _ _
    · change _ ↔ Still _ _ _ item.edges at h_still
      rw [List.map_cons, Reconcile.still_cons_iff, ← and_assoc, ← h_idle]
      -- a turn in which nothing is created or deleted leaves the edges as they are
      have h_same : item.summary.created = 0 ∧ item.summary.deleted = 0 →
          item.edges = syncing.edges := by
        intro h_item
        obtain ⟨h_keep, h_adds⟩ := h_idle.mp h_item
        rw [h_edges, h_keep, h_adds]
      constructor
      · intro h_zero
        have h_item : item.summary.created = 0 ∧ item.summary.deleted = 0 := by omega
        refine ⟨h_item, ?_⟩
        rw [← h_same h_item]
        exact h_still.mp (by omega)
      · rintro ⟨h_item, h_rest⟩
        rw [← h_same h_item, ← h_still] at h_rest
        omega

end Run

end Cmdb.AutoRelation
