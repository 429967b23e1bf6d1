import BkLite.Cmdb.FullSync

/-!
# Whether one full sync is enough

After a full sync the edges satisfy the mapping, and every automatic edge joins a pair that an
enabled rule matches. But an assigned edge may be missing: it was not created because of an
automatic edge of a source whose turn came later, and in that turn this edge was deleted. The next
sync creates it.
-/

namespace Cmdb.AutoRelation

open Reconcile (Edge Blocks Satisfies Still Lost)

section Converged

variable (env : Env) (association : Association) (g : Graph)

def Matches (source target : Instance) : Prop :=
  ∃ rule ∈ association.enabledRules,
    sourceFieldsReady rule source ∧ matchesTarget env rule source target

def synced : Graph := (fullSyncRule env association.modelAsstId (some association) g).1

/-- The instances have different ids, an edge starts at an instance of the source model, and the
edges satisfy the mapping. -/
structure WellFormed : Prop where
  nodup : g.sourceIds.Nodup
  ends : ∀ e ∈ g.edges, e.src ∈ g.sourceIds
  satisfies : Satisfies association.mapping.limits g.edges

/-- One full sync is enough. -/
structure Converged : Prop where
  satisfies : Satisfies association.mapping.limits (synced env association g).edges
  matched : ∀ e ∈ (synced env association g).edges, e.auto →
    ∃ source ∈ g.sources, ∃ target ∈ g.targets, source.id = e.src ∧ target.id = e.dst ∧
      Matches env association source target
  joined : association.mapping = .manyToMany → ∀ source ∈ g.sources, ∀ target ∈ g.targets,
    Matches env association source target → ∃ e ∈ (synced env association g).edges,
      (e.src = source.id ∧ e.dst = target.id) ∨ (e.src = target.id ∧ e.dst = source.id)
  idle :
    (fullSyncRule env association.modelAsstId (some association)
      (synced env association g)).2.created = 0 ∧
    (fullSyncRule env association.modelAsstId (some association)
      (synced env association g)).2.deleted = 0

def Settles : Prop :=
  ∀ s ∈ g.sourceIds, ∀ t ∈ assignedTargets env association g s,
    ¬Lost association.mapping.limits (assignedTargets env association g) g.sourceIds g.edges s t

instance : Decidable (Settles env association g) :=
  inferInstanceAs (Decidable (∀ s ∈ _, ∀ t ∈ _, ¬Lost _ _ _ _ s t))

end Converged

variable {env : Env} {association : Association} {g : Graph} {s t : ℕ}

theorem mem_calculateDesiredTargetIds {source : Instance} {rules : List Rule}
    {targetInstances : List Instance} :
    t ∈ calculateDesiredTargetIds env source rules targetInstances ↔
      ∃ rule ∈ rules, sourceFieldsReady rule source ∧
        ∃ target ∈ targetInstances, matchesTarget env rule source target ∧ target.id = t := by
  rw [calculateDesiredTargetIds, Py.mem_fromKeys, List.mem_flatMap]
  refine exists_congr fun rule => and_congr_right fun _ => ?_
  split_ifs with h_ready
  · simp [h_ready, and_assoc]
  · simp [h_ready]

theorem matches_of_wanted (h : t ∈ wantedTargets env association g s) :
    ∃ source ∈ g.sources, ∃ target ∈ g.targets, source.id = s ∧ target.id = t ∧
      Matches env association source target := by
  obtain ⟨source, h_find, h_mem⟩ := mem_wantedTargets.mp h
  have h_id : source.id = s := by simpa using List.find?_some h_find
  rw [wantedOf] at h_mem
  split_ifs at h_mem
  · exact absurd h_mem List.not_mem_nil
  · obtain ⟨rule, h_rule, h_ready, target, h_target, h_matches, h_t⟩ :=
      mem_calculateDesiredTargetIds.mp h_mem
    exact ⟨source, List.mem_of_find?_eq_some h_find, target, h_target, h_id, h_t,
      rule, h_rule, h_ready, h_matches⟩

theorem assigned_of_matches (h_nodup : g.sourceIds.Nodup)
    (h_many : association.mapping = .manyToMany) {source target : Instance}
    (h_source : source ∈ g.sources) (h_target : target ∈ g.targets)
    (h : Matches env association source target) :
    target.id ∈ assignedTargets env association g source.id := by
  obtain ⟨rule, h_rule, h_ready, h_matches⟩ := h
  rw [mem_assignedTargets, wantedTargets_eq h_nodup h_source, wantedOf, h_many]
  refine ⟨?_, nofun⟩
  rw [if_neg (fun h_single => nomatch h_single.1)]
  exact mem_calculateDesiredTargetIds.mpr
    ⟨rule, h_rule, h_ready, target, h_target, h_matches, rfl⟩

/-! ### Without enabled rules -/

section Cleanup

variable (h_rules : association.enabledRules = [])
include h_rules

theorem fullSyncRule_of_nil {modelAsstId : String} (g : Graph) :
    (fullSyncRule env modelAsstId (some association) g).1.edges = g.edges.filter (!·.auto) ∧
    (fullSyncRule env modelAsstId (some association) g).2.created = 0 ∧
    (fullSyncRule env modelAsstId (some association) g).2.deleted =
      (g.edges.filter (·.auto)).length := by
  rw [fullSyncRule]
  simp only [if_pos h_rules, cleanupAutoEdgesByRule, and_self]

theorem converged_of_nil (h : WellFormed association g) : Converged env association g := by
  have h_edges : (synced env association g).edges = g.edges.filter (!·.auto) :=
    (fullSyncRule_of_nil h_rules g).1
  have h_manual : ∀ e ∈ (synced env association g).edges, ¬e.auto := by
    intro e h_mem
    rw [h_edges, List.mem_filter, Bool.not_eq_true'] at h_mem
    exact Bool.eq_false_iff.mp h_mem.2
  refine ⟨?_, ?_, ?_, ?_⟩
  · rw [h_edges]
    exact List.Pairwise.sublist List.filter_sublist h.satisfies
  · exact fun e h_mem h_auto => absurd h_auto (h_manual e h_mem)
  · rintro - source - target - ⟨rule, h_rule, -⟩
    rw [h_rules] at h_rule
    exact absurd h_rule List.not_mem_nil
  · obtain ⟨-, h_created, h_deleted⟩ :=
      @fullSyncRule_of_nil env association h_rules association.modelAsstId
        (synced env association g)
    refine ⟨h_created, ?_⟩
    rw [h_deleted, List.length_eq_zero_iff, List.filter_eq_nil_iff]
    exact h_manual

theorem settles_of_nil : Settles env association g := by
  intro s _ t h_t
  obtain ⟨source, -, target, -, -, -, rule, h_rule, -⟩ :=
    matches_of_wanted (mem_assignedTargets.mp h_t).1
  rw [h_rules] at h_rule
  exact absurd h_rule List.not_mem_nil

end Cleanup

/-! ### With enabled rules -/

section FullSync

variable (h_rules : association.enabledRules ≠ []) (h_nodup : g.sourceIds.Nodup)
include h_rules h_nodup

theorem fullSyncRule_of_ne {modelAsstId : String} :
    (fullSyncRule env modelAsstId (some association) g).1.edges =
      Reconcile.run association.mapping.limits (assignedTargets env association g) g.edges
        g.sourceIds ∧
    ((fullSyncRule env modelAsstId (some association) g).2.created = 0 ∧
      (fullSyncRule env modelAsstId (some association) g).2.deleted = 0 ↔
        Still association.mapping.limits (assignedTargets env association g) g.sourceIds
          g.edges) := by
  have h_tracked : Tracked env association g []
      (if association.mapping ∈ [.oneToMany, .oneToOne] then some fun _ => none else none) := by
    split_ifs with h_single
    · refine ⟨⟨fun _ => Mapping.dstSingle_iff.mpr h_single, fun _ => rfl⟩, ?_⟩
      rintro claims h_some t
      obtain rfl := Option.some.inj h_some
      rfl
    · exact ⟨⟨nofun, fun h => absurd (Mapping.dstSingle_iff.mp h) h_single⟩, nofun⟩
  let syncing : Syncing :=
    { edges := g.edges
      claims := if association.mapping ∈ [.oneToMany, .oneToOne] then some fun _ => none else none
      summary := ⟨modelAsstId, .fullSync, g.sources.length, 0, 0, 0, 0, true⟩ }
  obtain ⟨h_run, created, deleted, h_created, h_deleted, h_still⟩ :=
    @syncSources_run env association g h_nodup [] g.sources rfl syncing h_tracked
  simp only [fullSyncRule, if_neg h_rules]
  refine ⟨h_run, ?_⟩
  change _ = 0 + created at h_created
  change _ = 0 + deleted at h_deleted
  rw [Nat.zero_add] at h_created h_deleted
  change _ ↔ Still _ _ _ syncing.edges
  rw [Graph.sourceIds, ← h_still, ← h_created, ← h_deleted]

theorem synced_edges : (synced env association g).edges =
    Reconcile.run association.mapping.limits (assignedTargets env association g) g.edges
      g.sourceIds :=
  (fullSyncRule_of_ne h_rules h_nodup).1

omit h_rules h_nodup in
theorem synced_eq : synced env association g =
    { g with edges := (synced env association g).edges } := by
  by_cases h_rules : association.enabledRules = []
  · simp only [synced, fullSyncRule, if_pos h_rules]
  · simp only [synced, fullSyncRule, if_neg h_rules]

theorem idle_iff_settles (h_ends : ∀ e ∈ g.edges, e.src ∈ g.sourceIds) :
    ((fullSyncRule env association.modelAsstId (some association)
      (synced env association g)).2.created = 0 ∧
    (fullSyncRule env association.modelAsstId (some association)
      (synced env association g)).2.deleted = 0) ↔ Settles env association g := by
  rw [synced_eq, synced_edges h_rules h_nodup]
  set edges := Reconcile.run association.mapping.limits (assignedTargets env association g)
    g.edges g.sourceIds with h_edges
  have h_second := (@fullSyncRule_of_ne env association { g with edges := edges } h_rules h_nodup
    association.modelAsstId).2
  refine h_second.trans ?_
  change Still _ (assignedTargets env association g) g.sourceIds edges ↔ _
  rw [h_edges]
  exact (assignment env association g).still_run_iff h_nodup fun e h_mem _ => h_ends e h_mem

end FullSync

theorem WellFormed.synced (h : WellFormed association g) :
    WellFormed association (synced env association g) := by
  rw [synced_eq]
  by_cases h_rules : association.enabledRules = []
  · have h_edges : (AutoRelation.synced env association g).edges = g.edges.filter (!·.auto) :=
      (fullSyncRule_of_nil h_rules g).1
    rw [h_edges]
    refine ⟨h.nodup, fun e h_mem => h.ends e (List.mem_filter.mp h_mem).1, ?_⟩
    exact List.Pairwise.sublist List.filter_sublist h.satisfies
  · rw [synced_edges h_rules h.nodup]
    refine ⟨h.nodup, fun e h_mem => ?_, Reconcile.satisfies_run h.satisfies⟩
    obtain h_old | ⟨-, h_src, -⟩ := Reconcile.of_mem_run h_mem
    · exact h.ends e h_old
    · exact h_src

/-- **One full sync is enough iff no assigned edge is lost in it.** -/
theorem converged_iff (h : WellFormed association g) :
    Converged env association g ↔ Settles env association g := by
  by_cases h_rules : association.enabledRules = []
  · exact ⟨fun _ => settles_of_nil h_rules, fun _ => converged_of_nil h_rules h⟩
  refine ⟨fun h_converged => (idle_iff_settles h_rules h.nodup h.ends).mp h_converged.idle,
    fun h_settles => ⟨h.synced.satisfies, ?_, ?_,
      (idle_iff_settles h_rules h.nodup h.ends).mpr h_settles⟩⟩
  · intro e h_mem h_auto
    rw [synced_edges h_rules h.nodup] at h_mem
    have h_assigned := (assignment env association g).dst_mem (fun e h_e _ => h.ends e h_e)
      h_mem h_auto
    exact matches_of_wanted (mem_assignedTargets.mp h_assigned).1
  · intro h_many source h_source target h_target h_matches
    have h_assigned := assigned_of_matches h.nodup h_many h_source h_target h_matches
    -- what is in the way of an edge, where the mapping limits nothing, joins the same two
    have h_still := ((assignment env association g).still_run_iff h.nodup
      (fun e h_e _ => h.ends e h_e)).mpr h_settles
    obtain ⟨e, h_mem, h_blocks⟩ := h_still.adds source.id
      (List.mem_map.mpr ⟨source, h_source, rfl⟩) target.id h_assigned
    refine ⟨e, ?_, ?_⟩
    · rw [synced_edges h_rules h.nodup]
      exact h_mem
    rw [h_many] at h_blocks
    obtain h_same | h_back | ⟨h_single, -⟩ | ⟨h_single, -⟩ := h_blocks
    · exact .inl h_same
    · exact .inr h_back
    · cases h_single
    · cases h_single

def textEnv : Env where
  str value := match value with
    | .str s => s
    | _ => ""
  lower s := String.ofList (s.toList.map Char.toLower)
  iterate ids := ids
  iterate_perm ids := .refl ids

def byName : Association where
  modelAsstId := "app_contains_host"
  mapping := .oneToMany
  autoRelationRule := some [⟨true, [⟨"app", "app", .iexact⟩]⟩]

def twoApps (edges : List (Edge ℕ)) : Graph where
  sources := [⟨1, fun _ => .str "shop"⟩, ⟨2, fun _ => .str "mail"⟩]
  targets := [⟨11, fun _ => .str "Shop"⟩, ⟨12, fun _ => .str "mail"⟩, ⟨13, fun _ => .str "shop"⟩]
  edges := edges

/-- A host that the first application loses is gained by the second one, whose turn is later. -/
theorem converged_twoApps :
    WellFormed byName (twoApps [⟨1, 12, true⟩, ⟨1, 11, false⟩]) ∧
      Converged textEnv byName (twoApps [⟨1, 12, true⟩, ⟨1, 11, false⟩]) := by
  have h : WellFormed byName (twoApps [⟨1, 12, true⟩, ⟨1, 11, false⟩]) :=
    ⟨by decide, by decide, by decide⟩
  exact ⟨h, (converged_iff h).mpr (by decide)⟩

/-- A host that the second application loses is not gained by the first one. -/
theorem not_converged_twoApps :
    WellFormed byName (twoApps [⟨2, 11, true⟩]) ∧
      ¬Converged textEnv byName (twoApps [⟨2, 11, true⟩]) := by
  refine ⟨⟨by decide, by decide, by decide⟩, fun h => ?_⟩
  exact absurd h.idle.1 (by decide)

end Cmdb.AutoRelation
