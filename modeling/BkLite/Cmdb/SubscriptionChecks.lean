import BkLite.Cmdb.Subscription
import BkLite.Framework.Runs

/-!
# What the checks of a subscription report

The world changes in any way between two checks. A check is `Exact` if what it has found is the
difference between the world of the previous check and the world it sees, and the changes of watched
fields that were recorded since then.
-/

namespace Cmdb.Subscription

open Py (fromKeys mem_fromKeys nodup_fromKeys)

/-! ### The worlds of two checks -/

def World.ids (w : World) : List ℕ := w.instances.map (·.id)

def World.Associated (w : World) (relatedModel : String) (instId relatedId : ℕ) : Prop :=
  instId ∈ w.ids ∧ ∃ ids, w.related relatedModel instId = some ids ∧ relatedId ∈ ids

def World.Answers (w : World) : Prop := ∀ relatedModel instId, w.related relatedModel instId ≠ none

def Rule.watchedModels (rule : Rule) : List String :=
  (normalizeRelationChangeModels rule.relationChange).map (·.relatedModel)

/-- A record of the window, about an instance that is or was matched. -/
def Recorded (rule : Rule) (old new : World) (last checkpoint : ℤ) (record : ChangeRecord) : Prop :=
  record ∈ new.records ∧ record.modelId = rule.modelId ∧
    record.type ∈ [ChangeType.updateInst, .createInst, .deleteInst] ∧
    (record.instId ∈ new.ids ∨ record.instId ∈ old.ids) ∧
    last < record.createdAt ∧ record.createdAt ≤ checkpoint

/-- What is to be told of an instance. -/
inductive Change (env : Env) (rule : Rule) (old new : World) (last checkpoint : ℤ) (instId : ℕ) :
    String → Prop
  | entered (h_new : instId ∈ new.ids) (h_old : instId ∉ old.ids) :
    Change env rule old new last checkpoint instId enteredSummary
  | left (h_old : instId ∈ old.ids) (h_new : instId ∉ new.ids) :
    Change env rule old new last checkpoint instId leftSummary
  | field {record : ChangeRecord} {summary : String}
    (h_recorded : Recorded rule old new last checkpoint record) (h_inst : record.instId = instId)
    (h_summary : watchedSummary env rule.fields record = some summary) :
    Change env rule old new last checkpoint instId summary

def Told (entries : List Merged) (instId : ℕ) (part : String) : Prop :=
  ∃ merged ∈ entries, merged.instId = instId ∧ part ∈ merged.parts

/-- What a check has found is what has happened since the previous one. -/
structure Exact (env : Env) (rule : Rule) (old new : World) (last checkpoint : ℤ)
    (found : Detection) : Prop where
  attributes : ∀ instId part,
    Told found.attributes instId part ↔ Change env rule old new last checkpoint instId part
  added : ∀ relatedModel instId relatedId,
    (∃ change ∈ found.relations, change.relatedModel = relatedModel ∧ change.instId = instId ∧
        relatedId ∈ change.added) ↔
      relatedModel ∈ rule.watchedModels ∧ new.Associated relatedModel instId relatedId ∧
        ¬old.Associated relatedModel instId relatedId
  removed : ∀ relatedModel instId relatedId,
    (∃ change ∈ found.relations, change.relatedModel = relatedModel ∧ change.instId = instId ∧
        relatedId ∈ change.removed) ↔
      relatedModel ∈ rule.watchedModels ∧ old.Associated relatedModel instId relatedId ∧
        ¬new.Associated relatedModel instId relatedId
  one_attributes : (found.attributes.map (·.instId)).Nodup
  one_relations : (found.relations.map fun change => (change.relatedModel, change.instId)).Nodup

/-! ### Merging -/

section Merging

variable {entries : List Merged} {instId i : ℕ} {instName : Py.Value} {part p : String}

theorem Merged.mem_add {merged : Merged} (h_part : part ≠ "") :
    p ∈ (merged.add instName part).parts ↔ p ∈ merged.parts ∨ p = part := by
  rw [Merged.add]
  dsimp only
  split_ifs with h_new
  · rw [List.mem_append, List.mem_singleton]
  · have h_there : part ∈ merged.parts := by
      by_contra h_not
      exact h_new ⟨h_part, h_not⟩
    constructor
    · exact .inl
    · rintro (h | rfl)
      · exact h
      · exact h_there

theorem mergeAttributeSummary_of_mem (h : instId ∈ entries.map (·.instId)) :
    mergeAttributeSummary entries instId instName part = entries.map fun merged =>
      if merged.instId = instId then merged.add instName part else merged := by
  rw [mergeAttributeSummary, if_pos]
  simpa using h

theorem mergeAttributeSummary_of_notMem (h : instId ∉ entries.map (·.instId)) :
    mergeAttributeSummary entries instId instName part =
      entries ++ [Merged.add ⟨instId, instName, []⟩ instName part] := by
  rw [mergeAttributeSummary, if_neg]
  simpa using h

theorem told_merge (h_part : part ≠ "") :
    Told (mergeAttributeSummary entries instId instName part) i p ↔
      Told entries i p ∨ i = instId ∧ p = part := by
  by_cases h_mem : instId ∈ entries.map (·.instId)
  · rw [mergeAttributeSummary_of_mem h_mem]
    constructor
    · rintro ⟨_, h_entry, h_inst, h_p⟩
      obtain ⟨merged, h_merged, rfl⟩ := List.mem_map.mp h_entry
      split_ifs at h_inst h_p with h_here
      · obtain h_p | rfl := (Merged.mem_add h_part).mp h_p
        · exact .inl ⟨merged, h_merged, h_inst, h_p⟩
        · exact .inr ⟨h_inst.symm.trans h_here, rfl⟩
      · exact .inl ⟨merged, h_merged, h_inst, h_p⟩
    · rintro (⟨merged, h_merged, h_inst, h_p⟩ | ⟨rfl, rfl⟩)
      · refine ⟨_, List.mem_map_of_mem h_merged, ?_⟩
        split_ifs
        · exact ⟨h_inst, (Merged.mem_add h_part).mpr (.inl h_p)⟩
        · exact ⟨h_inst, h_p⟩
      · obtain ⟨merged, h_merged, h_inst⟩ := List.mem_map.mp h_mem
        refine ⟨_, List.mem_map_of_mem h_merged, ?_⟩
        rw [if_pos h_inst]
        exact ⟨h_inst, (Merged.mem_add h_part).mpr (.inr rfl)⟩
  · rw [mergeAttributeSummary_of_notMem h_mem]
    constructor
    · rintro ⟨merged, h_merged, h_inst, h_p⟩
      obtain h_merged | h_merged := List.mem_append.mp h_merged
      · exact .inl ⟨merged, h_merged, h_inst, h_p⟩
      · obtain rfl := List.mem_singleton.mp h_merged
        obtain h_p | rfl := (Merged.mem_add h_part).mp h_p
        · exact absurd h_p List.not_mem_nil
        · exact .inr ⟨h_inst.symm, rfl⟩
    · rintro (⟨merged, h_merged, h_inst, h_p⟩ | ⟨rfl, rfl⟩)
      · exact ⟨merged, List.mem_append_left _ h_merged, h_inst, h_p⟩
      · exact ⟨_, List.mem_append_right _ (List.mem_singleton_self _), rfl,
          (Merged.mem_add h_part).mpr (.inr rfl)⟩

theorem nodup_merge (h : (entries.map (·.instId)).Nodup) :
    ((mergeAttributeSummary entries instId instName part).map (·.instId)).Nodup := by
  by_cases h_mem : instId ∈ entries.map (·.instId)
  · rw [mergeAttributeSummary_of_mem h_mem, List.map_map]
    have h_ids : (fun merged : Merged => merged.instId) ∘ (fun merged =>
        if merged.instId = instId then merged.add instName part else merged) = (·.instId) := by
      funext merged
      rw [Function.comp_apply]
      split_ifs <;> rfl
    rwa [h_ids]
  · rw [mergeAttributeSummary_of_notMem h_mem, List.map_append]
    exact List.nodup_append_comm.mp (List.nodup_cons.mpr ⟨h_mem, h⟩)

theorem told_foldl {β : Type*} {f : List Merged → β → List Merged} {N : β → ℕ → String → Prop}
    (h : ∀ entries b i p, Told (f entries b) i p ↔ Told entries i p ∨ N b i p) (bs : List β)
    (entries : List Merged) :
    Told (bs.foldl f entries) i p ↔ Told entries i p ∨ ∃ b ∈ bs, N b i p := by
  induction bs generalizing entries with
  | nil => simp
  | cons b bs ih =>
    rw [List.foldl_cons, ih, h]
    simp only [List.mem_cons, exists_eq_or_imp, or_assoc]

theorem nodup_foldl {β : Type*} {f : List Merged → β → List Merged}
    (h : ∀ entries b, (entries.map (·.instId)).Nodup → ((f entries b).map (·.instId)).Nodup)
    (bs : List β) {entries : List Merged} (h_nodup : (entries.map (·.instId)).Nodup) :
    ((bs.foldl f entries).map (·.instId)).Nodup := by
  induction bs generalizing entries with
  | nil => exact h_nodup
  | cons b bs ih => exact ih (h entries b h_nodup)

end Merging

/-! ### Attribute changes -/

section Attributes

variable {env : Env} {rule : Rule} {state : RuleState} {old new : World} {last checkpoint : ℤ}
  {record : ChangeRecord} {summary : String} {i : ℕ} {p : String}

theorem mem_windowRecords {records : List ChangeRecord} {modelId : String} {instIds : List ℕ} :
    record ∈ windowRecords records modelId instIds last checkpoint ↔
      record ∈ records ∧ record.modelId = modelId ∧
        record.type ∈ [ChangeType.updateInst, .createInst, .deleteInst] ∧
        record.instId ∈ instIds ∧ last < record.createdAt ∧ record.createdAt ≤ checkpoint := by
  rw [windowRecords, List.mem_mergeSort, List.mem_filter, decide_eq_true_iff]

theorem watchedSummary_ne_empty {fields : List String}
    (h : watchedSummary env fields record = some summary) : summary ≠ "" := by
  rw [watchedSummary, changeSummary] at h
  split_ifs at h
  rintro rfl
  -- the text begins with `字段变化: `
  have h_length := congrArg String.length (Option.some.inj h)
  simp only [String.length_append, String.length_empty] at h_length
  have h_begin : "字段变化: ".length = 6 := by decide
  omega

theorem mem_window (h_ids : ∀ i, i ∈ state.snapshot.instances ↔ i ∈ old.ids) :
    record ∈ windowRecords new.records rule.modelId
        (sortedIds (new.instances.map (·.id) ++ state.snapshot.instances)) last checkpoint ↔
      Recorded rule old new last checkpoint record := by
  rw [mem_windowRecords, mem_sortedIds, List.mem_append, h_ids]
  rfl

theorem told_checkAttributeChange (h_fields : rule.fields ≠ [])
    (h_ids : ∀ i, i ∈ state.snapshot.instances ↔ i ∈ old.ids)
    (h_last : state.lastCheckTime.getD rule.createdAt = last)
    (h_recorded : ∃ record, Recorded rule old new last checkpoint record) :
    Told (checkAttributeChange env rule state new checkpoint) i p ↔
      Change env rule old new last checkpoint i p := by
  obtain ⟨found, h_found⟩ := h_recorded
  have h_some : windowRecords new.records rule.modelId
      (sortedIds (new.instances.map (·.id) ++ state.snapshot.instances)) last checkpoint ≠ [] :=
    List.ne_nil_of_mem ((mem_window h_ids).mpr h_found)
  rw [checkAttributeChange, if_neg h_fields]
  dsimp only
  rw [h_last, if_neg h_some,
    told_foldl (N := fun record i p => record.instId = i ∧
      watchedSummary env rule.fields record = some p),
    told_foldl (N := fun instId i p => i = instId ∧ p = leftSummary),
    told_foldl (N := fun instId i p => i = instId ∧ p = enteredSummary)]
  · constructor
    · rintro (((⟨_, h_none, -⟩ | ⟨_, h_in, rfl, rfl⟩) | ⟨_, h_out, rfl, rfl⟩) |
        ⟨record, h_record, h_inst, h_p⟩)
      · exact absurd h_none List.not_mem_nil
      · obtain ⟨h_new, h_old⟩ := List.mem_filter.mp (mem_sortedIds.mp h_in)
        exact .entered h_new fun h => of_decide_eq_true h_old ((h_ids _).mpr h)
      · obtain ⟨h_old, h_new⟩ := List.mem_filter.mp (mem_sortedIds.mp h_out)
        exact .left ((h_ids _).mp h_old) (of_decide_eq_true h_new)
      · exact .field ((mem_window h_ids).mp h_record) h_inst h_p
    · rintro (⟨h_new, h_old⟩ | ⟨h_old, h_new⟩ | ⟨h_record, h_inst, h_p⟩)
      · refine .inl (.inl (.inr ⟨i, mem_sortedIds.mpr (List.mem_filter.mpr ⟨h_new, ?_⟩), rfl, rfl⟩))
        exact decide_eq_true fun h => h_old ((h_ids i).mp h)
      · refine .inl (.inr ⟨i, mem_sortedIds.mpr (List.mem_filter.mpr ⟨(h_ids i).mpr h_old, ?_⟩),
          rfl, rfl⟩)
        exact decide_eq_true h_new
      · exact .inr ⟨_, (mem_window h_ids).mpr h_record, h_inst, h_p⟩
  · intro entries instId i p
    exact told_merge (by decide)
  · intro entries instId i p
    exact told_merge (by decide)
  · intro entries record i p
    cases h_summary : watchedSummary env rule.fields record with
    | none => simp
    | some summary =>
      dsimp only
      rw [told_merge (watchedSummary_ne_empty h_summary), Option.some_inj, eq_comm (a := i),
        eq_comm (a := p)]

theorem nodup_checkAttributeChange :
    ((checkAttributeChange env rule state new checkpoint).map (·.instId)).Nodup := by
  rw [checkAttributeChange]
  dsimp only
  split_ifs
  · exact List.nodup_nil
  · exact List.nodup_nil
  · refine nodup_foldl (fun entries record h => ?_) _ (nodup_foldl (fun entries _ h => nodup_merge h)
      _ (nodup_foldl (fun entries _ h => nodup_merge h) _ List.nodup_nil))
    split
    · exact h
    · exact nodup_merge h

theorem checkAttributeChange_of_no_record (h_ids : ∀ i, i ∈ state.snapshot.instances ↔ i ∈ old.ids)
    (h_last : state.lastCheckTime.getD rule.createdAt = last)
    (h : ¬(rule.fields ≠ [] ∧ ∃ record, Recorded rule old new last checkpoint record)) :
    checkAttributeChange env rule state new checkpoint = [] := by
  rw [checkAttributeChange]
  dsimp only
  split_ifs with h_fields h_none
  · rfl
  · rfl
  · obtain ⟨record, h_record⟩ := List.exists_mem_of_ne_nil _ h_none
    rw [h_last] at h_record
    exact absurd ⟨h_fields, record, (mem_window h_ids).mp h_record⟩ h

end Attributes

/-! ### Relation changes -/

section Relations

variable {env : Env} {rule : Rule} {state : RuleState} {w old : World} {current : Snapshot}
  {checkpoint : ℤ} {relatedModel : String} {instId relatedId : ℕ}

theorem find?_map_key {α β : Type*} [DecidableEq α] (xs : List α) (f : α → β) (x : α) :
    (xs.map fun y => (y, f y)).find? (·.1 = x) = if x ∈ xs then some (x, f x) else none := by
  induction xs with
  | nil => rfl
  | cons y xs ih =>
    rw [List.map_cons, List.find?_cons]
    by_cases h : y = x
    · subst h
      simp
    · simp [h, ih, Ne.symm h]

theorem build_of_answers (h_answers : w.Answers) :
    (buildCurrentSnapshot rule state w).relations = (fromKeys w.ids).map fun instId =>
      (instId, rule.watchedModels.map fun relatedModel =>
        (relatedModel, (w.related relatedModel instId).getD [])) := by
  rw [buildCurrentSnapshot]
  refine List.map_congr_left fun instId _ => Prod.ext rfl ?_
  dsimp only
  rw [Rule.watchedModels, List.map_map, ← List.filterMap_eq_map]
  refine List.filterMap_congr fun item _ => ?_
  cases h : w.related item.relatedModel instId with
  | some ids => simp [h]
  | none => exact absurd h (h_answers item.relatedModel instId)

theorem mem_relatedIds_build (h_answers : w.Answers) :
    relatedId ∈ ((buildCurrentSnapshot rule state w).relatedIds instId relatedModel).getD [] ↔
      relatedModel ∈ rule.watchedModels ∧ w.Associated relatedModel instId relatedId := by
  obtain ⟨ids, h_ids⟩ := Option.ne_none_iff_exists'.mp (h_answers relatedModel instId)
  rw [Snapshot.relatedIds, build_of_answers h_answers, find?_map_key, World.Associated, h_ids]
  by_cases h_inst : instId ∈ w.ids
  · rw [if_pos (mem_fromKeys.mpr h_inst), Option.bind_some, find?_map_key]
    by_cases h_model : relatedModel ∈ rule.watchedModels
    · simp [h_model, h_inst, h_ids]
    · simp [h_model]
  · rw [if_neg fun h => h_inst (mem_fromKeys.mp h)]
    simp [h_inst]

theorem key_of_mem_relatedIds {snapshot : Snapshot}
    (h : relatedId ∈ (snapshot.relatedIds instId relatedModel).getD []) :
    instId ∈ snapshot.relations.map (·.1) := by
  by_contra h_none
  have h_find : snapshot.relations.find? (·.1 = instId) = none := by
    rw [List.find?_eq_none]
    intro entry h_entry h_key
    exact h_none (List.mem_map.mpr ⟨entry, h_entry, of_decide_eq_true h_key⟩)
  rw [Snapshot.relatedIds, h_find] at h
  exact List.not_mem_nil h

theorem mem_checkRelationChange {change : RelationChange}
    (h : change ∈ checkRelationChange env rule state w current checkpoint) :
    change.relatedModel ∈ rule.watchedModels ∧
      change.added = sortedIds (((current.relatedIds change.instId change.relatedModel).getD []).filter
        (· ∉ (state.snapshot.relatedIds change.instId change.relatedModel).getD [])) ∧
      change.removed = sortedIds
        (((state.snapshot.relatedIds change.instId change.relatedModel).getD []).filter
          (· ∉ (current.relatedIds change.instId change.relatedModel).getD [])) := by
  rw [checkRelationChange, List.mem_flatMap] at h
  obtain ⟨item, h_item, h_change⟩ := h
  obtain ⟨instId, -, rfl⟩ := List.mem_map.mp (List.mem_filter.mp h_change).1
  exact ⟨List.mem_map_of_mem h_item, rfl, rfl⟩

theorem exists_checkRelationChange (env : Env) (checkpoint : ℤ)
    (h_answers : w.Answers) (h_model : relatedModel ∈ rule.watchedModels)
    (h : (∃ r ∈ (current.relatedIds instId relatedModel).getD [],
        r ∉ (state.snapshot.relatedIds instId relatedModel).getD []) ∨
      ∃ r ∈ (state.snapshot.relatedIds instId relatedModel).getD [],
        r ∉ (current.relatedIds instId relatedModel).getD []) :
    ∃ change ∈ checkRelationChange env rule state w current checkpoint,
      change.relatedModel = relatedModel ∧ change.instId = instId := by
  obtain ⟨item, h_item, rfl⟩ := List.mem_map.mp h_model
  have h_inst : instId ∈ (state.snapshot.relations ++ current.relations).map (·.1) := by
    rw [List.map_append, List.mem_append]
    exact h.symm.imp (fun ⟨_, h_r, _⟩ => key_of_mem_relatedIds h_r)
      fun ⟨_, h_r, _⟩ => key_of_mem_relatedIds h_r
  have h_compared : instId ∈ (sortedByText ((state.snapshot.relations ++ current.relations).map
      (·.1))).filter fun instId =>
        ¬(instId ∈ w.instances.map (·.id) ∧ w.related item.relatedModel instId = none) := by
    refine List.mem_filter.mpr ⟨mem_sortedByText.mpr h_inst, decide_eq_true ?_⟩
    exact fun h_failed => h_answers item.relatedModel instId h_failed.2
  refine ⟨_, List.mem_flatMap.mpr ⟨item, h_item, List.mem_filter.mpr
    ⟨List.mem_map_of_mem h_compared, decide_eq_true ?_⟩⟩, rfl, rfl⟩
  obtain ⟨r, h_r, h_not⟩ | ⟨r, h_r, h_not⟩ := h
  · exact .inl (List.ne_nil_of_mem (mem_sortedIds.mpr (List.mem_filter.mpr
      ⟨h_r, decide_eq_true h_not⟩)))
  · exact .inr (.inl (List.ne_nil_of_mem (mem_sortedIds.mpr (List.mem_filter.mpr
      ⟨h_r, decide_eq_true h_not⟩))))

theorem added_iff (h_answers : w.Answers) :
    (∃ change ∈ checkRelationChange env rule state w current checkpoint,
        change.relatedModel = relatedModel ∧ change.instId = instId ∧ relatedId ∈ change.added) ↔
      relatedModel ∈ rule.watchedModels ∧
        relatedId ∈ (current.relatedIds instId relatedModel).getD [] ∧
        relatedId ∉ (state.snapshot.relatedIds instId relatedModel).getD [] := by
  constructor
  · rintro ⟨change, h_change, rfl, rfl, h_added⟩
    obtain ⟨h_model, h_eq, -⟩ := mem_checkRelationChange h_change
    rw [h_eq, mem_sortedIds, List.mem_filter, decide_eq_true_iff] at h_added
    exact ⟨h_model, h_added⟩
  · rintro ⟨h_model, h_current, h_previous⟩
    obtain ⟨change, h_change, rfl, rfl⟩ := exists_checkRelationChange env checkpoint h_answers
      h_model (.inl ⟨relatedId, h_current, h_previous⟩)
    refine ⟨change, h_change, rfl, rfl, ?_⟩
    rw [(mem_checkRelationChange h_change).2.1, mem_sortedIds, List.mem_filter,
      decide_eq_true_iff]
    exact ⟨h_current, h_previous⟩

theorem removed_iff (h_answers : w.Answers) :
    (∃ change ∈ checkRelationChange env rule state w current checkpoint,
        change.relatedModel = relatedModel ∧ change.instId = instId ∧ relatedId ∈ change.removed) ↔
      relatedModel ∈ rule.watchedModels ∧
        relatedId ∈ (state.snapshot.relatedIds instId relatedModel).getD [] ∧
        relatedId ∉ (current.relatedIds instId relatedModel).getD [] := by
  constructor
  · rintro ⟨change, h_change, rfl, rfl, h_removed⟩
    obtain ⟨h_model, -, h_eq⟩ := mem_checkRelationChange h_change
    rw [h_eq, mem_sortedIds, List.mem_filter, decide_eq_true_iff] at h_removed
    exact ⟨h_model, h_removed⟩
  · rintro ⟨h_model, h_previous, h_current⟩
    obtain ⟨change, h_change, rfl, rfl⟩ := exists_checkRelationChange env checkpoint h_answers
      h_model (.inr ⟨relatedId, h_previous, h_current⟩)
    refine ⟨change, h_change, rfl, rfl, ?_⟩
    rw [(mem_checkRelationChange h_change).2.2, mem_sortedIds, List.mem_filter,
      decide_eq_true_iff]
    exact ⟨h_previous, h_current⟩

theorem nodup_watchedModels : rule.watchedModels.Nodup := by
  have h_fold : ∀ (items seen : List RelationModel), (seen.map (·.relatedModel)).Nodup →
      ((items.foldl (fun deduplicated item =>
        if deduplicated.any (·.relatedModel = item.relatedModel) then deduplicated
        else deduplicated ++ [item]) seen).map (·.relatedModel)).Nodup := by
    intro items
    induction items with
    | nil => exact fun seen h => h
    | cons item items ih =>
      intro seen h
      rw [List.foldl_cons]
      refine ih _ ?_
      split_ifs with h_any
      · exact h
      · rw [List.map_append]
        refine List.nodup_append_comm.mp (List.nodup_cons.mpr ⟨fun h_mem => h_any ?_, h⟩)
        simpa using h_mem
  rw [Rule.watchedModels, normalizeRelationChangeModels]
  split_ifs
  · exact h_fold _ [] List.nodup_nil
  · exact List.nodup_singleton _
  · exact List.nodup_nil

theorem nodup_checkRelationChange :
    ((checkRelationChange env rule state w current checkpoint).map fun change =>
      (change.relatedModel, change.instId)).Nodup := by
  rw [checkRelationChange, List.map_flatMap, List.nodup_flatMap]
  constructor
  · intro item _
    refine List.Nodup.sublist (List.filter_sublist.map _) ?_
    rw [List.map_map]
    refine List.Nodup.map (fun a b h => (Prod.ext_iff.mp h).2) (List.Nodup.filter _ ?_)
    exact (List.mergeSort_perm _ _).nodup_iff.mpr (nodup_fromKeys _)
  · have h_models : rule.watchedModels.Nodup := nodup_watchedModels
    refine (List.pairwise_map.mp h_models).imp fun {a b} h_ne => ?_
    intro key h_a h_b
    obtain ⟨c, h_c, rfl⟩ := List.mem_map.mp h_a
    obtain ⟨d, h_d, h_key⟩ := List.mem_map.mp h_b
    obtain ⟨i, -, rfl⟩ := List.mem_map.mp (List.mem_filter.mp h_c).1
    obtain ⟨j, -, rfl⟩ := List.mem_map.mp (List.mem_filter.mp h_d).1
    exact h_ne (Prod.ext_iff.mp h_key).1.symm

end Relations

/-! ### Runs -/

structure System where
  world : World
  state : RuleState
  seen : World
  seenAt : ℤ
  found : Detection

inductive Action
  | update (w : World)
  | check (checkpoint : ℤ)

variable (env : Env) (rule : Rule)

def step (s : System) : Action → System
  | .update w => { s with world := w }
  | .check checkpoint =>
    { world := s.world
      state := (process env rule s.state s.world checkpoint).2
      seen := s.world
      seenAt := checkpoint
      found := (process env rule s.state s.world checkpoint).1 }

def initial : System where
  world := ⟨[], fun _ _ => some [], [], fun _ => []⟩
  state := ⟨⟨[], []⟩, none, none⟩
  seen := ⟨[], fun _ _ => some [], [], fun _ => []⟩
  seenAt := rule.createdAt
  found := ⟨[], []⟩

def NoFailure (s : System) : Action → System → Prop
  | .update _, _ => True
  | .check _, _ => s.world.Answers

def ExactChecks (s : System) : Action → System → Prop
  | .update _, _ => True
  | .check checkpoint, t => Exact env rule s.seen s.world s.seenAt checkpoint t.found

/-- Nothing entered or left, or some instance is matched and the window has a record. -/
def Noticed (s : System) : Action → System → Prop
  | .update _, _ => True
  | .check checkpoint, _ =>
    (∀ i, i ∈ s.world.ids ↔ i ∈ s.seen.ids) ∨
      s.world.instances ≠ [] ∧ rule.fields ≠ [] ∧
        ∃ record, Recorded rule s.seen s.world s.seenAt checkpoint record

/-- The snapshot tells the world of the last check. -/
structure Remembers (s : System) : Prop where
  ids : ∀ i, i ∈ s.state.snapshot.instances ↔ i ∈ s.seen.ids
  related : ∀ relatedModel instId relatedId,
    relatedId ∈ (s.state.snapshot.relatedIds instId relatedModel).getD [] ↔
      relatedModel ∈ rule.watchedModels ∧ s.seen.Associated relatedModel instId relatedId
  time : s.state.lastCheckTime.getD rule.createdAt = s.seenAt

variable {env rule} {s : System} {checkpoint : ℤ}

theorem not_associated_of_nil {w : World} (h : w.instances = []) (relatedModel : String)
    (instId relatedId : ℕ) : ¬w.Associated relatedModel instId relatedId := by
  rintro ⟨h_matched, -⟩
  rw [World.ids, h] at h_matched
  exact List.not_mem_nil h_matched

theorem Remembers.initial : Remembers rule (initial rule) where
  ids _ := Iff.rfl
  related _ _ _ := iff_of_false List.not_mem_nil fun h => not_associated_of_nil rfl _ _ _ h.2
  time := rfl

theorem Remembers.check (h_answers : s.world.Answers) :
    Remembers rule (step env rule s (.check checkpoint)) := by
  by_cases h_empty : s.world.instances = []
  · constructor
    · intro i
      simp [step, process, h_empty, World.ids]
    · intro relatedModel instId relatedId
      refine iff_of_false ?_ fun h => not_associated_of_nil h_empty _ _ _ h.2
      simp [step, process, h_empty, Snapshot.relatedIds]
    · simp [step, process, h_empty]
  · constructor
    · intro i
      simp [step, process, h_empty, World.ids, buildCurrentSnapshot]
    · intro relatedModel instId relatedId
      rw [step, process, if_neg h_empty]
      exact mem_relatedIds_build h_answers
    · simp [step, process, h_empty]

theorem Remembers.step {a : Action} (h : Remembers rule s)
    (h_guard : NoFailure s a (step env rule s a)) : Remembers rule (step env rule s a) := by
  cases a with
  | update w => exact ⟨h.ids, h.related, h.time⟩
  | check checkpoint => exact Remembers.check h_guard

/-! ### One check -/

theorem exact_of_attributes (h : Remembers rule s) (h_answers : s.world.Answers)
    (h_some : s.world.instances ≠ [])
    (h_told : ∀ instId part, Told (checkAttributeChange env rule s.state s.world checkpoint) instId
      part ↔ Change env rule s.seen s.world s.seenAt checkpoint instId part) :
    Exact env rule s.seen s.world s.seenAt checkpoint
      (step env rule s (.check checkpoint)).found := by
  rw [step, process, if_neg h_some]
  refine ⟨h_told, ?_, ?_, nodup_checkAttributeChange, nodup_checkRelationChange⟩
  · intro relatedModel instId relatedId
    rw [added_iff h_answers, mem_relatedIds_build h_answers, h.related]
    tauto
  · intro relatedModel instId relatedId
    rw [removed_iff h_answers, mem_relatedIds_build h_answers, h.related]
    tauto

theorem not_change {old new : World} {last : ℤ} (h_same : ∀ i, i ∈ new.ids ↔ i ∈ old.ids)
    (h_none : ¬∃ record, Recorded rule old new last checkpoint record ∧
      watchedSummary env rule.fields record ≠ none) (instId : ℕ) (part : String) :
    ¬Change env rule old new last checkpoint instId part := by
  rintro (⟨h_new, h_old⟩ | ⟨h_old, h_new⟩ | ⟨h_recorded, -, h_summary⟩)
  · exact h_old ((h_same instId).mp h_new)
  · exact h_new ((h_same instId).mpr h_old)
  · exact h_none ⟨_, h_recorded, h_summary ▸ Option.some_ne_none _⟩

theorem not_told_nil (instId : ℕ) (part : String) : ¬Told [] instId part := by
  rintro ⟨merged, h_merged, -⟩
  exact List.not_mem_nil h_merged

theorem watchedSummary_nil {record : ChangeRecord} : watchedSummary env [] record = none := by
  rw [watchedSummary, changeSummary, if_pos]
  rw [sortedTexts]
  simp [fromKeys]

theorem exact_check_iff (h : Remembers rule s) (h_answers : s.world.Answers) :
    Exact env rule s.seen s.world s.seenAt checkpoint
        (step env rule s (.check checkpoint)).found ↔
      Noticed rule s (.check checkpoint) (step env rule s (.check checkpoint)) := by
  by_cases h_complete : s.world.instances ≠ [] ∧ rule.fields ≠ [] ∧
      ∃ record, Recorded rule s.seen s.world s.seenAt checkpoint record
  · obtain ⟨h_some, h_fields, h_record⟩ := h_complete
    refine iff_of_true ?_ (.inr ⟨h_some, h_fields, h_record⟩)
    exact exact_of_attributes h h_answers h_some fun instId part =>
      told_checkAttributeChange h_fields h.ids h.time h_record
  -- nothing is told of the attributes
  have h_attributes : (step env rule s (.check checkpoint)).found.attributes = [] := by
    by_cases h_empty : s.world.instances = []
    · rw [step, process, if_pos h_empty]
    · rw [step, process, if_neg h_empty]
      exact checkAttributeChange_of_no_record h.ids h.time fun h_rest => h_complete ⟨h_empty, h_rest⟩
  constructor
  · intro h_exact
    refine .inl fun i => ?_
    by_contra h_differs
    have h_told : ∀ part, ¬Change env rule s.seen s.world s.seenAt checkpoint i part := fun part h =>
      not_told_nil i part (h_attributes ▸ (h_exact.attributes i part).mpr h)
    by_cases h_new : i ∈ s.world.ids
    · exact h_told _ (.entered h_new fun h_old => h_differs (iff_of_true h_new h_old))
    · by_cases h_old : i ∈ s.seen.ids
      · exact h_told _ (.left h_old h_new)
      · exact h_differs (iff_of_false h_new h_old)
  · rintro (h_same | h_rest)
    · have h_silent : ¬∃ record, Recorded rule s.seen s.world s.seenAt checkpoint record ∧
          watchedSummary env rule.fields record ≠ none := by
        rintro ⟨record, h_recorded, h_summary⟩
        by_cases h_empty : s.world.instances = []
        · have h_new : record.instId ∈ s.world.ids := by
            obtain ⟨-, -, -, h_new | h_old, -⟩ := h_recorded
            · exact h_new
            · exact (h_same _).mpr h_old
          rw [World.ids, h_empty] at h_new
          exact List.not_mem_nil h_new
        · refine h_complete ⟨h_empty, fun h_fields => h_summary ?_, record, h_recorded⟩
          rw [h_fields, watchedSummary_nil]
      have h_nothing : ∀ instId part, Told (step env rule s (.check checkpoint)).found.attributes
          instId part ↔ Change env rule s.seen s.world s.seenAt checkpoint instId part :=
        fun instId part => iff_of_false (h_attributes ▸ not_told_nil instId part)
          (not_change h_same h_silent instId part)
      by_cases h_empty : s.world.instances = []
      · have h_seen : s.seen.instances = [] := by
          rw [← List.map_eq_nil_iff (f := (·.id)), List.eq_nil_iff_forall_not_mem]
          intro i h_i
          have h_new := (h_same i).mpr h_i
          rw [World.ids, h_empty] at h_new
          exact List.not_mem_nil h_new
        have h_found : (step env rule s (.check checkpoint)).found = ⟨[], []⟩ := by
          rw [step, process, if_pos h_empty]
        refine ⟨h_nothing, ?_, ?_, ?_, ?_⟩
        · intro relatedModel instId relatedId
          rw [h_found]
          refine iff_of_false (fun ⟨_, h_none, _⟩ => List.not_mem_nil h_none) ?_
          exact fun h_added => not_associated_of_nil h_empty _ _ _ h_added.2.1
        · intro relatedModel instId relatedId
          rw [h_found]
          refine iff_of_false (fun ⟨_, h_none, _⟩ => List.not_mem_nil h_none) ?_
          exact fun h_removed => not_associated_of_nil h_seen _ _ _ h_removed.2.1
        · rw [h_found]
          exact List.nodup_nil
        · rw [h_found]
          exact List.nodup_nil
      · refine exact_of_attributes h h_answers h_empty fun instId part => ?_
        rw [← h_nothing, step, process, if_neg h_empty]
    · exact absurd h_rest h_complete

/-- **The checks of a run are all exact iff each of them notices what has happened.** -/
theorem exactChecks_iff (as : List Action)
    (h_answers : Runs.Along (step env rule) NoFailure (initial rule) as) :
    Runs.Along (step env rule) (ExactChecks env rule) (initial rule) as ↔
      Runs.Along (step env rule) (Noticed rule) (initial rule) as := by
  refine Runs.along_iff (I := Remembers rule) h_answers ?_ Remembers.initial
  intro s a h_remembers h_guard
  refine ⟨?_, fun _ => h_remembers.step h_guard⟩
  cases a with
  | update w => exact Iff.rfl
  | check checkpoint => exact exact_check_iff h_remembers h_guard

section Examples

private def host : Instance := ⟨1, fun field => if field = "inst_name" then .str "host-1" else .null⟩

private def created : ChangeRecord :=
  ⟨1, "host", .createInst, [], [("cpu", .str "2"), ("inst_name", .str "host-1")], 5⟩

private def hosts (records : List ChangeRecord) : World :=
  ⟨[host], fun _ _ => some [7], records, fun _ => []⟩

private def empty : World := ⟨[], fun _ _ => some [], [], fun _ => []⟩

private def cpuRule : Rule := ⟨1, "cpu", "host", "主机", ["cpu"], ⟨[], "app", []⟩, 0⟩

private def text : Env := ⟨fun _ => "2"⟩

/-- An instance is created and found by the next check. -/
theorem exactChecks_created : Runs.Along (step text cpuRule) (ExactChecks text cpuRule)
    (initial cpuRule) [.check 1, .update (hosts [created]), .check 9] := by
  have h_answers : Runs.Along (step text cpuRule) NoFailure (initial cpuRule)
      [.check 1, .update (hosts [created]), .check 9] :=
    ⟨fun _ _ => Option.some_ne_none _, trivial, fun _ _ => Option.some_ne_none _, trivial⟩
  refine (exactChecks_iff _ h_answers).mpr ⟨.inl fun _ => Iff.rfl, trivial, .inr ?_, trivial⟩
  refine ⟨by decide, by decide, created, List.mem_singleton_self _, rfl, by decide, .inl ?_, ?_⟩
  · exact List.mem_singleton_self _
  · decide

/-- The last matched instance is deleted, and no check tells it. -/
theorem not_exactChecks_emptied : ¬∀ (env : Env) (rule : Rule) (as : List Action),
    Runs.Along (step env rule) NoFailure (initial rule) as →
      Runs.Along (step env rule) (ExactChecks env rule) (initial rule) as := by
  intro h_claim
  obtain ⟨-, -, -, h_exact, -⟩ := h_claim text cpuRule
    [.update (hosts [created]), .check 9, .update empty, .check 10, .check 11]
    ⟨trivial, fun _ _ => Option.some_ne_none _, trivial, fun _ _ => Option.some_ne_none _,
      fun _ _ => Option.some_ne_none _, trivial⟩
  obtain ⟨merged, h_merged, -⟩ := (h_exact.attributes 1 leftSummary).mpr
    (.left (by decide) (by decide))
  exact List.not_mem_nil h_merged

end Examples

end Cmdb.Subscription
