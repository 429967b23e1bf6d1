import BkLite.OperationAnalysis.ImportRuns

/-!
# Imports are authorised and atomic

An import that goes through applies every item as decided, and else the database is as it was
(`submit_atomic`). An old object is overwritten exactly if an item names it whose key is decided to
overwrite (`modified_iff`); of the items with that key the last that names an object is the one
whose suggestions were checked (`mayOverwrite_of_suggested`). So a submission is proper exactly if it
does not go through or shadows nothing (`proper_iff`).
-/

namespace OperationAnalysis

open Py

variable {r : Request} {db : Db} {item : Item} {key : String}

/-! ### What is suggested in the end -/

theorem find_updateFirst {f : Conflict → Conflict} (h_key : ∀ c, (f c).objectKey = c.objectKey)
    (cs : List Conflict) (key' : String) :
    (updateFirst key f cs).find? (·.objectKey = key') =
      if key = key' then (cs.find? (·.objectKey = key')).map f
      else cs.find? (·.objectKey = key') := by
  induction cs with
  | nil =>
    unfold updateFirst
    split_ifs <;> rfl
  | cons c cs ih =>
    unfold updateFirst
    by_cases h_c : c.objectKey = key
    · rw [if_pos h_c, List.find?_cons, List.find?_cons, h_key, h_c]
      split_ifs with h_eq <;> simp [h_eq]
    · rw [if_neg h_c, List.find?_cons, List.find?_cons, ih]
      by_cases h_c' : c.objectKey = key'
      · have h_ne : ¬key = key' := fun h_eq => h_c (h_c'.trans h_eq.symm)
        rw [decide_eq_true h_c']
        exact (if_neg h_ne).symm
      · rw [decide_eq_false h_c']

theorem lastOf_updateLast {f : Conflict → Conflict} (h_key : ∀ c, (f c).objectKey = c.objectKey)
    (cs : List Conflict) (key' : String) :
    lastOf (updateLast key f cs) key' =
      if key = key' then (lastOf cs key').map f else lastOf cs key' := by
  unfold lastOf updateLast
  rw [List.reverse_reverse]
  exact find_updateFirst h_key cs.reverse key'

theorem Request.permitted_objectKey (r : Request) (item : Item) (existing : ℕ × Row)
    (c : Conflict) : (r.permitted item existing c).objectKey = c.objectKey := by
  unfold permitted
  dsimp only
  split_ifs <;> rfl

theorem Request.lastOf_applyItem (r : Request) (db : Db) (cs : List Conflict) (item : Item)
    (key : String) :
    lastOf (r.applyItem db cs item) key =
      match db.existingObject item with
      | some existing =>
        if item.key = key then (lastOf cs key).map (r.permitted item existing) else lastOf cs key
      | none => lastOf cs key := by
  unfold applyItem
  cases db.existingObject item with
  | none => rfl
  | some existing => exact lastOf_updateLast (r.permitted_objectKey item existing) cs key

theorem Request.isSome_lastOf_foldl (items : List Item) {cs : List Conflict}
    (h : (lastOf cs key).isSome = true) :
    (lastOf (items.foldl (r.applyItem db) cs) key).isSome = true := by
  induction items generalizing cs with
  | nil => exact h
  | cons item items ih =>
    refine ih ?_
    rw [r.lastOf_applyItem db cs item key]
    cases db.existingObject item with
    | none => exact h
    | some existing =>
      dsimp only
      split_ifs
      · rw [Option.isSome_map]
        exact h
      · exact h

theorem Request.isSome_lastOf_conflicts (h_item : item ∈ r.doc.items)
    (h_some : (db.existingObject item).isSome = true) :
    (lastOf (r.conflicts db) item.key).isSome = true := by
  have h_first : (lastOf (r.identifyConflicts db) item.key).isSome = true := by
    obtain ⟨existing, h_existing⟩ := Option.isSome_iff_exists.mp h_some
    have h_conflict : ∃ c ∈ r.identifyConflicts db, c.objectKey = item.key := by
      unfold identifyConflicts
      simp only [List.mem_filterMap]
      exact ⟨_, ⟨item, h_item, by rw [h_existing]; rfl⟩, rfl⟩
    obtain ⟨c, h_c, h_key⟩ := h_conflict
    unfold lastOf
    rw [List.find?_isSome]
    exact ⟨c, List.mem_reverse.mpr h_c, decide_eq_true h_key⟩
  unfold conflicts
  split_ifs
  · exact h_first
  · exact isSome_lastOf_foldl _ h_first

theorem Request.mayOverwrite_of_permitted {existing : ℕ × Row} {c : Conflict}
    (h_named : existing.2.IsNamed item)
    (h : .overwrite ∈ (r.permitted item existing c).suggestedActions) :
    r.MayOverwrite existing.1 existing.2 := by
  unfold permitted at h
  dsimp only at h
  by_cases h_view : r.mayView existing.1 existing.2 = true
  · rw [if_pos h_view] at h
    by_cases h_over : r.hasPermission (overwritePermission item.objectType) = true
    · exact ⟨h_named.1 ▸ h_over, h_view⟩
    · rw [if_neg h_over] at h
      split_ifs at h <;> simp at h
  · rw [if_neg h_view] at h
    split_ifs at h <;> simp at h

theorem Request.mayOverwrite_of_suggested {cs : List Conflict} (items : List Item) {c : Conflict}
    (h_unshadowed : items.Pairwise fun i j => i.key = j.key → r.action i.key = .overwrite →
      ∀ x ∈ db.existingObject i, ∀ y ∈ db.existingObject j,
        r.MayOverwrite y.1 y.2 → r.MayOverwrite x.1 x.2)
    (h_action : r.action key = .overwrite)
    (h_last : lastOf (items.foldl (r.applyItem db) cs) key = some c)
    (h_suggested : .overwrite ∈ c.suggestedActions) :
    ∀ i ∈ items, i.key = key → ∀ x ∈ db.existingObject i, r.MayOverwrite x.1 x.2 := by
  induction items using List.reverseRecOn generalizing c with
  | nil => exact fun i h_i => nomatch h_i
  | append_singleton items j ih =>
    rw [List.pairwise_append] at h_unshadowed
    obtain ⟨h_init, -, h_shadow⟩ := h_unshadowed
    rw [List.foldl_concat, r.lastOf_applyItem] at h_last
    intro i h_i h_key x h_x
    rw [List.mem_append, List.mem_singleton] at h_i
    cases h_existing : db.existingObject j with
    | none =>
      rw [h_existing] at h_last
      obtain h_i | rfl := h_i
      · exact ih h_init h_last h_suggested i h_i h_key x h_x
      · rw [h_existing] at h_x
        cases h_x
    | some y =>
      rw [h_existing] at h_last
      dsimp only at h_last
      split_ifs at h_last with h_j
      · obtain ⟨c₀, -, rfl⟩ := Option.map_eq_some_iff.mp h_last
        obtain ⟨h_id, h_row⟩ := Db.existingObject_eq_some.mp h_existing
        have h_y := mayOverwrite_of_permitted (Db.isNamed_of_existing h_id h_row) h_suggested
        obtain h_i | rfl := h_i
        · exact h_shadow i h_i j List.mem_cons_self (h_key.trans h_j.symm) (h_key ▸ h_action) x h_x
            y h_existing h_y
        · rw [h_existing] at h_x
          cases h_x
          exact h_y
      · obtain h_i | rfl := h_i
        · exact ih h_init h_last h_suggested i h_i h_key x h_x
        · exact absurd h_key h_j

/-! ### Submissions -/

theorem Request.accepted_of_committed (h : (r.submit db).Committed) : r.accepted db = true := by
  obtain ⟨report, h_submit, -⟩ := h
  unfold submit at h_submit
  split_ifs at h_submit with h_accepted
  · exact h_accepted

theorem Request.mayOverwrite_of_superuser (h : r.caller.isSuperuser = true) (id : ℕ) (row : Row) :
    r.MayOverwrite id row := by
  simp [MayOverwrite, mayView, hasPermission, canAccessExistingObject, h]

theorem Request.mayOverwrite_of_accepted (h_accepted : r.accepted db = true)
    (h_unshadowed : r.Unshadowed db) (h_item : item ∈ r.doc.items)
    (h_action : r.action item.key = .overwrite) {x : ℕ × Row}
    (h_x : db.existingObject item = some x) : r.MayOverwrite x.1 x.2 := by
  by_cases h_super : r.caller.isSuperuser = true
  · exact mayOverwrite_of_superuser h_super x.1 x.2
  · have h_permitted : r.itemPermitted db item = true := by
      have h_submit : r.submitPermitted db = true := by
        unfold accepted at h_accepted
        simp only [Bool.and_eq_true] at h_accepted
        exact h_accepted.2
      unfold submitPermitted at h_submit
      rw [Bool.or_eq_true, List.all_eq_true] at h_submit
      exact h_submit.resolve_left h_super item h_item
    have h_found := isSome_lastOf_conflicts h_item (by rw [h_x]; rfl)
    obtain ⟨c, h_c⟩ := Option.isSome_iff_exists.mp h_found
    -- the decision is among the suggestions of the conflict that is found
    have h_suggested : .overwrite ∈ c.suggestedActions := by
      unfold itemPermitted at h_permitted
      rw [h_c, h_action] at h_permitted
      by_contra h_not
      simp [h_not] at h_permitted
    unfold conflicts at h_c
    rw [if_neg h_super] at h_c
    exact mayOverwrite_of_suggested r.doc.items h_unshadowed h_action h_c h_suggested item h_item
      rfl x h_x

theorem Request.ran_of_committed (h : (r.submit db).Committed) :
    ∃ report, r.submit db = .executed report ∧ report.success = true ∧
      Ran r.action r.doc.entries db report.db report.results := by
  obtain ⟨report, h_submit, h_success⟩ := h
  refine ⟨report, h_submit, h_success, ?_⟩
  unfold submit at h_submit
  split_ifs at h_submit
  cases h_execute : execute r.settings r.doc db with
  | error e =>
    rw [h_execute] at h_submit
    cases h_submit
  | ok report' =>
    rw [h_execute] at h_submit
    cases h_submit
    obtain ⟨h_not, -⟩ | ⟨s, h_run, h_failed, rfl⟩ := execute_eq_ok h_execute
    · rw [h_success] at h_not
      cases h_not
    · obtain ⟨results, h_results, h_ran⟩ :=
        importEntries_ran Document.entries_typed h_run h_failed
      show Ran _ _ _ _ s.results
      rw [show s.results = results from h_results]
      exact h_ran

theorem Request.after_of_not_committed (h : ¬(r.submit db).Committed) :
    (r.submit db).after db = db := by
  unfold Outcome.Committed at h
  cases h_submit : r.submit db with
  | refused => rfl
  | raised e => rfl
  | executed report =>
    rw [h_submit] at h
    unfold submit at h_submit
    split_ifs at h_submit
    cases h_execute : execute r.settings r.doc db with
    | error e =>
      rw [h_execute] at h_submit
      cases h_submit
    | ok report' =>
      rw [h_execute] at h_submit
      cases h_submit
      obtain ⟨-, h_db⟩ | ⟨s, -, -, rfl⟩ := execute_eq_ok h_execute
      · exact h_db
      · exact absurd ⟨_, rfl, rfl⟩ h

theorem Request.submit_atomic (r : Request) (db : Db) :
    (r.submit db).after db = db ∨
      AppliedAll r.action r.doc.entries db ((r.submit db).after db) := by
  by_cases h : (r.submit db).Committed
  · obtain ⟨report, h_submit, -, h_ran⟩ := ran_of_committed h
    rw [h_submit]
    exact .inr h_ran.applied
  · exact .inl (after_of_not_committed h)

theorem Request.modified_iff {id : ℕ} {row : Row} (h_row : db.objects.lookup id = some row) :
    (r.submit db).Modified db id ↔ (r.submit db).Committed ∧
      ∃ item ∈ r.doc.items, db.existing item = some id ∧ r.action item.key = .overwrite := by
  rw [r.doc.items_eq]
  simp only [List.mem_map, exists_exists_and_eq_and]
  refine ⟨fun h_modified => ?_, ?_⟩
  · have h_committed : (r.submit db).Committed := by
      by_contra h_not
      obtain h_changed | ⟨report, h_submit, h_success, -⟩ := h_modified
      · exact h_changed (by rw [after_of_not_committed h_not])
      · exact h_not ⟨report, h_submit, h_success⟩
    refine ⟨h_committed, ?_⟩
    obtain ⟨report, h_submit, -, h_ran⟩ := ran_of_committed h_committed
    unfold Outcome.Modified at h_modified
    rw [h_submit] at h_modified
    obtain h_changed | ⟨report', h_eq, -, h_result⟩ := h_modified
    · obtain h_same | h_over := h_ran.unchanged id row h_row
      · exact absurd (h_same.trans h_row.symm) h_changed
      · exact h_over
    · cases h_eq
      exact (h_ran.told id row h_row).mp h_result
  · rintro ⟨h_committed, h_over⟩
    obtain ⟨report, h_submit, h_success, h_ran⟩ := ran_of_committed h_committed
    exact .inr ⟨report, h_submit, h_success, (h_ran.told id row h_row).mpr h_over⟩

/-- **Authorised and atomic**: exactly where the import is refused or rolled back, or shadows
nothing. -/
theorem proper_iff (r : Request) (db : Db) :
    r.Proper db ↔ ((r.submit db).Committed → r.Unshadowed db) := by
  refine ⟨fun h_proper h_committed => ?_, fun h => ⟨r.submit_atomic db, ?_⟩⟩
  · -- an object that is overwritten may be overwritten
    refine List.pairwise_of_forall_mem_list fun i h_i j _ _ h_action x h_x _ _ _ => ?_
    obtain ⟨h_id, h_row⟩ := Db.existingObject_eq_some.mp h_x
    have h_modified := (Request.modified_iff h_row).mpr ⟨h_committed, i, h_i, h_id, h_action⟩
    obtain ⟨item, -, -, -, h_may⟩ := h_proper.authorised x.1 x.2 h_row h_modified
    exact h_may
  · intro id row h_row h_modified
    obtain ⟨h_committed, item, h_item, h_id, h_action⟩ := (Request.modified_iff h_row).mp h_modified
    exact ⟨item, h_item, Db.isNamed_of_existing h_id h_row, h_action,
      Request.mayOverwrite_of_accepted (Request.accepted_of_committed h_committed) (h h_committed)
        h_item h_action (Db.existingObject_eq_some.mpr ⟨h_id, h_row⟩)⟩

section Examples

private def dashboardOf (name : String) : Row where
  objectType := .dashboard
  name := name
  groups := some [1]
  content := .canvas "" [] [] (.list []) none

private def twoDashboards : Db :=
  (({ below := fun _ _ => rfl } : Db).create (dashboardOf "A")).create
    (dashboardOf "B")

private def oneKey : Request where
  caller :=
    { permissions := ["view-View", "view-AddChart", "view-EditChart"]
      groupList := [1]
      instances := fun key => if key = "directory.dashboard" then [2] else [] }
  currentTeam := some 1
  doc :=
    { dashboards := [{ key := "k", name := "A", viewSets := .list [] },
        { key := "k", name := "B", viewSets := .list [] }] }
  targetDirectoryId := some 5
  directories := fun _ => some (some [1])
  conflictDecisions := [("k", .overwrite)]

private def overwrites : Outcome → Bool
  | .executed report => report.success && report.results.any fun result =>
    result.status = .overwritten ∧ result.newId = some 1
  | _ => false

/-- The first dashboard is overwritten by who may only see the second. -/
theorem not_proper : ¬∀ (r : Request) (db : Db), r.Proper db := by
  intro h
  have h_may : ∃ item ∈ oneKey.doc.items, (dashboardOf "A").IsNamed item ∧
      oneKey.action item.key = .overwrite ∧ oneKey.MayOverwrite 1 (dashboardOf "A") := by
    refine (h oneKey twoDashboards).authorised 1 (dashboardOf "A") rfl (.inr ?_)
    have h_submit : ∃ report, oneKey.submit twoDashboards = .executed report ∧
        report.success = true ∧ report.results.any (fun result =>
          result.status = .overwritten ∧ result.newId = some 1) = true := by
      have h_some : overwrites (oneKey.submit twoDashboards) = true := by decide +kernel
      cases h_out : oneKey.submit twoDashboards with
      | executed report =>
        rw [h_out] at h_some
        exact ⟨report, rfl, Bool.and_eq_true_iff.mp h_some⟩
      | refused => rw [h_out] at h_some; cases h_some
      | raised e => rw [h_out] at h_some; cases h_some
    obtain ⟨report, h_submit, h_success, h_any⟩ := h_submit
    obtain ⟨result, h_result, h_eq⟩ := List.any_eq_true.mp h_any
    exact ⟨report, h_submit, h_success, result, h_result, of_decide_eq_true h_eq⟩
  obtain ⟨item, -, -, -, h_may⟩ := h_may
  exact absurd h_may (by decide)

end Examples

end OperationAnalysis
