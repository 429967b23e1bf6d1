import BkLite.OperationAnalysis.ImportAuthorization

/-!
# What an import does to the database

One item is applied as decided or recorded as failed (`importEntry_recorded`), and an import that
goes through has applied all of them (`importEntries_ran`). No row is lost and none takes another name, so
an object that an item names before the import is the one it names at its turn (`Extends`).
-/

namespace OperationAnalysis

open Py

variable {db db' db'' : Db} {item : Item} {id : ℕ} {row : Row}

/-! ### Objects over time -/

theorem Db.existing_eq_some :
    db.existing item = some id ↔
      (∃ row, db.objects.lookup id = some row ∧ row.IsNamed item) ∧
        ∀ k row, db.objects.lookup k = some row → row.IsNamed item → id ≤ k := by
  unfold Db.existing
  rw [List.min?_eq_some_iff]
  simp only [Table.mem_keysWhere, decide_eq_true_eq]
  refine and_congr_right fun _ => ⟨fun h k row h_row h_named => h k ⟨row, h_row, h_named⟩, ?_⟩
  rintro h k ⟨row, h_row, h_named⟩
  exact h k row h_row h_named

theorem Db.existingObject_eq_some :
    db.existingObject item = some (id, row) ↔
      db.existing item = some id ∧ db.objects.lookup id = some row := by
  unfold Db.existingObject
  simp only [Option.bind_eq_bind, Option.bind_eq_some_iff, Option.pure_def, Option.some.injEq,
    Prod.mk.injEq]
  refine ⟨?_, fun ⟨h_id, h_row⟩ => ⟨id, h_id, row, h_row, rfl, rfl⟩⟩
  rintro ⟨id', h_id, row', h_row, rfl, rfl⟩
  exact ⟨h_id, h_row⟩

theorem Db.isNamed_of_existing (h : db.existing item = some id)
    (h_row : db.objects.lookup id = some row) : row.IsNamed item := by
  obtain ⟨⟨row', h_row', h_named⟩, -⟩ := existing_eq_some.mp h
  rw [h_row] at h_row'
  cases h_row'
  exact h_named

def Row.SameName (row row' : Row) : Prop :=
  row'.objectType = row.objectType ∧ row'.name = row.name ∧ row'.restApi = row.restApi

theorem Row.SameName.isNamed_iff {row' : Row} (h : row.SameName row') :
    row'.IsNamed item ↔ row.IsNamed item := by
  obtain ⟨h_type, h_name, h_api⟩ := h
  simp only [IsNamed, h_type, h_name, h_api]

/-- No row is lost or takes another name, and new rows have new ids. -/
structure Db.Extends (db db' : Db) : Prop where
  kept : Table.Evolves Row.SameName db.objects db'.objects
  fresh : ∀ k row', db'.objects.lookup k = some row' → db.objects.lookup k = none → db.nextId ≤ k
  next : db.nextId ≤ db'.nextId

theorem Db.Extends.refl (db : Db) : db.Extends db where
  kept := .refl (fun _ => ⟨rfl, rfl, rfl⟩) _
  fresh k row h_row h_none := by rw [h_row] at h_none; cases h_none
  next := le_rfl

theorem Db.Extends.trans (h : db.Extends db') (h' : db'.Extends db'') : db.Extends db'' where
  kept := h.kept.trans h'.kept fun _ _ _ h₁ h₂ =>
    ⟨h₂.1.trans h₁.1, h₂.2.1.trans h₁.2.1, h₂.2.2.trans h₁.2.2⟩
  fresh k row'' h_row h_none := by
    cases h_mid : db'.objects.lookup k with
    | some row' => exact h.fresh k row' h_mid h_none
    | none => exact h.next.trans (h'.fresh k row'' h_row h_mid)
  next := h.next.trans h'.next

theorem Db.Extends.of_insert (h_next : db'.nextId = db.nextId + 1)
    (h_after : db'.objects = db.objects.insert db.nextId row) : db.Extends db' where
  kept := by
    rw [h_after]
    refine Table.evolves_insert (fun _ => ⟨rfl, rfl, rfl⟩) fun r₀ h_row₀ => ?_
    exact absurd (db.below.lt h_row₀) (lt_irrefl _)
  fresh k row' h_row' h_none := by
    rw [h_after, Table.lookup_insert] at h_row'
    split_ifs at h_row' with h_key
    · exact h_key.ge
    · rw [h_none] at h_row'
      cases h_row'
  next := by rw [h_next]; exact Nat.le_succ _

theorem Db.Extends.existing (h : db.Extends db') (h_some : db.existing item = some id) :
    db'.existing item = some id := by
  obtain ⟨⟨row, h_row, h_named⟩, h_min⟩ := existing_eq_some.mp h_some
  obtain ⟨row', h_row', h_same⟩ := h.kept id row h_row
  refine existing_eq_some.mpr ⟨⟨row', h_row', h_same.isNamed_iff.mpr h_named⟩, ?_⟩
  intro k r' h_r' h_r'_named
  cases h_before : db.objects.lookup k with
  | none => exact (db.below.lt h_row).le.trans (h.fresh k r' h_r' h_before)
  | some r =>
    obtain ⟨r'', h_r'', h_same'⟩ := h.kept k r h_before
    rw [h_r'] at h_r''
    cases h_r''
    exact h_min k r h_before (h_same'.isNamed_iff.mp h_r'_named)

theorem Db.Extends.existing_of (h : db.Extends db') (h_some : db'.existing item = some id)
    (h_row : db.objects.lookup id = some row) : db.existing item = some id := by
  obtain ⟨⟨row', h_row', h_named⟩, h_min⟩ := existing_eq_some.mp h_some
  obtain ⟨row'', h_row'', h_same⟩ := h.kept id row h_row
  rw [h_row'] at h_row''
  cases h_row''
  refine existing_eq_some.mpr ⟨⟨row, h_row, h_same.isNamed_iff.mp h_named⟩, ?_⟩
  intro k r h_r h_r_named
  obtain ⟨r', h_r', h_same'⟩ := h.kept k r h_r
  exact h_min k r' h_r' (h_same'.isNamed_iff.mpr h_r_named)

/-! ### Applied items -/

variable {action : ConflictAction} {e : Entry}

theorem AppliedAs.extends (h : AppliedAs action e db db') : db.Extends db' := by
  obtain ⟨row, -, -, -, h_after, h_next⟩ | ⟨id, -, -, rfl⟩ |
    ⟨id, row, row', h_some, -, h_row, ⟨h_named, h_api⟩, -, h_after, h_next⟩ |
    ⟨id, row, -, -, -, -, -, h_after, h_next⟩ := h
  · exact .of_insert h_next h_after
  · exact .refl _
  · have h_old := Db.isNamed_of_existing h_some h_row
    refine ⟨?_, ?_, h_next.ge⟩
    · rw [h_after]
      refine Table.evolves_insert (fun _ => ⟨rfl, rfl, rfl⟩) fun r₀ h_row₀ => ?_
      rw [h_row] at h_row₀
      cases h_row₀
      exact ⟨h_named.1.trans h_old.1.symm, h_named.2.1.trans h_old.2.1.symm, h_api⟩
    · intro k r h_r h_none
      rw [h_after, Table.lookup_insert] at h_r
      split_ifs at h_r with h_key
      · rw [h_key, h_row] at h_none
        cases h_none
      · rw [h_r] at h_none
        cases h_none
  · exact .of_insert h_next h_after

theorem AppliedAs.lookup (h : AppliedAs action e db db') (h_old : id < db.nextId) :
    db'.objects.lookup id = db.objects.lookup id ∨
      db.existing e.item = some id ∧ action = .overwrite := by
  obtain ⟨row, -, -, -, h_after, -⟩ | ⟨id', -, -, rfl⟩ |
    ⟨id', row, row', h_some, h_action, -, -, -, h_after, -⟩ |
    ⟨id', row, -, -, -, -, -, h_after, -⟩ := h
  · rw [h_after, Table.lookup_insert, if_neg h_old.ne]
    exact .inl rfl
  · exact .inl rfl
  · rw [h_after, Table.lookup_insert]
    split_ifs with h_key
    · exact .inr ⟨h_key ▸ h_some, h_action⟩
    · exact .inl rfl
  · rw [h_after, Table.lookup_insert, if_neg h_old.ne]
    exact .inl rfl

/-! ### New names -/

theorem taken_generateRenameName {taken : String → Bool} {fuel : ℕ} {name : String}
    (h : taken (generateRenameName taken fuel name) = true) :
    ∃ names : List String, names.Nodup ∧ names.length = fuel + 1 ∧
      ∀ x ∈ names, taken x = true ∧ name.length < x.length := by
  induction fuel generalizing name with
  | zero =>
    refine ⟨[name ++ "_copy"], List.nodup_singleton _, rfl, ?_⟩
    intro x h_x
    rw [List.mem_singleton.mp h_x, String.length_append]
    exact ⟨h, Nat.lt_add_of_pos_right (by decide)⟩
  | succ fuel ih =>
    unfold generateRenameName at h
    split_ifs at h with h_taken
    · obtain ⟨names, h_nodup, h_length, h_names⟩ := ih h
      refine ⟨(name ++ "_copy") :: names, List.nodup_cons.mpr ⟨?_, h_nodup⟩, by simp [h_length], ?_⟩
      · exact fun h_mem => lt_irrefl _ (h_names _ h_mem).2
      · have h_lt : name.length < (name ++ "_copy").length := by
          rw [String.length_append]
          exact Nat.lt_add_of_pos_right (by decide)
        rintro x (_ | ⟨_, h_x⟩)
        · exact ⟨h_taken, h_lt⟩
        · exact ⟨(h_names x h_x).1, h_lt.trans (h_names x h_x).2⟩
    · exact absurd h h_taken

theorem Db.generateRenameName_free (db : Db) (objectType : ObjectType) (name : String) :
    db.nameTaken objectType (generateRenameName (db.nameTaken objectType)
      db.objects.entries.length name) = false := by
  by_contra h_taken
  rw [Bool.not_eq_false] at h_taken
  obtain ⟨names, h_nodup, h_length, h_names⟩ := taken_generateRenameName h_taken
  have h_sub : names ⊆ db.objects.entries.map fun e => e.2.name := by
    intro x h_x
    obtain ⟨k, row, h_row, h_eq⟩ := Table.anyRow_eq_true.mp (h_names x h_x).1
    rw [Bool.and_eq_true, decide_eq_true_iff, decide_eq_true_iff] at h_eq
    exact List.mem_map.mpr ⟨⟨k, row⟩, AList.mem_lookup_iff.mp h_row, h_eq.2⟩
  have h_le := (h_nodup.subperm h_sub).length_le
  rw [List.length_map, h_length] at h_le
  exact absurd h_le (Nat.not_succ_le_self _)

/-! ### The import of an item -/

/-- What is written is the item, and is named as it is to be. -/
structure Writer.For (w : Writer) (e : Entry) : Prop where
  item : w.item = e.item
  overwrite : ∀ row, row.IsNamed e.item → (w.overwrite row).IsNamed e.item ∧
    (w.overwrite row).restApi = row.restApi ∧ e.Wrote (w.overwrite row).content
  create : ∀ name, (w.create name).objectType = e.item.objectType ∧ (w.create name).name = name ∧
    (e.item.objectType = .datasource → (w.create name).restApi = e.item.restApi) ∧
    e.Wrote (w.create name).content

variable {settings : Settings} {s s' : State}

structure Recorded (action : ConflictAction) (e : Entry) (s s' : State) (result : Result) :
    Prop where
  results : s'.results = s.results ++ [result]
  applied : result.status = .failed ∨ AppliedAs action e s.db s'.db
  overwritten : ∀ id, (result.status = .overwritten ∧ result.newId = some id) ↔
    (s.db.existing e.item = some id ∧ action = .overwrite)

variable (settings s) in
theorem importObject_recorded {w : Writer} (h : w.For e) :
    ∃ result, Recorded (getConflictAction settings.conflictDecisions e.item.key) e s
      (importObject settings w s).1 result := by
  unfold importObject
  rw [h.item]
  cases h_existing : s.db.existing e.item with
  | some id =>
    obtain ⟨row, h_row, h_named⟩ := (Db.existing_eq_some.mp h_existing).1
    have h_id : ∀ {id' : ℕ}, some id = some id' ↔ s.db.existing e.item = some id' := by
      intro id'
      rw [h_existing]
    cases h_action : getConflictAction settings.conflictDecisions e.item.key with
    | skip =>
      refine ⟨_, rfl, .inr (.skipped id h_existing rfl rfl), fun id' => ?_⟩
      exact ⟨fun h_eq => (nomatch h_eq.1), fun h_eq => (nomatch h_eq.2)⟩
    | overwrite =>
      obtain ⟨h_named', h_api, h_wrote⟩ := h.overwrite row h_named
      refine ⟨_, rfl, .inr (.overwritten id row (w.overwrite row) h_existing rfl h_row
        ⟨h_named', h_api⟩ h_wrote ?_ rfl), fun id' => ?_⟩
      · show s.db.objects.modify id w.overwrite = _
        unfold Table.modify
        rw [h_row]
      · exact ⟨fun h_eq => ⟨h_id.mp h_eq.2, rfl⟩, fun h_eq => ⟨rfl, h_id.mpr h_eq.1⟩⟩
    | rename =>
      obtain ⟨h_type, h_name, -, h_wrote⟩ := h.create (generateRenameName
        (s.db.nameTaken e.item.objectType) s.db.objects.entries.length e.item.name)
      refine ⟨_, rfl, .inr (.renamed id _ h_existing rfl h_type ?_ h_wrote rfl rfl), fun id' => ?_⟩
      · rw [h_name]
        exact s.db.generateRenameName_free _ _
      · exact ⟨fun h_eq => (nomatch h_eq.1), fun h_eq => (nomatch h_eq.2)⟩
  | none =>
    have h_none : ∀ {id' : ℕ}, ¬s.db.existing e.item = some id' := by
      intro id' h_some
      rw [h_existing] at h_some
      cases h_some
    cases w.missing with
    | some message =>
      exact ⟨_, rfl, .inl rfl, fun id' => ⟨fun h_eq => (nomatch h_eq.1),
        fun h_eq => absurd h_eq.1 h_none⟩⟩
    | none =>
      obtain ⟨h_type, h_name, h_api, h_wrote⟩ := h.create e.item.name
      exact ⟨_, rfl, .inr (.created _ h_existing ⟨h_type, h_name, h_api⟩ h_wrote rfl rfl),
        fun id' => ⟨fun h_eq => (nomatch h_eq.1), fun h_eq => absurd h_eq.1 h_none⟩⟩

theorem namespaceWriter_for (i : NamespaceItem) :
    (namespaceWriter settings i).For (.nameSpace i) where
  item := rfl
  overwrite _ h_named := ⟨h_named, rfl, _, rfl⟩
  create _ := ⟨rfl, rfl, fun h => (nomatch h), _, rfl⟩

theorem datasourceWriter_for (s : State) (i : DatasourceItem) :
    (datasourceWriter settings s i).For (.datasource i) where
  item := rfl
  overwrite _ h_named := ⟨h_named, rfl, _, _, rfl⟩
  create _ := ⟨rfl, rfl, fun _ => rfl, _, _, rfl⟩

theorem canvasWriter_for {objectType : ObjectType} (h_type : objectType ≠ .datasource)
    (i : CanvasItem) (viewSets : Value) :
    (canvasWriter settings objectType i viewSets).For (.canvas objectType i) where
  item := rfl
  overwrite _ h_named := ⟨h_named, rfl, _, _, rfl⟩
  create _ := ⟨rfl, rfl, fun h => absurd h h_type, _, _, rfl⟩

variable (settings) in
def importEntry (s : State) : Entry → Except PyError State
  | .nameSpace i => .ok (importNamespace settings s i)
  | .datasource i => .ok (importDatasource settings s i)
  | .canvas objectType i => importCanvas settings s (objectType, i)

def Entry.Typed : Entry → Prop
  | .canvas objectType _ => objectType ≠ .datasource
  | _ => True

theorem Recorded.congr {result : Result} {s'' : State} (h : Recorded action e s s' result)
    (h_db : s''.db = s'.db) (h_results : s''.results = s'.results) :
    Recorded action e s s'' result where
  results := h_results.trans h.results
  applied := h_db ▸ h.applied
  overwritten := h.overwritten

theorem importEntry_recorded (h_typed : e.Typed) (h : importEntry settings s e = .ok s') :
    ∃ result, Recorded (getConflictAction settings.conflictDecisions e.item.key) e s s' result := by
  cases e with
  | nameSpace i =>
    cases h
    obtain ⟨result, h_rec⟩ := importObject_recorded settings s (namespaceWriter_for i)
    refine ⟨result, h_rec.congr ?_ ?_⟩ <;> unfold importNamespace <;> dsimp only <;> split <;> rfl
  | datasource i =>
    cases h
    obtain ⟨result, h_rec⟩ := importObject_recorded settings s (datasourceWriter_for s i)
    refine ⟨result, h_rec.congr ?_ ?_⟩ <;> unfold importDatasource <;> dsimp only <;> split <;> rfl
  | canvas objectType i =>
    obtain ⟨normalized, -, h⟩ := bind_eq_ok.mp h
    obtain ⟨viewSets, -, h⟩ := bind_eq_ok.mp h
    cases h
    exact importObject_recorded settings s (canvasWriter_for h_typed i viewSets)

/-! ### The import of a document -/

/-- What the import of some items has done to the database. -/
structure Ran (action : String → ConflictAction) (es : List Entry) (db db' : Db)
    (results : List Result) : Prop where
  applied : AppliedAll action es db db'
  extended : db.Extends db'
  unchanged : ∀ id row, db.objects.lookup id = some row → db'.objects.lookup id = some row ∨
    ∃ e ∈ es, db.existing e.item = some id ∧ action e.item.key = .overwrite
  told : ∀ id row, db.objects.lookup id = some row →
    ((∃ result ∈ results, result.status = .overwritten ∧ result.newId = some id) ↔
      ∃ e ∈ es, db.existing e.item = some id ∧ action e.item.key = .overwrite)

theorem Ran.nil {action : String → ConflictAction} (db : Db) : Ran action [] db db [] where
  applied := rfl
  extended := .refl db
  unchanged id row h_row := .inl h_row
  told id row h_row := by simp only [List.not_mem_nil, false_and, exists_false]

theorem Ran.cons {action : String → ConflictAction} {es : List Entry} {result : Result}
    {results : List Result} (h : Recorded (action e.item.key) e s s' result)
    (h_applied : AppliedAs (action e.item.key) e s.db s'.db)
    (h_ran : Ran action es s'.db db'' results) :
    Ran action (e :: es) s.db db'' (result :: results) := by
  have h_extends := h_applied.extends
  -- an old object is named by an item at its turn as it is named before
  have h_existing : ∀ {item : Item} {id : ℕ} {row : Row}, s.db.objects.lookup id = some row →
      (s'.db.existing item = some id ↔ s.db.existing item = some id) :=
    fun h_row => ⟨fun h_some => h_extends.existing_of h_some h_row, h_extends.existing⟩
  refine ⟨⟨s'.db, h_applied, h_ran.applied⟩, h_extends.trans h_ran.extended, ?_, ?_⟩
  · intro id row h_row
    obtain ⟨row', h_row', -⟩ := h_extends.kept id row h_row
    obtain h_same | h_over := h_applied.lookup (s.db.below.lt h_row)
    · rw [h_row] at h_same
      obtain h_same' | ⟨e', h_e', h_some, h_action⟩ := h_ran.unchanged id row h_same
      · exact .inl h_same'
      · exact .inr ⟨e', List.mem_cons_of_mem e h_e', (h_existing h_row).mp h_some, h_action⟩
    · exact .inr ⟨e, List.mem_cons_self, h_over⟩
  · intro id row h_row
    obtain ⟨row', h_row', -⟩ := h_extends.kept id row h_row
    have h_rest := h_ran.told id row' h_row'
    simp only [h_existing h_row] at h_rest
    simp only [List.mem_cons, or_and_right, exists_or, exists_eq_left, h.overwritten id, h_rest]

theorem importEntries_ran {es : List Entry} (h_typed : ∀ e ∈ es, e.Typed)
    (h : es.foldlM (importEntry settings) s = .ok s') (h_failed : s'.hasFailedResults = false) :
    ∃ results, s'.results = s.results ++ results ∧
      Ran (getConflictAction settings.conflictDecisions) es s.db s'.db results := by
  induction es generalizing s with
  | nil =>
    cases h
    exact ⟨[], (List.append_nil _).symm, .nil _⟩
  | cons e es ih =>
    rw [List.foldlM_cons] at h
    obtain ⟨t, h_t, h⟩ := bind_eq_ok.mp h
    have h_typed' : ∀ e' ∈ es, e'.Typed := fun e' h_e' => h_typed e' (List.mem_cons_of_mem e h_e')
    obtain ⟨result, h_rec⟩ := importEntry_recorded (h_typed e List.mem_cons_self) h_t
    obtain ⟨results, h_results, h_ran⟩ := ih h_typed' h
    have h_all : s'.results = s.results ++ result :: results := by
      rw [h_results, h_rec.results, List.append_assoc]
      rfl
    -- the result of the item is among those that have not failed
    have h_ok : result.status ≠ .failed := by
      intro h_fail
      have h_some : s'.hasFailedResults = true :=
        List.any_eq_true.mpr ⟨result, by simp [h_all], by simp [h_fail]⟩
      rw [h_failed] at h_some
      cases h_some
    exact ⟨result :: results, h_all, .cons h_rec (h_rec.applied.resolve_left h_ok) h_ran⟩

theorem Document.entries_typed {doc : Document} : ∀ e ∈ doc.entries, e.Typed := by
  intro e h_e
  simp only [Document.entries, Document.canvases, List.mem_append, List.mem_map, List.map_append,
    List.map_map, Function.comp] at h_e
  obtain (⟨i, -, rfl⟩ | ⟨i, -, rfl⟩) | (((⟨i, -, rfl⟩ | ⟨i, -, rfl⟩) | ⟨i, -, rfl⟩) |
    ⟨i, -, rfl⟩) | ⟨i, -, rfl⟩ := h_e
  · exact trivial
  · exact trivial
  all_goals exact fun h => nomatch h

theorem Document.items_eq (doc : Document) : doc.items = doc.entries.map Entry.item := by
  unfold items entries
  rw [List.map_append, List.map_append, List.map_map, List.map_map, List.map_map]
  rfl

theorem execute_eq_ok {doc : Document} {report : Report}
    (h : execute settings doc db = .ok report) :
    (report.success = false ∧ report.db = db) ∨
      ∃ s, doc.entries.foldlM (importEntry settings) { db := db } = .ok s ∧
        s.hasFailedResults = false ∧ report = ⟨true, s.results, s.db⟩ := by
  unfold execute at h
  set s₁ := doc.namespaces.foldl (importNamespace settings) { db := db } with h_s₁
  set s₂ := doc.datasources.foldl (importDatasource settings) s₁ with h_s₂
  dsimp only at h
  split_ifs at h with h_failed₁ h_failed₂
  · cases h
    exact .inl ⟨rfl, rfl⟩
  · cases h
    exact .inl ⟨rfl, rfl⟩
  · obtain ⟨s₃, h_s₃, h⟩ := bind_eq_ok.mp h
    split_ifs at h with h_failed₃
    · cases h
      exact .inl ⟨rfl, rfl⟩
    · cases h
      refine .inr ⟨s₃, ?_, Bool.not_eq_true _ ▸ h_failed₃, rfl⟩
      have h_pure : ∀ {α : Type} (f : State → α → State) (g : α → Entry) (xs : List α) (s : State),
          (∀ s x, importEntry settings s (g x) = .ok (f s x)) →
            (xs.map g).foldlM (importEntry settings) s = .ok (xs.foldl f s) := by
        intro α f g xs s h_eq
        rw [List.foldlM_map]
        simp only [h_eq]
        exact List.foldlM_pure
      unfold Document.entries
      rw [List.foldlM_append, List.foldlM_append,
        h_pure (importNamespace settings) .nameSpace _ _ fun _ _ => rfl, ← h_s₁]
      show (List.foldlM _ s₁ _ >>= _) = _
      rw [h_pure (importDatasource settings) .datasource _ _ fun _ _ => rfl, ← h_s₂]
      show List.foldlM _ s₂ _ = _
      rw [List.foldlM_map]
      exact h_s₃

end OperationAnalysis
