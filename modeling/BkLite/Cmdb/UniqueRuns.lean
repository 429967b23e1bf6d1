import BkLite.Cmdb.UniqueRules
import BkLite.Framework.Runs

/-!
# What the unique rules guarantee

`uniqueRules_iff` says for which runs no two instances ever share the values of a rule or of an
`is_only` attribute, the saved rules stay well formed, and a failed operation changes nothing.
-/

namespace Cmdb
namespace UniqueRules

open Py

/-! ### The rules as they are read -/

section Fields

theorem strip_strip (text : List Char) : strip (strip text) = strip text := by
  have h_eq : ∀ text, strip text = (text.dropWhile isSpace).rdropWhile isSpace := fun _ => rfl
  have h_front : (strip text).dropWhile isSpace = strip text := by
    -- what is left begins as what has lost its leading blanks
    rw [List.dropWhile_eq_self_iff]
    intro h_pos
    have h_begins : strip text <+: text.dropWhile isSpace := List.rdropWhile_prefix _ _
    have h_long : 0 < (text.dropWhile isSpace).length := h_pos.trans_le h_begins.length_le
    have h_head := List.dropWhile_get_zero_not isSpace text h_long
    rwa [List.get_mk_zero, ← List.IsPrefix.head h_begins (List.ne_nil_of_length_pos h_pos),
      List.head_eq_getElem] at h_head
  rw [h_eq (strip text), h_front, h_eq text, List.rdropWhile_idempotent]

theorem fromKeys_of_nodup {xs : List String} (h : xs.Nodup) : fromKeys xs = xs := by
  induction xs with
  | nil => rfl
  | cons x xs ih =>
    obtain ⟨h_not_mem, h_xs⟩ := List.nodup_cons.mp h
    have h_filter : (xs.filter fun y => !y == x) = xs := by
      refine List.filter_eq_self.mpr fun y h_y => ?_
      have h_ne : y ≠ x := fun h_same => h_not_mem (h_same ▸ h_y)
      simpa using h_ne
    unfold fromKeys at ih ⊢
    rw [List.eraseDups_cons, h_filter, ih h_xs]

theorem mem_normalize {ids : List String} {fieldId : String}
    (h : fieldId ∈ normalizeRuleFieldIds ids) :
    String.ofList (strip fieldId.toList) = fieldId ∧ fieldId ≠ "" := by
  rw [normalizeRuleFieldIds, mem_fromKeys, List.mem_filter, List.mem_map] at h
  obtain ⟨⟨raw, -, rfl⟩, h_ne⟩ := h
  refine ⟨?_, of_decide_eq_true h_ne⟩
  rw [String.toList_ofList, strip_strip]

theorem normalize_normalize (ids : List String) :
    normalizeRuleFieldIds (normalizeRuleFieldIds ids) = normalizeRuleFieldIds ids := by
  have h_map : ((normalizeRuleFieldIds ids).map fun id => String.ofList (strip id.toList)) =
      normalizeRuleFieldIds ids := by
    refine (List.map_congr_left fun id h_id => ?_).trans (List.map_id _)
    exact (mem_normalize h_id).1
  have h_filter : ((normalizeRuleFieldIds ids).filter (· ≠ "")) = normalizeRuleFieldIds ids :=
    List.filter_eq_self.mpr fun id h_id => decide_eq_true (mem_normalize h_id).2
  rw [normalizeRuleFieldIds, h_map, h_filter]
  exact fromKeys_of_nodup (nodup_fromKeys _)

def fieldLists (raw : List Rule) : List (List String) := (parseUniqueRules raw).map Rule.fieldIds

theorem map_zipIdx {α β : Type*} (f : α → β) (xs : List α) :
    (xs.zipIdx.map fun entry => f entry.1) = xs.map f := by
  calc xs.zipIdx.map (fun entry => f entry.1) = (xs.zipIdx.map Prod.fst).map f :=
        (List.map_map ..).symm
    _ = xs.map f := by rw [List.zipIdx_map_fst]

@[simp] theorem map_fieldIds_reorder (rules : List Rule) :
    (reorderUniqueRules rules).map Rule.fieldIds = rules.map Rule.fieldIds := by
  rw [reorderUniqueRules, List.map_map]
  exact map_zipIdx Rule.fieldIds rules

@[simp] theorem map_ruleId_reorder (rules : List Rule) :
    (reorderUniqueRules rules).map Rule.ruleId = rules.map Rule.ruleId := by
  rw [reorderUniqueRules, List.map_map]
  exact map_zipIdx Rule.ruleId rules

theorem fieldLists_perm (raw : List Rule) :
    (fieldLists raw).Perm
      ((raw.map fun rule => normalizeRuleFieldIds rule.fieldIds).filter (· ≠ [])) := by
  rw [fieldLists, parseUniqueRules, map_fieldIds_reorder]
  refine ((List.perm_insertionSort _ _).map Rule.fieldIds).trans (List.Perm.of_eq ?_)
  rw [← map_zipIdx (fun rule : Rule => normalizeRuleFieldIds rule.fieldIds), List.filter_map,
    List.filter_map, List.map_map]
  rfl

theorem ruleIds_subperm (raw : List Rule) :
    ((parseUniqueRules raw).map Rule.ruleId).Subperm (raw.map Rule.ruleId) := by
  rw [parseUniqueRules, map_ruleId_reorder, ← map_zipIdx Rule.ruleId raw]
  refine ((List.perm_insertionSort _ _).map Rule.ruleId).subperm.trans (List.Sublist.subperm ?_)
  refine (List.filter_sublist.map Rule.ruleId).trans ?_
  rw [List.map_map]
  exact List.Sublist.refl _

theorem normalize_of_mem_fieldLists {raw : List Rule} {ids : List String}
    (h : ids ∈ fieldLists raw) : normalizeRuleFieldIds ids = ids ∧ ids ≠ [] := by
  have h_mem := (fieldLists_perm raw).mem_iff.mp h
  rw [List.mem_filter, List.mem_map] at h_mem
  obtain ⟨⟨rule, -, rfl⟩, h_ne⟩ := h_mem
  exact ⟨normalize_normalize _, of_decide_eq_true h_ne⟩

theorem fieldLists_parse (raw : List Rule) :
    (fieldLists (parseUniqueRules raw)).Perm (fieldLists raw) := by
  refine (fieldLists_perm _).trans (List.Perm.of_eq ?_)
  have h_map : ((parseUniqueRules raw).map fun rule => normalizeRuleFieldIds rule.fieldIds) =
      fieldLists raw := by
    refine List.map_congr_left fun rule h_rule => ?_
    exact (normalize_of_mem_fieldLists (List.mem_map_of_mem h_rule)).1
  rw [h_map]
  exact List.filter_eq_self.mpr fun ids h_ids =>
    decide_eq_true (normalize_of_mem_fieldLists h_ids).2

end Fields

/-! ### The guarantee -/

section Guarantee

variable (env : Env)

/-- No rule and no `is_only` attribute has the same non-empty values in both. -/
def Apart (fields : List (List String)) (get get' : String → Value) : Prop :=
  (∀ ids ∈ fields, ∀ signature, buildRuleSignature get ids = some signature →
    buildRuleSignature get' ids ≠ some signature) ∧
  ∀ attr ∈ env.attrs, attr.isOnly = true → (get attr.attrId).truthy = true →
    (get' attr.attrId).truthy = true → image (get attr.attrId) ≠ image (get' attr.attrId)

def StoredApart (fields : List (List String)) (get get' : String → Value) : Prop :=
  Apart env fields (deserializeTableFields env get) (deserializeTableFields env get')

/-- The saved rules are few, disjoint, and on required fields. -/
structure RulesOk (fields : List (List String)) : Prop where
  few : fields.length ≤ uniqueRuleMaxCount
  disjoint : fields.Pairwise List.Disjoint
  required : ∀ ids ∈ fields, ∀ fieldId ∈ ids, ∃ attr, attrById env fieldId = some attr ∧
    attr.isRequired = true

/-- The unique rules hold. -/
structure Sound (s : State) : Prop where
  apart : s.store.Pairwise (StoredApart env (fieldLists s.saved))
  rules : RulesOk env (fieldLists s.saved)

/-- Ids are different ones, and `uuid4` gives new ones. -/
structure Known (s : State) : Prop where
  numbered : s.store.Numbered
  nodup : (s.saved.map Rule.ruleId).Nodup
  fresh : ∀ n, s.nextRule ≤ n → env.uuid n ∉ s.saved.map Rule.ruleId

/-- No two instances have the same values in all fields of `ids`. -/
def Unshared (ids : List String) (s : State) : Prop :=
  s.store.Pairwise fun get get' => ∀ signature,
    buildRuleSignature (deserializeTableFields env get) ids = some signature →
      buildRuleSignature (deserializeTableFields env get') ids ≠ some signature

/-- The field is in a rule or is an `is_only` attribute. -/
def Constrained (fields : List (List String)) (key : String) : Prop :=
  (∃ ids ∈ fields, key ∈ ids) ∨ ∃ attr ∈ env.attrs, attr.isOnly = true ∧ attr.attrId = key

/-- No rule has a table, and no table is `is_only`. -/
def NoTable (s : State) : Prop :=
  ∀ key, Constrained env (fieldLists s.saved) key → isTable env key = false

/-- The update writes no field of a rule or all of them, and every `is_only` attribute that it
submits. -/
def Whole (attr : Props) (s : State) : Prop :=
  (∀ ids ∈ fieldLists s.saved,
    (∀ key ∈ ids, ¬(attr.getEditable (editable env)).Has key) ∨
      ∀ key ∈ ids, (attr.getEditable (editable env)).Has key) ∧
  ∀ only ∈ env.attrs, only.isOnly = true → attr.Has only.attrId → editable env only.attrId = true

def Alone (ids : List ℕ) (s : State) : Prop :=
  ∀ i ∈ s.store.rows, ∀ j ∈ s.store.rows, i.id ∈ ids → j.id ∈ ids → i.id = j.id

def Fits (ids : List ℕ) (attr : Props) (s : State) : Prop :=
  s.store.Fits (StoredApart env (fieldLists s.saved)) ids
    (serializeTableFields env (attr.getEditable (editable env)))

def NewFits (info : Props) (operator : String) (s : State) : Prop :=
  ∀ row ∈ s.store.rows, StoredApart env (fieldLists s.saved)
    (serializeTableFields env (withCreator operator info)).get row.get

/-- Every item that is created is apart from the instances that are there. -/
def ItemsFit (operator : String) : List (Props × Bool) → List Instance → State → Prop
  | [], _, _ => True
  | (info, refused) :: items, existItems, s =>
    match checkEntity env info refused operator existItems (parseUniqueRules s.saved) with
    | .error _ => ItemsFit operator items existItems s
    | .ok props => NewFits env info operator s ∧
      ItemsFit operator items (existItems ++ [{ id := s.store.nextId, get := props.get }])
        (s.create props)

/-- The condition of an operation that succeeds. -/
def Allowed (s : State) : Op → Prop
  | .createUniqueRule fieldIds | .updateUniqueRule _ fieldIds =>
    normalizeRuleFieldIds fieldIds = fieldIds ∨ Unshared env (normalizeRuleFieldIds fieldIds) s
  | .deleteUniqueRule _ => True
  | .instanceCreate info operator _ => NoTable env s ∨ NewFits env info operator s
  | .instanceUpdate id attr _ => NoTable env s ∧ Whole env attr s ∨ Fits env [id] attr s
  | .batchInstanceUpdate ids attr _ =>
    NoTable env s ∧ Whole env attr s ∧ Alone ids s ∨ Fits env ids attr s
  | .batchCreateEntity items operator _ =>
    NoTable env s ∨ ItemsFit env operator items (queryEntity env s) s

def Met (s : State) (op : Op) : Prop :=
  ∀ t, op.write env (mergeTagOptions (op.tags s) s) = .ok t →
    Allowed env (mergeTagOptions (op.tags s) s) op

def Quiet (s : State) (op : Op) : Prop :=
  op.failure env s ≠ none → (∀ tag ∈ op.tags s, tag ∈ s.options) ∧
    ∀ t, op.write env s = .ok t → t = s

end Guarantee

/-! ### The checks -/

section Checks

variable {env : Env} {s t : State}

theorem of_scanConflicts {rule : Rule} {exist : List (List (List Token))} {batchPrefix : String}
    {batch : List (List (List Token))} {items : List (String → Value)}
    (h : scanConflicts rule exist batchPrefix batch items = []) :
    (∀ item ∈ items, ∀ signature, buildRuleSignature item rule.fieldIds = some signature →
      signature ∉ exist ∧ signature ∉ batch) ∧
    items.Pairwise fun item item' => ∀ signature,
      buildRuleSignature item rule.fieldIds = some signature →
        buildRuleSignature item' rule.fieldIds ≠ some signature := by
  induction items generalizing batch with
  | nil => exact ⟨nofun, List.Pairwise.nil⟩
  | cons item items ih =>
    rw [scanConflicts] at h
    cases h_item : buildRuleSignature item rule.fieldIds with
    | none =>
      rw [h_item] at h
      obtain ⟨h_apart, h_pairs⟩ := ih h
      refine ⟨?_, List.pairwise_cons.mpr ⟨?_, h_pairs⟩⟩
      · rintro item' h_mem signature h_signature
        obtain rfl | h_later := List.mem_cons.mp h_mem
        · cases h_item.symm.trans h_signature
        · exact h_apart item' h_later signature h_signature
      · rintro item' - signature h_signature
        cases h_item.symm.trans h_signature
    | some own =>
      rw [h_item] at h
      simp only at h
      split_ifs at h with h_exist h_batch
      obtain ⟨h_apart, h_pairs⟩ := ih h
      refine ⟨?_, List.pairwise_cons.mpr ⟨?_, h_pairs⟩⟩
      · rintro item' h_mem signature h_signature
        obtain rfl | h_later := List.mem_cons.mp h_mem
        · obtain rfl : own = signature := Option.some.inj (h_item.symm.trans h_signature)
          exact ⟨h_exist, h_batch⟩
        · obtain ⟨h_not_exist, h_not_seen⟩ := h_apart item' h_later signature h_signature
          exact ⟨h_not_exist, fun h_old => h_not_seen (List.mem_cons_of_mem _ h_old)⟩
      · -- the signature of the item is among those that the later ones are compared with
        rintro item' h_later signature h_signature h_same
        obtain rfl : own = signature := Option.some.inj (h_item.symm.trans h_signature)
        exact (h_apart item' h_later own h_same).2 List.mem_cons_self

theorem of_checkUniqueRules {item : Props} {saved : List Rule} {existItems : List Instance}
    {excluded : List ℕ}
    (h : checkUniqueRules item (parseUniqueRules saved) existItems excluded = .ok ()) :
    ∀ ids ∈ fieldLists saved, ∀ row ∈ existItems, row.id ∉ excluded → ∀ signature,
      buildRuleSignature item.get ids = some signature →
        buildRuleSignature row.get ids ≠ some signature := by
  intro ids h_ids row h_row h_excluded signature h_signature h_same
  have h_none : collectUniqueRuleConflicts (parseUniqueRules (parseUniqueRules saved)) [item.get]
      existItems excluded = [] := by
    unfold checkUniqueRules at h
    split at h
    · assumption
    · cases h
  obtain ⟨rule, h_rule, rfl⟩ := List.mem_map.mp ((fieldLists_parse saved).symm.mem_iff.mp h_ids)
  have h_scan := of_scanConflicts (List.flatMap_eq_nil_iff.mp h_none rule h_rule)
  refine (h_scan.1 item.get List.mem_cons_self signature h_signature).1 ?_
  refine List.mem_filterMap.mpr ⟨row, List.mem_filter.mpr ⟨h_row, ?_⟩, h_same⟩
  exact decide_eq_true h_excluded

theorem of_checkUniqueAttr {item : Props} {existItems : List Instance} {isUpdate : Bool}
    (h : checkUniqueAttr env item existItems isUpdate = .ok ()) :
    ∀ attr ∈ env.attrs, attr.isOnly = true → (isUpdate = true → item.Has attr.attrId) →
      ∀ row ∈ existItems, (item.get attr.attrId).truthy = true →
        (row.get attr.attrId).truthy = true →
          image (item.get attr.attrId) ≠ image (row.get attr.attrId) := by
  intro attr h_attr h_only h_has row h_row h_item h_row_value h_same
  unfold checkUniqueAttr at h
  split at h
  · rename_i h_none
    refine List.filter_eq_nil_iff.mp h_none attr h_attr ?_
    have h_checked : (!isUpdate || decide (item.Has attr.attrId)) = true := by
      cases isUpdate with
      | false => rfl
      | true => exact decide_eq_true (h_has rfl)
    have h_any : (existItems.any fun row => (row.get attr.attrId).truthy &&
        (item.get attr.attrId).truthy &&
          decide (image (item.get attr.attrId) = image (row.get attr.attrId))) = true := by
      refine List.any_eq_true.mpr ⟨row, h_row, ?_⟩
      rw [h_item, h_row_value, h_same]
      simp
    rw [h_only, h_checked, h_any]
    rfl
  · cases h

end Checks

/-! ### Reading what is written -/

section Reading

variable {env : Env} {s t : State} {fields : List (List String)}

theorem attrId_of_attrById {fieldId : String} {attr : Attr}
    (h : attrById env fieldId = some attr) : attr.attrId = fieldId := by
  simpa using List.find?_some h

theorem ne_creator (h_rules : RulesOk env fields) {key : String}
    (h : Constrained env fields key) : key ≠ "_creator" := by
  obtain ⟨ids, h_ids, h_key⟩ | ⟨attr, -, -, rfl⟩ := h
  · obtain ⟨attr, h_attr, -⟩ := h_rules.required ids h_ids key h_key
    rw [← attrId_of_attrById h_attr]
    exact attr.named
  · exact attr.named

theorem deserialize_of_not_table {get : String → Value} {key : String}
    (h : isTable env key = false) : deserializeTableFields env get key = get key := by
  unfold deserializeTableFields
  cases h_value : get key <;> simp [h]

theorem serialize_of_not_table {key : String} (h : isTable env key = false) (x : Value) :
    serializeValue env key x = x := by
  unfold serializeValue
  cases x <;> simp [h]

theorem get_serialize (props : Props) (key : String) :
    (serializeTableFields env props).get key = serializeValue env key (props.get key) := by
  unfold Props.get Value.lookup serializeTableFields
  rw [List.find?_map]
  show ((Option.map _ (props.find? (fun entry => entry.1 = key))).map Prod.snd).getD _ = _
  cases h_find : props.find? fun entry => entry.1 = key with
  | none => rfl
  | some entry =>
    have h_key : entry.1 = key := by simpa using List.find?_some h_find
    rw [← h_key]
    rfl

theorem has_serialize (props : Props) (key : String) :
    (serializeTableFields env props).Has key ↔ props.Has key := by
  rw [Props.Has, serializeTableFields, List.map_map]
  rfl

theorem get_withCreator (operator : String) (props : Props) {key : String}
    (h : key ≠ "_creator") : (withCreator operator props).get key = props.get key := by
  unfold withCreator
  split_ifs
  · rfl
  · have h_own : (("_creator", Value.str operator) : String × Value).1 ≠ key := h.symm
    have h_same : (fun entry : String × Value =>
        decide (decide (entry.1 ≠ "_creator") = true ∧ decide (entry.1 = key) = true)) =
          fun entry => decide (entry.1 = key) := by
      ext entry
      by_cases h_key : entry.1 = key <;> simp [h_key, h]
    rw [Props.get, Value.lookup, List.find?_append, List.find?_filter, h_same,
      List.find?_cons_of_neg (by simpa using h_own), List.find?_nil, Option.or_none]
    rfl

theorem read_create (h_rules : RulesOk env (fieldLists s.saved)) (h_table : NoTable env s)
    (operator : String) (info : Props) {key : String}
    (h : Constrained env (fieldLists s.saved) key) :
    (serializeTableFields env (withCreator operator info)).get key = info.get key := by
  rw [get_serialize, serialize_of_not_table (h_table key h),
    get_withCreator operator info (ne_creator h_rules h)]

theorem buildRuleSignature_congr {get get' : String → Value} {ids : List String}
    (h : ∀ key ∈ ids, get key = get' key) :
    buildRuleSignature get ids = buildRuleSignature get' ids := by
  have h_any : (ids.any fun key => isEmptyUniqueRuleValue (get key)) =
      ids.any fun key => isEmptyUniqueRuleValue (get' key) := by
    rw [Bool.eq_iff_iff, List.any_eq_true, List.any_eq_true]
    refine exists_congr fun key => and_congr_right fun h_key => ?_
    rw [h key h_key]
  have h_map : (ids.map fun key => dumps (get key)) = ids.map fun key => dumps (get' key) :=
    List.map_congr_left fun key h_key => congrArg dumps (h key h_key)
  rw [buildRuleSignature, buildRuleSignature, h_any, h_map]

theorem Apart.congr {get get' g g' : String → Value}
    (h_get : ∀ key, Constrained env fields key → get key = g key)
    (h_get' : ∀ key, Constrained env fields key → get' key = g' key)
    (h : Apart env fields g g') : Apart env fields get get' := by
  refine ⟨fun ids h_ids => ?_, fun attr h_attr h_only => ?_⟩
  · rw [buildRuleSignature_congr fun key h_key => h_get key (.inl ⟨ids, h_ids, h_key⟩),
      buildRuleSignature_congr fun key h_key => h_get' key (.inl ⟨ids, h_ids, h_key⟩)]
    exact h.1 ids h_ids
  · rw [h_get _ (.inr ⟨attr, h_attr, h_only, rfl⟩), h_get' _ (.inr ⟨attr, h_attr, h_only, rfl⟩)]
    exact h.2 attr h_attr h_only

theorem Apart.symm {get get' : String → Value} (h : Apart env fields get get') :
    Apart env fields get' get := by
  refine ⟨fun ids h_ids signature h_signature h_same => ?_, ?_⟩
  · exact h.1 ids h_ids signature h_same h_signature
  · intro attr h_attr h_only h_truthy h_truthy' h_image
    exact h.2 attr h_attr h_only h_truthy' h_truthy h_image.symm

theorem StoredApart.symm (get get' : String → Value) (h : StoredApart env fields get get') :
    StoredApart env fields get' get := Apart.symm h

theorem Apart.mono {fields' : List (List String)} (h_sub : fields' ⊆ fields)
    {get get' : String → Value} (h : Apart env fields get get') : Apart env fields' get get' :=
  ⟨fun ids h_ids => h.1 ids (h_sub h_ids), h.2⟩

end Reading

/-! ### Creating instances -/

section Creating

variable {env : Env} {s t : State} {info props : Props} {refused : Bool} {operator : String}
  {existItems : List Instance}

def Covers (env : Env) (existItems : List Instance) (s : State) : Prop :=
  ∀ row ∈ s.store.rows, ∃ seen ∈ existItems, ∀ key, Constrained env (fieldLists s.saved) key →
    seen.get key = deserializeTableFields env row.get key

theorem covers_queryEntity (s : State) : Covers env (queryEntity env s) s :=
  fun _ h_row => ⟨_, List.mem_map_of_mem h_row, fun _ _ => rfl⟩

theorem of_checkEntity (h : checkEntity env info refused operator existItems
      (parseUniqueRules s.saved) = .ok props) :
    props = serializeTableFields env (withCreator operator info) ∧
      ∀ row ∈ existItems, Apart env (fieldLists s.saved) info.get row.get := by
  unfold checkEntity at h
  split_ifs at h
  · cases h
  obtain ⟨⟨⟩, h_attr, h⟩ := bind_eq_ok.mp h
  obtain ⟨⟨⟩, h_rule, h⟩ := bind_eq_ok.mp h
  obtain ⟨⟨⟩, -, h⟩ := bind_eq_ok.mp h
  refine ⟨(Except.ok.inj h).symm, fun row h_row => ⟨fun ids h_ids => ?_, ?_⟩⟩
  · exact of_checkUniqueRules h_rule ids h_ids row h_row List.not_mem_nil
  · intro attr h_mem h_only h_truthy h_truthy'
    exact of_checkUniqueAttr h_attr attr h_mem h_only nofun row h_row h_truthy h_truthy'

theorem newFits_of_checkEntity (h_rules : RulesOk env (fieldLists s.saved))
    (h_table : NoTable env s) (h_covers : Covers env existItems s)
    (h : checkEntity env info refused operator existItems (parseUniqueRules s.saved) = .ok props) :
    NewFits env info operator s := by
  intro row h_row
  obtain ⟨seen, h_seen, h_same⟩ := h_covers row h_row
  refine Apart.congr (fun key h_key => ?_) (fun key h_key => (h_same key h_key).symm)
    ((of_checkEntity h).2 seen h_seen)
  rw [deserialize_of_not_table (h_table key h_key), read_create h_rules h_table operator info h_key]

theorem of_instanceCreate (h : instanceCreate env info refused operator s = .ok t) :
    checkEntity env info refused operator (queryEntity env s) (parseUniqueRules s.saved) =
        .ok (serializeTableFields env (withCreator operator info)) ∧
      t = s.create (serializeTableFields env (withCreator operator info)) := by
  obtain ⟨props, h_check, h⟩ := bind_eq_ok.mp h
  obtain rfl := (of_checkEntity h_check).1
  exact ⟨h_check, (Except.ok.inj h).symm⟩

theorem sound_create_iff (h_numbered : s.store.Numbered) (h : Sound env s) :
    Sound env (s.create (serializeTableFields env (withCreator operator info))) ↔
      NewFits env info operator s := by
  have h_pairs : (s.store.create (serializeTableFields env (withCreator operator info))).Pairwise _ ↔
      NewFits env info operator s := Store.pairwise_create_iff StoredApart.symm h_numbered h.apart
  exact ⟨fun h_after => h_pairs.mp h_after.apart, fun h_new => ⟨h_pairs.mpr h_new, h.rules⟩⟩

theorem covers_create (h_table : NoTable env s) (h : Covers env existItems s) (props : Props) :
    Covers env (existItems ++ [{ id := s.store.nextId, get := props.get }])
      (s.create props) := by
  intro row h_row
  obtain h_old | h_new := List.mem_append.mp h_row
  · obtain ⟨seen, h_seen, h_same⟩ := h row h_old
    exact ⟨seen, List.mem_append_left _ h_seen, h_same⟩
  · rw [List.mem_singleton.mp h_new]
    refine ⟨_, List.mem_append_right _ List.mem_cons_self, fun key h_key => ?_⟩
    exact (deserialize_of_not_table (h_table key h_key)).symm

theorem itemsFit_of_noTable {items : List (Props × Bool)} (h_numbered : s.store.Numbered)
    (h : Sound env s) (h_table : NoTable env s) (h_covers : Covers env existItems s) :
    ItemsFit env operator items existItems s := by
  induction items generalizing existItems s with
  | nil => trivial
  | cons item items ih =>
    obtain ⟨info, refused⟩ := item
    rw [ItemsFit]
    cases h_check : checkEntity env info refused operator existItems
        (parseUniqueRules s.saved) with
    | error _ => exact ih h_numbered h h_table h_covers
    | ok props =>
      have h_new := newFits_of_checkEntity h.rules h_table h_covers h_check
      obtain rfl := (of_checkEntity h_check).1
      refine ⟨h_new, ih (s := s.create _) h_numbered.create ?_ h_table
        (covers_create h_table h_covers _)⟩
      exact (sound_create_iff h_numbered h).mpr h_new

theorem batchCreateEntity_mono (env : Env) (operator : String) (items : List (Props × Bool))
    (existItems : List Instance) (s : State) : (∀ row ∈ s.store.rows,
      row ∈ (batchCreateEntity env operator items existItems s).store.rows) ∧
        (batchCreateEntity env operator items existItems s).saved = s.saved ∧
          (batchCreateEntity env operator items existItems s).options = s.options := by
  induction items generalizing existItems s with
  | nil => exact ⟨fun _ => id, rfl, rfl⟩
  | cons item items ih =>
    obtain ⟨info, refused⟩ := item
    rw [batchCreateEntity]
    cases checkEntity env info refused operator existItems (parseUniqueRules s.saved) with
    | error _ => exact ih existItems s
    | ok props =>
      obtain ⟨h_rows, h_rest⟩ := ih (existItems ++ [{ id := s.store.nextId, get := props.get }])
        (s.create props)
      exact ⟨fun row h_row => h_rows row (List.mem_append_left _ h_row), h_rest⟩

theorem sound_of_batchCreateEntity {items : List (Props × Bool)}
    (h : Sound env (batchCreateEntity env operator items existItems s)) : Sound env s := by
  obtain ⟨h_rows, h_saved, -⟩ := batchCreateEntity_mono env operator items existItems s
  obtain ⟨h_apart, h_rules⟩ := h
  rw [h_saved] at h_apart h_rules
  exact ⟨fun i h_i j h_j => h_apart i (h_rows i h_i) j (h_rows j h_j), h_rules⟩

theorem sound_batchCreate_iff {items : List (Props × Bool)} (h_numbered : s.store.Numbered)
    (h : Sound env s) : Sound env (batchCreateEntity env operator items existItems s) ↔
      ItemsFit env operator items existItems s := by
  induction items generalizing existItems s with
  | nil => exact iff_of_true h trivial
  | cons item items ih =>
    obtain ⟨info, refused⟩ := item
    rw [batchCreateEntity, ItemsFit]
    cases h_check : checkEntity env info refused operator existItems
        (parseUniqueRules s.saved) with
    | error _ => exact ih h_numbered h
    | ok props =>
      obtain rfl := (of_checkEntity h_check).1
      simp only
      rw [← sound_create_iff h_numbered h]
      constructor
      · intro h_after
        have h_new := sound_of_batchCreateEntity h_after
        exact ⟨h_new, (ih h_numbered.create h_new).mp h_after⟩
      · rintro ⟨h_new, h_items⟩
        exact (ih h_numbered.create h_new).mpr h_items

end Creating

/-! ### Updating instances -/

section Updating

variable {env : Env} {s t : State} {attr : Props} {refused : Bool} {ids : List ℕ}

theorem of_batchInstanceUpdate (h : batchInstanceUpdate env ids attr refused s = .ok t) :
    t = s.write ids (serializeTableFields env (attr.getEditable (editable env))) ∧
      ∀ row ∈ s.store.rows, row.id ∉ ids →
        (∀ fields ∈ fieldLists s.saved, ∀ signature,
          buildRuleSignature attr.get fields = some signature →
            buildRuleSignature (deserializeTableFields env row.get) fields ≠ some signature) ∧
        ∀ only ∈ env.attrs, only.isOnly = true → attr.Has only.attrId →
          (attr.get only.attrId).truthy = true →
            (deserializeTableFields env row.get only.attrId).truthy = true →
              image (attr.get only.attrId) ≠
                image (deserializeTableFields env row.get only.attrId) := by
  unfold batchInstanceUpdate at h
  split_ifs at h
  obtain ⟨⟨⟩, h_attr, h⟩ := bind_eq_ok.mp h
  obtain ⟨⟨⟩, h_rule, h⟩ := bind_eq_ok.mp h
  obtain ⟨⟨⟩, -, h⟩ := bind_eq_ok.mp h
  split_ifs at h
  refine ⟨(Except.ok.inj h).symm, fun row h_row h_id => ?_⟩
  have h_listed : { row with get := deserializeTableFields env row.get } ∈
      (queryEntity env s).filter (·.id ∉ ids) :=
    List.mem_filter.mpr ⟨List.mem_map_of_mem h_row, decide_eq_true h_id⟩
  constructor
  · intro fields h_fields
    exact of_checkUniqueRules h_rule fields h_fields _ h_listed h_id
  · intro only h_only h_isOnly h_has
    exact of_checkUniqueAttr h_attr only h_only h_isOnly (fun _ => h_has) _ h_listed

theorem read_write {key : String} (h_table : isTable env key = false) {row : Instance}
    (h_row : row.id ∈ ids) :
    deserializeTableFields env
        (row.written ids (serializeTableFields env (attr.getEditable (editable env)))).get key =
      if (attr.getEditable (editable env)).Has key then attr.get key
        else deserializeTableFields env row.get key := by
  rw [deserialize_of_not_table h_table, deserialize_of_not_table h_table, Instance.written,
    if_pos h_row]
  show (if (serializeTableFields env (attr.getEditable (editable env))).Has key then _ else _) = _
  by_cases h_has : (attr.getEditable (editable env)).Has key
  · rw [if_pos h_has, if_pos ((has_serialize _ _).mpr h_has), get_serialize,
      serialize_of_not_table h_table, Props.get_getEditable (Props.has_getEditable.mp h_has).2]
  · rw [if_neg h_has, if_neg fun h_edit => h_has ((has_serialize _ _).mp h_edit)]

theorem fits_of_whole (h : Sound env s) (h_table : NoTable env s) (h_whole : Whole env attr s)
    (h_alone : Alone ids s) (h_ok : batchInstanceUpdate env ids attr refused s = .ok t) :
    Fits env ids attr s := by
  intro i h_i h_mem j h_j h_ne
  have h_other : j.id ∉ ids := fun h_j_mem => h_ne (h_alone i h_i j h_j h_mem h_j_mem)
  obtain ⟨h_rule, h_only⟩ := (of_batchInstanceUpdate h_ok).2 j h_j h_other
  have h_before := h.apart i h_i j h_j h_ne
  have h_same : j.written ids (serializeTableFields env (attr.getEditable (editable env))) = j :=
    if_neg h_other
  rw [h_same]
  refine ⟨fun fields h_fields => ?_, fun only h_mem_only h_isOnly => ?_⟩
  · have h_field : ∀ key ∈ fields, isTable env key = false := fun key h_key =>
      h_table key (.inl ⟨fields, h_fields, h_key⟩)
    obtain h_none | h_all := h_whole.1 fields h_fields
    · -- no field of the rule is written
      rw [buildRuleSignature_congr fun key h_key =>
        (read_write (h_field key h_key) h_mem).trans (if_neg (h_none key h_key))]
      exact h_before.1 fields h_fields
    · -- all fields of the rule are, as they were checked
      rw [buildRuleSignature_congr fun key h_key =>
        (read_write (h_field key h_key) h_mem).trans (if_pos (h_all key h_key))]
      exact h_rule fields h_fields
  · rw [read_write (h_table _ (.inr ⟨only, h_mem_only, h_isOnly, rfl⟩)) h_mem]
    by_cases h_has : (attr.getEditable (editable env)).Has only.attrId
    · rw [if_pos h_has]
      exact h_only only h_mem_only h_isOnly (Props.has_getEditable.mp h_has).1
    · rw [if_neg h_has]
      exact h_before.2 only h_mem_only h_isOnly

theorem sound_write_iff (h : Sound env s) :
    Sound env (s.write ids (serializeTableFields env (attr.getEditable (editable env)))) ↔
      Fits env ids attr s := by
  have h_pairs : (s.store.write ids (serializeTableFields env
      (attr.getEditable (editable env)))).Pairwise _ ↔ Fits env ids attr s :=
    Store.pairwise_write_iff StoredApart.symm h.apart
  exact ⟨fun h_after => h_pairs.mp h_after.apart, fun h_fits => ⟨h_pairs.mpr h_fits, h.rules⟩⟩

end Updating

/-! ### Changing the rules -/

section Rules

variable {env : Env} {s t : State} {rules : List Rule} {fieldIds : List String}
  {editing : Option String}

theorem of_saveRules (h : saveRules env rules s = .ok t) :
    t = { s with saved := reorderUniqueRules rules } ∧
      ∀ rule ∈ rules, Unshared env rule.fieldIds s := by
  unfold saveRules at h
  split at h
  · rename_i h_none
    refine ⟨(Except.ok.inj h).symm, fun rule h_rule i h_i j h_j h_ne => ?_⟩
    have h_scan := (of_scanConflicts (List.flatMap_eq_nil_iff.mp h_none rule h_rule)).2
    rw [queryEntity, List.map_map, List.pairwise_map] at h_scan
    refine List.Pairwise.forall_of_forall_of_flip
      (R := fun i j : Instance => i.id ≠ j.id → ∀ signature,
        buildRuleSignature (deserializeTableFields env i.get) rule.fieldIds = some signature →
          buildRuleSignature (deserializeTableFields env j.get) rule.fieldIds ≠ some signature)
      (fun _ _ h_own => absurd rfl h_own) ?_ ?_ h_i h_j h_ne
    · exact h_scan.imp fun {i j} h_apart (_ : i.id ≠ j.id) => h_apart
    · exact h_scan.imp fun h_apart _ signature h_i h_j => h_apart signature h_j h_i
  · cases h

theorem of_checkFields {fields : List String} (h : checkFields env rules editing fields = .ok ()) :
    ∀ fieldId ∈ fields, (∃ attr, attrById env fieldId = some attr ∧ attr.isRequired = true) ∧
      ∀ rule ∈ keptRules rules editing, fieldId ∉ rule.fieldIds := by
  induction fields with
  | nil => nofun
  | cons fieldId fields ih =>
    obtain ⟨⟨⟩, h_field, h_rest⟩ := bind_eq_ok.mp h
    intro fieldId' h_mem
    obtain rfl | h_later := List.mem_cons.mp h_mem
    · unfold checkField at h_field
      split at h_field
      · cases h_field
      · rename_i attr h_attr
        split_ifs at h_field with h_inst h_org h_required h_type h_occupied
        refine ⟨⟨attr, h_attr, by simpa using h_required⟩, fun rule h_rule h_own => ?_⟩
        exact h_occupied (List.mem_flatMap.mpr ⟨rule, h_rule, h_own⟩)
    · exact ih h_rest fieldId' h_later

theorem of_validateUniqueRulePayload
    (h : validateUniqueRulePayload env rules fieldIds editing = .ok ()) :
    normalizeRuleFieldIds fieldIds ≠ [] ∧ (editing = none → rules.length < uniqueRuleMaxCount) ∧
      ∀ fieldId ∈ normalizeRuleFieldIds fieldIds,
        (∃ attr, attrById env fieldId = some attr ∧ attr.isRequired = true) ∧
          ∀ rule ∈ keptRules rules editing, fieldId ∉ rule.fieldIds := by
  unfold validateUniqueRulePayload at h
  split_ifs at h with h_empty h_length h_many
  refine ⟨h_empty, fun h_none => ?_, of_checkFields h⟩
  by_contra h_count
  exact h_many ⟨h_none, Nat.le_of_not_lt h_count⟩

theorem RulesOk.subperm {fields fields' : List (List String)} (h : RulesOk env fields)
    (h_sub : fields'.Subperm fields) : RulesOk env fields' := by
  obtain ⟨list, h_perm, h_sublist⟩ := h_sub
  constructor
  · exact h_perm.length_eq.symm.le.trans (h_sublist.length_le.trans h.few)
  · exact (h_perm.pairwise_iff List.Disjoint.symm).mp (h.disjoint.sublist h_sublist)
  · intro ids h_ids
    exact h.required ids (h_sublist.subset (h_perm.mem_iff.mpr h_ids))

/-- **One rule more.** Whether no two instances share the values of the new one, as it is read. -/
theorem sound_newRule_iff (h : Sound env s) {kept : List Rule} {saved : List Rule} {next : ℕ}
    (h_kept : (kept.map Rule.fieldIds).Subperm (fieldLists s.saved))
    (h_few : kept.length < uniqueRuleMaxCount)
    (h_fields : ∀ fieldId ∈ normalizeRuleFieldIds fieldIds,
      (∃ attr, attrById env fieldId = some attr ∧ attr.isRequired = true) ∧
        ∀ rule ∈ kept, fieldId ∉ rule.fieldIds)
    (h_saved : (fieldLists saved).Perm
      (normalizeRuleFieldIds fieldIds :: kept.map Rule.fieldIds)) :
    Sound env { s with saved := saved, nextRule := next } ↔
      Unshared env (normalizeRuleFieldIds fieldIds) s := by
  constructor
  · intro h_after i h_i j h_j h_ne
    exact (h_after.apart i h_i j h_j h_ne).1 _ (h_saved.mem_iff.mpr List.mem_cons_self)
  · intro h_unshared
    have h_old : RulesOk env (kept.map Rule.fieldIds) := h.rules.subperm h_kept
    have h_new : RulesOk env (normalizeRuleFieldIds fieldIds :: kept.map Rule.fieldIds) := by
      constructor
      · rw [List.length_cons, List.length_map]
        exact h_few
      · refine List.pairwise_cons.mpr ⟨fun ids h_ids fieldId h_new h_own => ?_, h_old.disjoint⟩
        obtain ⟨rule, h_rule, rfl⟩ := List.mem_map.mp h_ids
        exact (h_fields fieldId h_new).2 rule h_rule h_own
      · intro ids h_ids
        obtain rfl | h_ids := List.mem_cons.mp h_ids
        · exact fun fieldId h_fieldId => (h_fields fieldId h_fieldId).1
        · exact h_old.required ids h_ids
    refine ⟨fun i h_i j h_j h_ne => ⟨fun ids h_ids => ?_, ?_⟩, h_new.subperm h_saved.subperm⟩
    · obtain rfl | h_ids := List.mem_cons.mp (h_saved.mem_iff.mp h_ids)
      · exact h_unshared i h_i j h_j h_ne
      · exact (h.apart i h_i j h_j h_ne).1 ids (h_kept.subset h_ids)
    · exact (h.apart i h_i j h_j h_ne).2

theorem keptRules_sublist (rules : List Rule) (editing : Option String) :
    (keptRules rules editing).Sublist rules := List.filter_sublist

theorem map_normalize_reorder (rules : List Rule) :
    (reorderUniqueRules rules).map (fun rule => normalizeRuleFieldIds rule.fieldIds) =
      rules.map fun rule => normalizeRuleFieldIds rule.fieldIds := by
  have h_fields := congrArg (List.map normalizeRuleFieldIds) (map_fieldIds_reorder rules)
  rwa [List.map_map, List.map_map] at h_fields

theorem fieldLists_save {kept : List Rule} (h_kept : ∀ rule ∈ kept,
      normalizeRuleFieldIds rule.fieldIds = rule.fieldIds ∧ rule.fieldIds ≠ []) :
    (fieldLists (reorderUniqueRules (reorderUniqueRules kept))).Perm
      (kept.map Rule.fieldIds) := by
  refine (fieldLists_perm _).trans (List.Perm.of_eq ?_)
  have h_map : kept.map (fun rule => normalizeRuleFieldIds rule.fieldIds) =
      kept.map Rule.fieldIds :=
    List.map_congr_left fun rule h_rule => (h_kept rule h_rule).1
  rw [map_normalize_reorder, map_normalize_reorder, h_map]
  refine List.filter_eq_self.mpr fun ids h_ids => ?_
  obtain ⟨rule, h_rule, rfl⟩ := List.mem_map.mp h_ids
  exact decide_eq_true (h_kept rule h_rule).2

theorem read_of_mem {saved : List Rule} {rule : Rule} (h : rule ∈ parseUniqueRules saved) :
    normalizeRuleFieldIds rule.fieldIds = rule.fieldIds ∧ rule.fieldIds ≠ [] :=
  normalize_of_mem_fieldLists (List.mem_map_of_mem h)

theorem fieldLists_saveNew {pre post : List Rule} {new : Rule}
    (h_kept : ∀ rule ∈ pre ++ post,
      normalizeRuleFieldIds rule.fieldIds = rule.fieldIds ∧ rule.fieldIds ≠ [])
    (h_new : normalizeRuleFieldIds new.fieldIds ≠ []) :
    (fieldLists (reorderUniqueRules (reorderUniqueRules (pre ++ new :: post)))).Perm
      (normalizeRuleFieldIds new.fieldIds :: (pre ++ post).map Rule.fieldIds) := by
  refine (fieldLists_perm _).trans ?_
  rw [map_normalize_reorder, map_normalize_reorder]
  refine ((List.perm_middle.map _).filter _).trans (List.Perm.of_eq ?_)
  have h_map : (pre ++ post).map (fun rule => normalizeRuleFieldIds rule.fieldIds) =
      (pre ++ post).map Rule.fieldIds :=
    List.map_congr_left fun rule h_rule => (h_kept rule h_rule).1
  rw [List.map_cons, h_map]
  refine List.filter_eq_self.mpr fun ids h_ids => ?_
  obtain rfl | h_ids := List.mem_cons.mp h_ids
  · exact decide_eq_true h_new
  · obtain ⟨rule, h_rule, rfl⟩ := List.mem_map.mp h_ids
    exact decide_eq_true (h_kept rule h_rule).2

theorem of_createUniqueRule (h : createUniqueRule env fieldIds s = .ok t) :
    validateUniqueRulePayload env (parseUniqueRules s.saved) fieldIds none = .ok () ∧
      Unshared env fieldIds s ∧
      ∃ new, new.ruleId = env.uuid s.nextRule ∧ new.fieldIds = fieldIds ∧
        t = { s with
          saved := reorderUniqueRules (reorderUniqueRules (parseUniqueRules s.saved ++ [new]))
          nextRule := s.nextRule + 1 } := by
  obtain ⟨⟨⟩, h_valid, h_save⟩ := bind_eq_ok.mp h
  obtain ⟨rfl, h_unshared⟩ := of_saveRules h_save
  refine ⟨h_valid, ?_, _, rfl, rfl, rfl⟩
  have h_fields : fieldIds ∈ (reorderUniqueRules (parseUniqueRules s.saved ++
      [⟨env.uuid s.nextRule, (parseUniqueRules s.saved).length + 1, fieldIds⟩])).map
        Rule.fieldIds := by
    rw [map_fieldIds_reorder, List.map_append]
    exact List.mem_append_right _ List.mem_cons_self
  obtain ⟨rule, h_rule, h_same⟩ := List.mem_map.mp h_fields
  rw [← h_same]
  exact h_unshared rule h_rule

theorem of_updateUniqueRule {ruleId : String} (h_nodup : (s.saved.map Rule.ruleId).Nodup)
    (h : updateUniqueRule env ruleId fieldIds s = .ok t) :
    validateUniqueRulePayload env (parseUniqueRules s.saved) fieldIds (some ruleId) = .ok () ∧
      Unshared env fieldIds s ∧
      ∃ pre old post, parseUniqueRules s.saved = pre ++ old :: post ∧
        keptRules (parseUniqueRules s.saved) (some ruleId) = pre ++ post ∧
        t = { s with saved := reorderUniqueRules (reorderUniqueRules
          (pre ++ { old with fieldIds := fieldIds } :: post)) } := by
  unfold updateUniqueRule at h
  simp only at h
  split_ifs at h with h_found
  obtain ⟨⟨⟩, h_valid, h_save⟩ := bind_eq_ok.mp h
  obtain ⟨rfl, h_unshared⟩ := of_saveRules h_save
  obtain ⟨old, h_old, h_id⟩ : ∃ old ∈ parseUniqueRules s.saved, old.ruleId = ruleId := by
    by_contra h_none
    refine h_found (List.all_eq_true.mpr fun rule h_rule => decide_eq_true fun h_id => ?_)
    exact h_none ⟨rule, h_rule, h_id⟩
  obtain ⟨pre, post, h_rules⟩ := List.append_of_mem h_old
  have h_ids : ((pre ++ old :: post).map Rule.ruleId).Nodup := by
    rw [← h_rules]
    obtain ⟨list, h_perm, h_sublist⟩ := ruleIds_subperm s.saved
    exact h_perm.nodup_iff.mp (h_nodup.sublist h_sublist)
  -- no other rule has the id
  have h_others : ∀ rule ∈ pre ++ post, rule.ruleId ≠ ruleId := by
    have h_cons := (List.perm_middle.map Rule.ruleId).nodup_iff.mp h_ids
    rw [List.map_cons, List.nodup_cons, h_id] at h_cons
    exact fun rule h_rule h_same => h_cons.1 (List.mem_map.mpr ⟨rule, h_rule, h_same⟩)
  have h_pre : ∀ rule ∈ pre, rule.ruleId ≠ ruleId := fun rule h_rule =>
    h_others rule (List.mem_append_left _ h_rule)
  have h_post : ∀ rule ∈ post, rule.ruleId ≠ ruleId := fun rule h_rule =>
    h_others rule (List.mem_append_right _ h_rule)
  have h_same : ∀ rules : List Rule, (∀ rule ∈ rules, rule.ruleId ≠ ruleId) →
      (rules.map fun rule =>
        if rule.ruleId = ruleId then { rule with fieldIds := fieldIds } else rule) = rules :=
    fun rules h_rules => (List.map_congr_left fun rule h_rule =>
      if_neg (h_rules rule h_rule)).trans (List.map_id _)
  have h_next : ((parseUniqueRules s.saved).map fun rule =>
      if rule.ruleId = ruleId then { rule with fieldIds := fieldIds } else rule) =
        pre ++ { old with fieldIds := fieldIds } :: post := by
    rw [h_rules, List.map_append, List.map_cons, h_same pre h_pre, h_same post h_post, if_pos h_id]
  refine ⟨h_valid, ?_, pre, old, post, h_rules, ?_, by rw [h_next]⟩
  · have h_fields : fieldIds ∈ (reorderUniqueRules ((parseUniqueRules s.saved).map fun rule =>
        if rule.ruleId = ruleId then { rule with fieldIds := fieldIds } else rule)).map
          Rule.fieldIds := by
      rw [map_fieldIds_reorder, h_next, List.map_append]
      exact List.mem_append_right _ List.mem_cons_self
    obtain ⟨rule, h_rule, h_own⟩ := List.mem_map.mp h_fields
    rw [← h_own]
    exact h_unshared rule h_rule
  · have h_keep : ∀ rules : List Rule, (∀ rule ∈ rules, rule.ruleId ≠ ruleId) →
        keptRules rules (some ruleId) = rules := fun rules h_rules =>
      List.filter_eq_self.mpr fun rule h_rule =>
        decide_eq_true fun h_own => h_rules rule h_rule (Option.some.inj h_own)
    have h_pre_kept := h_keep pre h_pre
    have h_post_kept := h_keep post h_post
    unfold keptRules at h_pre_kept h_post_kept ⊢
    rw [h_rules, List.filter_append, h_pre_kept, List.filter_cons_of_neg (by simp [h_id]),
      h_post_kept]

theorem of_deleteUniqueRule {ruleId : String} (h : deleteUniqueRule env ruleId s = .ok t) :
    t = { s with saved := reorderUniqueRules (reorderUniqueRules
      (keptRules (parseUniqueRules s.saved) (some ruleId))) } := by
  unfold deleteUniqueRule at h
  simp only at h
  split_ifs at h
  exact (of_saveRules h).1

end Rules

/-! ### One operation -/

section Operations

variable {env : Env} {s t : State} {fieldIds : List String}

theorem keptRules_none (rules : List Rule) : keptRules rules none = rules :=
  List.filter_eq_self.mpr fun _ _ => decide_eq_true (Option.some_ne_none _)

theorem fieldLists_length (saved : List Rule) :
    (fieldLists saved).length = (parseUniqueRules saved).length := List.length_map _

theorem unshared_iff_of_checked (h : Unshared env fieldIds s) :
    Unshared env (normalizeRuleFieldIds fieldIds) s ↔
      normalizeRuleFieldIds fieldIds = fieldIds ∨
        Unshared env (normalizeRuleFieldIds fieldIds) s := by
  refine ⟨.inr, ?_⟩
  rintro (h_same | h_unshared)
  · rwa [h_same]
  · exact h_unshared

theorem sound_createUniqueRule_iff (h : Sound env s)
    (h_ok : createUniqueRule env fieldIds s = .ok t) :
    Sound env t ↔ normalizeRuleFieldIds fieldIds = fieldIds ∨
      Unshared env (normalizeRuleFieldIds fieldIds) s := by
  obtain ⟨h_valid, h_unshared, new, -, rfl, rfl⟩ := of_createUniqueRule h_ok
  obtain ⟨h_some, h_few, h_fields⟩ := of_validateUniqueRulePayload h_valid
  rw [keptRules_none] at h_fields
  refine (sound_newRule_iff h (List.Subperm.refl _) (h_few rfl) h_fields ?_).trans
    (unshared_iff_of_checked h_unshared)
  have h_saved := @fieldLists_saveNew (parseUniqueRules s.saved) [] new
    (fun rule h_rule => read_of_mem (by rwa [List.append_nil] at h_rule)) h_some
  rwa [List.append_nil] at h_saved

theorem sound_updateUniqueRule_iff {ruleId : String} (h_nodup : (s.saved.map Rule.ruleId).Nodup)
    (h : Sound env s) (h_ok : updateUniqueRule env ruleId fieldIds s = .ok t) :
    Sound env t ↔ normalizeRuleFieldIds fieldIds = fieldIds ∨
      Unshared env (normalizeRuleFieldIds fieldIds) s := by
  obtain ⟨h_valid, h_unshared, pre, old, post, h_rules, h_kept, rfl⟩ :=
    of_updateUniqueRule h_nodup h_ok
  obtain ⟨h_some, -, h_fields⟩ := of_validateUniqueRulePayload h_valid
  rw [h_kept] at h_fields
  have h_sublist : (pre ++ post).Sublist (parseUniqueRules s.saved) := by
    rw [h_rules]
    exact List.Sublist.append_left (List.sublist_cons_self old post) pre
  refine (sound_newRule_iff h (h_sublist.map Rule.fieldIds).subperm ?_
    h_fields ?_).trans (unshared_iff_of_checked h_unshared)
  · have h_few := h.rules.few
    rw [fieldLists_length, h_rules, List.length_append, List.length_cons] at h_few
    rw [List.length_append]
    omega
  · exact fieldLists_saveNew (fun rule h_rule => read_of_mem (h_sublist.subset h_rule)) h_some

theorem sound_deleteUniqueRule {ruleId : String} (h : Sound env s)
    (h_ok : deleteUniqueRule env ruleId s = .ok t) : Sound env t := by
  obtain rfl := of_deleteUniqueRule h_ok
  have h_sublist := keptRules_sublist (parseUniqueRules s.saved) (some ruleId)
  have h_saved := fieldLists_save fun rule h_rule => read_of_mem (h_sublist.subset h_rule)
  have h_fields : (fieldLists (reorderUniqueRules (reorderUniqueRules
      (keptRules (parseUniqueRules s.saved) (some ruleId))))).Subperm (fieldLists s.saved) :=
    h_saved.subperm.trans (h_sublist.map Rule.fieldIds).subperm
  exact ⟨fun i h_i j h_j h_ne => (h.apart i h_i j h_j h_ne).mono h_fields.subset,
    h.rules.subperm h_fields⟩

/-- **One operation.** The rules hold after an operation exactly if it meets its condition. -/
theorem sound_write_op_iff (h_known : Known env s) (h : Sound env s) {op : Op}
    (h_ok : op.write env s = .ok t) : Sound env t ↔ Allowed env s op := by
  cases op with
  | createUniqueRule fieldIds => exact sound_createUniqueRule_iff h h_ok
  | updateUniqueRule ruleId fieldIds => exact sound_updateUniqueRule_iff h_known.nodup h h_ok
  | deleteUniqueRule ruleId => exact iff_of_true (sound_deleteUniqueRule h h_ok) trivial
  | instanceCreate info operator request =>
    obtain ⟨h_check, rfl⟩ := of_instanceCreate h_ok
    refine (sound_create_iff h_known.numbered h).trans ⟨.inr, ?_⟩
    rintro (h_table | h_fits)
    · exact newFits_of_checkEntity h.rules h_table (covers_queryEntity s) h_check
    · exact h_fits
  | instanceUpdate id attr request =>
    have h_ok : batchInstanceUpdate env [id] attr request.refused s = .ok t := h_ok
    obtain rfl := (of_batchInstanceUpdate h_ok).1
    refine (sound_write_iff h).trans ⟨.inr, ?_⟩
    rintro (⟨h_table, h_whole⟩ | h_fits)
    · refine fits_of_whole h h_table h_whole (fun i _ j _ h_i h_j => ?_) h_ok
      rw [List.mem_singleton.mp h_i, List.mem_singleton.mp h_j]
    · exact h_fits
  | batchInstanceUpdate ids attr request =>
    obtain rfl := (of_batchInstanceUpdate h_ok).1
    refine (sound_write_iff h).trans ⟨.inr, ?_⟩
    rintro (⟨h_table, h_whole, h_alone⟩ | h_fits)
    · exact fits_of_whole h h_table h_whole h_alone h_ok
    · exact h_fits
  | batchCreateEntity items operator tags =>
    obtain rfl := Except.ok.inj h_ok
    refine (sound_batchCreate_iff h_known.numbered h).trans ⟨.inr, ?_⟩
    rintro (h_table | h_fits)
    · exact itemsFit_of_noTable h_known.numbered h h_table (covers_queryEntity s)
    · exact h_fits

/-! ### What is known of every state -/

theorem Known.of_subperm (h : Known env s) (h_numbered : t.store.Numbered)
    (h_ids : (t.saved.map Rule.ruleId).Subperm (s.saved.map Rule.ruleId))
    (h_next : s.nextRule ≤ t.nextRule) : Known env t := by
  obtain ⟨list, h_perm, h_sublist⟩ := h_ids
  refine ⟨h_numbered, h_perm.nodup_iff.mp (h.nodup.sublist h_sublist), fun n h_n h_mem => ?_⟩
  exact h.fresh n (h_next.trans h_n) (h_sublist.subset (h_perm.mem_iff.mpr h_mem))

theorem Known.create (h : Known env s) (props : Props) : Known env (s.create props) :=
  ⟨h.numbered.create, h.nodup, h.fresh⟩

theorem Known.batchCreateEntity (operator : String) (items : List (Props × Bool))
    (existItems : List Instance) (h : Known env s) :
    Known env (batchCreateEntity env operator items existItems s) := by
  induction items generalizing existItems s with
  | nil => exact h
  | cons item items ih =>
    obtain ⟨info, refused⟩ := item
    rw [UniqueRules.batchCreateEntity]
    cases checkEntity env info refused operator existItems (parseUniqueRules s.saved) with
    | error _ => exact ih existItems h
    | ok props => exact ih _ (h.create props)

theorem known_write (h : Known env s) {op : Op} (h_ok : op.write env s = .ok t) : Known env t := by
  cases op with
  | createUniqueRule fieldIds =>
    obtain ⟨-, -, new, h_id, -, rfl⟩ := of_createUniqueRule h_ok
    have h_read : ∀ n, s.nextRule ≤ n →
        env.uuid n ∉ (parseUniqueRules s.saved).map Rule.ruleId :=
      fun n h_n h_mem => h.fresh n h_n ((ruleIds_subperm s.saved).subset h_mem)
    have h_nodup : ((parseUniqueRules s.saved).map Rule.ruleId).Nodup := by
      obtain ⟨list, h_perm, h_sublist⟩ := ruleIds_subperm s.saved
      exact h_perm.nodup_iff.mp (h.nodup.sublist h_sublist)
    have h_saved : (reorderUniqueRules (reorderUniqueRules
        (parseUniqueRules s.saved ++ [new]))).map Rule.ruleId =
          (parseUniqueRules s.saved).map Rule.ruleId ++ [env.uuid s.nextRule] := by
      rw [map_ruleId_reorder, map_ruleId_reorder, List.map_append, List.map_singleton, h_id]
    refine ⟨h.numbered, ?_, fun n h_n => ?_⟩
    · show (List.map _ _).Nodup
      rw [h_saved, List.nodup_append]
      refine ⟨h_nodup, List.nodup_singleton _, fun id h_mem id' h_new h_same => ?_⟩
      rw [h_same, List.mem_singleton.mp h_new] at h_mem
      exact h_read s.nextRule le_rfl h_mem
    · show env.uuid n ∉ List.map _ _
      rw [h_saved, List.mem_append, List.mem_singleton]
      rintro (h_mem | h_same)
      · exact h_read n (Nat.le_of_succ_le h_n) h_mem
      · exact Nat.ne_of_gt h_n (env.uuid_inj h_same)
  | updateUniqueRule ruleId fieldIds =>
    obtain ⟨-, -, pre, old, post, h_rules, -, rfl⟩ := of_updateUniqueRule h.nodup h_ok
    refine h.of_subperm (t := { s with saved := _ }) h.numbered ?_ le_rfl
    have h_same : (pre ++ { old with fieldIds := fieldIds } :: post).map Rule.ruleId =
        (parseUniqueRules s.saved).map Rule.ruleId := by
      rw [h_rules, List.map_append, List.map_append]
      rfl
    rw [map_ruleId_reorder, map_ruleId_reorder, h_same]
    exact ruleIds_subperm s.saved
  | deleteUniqueRule ruleId =>
    obtain rfl := of_deleteUniqueRule h_ok
    refine h.of_subperm (t := { s with saved := _ }) h.numbered ?_ le_rfl
    rw [map_ruleId_reorder, map_ruleId_reorder]
    have h_sublist := keptRules_sublist (parseUniqueRules s.saved) (some ruleId)
    exact (h_sublist.map Rule.ruleId).subperm.trans (ruleIds_subperm s.saved)
  | instanceCreate info operator request =>
    obtain ⟨-, rfl⟩ := of_instanceCreate h_ok
    exact h.create _
  | instanceUpdate id attr request =>
    have h_ok : batchInstanceUpdate env [id] attr request.refused s = .ok t := h_ok
    obtain rfl := (of_batchInstanceUpdate h_ok).1
    exact ⟨h.numbered.write, h.nodup, h.fresh⟩
  | batchInstanceUpdate ids attr request =>
    obtain rfl := (of_batchInstanceUpdate h_ok).1
    exact ⟨h.numbered.write, h.nodup, h.fresh⟩
  | batchCreateEntity items operator tags =>
    obtain rfl := Except.ok.inj h_ok
    exact h.batchCreateEntity operator items (queryEntity env s)

theorem known_step (s : State) (op : Op) (h : Known env s) : Known env (step env s op) := by
  have h_merged : Known env (mergeTagOptions (op.tags s) s) := ⟨h.numbered, h.nodup, h.fresh⟩
  unfold step
  cases h_ok : op.write env (mergeTagOptions (op.tags s) s) with
  | error _ => exact h_merged
  | ok t => exact known_write h_merged h_ok

theorem sound_step_iff (s : State) (op : Op) (h_known : Known env s) (h : Sound env s) :
    Sound env (step env s op) ↔ Met env s op := by
  have h_merged : Known env (mergeTagOptions (op.tags s) s) :=
    ⟨h_known.numbered, h_known.nodup, h_known.fresh⟩
  have h_sound : Sound env (mergeTagOptions (op.tags s) s) := ⟨h.apart, h.rules⟩
  unfold step Met
  cases h_ok : op.write env (mergeTagOptions (op.tags s) s) with
  | error _ => exact iff_of_true h_sound nofun
  | ok t =>
    refine (sound_write_op_iff h_merged h_sound h_ok).trans ⟨fun h_met _ _ => h_met, ?_⟩
    exact fun h_met => h_met t rfl

/-! ### Failed operations -/

theorem subset_mergeTagOptions (tags : List String) (s : State) :
    (∀ option ∈ s.options, option ∈ (mergeTagOptions tags s).options) ∧
      ∀ tag ∈ tags, tag ∈ (mergeTagOptions tags s).options := by
  induction tags generalizing s with
  | nil => exact ⟨fun _ => id, nofun⟩
  | cons tag tags ih =>
    obtain ⟨h_old, h_new⟩ :=
      ih { s with options := if tag ∈ s.options then s.options else s.options ++ [tag] }
    have h_first : tag ∈ (mergeTagOptions (tag :: tags) s).options := by
      refine h_old tag ?_
      show tag ∈ if tag ∈ s.options then s.options else s.options ++ [tag]
      split_ifs with h_known
      · exact h_known
      · exact List.mem_append_right _ List.mem_cons_self
    refine ⟨fun option h_option => h_old option ?_, fun tag' h_tag => ?_⟩
    · show option ∈ if tag ∈ s.options then s.options else s.options ++ [tag]
      split_ifs
      · exact h_option
      · exact List.mem_append_left _ h_option
    · obtain rfl | h_later := List.mem_cons.mp h_tag
      · exact h_first
      · exact h_new tag' h_later

theorem mergeTagOptions_eq_self {tags : List String} (h : ∀ tag ∈ tags, tag ∈ s.options) :
    mergeTagOptions tags s = s := by
  induction tags with
  | nil => rfl
  | cons tag tags ih =>
    have h_first : tag ∈ s.options := h tag List.mem_cons_self
    have h_step : mergeTagOptions (tag :: tags) s = mergeTagOptions tags s := by
      rw [mergeTagOptions, List.foldl_cons, if_pos h_first]
      rfl
    rw [h_step, ih fun tag' h_tag => h tag' (List.mem_cons_of_mem _ h_tag)]

theorem options_write {op : Op} (h_ok : op.write env s = .ok t) : t.options = s.options := by
  cases op with
  | createUniqueRule fieldIds =>
    obtain ⟨-, -, new, -, -, rfl⟩ := of_createUniqueRule h_ok
    rfl
  | updateUniqueRule ruleId fieldIds =>
    unfold Op.write updateUniqueRule at h_ok
    simp only at h_ok
    split_ifs at h_ok
    obtain ⟨⟨⟩, -, h_save⟩ := bind_eq_ok.mp h_ok
    rw [(of_saveRules h_save).1]
  | deleteUniqueRule ruleId =>
    obtain rfl := of_deleteUniqueRule h_ok
    rfl
  | instanceCreate info operator request =>
    obtain ⟨-, rfl⟩ := of_instanceCreate h_ok
    rfl
  | instanceUpdate id attr request =>
    have h_ok : batchInstanceUpdate env [id] attr request.refused s = .ok t := h_ok
    rw [(of_batchInstanceUpdate h_ok).1]
    rfl
  | batchInstanceUpdate ids attr request =>
    rw [(of_batchInstanceUpdate h_ok).1]
    rfl
  | batchCreateEntity items operator tags =>
    obtain rfl := Except.ok.inj h_ok
    exact (batchCreateEntity_mono env operator items (queryEntity env s) s).2.2

theorem options_step (env : Env) (s : State) (op : Op) :
    (step env s op).options = (mergeTagOptions (op.tags s) s).options := by
  unfold step
  cases h_ok : op.write env (mergeTagOptions (op.tags s) s) with
  | error _ => rfl
  | ok t => exact options_write h_ok

theorem unchanged_iff (s : State) (op : Op) :
    (op.failure env s ≠ none → step env s op = s) ↔ Quiet env s op := by
  refine imp_congr_right fun _ => ⟨fun h_same => ?_, ?_⟩
  · have h_tags : ∀ tag ∈ op.tags s, tag ∈ s.options := by
      have h_options := options_step env s op
      rw [h_same] at h_options
      rw [h_options]
      exact (subset_mergeTagOptions (op.tags s) s).2
    refine ⟨h_tags, fun t h_ok => ?_⟩
    unfold step at h_same
    rwa [mergeTagOptions_eq_self h_tags, h_ok] at h_same
  · rintro ⟨h_tags, h_write⟩
    unfold step
    rw [mergeTagOptions_eq_self h_tags]
    cases h_ok : op.write env s with
    | error _ => rfl
    | ok t => exact h_write t h_ok

/-- **Unique rules.** They hold in every run exactly if every operation meets its condition. -/
theorem uniqueRules_iff {ops : List Op} (h_known : Known env s) (h : Sound env s) :
    (Runs.Always (step env) (Sound env) s ops ∧
      Runs.Along (step env) (fun s op t => op.failure env s ≠ none → t = s) s ops) ↔
        Runs.Along (step env) (fun s op _ => Met env s op ∧ Quiet env s op) s ops := by
  have h_sound : Runs.Always (step env) (Sound env) s ops ↔
      Runs.Along (step env) (fun s op _ => Met env s op) s ops :=
    Runs.always_iff_along (K := Known env) known_step
      (fun s op (_ : True) h_known h => sound_step_iff s op h_known h) (fun _ _ => trivial) h_known h
  have h_unchanged : Runs.Along (step env) (fun s op t => op.failure env s ≠ none → t = s) s ops ↔
      Runs.Along (step env) (fun s op _ => Quiet env s op) s ops :=
    Runs.along_congr unchanged_iff
  rw [h_sound, h_unchanged, Runs.along_and]

end Operations

/-! ### A joint rule -/

def required (attrId : String) (named : attrId ≠ "_creator") : Attr :=
  { attrId, attrName := attrId, attrType := "str", isOnly := false, isRequired := true,
    editable := true, isDisplayField := false, named }

def rackEnv : Env where
  attrs := [required "rack" (by decide), required "unit" (by decide)]
  unsupported := []
  format _ := ""
  toJson _ := ""
  loads _ := .list []
  uuid n := String.ofList (List.replicate n 'u')
  uuid_inj m n h := by
    have h_length := congrArg List.length (String.ofList_injective h)
    rwa [List.length_replicate, List.length_replicate] at h_length

def plainRequest : Request := { tags := [], refused := false, followUpFails := false }

def noInstances : State where
  store := { rows := [], nextId := 0 }
  saved := []
  nextRule := 0
  options := []

def twoPlaces : List Op :=
  [.createUniqueRule ["rack", "unit"],
    .instanceCreate [("rack", .str "A"), ("unit", .str "1")] "admin" plainRequest,
    .instanceCreate [("rack", .str "A"), ("unit", .str "2")] "admin" plainRequest]

theorem known_noInstances : Known rackEnv noInstances :=
  ⟨⟨List.nodup_nil, nofun⟩, List.nodup_nil, fun _ _ => List.not_mem_nil⟩

theorem sound_noInstances : Sound rackEnv noInstances :=
  ⟨nofun, ⟨Nat.zero_le _, List.Pairwise.nil, nofun⟩⟩

theorem noTable_rackEnv (s : State) : NoTable rackEnv s := by
  intro key _
  simp [isTable, rackEnv, required]

/-- New instances submit both fields of the rule. -/
theorem uniqueRules_places :
    Runs.Always (step rackEnv) (Sound rackEnv) noInstances twoPlaces ∧
      Runs.Along (step rackEnv) (fun s op t => op.failure rackEnv s ≠ none → t = s)
        noInstances twoPlaces := by
  refine (uniqueRules_iff known_noInstances sound_noInstances).mpr ?_
  refine ⟨⟨fun _ _ => .inl (by decide), fun h => absurd rfl h⟩, ⟨?_, fun h => absurd rfl h⟩,
    ⟨?_, fun h => absurd rfl h⟩, trivial⟩
  · exact fun _ _ => .inl (noTable_rackEnv _)
  · exact fun _ _ => .inl (noTable_rackEnv _)

/-- **Half a rule.** Only the unit is submitted, and the check has nothing to compare. -/
theorem uniqueRules_half :
    ¬Runs.Always (step rackEnv) (Sound rackEnv) noInstances
      (twoPlaces ++ [.instanceUpdate 1 [("unit", .str "1")] plainRequest]) := by
  intro h
  have h_last := h.last.apart
  have h_clash : ∃ ids ∈ fieldLists (Runs.run (step rackEnv) noInstances
      (twoPlaces ++ [.instanceUpdate 1 [("unit", .str "1")] plainRequest])).saved,
      ∃ i ∈ (Runs.run (step rackEnv) noInstances
        (twoPlaces ++ [.instanceUpdate 1 [("unit", .str "1")] plainRequest])).store.rows,
      ∃ j ∈ (Runs.run (step rackEnv) noInstances
        (twoPlaces ++ [.instanceUpdate 1 [("unit", .str "1")] plainRequest])).store.rows,
      i.id ≠ j.id ∧
        (buildRuleSignature (deserializeTableFields rackEnv i.get) ids).isSome = true ∧
        buildRuleSignature (deserializeTableFields rackEnv j.get) ids =
          buildRuleSignature (deserializeTableFields rackEnv i.get) ids := by
    decide +kernel
  obtain ⟨ids, h_ids, i, h_i, j, h_j, h_ne, h_some, h_same⟩ := h_clash
  obtain ⟨signature, h_signature⟩ := Option.isSome_iff_exists.mp h_some
  exact (h_last i h_i j h_j h_ne).1 ids h_ids signature h_signature (h_same.trans h_signature)

end UniqueRules
end Cmdb
