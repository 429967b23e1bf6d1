import BkLite.Framework.Value

/-!
# The instances of a model

An instance of a CMDB model has an id, which the graph database gives it, and properties. The
services read all instances of the model in the order of their ids, check what is submitted against
them, and write: one new instance, or the same properties on a set of instances
(`graph/falkordb.py`).

The rows of a `Store` are the instances of one model. A property that is not there reads as `None`.
-/

namespace Cmdb

open Py

abbrev Props := List (String × Value)

/-- `properties.get(key)`. -/
def Props.get (props : Props) (key : String) : Value := Value.lookup props key

/-- `key in properties`. -/
def Props.Has (props : Props) (key : String) : Prop := key ∈ props.map Prod.fst

instance (props : Props) (key : String) : Decidable (props.Has key) :=
  inferInstanceAs (Decidable (_ ∈ _))

/-- `get_editable_attr`. -/
def Props.getEditable (props : Props) (editable : String → Bool) : Props :=
  props.filter fun entry => editable entry.1

theorem Props.has_getEditable {props : Props} {editable : String → Bool} {key : String} :
    (props.getEditable editable).Has key ↔ props.Has key ∧ editable key = true := by
  simp only [Props.Has, Props.getEditable, List.mem_map, List.mem_filter]
  constructor
  · rintro ⟨entry, ⟨h_mem, h_editable⟩, rfl⟩
    exact ⟨⟨entry, h_mem, rfl⟩, h_editable⟩
  · rintro ⟨⟨entry, h_mem, rfl⟩, h_editable⟩
    exact ⟨entry, ⟨h_mem, h_editable⟩, rfl⟩

theorem Props.get_getEditable {props : Props} {editable : String → Bool} {key : String}
    (h : editable key = true) : (props.getEditable editable).get key = props.get key := by
  have h_same : (fun entry : String × Value =>
      decide (editable entry.1 = true ∧ decide (entry.1 = key) = true)) =
        fun entry => decide (entry.1 = key) := by
    ext entry
    by_cases h_key : entry.1 = key <;> simp [h_key, h]
  rw [Props.get, Value.lookup, Props.getEditable, List.find?_filter, h_same]
  rfl

structure Instance where
  id : ℕ
  get : String → Value

def Instance.set (inst : Instance) (props : Props) : Instance :=
  { inst with get := fun key => if props.Has key then props.get key else inst.get key }

structure Store where
  rows : List Instance
  nextId : ℕ

/-- `CREATE (n) SET n += $props`. -/
def Store.create (s : Store) (props : Props) : Store where
  rows := s.rows ++ [{ id := s.nextId, get := props.get }]
  nextId := s.nextId + 1

/-- `MATCH (n) WHERE ID(n) IN $ids SET ...`. -/
def Store.write (s : Store) (ids : List ℕ) (props : Props) : Store :=
  { s with rows := s.rows.map fun inst => if inst.id ∈ ids then inst.set props else inst }

/-- `MATCH (n) WHERE ID(n) = $id`. -/
def Store.find (s : Store) (id : ℕ) : Option Instance := s.rows.find? (·.id = id)

/-- The ids are those of different instances, and the next one is new. -/
structure Store.Numbered (s : Store) : Prop where
  nodup : (s.rows.map Instance.id).Nodup
  below : ∀ inst ∈ s.rows, inst.id < s.nextId

variable {s : Store} {props : Props} {ids : List ℕ}

theorem Store.Numbered.create (h : s.Numbered) : (s.create props).Numbered := by
  constructor
  · rw [Store.create, List.map_append, List.nodup_append]
    refine ⟨h.nodup, List.nodup_singleton _, fun id h_id id' h_id' => ?_⟩
    obtain ⟨inst, h_inst, rfl⟩ := List.mem_map.mp h_id
    obtain rfl : id' = s.nextId := by simpa using h_id'
    exact Nat.ne_of_lt (h.below inst h_inst)
  · intro inst h_inst
    obtain h_old | h_new := List.mem_append.mp h_inst
    · exact Nat.lt_succ_of_lt (h.below inst h_old)
    · rw [List.mem_singleton.mp h_new]
      exact Nat.lt_succ_self _

theorem Store.ids_write : (s.write ids props).rows.map Instance.id = s.rows.map Instance.id := by
  rw [Store.write, List.map_map]
  refine List.map_congr_left fun inst _ => ?_
  show (if inst.id ∈ ids then inst.set props else inst).id = inst.id
  split_ifs <;> rfl

theorem Store.Numbered.write (h : s.Numbered) : (s.write ids props).Numbered := by
  refine ⟨by rw [Store.ids_write]; exact h.nodup, fun inst h_inst => ?_⟩
  have h_id : inst.id ∈ s.rows.map Instance.id := by
    have h_ids : (s.write ids props).rows.map Instance.id = _ := Store.ids_write
    rw [← h_ids]
    exact List.mem_map_of_mem h_inst
  obtain ⟨inst', h_inst', h_same⟩ := List.mem_map.mp h_id
  rw [← h_same]
  exact h.below inst' h_inst'

theorem Store.Numbered.eq_of_id (h : s.Numbered) {inst inst' : Instance} (h_inst : inst ∈ s.rows)
    (h_inst' : inst' ∈ s.rows) (h_id : inst.id = inst'.id) : inst = inst' :=
  List.inj_on_of_nodup_map h.nodup h_inst h_inst' h_id

theorem Store.find_eq_some {id : ℕ} {inst : Instance} (h : s.find id = some inst) :
    inst ∈ s.rows ∧ inst.id = id :=
  ⟨List.mem_of_find?_eq_some h, by simpa using List.find?_some h⟩

/-! ### What holds of any two instances

A check of a write against the instances that are there keeps a relation between any two of them. A
new instance keeps it if it is so related to the others; an update of a set of instances keeps it if
every updated one is, to the others as they are after it. -/

section Pairs

variable {R : (String → Value) → (String → Value) → Prop}

/-- `R` holds of any two instances. -/
def Store.Pairwise (R : (String → Value) → (String → Value) → Prop) (s : Store) : Prop :=
  ∀ i ∈ s.rows, ∀ j ∈ s.rows, i.id ≠ j.id → R i.get j.get

def Instance.written (ids : List ℕ) (props : Props) (inst : Instance) : Instance :=
  if inst.id ∈ ids then inst.set props else inst

@[simp] theorem Instance.id_written (inst : Instance) : (inst.written ids props).id = inst.id := by
  unfold Instance.written
  split_ifs <;> rfl

/-- `R` holds of every written instance and any other one, as they are after the write. -/
def Store.Fits (R : (String → Value) → (String → Value) → Prop) (ids : List ℕ) (props : Props)
    (s : Store) : Prop :=
  ∀ i ∈ s.rows, i.id ∈ ids → ∀ j ∈ s.rows, i.id ≠ j.id →
    R (i.written ids props).get (j.written ids props).get

theorem Store.pairwise_write_iff (h_symm : ∀ get get', R get get' → R get' get)
    (h : s.Pairwise R) : (s.write ids props).Pairwise R ↔ s.Fits R ids props := by
  constructor
  · intro h_after i h_i _ j h_j h_ne
    refine h_after _ (List.mem_map_of_mem h_i) _ (List.mem_map_of_mem h_j) ?_
    show (i.written ids props).id ≠ (j.written ids props).id
    rwa [Instance.id_written, Instance.id_written]
  · intro h_fits i h_i j h_j h_ne
    obtain ⟨i, h_row, rfl⟩ := List.mem_map.mp h_i
    obtain ⟨j, h_row', rfl⟩ := List.mem_map.mp h_j
    change (i.written ids props).id ≠ (j.written ids props).id at h_ne
    rw [Instance.id_written, Instance.id_written] at h_ne
    by_cases h_mem : i.id ∈ ids
    · exact h_fits i h_row h_mem j h_row' h_ne
    by_cases h_mem' : j.id ∈ ids
    · exact h_symm _ _ (h_fits j h_row' h_mem' i h_row h_ne.symm)
    · -- neither of the two is written
      rw [if_neg h_mem, if_neg h_mem']
      exact h i h_row j h_row' h_ne

theorem Store.pairwise_create_iff (h_symm : ∀ get get', R get get' → R get' get)
    (h_numbered : s.Numbered) (h : s.Pairwise R) :
    (s.create props).Pairwise R ↔ ∀ row ∈ s.rows, R props.get row.get := by
  have h_new : { id := s.nextId, get := props.get } ∈ (s.create props).rows :=
    List.mem_append_right _ List.mem_cons_self
  constructor
  · intro h_after row h_row
    exact h_after _ h_new row (List.mem_append_left _ h_row) (h_numbered.below row h_row).ne'
  · intro h_apart i h_i j h_j h_ne
    obtain h_i | h_i := List.mem_append.mp h_i <;> obtain h_j | h_j := List.mem_append.mp h_j
    · exact h i h_i j h_j h_ne
    · rw [List.mem_singleton.mp h_j]
      exact h_symm _ _ (h_apart i h_i)
    · rw [List.mem_singleton.mp h_i]
      exact h_apart j h_j
    · rw [List.mem_singleton.mp h_i, List.mem_singleton.mp h_j] at h_ne
      exact absurd rfl h_ne

end Pairs

end Cmdb
