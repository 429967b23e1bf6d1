import BkLite.Cmdb.Instances
import Mathlib.Data.List.Infix

/-!
# Passes over the instances of a model

A pass reads the instances once, decides on all its writes, and performs them one after another;
a write that is refused ends it (`perform`).
-/

namespace Cmdb

open Py

inductive Write
  | create (props : Props)
  | update (id : ℕ) (props : Props)

variable (editable : String → Bool)

def Write.apply (s : Store) : Write → Store
  | .create props => s.create props
  | .update id props => s.write [id] (props.getEditable editable)

def applied (writes : List Write) (s : Store) : Store := writes.foldl (Write.apply editable) s

def perform (refused : Store → Write → Bool) : List Write → Store → Store × Bool
  | [], s => (s, true)
  | w :: writes, s =>
    if refused s w then (s, false) else perform refused writes (w.apply editable s)

def Write.touch (inst : Instance) : Write → Instance
  | .create _ => inst
  | .update id props => if inst.id = id then inst.set (props.getEditable editable) else inst

def touched (writes : List Write) (inst : Instance) : Instance :=
  writes.foldl (Write.touch editable) inst

def creates (writes : List Write) : List Props :=
  writes.filterMap fun
    | .create props => some props
    | .update _ _ => none

/-- The new instances, with ids from `n` on. -/
def created (n : ℕ) (writes : List Write) : List Instance :=
  ((creates writes).zipIdx n).map fun (props, id) => { id, get := props.get }

variable {editable} {refused : Store → Write → Bool} {writes : List Write} {s : Store}
  {inst : Instance}

theorem perform_eq (editable : String → Bool) (refused : Store → Write → Bool)
    (writes : List Write) (s : Store) : ∃ done, done <+: writes ∧
    (perform editable refused writes s).1 = applied editable done s ∧
      ((perform editable refused writes s).2 = true → done = writes) := by
  induction writes generalizing s with
  | nil => exact ⟨[], List.prefix_rfl, rfl, fun _ => rfl⟩
  | cons w writes ih =>
    unfold perform
    split_ifs
    · exact ⟨[], List.nil_prefix, rfl, nofun⟩
    · obtain ⟨done, h_done, h_store, h_all⟩ := ih (w.apply editable s)
      refine ⟨w :: done, List.cons_prefix_cons.mpr ⟨rfl, h_done⟩, h_store, fun h_end => ?_⟩
      rw [h_all h_end]

theorem Write.touch_update (id : ℕ) (props : Props) :
    (Write.update id props).touch editable inst =
      if inst.id = id then inst.set (props.getEditable editable) else inst := rfl

@[simp] theorem Write.id_touch (w : Write) : (w.touch editable inst).id = inst.id := by
  cases w with
  | create props => rfl
  | update id props =>
    rw [Write.touch_update]
    split_ifs <;> rfl

@[simp] theorem id_touched : (touched editable writes inst).id = inst.id := by
  induction writes generalizing inst with
  | nil => rfl
  | cons w writes ih => exact ih.trans w.id_touch

theorem touched_cons (w : Write) :
    touched editable (w :: writes) inst = touched editable writes (w.touch editable inst) := rfl

theorem touched_of_none (h : ∀ props, .update inst.id props ∉ writes) :
    touched editable writes inst = inst := by
  induction writes with
  | nil => rfl
  | cons w writes ih =>
    have h_here : w.touch editable inst = inst := by
      cases w with
      | create props => rfl
      | update id props =>
        refine if_neg ?_
        rintro rfl
        exact h props List.mem_cons_self
    rw [touched_cons, h_here]
    exact ih fun props h_mem => h props (List.mem_cons_of_mem _ h_mem)

theorem Write.get_touch (w : Write) (inst : Instance) (key : String) :
    (w.touch editable inst).get key = inst.get key ∨
      ∃ props, w = .update inst.id props ∧ editable key = true ∧ props.Has key ∧
        (w.touch editable inst).get key = props.get key := by
  cases w with
  | create props => exact .inl rfl
  | update id props =>
    rw [Write.touch_update]
    split_ifs with h_id
    · show (if (props.getEditable editable).Has key then _ else _) = _ ∨ _
      split_ifs with h_has
      · obtain ⟨h_has, h_editable⟩ := Props.has_getEditable.mp h_has
        refine .inr ⟨props, by rw [h_id], h_editable, h_has, ?_⟩
        show (if (props.getEditable editable).Has key then _ else _) = _
        rw [if_pos (Props.has_getEditable.mpr ⟨h_has, h_editable⟩), Props.get_getEditable h_editable]
      · exact .inl rfl
    · exact .inl rfl

theorem touched_invariant {P : Value → Prop} {key : String} (h : P (inst.get key))
    (h_writes : ∀ props, .update inst.id props ∈ writes → props.Has key → P (props.get key)) :
    P ((touched editable writes inst).get key) := by
  induction writes generalizing inst with
  | nil => exact h
  | cons w writes ih =>
    refine ih ?_ fun props h_mem h_has => ?_
    · obtain h_same | ⟨props, rfl, -, h_has, h_set⟩ := w.get_touch inst key
      · rwa [h_same]
      · rw [h_set]
        exact h_writes props List.mem_cons_self h_has
    · rw [Write.id_touch] at h_mem
      exact h_writes props (List.mem_cons_of_mem _ h_mem) h_has

theorem touched_of_mem {P : Value → Prop} {key : String} {props : Props}
    (h_editable : editable key = true) (h_mem : .update inst.id props ∈ writes)
    (h_writes : ∀ props, .update inst.id props ∈ writes → props.Has key ∧ P (props.get key)) :
    P ((touched editable writes inst).get key) := by
  induction writes generalizing inst with
  | nil => cases h_mem
  | cons w writes ih =>
    obtain rfl | h_later := List.mem_cons.mp h_mem
    · rw [touched_cons]
      refine touched_invariant ?_ fun props' h_mem' h_has => ?_
      · obtain ⟨h_has, h_P⟩ := h_writes props List.mem_cons_self
        rw [Write.touch_update, if_pos rfl]
        show P (if (props.getEditable editable).Has key then _ else _)
        rwa [if_pos (Props.has_getEditable.mpr ⟨h_has, h_editable⟩),
          Props.get_getEditable h_editable]
      · rw [Write.id_touch] at h_mem'
        exact (h_writes props' (List.mem_cons_of_mem _ h_mem')).2
    · rw [touched_cons]
      refine ih ?_ fun props' h_mem' => ?_
      · rwa [Write.id_touch]
      · rw [Write.id_touch] at h_mem'
        exact h_writes props' (List.mem_cons_of_mem _ h_mem')

/-- **After a pass.** The instances from before are updated in their places, and the new ones
follow. -/
theorem rows_applied (h : ∀ id props, .update id props ∈ writes → id < s.nextId) :
    (applied editable writes s).rows =
      s.rows.map (touched editable writes) ++ created s.nextId writes := by
  induction writes generalizing s with
  | nil =>
    show s.rows = s.rows.map id ++ []
    rw [List.map_id, List.append_nil]
  | cons w writes ih =>
    have h_later : ∀ id props, .update id props ∈ writes → id < s.nextId := fun id props h_mem =>
      h id props (List.mem_cons_of_mem _ h_mem)
    cases w with
    | create props =>
      have h_rows := ih (s := s.create props) fun id props h_mem =>
        Nat.lt_succ_of_lt (h_later id props h_mem)
      -- no update is one of the new instance
      have h_new : touched editable writes { id := s.nextId, get := props.get } =
          { id := s.nextId, get := props.get } :=
        touched_of_none fun props' h_mem => (h_later _ props' h_mem).ne rfl
      show (applied editable writes (s.create props)).rows = _
      rw [h_rows, Store.create, List.map_append, List.map_singleton, h_new, List.append_assoc]
      rfl
    | update id props =>
      have h_rows := ih (s := s.write [id] (props.getEditable editable)) h_later
      show (applied editable writes (s.write [id] (props.getEditable editable))).rows = _
      rw [h_rows, Store.write, List.map_map]
      congr 1
      refine List.map_congr_left fun inst _ => ?_
      show touched editable writes (if inst.id ∈ [id] then _ else _) =
        touched editable writes (if inst.id = id then _ else _)
      simp only [List.mem_singleton]

theorem applied_cons (w : Write) :
    applied editable (w :: writes) s = applied editable writes (w.apply editable s) := rfl

theorem Store.Numbered.applied (h : s.Numbered) : (applied editable writes s).Numbered := by
  induction writes generalizing s with
  | nil => exact h
  | cons w writes ih =>
    rw [applied_cons]
    refine ih ?_
    cases w with
    | create props => exact h.create
    | update id props => exact h.write

theorem mem_created {n : ℕ} (h : inst ∈ created n writes) :
    n ≤ inst.id ∧ ∃ props, .create props ∈ writes ∧ inst.get = props.get := by
  obtain ⟨⟨props, id⟩, h_mem, rfl⟩ := List.mem_map.mp h
  obtain ⟨h_le, -, -⟩ := List.mem_zipIdx h_mem
  have h_props : props ∈ creates writes := by
    have h_fst := List.mem_map_of_mem (f := Prod.fst) h_mem
    rwa [List.zipIdx_map_fst] at h_fst
  obtain ⟨w, h_w, h_create⟩ := List.mem_filterMap.mp h_props
  refine ⟨h_le, props, ?_, rfl⟩
  cases w with
  | create props' =>
    obtain rfl := Option.some.inj h_create
    exact h_w
  | update id props' => cases h_create

theorem exists_created {n : ℕ} {props : Props} (h : .create props ∈ writes) :
    ∃ inst ∈ created n writes, inst.get = props.get := by
  have h_mem : props ∈ creates writes := List.mem_filterMap.mpr ⟨_, h, rfl⟩
  obtain ⟨i, h_i, h_props⟩ := List.getElem_of_mem h_mem
  refine ⟨⟨n + i, props.get⟩, List.mem_map.mpr ⟨(props, n + i), ?_, rfl⟩, rfl⟩
  rw [List.mem_iff_getElem?]
  refine ⟨i, ?_⟩
  rw [List.getElem?_zipIdx, List.getElem?_eq_getElem h_i, h_props]
  rfl

theorem created_eq_nil {n : ℕ} (h : ∀ props, .create props ∉ writes) : created n writes = [] := by
  refine List.eq_nil_iff_forall_not_mem.mpr fun inst h_inst => ?_
  obtain ⟨-, props, h_create, -⟩ := mem_created h_inst
  exact h props h_create

theorem pairwise_created {R : (String → Value) → (String → Value) → Prop} {n : ℕ}
    (h : (creates writes).Pairwise fun props props' => R props.get props'.get) :
    (created n writes).Pairwise fun i j => R i.get j.get := by
  unfold created
  rw [List.pairwise_map]
  have h_fst : (((creates writes).zipIdx n).map Prod.fst).Pairwise
      fun props props' => R props.get props'.get := by
    rwa [List.zipIdx_map_fst]
  rwa [List.pairwise_map] at h_fst

end Cmdb
