import Mathlib.Data.List.Induction
import Mathlib.Data.Multiset.MapFold

/-!
# Dicts in insertion order

A Python `dict` as the list of its entries. A new key goes to the end, a key that is there keeps its
place. No key is there twice (`Keyed`), and every operation keeps it so.
-/

abbrev OrderedDict (Key Val : Type*) := List (Key × Val)

namespace OrderedDict

variable {Key Val : Type*} [DecidableEq Key] {d : OrderedDict Key Val} {k k' : Key} {v v' : Val}

/-- `d.get(k)`. -/
def get (d : OrderedDict Key Val) (k : Key) : Option Val := (d.find? (·.1 = k)).map (·.2)

/-- `d[k] = v`. -/
def set : OrderedDict Key Val → Key → Val → OrderedDict Key Val
  | [], k, v => [(k, v)]
  | e :: d, k, v => if e.1 = k then (k, v) :: d else e :: set d k v

/-- `d.pop(k, None)`. -/
def pop (d : OrderedDict Key Val) (k : Key) : OrderedDict Key Val := d.filter (·.1 ≠ k)

def keys (d : OrderedDict Key Val) : List Key := d.map (·.1)

def values (d : OrderedDict Key Val) : List Val := d.map (·.2)

/-- `{key(x): x for x in xs}`. -/
def ofList (key : Val → Key) (xs : List Val) : OrderedDict Key Val :=
  xs.foldl (fun d x => set d (key x) x) []

def Keyed (d : OrderedDict Key Val) : Prop := (d.map (·.1)).Nodup

/-! ### Reading -/

omit [DecidableEq Key] in
theorem keyed_nil : Keyed ([] : OrderedDict Key Val) := List.nodup_nil

theorem get_nil : get ([] : OrderedDict Key Val) k = none := rfl

theorem get_cons {e : Key × Val} : get (e :: d) k = if e.1 = k then some e.2 else get d k := by
  unfold get
  rw [List.find?_cons]
  by_cases h : e.1 = k
  · simp [h]
  · simp [h]

theorem mem_of_get (h : get d k = some v) : (k, v) ∈ d := by
  obtain ⟨e, h_find, h_val⟩ := Option.map_eq_some_iff.mp h
  have h_key : e.1 = k := by simpa using List.find?_some h_find
  rw [← h_key, ← h_val]
  exact List.mem_of_find?_eq_some h_find

theorem get_of_mem (h_keyed : Keyed d) (h : (k, v) ∈ d) : get d k = some v := by
  induction d with
  | nil => exact absurd h List.not_mem_nil
  | cons e d ih =>
    rw [get_cons]
    obtain ⟨h_new, h_rest⟩ := List.nodup_cons.mp h_keyed
    obtain rfl | h_in := List.mem_cons.mp h
    · simp
    · have h_ne : e.1 ≠ k := fun h_eq => h_new (List.mem_map.mpr ⟨(k, v), h_in, h_eq.symm⟩)
      rw [if_neg h_ne]
      exact ih h_rest h_in

theorem get_eq_none : get d k = none ↔ ∀ e ∈ d, e.1 ≠ k := by
  unfold get
  rw [Option.map_eq_none_iff, List.find?_eq_none]
  simp

/-! ### Writing -/

theorem get_set : get (set d k v) k' = if k = k' then some v else get d k' := by
  induction d with
  | nil =>
    rw [set, get_cons]
  | cons e d ih =>
    rw [set]
    by_cases h : e.1 = k
    · rw [if_pos h, get_cons, get_cons, h]
      by_cases h' : k = k'
      · rw [if_pos h', if_pos h']
      · rw [if_neg h', if_neg h', if_neg h']
    · rw [if_neg h, get_cons, ih, get_cons]
      by_cases h' : e.1 = k'
      · have h_ne : k ≠ k' := fun h_eq => h (h'.trans h_eq.symm)
        rw [if_pos h', if_neg h_ne, if_pos h']
      · rw [if_neg h', if_neg h']

theorem mem_set (h : (k', v') ∈ set d k v) : (k' = k ∧ v' = v) ∨ (k', v') ∈ d := by
  induction d with
  | nil =>
    rw [set, List.mem_singleton, Prod.mk.injEq] at h
    exact .inl h
  | cons e d ih =>
    rw [set] at h
    split_ifs at h with h_key
    · obtain h_eq | h_in := List.mem_cons.mp h
      · exact .inl (Prod.mk.injEq _ _ _ _ ▸ h_eq)
      · exact .inr (List.mem_cons_of_mem e h_in)
    · obtain rfl | h_in := List.mem_cons.mp h
      · exact .inr List.mem_cons_self
      · exact (ih h_in).imp_right (List.mem_cons_of_mem e)

theorem mem_set_self : (k, v) ∈ set d k v := mem_of_get (by rw [get_set, if_pos rfl])

theorem mem_set_of_ne (h : (k', v') ∈ d) (h_ne : k' ≠ k) : (k', v') ∈ set d k v := by
  induction d with
  | nil => exact absurd h List.not_mem_nil
  | cons e d ih =>
    rw [set]
    obtain rfl | h_in := List.mem_cons.mp h
    · rw [if_neg h_ne]
      exact List.mem_cons_self
    · split_ifs
      · exact List.mem_cons_of_mem _ h_in
      · exact List.mem_cons_of_mem _ (ih h_in)

theorem keys_set_of_get (h : get d k = some v') :
    (set d k v).map (·.1) = d.map (·.1) := by
  induction d with
  | nil => cases h
  | cons e d ih =>
    rw [get_cons] at h
    rw [set]
    split_ifs at h ⊢ with h_key
    · rw [List.map_cons, List.map_cons, h_key]
    · rw [List.map_cons, List.map_cons, ih h]

theorem set_of_get_eq_none (h : get d k = none) : set d k v = d ++ [(k, v)] := by
  induction d with
  | nil => rfl
  | cons e d ih =>
    rw [get_cons] at h
    rw [set]
    split_ifs at h ⊢
    rw [ih h, List.cons_append]

theorem map_set {β : Type*} {f : Key × Val → β} (h : get d k = some v')
    (h_eq : f (k, v) = f (k, v')) :
    (set d k v).map f = d.map f := by
  induction d with
  | nil => cases h
  | cons e d ih =>
    rw [get_cons] at h
    rw [set]
    split_ifs at h ⊢ with h_key
    · cases h
      rw [List.map_cons, List.map_cons, h_eq, ← h_key]
    · rw [List.map_cons, List.map_cons, ih h]

theorem Keyed.set (h : Keyed d) : Keyed (set d k v) := by
  unfold Keyed at h ⊢
  cases h_get : get d k with
  | some v' => rwa [keys_set_of_get h_get]
  | none =>
    rw [set_of_get_eq_none h_get, List.map_append, List.nodup_append]
    refine ⟨h, List.nodup_singleton _, fun a h_a b h_b => ?_⟩
    obtain ⟨e, h_e, rfl⟩ := List.mem_map.mp h_a
    rw [List.mem_map] at h_b
    obtain ⟨e', h_e', rfl⟩ := h_b
    rw [List.mem_singleton.mp h_e']
    exact get_eq_none.mp h_get e h_e

omit [DecidableEq Key] in
theorem Keyed.filter (h : Keyed d) (p : Key × Val → Bool) : Keyed (d.filter p) :=
  h.sublist (List.filter_sublist.map _)

theorem Keyed.pop (h : Keyed d) : Keyed (pop d k) := h.filter _

theorem mem_pop : (k', v') ∈ pop d k ↔ (k', v') ∈ d ∧ k' ≠ k := by
  unfold pop
  simp

/-! ### The values -/

omit [DecidableEq Key] in
theorem mem_values : v ∈ values d ↔ ∃ k, (k, v) ∈ d := by
  unfold values
  simp

theorem get_or_mem_set (h_keyed : Keyed d) (h : v' ∈ values d) :
    get d k = some v' ∨ v' ∈ values (set d k v) := by
  obtain ⟨k', h_mem⟩ := mem_values.mp h
  by_cases h_key : k' = k
  · rw [h_key] at h_mem
    exact .inl (get_of_mem h_keyed h_mem)
  · exact .inr (mem_values.mpr ⟨k', mem_set_of_ne h_mem h_key⟩)

theorem get_or_mem_pop (h_keyed : Keyed d) (h : v' ∈ values d) :
    get d k = some v' ∨ v' ∈ values (pop d k) := by
  obtain ⟨k', h_mem⟩ := mem_values.mp h
  by_cases h_key : k' = k
  · rw [h_key] at h_mem
    exact .inl (get_of_mem h_keyed h_mem)
  · exact .inr (mem_values.mpr ⟨k', mem_pop.mpr ⟨h_mem, h_key⟩⟩)

theorem mem_values_set_self : v ∈ values (set d k v) := mem_values.mpr ⟨k, mem_set_self⟩

/-! ### The values as a multiset -/

section Values

variable {β : Type*} (f : Val → β)

def valuesOf (d : OrderedDict Key Val) : Multiset β := ((values d).map f : List β)

omit [DecidableEq Key] in
theorem valuesOf_cons {e : Key × Val} : valuesOf f (e :: d) = f e.2 ::ₘ valuesOf f d := rfl

theorem valuesOf_set_of_none (h : get d k = none) :
    valuesOf f (set d k v) = f v ::ₘ valuesOf f d := by
  rw [set_of_get_eq_none h]
  unfold valuesOf values
  rw [List.map_append, List.map_append, ← Multiset.coe_add, Multiset.add_comm]
  rfl

theorem valuesOf_set_of_some (h : get d k = some v') :
    f v' ::ₘ valuesOf f (set d k v) = f v ::ₘ valuesOf f d := by
  induction d with
  | nil => cases h
  | cons e d ih =>
    rw [get_cons] at h
    rw [set]
    split_ifs at h ⊢ with h_key
    · rw [valuesOf_cons, valuesOf_cons, ← Option.some.inj h]
      exact Multiset.cons_swap _ _ _
    · rw [valuesOf_cons, valuesOf_cons, Multiset.cons_swap, ih h, Multiset.cons_swap]

theorem valuesOf_set_of_eq (h : get d k = some v') (h_same : f v = f v') :
    valuesOf f (set d k v) = valuesOf f d := by
  have h_cons := valuesOf_set_of_some f (v := v) h
  rw [h_same] at h_cons
  exact (Multiset.cons_inj_right _).mp h_cons

theorem valuesOf_pop (h_keyed : Keyed d) (h : get d k = some v) :
    f v ::ₘ valuesOf f (pop d k) = valuesOf f d := by
  induction d with
  | nil => cases h
  | cons e d ih =>
    obtain ⟨h_new, h_rest⟩ := List.nodup_cons.mp h_keyed
    rw [get_cons] at h
    unfold pop
    by_cases h_key : e.1 = k
    · rw [if_pos h_key] at h
      have h_none : d.filter (·.1 ≠ k) = d := by
        refine List.filter_eq_self.mpr fun e' h_e' => ?_
        have h_ne : e'.1 ≠ k := fun h_eq =>
          h_new (List.mem_map.mpr ⟨e', h_e', h_eq.trans h_key.symm⟩)
        simpa using h_ne
      rw [List.filter_cons_of_neg (by simpa using h_key), h_none, valuesOf_cons,
        Option.some.inj h]
    · rw [if_neg h_key] at h
      rw [List.filter_cons_of_pos (by simpa using h_key), valuesOf_cons, valuesOf_cons,
        Multiset.cons_swap]
      exact congrArg _ (ih h_rest h)

end Values

/-! ### Dicts of a list -/

section OfList

variable {key : Val → Key} {x : Val} {xs : List Val}

theorem ofList_concat : ofList key (xs ++ [x]) = set (ofList key xs) (key x) x := by
  unfold ofList
  rw [List.foldl_append]
  rfl

theorem mem_ofList (h : (k, v) ∈ ofList key xs) : v ∈ xs ∧ key v = k := by
  induction xs using List.reverseRecOn with
  | nil => exact absurd h List.not_mem_nil
  | append_singleton xs x ih =>
    rw [ofList_concat] at h
    obtain ⟨rfl, rfl⟩ | h_in := mem_set h
    · exact ⟨List.mem_append_right _ (List.mem_singleton_self _), rfl⟩
    · exact (ih h_in).imp_left (List.mem_append_left _)

theorem keyed_ofList : Keyed (ofList key xs) := by
  induction xs using List.reverseRecOn with
  | nil => exact keyed_nil
  | append_singleton xs x ih =>
    rw [ofList_concat]
    exact ih.set

theorem get_ofList : get (ofList key xs) k = (xs.filter (key · = k)).getLast? := by
  induction xs using List.reverseRecOn with
  | nil => rfl
  | append_singleton xs x ih =>
    rw [ofList_concat, get_set, ih, List.filter_append]
    split_ifs with h_key
    · simp [h_key]
    · simp [h_key]

end OfList

end OrderedDict
