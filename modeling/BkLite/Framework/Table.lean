import Mathlib.Data.List.AList
import Mathlib.Data.List.MinMax

/-!
# Tables keyed by a primary key

A table is an association list without repeated keys (Mathlib's `AList`), so it
holds at most one row for a key by construction. Beside `AList.lookup` and
`AList.insert` (an insert-or-replace) the module gives the operations that
row-level code needs:

* `Table.modify` — update the row of a key, if there is one;
* `Table.keysWhere` — the keys of the rows that satisfy a condition, each once;
* `Table.latestWhere` — the latest of the rows that satisfy a condition;
* `Table.mapRows` — update all rows;
* `Table.Evolves` — no row is lost, and each has changed only as a relation allows;
* `Table.insertRows` — rows under consecutive numbers that no row has yet.
-/

/-- A table of rows `Row` with primary key `Key`. -/
abbrev Table (Key Row : Type*) := AList fun _ : Key => Row

namespace Table

variable {Key Row : Type*} [DecidableEq Key] {t : Table Key Row} {k k' : Key}

theorem lookup_insert (t : Table Key Row) (k k' : Key) (r : Row) :
    (t.insert k r).lookup k' = if k' = k then some r else t.lookup k' := by
  split_ifs with h
  · rw [h]
    exact AList.lookup_insert t
  · exact AList.lookup_insert_ne h

theorem forall_insert {P : Key → Row → Prop} {r : Row}
    (h : ∀ k r, t.lookup k = some r → P k r) (h_r : P k r) :
    ∀ k' r', (t.insert k r).lookup k' = some r' → P k' r' := by
  intro k' r' h_row
  rw [lookup_insert] at h_row
  split_ifs at h_row with h_key
  · rw [h_key, ← Option.some.inj h_row]
    exact h_r
  · exact h k' r' h_row

theorem lookup_erase (t : Table Key Row) (k k' : Key) :
    (t.erase k).lookup k' = if k' = k then none else t.lookup k' := by
  split_ifs with h
  · rw [h]
    exact AList.lookup_erase k t
  · exact AList.lookup_erase_ne h

theorem lookup_of_erase {r : Row} (h : (t.erase k).lookup k' = some r) :
    k' ≠ k ∧ t.lookup k' = some r := by
  rw [lookup_erase] at h
  split_ifs at h with h_key
  exact ⟨h_key, h⟩

/-- Erase the rows whose keys satisfy `p`. -/
def eraseWhere (t : Table Key Row) (p : Key → Bool) : Table Key Row where
  entries := t.entries.filter fun e => !p e.1
  nodupKeys := t.nodupKeys.sublist List.filter_sublist

theorem lookup_eraseWhere (t : Table Key Row) (p : Key → Bool) (k : Key) :
    (t.eraseWhere p).lookup k = if p k = true then none else t.lookup k := by
  have h_entries : ∀ r, (t.eraseWhere p).lookup k = some r ↔ ¬p k = true ∧ t.lookup k = some r := by
    intro r
    rw [← Option.mem_def, ← Option.mem_def, AList.mem_lookup_iff, AList.mem_lookup_iff]
    change _ ∈ t.entries.filter _ ↔ _
    simp [List.mem_filter, and_comm]
  ext r
  rw [h_entries]
  split_ifs with h_k
  · simp [h_k]
  · simp [h_k]

/-- Update the row of `k`, if there is one. -/
def modify (t : Table Key Row) (k : Key) (f : Row → Row) : Table Key Row :=
  match t.lookup k with
  | some r => t.insert k (f r)
  | none => t

theorem lookup_modify (t : Table Key Row) (k k' : Key) (f : Row → Row) :
    (modify t k f).lookup k' = if k' = k then (t.lookup k).map f else t.lookup k' := by
  unfold modify
  cases h_row : t.lookup k with
  | none =>
    split_ifs with h
    · rw [h, h_row]
      rfl
    · rfl
  | some r => rw [lookup_insert, Option.map_some]

@[simp] theorem lookup_modify_self (t : Table Key Row) (k : Key) (f : Row → Row) :
    (modify t k f).lookup k = (t.lookup k).map f := by
  rw [lookup_modify, if_pos rfl]

theorem lookup_modify_ne (t : Table Key Row) (f : Row → Row) (h : k' ≠ k) :
    (modify t k f).lookup k' = t.lookup k' := by
  rw [lookup_modify, if_neg h]

theorem lookup_modify_eq_some {f : Row → Row} {r : Row}
    (h : (modify t k f).lookup k' = some r) :
    ∃ r₀, t.lookup k' = some r₀ ∧ r = if k' = k then f r₀ else r₀ := by
  rw [lookup_modify] at h
  split_ifs at h with h_key
  · obtain ⟨r₀, h_row, h_eq⟩ := Option.map_eq_some_iff.mp h
    refine ⟨r₀, h_key ▸ h_row, ?_⟩
    rw [if_pos h_key, h_eq]
  · exact ⟨r, h, by rw [if_neg h_key]⟩

/-- The keys of the rows that satisfy `p`. -/
def keysWhere (t : Table Key Row) (p : Row → Bool) : List Key :=
  (t.entries.filter fun e => p e.2).map Sigma.fst

omit [DecidableEq Key] in
theorem keysWhere_nodup (t : Table Key Row) (p : Row → Bool) : (t.keysWhere p).Nodup := by
  have h_sub : (t.keysWhere p).Sublist t.keys :=
    List.filter_sublist.map Sigma.fst
  exact t.keys_nodup.sublist h_sub

theorem mem_keysWhere {p : Row → Bool} :
    k ∈ t.keysWhere p ↔ ∃ r, t.lookup k = some r ∧ p r := by
  simp only [keysWhere, List.mem_map, List.mem_filter, Sigma.exists, ← AList.mem_lookup_iff,
    Option.mem_def]
  refine ⟨?_, ?_⟩
  · rintro ⟨k₀, r, ⟨h_row, h_p⟩, rfl⟩
    exact ⟨r, h_row, h_p⟩
  · rintro ⟨r, h_row, h_p⟩
    exact ⟨k, r, ⟨h_row, h_p⟩, rfl⟩

/-- Some row satisfies `p`. -/
def anyRow (t : Table Key Row) (p : Row → Bool) : Bool :=
  t.keysWhere p ≠ []

theorem anyRow_eq_true {p : Row → Bool} :
    t.anyRow p = true ↔ ∃ k r, t.lookup k = some r ∧ p r = true := by
  unfold anyRow
  rw [decide_eq_true_iff, ne_eq, List.eq_nil_iff_forall_not_mem]
  push Not
  simp only [mem_keysWhere]

def insertAll (t : Table Key Row) (rows : List (Key × Row)) : Table Key Row :=
  rows.foldl (fun t row => t.insert row.1 row.2) t

@[simp] theorem insertAll_cons (t : Table Key Row) (row : Key × Row) (rows : List (Key × Row)) :
    t.insertAll (row :: rows) = insertAll (t.insert row.1 row.2) rows := rfl

theorem insertAll_append (t : Table Key Row) (rows rows' : List (Key × Row)) :
    t.insertAll (rows ++ rows') = (t.insertAll rows).insertAll rows' :=
  List.foldl_append

theorem lookup_insertAll_of_not_mem {rows : List (Key × Row)} (h : k ∉ rows.map Prod.fst) :
    (t.insertAll rows).lookup k = t.lookup k := by
  induction rows generalizing t with
  | nil => rfl
  | cons row rows ih =>
    rw [List.map_cons, List.mem_cons, not_or] at h
    rw [insertAll_cons, ih h.2, AList.lookup_insert_ne h.1]

theorem lookup_insertAll_of_mem {rows : List (Key × Row)} (h_nodup : (rows.map Prod.fst).Nodup)
    {row : Key × Row} (h : row ∈ rows) : (t.insertAll rows).lookup row.1 = some row.2 := by
  induction rows generalizing t with
  | nil => exact absurd h List.not_mem_nil
  | cons row' rows ih =>
    rw [List.map_cons, List.nodup_cons] at h_nodup
    rw [insertAll_cons]
    rcases List.mem_cons.mp h with rfl | h_later
    · rw [lookup_insertAll_of_not_mem h_nodup.1, AList.lookup_insert]
    · exact ih h_nodup.2 h_later

/-- The row that satisfies `p` with the greatest `f`, and its key. -/
def latestWhere (t : Table Key Row) (p : Row → Bool) (f : Row → ℤ) : Option (Key × Row) :=
  -- the order is named, as a search for it may find one that does not compute
  @List.argmax _ ℤ Int.instLinearOrder.toPreorder inferInstance (fun e => f e.2)
    ((t.entries.map fun e => (e.1, e.2)).filter fun e => p e.2)

omit [DecidableEq Key] in
theorem mem_entries_pair {k : Key} {r : Row} :
    (k, r) ∈ t.entries.map (fun e => (e.1, e.2)) ↔ ⟨k, r⟩ ∈ t.entries := by
  rw [List.mem_map]
  refine ⟨?_, fun h => ⟨_, h, rfl⟩⟩
  rintro ⟨⟨k', r'⟩, h_mem, h_eq⟩
  cases h_eq
  exact h_mem

theorem latestWhere_eq_some {p : Row → Bool} {f : Row → ℤ} {r : Row}
    (h : t.latestWhere p f = some (k, r)) : t.lookup k = some r ∧ p r = true := by
  have h_mem := List.mem_filter.mp (List.argmax_mem h)
  exact ⟨AList.mem_lookup_iff.mpr (mem_entries_pair.mp h_mem.1), h_mem.2⟩

theorem latestWhere_eq_none {p : Row → Bool} {f : Row → ℤ} :
    t.latestWhere p f = none ↔ ∀ k r, t.lookup k = some r → p r = false := by
  unfold latestWhere
  rw [List.argmax_eq_none, List.filter_eq_nil_iff]
  refine ⟨fun h k r h_row => ?_, fun h e h_mem => ?_⟩
  · have h_mem : (k, r) ∈ t.entries.map (fun e => (e.1, e.2)) :=
      mem_entries_pair.mpr (AList.mem_lookup_iff.mp h_row)
    simpa using h (k, r) h_mem
  · obtain ⟨k, r⟩ := e
    simp [h k r (AList.mem_lookup_iff.mpr (mem_entries_pair.mp h_mem))]

theorem latestWhere_insert_of_not {p : Row → Bool} {f : Row → ℤ} {r : Row} (h_new : p r = false)
    (h_old : ∀ r₀, t.lookup k = some r₀ → p r₀ = false) :
    latestWhere (t.insert k r) p f = latestWhere t p f := by
  have h_erase : ∀ es : List (Σ _ : Key, Row), (∀ r₀, ⟨k, r₀⟩ ∈ es → p r₀ = false) →
      (es.kerase k).filter (fun e => p e.2) = es.filter fun e => p e.2 := by
    intro es
    induction es with
    | nil => intro _; rfl
    | cons e es ih =>
      intro h_es
      by_cases h_key : k = e.1
      · have h_drop : p e.2 = false := h_es e.2 (h_key ▸ List.mem_cons_self)
        rw [List.kerase_cons_eq h_key, List.filter_cons_of_neg (by simp [h_drop])]
      · have h_rest := ih fun r₀ h_r₀ => h_es r₀ (List.mem_cons_of_mem e h_r₀)
        rw [List.kerase_cons_ne h_key, List.filter_cons, List.filter_cons, h_rest]
  have h_rows : (t.insert k r).entries.filter (fun e => p e.2) =
      t.entries.filter fun e => p e.2 := by
    rw [AList.entries_insert, List.filter_cons_of_neg (by simp [h_new])]
    exact h_erase _ fun r₀ h_r₀ => h_old r₀ (AList.mem_lookup_iff.mpr h_r₀)
  have h_pairs : ∀ es : List (Σ _ : Key, Row),
      (es.map fun e => (e.1, e.2)).filter (fun e => p e.2) =
        (es.filter fun e => p e.2).map fun e => (e.1, e.2) := fun es => List.filter_map
  unfold latestWhere
  rw [h_pairs, h_pairs, h_rows]

/-! ### Updates of many rows -/

/-- Update every row; `f` is given its key. -/
def mapRows (t : Table Key Row) (f : Key → Row → Row) : Table Key Row where
  entries := t.entries.map fun e => ⟨e.1, f e.1 e.2⟩
  nodupKeys := by
    have h_keys : (t.entries.map fun e => (⟨e.1, f e.1 e.2⟩ : Σ _ : Key, Row)).keys =
        t.entries.keys := by
      simp only [List.keys, List.map_map, Function.comp_def]
    rw [List.NodupKeys, h_keys]
    exact t.nodupKeys

theorem lookup_mapRows (t : Table Key Row) (f : Key → Row → Row) (k : Key) :
    (t.mapRows f).lookup k = (t.lookup k).map (f k) := by
  have h_entries : ∀ es : List (Σ _ : Key, Row),
      List.dlookup k (es.map fun e => (⟨e.1, f e.1 e.2⟩ : Σ _ : Key, Row)) =
        (List.dlookup k es).map (f k) := by
    intro es
    induction es with
    | nil => rfl
    | cons e es ih =>
      obtain ⟨k', r⟩ := e
      rw [List.map_cons]
      by_cases h_key : k = k'
      · subst h_key
        rw [List.dlookup_cons_eq, List.dlookup_cons_eq]
        rfl
      · rw [List.dlookup_cons_ne _ _ h_key, List.dlookup_cons_ne _ _ h_key, ih]
  exact h_entries t.entries

theorem lookup_foldl_modify {X : Type*} (key : X → Key) (f : X → Row → Row) (xs : List X)
    (t : Table Key Row) (k : Key) :
    (xs.foldl (fun t x => modify t (key x) (f x)) t).lookup k =
      (t.lookup k).map fun r => (xs.filter (key · = k)).foldl (fun r x => f x r) r := by
  induction xs generalizing t with
  | nil => exact Option.map_id'.symm
  | cons x xs ih =>
    rw [List.foldl_cons, ih (modify t (key x) (f x)), lookup_modify]
    by_cases h_key : k = key x
    · subst h_key
      rw [if_pos rfl, List.filter_cons, if_pos (decide_eq_true rfl), Option.map_map]
      rfl
    · have h_drop : ¬decide (key x = k) = true := fun h => h_key (of_decide_eq_true h).symm
      rw [if_neg h_key, List.filter_cons, if_neg h_drop]

/-! ### Rows over time -/

/-- Every row of `t` is still in `t'`, as one that `R` allows. -/
def Evolves (R : Row → Row → Prop) (t t' : Table Key Row) : Prop :=
  ∀ k r, t.lookup k = some r → ∃ r', t'.lookup k = some r' ∧ R r r'

section Evolves

variable {R Q S : Row → Row → Prop} {t t' t'' : Table Key Row}

theorem Evolves.refl (h_refl : ∀ r, R r r) (t : Table Key Row) : Evolves R t t :=
  fun _ r h_row => ⟨r, h_row, h_refl r⟩

theorem Evolves.mono (h : Evolves R t t') (h_imp : ∀ r r', R r r' → Q r r') : Evolves Q t t' := by
  intro k r h_row
  obtain ⟨r', h_row', h_R⟩ := h k r h_row
  exact ⟨r', h_row', h_imp r r' h_R⟩

theorem Evolves.trans (h : Evolves R t t') (h' : Evolves Q t' t'')
    (h_trans : ∀ r r' r'', R r r' → Q r' r'' → S r r'') : Evolves S t t'' := by
  intro k r h_row
  obtain ⟨r', h_row', h_R⟩ := h k r h_row
  obtain ⟨r'', h_row'', h_R'⟩ := h' k r' h_row'
  exact ⟨r'', h_row'', h_trans r r' r'' h_R h_R'⟩

theorem evolves_insert (h_refl : ∀ r, R r r) {r : Row}
    (h : ∀ r₀, t.lookup k = some r₀ → R r₀ r) : Evolves R t (t.insert k r) := by
  intro k' r' h_row
  rw [lookup_insert]
  split_ifs with h_key
  · exact ⟨r, rfl, h r' (h_key ▸ h_row)⟩
  · exact ⟨r', h_row, h_refl r'⟩

theorem evolves_update (h_refl : ∀ r, R r r) {r₀ r : Row} (h_row : t.lookup k = some r₀)
    (h : R r₀ r) : Evolves R t (t.insert k r) :=
  evolves_insert h_refl fun _ h_row₀ => Option.some.inj (h_row.symm.trans h_row₀) ▸ h

theorem evolves_modify (h_refl : ∀ r, R r r) {f : Row → Row} (h : ∀ r, R r (f r)) (k : Key) :
    Evolves R t (modify t k f) := by
  unfold modify
  cases h_row : t.lookup k with
  | none => exact .refl h_refl t
  | some r => exact evolves_update h_refl h_row (h r)

theorem evolves_foldl_modify {X : Type*} (h_refl : ∀ r, R r r)
    (h_trans : ∀ r r' r'', R r r' → R r' r'' → R r r'') {p : Row → Prop} {key : X → Key}
    {f : X → Row → Row} (h_f : ∀ x r, p r → R r (f x r) ∧ p (f x r)) (xs : List X)
    (h_p : ∀ x ∈ xs, ∀ r, t.lookup (key x) = some r → p r) :
    Evolves R t (xs.foldl (fun t x => modify t (key x) (f x)) t) := by
  induction xs generalizing t with
  | nil => exact .refl h_refl t
  | cons x xs ih =>
    have h_here : Evolves R t (modify t (key x) (f x)) := by
      intro k r h_row
      rw [lookup_modify]
      split_ifs with h_key
      · subst h_key
        exact ⟨f x r, by rw [h_row]; rfl, (h_f x r (h_p x List.mem_cons_self r h_row)).1⟩
      · exact ⟨r, h_row, h_refl r⟩
    refine h_here.trans (ih fun y h_y r h_row => ?_) h_trans
    -- an updated row satisfies `p` again
    obtain ⟨r₀, h_row₀, rfl⟩ := lookup_modify_eq_some h_row
    have h_p₀ := h_p y (List.mem_cons_of_mem x h_y) r₀ h_row₀
    split_ifs with h_key
    · exact (h_f x r₀ h_p₀).2
    · exact h_p₀

end Evolves

/-! ### Numbered rows -/

section Numbered

variable {t : Table ℕ Row} {base : ℕ} {k : ℕ}

/-- Every key of the table is below `base`. -/
def Below (t : Table ℕ Row) (base : ℕ) : Prop :=
  ∀ k, base ≤ k → t.lookup k = none

/-- Insert rows under the keys `base`, `base + 1`, … -/
def insertRows (t : Table ℕ Row) (base : ℕ) : List Row → Table ℕ Row
  | [] => t
  | r :: rs => insertRows (t.insert base r) (base + 1) rs

theorem Below.mono {base' : ℕ} (h : Below t base) (h_le : base ≤ base') : Below t base' :=
  fun k h_k => h k (Nat.le_trans h_le h_k)

theorem Below.lt {r : Row} (h : Below t base) (h_row : t.lookup k = some r) : k < base := by
  by_contra h_not
  rw [h k (Nat.not_lt.mp h_not)] at h_row
  cases h_row

theorem Below.insert {r : Row} (h : Below t base) (h_k : k < base) : Below (t.insert k r) base := by
  intro k' h_k'
  rw [lookup_insert, if_neg (Nat.ne_of_gt (Nat.lt_of_lt_of_le h_k h_k'))]
  exact h k' h_k'

theorem Below.erase (h : Below t base) (k : ℕ) : Below (t.erase k) base := by
  intro k' h_k'
  rw [lookup_erase, h k' h_k']
  exact ite_self none

theorem Below.modify {f : Row → Row} (h : Below t base) (k : ℕ) : Below (modify t k f) base := by
  unfold Table.modify
  cases h_row : t.lookup k with
  | none => exact h
  | some r => exact h.insert (h.lt h_row)

theorem Below.mapRows {f : ℕ → Row → Row} (h : Below t base) : Below (t.mapRows f) base := by
  intro k h_k
  rw [lookup_mapRows, h k h_k]
  rfl

theorem Below.foldl_modify {X : Type*} {key : X → ℕ} {f : X → Row → Row} (h : Below t base)
    (xs : List X) : Below (xs.foldl (fun t x => Table.modify t (key x) (f x)) t) base := by
  induction xs generalizing t with
  | nil => exact h
  | cons x xs ih => exact ih (h.modify (key x))

theorem lookup_insertRows_of_lt (rs : List Row) (h : k < base) :
    (insertRows t base rs).lookup k = t.lookup k := by
  induction rs generalizing t base with
  | nil => rfl
  | cons r rs ih =>
    rw [insertRows, ih (Nat.lt_succ_of_lt h), AList.lookup_insert_ne (Nat.ne_of_lt h)]

theorem lookup_insertRows_add (h_below : Below t base) (rs : List Row) (i : ℕ) :
    (insertRows t base rs).lookup (base + i) = rs[i]? := by
  induction rs generalizing t base i with
  | nil => exact h_below _ (Nat.le_add_right base i)
  | cons r rs ih =>
    rw [insertRows]
    have h_next : Below (t.insert base r) (base + 1) := by
      intro k h_k
      rw [AList.lookup_insert_ne (by omega)]
      exact h_below k (by omega)
    cases i with
    | zero =>
      rw [Nat.add_zero, lookup_insertRows_of_lt rs (Nat.lt_succ_self base), AList.lookup_insert]
      rfl
    | succ i =>
      have h_key : base + (i + 1) = base + 1 + i := by omega
      rw [h_key, ih h_next i]
      rfl

theorem below_insertRows (h_below : Below t base) (rs : List Row) :
    Below (insertRows t base rs) (base + rs.length) := by
  intro k h_k
  obtain ⟨i, rfl⟩ := Nat.exists_eq_add_of_le (Nat.le_trans (Nat.le_add_right base rs.length) h_k)
  rw [lookup_insertRows_add h_below rs i]
  exact List.getElem?_eq_none (by omega)

theorem lookup_insertRows_eq_some (h_below : Below t base) {rs : List Row} {r : Row}
    (h : (insertRows t base rs).lookup k = some r) :
    (k < base ∧ t.lookup k = some r) ∨ ∃ i, k = base + i ∧ rs[i]? = some r := by
  by_cases h_k : k < base
  · rw [lookup_insertRows_of_lt rs h_k] at h
    exact Or.inl ⟨h_k, h⟩
  · obtain ⟨i, rfl⟩ := Nat.exists_eq_add_of_le (Nat.not_lt.mp h_k)
    rw [lookup_insertRows_add h_below rs i] at h
    exact Or.inr ⟨i, rfl, h⟩

end Numbered

end Table
