import Mathlib.Data.List.Nodup

/-!
# Reconciling automatic edges, source by source

Edges join sources to targets. Some are set by hand; the others are automatic, and a reconciliation
replaces them by the assigned ones: for one source after the other it deletes the automatic edges
that are not assigned, and adds the assigned ones unless an edge that is there blocks it (`Blocks`):
an edge between the two ends in either direction, an edge of the source where a source has one edge
at most, an edge into the target where a target has one at most.
-/

namespace Reconcile

/-- An edge from a source to a target. -/
structure Edge (α : Type*) where
  src : α
  dst : α
  auto : Bool
deriving DecidableEq, Repr

/-- Whether a source, a target is in one edge at most. -/
structure Limits where
  srcSingle : Bool
  dstSingle : Bool
deriving DecidableEq, Repr

section Defs

variable {α : Type*} [DecidableEq α] (m : Limits)

/-- The edge is in the way of a new one from `s` to `t`. -/
def Blocks (s t : α) (e : Edge α) : Prop :=
  (e.src = s ∧ e.dst = t) ∨ (e.src = t ∧ e.dst = s) ∨
    (m.srcSingle ∧ e.src = s) ∨ (m.dstSingle ∧ e.dst = t)

instance (s t : α) (e : Edge α) : Decidable (Blocks m s t e) :=
  inferInstanceAs (Decidable (_ ∨ _))

def Compatible (e e' : Edge α) : Prop :=
  (m.srcSingle → e.src ≠ e'.src) ∧ (m.dstSingle → e.dst ≠ e'.dst)

instance (e e' : Edge α) : Decidable (Compatible m e e') :=
  inferInstanceAs (Decidable (_ ∧ _))

def Satisfies (E : List (Edge α)) : Prop := E.Pairwise (Compatible m)

instance (E : List (Edge α)) : Decidable (Satisfies m E) :=
  inferInstanceAs (Decidable (List.Pairwise _ _))

def keep (s : α) (targets : List α) (E : List (Edge α)) : List (Edge α) :=
  E.filter fun e => ¬(e.auto ∧ e.src = s ∧ e.dst ∉ targets)

def add (s : α) (E : List (Edge α)) (t : α) : List (Edge α) :=
  if ∃ e ∈ E, Blocks m s t e then E else E ++ [⟨s, t, true⟩]

variable (assigned : α → List α)

def step (E : List (Edge α)) (s : α) : List (Edge α) :=
  (assigned s).foldl (add m s) (keep s (assigned s) E)

def run (E : List (Edge α)) (sources : List α) : List (Edge α) :=
  sources.foldl (step m assigned) E

/-- A run has nothing to do: no automatic edge to delete, none to add. -/
structure Still (sources : List α) (E : List (Edge α)) : Prop where
  keeps : ∀ e ∈ E, e.auto → e.src ∈ sources → e.dst ∈ assigned e.src
  adds : ∀ s ∈ sources, ∀ t ∈ assigned s, ∃ e ∈ E, Blocks m s t e

/-- The source `s'` comes after `s`. -/
def Later (sources : List α) (s s' : α) : Prop := [s, s'].Sublist sources

instance (sources : List α) (s s' : α) : Decidable (Later sources s s') :=
  inferInstanceAs (Decidable (List.Sublist _ _))

/-- The edge is there, or can be added when the turn of `s` comes. -/
def Open (sources : List α) (E : List (Edge α)) (s t : α) : Prop :=
  (∃ e ∈ E, e.src = s ∧ e.dst = t) ∨
    ∀ e ∈ E, Blocks m s t e → e.auto ∧ ¬Later sources s e.src

instance (sources : List α) (E : List (Edge α)) (s t : α) : Decidable (Open m sources E s t) :=
  inferInstanceAs (Decidable (_ ∨ _))

/-- An assigned edge that cannot be added when its turn comes. -/
def Lost (sources : List α) (E : List (Edge α)) (s t : α) : Prop :=
  (∀ e ∈ E, Blocks m s t e → e.auto) ∧ ¬Open m sources E s t ∧
    ¬(s ∈ assigned t ∧ Open m sources E t s)

instance (sources : List α) (E : List (Edge α)) (s t : α) :
    Decidable (Lost m assigned sources E s t) :=
  inferInstanceAs (Decidable (_ ∧ _))

end Defs

/-- The edges to have, which satisfy the limits. -/
structure Assignment {α : Type*} (m : Limits) (sources : List α) where
  targets : α → List α
  src_mem : ∀ {s t}, t ∈ targets s → s ∈ sources
  src_single : m.srcSingle → ∀ {s t t'}, t ∈ targets s → t' ∈ targets s → t = t'
  dst_single : m.dstSingle → ∀ {s s' t}, t ∈ targets s → t ∈ targets s' → s = s'

section Lemmas

variable {α : Type*} [DecidableEq α] {m : Limits} {s t : α} {e : Edge α} {E : List (Edge α)}

theorem mem_keep {targets : List α} :
    e ∈ keep s targets E ↔ e ∈ E ∧ (e.auto → e.src = s → e.dst ∈ targets) := by
  rw [keep, List.mem_filter, decide_eq_true_iff, not_and, not_and, not_not]

theorem keep_eq_self_iff {targets : List α} :
    keep s targets E = E ↔ ∀ e ∈ E, e.auto → e.src = s → e.dst ∈ targets := by
  rw [keep, List.filter_eq_self]
  simp only [decide_eq_true_iff, not_and, not_not]

theorem mem_add : e ∈ add m s E t ↔
    e ∈ E ∨ (e = ⟨s, t, true⟩ ∧ ∀ b ∈ E, ¬Blocks m s t b) := by
  rw [add]
  split_ifs with h_blocked
  · refine ⟨.inl, ?_⟩
    rintro (h_mem | ⟨-, h_free⟩)
    · exact h_mem
    · obtain ⟨b, h_b, h_blocks⟩ := h_blocked
      exact absurd h_blocks (h_free b h_b)
  · push Not at h_blocked
    rw [List.mem_append, List.mem_singleton]
    exact or_congr_right ⟨fun h => ⟨h, h_blocked⟩, And.left⟩

theorem blocks_add : ∃ e ∈ add m s E t, Blocks m s t e := by
  by_cases h_blocked : ∃ e ∈ E, Blocks m s t e
  · obtain ⟨e, h_mem, h_blocks⟩ := h_blocked
    exact ⟨e, mem_add.mpr (.inl h_mem), h_blocks⟩
  · push Not at h_blocked
    exact ⟨_, mem_add.mpr (.inr ⟨rfl, h_blocked⟩), .inl ⟨rfl, rfl⟩⟩

theorem satisfies_add (h : Satisfies m E) : Satisfies m (add m s E t) := by
  rw [add]
  split_ifs with h_blocked
  · exact h
  · push Not at h_blocked
    refine List.pairwise_append.mpr ⟨h, List.pairwise_singleton _ _, fun e h_mem e' h_new => ?_⟩
    obtain rfl := List.mem_singleton.mp h_new
    have h_free := h_blocked e h_mem
    simp only [Blocks, not_or, not_and] at h_free
    exact ⟨h_free.2.2.1, h_free.2.2.2⟩

/-! ### The edges of one source -/

section Adds

variable {ts : List α}

theorem mem_adds_of_mem (h : e ∈ E) : e ∈ ts.foldl (add m s) E := by
  induction ts generalizing E with
  | nil => exact h
  | cons t ts ih => exact ih (mem_add.mpr (.inl h))

theorem of_mem_adds (h : e ∈ ts.foldl (add m s) E) :
    e ∈ E ∨ (e.src = s ∧ e.dst ∈ ts ∧ e.auto ∧ ∀ b ∈ E, ¬Blocks m s e.dst b) := by
  induction ts generalizing E with
  | nil => exact .inl h
  | cons t ts ih =>
    obtain h_mem | ⟨h_src, h_dst, h_auto, h_free⟩ := ih h
    · obtain h_old | ⟨rfl, h_free⟩ := mem_add.mp h_mem
      · exact .inl h_old
      · exact .inr ⟨rfl, List.mem_cons_self, rfl, h_free⟩
    · refine .inr ⟨h_src, List.mem_cons_of_mem _ h_dst, h_auto, fun b h_b => h_free b ?_⟩
      exact mem_add.mpr (.inl h_b)

theorem blocks_adds (h : t ∈ ts) : ∃ e ∈ ts.foldl (add m s) E, Blocks m s t e := by
  induction ts generalizing E with
  | nil => exact absurd h List.not_mem_nil
  | cons t' ts ih =>
    obtain rfl | h_later := List.mem_cons.mp h
    · obtain ⟨e, h_mem, h_blocks⟩ := blocks_add (m := m) (s := s) (t := t) (E := E)
      exact ⟨e, mem_adds_of_mem (E := add m s E t) h_mem, h_blocks⟩
    · exact ih h_later

theorem sublist_adds : E.Sublist (ts.foldl (add m s) E) := by
  induction ts generalizing E with
  | nil => exact List.Sublist.refl E
  | cons t ts ih =>
    have h_add : E.Sublist (add m s E t) := by
      rw [add]
      split_ifs
      · exact List.Sublist.refl E
      · exact List.sublist_append_left _ _
    exact h_add.trans ih

theorem length_adds_eq_iff :
    (ts.foldl (add m s) E).length = E.length ↔ ts.foldl (add m s) E = E :=
  ⟨fun h => (sublist_adds.eq_of_length h.symm).symm, congrArg List.length⟩

theorem satisfies_adds (h : Satisfies m E) : Satisfies m (ts.foldl (add m s) E) := by
  induction ts generalizing E with
  | nil => exact h
  | cons t ts ih => exact ih (satisfies_add h)

end Adds

/-! ### The edges of a run -/

section Run

variable {targets : α → List α} {ss : List α}

theorem of_mem_step (h : e ∈ step m targets E s) :
    e ∈ keep s (targets s) E ∨ (e.src = s ∧ e.dst ∈ targets s ∧ e.auto ∧
      ∀ b ∈ keep s (targets s) E, ¬Blocks m s e.dst b) :=
  of_mem_adds h

theorem mem_run_of_mem (h : e ∈ E)
    (h_stays : e.auto → e.src ∈ ss → e.dst ∈ targets e.src) : e ∈ run m targets E ss := by
  induction ss generalizing E with
  | nil => exact h
  | cons s ss ih =>
    have h_keep : e ∈ keep s (targets s) E := by
      refine mem_keep.mpr ⟨h, fun h_auto h_src => ?_⟩
      subst h_src
      exact h_stays h_auto List.mem_cons_self
    refine ih (mem_adds_of_mem h_keep) fun h_auto h_src => ?_
    exact h_stays h_auto (List.mem_cons_of_mem _ h_src)

theorem of_mem_run (h : e ∈ run m targets E ss) :
    e ∈ E ∨ (e.auto ∧ e.src ∈ ss ∧ e.dst ∈ targets e.src) := by
  induction ss generalizing E with
  | nil => exact .inl h
  | cons s ss ih =>
    obtain h_step | ⟨h_auto, h_src, h_dst⟩ := ih h
    · obtain h_keep | ⟨rfl, h_dst, h_auto, -⟩ := of_mem_step h_step
      · exact .inl (mem_keep.mp h_keep).1
      · exact .inr ⟨h_auto, List.mem_cons_self, h_dst⟩
    · exact .inr ⟨h_auto, List.mem_cons_of_mem _ h_src, h_dst⟩

theorem dst_mem_of_mem_run (h : e ∈ run m targets E ss) (h_auto : e.auto) (h_src : e.src ∈ ss) :
    e.dst ∈ targets e.src := by
  induction ss generalizing E with
  | nil => exact absurd h_src List.not_mem_nil
  | cons s ss ih =>
    obtain h_step | ⟨-, -, h_dst⟩ := of_mem_run (E := step m targets E s) h
    · obtain rfl | h_later := List.mem_cons.mp h_src
      · obtain h_keep | ⟨-, h_dst, -, -⟩ := of_mem_step h_step
        · exact (mem_keep.mp h_keep).2 h_auto rfl
        · exact h_dst
      · exact ih h h_later
    · exact h_dst

theorem satisfies_run (h : Satisfies m E) : Satisfies m (run m targets E ss) := by
  induction ss generalizing E with
  | nil => exact h
  | cons s ss ih =>
    refine ih (satisfies_adds ?_)
    exact List.Pairwise.sublist List.filter_sublist h

end Run

/-! ### What is lost -/

omit [DecidableEq α] in
theorem later_append_iff {pre post : List α} {s' : α} (h : (pre ++ s :: post).Nodup) :
    Later (pre ++ s :: post) s s' ↔ s' ∈ post := by
  have h_apart : s ∉ pre := by
    intro h_pre
    exact List.disjoint_of_nodup_append h h_pre List.mem_cons_self
  constructor
  · intro h_later
    obtain ⟨l, l', h_eq, h_pre, h_post⟩ := List.sublist_append_iff.mp h_later
    cases l with
    | nil =>
      rw [List.nil_append] at h_eq
      rw [← h_eq, List.cons_sublist_cons, List.singleton_sublist] at h_post
      exact h_post
    | cons a l =>
      obtain ⟨rfl, -⟩ := List.cons.inj h_eq
      exact absurd (h_pre.subset List.mem_cons_self) h_apart
  · intro h_post
    have h_tail : [s, s'].Sublist (s :: post) :=
      List.cons_sublist_cons.mpr (List.singleton_sublist.mpr h_post)
    exact h_tail.trans (List.sublist_append_right pre _)

theorem exists_turn {sources : List α} (h : sources.Nodup) (h_mem : s ∈ sources) :
    ∃ pre post, s ∉ pre ∧ (∀ s' ∈ pre ++ [s], s' ∉ post) ∧
      (∀ s', s' ∈ sources ↔ s' ∈ pre ++ [s] ∨ s' ∈ post) ∧
      (∀ s', Later sources s s' ↔ s' ∈ post) ∧
      ∀ (targets : α → List α) (E : List (Edge α)), run m targets E sources =
        run m targets (step m targets (run m targets E pre) s) post := by
  obtain ⟨pre, post, rfl⟩ := List.append_of_mem h_mem
  have h_pre : s ∉ pre := by
    intro h_pre
    exact List.disjoint_of_nodup_append h h_pre List.mem_cons_self
  refine ⟨pre, post, h_pre, ?_, ?_, ?_, ?_⟩
  · rw [List.append_cons] at h
    exact fun s' h_turn => List.disjoint_of_nodup_append h h_turn
  · intro s'
    rw [List.append_cons, List.mem_append]
  · exact fun s' => later_append_iff h
  · intro targets E
    rw [run, List.foldl_append, List.foldl_cons]
    rfl

section Lost

variable {sources : List α} (A : Assignment m sources)

omit [DecidableEq α] in
theorem Assignment.joins_of_blocks (h : t ∈ A.targets s) (h_e : e.dst ∈ A.targets e.src)
    (h_blocks : Blocks m s t e) : (e.src = s ∧ e.dst = t) ∨ (e.src = t ∧ e.dst = s) := by
  obtain h_same | h_back | ⟨h_single, h_src⟩ | ⟨h_single, h_dst⟩ := h_blocks
  · exact .inl h_same
  · exact .inr h_back
  · refine .inl ⟨h_src, ?_⟩
    rw [h_src] at h_e
    exact A.src_single h_single h_e h
  · refine .inl ⟨?_, h_dst⟩
    rw [h_dst] at h_e
    exact A.dst_single h_single h_e h

variable (h_nodup : sources.Nodup) (h_ends : ∀ e ∈ E, e.auto → e.src ∈ sources)

include h_ends in
theorem Assignment.dst_mem (h : e ∈ run m A.targets E sources) (h_auto : e.auto) :
    e.dst ∈ A.targets e.src := by
  obtain h_old | ⟨-, -, h_dst⟩ := of_mem_run h
  · exact dst_mem_of_mem_run h h_auto (h_ends e h_old h_auto)
  · exact h_dst

include h_nodup h_ends in
theorem Assignment.joined_of_open (h : t ∈ A.targets s) (h_open : Open m sources E s t) :
    ∃ e ∈ run m A.targets E sources, (e.src = s ∧ e.dst = t) ∨ (e.src = t ∧ e.dst = s) := by
  obtain ⟨e, h_mem, rfl, rfl⟩ | h_free := h_open
  · exact ⟨e, mem_run_of_mem h_mem fun _ _ => h, .inl ⟨rfl, rfl⟩⟩
  · obtain ⟨pre, post, -, -, h_turns, h_later, h_run⟩ :=
      exists_turn (m := m) h_nodup (A.src_mem h)
    have h_step : step m A.targets (run m A.targets E pre) s = run m A.targets E (pre ++ [s]) := by
      rw [run, run, List.foldl_concat]
    -- what is in the way right after the turn of `s` is no edge of a later source
    obtain ⟨e, h_mem, h_blocks⟩ :
        ∃ e ∈ step m A.targets (run m A.targets E pre) s, Blocks m s t e := blocks_adds h
    rw [h_run]
    rw [h_step] at h_mem ⊢
    have h_turn : e.auto ∧ e.src ∈ pre ++ [s] := by
      obtain h_old | ⟨h_auto, h_src, -⟩ := of_mem_run h_mem
      · obtain ⟨h_auto, h_not⟩ := h_free e h_old h_blocks
        rw [h_later] at h_not
        exact ⟨h_auto, ((h_turns e.src).mp (h_ends e h_old h_auto)).resolve_right h_not⟩
      · exact ⟨h_auto, h_src⟩
    have h_dst := dst_mem_of_mem_run h_mem h_turn.1 h_turn.2
    exact ⟨e, mem_run_of_mem h_mem fun _ _ => h_dst, A.joins_of_blocks h h_dst h_blocks⟩

include h_nodup in
theorem Assignment.open_of_mem (h : e ∈ run m A.targets E sources) (h_src : e.src ∈ sources) :
    Open m sources E e.src e.dst := by
  by_cases h_old : e ∈ E
  · exact .inl ⟨e, h_old, rfl, rfl⟩
  obtain ⟨pre, post, h_pre, h_post, -, h_later, h_run⟩ := exists_turn (m := m) h_nodup h_src
  -- it was added in the turn of its source, with nothing in its way
  have h_free : ∀ b ∈ keep e.src (A.targets e.src) (run m A.targets E pre),
      ¬Blocks m e.src e.dst b := by
    rw [h_run] at h
    obtain h_step | ⟨-, h_mem, -⟩ := of_mem_run h
    · obtain h_keep | ⟨-, -, -, h_free⟩ := of_mem_step h_step
      · obtain h_mem | ⟨-, h_mem, -⟩ := of_mem_run (mem_keep.mp h_keep).1
        · exact absurd h_mem h_old
        · exact absurd h_mem h_pre
      · exact h_free
    · exact absurd h_mem (h_post _ List.mem_concat_self)
  refine .inr fun b h_b h_blocks => ?_
  by_contra h_stays
  -- an edge set by hand, or of a later source, would have been there
  have h_turn : b.auto → b.src ∉ pre ++ [e.src] := by
    intro h_auto h_mem
    exact h_stays ⟨h_auto, fun h_is_later => h_post b.src h_mem ((h_later b.src).mp h_is_later)⟩
  refine h_free b (mem_keep.mpr ⟨mem_run_of_mem h_b ?_, ?_⟩) h_blocks
  · exact fun h_auto h_mem => absurd (List.mem_append_left _ h_mem) (h_turn h_auto)
  · intro h_auto h_eq
    refine absurd ?_ (h_turn h_auto)
    rw [h_eq]
    exact List.mem_concat_self

include h_nodup h_ends in
/-- **After a run, a second one has nothing to do iff the first has lost no assigned edge.** -/
theorem Assignment.still_run_iff : Still m A.targets sources (run m A.targets E sources) ↔
    ∀ s ∈ sources, ∀ t ∈ A.targets s, ¬Lost m A.targets sources E s t := by
  constructor
  · rintro h_still s h_s t h_t ⟨h_auto, h_not, h_not_back⟩
    obtain ⟨e, h_mem, h_blocks⟩ := h_still.adds s h_s t h_t
    have h_e : e.auto := by
      obtain h_old | ⟨h_e, -, -⟩ := of_mem_run h_mem
      · exact h_auto e h_old h_blocks
      · exact h_e
    have h_dst := A.dst_mem h_ends h_mem h_e
    have h_open := A.open_of_mem h_nodup h_mem (A.src_mem h_dst)
    obtain ⟨rfl, rfl⟩ | ⟨rfl, rfl⟩ := A.joins_of_blocks h_t h_dst h_blocks
    · exact h_not h_open
    · exact h_not_back ⟨h_dst, h_open⟩
  · intro h
    refine ⟨fun e h_mem h_auto _ => A.dst_mem h_ends h_mem h_auto, fun s h_s t h_t => ?_⟩
    by_cases h_auto : ∀ e ∈ E, Blocks m s t e → e.auto
    · -- the two are joined, from one side or from the other
      obtain ⟨e, h_mem, h_joins⟩ : ∃ e ∈ run m A.targets E sources,
          (e.src = s ∧ e.dst = t) ∨ (e.src = t ∧ e.dst = s) := by
        by_cases h_open : Open m sources E s t
        · exact A.joined_of_open h_nodup h_ends h_t h_open
        · have h_back : s ∈ A.targets t ∧ Open m sources E t s := by
            by_contra h_not_back
            exact h s h_s t h_t ⟨h_auto, h_open, h_not_back⟩
          obtain ⟨e, h_mem, h_joins⟩ := A.joined_of_open h_nodup h_ends h_back.1 h_back.2
          exact ⟨e, h_mem, h_joins.symm⟩
      exact ⟨e, h_mem, h_joins.imp id .inl⟩
    · push Not at h_auto
      obtain ⟨e, h_mem, h_blocks, h_manual⟩ := h_auto
      refine ⟨e, mem_run_of_mem h_mem fun h_e => ?_, h_blocks⟩
      exact absurd h_e h_manual

end Lost

/-! ### Nothing to do -/

section Still

variable {targets : α → List α} {ss : List α}

theorem adds_eq_self_iff {ts : List α} :
    ts.foldl (add m s) E = E ↔ ∀ t ∈ ts, ∃ e ∈ E, Blocks m s t e := by
  constructor
  · intro h t h_t
    rw [← h]
    exact blocks_adds h_t
  · intro h
    induction ts with
    | nil => rfl
    | cons t ts ih =>
      rw [List.foldl_cons, add, if_pos (h t List.mem_cons_self)]
      exact ih fun t' h_t' => h t' (List.mem_cons_of_mem _ h_t')

omit [DecidableEq α] in
theorem still_nil : Still m targets [] E :=
  ⟨fun _ _ _ h_src => absurd h_src List.not_mem_nil, fun _ h_s => absurd h_s List.not_mem_nil⟩

theorem still_cons_iff : Still m targets (s :: ss) E ↔
    keep s (targets s) E = E ∧ (targets s).foldl (add m s) E = E ∧ Still m targets ss E := by
  rw [keep_eq_self_iff, adds_eq_self_iff]
  constructor
  · intro h
    refine ⟨fun e h_mem h_auto h_src => ?_, h.adds s List.mem_cons_self, ?_, ?_⟩
    · subst h_src
      exact h.keeps e h_mem h_auto List.mem_cons_self
    · exact fun e h_mem h_auto h_src => h.keeps e h_mem h_auto (List.mem_cons_of_mem _ h_src)
    · exact fun s' h_s' => h.adds s' (List.mem_cons_of_mem _ h_s')
  · rintro ⟨h_keeps, h_adds, h_rest⟩
    refine ⟨fun e h_mem h_auto h_src => ?_, fun s' h_s' => ?_⟩
    · obtain h_eq | h_later := List.mem_cons.mp h_src
      · rw [h_eq]
        exact h_keeps e h_mem h_auto h_eq
      · exact h_rest.keeps e h_mem h_auto h_later
    · obtain rfl | h_later := List.mem_cons.mp h_s'
      · exact h_adds
      · exact h_rest.adds s' h_later

end Still

end Lemmas

end Reconcile
