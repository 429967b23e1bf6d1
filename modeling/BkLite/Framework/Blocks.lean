import BkLite.Framework.Find

/-!
# Texts with hidden blocks

A text hides what stands in a block, from an opening tag to the next closing tag or to its end. The
two tags begin with one symbol that stands nowhere else in them, so no two tags overlap.

A text that arrives in pieces has borders.
-/

namespace Blocks

variable {α : Type*}

/-- An opening and a closing tag, given by their common first symbol and the rest of each. -/
structure Tags (α : Type*) where
  head : α
  openTail : List α
  closeTail : List α
  head_notMem_openTail : head ∉ openTail
  head_notMem_closeTail : head ∉ closeTail
  not_open_prefix_close : ¬openTail <+: closeTail
  not_close_prefix_open : ¬closeTail <+: openTail

def Tags.opening (t : Tags α) : List α := t.head :: t.openTail

def Tags.closing (t : Tags α) : List α := t.head :: t.closeTail

/-- A symbol of a text, and whether there is a border before it. -/
structure Cell (α : Type*) where
  symbol : α
  border : Bool := false
deriving DecidableEq, Repr

def plain (s : List α) : List (Cell α) := s.map fun symbol => { symbol }

def piece : List α → List (Cell α)
  | [] => []
  | symbol :: s => { symbol, border := true } :: plain s

def symbols (m : List (Cell α)) : List α := m.map Cell.symbol

@[simp] theorem plain_nil : plain ([] : List α) = [] := rfl

@[simp] theorem plain_cons (x : α) (s : List α) : plain (x :: s) = { symbol := x } :: plain s := rfl

@[simp] theorem plain_append (s s' : List α) : plain (s ++ s') = plain s ++ plain s' :=
  List.map_append

@[simp] theorem plain_drop (s : List α) (n : ℕ) : plain (s.drop n) = (plain s).drop n :=
  List.map_drop

@[simp] theorem length_plain (s : List α) : (plain s).length = s.length := List.length_map _

@[simp] theorem symbols_nil : symbols ([] : List (Cell α)) = [] := rfl

@[simp] theorem symbols_cons (x : Cell α) (m : List (Cell α)) :
    symbols (x :: m) = x.symbol :: symbols m := rfl

@[simp] theorem symbols_append (m m' : List (Cell α)) :
    symbols (m ++ m') = symbols m ++ symbols m' :=
  List.map_append

@[simp] theorem symbols_drop (m : List (Cell α)) (n : ℕ) :
    symbols (m.drop n) = (symbols m).drop n :=
  List.map_drop

@[simp] theorem symbols_plain (s : List α) : symbols (plain s) = s := by
  induction s with
  | nil => rfl
  | cons x s ih => rw [plain_cons, symbols_cons, ih]

@[simp] theorem symbols_piece (s : List α) : symbols (piece s) = s := by
  cases s <;> simp [piece]

theorem border_of_mem_plain {s : List α} {x : Cell α} (h : x ∈ plain s) : x.border = false := by
  obtain ⟨symbol, -, rfl⟩ := List.mem_map.mp h
  rfl

def unmarked (m : List (Cell α)) : List (Cell α) := plain (symbols m)

@[simp] theorem unmarked_nil : unmarked ([] : List (Cell α)) = [] := rfl

@[simp] theorem unmarked_cons (x : Cell α) (m : List (Cell α)) :
    unmarked (x :: m) = { symbol := x.symbol } :: unmarked m := rfl

@[simp] theorem symbols_unmarked (m : List (Cell α)) : symbols (unmarked m) = symbols m :=
  symbols_plain _

theorem unmarked_drop (m : List (Cell α)) (n : ℕ) : unmarked (m.drop n) = (unmarked m).drop n := by
  rw [unmarked, symbols_drop, plain_drop, ← unmarked]

variable {t : Tags α} {m : List (Cell α)}

theorem head_notMem_take {x : Cell α} {tail : List α} (h_tail : t.head ∉ tail)
    (h : t.head :: tail <+: symbols (x :: m)) : t.head ∉ symbols (m.take tail.length) := by
  obtain ⟨-, h_begins⟩ := List.cons_prefix_cons.mp h
  have h_take : symbols (m.take tail.length) = tail := by
    rw [symbols, List.map_take]
    exact (List.prefix_iff_eq_take.mp h_begins).symm
  rwa [h_take]

theorem not_prefix_of_notMem {x : Cell α} {tail : List α} {k : ℕ}
    (h : t.head ∉ symbols ((x :: m).take (k + 1))) : ¬t.head :: tail <+: symbols (x :: m) := by
  intro h_begins
  obtain ⟨h_head, -⟩ := List.cons_prefix_cons.mp h_begins
  exact h (by simp [h_head])

theorem not_closing_of_opening {s : List α} (h : t.opening <+: s) : ¬t.closing <+: s := by
  intro h_closing
  obtain h_begins | h_begins := List.prefix_or_prefix_of_prefix h h_closing
  · exact t.not_open_prefix_close (List.cons_prefix_cons.mp h_begins).2
  · exact t.not_close_prefix_open (List.cons_prefix_cons.mp h_begins).2

def Closes (t : Tags α) (m : List (Cell α)) : Prop :=
  t.closing <+: symbols m ∧ ∀ x ∈ m.tail.take t.closeTail.length, x.border = false

theorem closes_unmarked {x : Cell α} :
    Closes t ({ symbol := x.symbol } :: unmarked m) ↔ t.closing <+: symbols (x :: m) := by
  refine ⟨fun h => by simpa using h.1, fun h => ⟨by simpa using h, fun y h_y => ?_⟩⟩
  exact border_of_mem_plain (List.mem_of_mem_take h_y)

variable [DecidableEq α]

instance (t : Tags α) (m : List (Cell α)) : Decidable (Closes t m) :=
  inferInstanceAs (Decidable (_ ∧ _))


/-- What a reader shows of a text: whether a block is open, how many symbols of a tag are still to
be passed, and the text. -/
def scan (t : Tags α) : Bool → ℕ → List (Cell α) → List α
  | _, _, [] => []
  | opened, skip + 1, _ :: m => scan t opened skip m
  | true, 0, x :: m =>
    if Closes t (x :: m) then scan t false t.closeTail.length m else scan t true 0 m
  | false, 0, x :: m =>
    if t.opening <+: symbols (x :: m) then scan t true t.openTail.length m
    else x.symbol :: scan t false 0 m

def visible (t : Tags α) (s : List α) : List α := scan t false 0 (plain s)

section Scan

variable {s : List α} {n : ℕ}

theorem scan_nil (opened : Bool) (skip : ℕ) : scan t opened skip [] = [] := by
  cases opened <;> cases skip <;> rfl

theorem scan_skip (opened : Bool) (skip : ℕ) (m : List (Cell α)) :
    scan t opened skip m = scan t opened 0 (m.drop skip) := by
  induction skip generalizing m with
  | zero => rfl
  | succ skip ih =>
    cases m with
    | nil => rw [List.drop_nil, scan_nil, scan_nil]
    | cons x m => rw [scan, List.drop_succ_cons, ih]

theorem scan_opening {x : Cell α} (h : t.opening <+: symbols (x :: m)) :
    scan t false 0 (x :: m) = scan t true 0 (m.drop t.openTail.length) := by
  rw [scan, if_pos h, scan_skip]

theorem scan_shown {x : Cell α} (h : ¬t.opening <+: symbols (x :: m)) :
    scan t false 0 (x :: m) = x.symbol :: scan t false 0 m := by
  rw [scan, if_neg h]

theorem scan_closing {x : Cell α} (h : Closes t (x :: m)) :
    scan t true 0 (x :: m) = scan t false 0 (m.drop t.closeTail.length) := by
  rw [scan, if_pos h, scan_skip]

theorem scan_hidden {x : Cell α} (h : ¬Closes t (x :: m)) :
    scan t true 0 (x :: m) = scan t true 0 m := by
  rw [scan, if_neg h]

theorem scan_find_opening (h : Find.find t.opening s = some n) :
    scan t false 0 (plain s ++ m) =
      s.take n ++ scan t true 0 (plain (s.drop (n + t.opening.length)) ++ m) := by
  induction s generalizing n with
  | nil => simp [Find.find, Tags.opening] at h
  | cons x s ih =>
    have h_room := Find.length_of_find h
    have h_iff : t.opening <+: symbols ({ symbol := x } :: (plain s ++ m)) ↔
        t.opening <+: x :: s := by
      rw [← List.cons_append, ← plain_cons, symbols_append, symbols_plain]
      exact Find.prefix_append_iff (by omega)
    rw [plain_cons, List.cons_append]
    by_cases h_begins : t.opening <+: x :: s
    · rw [Find.find_cons_of_begins h_begins] at h
      obtain rfl := Option.some.inj h
      have h_long : t.openTail.length ≤ (plain s).length := by
        simpa [Tags.opening] using h_room
      rw [scan_opening (h_iff.mpr h_begins), List.take_zero, List.nil_append, Nat.zero_add,
        List.drop_append_of_le_length h_long]
      simp [Tags.opening]
    · rw [Find.find_cons_of_not_begins h_begins, Option.map_eq_some_iff] at h
      obtain ⟨n', h_n', rfl⟩ := h
      rw [scan_shown (mt h_iff.mp h_begins), ih h_n', Nat.add_right_comm]
      simp

theorem scan_find_closing (h : Find.find t.closing s = some n) :
    scan t true 0 (plain s ++ m) =
      scan t false 0 (plain (s.drop (n + t.closing.length)) ++ m) := by
  induction s generalizing n with
  | nil => simp [Find.find, Tags.closing] at h
  | cons x s ih =>
    have h_room := Find.length_of_find h
    have h_iff : t.closing <+: symbols ({ symbol := x } :: (plain s ++ m)) ↔
        t.closing <+: x :: s := by
      rw [← List.cons_append, ← plain_cons, symbols_append, symbols_plain]
      exact Find.prefix_append_iff (by omega)
    rw [plain_cons, List.cons_append]
    by_cases h_begins : t.closing <+: x :: s
    · rw [Find.find_cons_of_begins h_begins] at h
      obtain rfl := Option.some.inj h
      have h_long : t.closeTail.length ≤ (plain s).length := by
        simpa [Tags.closing] using h_room
      have h_closes : Closes t ({ symbol := x } :: (plain s ++ m)) := by
        refine ⟨h_iff.mpr h_begins, fun y h_y => ?_⟩
        rw [List.tail_cons, List.take_append_of_le_length h_long] at h_y
        exact border_of_mem_plain (List.mem_of_mem_take h_y)
      rw [scan_closing h_closes, Nat.zero_add, List.drop_append_of_le_length h_long]
      simp [Tags.closing]
    · rw [Find.find_cons_of_not_begins h_begins, Option.map_eq_some_iff] at h
      obtain ⟨n', h_n', rfl⟩ := h
      have h_open : ¬Closes t ({ symbol := x } :: (plain s ++ m)) :=
        fun h_closes => h_begins (h_iff.mp h_closes.1)
      rw [scan_hidden h_open, ih h_n', Nat.add_right_comm]
      simp

theorem scan_find_closing_none (h : Find.find t.closing s = none)
    (h_border : ∀ x ∈ m.head?, x.border = true) :
    scan t true 0 (plain s ++ m) = scan t true 0 m := by
  induction s with
  | nil => rfl
  | cons x s ih =>
    have h_none := Find.find_eq_none.mp h
    have h_open : ¬Closes t ({ symbol := x } :: (plain s ++ m)) := by
      rintro ⟨h_tag, h_whole⟩
      rw [← List.cons_append, ← plain_cons, symbols_append, symbols_plain] at h_tag
      by_cases h_room : t.closing.length ≤ (x :: s).length
      · exact h_none ((Find.prefix_append_iff h_room).mp h_tag).isInfix
      · -- the tag reaches over the border
        have h_length := h_tag.length_le
        simp only [Tags.closing, List.length_cons, List.length_append, symbols,
          List.length_map] at h_room h_length
        cases m with
        | nil => simp at h_length; omega
        | cons y m =>
          have h_mem : y ∈ (plain s ++ y :: m).take t.closeTail.length := by
            rw [List.take_append, List.mem_append, length_plain]
            refine .inr ?_
            obtain ⟨k, h_k⟩ : ∃ k, t.closeTail.length - s.length = k + 1 :=
              ⟨t.closeTail.length - s.length - 1, by omega⟩
            simp [h_k]
          exact absurd (h_whole y h_mem) (by simp [h_border y rfl])
    rw [plain_cons, List.cons_append, scan_hidden h_open]
    exact ih (Find.find_tail_eq_none h)

theorem scan_find_opening_none (h : Find.find t.opening s = none) {k : ℕ}
    (h_k : k + t.openTail.length ≤ s.length) :
    scan t false 0 (plain s ++ m) = s.take k ++ scan t false 0 (plain (s.drop k) ++ m) := by
  induction k generalizing s with
  | zero => rfl
  | succ k ih =>
    cases s with
    | nil => simp at h_k
    | cons x s =>
      rw [List.length_cons] at h_k
      have h_shown : ¬t.opening <+: symbols ({ symbol := x } :: (plain s ++ m)) := by
        rw [← List.cons_append, ← plain_cons, symbols_append, symbols_plain,
          Find.prefix_append_iff (by simp only [Tags.opening, List.length_cons]; omega)]
        exact fun h_begins => Find.find_eq_none.mp h h_begins.isInfix
      rw [plain_cons, List.cons_append, scan_shown h_shown,
        ih (Find.find_tail_eq_none h) (by omega)]
      rfl

theorem visible_of_find_none (h : Find.find t.opening s = none) : visible t s = s := by
  unfold visible
  induction s with
  | nil => rfl
  | cons x s ih =>
    have h_shown : ¬t.opening <+: symbols ({ symbol := x } :: plain s) := by
      rw [← plain_cons, symbols_plain]
      exact fun h_begins => Find.find_eq_none.mp h h_begins.isInfix
    rw [plain_cons, scan_shown h_shown, ih (Find.find_tail_eq_none h)]

theorem length_scan_le_length (opened : Bool) (skip : ℕ) (m : List (Cell α)) :
    (scan t opened skip m).length ≤ m.length := by
  induction m generalizing opened skip with
  | nil => simp [scan_nil]
  | cons x m ih =>
    rw [List.length_cons]
    rcases skip with _ | skip
    · cases opened with
      | false =>
        rw [scan]
        split_ifs
        · exact (ih _ _).trans (Nat.le_succ _)
        · exact Nat.succ_le_succ (ih _ _)
      | true =>
        rw [scan]
        split_ifs <;> exact (ih _ _).trans (Nat.le_succ _)
    · exact (ih _ _).trans (Nat.le_succ _)

theorem visible_eq_self_iff : visible t s = s ↔ ¬t.opening <:+: s := by
  rw [← Find.find_eq_none]
  refine ⟨fun h => ?_, visible_of_find_none⟩
  by_contra h_some
  obtain ⟨n, h_n⟩ := Option.ne_none_iff_exists'.mp h_some
  have h_room := Find.length_of_find h_n
  have h_length : (visible t s).length ≤ n + (s.length - (n + t.opening.length)) := by
    rw [visible, ← List.append_nil (plain s), scan_find_opening h_n, List.length_append,
      List.append_nil]
    have h_rest := length_scan_le_length (t := t) true 0 (plain (s.drop (n + t.opening.length)))
    rw [length_plain, List.length_drop] at h_rest
    exact Nat.add_le_add (List.length_take_le n s) h_rest
  rw [h] at h_length
  simp only [Tags.opening, List.length_cons] at h_length h_room
  omega

theorem scan_border (h : Find.find t.opening s = none) (x : α) (border : Bool) :
    scan t false 0 (plain s ++ { symbol := x, border } :: m) =
      scan t false 0 (plain s ++ { symbol := x } :: m) := by
  induction s with
  | nil => rfl
  | cons y s ih =>
    rw [plain_cons, List.cons_append, List.cons_append]
    by_cases h_begins : t.opening <+: y :: (s ++ x :: symbols m)
    · -- the tag is not in the text, so it reaches over the border
      have h_over : s.length < t.openTail.length := by
        by_contra h_room
        rw [← List.cons_append, Find.prefix_append_iff
          (by simp only [Tags.opening, List.length_cons]; omega)] at h_begins
        exact Find.find_eq_none.mp h h_begins.isInfix
      obtain ⟨k, h_k⟩ : ∃ k, t.openTail.length = s.length + (k + 1) :=
        ⟨t.openTail.length - s.length - 1, by omega⟩
      rw [scan_opening (by simpa using h_begins), scan_opening (by simpa using h_begins), h_k,
        ← length_plain s, List.drop_length_add_append, List.drop_length_add_append]
      rfl
    · rw [scan_shown (by simpa using h_begins), scan_shown (by simpa using h_begins),
        ih (Find.find_tail_eq_none h)]

theorem scan_border_open (opened : Bool) (x : α) (border : Bool) :
    scan t opened 0 ({ symbol := x, border } :: m) = scan t opened 0 ({ symbol := x } :: m) := by
  cases opened
  · rfl
  · rfl

/-! ### The harm of a border -/

theorem scan_hidden_drop {k : ℕ} (h : t.head ∉ symbols (m.take k)) :
    scan t true 0 m = scan t true 0 (m.drop k) := by
  induction k generalizing m with
  | zero => rfl
  | succ k ih =>
    cases m with
    | nil => rfl
    | cons x m =>
      have h_open : ¬Closes t (x :: m) := fun h_closes => not_prefix_of_notMem h h_closes.1
      rw [scan_hidden h_open, List.drop_succ_cons]
      refine ih fun h_mem => h ?_
      simp [h_mem]

theorem length_scan_le (m : List (Cell α)) :
    (∀ opened k, (scan t opened k m).length ≤ (scan t opened k (unmarked m)).length) ∧
      (∀ opened k, t.head ∉ symbols (m.take k) →
        (scan t true 0 m).length ≤ (scan t opened k (unmarked m)).length) ∧
      ∀ k, t.head ∉ symbols (m.take k) →
        (scan t false k m).length ≤ (scan t false 0 (unmarked m)).length := by
  induction m with
  | nil => simp [scan_nil]
  | cons x m ih =>
    obtain ⟨ih_same, ih_behind, ih_ahead⟩ := ih
    have h_same : ∀ opened k,
        (scan t opened k (x :: m)).length ≤ (scan t opened k (unmarked (x :: m))).length := by
      rintro (_ | _) (_ | k)
      · -- outside a block
        by_cases h_opening : t.opening <+: symbols (x :: m)
        · rw [scan, if_pos h_opening, unmarked_cons, scan, if_pos (by simpa using h_opening)]
          exact ih_same true _
        · rw [scan_shown h_opening, unmarked_cons, scan_shown (by simpa using h_opening)]
          simpa using ih_same false 0
      · exact ih_same false k
      · -- in a block
        by_cases h_closing : t.closing <+: symbols (x :: m)
        · rw [unmarked_cons, scan, scan, if_pos (closes_unmarked.mpr h_closing)]
          split_ifs
          · exact ih_same false _
          · exact ih_behind false _ (head_notMem_take t.head_notMem_closeTail h_closing)
        · have h_open : ¬Closes t (x :: m) := fun h_closes => h_closing h_closes.1
          rw [scan_hidden h_open, unmarked_cons, scan_hidden (mt closes_unmarked.mp h_closing)]
          exact ih_same true 0
      · exact ih_same true k
    refine ⟨h_same, ?_, ?_⟩
    · rintro opened (_ | k) h_tag
      · cases opened with
        | true => exact h_same true 0
        | false =>
          rw [unmarked_cons]
          by_cases h_opening : t.opening <+: symbols (x :: m)
          · have h_open : ¬Closes t (x :: m) :=
              fun h_closes => not_closing_of_opening h_opening h_closes.1
            rw [scan_hidden h_open, scan, if_pos (by simpa using h_opening)]
            exact ih_behind true _ (head_notMem_take t.head_notMem_openTail h_opening)
          · rw [scan_shown (by simpa using h_opening), List.length_cons, scan]
            split_ifs with h_closes
            · exact Nat.le_succ_of_le
                (ih_ahead _ (head_notMem_take t.head_notMem_closeTail h_closes.1))
            · exact Nat.le_succ_of_le (ih_behind false 0 (by simp))
      · have h_open : ¬Closes t (x :: m) := fun h_closes => not_prefix_of_notMem h_tag h_closes.1
        rw [scan_hidden h_open]
        exact ih_behind opened k fun h_mem => h_tag (by simp [h_mem])
    · rintro (_ | k) h_tag
      · exact h_same false 0
      · have h_shown : ¬t.opening <+: symbols (x :: m) := not_prefix_of_notMem h_tag
        rw [unmarked_cons, scan_shown (by simpa using h_shown)]
        exact Nat.le_succ_of_le (ih_ahead k fun h_mem => h_tag (by simp [h_mem]))

/-- A block whose closing tag is cut is followed at once by another one, or by the end. -/
def Tight (t : Tags α) : Bool → ℕ → List (Cell α) → Prop
  | _, _, [] => True
  | opened, skip + 1, _ :: m => Tight t opened skip m
  | true, 0, x :: m =>
    if t.closing <+: symbols (x :: m) then
      (Closes t (x :: m) ∨ m.drop t.closeTail.length = [] ∨
          t.opening <+: symbols (m.drop t.closeTail.length)) ∧
        Tight t false t.closeTail.length m
    else Tight t true 0 m
  | false, 0, x :: m =>
    if t.opening <+: symbols (x :: m) then Tight t true t.openTail.length m else Tight t false 0 m

theorem tight_skip (opened : Bool) (skip : ℕ) (m : List (Cell α)) :
    Tight t opened skip m ↔ Tight t opened 0 (m.drop skip) := by
  induction skip generalizing m with
  | zero => rfl
  | succ skip ih =>
    cases m with
    | nil => simp [Tight]
    | cons x m => rw [Tight, List.drop_succ_cons, ih]

theorem scan_behind_iff
    (ih : ∀ m' : List (Cell α), m'.length < m.length →
      (scan t true 0 m' = scan t true 0 (unmarked m') ↔ Tight t true 0 m')) :
    scan t true 0 m = scan t false 0 (unmarked m) ↔
      (m = [] ∨ t.opening <+: symbols m) ∧ Tight t false 0 m := by
  cases m with
  | nil => simp [scan_nil, Tight]
  | cons x m =>
    by_cases h_opening : t.opening <+: symbols (x :: m)
    · have h_open : ¬Closes t (x :: m) :=
        fun h_closes => not_closing_of_opening h_opening h_closes.1
      rw [scan_hidden h_open,
        scan_hidden_drop (head_notMem_take t.head_notMem_openTail h_opening), unmarked_cons,
        scan_opening (by simpa using h_opening), ← unmarked_drop, ih _ (by rw [List.length_drop, List.length_cons]; omega),
        ← tight_skip, and_iff_right (.inr h_opening), Tight, if_pos h_opening]
    · -- the next symbol is shown to one reader only
      refine iff_of_false (fun h_eq => ?_) fun h => h.1.elim (List.cons_ne_nil x m) h_opening
      have h_length : (scan t true 0 (x :: m)).length ≤ (scan t false 0 (unmarked m)).length := by
        rw [scan]
        split_ifs with h_closes
        · exact (length_scan_le m).2.2 _ (head_notMem_take t.head_notMem_closeTail h_closes.1)
        · exact (length_scan_le m).2.1 false 0 (by simp)
      rw [h_eq, unmarked_cons, scan_shown (by simpa using h_opening), List.length_cons] at h_length
      omega

theorem scan_eq_iff (opened : Bool) (skip : ℕ) (m : List (Cell α)) :
    scan t opened skip m = scan t opened skip (unmarked m) ↔ Tight t opened skip m := by
  induction h_length : m.length using Nat.strong_induction_on generalizing opened skip m with
  | _ n ih =>
    subst h_length
    cases m with
    | nil => simp [scan_nil, Tight]
    | cons x m =>
      rcases skip with _ | skip
      · cases opened with
        | false =>
          by_cases h_opening : t.opening <+: symbols (x :: m)
          · rw [scan, if_pos h_opening, unmarked_cons, scan, if_pos (by simpa using h_opening),
              Tight, if_pos h_opening]
            exact ih m.length (by simp) true _ m rfl
          · rw [scan_shown h_opening, unmarked_cons, scan_shown (by simpa using h_opening), Tight,
              if_neg h_opening, List.cons.injEq, and_iff_right rfl]
            exact ih m.length (by simp) false 0 m rfl
        | true =>
          rw [Tight, unmarked_cons]
          by_cases h_closing : t.closing <+: symbols (x :: m)
          · rw [if_pos h_closing, scan_closing (closes_unmarked.mpr h_closing), tight_skip,
              ← unmarked_drop]
            by_cases h_closes : Closes t (x :: m)
            · rw [scan_closing h_closes, and_iff_right (.inl h_closes)]
              exact ih _ (by rw [List.length_drop, List.length_cons]; omega) false 0 _ rfl
            · rw [scan_hidden h_closes,
                scan_hidden_drop (head_notMem_take t.head_notMem_closeTail h_closing),
                or_iff_right h_closes]
              refine scan_behind_iff fun m' h_shorter => ih m'.length ?_ true 0 m' rfl
              exact h_shorter.trans (by rw [List.length_drop, List.length_cons]; omega)
          · have h_open : ¬Closes t (x :: m) := fun h_closes => h_closing h_closes.1
            rw [if_neg h_closing, scan_hidden h_open, scan_hidden (mt closes_unmarked.mp h_closing)]
            exact ih m.length (by simp) true 0 m rfl
      · exact ih m.length (by simp) opened skip m rfl

end Scan

end Blocks
