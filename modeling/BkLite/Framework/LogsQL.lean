import Mathlib.Data.Nat.Notation
import Mathlib.Tactic.Tauto

/-!
# A query language of filters and pipes

A query selects logs by a filter and hands them to pipes. A filter is made of words, quoted
texts and calls of a named matcher, of parentheses, of a name in front of a filter, and of `NOT`,
`AND` and `OR`; two filters side by side mean `AND`, and `AND` binds tighter than `OR`.

* `Parses` — the grammar, over tokens. `depth` counts the parentheses that are open.
* `Filter.Selects` — the logs a filter selects, for any meaning of the atoms.
-/

namespace LogsQL

/-! ### Tokens -/

/-- A token. `call` is a name together with the parenthesis it touches. -/
inductive Token
  | lparen
  | call (name : List Char)
  | rparen
  | pipe
  | colon
  | not
  | and
  | or
  | word (text : List Char)
  | quoted (text : List Char)
deriving DecidableEq, Repr

/-- The number of open parentheses after a token; none where a parenthesis closes nothing. -/
def Token.depth : Token → ℕ → Option ℕ
  | .lparen, n | .call _, n => some (n + 1)
  | .rparen, 0 => none
  | .rparen, n + 1 => some n
  | _, n => some n

def depth : ℕ → List Token → Option ℕ
  | n, [] => some n
  | n, t :: ts => (t.depth n).bind fun m => depth m ts

def Balanced (ts : List Token) : Prop :=
  depth 0 ts = some 0

instance (ts : List Token) : Decidable (Balanced ts) :=
  inferInstanceAs (Decidable (depth 0 ts = some 0))

@[simp] theorem depth_nil (n : ℕ) : depth n [] = some n := rfl

@[simp] theorem depth_lparen (n : ℕ) (ts : List Token) :
    depth n (.lparen :: ts) = depth (n + 1) ts := rfl

def Token.Flat (t : Token) : Prop :=
  ∀ n, t.depth n = some n

theorem depth_flat {t : Token} (h : t.Flat) (n : ℕ) (ts : List Token) :
    depth n (t :: ts) = depth n ts := by
  simp [depth, h n]

@[simp] theorem flat_colon : Token.colon.Flat := fun _ => rfl
@[simp] theorem flat_not : Token.not.Flat := fun _ => rfl
@[simp] theorem flat_and : Token.and.Flat := fun _ => rfl
@[simp] theorem flat_or : Token.or.Flat := fun _ => rfl
@[simp] theorem flat_word (w : List Char) : (Token.word w).Flat := fun _ => rfl
@[simp] theorem flat_quoted (s : List Char) : (Token.quoted s).Flat := fun _ => rfl

theorem depth_append (n : ℕ) (ts us : List Token) :
    depth n (ts ++ us) = (depth n ts).bind fun m => depth m us := by
  induction ts generalizing n with
  | nil => rfl
  | cons t ts ih =>
    show (t.depth n).bind (fun m => depth m (ts ++ us))
      = ((t.depth n).bind fun m => depth m ts).bind fun m => depth m us
    cases t.depth n with
    | none => rfl
    | some m => exact ih m

theorem Token.depth_add {t : Token} {n m : ℕ} (h : t.depth n = some m) (k : ℕ) :
    t.depth (n + k) = some (m + k) := by
  cases t
  case rparen =>
    obtain _ | n := n
    · exact absurd h nofun
    · obtain rfl : n = m := Option.some.inj h
      rw [Nat.add_right_comm]
      rfl
  case lparen | call =>
    obtain rfl : n + 1 = m := Option.some.inj h
    rw [Nat.add_right_comm]
    rfl
  all_goals
    obtain rfl : n = m := Option.some.inj h
    rfl

theorem depth_add {n m : ℕ} {ts : List Token} (h : depth n ts = some m) (k : ℕ) :
    depth (n + k) ts = some (m + k) := by
  induction ts generalizing n with
  | nil =>
    obtain rfl : n = m := Option.some.inj h
    rfl
  | cons t ts ih =>
    obtain ⟨n', h_t, h_ts⟩ := Option.bind_eq_some_iff.1 h
    show (t.depth (n + k)).bind _ = _
    rw [t.depth_add h_t]
    exact ih h_ts

theorem Balanced.depth_append {ts : List Token} (h : Balanced ts) (n : ℕ) (us : List Token) :
    depth n (ts ++ us) = depth n us := by
  have h_n := depth_add h n
  rw [Nat.zero_add] at h_n
  rw [LogsQL.depth_append, h_n]
  rfl

theorem Balanced.append {ts us : List Token} (h : Balanced ts) (h' : Balanced us) :
    Balanced (ts ++ us) := by
  rw [Balanced, h.depth_append]
  exact h'

theorem Balanced.of_append {ts us : List Token} (h : Balanced ts) (h' : Balanced (ts ++ us)) :
    Balanced us := by
  rwa [Balanced, h.depth_append] at h'

theorem Balanced.exists_depth {ts us : List Token} (h : Balanced (ts ++ us)) :
    ∃ d, depth 0 ts = some d := by
  rw [Balanced, LogsQL.depth_append] at h
  obtain ⟨d, h_d, -⟩ := Option.bind_eq_some_iff.1 h
  exact ⟨d, h_d⟩

theorem Balanced.wrap {t : Token} (h_t : ∀ n, t.depth n = some (n + 1)) {ts : List Token}
    (h : Balanced ts) : Balanced (t :: ts ++ [.rparen]) := by
  show (t.depth 0).bind (fun m => depth m (ts ++ [.rparen])) = some 0
  rw [h_t, Option.bind_some, h.depth_append]
  rfl

def block (ts : List Token) : List Token :=
  .lparen :: ts ++ [.rparen]

theorem Balanced.block {ts : List Token} (h : Balanced ts) : Balanced (block ts) :=
  h.wrap fun _ => rfl

theorem Balanced.eq_of_append {ts us vs : List Token} (h_ts : Balanced ts) (h_us : Balanced us)
    (h_ne : us ≠ []) (h : us ++ vs = LogsQL.block ts) : vs = [] := by
  obtain _ | ⟨u, us⟩ := us
  · exact absurd rfl h_ne
  obtain ⟨rfl, h_us'⟩ : u = .lparen ∧ us ++ vs = ts ++ [.rparen] := by
    simpa [LogsQL.block] using h
  obtain ⟨ws, rfl, -⟩ | ⟨ws, rfl, h_vs⟩ := List.append_eq_append_iff.1 h_us'
  · -- `us` ends inside the parentheses, where the first of them is open.
    obtain ⟨d, h_d⟩ := h_ts.exists_depth
    rw [Balanced, depth_lparen, depth_add h_d 1] at h_us
    exact absurd (Option.some.inj h_us) (Nat.succ_ne_zero d)
  · obtain ⟨rfl, -⟩ | ⟨-, h_vs⟩ := List.append_eq_singleton_iff.1 h_vs.symm
    · rw [Balanced, depth_lparen, List.append_nil, depth_add h_ts 1] at h_us
      exact absurd (Option.some.inj h_us) (Nat.succ_ne_zero 0)
    · exact h_vs

theorem Balanced.exists_of_append {ts us vs ws : List Token} (h_ts : Balanced ts)
    (h_us : Balanced us) (h_ne : us ≠ []) (h : us ++ vs = LogsQL.block ts ++ ws) :
    ∃ xs, us = LogsQL.block ts ++ xs ∧ ws = xs ++ vs := by
  obtain ⟨xs, h_xs, rfl⟩ | ⟨xs, rfl, rfl⟩ := List.append_eq_append_iff.1 h
  · obtain rfl := h_ts.eq_of_append h_us h_ne h_xs.symm
    exact ⟨[], by simpa using h_xs.symm, rfl⟩
  · exact ⟨xs, rfl, rfl⟩

theorem Balanced.not_balanced_append {gs ts us vs : List Token} {c : Token} (h_gs : Balanced gs)
    (h_us : us ≠ []) (h_eq : LogsQL.block gs = us ++ c :: vs) : ¬Balanced (ts ++ us) := by
  intro h
  obtain ⟨e, h_e⟩ : ∃ e, depth 0 us = some e := Balanced.exists_depth (h_eq ▸ h_gs.block)
  obtain ⟨d, h_d⟩ := h.exists_depth
  rw [Balanced, LogsQL.depth_append, h_d, Option.bind_some, ← Nat.zero_add d,
    depth_add h_e] at h
  obtain rfl : e = 0 := Nat.eq_zero_of_add_eq_zero_right (Option.some.inj h)
  exact absurd (h_gs.eq_of_append h_e h_us h_eq.symm) (List.cons_ne_nil _ _)

theorem not_balanced_of_block {fs gs ts vs : List Token} {c : Token} (h_gs : Balanced gs)
    (h_ts : c ∉ ts) (h_c : c ≠ .lparen) (h_eq : ts ++ block gs = fs ++ c :: vs) :
    ¬Balanced fs := by
  obtain ⟨us, rfl, h_us⟩ | ⟨us, rfl, h_us⟩ := List.append_eq_append_iff.1 h_eq
  · obtain _ | ⟨u, us⟩ := us
    · exact absurd (List.cons.inj h_us).1.symm h_c
    · exact h_gs.not_balanced_append (List.cons_ne_nil u us) h_us
  · obtain _ | ⟨u, us⟩ := us
    · exact absurd (List.cons.inj h_us).1 h_c
    · obtain ⟨rfl, -⟩ := List.cons.inj h_us
      exact absurd (List.mem_append_right _ List.mem_cons_self) h_ts

/-! ### Filters -/

/-- What a filter tests in a field: a word, a quoted text, or a matcher with its arguments. -/
inductive Atom
  | word (text : List Char)
  | quoted (text : List Char)
  | call (name : List Char) (args : List Token)
deriving DecidableEq, Repr

inductive Filter
  | atom (a : Atom)
  | field (name : List Char) (f : Filter)
  | not (f : Filter)
  | and (f g : Filter)
  | or (f g : Filter)
deriving DecidableEq, Repr

section Selects

variable {Log : Type} (holds : Option (List Char) → Atom → Log → Prop)

/-- The logs a filter selects. Without a field, an atom is looked up in the message. -/
def Filter.Selects : Filter → Option (List Char) → Log → Prop
  | .atom a, name, log => holds name a log
  | .field name f, _, log => f.Selects (some name) log
  | .not f, name, log => ¬f.Selects name log
  | .and f g, name, log => f.Selects name log ∧ g.Selects name log
  | .or f g, name, log => f.Selects name log ∨ g.Selects name log

end Selects

/-! ### The grammar -/

def Token.name? : Token → Option (List Char)
  | .word w => some w
  | .quoted s => some s
  | _ => none

theorem Token.flat_of_name? {t : Token} {w : List Char} (h : t.name? = some w) : t.Flat := by
  cases t
  case word | quoted => exact fun _ => rfl
  all_goals exact absurd h (by simp [name?])

/-- How tightly a filter binds. -/
inductive Level
  | unary
  | and
  | or
deriving DecidableEq, Repr

/-- The filters that tokens can be read as. -/
inductive Parses : Level → List Token → Filter → Prop
  | word (w : List Char) : Parses .unary [.word w] (.atom (.word w))
  | quoted (s : List Char) : Parses .unary [.quoted s] (.atom (.quoted s))
  | call (w : List Char) {args : List Token} (h_args : ∀ t ∈ args, t.name?.isSome) :
      Parses .unary (.call w :: args ++ [.rparen]) (.atom (.call w args))
  | field {t : Token} {w : List Char} {ts : List Token} {f : Filter} (h_t : t.name? = some w)
      (h : Parses .unary ts f) : Parses .unary (t :: .colon :: ts) (.field w f)
  | not {ts : List Token} {f : Filter} (h : Parses .unary ts f) :
      Parses .unary (.not :: ts) (.not f)
  | parens {ts : List Token} {f : Filter} (h : Parses .or ts f) :
      Parses .unary (block ts) f
  | ofUnary {ts : List Token} {f : Filter} (h : Parses .unary ts f) : Parses .and ts f
  | and {ts us : List Token} {f g : Filter} (h : Parses .unary ts f) (h' : Parses .and us g) :
      Parses .and (ts ++ .and :: us) (.and f g)
  | beside {ts us : List Token} {f g : Filter} (h : Parses .unary ts f) (h' : Parses .and us g) :
      Parses .and (ts ++ us) (.and f g)
  | ofAnd {ts : List Token} {f : Filter} (h : Parses .and ts f) : Parses .or ts f
  | or {ts us : List Token} {f g : Filter} (h : Parses .and ts f) (h' : Parses .or us g) :
      Parses .or (ts ++ .or :: us) (.or f g)

theorem Parses.ne_nil {l : Level} {ts : List Token} {f : Filter} (h : Parses l ts f) :
    ts ≠ [] := by
  induction h with
  | ofUnary _ ih | ofAnd _ ih => exact ih
  | beside _ _ ih => exact fun h_nil => ih (List.append_eq_nil_iff.1 h_nil).1
  | _ => simp [block]

theorem balanced_args {args : List Token} (h : ∀ t ∈ args, t.name?.isSome) : Balanced args := by
  induction args with
  | nil => rfl
  | cons t args ih =>
    obtain ⟨w, h_w⟩ := Option.isSome_iff_exists.1 (h t List.mem_cons_self)
    rw [Balanced, depth_flat (t.flat_of_name? h_w)]
    exact ih fun t h_t => h t (List.mem_cons_of_mem _ h_t)

theorem Parses.balanced {l : Level} {ts : List Token} {f : Filter} (h : Parses l ts f) :
    Balanced ts := by
  induction h with
  | word | quoted => rfl
  | call w h_args => exact (balanced_args h_args).wrap fun _ => rfl
  | field h_t _ ih =>
    rw [Balanced, depth_flat (Token.flat_of_name? h_t)]
    exact ih
  | not _ ih => exact ih
  | parens _ ih => exact ih.block
  | ofUnary _ ih | ofAnd _ ih => exact ih
  | and _ _ ih ih' => exact ih.append ih'
  | beside _ _ ih ih' => exact ih.append ih'
  | or _ _ ih ih' => exact ih.append ih'

theorem Parses.pipe_notMem {l : Level} {ts : List Token} {f : Filter} (h : Parses l ts f) :
    .pipe ∉ ts := by
  induction h with
  | @call w args h_args =>
    intro h_pipe
    have h_pipe : .pipe ∈ args := by simpa using h_pipe
    exact absurd (h_args _ h_pipe) (by simp [Token.name?])
  | @field t w ts f h_t _ ih =>
    intro h_pipe
    obtain rfl | h_pipe : .pipe = t ∨ .pipe ∈ ts := by simpa using h_pipe
    · exact absurd h_t (by simp [Token.name?])
    · exact ih h_pipe
  | _ => simp_all [block]

def Level.Excludes : Level → Token → Prop
  | .unary, t => t = .and ∨ t = .or
  | .and, t => t = .or
  | .or, _ => False

theorem Level.Excludes.flat {l : Level} {t : Token} (h : l.Excludes t) : t = .and ∨ t = .or := by
  cases l with
  | unary => exact h
  | and => exact .inr h
  | or => exact h.elim

theorem Balanced.inside_append {xs ys ts us : List Token} {c : Token} (h_xs : Balanced xs)
    (h_eq : ts ++ c :: us = xs ++ ys)
    (h_left : ∀ us', ts ++ c :: us' = xs → ∃ d, depth 0 ts = some (d + 1))
    (h_right : ∀ ts', ts' ++ c :: us = ys → ∃ d, depth 0 ts' = some (d + 1)) :
    ∃ d, depth 0 ts = some (d + 1) := by
  obtain ⟨ws, rfl, h_ws⟩ | ⟨ws, rfl, h_ws⟩ := List.append_eq_append_iff.1 h_eq
  · obtain _ | ⟨w, ws⟩ := ws
    · obtain ⟨d, h_d⟩ := h_right [] h_ws
      exact absurd h_d (by simp)
    · obtain ⟨rfl, -⟩ := List.cons.inj h_ws
      exact h_left ws rfl
  · obtain ⟨d, h_d⟩ := h_right ws h_ws.symm
    exact ⟨d, by rw [h_xs.depth_append, h_d]⟩

theorem Parses.connective_inside {l : Level} {ts us : List Token} {c : Token} {f : Filter}
    (h : Parses l (ts ++ c :: us) f) (h_c : l.Excludes c) :
    ∃ d, depth 0 ts = some (d + 1) := by
  generalize h_eq : ts ++ c :: us = vs at h
  induction h generalizing ts us with
  | word | quoted =>
    have h_mem : c ∈ ts ++ c :: us := List.mem_append_right _ List.mem_cons_self
    rw [h_eq, List.mem_singleton] at h_mem
    subst h_mem
    exact absurd h_c.flat (by simp)
  | @call w args h_args =>
    have h_mem : c ∈ ts ++ c :: us := List.mem_append_right _ List.mem_cons_self
    have h_arg : c ∈ args := by
      rw [h_eq] at h_mem
      obtain rfl | rfl := h_c.flat <;> simpa using h_mem
    obtain rfl | rfl := h_c.flat <;> exact absurd (h_args _ h_arg) (by simp [Token.name?])
  | field h_t _ ih =>
    obtain _ | ⟨t, _ | ⟨t', ts⟩⟩ := ts
    · obtain ⟨rfl, -⟩ := List.cons.inj h_eq
      obtain rfl | rfl := h_c.flat <;> exact absurd h_t (by simp [Token.name?])
    · simp only [List.cons_append, List.nil_append, List.cons.injEq] at h_eq
      obtain ⟨-, rfl, -⟩ := h_eq
      exact absurd h_c.flat (by simp)
    · simp only [List.cons_append, List.cons.injEq] at h_eq
      obtain ⟨rfl, rfl, h_eq⟩ := h_eq
      rw [depth_flat (Token.flat_of_name? h_t), depth_flat flat_colon]
      exact ih h_c h_eq
  | not _ ih =>
    obtain _ | ⟨t, ts⟩ := ts
    · obtain ⟨rfl, -⟩ := List.cons.inj h_eq
      exact absurd h_c.flat (by simp)
    · simp only [List.cons_append, List.cons.injEq] at h_eq
      obtain ⟨rfl, h_eq⟩ := h_eq
      rw [depth_flat flat_not]
      exact ih h_c h_eq
  | @parens vs _ h =>
    -- The parenthesis in front is open at every later place but the last.
    obtain _ | ⟨t, ts⟩ := ts
    · obtain ⟨rfl, -⟩ := List.cons.inj h_eq
      exact absurd h_c.flat (by simp)
    · simp only [block, List.cons_append, List.cons.injEq] at h_eq
      obtain ⟨rfl, h_eq⟩ := h_eq
      have h_vs : ∃ ws, vs = ts ++ ws := by
        obtain ⟨ws, h_vs, -⟩ | ⟨ws, rfl, h_ws⟩ := List.append_eq_append_iff.1 h_eq
        · exact ⟨ws, h_vs⟩
        · obtain ⟨rfl, -⟩ | ⟨rfl, -⟩ := List.append_eq_singleton_iff.1 h_ws.symm
          · exact ⟨[], by simp⟩
          · exact absurd h_ws (by simp)
      obtain ⟨ws, rfl⟩ := h_vs
      obtain ⟨d, h_d⟩ := h.balanced.exists_depth
      exact ⟨d, depth_add h_d 1⟩
  | ofUnary _ ih => exact ih (.inr h_c) h_eq
  | and h h' ih ih' =>
    refine h.balanced.inside_append h_eq (fun us' h_us => ih (.inr h_c) h_us) fun ts' h_ts => ?_
    obtain _ | ⟨t, ts'⟩ := ts'
    · obtain ⟨rfl, -⟩ := List.cons.inj h_ts
      exact absurd h_c nofun
    · obtain ⟨rfl, h_ts'⟩ := List.cons.inj h_ts
      rw [depth_flat flat_and]
      exact ih' h_c h_ts'
  | beside h h' ih ih' =>
    exact h.balanced.inside_append h_eq (fun us' h_us => ih (.inr h_c) h_us)
      fun ts' h_ts => ih' h_c h_ts
  | ofAnd | or => exact h_c.elim

theorem Parses.not_into_conjunct {ts us vs : List Token} {f : Filter}
    (h_us : Balanced (us ++ vs)) : ¬Parses .unary (ts ++ .and :: us) f := by
  intro h
  obtain ⟨d, h_d⟩ := h.connective_inside (.inl rfl)
  obtain ⟨e, h_e⟩ := h_us.exists_depth
  have h_depth := h.balanced
  rw [Balanced, depth_append, h_d, Option.bind_some, depth_flat flat_and] at h_depth
  have h_open := depth_add h_e (d + 1)
  rw [Nat.zero_add, h_depth] at h_open
  exact absurd (Option.some.inj h_open) (by omega)

theorem Parses.of_parens {l : Level} {ts : List Token} {f : Filter} (h_ts : Balanced ts)
    (h : Parses l (block ts) f) : Parses .or ts f := by
  generalize h_eq : block ts = us at h
  induction h with
  | word | quoted | call => simp [block] at h_eq
  | field h_t =>
    obtain ⟨rfl, -⟩ := List.cons.inj h_eq
    exact absurd h_t (by simp [Token.name?])
  | not => simp [block] at h_eq
  | parens h =>
    obtain rfl := List.append_cancel_right (List.cons.inj h_eq).2
    exact h
  | ofUnary _ ih | ofAnd _ ih => exact ih h_eq
  | and h h' =>
    exact absurd (h_ts.eq_of_append h.balanced h.ne_nil h_eq.symm) (List.cons_ne_nil _ _)
  | beside h h' => exact absurd (h_ts.eq_of_append h.balanced h.ne_nil h_eq.symm) h'.ne_nil
  | or h h' =>
    exact absurd (h_ts.eq_of_append h.balanced h.ne_nil h_eq.symm) (List.cons_ne_nil _ _)

section Alternatives

variable {Log : Type} (holds : Option (List Char) → Atom → Log → Prop)
  (name : Option (List Char)) {log : Log} {ts us gs : List Token} {f f' : Filter}

def guard (gs : List Token) : List Token :=
  .and :: block gs

theorem Parses.selects_conjunct (h_gs : Balanced gs) (h : Parses .and (ts ++ guard gs) f)
    (h_log : f.Selects holds name log) :
    ∃ g, Parses .or gs g ∧ g.Selects holds name log := by
  have h_block : Balanced (block gs) := h_gs.block
  generalize h_l : Level.and = l at h
  generalize h_eq : ts ++ guard gs = vs at h
  induction h generalizing ts with
  | ofUnary h =>
    subst h_eq
    rw [← List.append_nil (block gs)] at h_block
    exact absurd h (Parses.not_into_conjunct h_block)
  | @and vs ws _ _ h h' ih ih' =>
    obtain ⟨us, rfl, h_us⟩ | ⟨us, rfl, h_us⟩ := List.append_eq_append_iff.1 h_eq
    · obtain _ | ⟨u, us⟩ := us
      · obtain rfl : block gs = ws := (List.cons.inj h_us).2
        exact ⟨_, h'.of_parens h_gs, h_log.2⟩
      · obtain ⟨rfl, h_us'⟩ : _ ∧ block gs = us ++ .and :: ws := List.cons.inj h_us
        rw [h_us'] at h_block
        exact absurd h (Parses.not_into_conjunct h_block)
    · obtain _ | ⟨u, us⟩ := us
      · obtain rfl : ws = block gs := (List.cons.inj h_us).2
        exact ⟨_, h'.of_parens h_gs, h_log.2⟩
      · exact ih' h_log.2 rfl (List.cons.inj h_us).2.symm
  | @beside vs ws _ _ h h' ih ih' =>
    obtain ⟨us, rfl, h_us⟩ | ⟨us, rfl, h_us⟩ := List.append_eq_append_iff.1 h_eq
    · obtain _ | ⟨u, us⟩ := us
      · exact @ih' [] h_log.2 rfl h_us
      · obtain ⟨rfl, h_us'⟩ : _ ∧ block gs = us ++ ws := List.cons.inj h_us
        rw [h_us'] at h_block
        exact absurd h (Parses.not_into_conjunct h_block)
    · exact ih' h_log.2 rfl h_us.symm
  | _ => cases h_l

theorem Parses.append_or (h : Parses .or ts f) (h' : Parses .or us f') :
    ∃ g, Parses .or (ts ++ .or :: us) g ∧
      ∀ log, g.Selects holds name log ↔ f.Selects holds name log ∨ f'.Selects holds name log := by
  generalize h_l : Level.or = l at h
  induction h with
  | ofAnd h => exact ⟨_, .or h h', fun _ => Iff.rfl⟩
  | @or ts ts' f₁ f₂ h₁ h₂ ih ih' =>
    obtain ⟨g, h_g, h_sel⟩ := ih' h_l
    refine ⟨.or f₁ g, ?_, fun log => ?_⟩
    · rw [List.append_assoc]
      exact .or h₁ h_g
    · calc f₁.Selects holds name log ∨ g.Selects holds name log
        _ ↔ f₁.Selects holds name log ∨ f₂.Selects holds name log ∨
              f'.Selects holds name log := by rw [h_sel]
        _ ↔ _ := or_assoc.symm
  | _ => cases h_l

theorem Parses.not_past_or (h_ts : Balanced ts) : ¬Parses .and (ts ++ .or :: us) f := by
  intro h
  obtain ⟨d, h_d⟩ := h.connective_inside rfl
  rw [h_ts] at h_d
  exact absurd (Option.some.inj h_d) (Nat.succ_ne_zero d).symm

theorem Parses.split_or (h_ts : Balanced ts) (h : Parses .or (ts ++ .or :: us) f) :
    ∃ g g', Parses .or ts g ∧ Parses .or us g' ∧
      ∀ log, f.Selects holds name log ↔ g.Selects holds name log ∨ g'.Selects holds name log := by
  generalize h_l : Level.or = l at h
  generalize h_eq : ts ++ .or :: us = vs at h
  induction h generalizing ts with
  | ofAnd h =>
    subst h_eq
    exact absurd h (Parses.not_past_or h_ts)
  | @or vs vs' f₁ f₂ h₁ h₂ ih ih' =>
    obtain ⟨ws, rfl, h_ws⟩ | ⟨ws, rfl, h_ws⟩ := List.append_eq_append_iff.1 h_eq
    · obtain _ | ⟨w, ws⟩ := ws
      · obtain rfl : us = vs' := (List.cons.inj h_ws).2
        rw [List.append_nil] at h₁
        exact ⟨f₁, f₂, .ofAnd h₁, h₂, fun _ => Iff.rfl⟩
      · obtain ⟨rfl, -⟩ := List.cons.inj h_ws
        exact absurd h₁ (Parses.not_past_or h_ts)
    · obtain _ | ⟨w, ws⟩ := ws
      · obtain rfl : vs' = us := (List.cons.inj h_ws).2
        rw [List.append_nil]
        exact ⟨f₁, f₂, .ofAnd h₁, h₂, fun _ => Iff.rfl⟩
      · obtain ⟨rfl, h_ws'⟩ : .or = w ∧ vs' = ws ++ .or :: us := List.cons.inj h_ws
        have h_bal : Balanced (.or :: ws) := h₁.balanced.of_append h_ts
        rw [Balanced, depth_flat flat_or] at h_bal
        obtain ⟨g, g', h_g, h_g', h_sel⟩ := ih' h_bal h_l h_ws'.symm
        refine ⟨.or f₁ g, g', .or h₁ h_g, h_g', fun log => ?_⟩
        calc f₁.Selects holds name log ∨ f₂.Selects holds name log
          _ ↔ f₁.Selects holds name log ∨ g.Selects holds name log ∨
                g'.Selects holds name log := by rw [h_sel]
          _ ↔ _ := or_assoc.symm
  | _ => cases h_l

theorem Parses.not_into_guard (h_gs : Balanced gs) (h_us : us ≠ []) {vs : List Token} {c : Token}
    (h_eq : block gs = us ++ c :: vs) : ¬Parses .and (ts ++ .and :: us) f := by
  intro h
  rw [List.append_cons] at h
  exact h_gs.not_balanced_append h_us h_eq h.balanced

/-- **Where a guard reaches.** To the filter that ends in it, but not to alternatives in front. -/
theorem Parses.selects_guard (h_gs : Balanced gs) (h : Parses .or (ts ++ guard gs) f)
    (h_log : f.Selects holds name log) :
    (∃ g, Parses .or gs g ∧ g.Selects holds name log) ∨
      ∃ as bs g g', ts = as ++ .or :: bs ∧ Parses .or as g ∧ Parses .or (bs ++ guard gs) g' ∧
        g.Selects holds name log := by
  generalize h_l : Level.or = l at h
  generalize h_eq : ts ++ guard gs = vs at h
  induction h generalizing ts with
  | ofAnd h =>
    subst h_eq
    exact .inl (h.selects_conjunct holds name h_gs h_log)
  | @or vs vs' f₁ f₂ h₁ h₂ ih ih' =>
    obtain ⟨ws, rfl, h_ws⟩ | ⟨ws, rfl, h_ws⟩ := List.append_eq_append_iff.1 h_eq
    · obtain _ | ⟨w, ws⟩ := ws
      · exact absurd (List.cons.inj h_ws).1 nofun
      · obtain ⟨rfl, h_ws'⟩ : _ ∧ block gs = ws ++ .or :: vs' := List.cons.inj h_ws
        have h_ne : ws ≠ [] := by
          rintro rfl
          exact absurd (List.cons.inj h_ws').1 nofun
        exact absurd h₁ (Parses.not_into_guard h_gs h_ne h_ws')
    · obtain _ | ⟨w, ws⟩ := ws
      · exact absurd (List.cons.inj h_ws).1 nofun
      · obtain ⟨rfl, rfl⟩ : .or = w ∧ vs' = ws ++ guard gs := List.cons.inj h_ws
        rcases h_log with h_log | h_log
        · exact .inr ⟨vs, ws, f₁, f₂, rfl, .ofAnd h₁, h₂, h_log⟩
        · -- The first alternative is one of those in front as well.
          obtain h_g | ⟨as, bs, g, g', rfl, h_g, h_g', h_log⟩ := ih' h_log h_l rfl
          · exact .inl h_g
          · exact .inr ⟨vs ++ .or :: as, bs, .or f₁ g, g', by simp, .or h₁ h_g, h_g', .inr h_log⟩
  | _ => cases h_l

/-- The alternatives of a list of tokens that stand in front of a guard, as they are read if the
guard goes to the rest. -/
def Ahead (ts gs : List Token) (g : Filter) : Prop :=
  ∃ as bs g', ts = as ++ .or :: bs ∧ Parses .or as g ∧ Parses .or (bs ++ guard gs) g'

theorem guard_confines_iff {rule : Log → Prop} (h_gs : Balanced gs)
    (h_rule : ∀ g, Parses .or gs g → ∀ log, g.Selects holds name log → rule log) :
    (∀ f, Parses .or (ts ++ guard gs) f → ∀ log, f.Selects holds name log → rule log) ↔
      ∀ g, Ahead ts gs g → ∀ log, g.Selects holds name log → rule log := by
  constructor
  · rintro h g ⟨as, bs, g', rfl, h_g, h_g'⟩ log h_log
    obtain ⟨f, h_f, h_sel⟩ := h_g.append_or holds name h_g'
    have h_eq : as ++ .or :: bs ++ guard gs = as ++ .or :: (bs ++ guard gs) := by simp
    exact h f (h_eq ▸ h_f) log ((h_sel log).2 (.inl h_log))
  · intro h f h_f log h_log
    obtain ⟨g, h_g, h_sel⟩ | ⟨as, bs, g, g', h_ts, h_g, h_g', h_sel⟩ :=
      h_f.selects_guard holds name h_gs h_log
    · exact h_rule g h_g log h_sel
    · exact h g ⟨as, bs, g', h_ts, h_g, h_g'⟩ log h_sel

theorem not_ahead_of_balanced {g : Filter} (h_ts : Balanced ts) : ¬Ahead (block ts) gs g := by
  rintro ⟨as, bs, g', h_eq, h_g, -⟩
  exact absurd (h_ts.eq_of_append h_g.balanced h_g.ne_nil h_eq.symm) (List.cons_ne_nil _ _)

theorem Parses.head?_ne {l : Level} {t : Token} (h : Parses l ts f)
    (h_t : t = .and ∨ t = .colon ∨ t = .or ∨ t = .rparen) : ts.head? ≠ some t := by
  induction h with
  | field h_name =>
    rintro ⟨⟩
    obtain rfl | rfl | rfl | rfl := h_t <;> exact absurd h_name (by simp [Token.name?])
  | ofUnary _ ih | ofAnd _ ih => exact ih
  | @and ts _ _ _ h _ ih | @beside ts _ _ _ h _ ih | @or ts _ _ _ h _ ih =>
    obtain ⟨u, ts, rfl⟩ := List.exists_cons_of_ne_nil h.ne_nil
    exact ih
  | _ => obtain rfl | rfl | rfl | rfl := h_t <;> simp [block]

theorem Parses.of_block_guard (h_ts : Balanced ts) (h_gs : Balanced gs)
    (h : Parses .and (block ts ++ guard gs) f) :
    ∃ g g', f = .and g g' ∧ Parses .or ts g ∧ Parses .or gs g' := by
  have h_block : Balanced (block gs ++ []) := by simpa using h_gs.block
  generalize h_eq : block ts ++ guard gs = vs at h
  cases h with
  | ofUnary h =>
    subst h_eq
    exact absurd h (Parses.not_into_conjunct h_block)
  | @and vs vs' _ _ h h' =>
    obtain ⟨ws, rfl, h_ws⟩ := h_ts.exists_of_append h.balanced h.ne_nil h_eq.symm
    obtain _ | ⟨w, ws⟩ := ws
    · obtain rfl : block gs = vs' := (List.cons.inj h_ws).2
      rw [List.append_nil] at h
      exact ⟨_, _, rfl, h.of_parens h_ts, h'.of_parens h_gs⟩
    · obtain ⟨rfl, h_ws'⟩ : _ ∧ block gs = ws ++ .and :: vs' := List.cons.inj h_ws
      rw [List.append_nil, h_ws'] at h_block
      exact absurd h (Parses.not_into_conjunct h_block)
  | @beside vs vs' _ _ h h' =>
    obtain ⟨ws, rfl, h_ws⟩ := h_ts.exists_of_append h.balanced h.ne_nil h_eq.symm
    obtain _ | ⟨w, ws⟩ := ws
    · obtain rfl : guard gs = vs' := h_ws
      exact absurd rfl (h'.head?_ne (.inl rfl))
    · obtain ⟨rfl, h_ws'⟩ : _ ∧ block gs = ws ++ vs' := List.cons.inj h_ws
      rw [List.append_nil, h_ws'] at h_block
      exact absurd h (Parses.not_into_conjunct h_block)

theorem parses_block_guard_iff (h_ts : Balanced ts) (h_gs : Balanced gs) :
    Parses .or (block ts ++ guard gs) f ↔
      ∃ g g', f = .and g g' ∧ Parses .or ts g ∧ Parses .or gs g' := by
  constructor
  · intro h
    generalize h_eq : block ts ++ guard gs = vs at h
    cases h with
    | ofAnd h =>
      subst h_eq
      exact h.of_block_guard h_ts h_gs
    | @or vs vs' _ _ h h' =>
      -- No `OR` is outside the parentheses.
      obtain ⟨ws, rfl, h_ws⟩ := h_ts.exists_of_append h.balanced h.ne_nil h_eq.symm
      obtain _ | ⟨w, ws⟩ := ws
      · exact absurd (List.cons.inj h_ws).1 (by simp)
      · obtain ⟨rfl, h_ws'⟩ : _ ∧ block gs = ws ++ .or :: vs' := List.cons.inj h_ws
        have h_ne : ws ≠ [] := by
          rintro rfl
          exact absurd (List.cons.inj h_ws').1 (by simp)
        exact absurd h (Parses.not_into_guard h_gs h_ne h_ws')
  · rintro ⟨g, g', rfl, h, h'⟩
    exact .ofAnd (.and (.parens h) (.ofUnary (.parens h')))

theorem parses_field_quoted_iff {w s : List Char} :
    Parses .or [.word w, .colon, .quoted s] f ↔ f = .field w (.atom (.quoted s)) := by
  constructor
  · intro h
    generalize h_eq : [Token.word w, .colon, .quoted s] = vs at h
    have h_mem {c : Token} (h_c : c ∈ vs) : c = .word w ∨ c = .colon ∨ c = .quoted s := by
      simpa [← h_eq] using h_c
    cases h with
    | or => exact absurd (h_mem (List.mem_append_right _ List.mem_cons_self)) (by simp)
    | ofAnd h =>
      cases h with
      | and => exact absurd (h_mem (List.mem_append_right _ List.mem_cons_self)) (by simp)
      | @beside xs ys _ _ h h' =>
        obtain ⟨x, xs, rfl⟩ := List.exists_cons_of_ne_nil h.ne_nil
        obtain ⟨rfl, h_xs⟩ : .word w = x ∧ [.colon, .quoted s] = xs ++ ys := List.cons.inj h_eq
        obtain _ | ⟨y, _ | ⟨z, xs⟩⟩ := xs
        · obtain rfl : [.colon, .quoted s] = ys := h_xs
          exact absurd rfl (h'.head?_ne (.inr (.inl rfl)))
        · obtain ⟨rfl, -⟩ : .colon = y ∧ [.quoted s] = ys := List.cons.inj h_xs
          cases h with
          | field _ h => exact absurd rfl h.ne_nil
        · exact absurd h'.ne_nil (by simp_all)
      | ofUnary h =>
        subst h_eq
        cases h with
        | field h_w h =>
          cases h
          obtain rfl := Option.some.inj h_w
          rfl
  · rintro rfl
    exact .ofAnd (.ofUnary (.field rfl (.quoted s)))

/-- Lists of tokens with `OR` between them. -/
def joinOr : List (List Token) → List Token
  | [] => []
  | [ts] => ts
  | ts :: tss => ts ++ .or :: joinOr tss

theorem balanced_joinOr {tss : List (List Token)} (h : ∀ ts ∈ tss, Balanced ts) :
    Balanced (joinOr tss) := by
  induction tss using joinOr.induct with
  | case1 => rfl
  | case2 ts => exact h ts (List.mem_singleton_self ts)
  | case3 ts tss h_tss ih =>
    rw [joinOr]
    · exact (h ts List.mem_cons_self).append (ih fun us h_us => h us (List.mem_cons_of_mem _ h_us))
    · exact h_tss

theorem Parses.selects_joinOr {tss : List (List Token)} (h_tss : ∀ ts ∈ tss, Balanced ts)
    (h : Parses .or (joinOr tss) f) (h_log : f.Selects holds name log) :
    ∃ ts ∈ tss, ∃ g, Parses .or ts g ∧ g.Selects holds name log := by
  induction tss using joinOr.induct generalizing f with
  | case1 => exact absurd rfl h.ne_nil
  | case2 ts => exact ⟨ts, List.mem_singleton_self ts, f, h, h_log⟩
  | case3 ts tss h_ne ih =>
    rw [joinOr] at h
    · obtain ⟨g, g', h_g, h_g', h_sel⟩ := h.split_or holds name (h_tss ts List.mem_cons_self)
      rcases (h_sel log).1 h_log with h_log | h_log
      · exact ⟨ts, List.mem_cons_self, g, h_g, h_log⟩
      · obtain ⟨us, h_us, h_own⟩ :=
          ih (fun us h_us => h_tss us (List.mem_cons_of_mem _ h_us)) h_g' h_log
        exact ⟨us, List.mem_cons_of_mem _ h_us, h_own⟩
    · exact h_ne

end Alternatives

end LogsQL
