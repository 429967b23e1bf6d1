import BkLite.Framework.QueryText

/-!
# What a query is read as

The grammar of queries gives one reading: a list of tokens parses to one filter at most
(`Parses.unique`), so that a text that is a filter on its own has one meaning (`Reads.unique`).
-/

namespace LogsQL

/-! ### One reading -/

def Level.Follow : Level → List Token → Prop
  | .unary, ts => ts.head? ≠ some .colon
  | .and, ts => ∀ t ∈ ts.head?, t = .or ∨ t = .rparen
  | .or, ts => ∀ t ∈ ts.head?, t = .rparen

theorem Level.Follow.unary {l : Level} {ts : List Token} (h : l.Follow ts) :
    Level.unary.Follow ts := by
  intro h_colon
  cases l with
  | unary => exact h h_colon
  | and =>
    obtain h_or | h_paren := h _ h_colon
    · cases h_or
    · cases h_paren
  | or => cases h _ h_colon

theorem Level.Follow.and {ts : List Token} (h : Level.or.Follow ts) : Level.and.Follow ts :=
  fun t h_t => .inr (h t h_t)

variable {l : Level} {ts ts' us us' : List Token} {f f' : Filter}

theorem args_inj {args args' : List Token} (h : ∀ t ∈ args, t.name?.isSome)
    (h' : ∀ t ∈ args', t.name?.isSome) (h_eq : args ++ .rparen :: us = args' ++ .rparen :: us') :
    args = args' := by
  induction args generalizing args' with
  | nil =>
    cases args' with
    | nil => rfl
    | cons t args' =>
      obtain ⟨rfl, -⟩ := List.cons.inj h_eq
      exact absurd (h' _ List.mem_cons_self) (by simp [Token.name?])
  | cons t args ih =>
    cases args' with
    | nil =>
      obtain ⟨rfl, -⟩ := List.cons.inj h_eq
      exact absurd (h _ List.mem_cons_self) (by simp [Token.name?])
    | cons t' args' =>
      obtain ⟨rfl, h_tail⟩ := List.cons.inj h_eq
      rw [ih (fun u h_u => h u (List.mem_cons_of_mem _ h_u))
        (fun u h_u => h' u (List.mem_cons_of_mem _ h_u)) h_tail]

theorem Parses.follow_unary (h : Parses l ts f) (rest : List Token) :
    Level.unary.Follow (ts ++ rest) := by
  obtain ⟨t, ts, rfl⟩ := List.exists_cons_of_ne_nil h.ne_nil
  exact h.head?_ne (.inr (.inl rfl))

theorem Parses.not_follow_and (h : Parses l ts f) (rest : List Token) :
    ¬Level.and.Follow (ts ++ rest) := by
  intro h_follow
  obtain ⟨t, ts, rfl⟩ := List.exists_cons_of_ne_nil h.ne_nil
  exact h.head?_ne (.inr (.inr (h_follow t rfl))) rfl

theorem Parses.append_ne_and (h : Parses l ts f) (rest : List Token) :
    ts ++ rest ≠ .and :: us := by
  intro h_eq
  obtain ⟨t, ts, rfl⟩ := List.exists_cons_of_ne_nil h.ne_nil
  obtain ⟨rfl, -⟩ := List.cons.inj h_eq
  exact h.head?_ne (.inl rfl) rfl

theorem not_follow_and_cons : ¬Level.and.Follow (.and :: us) := fun h => by simpa using h .and rfl

theorem follow_unary_and : Level.unary.Follow (.and :: us) := fun h => by cases h

theorem follow_and_or : Level.and.Follow (.or :: us) :=
  fun _ h => .inl (Option.some.inj h).symm

theorem not_follow_or : ¬Level.or.Follow (.or :: us) := fun h => by simpa using h .or rfl

/-- **One reading.** Two filters of one level at the start of a list that both end there are the
same, and take the same tokens. -/
theorem Parses.unique_append {rest rest' : List Token} (h : Parses l ts f) (h' : Parses l ts' f')
    (h_eq : ts ++ rest = ts' ++ rest') (h_rest : l.Follow rest) (h_rest' : l.Follow rest') :
    ts = ts' ∧ f = f' := by
  induction h generalizing ts' rest rest' f' with
  | word w =>
    cases h' with
    | word w' =>
      obtain ⟨h_w, -⟩ := List.cons.inj h_eq
      obtain rfl : w = w' := Token.word.inj h_w
      exact ⟨rfl, rfl⟩
    | field h_t h =>
      obtain ⟨-, rfl⟩ := List.cons.inj h_eq
      exact absurd rfl h_rest
    | _ => simp [block] at h_eq
  | quoted s =>
    cases h' with
    | quoted s' =>
      obtain ⟨h_s, -⟩ := List.cons.inj h_eq
      obtain rfl : s = s' := Token.quoted.inj h_s
      exact ⟨rfl, rfl⟩
    | field h_t h =>
      obtain ⟨-, rfl⟩ := List.cons.inj h_eq
      exact absurd rfl h_rest
    | _ => simp [block] at h_eq
  | @call w args h_args =>
    cases h' with
    | @call w' args' h_args' =>
      simp only [List.cons_append, List.append_assoc, List.nil_append] at h_eq
      obtain ⟨h_w, h_tail⟩ := List.cons.inj h_eq
      obtain rfl : w = w' := Token.call.inj h_w
      obtain rfl := args_inj h_args h_args' h_tail
      exact ⟨rfl, rfl⟩
    | field h_t h =>
      obtain ⟨rfl, -⟩ := List.cons.inj h_eq
      exact absurd h_t (by simp [Token.name?])
    | _ => simp [block] at h_eq
  | @field t w us g h_t h ih =>
    cases h' with
    | word | quoted =>
      obtain ⟨-, rfl⟩ := List.cons.inj h_eq
      exact absurd rfl h_rest'
    | field h_t' h' =>
      simp only [List.cons_append, List.cons.injEq] at h_eq
      obtain ⟨rfl, -, h_tail⟩ := h_eq
      obtain rfl := Option.some.inj (h_t.symm.trans h_t')
      obtain ⟨rfl, rfl⟩ := ih h' h_tail h_rest h_rest'
      exact ⟨rfl, rfl⟩
    | call | not | parens =>
      obtain ⟨rfl, -⟩ := List.cons.inj h_eq
      exact absurd h_t (by simp [Token.name?])
  | not h ih =>
    cases h' with
    | not h' =>
      obtain ⟨rfl, rfl⟩ := ih h' (List.cons.inj h_eq).2 h_rest h_rest'
      exact ⟨rfl, rfl⟩
    | field h_t h =>
      obtain ⟨rfl, -⟩ := List.cons.inj h_eq
      exact absurd h_t (by simp [Token.name?])
    | _ => simp [block] at h_eq
  | parens h ih =>
    cases h' with
    | parens h' =>
      simp only [block, List.cons_append, List.append_assoc, List.nil_append] at h_eq
      -- both end at the parenthesis that closes this one
      obtain ⟨rfl, rfl⟩ := ih h' (List.cons.inj h_eq).2
        (fun t h_t => (Option.some.inj h_t).symm) (fun t h_t => (Option.some.inj h_t).symm)
      exact ⟨rfl, rfl⟩
    | field h_t h =>
      obtain ⟨rfl, -⟩ := List.cons.inj h_eq
      exact absurd h_t (by simp [Token.name?])
    | _ => simp [block] at h_eq
  | ofUnary h ih =>
    cases h' with
    | ofUnary h' => exact ih h' h_eq h_rest.unary h_rest'.unary
    | and h' h_us' =>
      rw [List.append_assoc] at h_eq
      obtain ⟨rfl, -⟩ := ih h' h_eq h_rest.unary follow_unary_and
      exact absurd (List.append_cancel_left h_eq ▸ h_rest) not_follow_and_cons
    | beside h' h_us' =>
      rw [List.append_assoc] at h_eq
      obtain ⟨rfl, -⟩ := ih h' h_eq h_rest.unary (h_us'.follow_unary rest')
      exact absurd (List.append_cancel_left h_eq ▸ h_rest) (h_us'.not_follow_and rest')
  | and h h_us ih ih_us =>
    rw [List.append_assoc] at h_eq
    cases h' with
    | ofUnary h' =>
      obtain ⟨rfl, -⟩ := ih h' h_eq follow_unary_and h_rest'.unary
      exact absurd (List.append_cancel_left h_eq ▸ h_rest') not_follow_and_cons
    | and h' h_us' =>
      rw [List.append_assoc] at h_eq
      obtain ⟨rfl, rfl⟩ := ih h' h_eq follow_unary_and follow_unary_and
      obtain ⟨-, h_tail⟩ := List.cons.inj (List.append_cancel_left h_eq)
      obtain ⟨rfl, rfl⟩ := ih_us h_us' h_tail h_rest h_rest'
      exact ⟨rfl, rfl⟩
    | beside h' h_us' =>
      rw [List.append_assoc] at h_eq
      obtain ⟨rfl, -⟩ := ih h' h_eq follow_unary_and (h_us'.follow_unary rest')
      exact absurd (List.append_cancel_left h_eq).symm (h_us'.append_ne_and rest')
  | @beside _ vs _ _ h h_us ih ih_us =>
    rw [List.append_assoc] at h_eq
    cases h' with
    | ofUnary h' =>
      obtain ⟨rfl, -⟩ := ih h' h_eq (h_us.follow_unary rest) h_rest'.unary
      exact absurd (List.append_cancel_left h_eq ▸ h_rest') (h_us.not_follow_and rest)
    | and h' h_us' =>
      rw [List.append_assoc] at h_eq
      obtain ⟨rfl, -⟩ := ih h' h_eq (h_us.follow_unary rest) follow_unary_and
      exact absurd (List.append_cancel_left h_eq) (h_us.append_ne_and rest)
    | beside h' h_us' =>
      rw [List.append_assoc] at h_eq
      obtain ⟨rfl, rfl⟩ := ih h' h_eq (h_us.follow_unary rest) (h_us'.follow_unary rest')
      obtain ⟨rfl, rfl⟩ := ih_us h_us' (List.append_cancel_left h_eq) h_rest h_rest'
      exact ⟨rfl, rfl⟩
  | ofAnd h ih =>
    cases h' with
    | ofAnd h' => exact ih h' h_eq h_rest.and h_rest'.and
    | or h' h_us' =>
      rw [List.append_assoc] at h_eq
      obtain ⟨rfl, -⟩ := ih h' h_eq h_rest.and follow_and_or
      exact absurd (List.append_cancel_left h_eq ▸ h_rest) not_follow_or
  | or h h_us ih ih_us =>
    rw [List.append_assoc] at h_eq
    cases h' with
    | ofAnd h' =>
      obtain ⟨rfl, -⟩ := ih h' h_eq follow_and_or h_rest'.and
      exact absurd (List.append_cancel_left h_eq ▸ h_rest') not_follow_or
    | or h' h_us' =>
      rw [List.append_assoc] at h_eq
      obtain ⟨rfl, rfl⟩ := ih h' h_eq follow_and_or follow_and_or
      obtain ⟨-, h_tail⟩ := List.cons.inj (List.append_cancel_left h_eq)
      obtain ⟨rfl, rfl⟩ := ih_us h_us' h_tail h_rest h_rest'
      exact ⟨rfl, rfl⟩

theorem Parses.unique (h : Parses .or ts f) (h' : Parses .or ts f') : f = f' :=
  have h_nil : Level.or.Follow [] := nofun
  have h_ts : ts ++ [] = ts ++ [] := rfl
  (h.unique_append h' h_ts h_nil h_nil).2

/-! ### Leaves -/

def Token.isLeaf : Token → Bool
  | .word _ | .quoted _ | .call _ | .colon => true
  | _ => false

def leaves (ts : List Token) : List Token := ts.filter Token.isLeaf

@[simp] theorem leaves_append (ts us : List Token) : leaves (ts ++ us) = leaves ts ++ leaves us :=
  List.filter_append ..

@[simp] theorem leaves_cons_leaf {t : Token} (h : t.isLeaf = true) (ts : List Token) :
    leaves (t :: ts) = t :: leaves ts := List.filter_cons_of_pos h

@[simp] theorem leaves_cons_glue {t : Token} (h : t.isLeaf = false) (ts : List Token) :
    leaves (t :: ts) = leaves ts := List.filter_cons_of_neg (by simp [h])

/-- What the leaves of a filter are. A name is a word or a quoted text. -/
def Filter.leaves : Filter → List (Token → Prop)
  | .atom (.word w) => [(· = .word w)]
  | .atom (.quoted s) => [(· = .quoted s)]
  | .atom (.call w args) => (· = .call w) :: args.map fun a t => t = a
  | .field name f => (fun t => t.name? = some name) :: (· = .colon) :: f.leaves
  | .not f => f.leaves
  | .and f g | .or f g => f.leaves ++ g.leaves

theorem isLeaf_of_name? {t : Token} (h : t.name?.isSome) : t.isLeaf = true := by
  cases t
  case word | quoted => rfl
  all_goals exact absurd h (by simp [Token.name?])

theorem leaves_args {args : List Token} (h : ∀ t ∈ args, t.name?.isSome) : leaves args = args :=
  List.filter_eq_self.mpr fun t h_t => isLeaf_of_name? (h t h_t)

theorem Parses.leaves (h : Parses l ts f) :
    List.Forall₂ (fun P t => P t) f.leaves (leaves ts) := by
  induction h with
  | word w => exact .cons rfl .nil
  | quoted s => exact .cons rfl .nil
  | @call w args h_args =>
    have h_leaves : LogsQL.leaves (.call w :: args ++ [.rparen]) = .call w :: args := by
      rw [leaves_append, leaves_cons_leaf rfl, leaves_args h_args]
      exact List.append_nil _
    rw [h_leaves]
    refine .cons rfl (List.forall₂_map_left_iff.mpr ?_)
    exact List.forall₂_same.mpr fun _ _ => rfl
  | @field t w ts f h_t h ih =>
    rw [leaves_cons_leaf (isLeaf_of_name? (h_t ▸ rfl)), leaves_cons_leaf rfl]
    exact .cons h_t (.cons rfl ih)
  | not h ih => exact ih
  | @parens ts f h ih =>
    have h_leaves : LogsQL.leaves (block ts) = LogsQL.leaves ts := by
      rw [block, leaves_append, leaves_cons_glue rfl]
      exact List.append_nil _
    rw [h_leaves]
    exact ih
  | ofUnary h ih | ofAnd h ih => exact ih
  | and h h' ih ih' | or h h' ih ih' =>
    rw [leaves_append, leaves_cons_glue rfl]
    exact List.rel_append ih ih'
  | beside h h' ih ih' =>
    rw [leaves_append]
    exact List.rel_append ih ih'

def Atom.tokens : Atom → List Token
  | .word w => [.word w]
  | .quoted s => [.quoted s]
  | .call w args => .call w :: args

theorem eq_tokens_of_leaves {a : Atom} {A : List Token}
    (h : List.Forall₂ (fun P t => P t) (Filter.atom a).leaves A) : A = a.tokens := by
  have h_map : (Filter.atom a).leaves = a.tokens.map fun t u => u = t := by cases a <;> rfl
  rw [h_map, List.forall₂_map_left_iff] at h
  generalize a.tokens = ts at h
  induction h with
  | nil => rfl
  | cons h_head _ ih => rw [h_head, ih]

end LogsQL
