import Mathlib.Data.List.Forall2

/-!
# `str` of a tuple

The text Python gives a tuple whose members are texts, `None` or the float `nan`, as a key that
is stored and compared later is built. A text is quoted and escaped, so the text of a tuple tells
where each member ends and which kind it is (`strTuple_kinds`): a quote within a member is
escaped, and a reader that skips escaped characters (`afterQuote`) finds the end of the member.

`printable` is `str.isprintable` of one character outside ASCII.
-/

namespace Py

/-- A member of a tuple. -/
inductive Cell
  | str (s : String)
  | nan
  | none
deriving DecidableEq

/-! ### Texts -/

/-- The last `width` hexadecimal digits of a number. -/
def hexDigits : ℕ → ℕ → List Char
  | 0, _ => []
  | width + 1, n => hexDigits width (n / 16) ++ [Nat.digitChar (n % 16)]

/-- A character within a text that is quoted by `quote`. -/
def escapeChar (printable : Char → Bool) (quote c : Char) : List Char :=
  if c = quote ∨ c = '\\' then ['\\', c]
  else if c = '\t' then ['\\', 't']
  else if c = '\n' then ['\\', 'n']
  else if c = '\r' then ['\\', 'r']
  else if 0x20 ≤ c.toNat ∧ c.toNat < 0x7f then [c]
  else if 0x7f < c.toNat ∧ printable c = true then [c]
  else if c.toNat < 0x100 then '\\' :: 'x' :: hexDigits 2 c.toNat
  else if c.toNat < 0x10000 then '\\' :: 'u' :: hexDigits 4 c.toNat
  else '\\' :: 'U' :: hexDigits 8 c.toNat

def quoteOf (s : List Char) : Char :=
  if '\'' ∈ s ∧ '"' ∉ s then '"' else '\''

/-- `repr` of a text. -/
def reprStr (printable : Char → Bool) (s : List Char) : List Char :=
  quoteOf s :: (s.flatMap (escapeChar printable (quoteOf s)) ++ [quoteOf s])

/-- `repr` of a member. -/
def Cell.repr (printable : Char → Bool) : Cell → List Char
  | .str s => reprStr printable s.toList
  | .nan => ['n', 'a', 'n']
  | .none => ['N', 'o', 'n', 'e']

def tupleTail (printable : Char → Bool) : List Cell → List Char
  | [] => [')']
  | t :: ts => ',' :: ' ' :: (t.repr printable ++ tupleTail printable ts)

/-- The characters of `str` of a tuple. -/
def tupleChars (printable : Char → Bool) : List Cell → List Char
  | [] => ['(', ')']
  | [t] => '(' :: (t.repr printable ++ [',', ')'])
  | t :: ts => '(' :: (t.repr printable ++ tupleTail printable ts)

/-- `str` of a tuple. -/
def strTuple (printable : Char → Bool) (ts : List Cell) : String :=
  String.ofList (tupleChars printable ts)

theorem strTuple_ne_empty (printable : Char → Bool) (ts : List Cell) :
    strTuple printable ts ≠ "" := by
  intro h
  have h_chars : tupleChars printable ts = [] := by
    rw [← String.toList_ofList (l := tupleChars printable ts)]
    exact congrArg String.toList h
  unfold tupleChars at h_chars
  split at h_chars
  · cases h_chars
  · cases h_chars
  · cases h_chars

/-! ### The end of a text -/

section Quotes

variable {printable : Char → Bool} {quote : Char}

def afterQuote (quote : Char) : List Char → List Char
  | [] => []
  | '\\' :: _ :: cs => afterQuote quote cs
  | c :: cs => if c = quote then cs else afterQuote quote cs

theorem afterQuote_backslash (c : Char) (cs : List Char) :
    afterQuote quote ('\\' :: c :: cs) = afterQuote quote cs := by
  rw [afterQuote]

theorem afterQuote_cons {c : Char} (h : c ≠ '\\') (cs : List Char) :
    afterQuote quote (c :: cs) = if c = quote then cs else afterQuote quote cs := by
  rw [afterQuote]
  rintro c' cs' rfl
  exact absurd rfl h

theorem afterQuote_append {cs : List Char} (h : ∀ c ∈ cs, c ≠ '\\' ∧ c ≠ quote) (r : List Char) :
    afterQuote quote (cs ++ r) = afterQuote quote r := by
  induction cs with
  | nil => rfl
  | cons c cs ih =>
    rw [List.forall_mem_cons] at h
    rw [List.cons_append, afterQuote_cons h.1.1, if_neg h.1.2, ih h.2]

theorem digitChar_ne (n : ℕ) : Nat.digitChar (n % 16) ≠ '\\' ∧ Nat.digitChar (n % 16) ≠ '"' ∧
    Nat.digitChar (n % 16) ≠ '\'' := by
  have h_all : ∀ d < 16, Nat.digitChar d ≠ '\\' ∧ Nat.digitChar d ≠ '"' ∧
      Nat.digitChar d ≠ '\'' := by
    decide
  exact h_all (n % 16) (Nat.mod_lt n (by decide))

theorem hexDigits_ne (h_quote : quote = '"' ∨ quote = '\'') (width n : ℕ) :
    ∀ c ∈ hexDigits width n, c ≠ '\\' ∧ c ≠ quote := by
  induction width generalizing n with
  | zero => exact fun c h_c => absurd h_c List.not_mem_nil
  | succ width ih =>
    intro c h_c
    rcases List.mem_append.mp h_c with h_head | h_last
    · exact ih (n / 16) c h_head
    · obtain ⟨h_slash, h_double, h_single⟩ := digitChar_ne n
      rw [List.mem_singleton.mp h_last]
      rcases h_quote with rfl | rfl
      · exact ⟨h_slash, h_double⟩
      · exact ⟨h_slash, h_single⟩

theorem afterQuote_escapeChar (h_quote : quote = '"' ∨ quote = '\'') (c : Char) (r : List Char) :
    afterQuote quote (escapeChar printable quote c ++ r) = afterQuote quote r := by
  unfold escapeChar
  by_cases h_special : c = quote ∨ c = '\\'
  · rw [if_pos h_special]
    exact afterQuote_backslash c r
  · rw [if_neg h_special]
    rw [not_or] at h_special
    have h_plain : afterQuote quote ([c] ++ r) = afterQuote quote r := by
      refine afterQuote_append (fun c' h_c' => ?_) r
      rw [List.mem_singleton.mp h_c']
      exact ⟨h_special.2, h_special.1⟩
    have h_hex : ∀ width letter, afterQuote quote
        (('\\' :: letter :: hexDigits width c.toNat) ++ r) = afterQuote quote r := by
      intro width letter
      rw [List.cons_append, List.cons_append, afterQuote_backslash]
      exact afterQuote_append (hexDigits_ne h_quote width c.toNat) r
    split_ifs
    · exact afterQuote_backslash 't' r
    · exact afterQuote_backslash 'n' r
    · exact afterQuote_backslash 'r' r
    · exact h_plain
    · exact h_plain
    · exact h_hex 2 'x'
    · exact h_hex 4 'u'
    · exact h_hex 8 'U'

theorem quoteOf_eq (s : List Char) : quoteOf s = '"' ∨ quoteOf s = '\'' := by
  unfold quoteOf
  split_ifs
  · exact Or.inl rfl
  · exact Or.inr rfl

theorem quoteOf_ne_backslash (s : List Char) : quoteOf s ≠ '\\' := by
  rcases quoteOf_eq s with h | h <;> rw [h] <;> decide

theorem afterQuote_reprStr (s r : List Char) :
    afterQuote (quoteOf s)
      (s.flatMap (escapeChar printable (quoteOf s)) ++ [quoteOf s] ++ r) = r := by
  have h_body : ∀ cs : List Char, ∀ r, afterQuote (quoteOf s)
      (cs.flatMap (escapeChar printable (quoteOf s)) ++ r) = afterQuote (quoteOf s) r := by
    intro cs
    induction cs with
    | nil => exact fun r => rfl
    | cons c cs ih =>
      intro r
      rw [List.flatMap_cons, List.append_assoc, afterQuote_escapeChar (quoteOf_eq s), ih]
  rw [List.append_assoc, h_body, List.singleton_append, afterQuote_cons (quoteOf_ne_backslash s),
    if_pos rfl]

end Quotes

/-! ### The members of a tuple -/

def SameKind : Cell → Cell → Prop
  | .str _, .str _ => True
  | t, t' => t = t'

section Kinds

variable {printable : Char → Bool} {t t' : Cell} {ts ts' : List Cell} {r r' : List Char}

theorem repr_append (h : t.repr printable ++ r = t'.repr printable ++ r') :
    SameKind t t' ∧ r = r' := by
  -- no quote begins like `nan` or `None`
  have h_first : ∀ (s : String) (c : Char) (cs : List Char),
      Cell.repr printable (.str s) ++ r = c :: cs → c = '"' ∨ c = '\'' := by
    intro s c cs h_eq
    rw [← (List.cons.inj h_eq).1]
    exact quoteOf_eq s.toList
  have h_first' : ∀ (s : String) (c : Char) (cs : List Char),
      c :: cs = Cell.repr printable (.str s) ++ r' → c = '"' ∨ c = '\'' := by
    intro s c cs h_eq
    rw [(List.cons.inj h_eq).1]
    exact quoteOf_eq s.toList
  cases t with
  | str s =>
    cases t' with
    | str s' =>
      refine ⟨trivial, ?_⟩
      obtain ⟨h_quote, h_rest⟩ := List.cons.inj h
      calc r = afterQuote (quoteOf s.toList) (s.toList.flatMap
            (escapeChar printable (quoteOf s.toList)) ++ [quoteOf s.toList] ++ r) :=
          (afterQuote_reprStr s.toList r).symm
        _ = afterQuote (quoteOf s'.toList) (s'.toList.flatMap
            (escapeChar printable (quoteOf s'.toList)) ++ [quoteOf s'.toList] ++ r') :=
          congrArg₂ afterQuote h_quote h_rest
        _ = r' := afterQuote_reprStr s'.toList r'
    | nan => exact absurd (h_first s 'n' _ h) (by decide)
    | none => exact absurd (h_first s 'N' _ h) (by decide)
  | nan =>
    cases t' with
    | str s' => exact absurd (h_first' s' 'n' _ h) (by decide)
    | nan => exact ⟨rfl, List.append_cancel_left h⟩
    | none => exact absurd (List.cons.inj h).1 (by decide)
  | none =>
    cases t' with
    | str s' => exact absurd (h_first' s' 'N' _ h) (by decide)
    | nan => exact absurd (List.cons.inj h).1 (by decide)
    | none => exact ⟨rfl, List.append_cancel_left h⟩

theorem tupleTail_kinds (h : tupleTail printable ts = tupleTail printable ts') :
    List.Forall₂ SameKind ts ts' := by
  induction ts generalizing ts' with
  | nil =>
    cases ts' with
    | nil => exact .nil
    | cons t' ts' => exact absurd (List.cons.inj h).1 (by decide)
  | cons t ts ih =>
    cases ts' with
    | nil => exact absurd (List.cons.inj h).1 (by decide)
    | cons t' ts' =>
      have h_members := (List.cons.inj (List.cons.inj h).2).2
      obtain ⟨h_kind, h_rest⟩ := repr_append h_members
      exact .cons h_kind (ih h_rest)

theorem tupleTail_ne (ts : List Cell) : tupleTail printable ts ≠ [',', ')'] := by
  intro h
  cases ts with
  | nil => exact absurd (List.cons.inj h).1 (by decide)
  | cons t ts => exact absurd (List.cons.inj (List.cons.inj h).2).1 (by decide)

theorem repr_append_ne (t : Cell) (r r' : List Char) : t.repr printable ++ r ≠ ')' :: r' := by
  intro h
  cases t with
  | str s =>
    have h_quote : quoteOf s.toList = ')' := (List.cons.inj h).1
    rcases quoteOf_eq s.toList with h_eq | h_eq
    · exact absurd (h_eq.symm.trans h_quote) (by decide)
    · exact absurd (h_eq.symm.trans h_quote) (by decide)
  | nan => exact absurd (List.cons.inj h).1 (by decide)
  | none => exact absurd (List.cons.inj h).1 (by decide)

theorem strTuple_kinds (h : strTuple printable ts = strTuple printable ts') :
    List.Forall₂ SameKind ts ts' := by
  have h_chars : tupleChars printable ts = tupleChars printable ts' := by
    have h_toList := congrArg String.toList h
    rwa [strTuple, strTuple, String.toList_ofList, String.toList_ofList] at h_toList
  match ts, ts', h_chars with
  | [], [], _ => exact .nil
  | [], [t'], h_eq => exact absurd (List.cons.inj h_eq).2.symm (repr_append_ne t' _ _)
  | [], t' :: t₂' :: ts', h_eq => exact absurd (List.cons.inj h_eq).2.symm (repr_append_ne t' _ _)
  | [t], [], h_eq => exact absurd (List.cons.inj h_eq).2 (repr_append_ne t _ _)
  | t :: t₂ :: ts, [], h_eq => exact absurd (List.cons.inj h_eq).2 (repr_append_ne t _ _)
  | [t], [t'], h_eq =>
    obtain ⟨h_kind, -⟩ := repr_append (List.cons.inj h_eq).2
    exact .cons h_kind .nil
  | [t], t' :: t₂' :: ts', h_eq =>
    obtain ⟨-, h_rest⟩ := repr_append (List.cons.inj h_eq).2
    exact absurd h_rest.symm (tupleTail_ne _)
  | t :: t₂ :: ts, [t'], h_eq =>
    obtain ⟨-, h_rest⟩ := repr_append (List.cons.inj h_eq).2
    exact absurd h_rest (tupleTail_ne _)
  | t :: t₂ :: ts, t' :: t₂' :: ts', h_eq =>
    obtain ⟨h_kind, h_rest⟩ := repr_append (List.cons.inj h_eq).2
    exact .cons h_kind (tupleTail_kinds h_rest)

end Kinds

end Py
