import Mathlib.Tactic.Common

/-!
# Python expressions

The expressions of Python without calls, attributes, arithmetic, slices and comprehensions, and what
they evaluate to: constants, names, displays, comparison chains, `and`, `or`, `not`, the signs, and
subscripts. The values and their operations are a parameter (`Runtime`): an operation gives a value
or raises, and reads no state of its own.

`and` and `or` give one of their operands and a chain gives the result of its last comparison, not a
truth value. `Expr.wrap` replaces each of them by its truth value, `not not …`.
-/

namespace PyExpr

/-- An exception. The ones the language itself raises are told apart. -/
inductive Exn
  | syntaxError (message : String)
  | valueError (message : String)
  | typeError (message : String)
  | other (name message : String)
deriving DecidableEq, Repr

inductive CompareOp
  | eq | notEq | lt | ltE | gt | gtE | is | isNot | in | notIn
deriving DecidableEq, Repr

inductive BoolOp
  | and | or
deriving DecidableEq, Repr

inductive UnaryOp
  | not | uAdd | uSub | invert
deriving DecidableEq, Repr

/-- The values of the language. A display, a sign and a subscript are given the node they are
written at, since each makes an object of its own. -/
structure Runtime (V : Type) where
  truth : V → Except Exn Bool
  ofBool : Bool → V
  list : ℕ → List V → V
  tuple : ℕ → List V → V
  emptyDict : ℕ → V
  setItem : V → V → V → Except Exn V
  emptySet : ℕ → V
  addElement : V → V → Except Exn V
  compare : CompareOp → V → V → Except Exn V
  sign : UnaryOp → ℕ → V → Except Exn V
  getItem : ℕ → V → V → Except Exn V
  truth_ofBool : ∀ b, truth (ofBool b) = .ok b

variable {V : Type}

mutual

/-- An expression. `other` is a node of any other kind. -/
inductive Expr (V : Type)
  | constant (value : V)
  | name (id : String)
  | list (node : ℕ) (elts : Exprs V)
  | tuple (node : ℕ) (elts : Exprs V)
  | dict (node : ℕ) (entries : Entries V)
  | set (node : ℕ) (elts : Exprs V)
  | compare (left : Expr V) (rest : Comparisons V)
  | boolOp (op : BoolOp) (values : Exprs V)
  | unaryOp (op : UnaryOp) (node : ℕ) (operand : Expr V)
  | subscript (node : ℕ) (value slice : Expr V)
  | other (kind : String)

inductive Exprs (V : Type)
  | nil
  | cons (e : Expr V) (es : Exprs V)

/-- The entries of a dict display: a pair, or `**value`. -/
inductive Entries (V : Type)
  | nil
  | pair (key value : Expr V) (entries : Entries V)
  | unpack (value : Expr V) (entries : Entries V)

/-- The operators of a chain, each with its right operand. -/
inductive Comparisons (V : Type)
  | nil
  | cons (op : CompareOp) (comparator : Expr V) (rest : Comparisons V)

end

/-- Why an expression has no value: an operation raises, a name is not defined, or a node is of
another kind. -/
inductive Failure
  | raised (exn : Exn)
  | undefined (id : String)
  | unsupportedOp (kind : String)
  | unsupportedNode (kind : String)
deriving DecidableEq, Repr

section Eval

variable (rt : Runtime V) (env : String → Option V)

def Runtime.run {A : Type} (x : Except Exn A) : Except Failure A := x.mapError .raised

mutual

def Expr.eval : Expr V → Except Failure V
  | .constant value => .ok value
  | .name id =>
    match env id with
    | some value => .ok value
    | none => .error (.undefined id)
  | .list node elts => do
    let values ← elts.eval
    return rt.list node values
  | .tuple node elts => do
    let values ← elts.eval
    return rt.tuple node values
  | .dict node entries => entries.insert (rt.emptyDict node)
  | .set node elts => elts.insert (rt.emptySet node)
  | .compare left rest => do
    let value ← left.eval
    rest.eval value
  | .boolOp .and values => values.conj
  | .boolOp .or values => values.disj
  | .unaryOp .not _ operand => do
    let value ← operand.eval
    let b ← Runtime.run (rt.truth value)
    return rt.ofBool !b
  | .unaryOp .uAdd node operand => do
    let value ← operand.eval
    Runtime.run (rt.sign .uAdd node value)
  | .unaryOp .uSub node operand => do
    let value ← operand.eval
    Runtime.run (rt.sign .uSub node value)
  | .unaryOp .invert _ _ => .error (.unsupportedOp "Invert")
  | .subscript node value slice => do
    let value ← value.eval
    let slice ← slice.eval
    Runtime.run (rt.getItem node value slice)
  | .other kind => .error (.unsupportedNode kind)

def Exprs.eval : Exprs V → Except Failure (List V)
  | .nil => .ok []
  | .cons e es => do
    let value ← e.eval
    let values ← es.eval
    return value :: values

def Exprs.insert (set : V) : Exprs V → Except Failure V
  | .nil => .ok set
  | .cons e es => do
    let value ← e.eval
    let set ← Runtime.run (rt.addElement set value)
    es.insert set

def Entries.insert (dict : V) : Entries V → Except Failure V
  | .nil => .ok dict
  | .pair key value entries => do
    let key ← key.eval
    let value ← value.eval
    let dict ← Runtime.run (rt.setItem dict key value)
    entries.insert dict
  | .unpack _ _ => .error (.unsupportedNode "NoneType")

/-- A chain ends at its first comparison with a false result, and gives its last result. -/
def Comparisons.eval (left : V) : Comparisons V → Except Failure V
  | .nil => .ok (rt.ofBool true)
  | .cons op comparator .nil => do
    let right ← comparator.eval
    Runtime.run (rt.compare op left right)
  | .cons op comparator (.cons op' comparator' rest) => do
    let right ← comparator.eval
    let result ← Runtime.run (rt.compare op left right)
    let b ← Runtime.run (rt.truth result)
    if b then (Comparisons.cons op' comparator' rest).eval right else return result

/-- `and` gives its first false operand, or its last one. -/
def Exprs.conj : Exprs V → Except Failure V
  | .nil => .ok (rt.ofBool true)
  | .cons e .nil => e.eval
  | .cons e (.cons e' es) => do
    let value ← e.eval
    let b ← Runtime.run (rt.truth value)
    if b then (Exprs.cons e' es).conj else return value

/-- `or` gives its first true operand, or its last one. -/
def Exprs.disj : Exprs V → Except Failure V
  | .nil => .ok (rt.ofBool false)
  | .cons e .nil => e.eval
  | .cons e (.cons e' es) => do
    let value ← e.eval
    let b ← Runtime.run (rt.truth value)
    if b then return value else (Exprs.cons e' es).disj

end

/-- `bool(…)` of an outcome. -/
def Runtime.bool (x : Except Failure V) : Except Failure Bool := do
  let value ← x
  Runtime.run (rt.truth value)

/-- `bool(…)` of the value of an expression. -/
def Expr.meaning (e : Expr V) : Except Failure Bool := rt.bool (e.eval rt env)

end Eval

/-! ### Truth values in place of operands -/

/-- `not not e`. -/
def Expr.notNot (e : Expr V) : Expr V := .unaryOp .not 0 (.unaryOp .not 0 e)

mutual

/-- The expression with the truth value in place of each `and`, `or` and comparison chain. -/
def Expr.wrap : Expr V → Expr V
  | .constant value => .constant value
  | .name id => .name id
  | .list node elts => .list node elts.wrap
  | .tuple node elts => .tuple node elts.wrap
  | .dict node entries => .dict node entries.wrap
  | .set node elts => .set node elts.wrap
  | .compare left rest => .notNot (.compare left.wrap rest.wrap)
  | .boolOp op values => .notNot (.boolOp op values.wrap)
  | .unaryOp op node operand => .unaryOp op node operand.wrap
  | .subscript node value slice => .subscript node value.wrap slice.wrap
  | .other kind => .other kind

def Exprs.wrap : Exprs V → Exprs V
  | .nil => .nil
  | .cons e es => .cons e.wrap es.wrap

def Entries.wrap : Entries V → Entries V
  | .nil => .nil
  | .pair key value entries => .pair key.wrap value.wrap entries.wrap
  | .unpack value entries => .unpack value.wrap entries.wrap

def Comparisons.wrap : Comparisons V → Comparisons V
  | .nil => .nil
  | .cons op comparator rest => .cons op comparator.wrap rest.wrap

end

section Wrap

variable {rt : Runtime V} {env : String → Option V}

@[simp] theorem bool_error (f : Failure) : rt.bool (.error f) = .error f := rfl

@[simp] theorem bool_ok (value : V) : rt.bool (.ok value) = Runtime.run (rt.truth value) := rfl

@[simp] theorem run_truth_ofBool (b : Bool) : Runtime.run (rt.truth (rt.ofBool b)) = .ok b := by
  rw [rt.truth_ofBool]
  rfl

theorem bool_ofBool (b : Bool) : rt.bool (.ok (rt.ofBool b)) = .ok b := run_truth_ofBool b

theorem eval_notNot (e : Expr V) :
    e.notNot.eval rt env = (e.meaning rt env).map rt.ofBool := by
  rw [Expr.notNot, Expr.eval, Expr.eval, Expr.meaning]
  cases e.eval rt env with
  | error f => rfl
  | ok value =>
    rw [bool_ok]
    cases h : rt.truth value with
    | error exn => simp [Runtime.run, Except.mapError, bind, Except.bind, Except.map, h]
    | ok b =>
      -- the inner `not` gives a truth value, and the outer one turns it round again
      simp [Runtime.run, Except.mapError, bind, Except.bind, pure, Except.pure, Except.map, h,
        rt.truth_ofBool]

theorem bool_conj_cons (e : Expr V) (es : Exprs V) :
    rt.bool ((Exprs.cons e es).conj rt env) = (do
      let b ← e.meaning rt env
      if b then rt.bool (es.conj rt env) else .ok false) := by
  rw [Expr.meaning]
  cases es with
  | nil =>
    rw [Exprs.conj, Exprs.conj, bool_ofBool]
    cases rt.bool (e.eval rt env) with
    | error f => rfl
    | ok b => cases b <;> rfl
  | cons e' es =>
    rw [Exprs.conj]
    cases e.eval rt env with
    | error f => rfl
    | ok value =>
      rw [bool_ok]
      cases h : Runtime.run (rt.truth value) with
      | error f => simp [bind, Except.bind, h]
      | ok b => cases b <;> simp [bind, Except.bind, pure, Except.pure, h]

theorem bool_disj_cons (e : Expr V) (es : Exprs V) :
    rt.bool ((Exprs.cons e es).disj rt env) = (do
      let b ← e.meaning rt env
      if b then .ok true else rt.bool (es.disj rt env)) := by
  rw [Expr.meaning]
  cases es with
  | nil =>
    rw [Exprs.disj, Exprs.disj, bool_ofBool]
    cases rt.bool (e.eval rt env) with
    | error f => rfl
    | ok b => cases b <;> rfl
  | cons e' es =>
    rw [Exprs.disj]
    cases e.eval rt env with
    | error f => rfl
    | ok value =>
      rw [bool_ok]
      cases h : Runtime.run (rt.truth value) with
      | error f => simp [bind, Except.bind, h]
      | ok b => cases b <;> simp [bind, Except.bind, pure, Except.pure, h]

theorem bool_chain_cons (left : V) (op : CompareOp) (comparator : Expr V)
    (rest : Comparisons V) :
    rt.bool ((Comparisons.cons op comparator rest).eval rt env left) = (do
      let right ← comparator.eval rt env
      let b ← rt.bool (Runtime.run (rt.compare op left right))
      if b then rt.bool (rest.eval rt env right) else .ok false) := by
  cases rest with
  | nil =>
    rw [Comparisons.eval]
    cases comparator.eval rt env with
    | error f => rfl
    | ok right =>
      simp only [bind, Except.bind, Comparisons.eval, bool_ofBool]
      cases rt.bool (Runtime.run (rt.compare op left right)) with
      | error f => rfl
      | ok b => cases b <;> rfl
  | cons op' comparator' rest =>
    rw [Comparisons.eval]
    cases comparator.eval rt env with
    | error f => rfl
    | ok right =>
      simp only [bind, Except.bind]
      cases Runtime.run (rt.compare op left right) with
      | error f => rfl
      | ok result =>
        simp only [bool_ok]
        cases h : Runtime.run (rt.truth result) with
        | error f => rfl
        | ok b => cases b <;> simp [pure, Except.pure, h]

end Wrap

end PyExpr
