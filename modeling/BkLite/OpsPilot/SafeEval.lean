import BkLite.Framework.Expressions
import BkLite.Framework.Value

/-!
# Safe expressions

`apps/opspilot/utils/safe_eval.py` parses a condition and evaluates its tree. It differs from Python
in two ways: `and`, `or` and a comparison chain give a truth value where Python gives an operand or
the result of the last comparison, and only `SyntaxError`, `ValueError` and `TypeError` are turned
into a `ValueError`. So a tree evaluates as Python evaluates the tree with the truth values in their
place (`evalNode_eq`), and the meaning of an expression is kept exactly when that changes neither
its truth value nor whether it raises, and what is raised is one of the three (`evaluate_iff`).
-/

namespace OpsPilot.SafeEval

open PyExpr

/-! ### Evaluation -/

section Evaluate

variable {V : Type} (rt : Runtime V) (variableOf : String → Option V)

mutual

def evalNode : Expr V → Except Exn V
  | .constant value => .ok value
  | .name id =>
    match variableOf id with
    | some value => .ok value
    | none => .error (.valueError ("未定义的变量: " ++ id))
  | .list node elts => do
    let values ← evalItems elts
    return rt.list node values
  | .tuple node elts => do
    let values ← evalItems elts
    return rt.tuple node values
  | .dict node entries => evalEntries (rt.emptyDict node) entries
  | .set node elts => evalElements (rt.emptySet node) elts
  | .compare left rest => do
    let left ← evalNode left
    let b ← evalChain left rest
    return rt.ofBool b
  | .boolOp .and values => do
    let b ← evalAll values
    return rt.ofBool b
  | .boolOp .or values => do
    let b ← evalAny values
    return rt.ofBool b
  | .unaryOp .not _ operand => do
    let value ← evalNode operand
    let b ← rt.truth value
    return rt.ofBool !b
  | .unaryOp .uAdd node operand => do
    let value ← evalNode operand
    rt.sign .uAdd node value
  | .unaryOp .uSub node operand => do
    let value ← evalNode operand
    rt.sign .uSub node value
  | .unaryOp .invert _ _ => .error (.valueError "不支持的一元操作: Invert")
  | .subscript node value slice => do
    let value ← evalNode value
    let sliceVal ← evalNode slice
    rt.getItem node value sliceVal
  | .other kind => .error (.valueError ("不支持的节点类型: " ++ kind))

def evalItems : Exprs V → Except Exn (List V)
  | .nil => .ok []
  | .cons item items => do
    let value ← evalNode item
    let values ← evalItems items
    return value :: values

def evalElements (set : V) : Exprs V → Except Exn V
  | .nil => .ok set
  | .cons item items => do
    let value ← evalNode item
    let set ← rt.addElement set value
    evalElements set items

/-- The comprehension over the keys and the values of a dict. The key of `**value` is `None`. -/
def evalEntries (dict : V) : Entries V → Except Exn V
  | .nil => .ok dict
  | .pair k v entries => do
    let key ← evalNode k
    let value ← evalNode v
    let dict ← rt.setItem dict key value
    evalEntries dict entries
  | .unpack _ _ => .error (.valueError "不支持的节点类型: NoneType")

def evalChain (left : V) : Comparisons V → Except Exn Bool
  | .nil => .ok true
  | .cons op comparator rest => do
    let right ← evalNode comparator
    let result ← rt.compare op left right
    let b ← rt.truth result
    if b then evalChain right rest else .ok false

/-- `all(…)` of the values. -/
def evalAll : Exprs V → Except Exn Bool
  | .nil => .ok true
  | .cons e es => do
    let value ← evalNode e
    let b ← rt.truth value
    if b then evalAll es else .ok false

/-- `any(…)` of the values. -/
def evalAny : Exprs V → Except Exn Bool
  | .nil => .ok false
  | .cons e es => do
    let value ← evalNode e
    let b ← rt.truth value
    if b then .ok true else evalAny es

end

/-- `str(e)`. -/
def message : Exn → String
  | .syntaxError message => message
  | .valueError message => message
  | .typeError message => message
  | .other _ message => message

/-- `except (SyntaxError, ValueError, TypeError)`. -/
def caught : Exn → Bool
  | .syntaxError _ => true
  | .valueError _ => true
  | .typeError _ => true
  | .other _ _ => false

/-- `evaluate`, for what `ast.parse` makes of the text: its tree or an exception. -/
def evaluate (tree : Except Exn (Expr V)) : Except Exn Bool :=
  let result := do
    let tree ← tree
    let result ← evalNode rt variableOf tree
    rt.truth result
  match result with
  | .ok b => .ok b
  | .error e => if caught e then .error (.valueError ("表达式求值错误: " ++ message e)) else .error e

end Evaluate

/-! ### The tree that is evaluated -/

def report : PyExpr.Failure → Exn
  | .raised exn => exn
  | .undefined id => .valueError ("未定义的变量: " ++ id)
  | .unsupportedOp kind => .valueError ("不支持的一元操作: " ++ kind)
  | .unsupportedNode kind => .valueError ("不支持的节点类型: " ++ kind)

section Reports

variable {A B : Type}

theorem mapError_bind (x : Except PyExpr.Failure A) (f : A → Except PyExpr.Failure B) :
    (x >>= f).mapError report = x.mapError report >>= fun a => (f a).mapError report := by
  cases x <;> rfl

theorem mapError_run (x : Except Exn A) : (Runtime.run x).mapError report = x := by
  cases x <;> rfl

theorem mapError_map (f : A → B) (x : Except PyExpr.Failure A) :
    (x.map f).mapError report = (do return f (← x.mapError report)) := by
  cases x <;> rfl

end Reports

section Wrap

variable {V : Type} {rt : Runtime V} {variableOf : String → Option V}

theorem mapError_bool (x : Except PyExpr.Failure V) :
    (rt.bool x).mapError report = (do rt.truth (← x.mapError report)) := by
  rw [Runtime.bool, mapError_bind]
  exact bind_congr fun value => mapError_run _

mutual

theorem evalNode_eq (e : Expr V) :
    evalNode rt variableOf e = (e.wrap.eval rt variableOf).mapError report := by
  cases e with
  | constant value => rfl
  | name id =>
    rw [evalNode, Expr.wrap, Expr.eval]
    cases variableOf id <;> rfl
  | list node elts =>
    rw [evalNode, Expr.wrap, Expr.eval, mapError_bind, evalItems_eq elts]
    rfl
  | tuple node elts =>
    rw [evalNode, Expr.wrap, Expr.eval, mapError_bind, evalItems_eq elts]
    rfl
  | dict node entries => exact evalEntries_eq _ entries
  | set node elts => exact evalElements_eq _ elts
  | compare left rest =>
    rw [evalNode, Expr.wrap, eval_notNot, mapError_map, Expr.meaning, Expr.eval, mapError_bool,
      mapError_bind, evalNode_eq left, bind_assoc, bind_assoc]
    refine bind_congr fun value => ?_
    rw [evalChain_eq value rest, mapError_bool, bind_assoc]
  | boolOp op values =>
    rw [Expr.wrap, eval_notNot, mapError_map, Expr.meaning]
    cases op with
    | and => rw [evalNode, Expr.eval, evalAll_eq values]
    | or => rw [evalNode, Expr.eval, evalAny_eq values]
  | unaryOp op node operand =>
    rw [Expr.wrap]
    cases op with
    | not =>
      rw [evalNode, Expr.eval, mapError_bind, evalNode_eq operand]
      refine bind_congr fun value => ?_
      rw [mapError_bind, mapError_run]
      rfl
    | uAdd =>
      rw [evalNode, Expr.eval, mapError_bind, evalNode_eq operand]
      exact bind_congr fun value => (mapError_run _).symm
    | uSub =>
      rw [evalNode, Expr.eval, mapError_bind, evalNode_eq operand]
      exact bind_congr fun value => (mapError_run _).symm
    | invert => rfl
  | subscript node value slice =>
    rw [evalNode, Expr.wrap, Expr.eval, mapError_bind, evalNode_eq value]
    refine bind_congr fun v => ?_
    rw [mapError_bind, evalNode_eq slice]
    exact bind_congr fun w => (mapError_run _).symm
  | other kind => rfl
termination_by structural e

theorem evalItems_eq (es : Exprs V) :
    evalItems rt variableOf es = (es.wrap.eval rt variableOf).mapError report := by
  cases es with
  | nil => rfl
  | cons e es =>
    rw [evalItems, Exprs.wrap, Exprs.eval, mapError_bind, evalNode_eq e]
    refine bind_congr fun value => ?_
    rw [mapError_bind, evalItems_eq es]
    rfl
termination_by structural es

theorem evalElements_eq (set : V) (es : Exprs V) :
    evalElements rt variableOf set es = (es.wrap.insert rt variableOf set).mapError report := by
  cases es with
  | nil => rfl
  | cons e es =>
    rw [evalElements, Exprs.wrap, Exprs.insert, mapError_bind, evalNode_eq e]
    refine bind_congr fun value => ?_
    rw [mapError_bind, mapError_run]
    exact bind_congr fun set => evalElements_eq set es
termination_by structural es

theorem evalEntries_eq (dict : V) (entries : Entries V) :
    evalEntries rt variableOf dict entries =
      (entries.wrap.insert rt variableOf dict).mapError report := by
  cases entries with
  | nil => rfl
  | pair key value entries =>
    rw [evalEntries, Entries.wrap, Entries.insert, mapError_bind, evalNode_eq key]
    refine bind_congr fun k => ?_
    rw [mapError_bind, evalNode_eq value]
    refine bind_congr fun v => ?_
    rw [mapError_bind, mapError_run]
    exact bind_congr fun dict => evalEntries_eq dict entries
  | unpack value entries => rfl
termination_by structural entries

theorem evalChain_eq (left : V) (rest : Comparisons V) :
    evalChain rt variableOf left rest =
      (rt.bool (rest.wrap.eval rt variableOf left)).mapError report := by
  cases rest with
  | nil => rw [Comparisons.wrap, Comparisons.eval, bool_ofBool]; rfl
  | cons op comparator rest =>
    rw [evalChain, Comparisons.wrap, bool_chain_cons, mapError_bind, evalNode_eq comparator]
    refine bind_congr fun right => ?_
    rw [mapError_bind, mapError_bool, mapError_run, bind_assoc]
    refine bind_congr fun result => bind_congr fun b => ?_
    cases b with
    | false => rfl
    | true => exact evalChain_eq right rest
termination_by structural rest

theorem evalAll_eq (es : Exprs V) :
    evalAll rt variableOf es = (rt.bool (es.wrap.conj rt variableOf)).mapError report := by
  cases es with
  | nil => rw [Exprs.wrap, Exprs.conj, bool_ofBool]; rfl
  | cons e es =>
    rw [evalAll, Exprs.wrap, bool_conj_cons, mapError_bind, Expr.meaning, mapError_bool,
      evalNode_eq e, bind_assoc]
    refine bind_congr fun value => bind_congr fun b => ?_
    cases b with
    | false => rfl
    | true => exact evalAll_eq es
termination_by structural es

theorem evalAny_eq (es : Exprs V) :
    evalAny rt variableOf es = (rt.bool (es.wrap.disj rt variableOf)).mapError report := by
  cases es with
  | nil => rw [Exprs.wrap, Exprs.disj, bool_ofBool]; rfl
  | cons e es =>
    rw [evalAny, Exprs.wrap, bool_disj_cons, mapError_bind, Expr.meaning, mapError_bool,
      evalNode_eq e, bind_assoc]
    refine bind_congr fun value => bind_congr fun b => ?_
    cases b with
    | false => exact evalAny_eq es
    | true => rfl
termination_by structural es

end

/-! ### What an expression means -/

/-- The truth value of Python, and `ValueError` where Python raises. -/
def KeepsMeaning (rt : Runtime V) (variableOf : String → Option V) (tree : Expr V) : Prop :=
  (∀ b, tree.meaning rt variableOf = .ok b → evaluate rt variableOf (.ok tree) = .ok b) ∧
    ∀ f, tree.meaning rt variableOf = .error f →
      ∃ text, evaluate rt variableOf (.ok tree) = .error (.valueError text)

theorem evaluate_eq (tree : Expr V) : evaluate rt variableOf (.ok tree) =
    match tree.wrap.meaning rt variableOf with
    | .ok b => .ok b
    | .error f =>
      if caught (report f) then .error (.valueError ("表达式求值错误: " ++ message (report f)))
      else .error (report f) := by
  have h_result : (evalNode rt variableOf tree >>= rt.truth) =
      (tree.wrap.meaning rt variableOf).mapError report := by
    rw [Expr.meaning, mapError_bool, evalNode_eq]
  calc evaluate rt variableOf (.ok tree)
      = match evalNode rt variableOf tree >>= rt.truth with
        | .ok b => .ok b
        | .error e =>
          if caught e then .error (.valueError ("表达式求值错误: " ++ message e)) else .error e := rfl
    _ = _ := by
      rw [h_result]
      cases tree.wrap.meaning rt variableOf <;> rfl

theorem evaluate_eq_ok {tree : Expr V} {b : Bool} :
    evaluate rt variableOf (.ok tree) = .ok b ↔ tree.wrap.meaning rt variableOf = .ok b := by
  rw [evaluate_eq]
  cases tree.wrap.meaning rt variableOf with
  | ok b' => exact ⟨fun h => by cases h; rfl, fun h => by cases h; rfl⟩
  | error f =>
    refine iff_of_false (fun h => ?_) (fun h => by cases h)
    dsimp only at h
    split_ifs at h

theorem evaluate_eq_valueError {tree : Expr V} :
    (∃ text, evaluate rt variableOf (.ok tree) = .error (.valueError text)) ↔
      ∃ f, tree.wrap.meaning rt variableOf = .error f ∧ caught (report f) = true := by
  rw [evaluate_eq]
  constructor
  · rintro ⟨text, h⟩
    cases h_wrap : tree.wrap.meaning rt variableOf with
    | ok b =>
      rw [h_wrap] at h
      cases h
    | error f =>
      rw [h_wrap] at h
      refine ⟨f, rfl, ?_⟩
      by_contra h_caught
      -- what is not caught is no `ValueError`
      simp only [if_neg h_caught, Except.error.injEq] at h
      rw [h] at h_caught
      exact h_caught rfl
  · rintro ⟨f, h_wrap, h_caught⟩
    rw [h_wrap]
    exact ⟨_, if_pos h_caught⟩

/-- **Kept meanings.** -/
theorem evaluate_iff (rt : Runtime V) (variableOf : String → Option V) (tree : Expr V) :
    KeepsMeaning rt variableOf tree ↔
      (∀ b, tree.meaning rt variableOf = .ok b → tree.wrap.meaning rt variableOf = .ok b) ∧
        ∀ f, tree.meaning rt variableOf = .error f →
          ∃ f', tree.wrap.meaning rt variableOf = .error f' ∧ caught (report f') = true := by
  refine and_congr ?_ ?_
  · exact forall_congr' fun b => imp_congr_right fun _ => evaluate_eq_ok
  · exact forall_congr' fun f => imp_congr_right fun _ => evaluate_eq_valueError

section Examples

open Py

private def jsonRuntime : Runtime Value where
  truth v := .ok v.truthy
  ofBool := .bool
  list _ := .list
  tuple _ := .list
  emptyDict _ := .dict []
  setItem _ _ _ := .error (.typeError "unhashable type")
  emptySet _ := .list []
  addElement _ _ := .error (.typeError "unhashable type")
  compare
    | .eq, v, w => .ok (.bool (v.equal w))
    | .notEq, v, w => .ok (.bool !(v.equal w))
    | _, _, _ => .error (.typeError "not supported between these instances")
  sign _ _ _ := .error (.typeError "bad operand type")
  getItem
    | _, .dict kvs, .str key =>
      match kvs.find? (·.1 = key) with
      | some entry => .ok entry.2
      | none => .error (.other "KeyError" key)
    | _, _, _ => .error (.typeError "not subscriptable")
  truth_ofBool _ := rfl

/-- `data['key'] == 'v'`. -/
private def itemTree : Expr Value :=
  .compare (.subscript 0 (.name "data") (.constant (.str "key")))
    (.cons .eq (.constant (.str "v")) .nil)

/-- `(a or 'x') == 'x'`. -/
private def defaultTree : Expr Value :=
  .compare (.boolOp .or (.cons (.name "a") (.cons (.constant (.str "x")) .nil)))
    (.cons .eq (.constant (.str "x")) .nil)

/-- `(a or 'x') == 'x'` is true in Python for an empty `a`, and false here. -/
theorem meaning_lost :
    (¬∀ variableOf tree, KeepsMeaning jsonRuntime variableOf tree) ∧
      evaluate jsonRuntime (fun _ => some (.dict [])) (.ok itemTree) =
        .error (.other "KeyError" "key") ∧
      defaultTree.meaning jsonRuntime (fun _ => some (.str "")) = .ok true ∧
      evaluate jsonRuntime (fun _ => some (.str "")) (.ok defaultTree) = .ok false := by
  refine ⟨fun h => ?_, rfl, rfl, rfl⟩
  obtain ⟨text, h_text⟩ := (h (fun _ => some (.dict [])) itemTree).2 _ rfl
  cases h_text

end Examples

end Wrap

end OpsPilot.SafeEval
