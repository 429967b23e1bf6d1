import Mathlib.Data.Rat.Defs
import Mathlib.Data.List.Dedup

/-!
# JSON values as Python reads them

The configuration of a Python service is a tree of JSON values, and its code
reads them through the built-in coercions of the language: truthiness,
`dict.get`, `or`, `int()`, membership and `dict.fromkeys`. The module gives the
tree (`Value`) and these coercions, with the exception each of them raises
(`PyError`).

A float is a rational number: the infinities and NaN are not JSON.
-/

namespace Py

/-- The exceptions the coercions below raise. -/
inductive PyError
  | typeError
  | valueError
  | attributeError
  | keyError
  | indexError
deriving DecidableEq, Repr

section Bind

variable {ε α β : Type} {x : Except ε α} {f : α → Except ε β}

theorem bind_eq_ok {b : β} : (x >>= f) = .ok b ↔ ∃ a, x = .ok a ∧ f a = .ok b := by
  cases x with
  | error e =>
    refine ⟨fun h => ?_, ?_⟩
    · cases h
    · rintro ⟨a, h, -⟩
      cases h
  | ok a =>
    refine ⟨fun h => ⟨a, rfl, h⟩, ?_⟩
    rintro ⟨a', h, h_f⟩
    cases h
    exact h_f

theorem bind_eq_error {e : ε} :
    (x >>= f) = .error e ↔ x = .error e ∨ ∃ a, x = .ok a ∧ f a = .error e := by
  cases x with
  | error e' =>
    refine ⟨fun h => .inl ?_, ?_⟩
    · cases h
      rfl
    · rintro (h | ⟨a, h, -⟩)
      · cases h
        rfl
      · cases h
  | ok a =>
    refine ⟨fun h => .inr ⟨a, rfl, h⟩, ?_⟩
    rintro (h | ⟨a', h, h_f⟩)
    · cases h
    · cases h
      exact h_f

end Bind

/-- A JSON value. The entries of a dict stand in insertion order. -/
inductive Value
  | null
  | bool (b : Bool)
  | int (i : ℤ)
  | float (q : ℚ)
  | str (s : String)
  | list (xs : List Value)
  | dict (kvs : List (String × Value))

/-- A hashable JSON value up to `==`. -/
inductive Scalar
  | null
  | num (q : ℚ)
  | str (s : String)
deriving DecidableEq

/-! ### Reading text -/

/-- The zeros of the decimal digit blocks of Unicode; the ten digits of a block
are consecutive. -/
def zeroDigits : List ℕ :=
  [0x30, 0x660, 0x6f0, 0x7c0, 0x966, 0x9e6, 0xa66, 0xae6, 0xb66, 0xbe6, 0xc66, 0xce6, 0xd66,
   0xde6, 0xe50, 0xed0, 0xf20, 0x1040, 0x1090, 0x17e0, 0x1810, 0x1946, 0x19d0, 0x1a80, 0x1a90,
   0x1b50, 0x1bb0, 0x1c40, 0x1c50, 0xa620, 0xa8d0, 0xa900, 0xa9d0, 0xa9f0, 0xaa50, 0xabf0,
   0xff10, 0x104a0, 0x10d30, 0x11066, 0x110f0, 0x11136, 0x111d0, 0x112f0, 0x11450, 0x114d0,
   0x11650, 0x116c0, 0x11730, 0x118e0, 0x11950, 0x11c50, 0x11d50, 0x11da0, 0x16a60, 0x16ac0,
   0x16b50, 0x1d7ce, 0x1d7d8, 0x1d7e2, 0x1d7ec, 0x1d7f6, 0x1e140, 0x1e2f0, 0x1e950, 0x1fbf0]

def digitValue (c : Char) : Option ℕ :=
  zeroDigits.findSome? fun z =>
    if z ≤ c.toNat ∧ c.toNat < z + 10 then some (c.toNat - z) else none

/-- `str.isspace` of one character. -/
def isSpace (c : Char) : Bool :=
  let n := c.toNat
  (0x9 ≤ n && n ≤ 0xd) || (0x1c ≤ n && n ≤ 0x20) || n == 0x85 || n == 0xa0 || n == 0x1680 ||
    (0x2000 ≤ n && n ≤ 0x200a) || n == 0x2028 || n == 0x2029 || n == 0x202f || n == 0x205f ||
    n == 0x3000

def strip (s : List Char) : List Char :=
  ((s.dropWhile isSpace).reverse.dropWhile isSpace).reverse

def digits : List Char → Option (List ℕ)
  | [] => none
  | [c] => (digitValue c).map ([·])
  | c :: '_' :: cs => do
    let d ← digitValue c
    let ds ← digits cs
    return d :: ds
  | c :: cs => do
    let d ← digitValue c
    let ds ← digits cs
    return d :: ds

/-- The most digits `int()` reads from a text. -/
def maxStrDigits : ℕ := 4300

def natOfText (s : List Char) : Option ℕ := do
  let ds ← digits s
  guard (ds.length ≤ maxStrDigits)
  return ds.foldl (fun n d => 10 * n + d) 0

/-- `int(s)` of a text; `none` is `ValueError`. -/
def intOfText (s : List Char) : Option ℤ :=
  match strip s with
  | '-' :: cs => (natOfText cs).map fun n => -(n : ℤ)
  | '+' :: cs => (natOfText cs).map fun n => (n : ℤ)
  | cs => (natOfText cs).map fun n => (n : ℤ)

example : intOfText " 1_0 ".toList = some 10 := by decide

/-- `s < t` of texts: by the code points, the first difference decides. -/
def textLt : List Char → List Char → Bool
  | _, [] => false
  | [], _ :: _ => true
  | c :: s, d :: t => if c = d then textLt s t else c.toNat < d.toNat

/-! ### Coercions -/

namespace Value

/-- `bool(x)`. -/
def truthy : Value → Bool
  | null => false
  | bool b => b
  | int i => i ≠ 0
  | float q => q ≠ 0
  | str s => s ≠ ""
  | list xs => !xs.isEmpty
  | dict kvs => !kvs.isEmpty

/-- `x or y`. -/
def orElse (x y : Value) : Value :=
  if x.truthy then x else y

@[simp] theorem truthy_null : null.truthy = false := rfl

@[simp] theorem orElse_null (y : Value) : null.orElse y = y := rfl

/-- The entry of a dict, `null` where the key is missing. -/
def lookup (kvs : List (String × Value)) (key : String) : Value :=
  ((kvs.find? (·.1 = key)).map (·.2)).getD null

/-- `x.get(key)`. -/
def get (x : Value) (key : String) : Except PyError Value :=
  match x with
  | dict kvs => .ok (lookup kvs key)
  | _ => .error .attributeError

/-- `x[key]` of a dict key. -/
def item (x : Value) (key : String) : Except PyError Value :=
  match x with
  | dict kvs => ((kvs.find? (·.1 = key)).map (·.2)).elim (.error .keyError) .ok
  | _ => .error .typeError

/-- `int(x)`. -/
def toInt : Value → Except PyError ℤ
  | bool b => .ok (if b then 1 else 0)
  | int i => .ok i
  | float q => .ok (q.num.tdiv q.den)
  | str s => (intOfText s.toList).elim (.error .valueError) .ok
  | null | list _ | dict _ => .error .typeError

def key : Value → Except PyError Scalar
  | null => .ok .null
  | bool b => .ok (.num (if b then 1 else 0))
  | int i => .ok (.num i)
  | float q => .ok (.num q)
  | str s => .ok (.str s)
  | list _ | dict _ => .error .typeError

mutual

/-- `x == y`. -/
def equal : Value → Value → Bool
  | list xs, list ys => equalList xs ys
  | dict kvs, dict kvs' => kvs.length = kvs'.length && equalEntries kvs kvs'
  | x, y =>
    match x.key, y.key with
    | .ok a, .ok b => a = b
    | _, _ => false

def equalList : List Value → List Value → Bool
  | [], [] => true
  | x :: xs, y :: ys => equal x y && equalList xs ys
  | _, _ => false

def equalEntries : List (String × Value) → List (String × Value) → Bool
  | [], _ => true
  | (k, x) :: kvs, kvs' =>
    (match kvs'.find? (·.1 = k) with
    | none => false
    | some entry => equal x entry.2) && equalEntries kvs kvs'

end

example : equal (list [bool true]) (list [int 1]) = true := by decide +kernel

end Value

def Scalar.toValue : Scalar → Value
  | .null => .null
  | .num q => .float q
  | .str s => .str s

theorem toString_ne_empty (n : ℕ) : toString n ≠ "" := by
  intro h
  have h_list := congrArg String.toList h
  rw [Nat.toString_eq_ofList_toDigits, String.toList_ofList] at h_list
  exact Nat.toDigits_ne_nil h_list

/-! ### `dict.fromkeys` -/

/-- `list(dict.fromkeys(xs))` of hashable values. -/
def fromKeys {α : Type*} [DecidableEq α] (xs : List α) : List α :=
  xs.eraseDups

section FromKeys

variable {α : Type*} [DecidableEq α] {x : α} {xs : List α}

@[simp] theorem mem_fromKeys : x ∈ fromKeys xs ↔ x ∈ xs := by
  simp [fromKeys]

theorem nodup_fromKeys (xs : List α) : (fromKeys xs).Nodup := by
  -- what follows the first element is the deduplication of a shorter list
  induction h_len : xs.length using Nat.strong_induction_on generalizing xs with
  | _ n ih =>
    cases xs with
    | nil => exact List.nodup_nil
    | cons x xs =>
      have h_shorter : (xs.filter fun y => !y == x).length < n := by
        have h_le := List.length_filter_le (fun y => !y == x) xs
        rw [List.length_cons] at h_len
        omega
      unfold fromKeys at ih ⊢
      rw [List.eraseDups_cons, List.nodup_cons]
      refine ⟨?_, ih _ h_shorter _ rfl⟩
      intro h_mem
      have h_filtered : x ∈ xs.filter fun y => !y == x := mem_fromKeys.mp h_mem
      simp at h_filtered

theorem fromKeys_eq_nil : fromKeys xs = [] ↔ xs = [] := by
  constructor
  · intro h
    refine List.eq_nil_iff_forall_not_mem.mpr fun y h_mem => ?_
    rw [← mem_fromKeys, h] at h_mem
    exact absurd h_mem (List.not_mem_nil)
  · rintro rfl
    rfl

theorem fromKeys_concat (xs : List α) (x : α) :
    fromKeys (xs ++ [x]) = if x ∈ xs then fromKeys xs else fromKeys xs ++ [x] := by
  rw [fromKeys, fromKeys, List.eraseDups_append]
  split_ifs with h
  · simp [List.removeAll, h]
  · simp [List.removeAll, h, List.eraseDups_cons]

end FromKeys

/-- `list(dict.fromkeys(xs))` of JSON values. -/
def fromKeysValue (xs : List Value) : Except PyError (List Scalar) :=
  (xs.mapM Value.key).map fromKeys

theorem fromKeysValue_ne_nil {x : Value} {xs : List Value} {ks : List Scalar}
    (h : fromKeysValue (x :: xs) = .ok ks) : ks ≠ [] := by
  unfold fromKeysValue at h
  rw [List.mapM_cons] at h
  cases h_key : x.key with
  | error e =>
    rw [h_key] at h
    cases h
  | ok k =>
    cases h_rest : xs.mapM Value.key with
    | error e =>
      rw [h_key, h_rest] at h
      cases h
    | ok rest =>
      rw [h_key, h_rest] at h
      have h_eq : fromKeys (k :: rest) = ks := Except.ok.inj h
      rw [← h_eq, ne_eq, fromKeys_eq_nil]
      exact List.cons_ne_nil k rest

end Py
