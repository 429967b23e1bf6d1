import BkLite.Framework.Collect
import BkLite.Framework.Numerals
import BkLite.Framework.TupleText

/-!
# JSON texts with sorted keys

`json.dumps(v, ensure_ascii=False, sort_keys=True, separators=(",", ":"))`: the entries of each dict
are sorted by their keys (`canon`), and what comes out is printed (`dump`). The text tells where
each of its parts ends, so that values with the same text are the same up to the order of their
entries (`dumps_inj`); what follows a text only must not go on with a number (`dump_append`).

The text of a float is a parameter with what is relied on: it can be read back, and it is not the
text of an integer.
-/

namespace Py

def isNumeric (c : Char) : Bool := c.isDigit || c = '-' || c = '+' || c = '.' || c = 'e'

/-- `float.__repr__` of the finite floats. -/
structure FloatText where
  text : ℚ → List Char
  injective : Function.Injective text
  numeric : ∀ q, ∀ c ∈ text q, isNumeric c = true
  pointed : ∀ q, '.' ∈ text q ∨ 'e' ∈ text q

/-! ### Printing -/

def shortEscapes : List (Char × Char) :=
  [('"', '"'), ('\\', '\\'), ('\n', 'n'), ('\r', 'r'), ('\t', 't'), ('\x08', 'b'), ('\x0c', 'f')]

def jsonEscape (c : Char) : List Char :=
  match shortEscapes.find? (·.1 = c) with
  | some e => ['\\', e.2]
  | none => if c.toNat < 0x20 then '\\' :: 'u' :: hexDigits 4 c.toNat else [c]

def jsonString (s : List Char) : List Char := '"' :: (s.flatMap jsonEscape ++ ['"'])

namespace Value

variable (ft : FloatText)

mutual

def dump : Value → List Char
  | null => ['n', 'u', 'l', 'l']
  | bool true => ['t', 'r', 'u', 'e']
  | bool false => ['f', 'a', 'l', 's', 'e']
  | int i => intRepr i
  | float q => ft.text q
  | str s => jsonString s.toList
  | list xs => '[' :: dumpList xs
  | dict kvs => '{' :: dumpEntries kvs

def dumpList : List Value → List Char
  | [] => [']']
  | x :: xs => dump x ++ dumpMore xs

def dumpMore : List Value → List Char
  | [] => [']']
  | x :: xs => ',' :: (dump x ++ dumpMore xs)

def dumpEntries : List (String × Value) → List Char
  | [] => ['}']
  | (k, x) :: kvs => jsonString k.toList ++ ':' :: (dump x ++ dumpMoreEntries kvs)

def dumpMoreEntries : List (String × Value) → List Char
  | [] => ['}']
  | (k, x) :: kvs => ',' :: (jsonString k.toList ++ ':' :: (dump x ++ dumpMoreEntries kvs))

end

mutual

def canon : Value → Value
  | list xs => list (canonList xs)
  | dict kvs => dict ((canonEntries kvs).mergeSort fun e e' => !textLt e'.1.toList e.1.toList)
  | v => v

def canonList : List Value → List Value
  | [] => []
  | x :: xs => canon x :: canonList xs

def canonEntries : List (String × Value) → List (String × Value)
  | [] => []
  | (k, x) :: kvs => (k, canon x) :: canonEntries kvs

end

def Same (v w : Value) : Prop := v.canon = w.canon

def dumps (v : Value) : List Char := v.canon.dump ft

end Value

/-! ### Strings end at their quote -/

section Strings

variable {c d : Char} {s t x y : List Char}

theorem mem_shortEscapes {e : Char × Char} (h : shortEscapes.find? (·.1 = c) = some e) :
    (c, e.2) ∈ shortEscapes := by
  have h_key := List.find?_some h
  have h_mem := List.mem_of_find?_eq_some h
  rwa [← of_decide_eq_true h_key]

theorem jsonEscape_append (h : jsonEscape c ++ x = jsonEscape d ++ y) : c = d ∧ x = y := by
  have h_short : ∀ p ∈ shortEscapes, p.2 ≠ 'u' ∧ ∀ q ∈ shortEscapes, p.2 = q.2 → p.1 = q.1 :=
    List.forall_of_all (by decide)
  have h_hex : ∀ n < 0x20, ∀ m < 0x20, hexDigits 4 n = hexDigits 4 m → n = m := by decide +kernel
  have h_plain : ∀ {a : Char}, shortEscapes.find? (·.1 = a) = none → a ≠ '\\' := by
    rintro a h_none rfl
    exact absurd h_none (by decide)
  unfold jsonEscape at h
  cases h_c : shortEscapes.find? (·.1 = c) with
  | some e =>
    cases h_d : shortEscapes.find? (·.1 = d) with
    | some e' =>
      simp only [h_c, h_d, List.cons_append, List.nil_append, List.cons.injEq, true_and] at h
      exact ⟨(h_short _ (mem_shortEscapes h_c)).2 _ (mem_shortEscapes h_d) h.1, h.2⟩
    | none =>
      have h_e := (h_short _ (mem_shortEscapes h_c)).1
      simp only [h_c, h_d] at h
      split_ifs at h with h_low
      · simp only [List.cons_append, List.cons.injEq, true_and] at h
        exact absurd h.1 h_e
      · simp only [List.cons_append, List.cons.injEq] at h
        exact absurd h.1.symm (h_plain h_d)
  | none =>
    cases h_d : shortEscapes.find? (·.1 = d) with
    | some e' =>
      have h_e := (h_short _ (mem_shortEscapes h_d)).1
      simp only [h_c, h_d] at h
      split_ifs at h with h_low
      · simp only [List.cons_append, List.cons.injEq, true_and] at h
        exact absurd h.1.symm h_e
      · simp only [List.cons_append, List.cons.injEq] at h
        exact absurd h.1 (h_plain h_c)
    | none =>
      simp only [h_c, h_d] at h
      split_ifs at h with h_low h_low'
      · simp only [List.cons_append, List.cons.injEq, true_and] at h
        obtain ⟨h_digits, h_rest⟩ := List.append_inj h rfl
        exact ⟨Char.toNat_inj.mp (h_hex _ h_low _ h_low' h_digits), h_rest⟩
      · simp only [List.cons_append, List.cons.injEq] at h
        exact absurd h.1.symm (h_plain h_d)
      · simp only [List.cons_append, List.cons.injEq] at h
        exact absurd h.1 (h_plain h_c)
      · simp only [List.cons_append, List.nil_append, List.cons.injEq] at h
        exact h

theorem jsonEscape_ne_quote (c : Char) (x y : List Char) : jsonEscape c ++ x ≠ '"' :: y := by
  intro h
  unfold jsonEscape at h
  cases h_c : shortEscapes.find? (·.1 = c) with
  | some e => simp [h_c] at h
  | none =>
    simp only [h_c] at h
    split_ifs at h with h_low
    · simp at h
    · simp only [List.cons_append, List.cons.injEq] at h
      rw [h.1] at h_c
      exact absurd h_c (by decide)

theorem jsonString_append (h : jsonString s ++ x = jsonString t ++ y) : s = t ∧ x = y := by
  unfold jsonString at h
  simp only [List.cons_append, List.cons.injEq, true_and, List.append_assoc, List.nil_append] at h
  induction s generalizing t with
  | nil =>
    cases t with
    | nil =>
      simp only [List.flatMap_nil, List.nil_append, List.cons.injEq, true_and] at h
      exact ⟨rfl, h⟩
    | cons d t =>
      simp only [List.flatMap_nil, List.nil_append, List.flatMap_cons, List.append_assoc] at h
      exact absurd h.symm (jsonEscape_ne_quote d _ _)
  | cons c s ih =>
    cases t with
    | nil =>
      simp only [List.flatMap_nil, List.nil_append, List.flatMap_cons, List.append_assoc] at h
      exact absurd h (jsonEscape_ne_quote c _ _)
    | cons d t =>
      simp only [List.flatMap_cons, List.append_assoc] at h
      obtain ⟨rfl, h_rest⟩ := jsonEscape_append h
      obtain ⟨rfl, h_end⟩ := ih h_rest
      exact ⟨rfl, h_end⟩

end Strings

/-! ### Numbers end where no more digits come -/

section Numbers

variable {c : Char} {s t x y : List Char}

def Ends (x : List Char) : Prop := ∀ c ∈ x.head?, isNumeric c = false

theorem numeric_append (h_s : ∀ c ∈ s, isNumeric c = true) (h_t : ∀ c ∈ t, isNumeric c = true)
    (h_x : Ends x) (h_y : Ends y) (h : s ++ x = t ++ y) : s = t ∧ x = y := by
  have h_while : ∀ {s x : List Char}, (∀ c ∈ s, isNumeric c = true) → Ends x →
      (s ++ x).takeWhile isNumeric = s := by
    intro s x h_s h_x
    rw [List.takeWhile_append_of_pos h_s]
    cases x with
    | nil => simp
    | cons c x => rw [List.takeWhile_cons_of_neg (by rw [h_x c rfl]; simp), List.append_nil]
  have h_eq : s = t := by rw [← h_while h_s h_x, h, h_while h_t h_y]
  rw [h_eq] at h
  exact ⟨h_eq, List.append_cancel_left h⟩

theorem isDigit_or_of_mem_intRepr {i : ℤ} (h : c ∈ intRepr i) : c.isDigit = true ∨ c = '-' := by
  cases i with
  | ofNat n => exact .inl (isDigit_of_mem_decimal h)
  | negSucc n =>
    obtain rfl | h := List.mem_cons.mp h
    · exact .inr rfl
    · exact .inl (isDigit_of_mem_decimal h)

theorem numeric_of_mem_intRepr {i : ℤ} (h : c ∈ intRepr i) : isNumeric c = true := by
  obtain h_digit | rfl := isDigit_or_of_mem_intRepr h
  · simp [isNumeric, h_digit]
  · decide

theorem decimal_injective : Function.Injective decimal := by
  intro n m h
  have h_read := congrArg (Nat.ofDigitChars 10 · 0) h
  simpa [decimal, Nat.ofDigitChars_ten_toDigits] using h_read

theorem intRepr_injective : Function.Injective intRepr := by
  have h_sign : ∀ n (cs : List Char), decimal n ≠ '-' :: cs := by
    intro n cs h
    have h_digit := @isDigit_of_mem_decimal n '-' (by rw [h]; exact List.mem_cons_self)
    exact absurd h_digit (by decide)
  intro i j h
  cases i with
  | ofNat n =>
    cases j with
    | ofNat m => exact congrArg Int.ofNat (decimal_injective h)
    | negSucc m => exact absurd h (h_sign n _)
  | negSucc n =>
    cases j with
    | ofNat m => exact absurd h.symm (h_sign m _)
    | negSucc m =>
      have h_eq := decimal_injective (List.cons.inj h).2
      exact congrArg Int.negSucc (Nat.succ.inj h_eq)

theorem intRepr_ne_nil (i : ℤ) : intRepr i ≠ [] := by
  cases i with
  | ofNat n => exact Nat.toDigits_ne_nil
  | negSucc n => exact List.cons_ne_nil _ _

theorem FloatText.ne_nil (ft : FloatText) (q : ℚ) : ft.text q ≠ [] := by
  intro h
  have h_point := ft.pointed q
  rw [h] at h_point
  simp at h_point

theorem FloatText.ne_intRepr (ft : FloatText) (q : ℚ) (i : ℤ) : ft.text q ≠ intRepr i := by
  intro h
  have h_point := ft.pointed q
  rw [h] at h_point
  obtain h_mem | h_mem := h_point
  all_goals
    obtain h_digit | h_sign := isDigit_or_of_mem_intRepr h_mem
    · exact absurd h_digit (by decide)
    · exact absurd h_sign (by decide)

end Numbers

/-! ### A text tells its value -/

namespace Value

variable {ft : FloatText} {v w : Value} {x y : List Char}

/-- What the first character of a text says of its value, if it starts one. -/
inductive Kind
  | none
  | null
  | true
  | false
  | number
  | str
  | list
  | dict
deriving DecidableEq

def kind : Value → Kind
  | .null => .null
  | bool b => if b then .true else .false
  | int _ => .number
  | float _ => .number
  | str _ => .str
  | list _ => .list
  | dict _ => .dict

def kindOf (c : Char) : Kind :=
  if c = 'n' then .null
  else if c = 't' then .true
  else if c = 'f' then .false
  else if c = '"' then .str
  else if c = '[' then .list
  else if c = '{' then .dict
  else if isNumeric c then .number
  else .none

theorem kindOf_numeric {c : Char} (h : isNumeric c = true) : kindOf c = .number := by
  unfold kindOf
  split_ifs
  all_goals first
    | rfl
    | subst_vars
      exact absurd h (by decide)

theorem head_dump (v : Value) (x : List Char) :
    ((v.dump ft ++ x).head?).map kindOf = some v.kind := by
  have h_number : ∀ s : List Char, s ≠ [] → (∀ c ∈ s, isNumeric c = true) →
      ((s ++ x).head?).map kindOf = some .number := by
    intro s h_ne h_s
    obtain ⟨c, cs, rfl⟩ := List.exists_cons_of_ne_nil h_ne
    exact congrArg some (kindOf_numeric (h_s c List.mem_cons_self))
  cases v with
  | null => rfl
  | bool b => cases b <;> rfl
  | int i => exact h_number _ (intRepr_ne_nil i) fun c => numeric_of_mem_intRepr
  | float q => exact h_number _ (ft.ne_nil q) (ft.numeric q)
  | str s => rfl
  | list xs => rfl
  | dict kvs => rfl

theorem kind_eq (h : v.dump ft ++ x = w.dump ft ++ y) : v.kind = w.kind := by
  have h_v := @head_dump ft v x
  rw [h, head_dump] at h_v
  exact (Option.some.inj h_v).symm

theorem ends_dumpMore (xs : List Value) (x : List Char) : Ends (dumpMore ft xs ++ x) := by
  cases xs <;> simp [Ends, dumpMore, isNumeric, Char.isDigit]

theorem ends_dumpMoreEntries (kvs : List (String × Value)) (x : List Char) :
    Ends (dumpMoreEntries ft kvs ++ x) := by
  cases kvs <;> simp [Ends, dumpMoreEntries, isNumeric, Char.isDigit]

mutual

theorem dump_append (v w : Value) (x y : List Char) (h_x : Ends x) (h_y : Ends y)
    (h : v.dump ft ++ x = w.dump ft ++ y) : v = w ∧ x = y := by
  have h_kind := kind_eq h
  cases v with
  | null =>
    cases w with
    | null => exact ⟨rfl, List.append_cancel_left h⟩
    | bool b => cases b <;> cases h_kind
    | _ => cases h_kind
  | bool b =>
    cases w with
    | bool b' =>
      cases b <;> cases b'
      · exact ⟨rfl, List.append_cancel_left h⟩
      · cases h_kind
      · cases h_kind
      · exact ⟨rfl, List.append_cancel_left h⟩
    | _ => cases b <;> cases h_kind
  | int i =>
    cases w with
    | int j =>
      obtain ⟨h_text, h_rest⟩ := numeric_append (fun c => numeric_of_mem_intRepr)
        (fun c => numeric_of_mem_intRepr) h_x h_y h
      exact ⟨congrArg int (intRepr_injective h_text), h_rest⟩
    | float q =>
      obtain ⟨h_text, -⟩ := numeric_append (fun c => numeric_of_mem_intRepr)
        (ft.numeric q) h_x h_y h
      exact absurd h_text.symm (ft.ne_intRepr q i)
    | bool b => cases b <;> cases h_kind
    | _ => cases h_kind
  | float q =>
    cases w with
    | int i =>
      obtain ⟨h_text, -⟩ := numeric_append (ft.numeric q)
        (fun c => numeric_of_mem_intRepr) h_x h_y h
      exact absurd h_text (ft.ne_intRepr q i)
    | float q' =>
      obtain ⟨h_text, h_rest⟩ := numeric_append (ft.numeric q) (ft.numeric q') h_x h_y h
      exact ⟨congrArg float (ft.injective h_text), h_rest⟩
    | bool b => cases b <;> cases h_kind
    | _ => cases h_kind
  | str s =>
    cases w with
    | str t =>
      obtain ⟨h_text, h_rest⟩ := jsonString_append h
      exact ⟨congrArg str (String.toList_injective h_text), h_rest⟩
    | bool b => cases b <;> cases h_kind
    | _ => cases h_kind
  | list xs =>
    cases w with
    | list ys =>
      obtain ⟨rfl, h_rest⟩ := dumpList_append xs ys x y (List.cons.inj h).2
      exact ⟨rfl, h_rest⟩
    | bool b => cases b <;> cases h_kind
    | _ => cases h_kind
  | dict kvs =>
    cases w with
    | dict kvs' =>
      obtain ⟨rfl, h_rest⟩ := dumpEntries_append kvs kvs' x y (List.cons.inj h).2
      exact ⟨rfl, h_rest⟩
    | bool b => cases b <;> cases h_kind
    | _ => cases h_kind
termination_by structural v

theorem dumpList_append (xs ys : List Value) (x y : List Char)
    (h : dumpList ft xs ++ x = dumpList ft ys ++ y) : xs = ys ∧ x = y := by
  have h_end : ∀ (v : Value) (r r' : List Char), dump ft v ++ r ≠ ']' :: r' := by
    intro v r r' h_eq
    have h_head := @head_dump ft v r
    rw [h_eq] at h_head
    have h_kind := (Option.some.inj h_head).symm
    cases v with
    | bool b => cases b <;> cases h_kind
    | _ => cases h_kind
  cases xs with
  | nil =>
    cases ys with
    | nil => exact ⟨rfl, (List.cons.inj h).2⟩
    | cons w ws =>
      rw [dumpList, dumpList, List.append_assoc] at h
      exact absurd h.symm (h_end w _ _)
  | cons v vs =>
    cases ys with
    | nil =>
      rw [dumpList, dumpList, List.append_assoc] at h
      exact absurd h (h_end v _ _)
    | cons w ws =>
      rw [dumpList, dumpList, List.append_assoc, List.append_assoc] at h
      obtain ⟨rfl, h_more⟩ := dump_append v w _ _ (ends_dumpMore vs x) (ends_dumpMore ws y) h
      obtain ⟨rfl, h_rest⟩ := dumpMore_append vs ws x y h_more
      exact ⟨rfl, h_rest⟩
termination_by structural xs

theorem dumpMore_append (xs ys : List Value) (x y : List Char)
    (h : dumpMore ft xs ++ x = dumpMore ft ys ++ y) : xs = ys ∧ x = y := by
  cases xs with
  | nil =>
    cases ys with
    | nil => exact ⟨rfl, (List.cons.inj h).2⟩
    | cons w ws => exact absurd (List.cons.inj h).1 (by decide)
  | cons v vs =>
    cases ys with
    | nil => exact absurd (List.cons.inj h).1 (by decide)
    | cons w ws =>
      have h_both : dump ft v ++ dumpMore ft vs ++ x = dump ft w ++ dumpMore ft ws ++ y :=
        (List.cons.inj h).2
      rw [List.append_assoc, List.append_assoc] at h_both
      obtain ⟨rfl, h_more⟩ := dump_append v w _ _ (ends_dumpMore vs x) (ends_dumpMore ws y) h_both
      obtain ⟨rfl, h_rest⟩ := dumpMore_append vs ws x y h_more
      exact ⟨rfl, h_rest⟩
termination_by structural xs

theorem dumpEntries_append (kvs kvs' : List (String × Value)) (x y : List Char)
    (h : dumpEntries ft kvs ++ x = dumpEntries ft kvs' ++ y) : kvs = kvs' ∧ x = y := by
  cases kvs with
  | nil =>
    cases kvs' with
    | nil => exact ⟨rfl, (List.cons.inj h).2⟩
    | cons e es => exact absurd (List.cons.inj h).1 (by decide)
  | cons e es =>
    obtain ⟨k, v⟩ := e
    cases kvs' with
    | nil => exact absurd (List.cons.inj h).1 (by decide)
    | cons e' es' =>
      obtain ⟨k', w⟩ := e'
      simp only [dumpEntries, List.append_assoc, List.cons_append] at h
      obtain ⟨h_key, h_value⟩ := jsonString_append h
      obtain ⟨rfl, h_more⟩ := dump_append v w _ _ (ends_dumpMoreEntries es x)
        (ends_dumpMoreEntries es' y) (List.cons.inj h_value).2
      obtain ⟨rfl, h_rest⟩ := dumpMoreEntries_append es es' x y h_more
      rw [String.toList_injective h_key]
      exact ⟨rfl, h_rest⟩
termination_by structural kvs

theorem dumpMoreEntries_append (kvs kvs' : List (String × Value)) (x y : List Char)
    (h : dumpMoreEntries ft kvs ++ x = dumpMoreEntries ft kvs' ++ y) : kvs = kvs' ∧ x = y := by
  cases kvs with
  | nil =>
    cases kvs' with
    | nil => exact ⟨rfl, (List.cons.inj h).2⟩
    | cons e es => exact absurd (List.cons.inj h).1 (by decide)
  | cons e es =>
    obtain ⟨k, v⟩ := e
    cases kvs' with
    | nil => exact absurd (List.cons.inj h).1 (by decide)
    | cons e' es' =>
      obtain ⟨k', w⟩ := e'
      simp only [dumpMoreEntries, List.append_assoc, List.cons_append] at h
      obtain ⟨h_key, h_value⟩ := jsonString_append (List.cons.inj h).2
      obtain ⟨rfl, h_more⟩ := dump_append v w _ _ (ends_dumpMoreEntries es x)
        (ends_dumpMoreEntries es' y) (List.cons.inj h_value).2
      obtain ⟨rfl, h_rest⟩ := dumpMoreEntries_append es es' x y h_more
      rw [String.toList_injective h_key]
      exact ⟨rfl, h_rest⟩
termination_by structural kvs

end

theorem dumps_inj : v.dumps ft = w.dumps ft ↔ v.Same w := by
  have h_end : Ends [] := fun c h => by cases h
  refine ⟨fun h => ?_, fun h => congrArg (dump ft) h⟩
  have h_text : v.canon.dump ft ++ [] = w.canon.dump ft ++ [] := congrArg (· ++ []) h
  exact (dump_append v.canon w.canon [] [] h_end h_end h_text).1

end Value

end Py
