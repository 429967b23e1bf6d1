import BkLite.Framework.Value

/-!
# Numbers in a text

What `str` prints of an integer `int` reads back, if it has no more digits than that
(`intOfText_repr`).
-/

namespace Py

def decimal (n : ℕ) : List Char := Nat.toDigits 10 n

/-- `str(i)` of an integer. -/
def intRepr : ℤ → List Char
  | .ofNat n => decimal n
  | .negSucc n => '-' :: decimal (n + 1)

theorem isDigit_of_mem_decimal {n : ℕ} {c : Char} (h : c ∈ decimal n) : c.isDigit = true :=
  Nat.isDigit_of_mem_toDigits (by decide) (by decide) h

theorem toString_injective {m n : ℕ} (h : toString m = toString n) : m = n := by
  have h_value := congrArg (fun text => Nat.ofDigitChars 10 text.toList 0) h
  simpa [Nat.toString_eq_ofList_toDigits] using h_value

theorem digitValue_of_isDigit {c : Char} (h : c.isDigit = true) :
    digitValue c = some (c.toNat - '0'.toNat) := by
  rw [Char.isDigit_iff_toNat] at h
  unfold digitValue zeroDigits
  rw [List.findSome?_cons, if_pos ⟨h.1, Nat.lt_succ_of_le h.2⟩]
  rfl

theorem isSpace_of_isDigit {c : Char} (h : c.isDigit = true) : isSpace c = false := by
  rw [Char.isDigit_iff_toNat] at h
  have h_low : '0'.toNat = 48 := rfl
  have h_high : '9'.toNat = 57 := rfl
  unfold isSpace
  simp only [Bool.or_eq_false_iff, Bool.and_eq_false_iff, decide_eq_false_iff_not,
    beq_eq_false_iff_ne]
  omega

theorem digits_of_isDigit {cs : List Char} (h_ne : cs ≠ []) (h : ∀ c ∈ cs, c.isDigit = true) :
    digits cs = some (cs.map fun c => c.toNat - '0'.toNat) := by
  induction cs with
  | nil => exact absurd rfl h_ne
  | cons c cs ih =>
    have h_c := digitValue_of_isDigit (h c List.mem_cons_self)
    have h_cs : ∀ d ∈ cs, d.isDigit = true := fun d h_d => h d (List.mem_cons_of_mem c h_d)
    cases cs with
    | nil =>
      unfold digits
      rw [h_c]
      rfl
    | cons d cs =>
      have h_d : d ≠ '_' := by
        rintro rfl
        exact absurd (h_cs '_' List.mem_cons_self) (by decide)
      have h_next : ∀ cs', d :: cs = '_' :: cs' → False := fun cs' h_eq =>
        h_d (List.cons.inj h_eq).1
      rw [digits.eq_4 c (d :: cs) (List.cons_ne_nil d cs) h_next, h_c,
        ih (List.cons_ne_nil d cs) h_cs]
      rfl

theorem natOfText_decimal {n : ℕ} (h : (decimal n).length ≤ maxStrDigits) :
    natOfText (decimal n) = some n := by
  have h_digits := @digits_of_isDigit (decimal n) Nat.toDigits_ne_nil fun c =>
    isDigit_of_mem_decimal
  unfold natOfText
  rw [h_digits]
  have h_value : ((decimal n).map fun c => c.toNat - '0'.toNat).foldl (fun n d => 10 * n + d) 0
      = n := by
    rw [List.foldl_map, ← Nat.ofDigitChars_eq_foldl]
    exact Nat.ofDigitChars_ten_toDigits
  show (guard (((decimal n).map _).length ≤ maxStrDigits) >>= fun _ => some _) = _
  rw [List.length_map, h_value]
  simp [h, guard]

theorem strip_of_ends {cs : List Char} (h_head : ∀ c ∈ cs.head?, isSpace c = false)
    (h_last : ∀ c ∈ cs.getLast?, isSpace c = false) : strip cs = cs := by
  have h_drop {l : List Char} (h : ∀ c ∈ l.head?, isSpace c = false) :
      l.dropWhile isSpace = l := by
    cases l with
    | nil => rfl
    | cons c l => rw [List.dropWhile_cons_of_neg (by rw [h c rfl]; exact Bool.false_ne_true)]
  unfold strip
  rw [h_drop h_head, h_drop, List.reverse_reverse]
  rwa [List.head?_reverse]

theorem strip_of_noSpace {cs : List Char} (h : ∀ c ∈ cs, isSpace c = false) : strip cs = cs :=
  strip_of_ends (fun c h_c => h c (List.mem_of_mem_head? h_c)) fun c h_c =>
    h c (List.mem_of_getLast? h_c)

theorem intOfText_repr {i : ℤ} (h : (decimal i.natAbs).length ≤ maxStrDigits) :
    intOfText (intRepr i) = some i := by
  cases i with
  | ofNat n =>
    have h_space : ∀ c ∈ decimal n, isSpace c = false := fun c h_c =>
      isSpace_of_isDigit (isDigit_of_mem_decimal h_c)
    unfold intOfText intRepr
    rw [strip_of_noSpace h_space]
    split
    · next cs h_eq =>
      have h_digit := @isDigit_of_mem_decimal n '-' (by rw [h_eq]; exact List.mem_cons_self)
      exact absurd h_digit (by decide)
    · next cs h_eq =>
      have h_digit := @isDigit_of_mem_decimal n '+' (by rw [h_eq]; exact List.mem_cons_self)
      exact absurd h_digit (by decide)
    · rw [show natOfText (decimal n) = some n from natOfText_decimal h]
      rfl
  | negSucc n =>
    have h_space : ∀ c ∈ '-' :: decimal (n + 1), isSpace c = false := by
      rintro c (_ | ⟨_, h_c⟩)
      · decide
      · exact isSpace_of_isDigit (isDigit_of_mem_decimal h_c)
    unfold intOfText intRepr
    rw [strip_of_noSpace h_space]
    show (natOfText (decimal (n + 1)) >>= fun a => pure (a : ℤ)).map (fun i => -i) = _
    rw [show natOfText (decimal (n + 1)) = some (n + 1) from natOfText_decimal h]
    rfl

end Py
