/-!
# Decimal numerals

The decimal text of a natural number or an integer, and the number that a run of
digits denotes. A numeral is canonical when it has no leading zero; exactly the
canonical numerals are the digits of numbers (`digits_value`, `isCanonical_digits`).
-/

namespace DocPath.Numeral

/-- The decimal digits, the most significant first. -/
def digits (n : Nat) : List Char :=
  Nat.toDigits 10 n

/-- The number that a run of digits denotes. -/
def value (cs : List Char) : Nat :=
  Nat.ofDigitChars 10 cs 0

/-- The number of decimal digits. -/
def length (n : Nat) : Nat :=
  (digits n).length

/-- A minus sign stands before the digits of a negative number. -/
def ofInt (n : Int) : List Char :=
  if n < 0 then '-' :: digits n.natAbs else digits n.natAbs

/-- The integer denoted by digits with an optional minus sign before them. -/
def intValue : List Char → Int
  | '-' :: cs => -value cs
  | cs => value cs

/-- One or more digits, the first of them zero only if it stands alone. -/
def isCanonical : List Char → Bool
  | [] => false
  | c :: cs => (c ≠ '0' || cs = []) && (c :: cs).all Char.isDigit

def text (n : Nat) : String :=
  String.ofList (digits n)

def intText (n : Int) : String :=
  String.ofList (ofInt n)

theorem intText_natCast (n : Nat) : intText n = text n := by
  rw [intText, ofInt, if_neg (Int.not_lt.mpr (Int.natCast_nonneg n)), Int.natAbs_natCast]
  rfl

@[simp] theorem value_digits (n : Nat) : value (digits n) = n :=
  Nat.ofDigitChars_ten_toDigits

theorem isDigit_of_mem_digits {n : Nat} {c : Char} (h : c ∈ digits n) : c.isDigit = true :=
  Nat.isDigit_of_mem_toDigits (by decide) (by decide) h

theorem digitValue_lt {c : Char} (h : c.isDigit = true) : c.toNat - '0'.toNat < 10 := by
  have := Char.isDigit_iff_toNat.1 h
  simp only [Char.reduceToNat] at this ⊢
  omega

theorem toDigits_digitValue {c : Char} (h : c.isDigit = true) :
    Nat.toDigits 10 (c.toNat - '0'.toNat) = [c] := by
  have hlt := digitValue_lt h
  have hc := Char.isDigit_iff_toNat.1 h
  rw [Nat.toDigits_of_lt_base hlt]
  congr 1
  apply Char.toNat_inj.1
  rw [Nat.toNat_digitChar_of_lt_ten hlt]
  simp only [Char.reduceToNat] at hc ⊢
  omega

/-- More digits behind those of a positive number. -/
theorem toDigits_append (cs : List Char) (n : Nat) (hn : 0 < n) (h : cs.all Char.isDigit = true) :
    Nat.toDigits 10 n ++ cs = Nat.toDigits 10 (Nat.ofDigitChars 10 cs n) := by
  induction cs generalizing n with
  | nil => simp
  | cons c cs ih =>
    simp only [List.all_cons, Bool.and_eq_true] at h
    have hc := digitValue_lt h.1
    rw [Nat.ofDigitChars_cons, ← ih _ (by omega) h.2,
      ← Nat.toDigits_append_toDigits (by decide) hn hc, toDigits_digitValue h.1]
    simp

/-- A canonical numeral is the text of its number. -/
theorem digits_value {cs : List Char} (h : isCanonical cs = true) : digits (value cs) = cs := by
  match cs with
  | [] => simp [isCanonical] at h
  | c :: cs =>
    simp only [isCanonical, Bool.and_eq_true, Bool.or_eq_true, decide_eq_true_eq,
      List.all_cons] at h
    obtain ⟨hz, hc, hcs⟩ := h
    by_cases hnil : cs = []
    · subst hnil
      simpa [digits, value, Nat.ofDigitChars_cons] using toDigits_digitValue hc
    · have hpos : 0 < c.toNat - '0'.toNat := by
        have hne : c ≠ '0' := hz.resolve_right hnil
        have hge := Char.isDigit_iff_toNat.1 hc
        have : c.toNat ≠ 48 := fun e => hne (Char.toNat_inj.1 e)
        simp only [Char.reduceToNat] at hge ⊢
        omega
      unfold digits value
      rw [Nat.ofDigitChars_cons, Nat.mul_zero, Nat.zero_add, ← toDigits_append cs _ hpos hcs,
        toDigits_digitValue hc]
      simp

theorem digits_eq (n : Nat) :
    digits n = if n < 10 then [Nat.digitChar n] else digits (n / 10) ++ [Nat.digitChar (n % 10)] :=
  Nat.toDigits_eq_if (by decide)

/-- Only zero has the digit zero in front. -/
theorem head_digits (n : Nat) (hn : 0 < n) : (digits n).head? ≠ some '0' := by
  induction n using Nat.strongRecOn with
  | ind n ih =>
    rw [digits_eq]
    split
    · simp
      omega
    · have h := ih (n / 10) (by omega) (by omega)
      have hne : digits (n / 10) ≠ [] := Nat.toDigits_ne_nil
      revert h hne
      cases digits (n / 10) <;> simp

/-- The text of a number is canonical. -/
theorem isCanonical_digits (n : Nat) : isCanonical (digits n) = true := by
  have hall : (digits n).all Char.isDigit = true :=
    List.all_eq_true.2 fun _ => isDigit_of_mem_digits
  by_cases hn : n = 0
  · subst hn
    decide
  · have hhead := head_digits n (by omega)
    have hne : digits n ≠ [] := Nat.toDigits_ne_nil
    revert hall hhead hne
    cases digits n with
    | nil => simp
    | cons c cs =>
      intro hall hhead _
      simp_all [isCanonical]

end DocPath.Numeral
