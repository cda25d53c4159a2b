import Mathlib.Data.List.Induction
import Mathlib.Data.Nat.Digits.Defs
import DocPath.Proofs.Path.Literal

/-!
# Strings that are list positions

A string denotes a list position if it is the decimal text of that position and the position has 64 bits,
and not otherwise (`Value.string_is_position_iff`). Decimal texts are given by a rule
(`Numeral.IsDecimalText`), which the printed numbers keep and no other texts do
(`Numeral.isDecimalText_iff`). The position of a string is also what one gets by reading its bytes, digit
by digit, into a word of 64 bits (`Numeral.readWord?`): bytes that are digits are characters that are
digits, and a number that has become too long for a word stays so.
-/

namespace DocPath

namespace Numeral

/-! ## Decimal texts -/

/-- The rule of decimal texts: digits and nothing else, a zero in front of no other digit, and each digit
worth ten times as much as in the place behind it. -/
structure IsDecimalText (cs : List Char) (n : Nat) : Prop where
  ne_nil : cs ≠ []
  digit : ∀ c ∈ cs, '0' ≤ c ∧ c ≤ '9'
  leading_zero : cs.head? = some '0' → cs = ['0']
  worth : n = Nat.ofDigits 10 (cs.reverse.map fun c => c.toNat - '0'.toNat)

theorem isDigit_iff {c : Char} : c.isDigit = true ↔ '0' ≤ c ∧ c ≤ '9' := by
  rw [Char.isDigit_iff_toNat, Char.le_def, Char.le_def]
  rfl

theorem value_eq_ofDigits (cs : List Char) :
    value cs = Nat.ofDigits 10 (cs.reverse.map fun c => c.toNat - '0'.toNat) := by
  induction cs using List.reverseRecOn with
  | nil => rfl
  | append_singleton cs c ih =>
      rw [List.reverse_append, List.reverse_singleton, List.singleton_append, List.map_cons,
        Nat.ofDigits_cons, ← ih, value, value, Nat.ofDigitChars, Nat.ofDigitChars, List.foldl_append]
      exact Nat.add_comm _ _

theorem isCanonical_iff {cs : List Char} :
    isCanonical cs = true ↔
      cs ≠ [] ∧ (∀ c ∈ cs, '0' ≤ c ∧ c ≤ '9') ∧ (cs.head? = some '0' → cs = ['0']) := by
  cases cs with
  | nil => simp [isCanonical]
  | cons c cs =>
      have hzero : (c ≠ '0' ∨ cs = []) ↔ (c = '0' → c = '0' ∧ cs = []) := by
        by_cases hc : c = '0' <;> simp [hc]
      simp only [isCanonical, Bool.and_eq_true, Bool.or_eq_true, decide_eq_true_eq, List.all_eq_true,
        isDigit_iff, List.head?_cons, Option.some.injEq, List.cons.injEq, hzero, ne_eq, reduceCtorEq,
        not_false_eq_true, true_and]
      exact and_comm

/-- A number is printed by the rule, and no other text is a text of it. -/
theorem isDecimalText_iff {cs : List Char} {n : Nat} : IsDecimalText cs n ↔ cs = digits n := by
  constructor
  · rintro ⟨hne, hdigit, hzero, hworth⟩
    rw [hworth, ← value_eq_ofDigits, digits_value (isCanonical_iff.mpr ⟨hne, hdigit, hzero⟩)]
  · rintro rfl
    obtain ⟨hne, hdigit, hzero⟩ := isCanonical_iff.mp (isCanonical_digits n)
    exact ⟨hne, hdigit, hzero, by rw [← value_eq_ofDigits, value_digits]⟩

/-! ## Digits as bytes -/

def isDigitByte (b : UInt8) : Bool := 48 ≤ b && b ≤ 57

/-- One or more digits, the first of them zero only if it stands alone. -/
def isCanonicalBytes : List UInt8 → Bool
  | [] => false
  | [48] => true
  | 48 :: _ => false
  | bytes => bytes.all isDigitByte

theorem isCanonicalBytes_cons (b : UInt8) (bs : List UInt8) :
    isCanonicalBytes (b :: bs) = ((b ≠ 48 || bs = []) && (b :: bs).all isDigitByte) := by
  by_cases hzero : b = 48
  · subst hzero
    cases bs with
    | nil => decide
    | cons b bs => simp [isCanonicalBytes]
  · simp [isCanonicalBytes, hzero]

theorem isDigitByte_ofNat {n : Nat} (h : n < 256) :
    isDigitByte (UInt8.ofNat n) = decide (48 ≤ n ∧ n ≤ 57) := by
  simp [isDigitByte, UInt8.le_iff_toNat_le, Nat.mod_eq_of_lt h]

theorem all_isDigitByte_of_first {n : Nat} (h : n < 256) (hn : ¬(48 ≤ n ∧ n ≤ 57)) (bs : List UInt8) :
    (UInt8.ofNat n :: bs).all isDigitByte = false := by
  rw [List.all_cons, isDigitByte_ofNat h, decide_eq_false hn, Bool.false_and]

theorem utf8EncodeChar_of_isDigit {c : Char} (h : c.isDigit = true) :
    String.utf8EncodeChar c = [UInt8.ofNat c.toNat] := by
  have hle : c.val.toNat ≤ 57 := (Char.isDigit_iff_toNat.mp h).2
  simp only [String.utf8EncodeChar]
  rw [if_pos (by omega)]
  rfl

/-- The first byte of a longer encoding is none of the first 128 bytes. -/
theorem all_utf8EncodeChar (c : Char) : (String.utf8EncodeChar c).all isDigitByte = c.isDigit := by
  cases hdigit : c.isDigit with
  | true =>
      have hrange : 48 ≤ c.toNat ∧ c.toNat ≤ 57 := Char.isDigit_iff_toNat.mp hdigit
      rw [utf8EncodeChar_of_isDigit hdigit, List.all_cons, isDigitByte_ofNat (by omega)]
      simp [hrange]
  | false =>
      have hrange : ¬(48 ≤ c.val.toNat ∧ c.val.toNat ≤ 57) := by
        intro h
        rw [Char.isDigit_iff_toNat.mpr h] at hdigit
        cases hdigit
      simp only [String.utf8EncodeChar]
      split_ifs
      all_goals exact all_isDigitByte_of_first (by omega) (by omega) _

theorem utf8_of_all_isDigit {cs : List Char} (h : cs.all Char.isDigit = true) :
    cs.flatMap String.utf8EncodeChar = cs.map fun c => UInt8.ofNat c.toNat := by
  induction cs with
  | nil => rfl
  | cons c cs ih =>
      rw [List.all_cons, Bool.and_eq_true] at h
      rw [List.flatMap_cons, utf8EncodeChar_of_isDigit h.1, ih h.2]
      rfl

theorem isCanonical_of_not_all {cs : List Char} (h : cs.all Char.isDigit = false) :
    isCanonical cs = false := by
  cases cs with
  | nil => rfl
  | cons c cs => rw [isCanonical, h, Bool.and_false]

theorem isCanonicalBytes_of_not_all {bytes : List UInt8} (h : bytes.all isDigitByte = false) :
    isCanonicalBytes bytes = false := by
  cases bytes with
  | nil => rfl
  | cons b bs => rw [isCanonicalBytes_cons, h, Bool.and_false]

/-- The check of the bytes is the check of the characters. -/
theorem isCanonicalBytes_utf8 (cs : List Char) :
    isCanonicalBytes (cs.flatMap String.utf8EncodeChar) = isCanonical cs := by
  have hall : (cs.flatMap String.utf8EncodeChar).all isDigitByte = cs.all Char.isDigit := by
    rw [List.all_flatMap]
    exact congrArg cs.all (funext all_utf8EncodeChar)
  cases hdigits : cs.all Char.isDigit with
  | false => rw [isCanonicalBytes_of_not_all (hall.trans hdigits), isCanonical_of_not_all hdigits]
  | true =>
      rw [hdigits, utf8_of_all_isDigit hdigits] at hall
      rw [utf8_of_all_isDigit hdigits]
      cases cs with
      | nil => rfl
      | cons c cs =>
          have hrange := Char.isDigit_iff_toNat.mp (List.all_eq_true.mp hdigits c List.mem_cons_self)
          have hzero : UInt8.ofNat c.toNat = 48 ↔ c = '0' := by
            rw [← UInt8.toNat_inj, UInt8.toNat_ofNat', ← Char.toNat_inj]
            simp only [Char.reduceToNat, UInt8.reduceToNat] at hrange ⊢
            omega
          rw [List.map_cons] at hall ⊢
          rw [isCanonical, isCanonicalBytes_cons, hall, hdigits]
          simp [hzero]

/-! ## Digits in words -/

/-- A word with one more digit behind its own, if that number has 64 bits. -/
def pushDigit? (word : UInt64) (b : UInt8) : Option UInt64 :=
  if word.toNat * 10 + (b - 48).toNat < UInt64.size then some (word * 10 + (b - 48).toUInt64) else none

/-- The word that canonical bytes denote, read digit by digit. -/
def readWord? (bytes : List UInt8) : Option UInt64 :=
  if isCanonicalBytes bytes then bytes.foldlM pushDigit? 0 else none

theorem toNat_digitByte {c : Char} (h : c.isDigit = true) :
    (UInt8.ofNat c.toNat - 48).toNat = c.toNat - '0'.toNat := by
  have hrange : 48 ≤ c.toNat ∧ c.toNat ≤ 57 := Char.isDigit_iff_toNat.mp h
  have hbyte : (UInt8.ofNat c.toNat).toNat = c.toNat := by
    rw [UInt8.toNat_ofNat']
    omega
  rw [UInt8.toNat_sub_of_le _ _ (by rw [UInt8.le_iff_toNat_le, hbyte]; exact hrange.1), hbyte]
  rfl

theorem toNat_ofNat_of_lt_size {n : Nat} (h : n < UInt64.size) : (UInt64.ofNat n).toNat = n := by
  rw [UInt64.toNat_ofNat', Nat.mod_eq_of_lt h]

theorem pushDigit?_of_isDigit {c : Char} (h : c.isDigit = true) (word : UInt64) :
    pushDigit? word (UInt8.ofNat c.toNat) =
      if 10 * word.toNat + (c.toNat - '0'.toNat) < UInt64.size then
        some (UInt64.ofNat (10 * word.toNat + (c.toNat - '0'.toNat))) else none := by
  rw [pushDigit?, toNat_digitByte h, Nat.mul_comm word.toNat]
  split
  · rename_i hlt
    have hsize : UInt64.size = 2 ^ 64 := rfl
    refine congrArg some (UInt64.toNat_inj.mp ?_)
    rw [toNat_ofNat_of_lt_size hlt, UInt64.toNat_add, UInt64.toNat_mul, UInt8.toNat_toUInt64,
      toNat_digitByte h, show (10 : UInt64).toNat = 10 from rfl]
    omega
  · rfl

theorem le_ofDigitChars (cs : List Char) (n : Nat) : n ≤ Nat.ofDigitChars 10 cs n := by
  induction cs generalizing n with
  | nil => exact Nat.le_refl n
  | cons c cs ih =>
      rw [Nat.ofDigitChars_cons]
      exact Nat.le_trans (by omega) (ih _)

/-- Words count right, or not at all: a number that has left the 64 bits does not come back. -/
theorem foldlM_pushDigit? {cs : List Char} (h : cs.all Char.isDigit = true) (word : UInt64) :
    (cs.map fun c => UInt8.ofNat c.toNat).foldlM pushDigit? word =
      if Nat.ofDigitChars 10 cs word.toNat < UInt64.size then
        some (UInt64.ofNat (Nat.ofDigitChars 10 cs word.toNat)) else none := by
  induction cs generalizing word with
  | nil =>
      rw [Nat.ofDigitChars_nil, if_pos word.toNat_lt_size, UInt64.ofNat_toNat]
      rfl
  | cons c cs ih =>
      rw [List.all_cons, Bool.and_eq_true] at h
      rw [List.map_cons, List.foldlM_cons, pushDigit?_of_isDigit h.1, Nat.ofDigitChars_cons]
      split
      · rename_i hlt
        refine (ih h.2 _).trans ?_
        rw [toNat_ofNat_of_lt_size hlt]
      · rename_i hge
        have hle := le_ofDigitChars cs (10 * word.toNat + (c.toNat - '0'.toNat))
        rw [if_neg (by omega)]
        rfl

end Numeral

/-! ## Positions -/

namespace Value

theorem le_maxIndex_iff {n : Nat} : n ≤ maxIndex ↔ n < UInt64.size :=
  Nat.le_sub_one_iff_lt (by decide)

/-- The position of a string is the word in its bytes. -/
theorem index?_string_eq_readWord? (s : String) :
    (string s).index? = (Numeral.readWord? s.toUTF8.data.toList).map UInt64.toNat := by
  have hbytes : s.toUTF8.data.toList = s.toList.flatMap String.utf8EncodeChar := by
    rw [String.toUTF8_eq_toByteArray, ← String.ofList_toList (s := s), String.toByteArray_ofList,
      List.utf8Encode, List.data_toByteArray, String.ofList_toList]
  rw [hbytes, Numeral.readWord?, Numeral.isCanonicalBytes_utf8, index?]
  cases hcanonical : Numeral.isCanonical s.toList with
  | false => rfl
  | true =>
      have hdigits : s.toList.all Char.isDigit = true :=
        List.all_eq_true.mpr fun c hc =>
          Numeral.isDigit_iff.mpr ((Numeral.isCanonical_iff.mp hcanonical).2.1 c hc)
      have hread := Numeral.foldlM_pushDigit? hdigits 0
      rw [if_pos rfl, Numeral.utf8_of_all_isDigit hdigits, hread]
      show _ = Option.map _ (if Numeral.value s.toList < _ then
        some (UInt64.ofNat (Numeral.value s.toList)) else none)
      by_cases hlt : Numeral.value s.toList < UInt64.size
      · rw [if_pos hlt, if_pos (by simp [le_maxIndex_iff, hlt]), Option.map_some,
          Numeral.toNat_ofNat_of_lt_size hlt]
      · rw [if_neg hlt, if_neg (by simp [le_maxIndex_iff, hlt]), Option.map_none]

theorem index?_string_iff_isDecimalText {s : String} {i : Nat} :
    (string s).index? = some i ↔ i < UInt64.size ∧ Numeral.IsDecimalText s.toList i := by
  have htext : s = Numeral.text i ↔ s.toList = Numeral.digits i := by
    rw [← String.toList_inj, Numeral.text, String.toList_ofList]
  rw [index?_string_eq_some_iff, le_maxIndex_iff, Numeral.isDecimalText_iff, htext, and_comm]

example : (string "18446744073709551616").index? = none := by decide +kernel

/-- **A string is a list position exactly if it is the decimal text of it.** The text has no sign and no
zeros in front, and the position has 64 bits. So no position has two strings, and a string that denotes a
position is the name that the integer of this value has in an object. -/
theorem string_is_position_iff (s : String) :
    (string s).index? = (Numeral.readWord? s.toUTF8.data.toList).map UInt64.toNat ∧
    (∀ i : Nat, (string s).index? = some i ↔ i < 2 ^ 64 ∧ Numeral.IsDecimalText s.toList i) ∧
    (∀ (t : String) (i : Nat), s ≠ t → (string s).index? = some i → (string t).index? ≠ some i) ∧
    ∀ i : Nat, i < 2 ^ 63 → (Int64.ofNat i).toInt = i ∧
      ((string s).index? = some i ↔ (integer (.ofNat i)).fieldName? = some s) := by
  refine ⟨index?_string_eq_readWord? s, fun i => index?_string_iff_isDecimalText, ?_, ?_⟩
  · intro t i hne hs ht
    have hstext := (index?_string_eq_some_iff.mp hs).1
    have httext := (index?_string_eq_some_iff.mp ht).1
    exact hne (hstext.trans httext.symm)
  · intro i hi
    have hint : (Int64.ofNat i).toInt = i := Int64.toInt_ofNat_of_lt hi
    have hname : (integer (.ofNat i)).fieldName? = some (Numeral.text i) := by
      rw [fieldName?, hint, Numeral.intText_natCast]
    have hrange : i ≤ maxIndex := le_maxIndex_iff.mpr (Nat.lt_trans hi (by decide))
    refine ⟨hint, ?_⟩
    rw [index?_string_eq_some_iff, hname, Option.some.injEq]
    exact ⟨fun h => h.1.symm, fun h => ⟨h.symm, hrange⟩⟩

/-- The largest position that an integer can denote, and a text of it with a zero in front. -/
theorem string_is_position_iff_at_largest_integer :
    "9223372036854775807" ≠ "09223372036854775807" ∧
    (string "9223372036854775807").index? = some 9223372036854775807 ∧
    (string "09223372036854775807").index? ≠ some 9223372036854775807 ∧
    9223372036854775807 < 2 ^ 63 ∧
    (integer (.ofNat 9223372036854775807)).fieldName? = some "9223372036854775807" :=
  have ⟨_, _, hapart, hname⟩ := string_is_position_iff "9223372036854775807"
  have hne : "9223372036854775807" ≠ "09223372036854775807" := by decide
  have hlt : 9223372036854775807 < 2 ^ 63 := by decide
  have hindex : (string "9223372036854775807").index? = some 9223372036854775807 := by decide +kernel
  ⟨hne, hindex, hapart _ _ hne hindex, hlt, (hname _ hlt).2.mp hindex⟩

end Value

end DocPath
