import DocPath.Binary64.Basic

/-!
# Large natural numbers as floating-point numbers

A natural number of more than 53 bits is rounded to 53 of them. It becomes a finite number
as long as there are exponents for it, and that number is a natural number again, half a place
away at most (`exists_toNat?_ofNat`). The one subtle point is a significand that is rounded up to
54 bits: its rank belongs to the next exponent, with the fraction zero, which is the same value.
-/

namespace DocPath.Binary64

theorem two_mul_roundedQuotient {num den : Nat} (hden : 0 < den) :
    2 * (roundedQuotient num den * den) ≤ 2 * num + den ∧
      2 * num ≤ 2 * (roundedQuotient num den * den) + den := by
  have hsplit : num / den * den + num % den = num := Nat.div_add_mod' num den
  have hrest : num % den < den := Nat.mod_lt num hden
  unfold roundedQuotient
  simp only
  split
  · rename_i hdown
    simp only [Bool.or_eq_true, Bool.and_eq_true, decide_eq_true_eq] at hdown
    omega
  · rename_i hup
    simp only [Bool.or_eq_true, Bool.and_eq_true, decide_eq_true_eq] at hup
    rw [Nat.add_mul]
    omega

/-- A quotient between two natural numbers is rounded to one that lies between them too. -/
theorem roundedQuotient_mem {num den low high : Nat} (hden : 0 < den) (hlow : low * den ≤ num)
    (hhigh : num < high * den) :
    low ≤ roundedQuotient num den ∧ roundedQuotient num den ≤ high := by
  have hfloor : low ≤ num / den := (Nat.le_div_iff_mul_le hden).mpr hlow
  have hceil : num / den < high := (Nat.div_lt_iff_lt_mul hden).mpr hhigh
  unfold roundedQuotient
  simp only
  split <;> omega

theorem isFinite_of_toNat? {x : Binary64} {n : Nat} (h : x.toNat? = some n) :
    x.isFinite = true := by
  cases x with
  | finite negative exponent fraction => rfl
  | _ => cases h

theorem magnitude_of_pos {exponent : Fin 2047} (fraction : Fin fractions)
    (h : 0 < exponent.val) :
    magnitude exponent fraction = ⟨fractions + fraction.val, exponent.val - 1075⟩ := by
  unfold magnitude
  rw [if_neg (Nat.ne_of_gt h)]

/-- A number whose last place is a whole one is a natural number. -/
theorem toNat?_finite {exponent : Fin 2047} {fraction : Fin fractions} {significand scale : Nat}
    (h : magnitude exponent fraction = ⟨significand, scale⟩) :
    (finite false exponent fraction).toNat? = some (significand * Nat.pow 2 scale) := by
  have hden : (magnitude exponent fraction).den = 1 := by
    rw [h]
    show Nat.pow 2 (-(scale : Int)).toNat = 1
    rw [Int.toNat_of_nonpos (by omega)]
  have hnum : (magnitude exponent fraction).num = significand * Nat.pow 2 scale := by
    rw [h]
    rfl
  simp only [toNat?, Dyadic.isIntegral, Dyadic.floor, hden, Nat.mod_one, Nat.div_one, hnum]
  rfl

theorem pow_add_one (k : Nat) : Nat.pow 2 (k + 1) = Nat.pow 2 k * 2 :=
  rfl

/-- The number of an exponent and a significand of 53 bits. The least significand of 54 bits
has the rank of the next exponent. -/
theorem toNat?_ofRank {k s : Nat} (hk : 52 ≤ k) (hk' : k ≤ 1022) (hs : fractions ≤ s)
    (hs' : s ≤ 2 * fractions) :
    (ofRank false ((k + 1022) * fractions + s)).toNat? = some (s * Nat.pow 2 (k - 52)) := by
  have hrank : (k + 1022) * fractions + s < 2047 * fractions := by
    unfold fractions at *
    omega
  unfold ofRank
  rw [dif_pos hrank]
  rcases Nat.lt_or_eq_of_le hs' with hlt | rfl
  · have hexponent : ((k + 1022) * fractions + s) / fractions = k + 1023 := by
      unfold fractions at *
      omega
    have hfraction : ((k + 1022) * fractions + s) % fractions = s - fractions := by
      unfold fractions at *
      omega
    apply toNat?_finite
    rw [magnitude_of_pos _ (by simp only [hexponent]; omega)]
    simp only [hexponent, hfraction, Dyadic.mk.injEq]
    omega
  · have hexponent : ((k + 1022) * fractions + 2 * fractions) / fractions = k + 1024 := by
      unfold fractions
      omega
    have hfraction : ((k + 1022) * fractions + 2 * fractions) % fractions = 0 := by
      unfold fractions
      omega
    have hvalue : 2 * fractions * Nat.pow 2 (k - 52) = fractions * Nat.pow 2 (k - 52 + 1) := by
      rw [pow_add_one, Nat.mul_comm 2, Nat.mul_assoc, Nat.mul_comm 2]
    rw [hvalue]
    apply toNat?_finite
    rw [magnitude_of_pos _ (by simp only [hexponent]; omega)]
    simp only [hexponent, hfraction, Dyadic.mk.injEq]
    refine ⟨trivial, ?_⟩
    omega

/-- The rank of a natural number of `k + 1` bits: its exponent is `k`, and its significand is
the number without its last `k - 52` bits, rounded. -/
theorem ofNat_eq_ofRank {n k : Nat} (hk : 52 ≤ k) (hlow : Nat.pow 2 k ≤ n)
    (hhigh : n < Nat.pow 2 (k + 1)) :
    ofNat n =
      ofRank false ((k + 1022) * fractions + roundedQuotient n (Nat.pow 2 (k - 52))) := by
  have hne : n ≠ 0 := Nat.ne_of_gt (Nat.lt_of_lt_of_le (Nat.pow_pos (by decide)) hlow)
  have hlog : Nat.log2 n = k := (Nat.log2_eq_iff hne).mpr ⟨hlow, hhigh⟩
  have hone : Nat.log2 1 = 0 := by decide
  have hestimate : (k : Int) - (0 : Nat) = k := by omega
  have hwhole : (-(k : Int)).toNat = 0 := by omega
  have hnot : ¬ n * Nat.pow 2 0 < 1 * Nat.pow 2 k := by
    rw [Nat.one_mul]
    exact Nat.not_lt_of_le (Nat.le_trans hlow (Nat.le_of_eq (Nat.mul_one n).symm))
  have hscale : max ((k : Int) - 52) (-1074) = (k - 52 : Nat) := by omega
  have hwhole' : (-((k - 52 : Nat) : Int)).toNat = 0 := by omega
  have hrank : (((k - 52 : Nat) : Int) + 1074).toNat = k + 1022 := by omega
  unfold ofNat ofRatio ofQuotient
  simp only [if_neg hne, hlog, hone, hestimate, hwhole, Int.toNat_natCast, if_neg hnot, hscale,
    hwhole', hrank]
  rw [Nat.one_mul, show n * Nat.pow 2 0 = n from Nat.mul_one n]

/-- A natural number of more than 53 bits becomes another one, half a place away at most. -/
theorem exists_toNat?_ofNat {n k : Nat} (hk : 52 ≤ k) (hk' : k ≤ 1022) (hlow : Nat.pow 2 k ≤ n)
    (hhigh : n < Nat.pow 2 (k + 1)) :
    ∃ s, (ofNat n).toNat? = some (s * Nat.pow 2 (k - 52)) ∧
      2 * (s * Nat.pow 2 (k - 52)) ≤ 2 * n + Nat.pow 2 (k - 52) ∧
      2 * n ≤ 2 * (s * Nat.pow 2 (k - 52)) + Nat.pow 2 (k - 52) := by
  have hsplit : Nat.pow 2 k = fractions * Nat.pow 2 (k - 52) := by
    have hadd := Nat.pow_add 2 52 (k - 52)
    rw [Nat.add_sub_cancel' hk] at hadd
    exact hadd
  have hsplit' : Nat.pow 2 (k + 1) = 2 * fractions * Nat.pow 2 (k - 52) := by
    rw [pow_add_one, hsplit, Nat.mul_comm _ 2, Nat.mul_assoc]
  have hplace : 0 < Nat.pow 2 (k - 52) := Nat.pow_pos (by decide)
  obtain ⟨hs, hs'⟩ := roundedQuotient_mem hplace (hsplit ▸ hlow) (hsplit' ▸ hhigh)
  refine ⟨roundedQuotient n (Nat.pow 2 (k - 52)), ?_, two_mul_roundedQuotient hplace⟩
  rw [ofNat_eq_ofRank hk hlow hhigh]
  exact toNat?_ofRank hk hk' hs hs'

end DocPath.Binary64
