import DocPath.Binary64.Decimal
import DocPath.Proofs.Binary64.Exact
import DocPath.Proofs.Binary64.Rounding

/-!
# The decimals of whole numbers

Up to `2 ^ 53`, the reals that round to a whole number hold no other whole number, but for the greatest
one, which holds the next, and that is no multiple of ten (`Interval.Surrounds`). So on the grids of tens,
hundreds and so on there is either the number itself or nothing to be found, and the search for the
shortest decimal, which starts at the first digit of the number, ends with the number itself
(`shortest_isWhole`). Its digits, with the zeros that were left out put back, are those of the number
(`DecimalStyle.ofDecimal_of_isWhole`).
-/

namespace DocPath

/-! ## Decimals of whole numbers -/

/-- A decimal that leaves out no places but zeros behind the digits of a number. -/
def Decimal.IsWhole (x : Decimal) (n : Nat) : Prop :=
  ∃ p : Nat, x.exponent = p ∧ x.digits * Nat.pow 10 p = n

theorem Decimal.IsWhole.trim {x : Decimal} {n : Nat} (h : x.IsWhole n) : x.trim.IsWhole n := by
  induction x using Decimal.trim.induct with
  | case1 x hten ih =>
      obtain ⟨p, hp, rfl⟩ := h
      rw [Decimal.trim, if_pos hten]
      refine ih ⟨p + 1, by rw [hp]; rfl, ?_⟩
      show x.digits / 10 * (Nat.pow 10 p * 10) = x.digits * Nat.pow 10 p
      rw [Nat.mul_comm (Nat.pow 10 p), ← Nat.mul_assoc, Nat.div_mul_cancel (Nat.dvd_of_mod_eq_zero hten.2)]
  | case2 x hlast =>
      rw [Decimal.trim, if_neg hlast]
      exact h

theorem Dyadic.num_eq_of_toRat {x : Dyadic} {n : Nat} (h : x.toRat = n) : x.num = n * x.den := by
  obtain ⟨hintegral, rfl⟩ := (x.toRat_eq_natCast_iff n).mp h
  exact (Nat.div_mul_cancel (Nat.dvd_of_mod_eq_zero (of_decide_eq_true hintegral))).symm

namespace Binary64

/-! ## What rounds to a whole number -/

/-- The quarters are parts of one, and the interval lies around a whole number. The next one may be at its
upper end, unless it is a multiple of ten. -/
structure Interval.Surrounds (i : Interval) (n : Nat) : Prop where
  scale_neg : i.scale < 0
  middle_eq : i.middle = n * Nat.pow 2 (-i.scale).toNat
  low_lt : i.low < i.middle
  middle_lt_low : i.middle < i.low + Nat.pow 2 (-i.scale).toNat
  lt_high : i.middle < i.high
  high_le : i.high < i.middle + Nat.pow 2 (-i.scale).toNat ∨
    i.high ≤ i.middle + Nat.pow 2 (-i.scale).toNat ∧ ¬ 10 ∣ n + 1

theorem lt_exponent_of_scale_pos {exponent : Fin 2047} {fraction : Fin fractions}
    (h : 0 < (magnitude exponent fraction).scale) : 1075 < exponent.val := by
  unfold magnitude at h
  split at h
  · cases h
  · simp only at h
    omega

/-- A last place that is one or less: the next whole numbers are four quarters away at least. -/
theorem surrounds_of_fractional {exponent : Fin 2047} {fraction : Fin fractions} {n : Nat}
    (hpos : 0 < n) (hscale : (magnitude exponent fraction).scale ≤ 0)
    (h : (magnitude exponent fraction).num = n * (magnitude exponent fraction).den) :
    (interval exponent fraction).Surrounds n := by
  obtain ⟨k, hk⟩ := Int.eq_ofNat_of_zero_le (Int.neg_nonneg_of_nonpos hscale)
  have hsignificand : (magnitude exponent fraction).significand = n * Nat.pow 2 k := by
    rw [Dyadic.num, Dyadic.den, hk, Int.toNat_of_nonpos hscale, Int.toNat_natCast] at h
    rw [← h]
    exact (Nat.mul_one _).symm
  have hunit : Nat.pow 2 (-(interval exponent fraction).scale).toNat = 4 * Nat.pow 2 k := by
    have hexponent : (-(interval exponent fraction).scale).toNat = k + 2 := by
      show (-((magnitude exponent fraction).scale - 2)).toNat = k + 2
      omega
    rw [hexponent]
    show Nat.pow 2 k * 2 * 2 = 4 * Nat.pow 2 k
    omega
  have hplace : 0 < Nat.pow 2 k := Nat.pow_pos (by decide)
  have hproduct : 0 < n * Nat.pow 2 k := Nat.mul_pos hpos hplace
  have hmiddle : (interval exponent fraction).middle = 4 * (n * Nat.pow 2 k) := by
    rw [← hsignificand]
    rfl
  have hlow : (interval exponent fraction).low < 4 * (n * Nat.pow 2 k) ∧
      4 * (n * Nat.pow 2 k) ≤ (interval exponent fraction).low + 2 := by
    rw [← hsignificand] at hproduct ⊢
    unfold interval
    simp only
    split <;> omega
  have hhigh : (interval exponent fraction).high = 4 * (n * Nat.pow 2 k) + 2 := by
    rw [← hsignificand]
    rfl
  refine ⟨?_, ?_, ?_, ?_, ?_, Or.inl ?_⟩
  · show (magnitude exponent fraction).scale - 2 < 0
    omega
  · rw [hunit, hmiddle, Nat.mul_left_comm]
  all_goals
    omega

/-- The first number whose last place is two is the only one in the range. -/
theorem eq_of_scale_pos {exponent : Fin 2047} {fraction : Fin fractions} {n : Nat}
    (hle : n ≤ 2 * fractions) (hscale : 0 < (magnitude exponent fraction).scale)
    (h : (magnitude exponent fraction).num = n * (magnitude exponent fraction).den) :
    n = 2 * fractions ∧ exponent.val = 1076 ∧ fraction.val = 0 := by
  have hexponent := lt_exponent_of_scale_pos hscale
  obtain ⟨k, hk⟩ := Nat.exists_eq_add_of_lt hexponent
  have hplaces : ((exponent.val : Int) - 1075).toNat = k + 1 := by omega
  have hnone : (-((exponent.val : Int) - 1075)).toNat = 0 := by omega
  rw [magnitude_of_pos fraction (by omega), Dyadic.num, Dyadic.den, hplaces, hnone] at h
  have hn : n = (fractions + fraction.val) * Nat.pow 2 k * 2 := by
    rw [Nat.mul_assoc]
    exact ((h.trans (Nat.mul_one n))).symm
  cases k with
  | zero =>
      have hone : Nat.pow 2 0 = 1 := rfl
      rw [hone] at hn
      refine ⟨?_, ?_, ?_⟩ <;> omega
  | succ k =>
      -- a last place of four or more: the least number is beyond the bound
      have htwo : 2 ≤ Nat.pow 2 (k + 1) := by
        have hplace : 0 < Nat.pow 2 k := Nat.pow_pos (by decide)
        show 2 ≤ Nat.pow 2 k * 2
        omega
      have hleast := Nat.mul_le_mul (Nat.le_add_right fractions fraction.val) htwo
      have hpositive : 0 < fractions := by decide
      omega

theorem interval_surrounds {exponent : Fin 2047} {fraction : Fin fractions} {n : Nat} (hpos : 0 < n)
    (hle : n ≤ 2 * fractions) (h : (magnitude exponent fraction).toRat = n) :
    (interval exponent fraction).Surrounds n := by
  have hnum := Dyadic.num_eq_of_toRat h
  rcases le_or_gt (magnitude exponent fraction).scale 0 with hscale | hscale
  · exact surrounds_of_fractional hpos hscale hnum
  · obtain ⟨rfl, hexponent, hfraction⟩ := eq_of_scale_pos hle hscale hnum
    obtain rfl : exponent = 1076 := Fin.ext hexponent
    obtain rfl : fraction = 0 := Fin.ext hfraction
    constructor <;> decide

/-! ## What is found on the grids -/

namespace Interval

variable {i : Interval} {n m p : Nat}

theorem step_natCast (i : Interval) (p : Nat) :
    i.step p = Nat.pow 10 p * Nat.pow 2 (-i.scale).toNat := by
  rw [step, Int.toNat_natCast]

theorem Surrounds.quarter_eq (h : i.Surrounds n) (p : Nat) : i.quarter p = 1 := by
  rw [quarter, Int.toNat_of_nonpos (Int.le_of_lt h.scale_neg), Int.toNat_of_nonpos (by omega)]

/-- Whether a multiple of a power of ten is in the interval. -/
theorem Surrounds.holds_eq (h : i.Surrounds n) (m p : Nat) :
    i.holds p m =
      let x := m * Nat.pow 10 p * Nat.pow 2 (-i.scale).toNat
      if i.closed then i.low ≤ x && x ≤ i.high else i.low < x && x < i.high := by
  rw [holds, h.quarter_eq, step_natCast, Nat.mul_one, Nat.mul_one, Nat.mul_assoc]

theorem Surrounds.holds_of_eq (h : i.Surrounds n) (hm : m * Nat.pow 10 p = n) :
    i.holds p m = true := by
  have hlow := h.low_lt
  have hhigh := h.lt_high
  rw [h.holds_eq, hm, ← h.middle_eq]
  simp only
  split <;> simp only [Bool.and_eq_true, decide_eq_true_eq] <;> omega

theorem Surrounds.not_holds_of_lt (h : i.Surrounds n) (hm : m * Nat.pow 10 p < n) :
    i.holds p m = false := by
  have hlow := h.middle_lt_low
  have hstep := Nat.mul_le_mul_right (Nat.pow 2 (-i.scale).toNat) (Nat.succ_le_of_lt hm)
  rw [Nat.succ_mul, ← h.middle_eq] at hstep
  rw [h.holds_eq]
  simp only
  split <;> simp only [Bool.and_eq_false_iff, decide_eq_false_iff_not] <;> omega

theorem Surrounds.not_holds_of_gt (h : i.Surrounds n) (hm : n < m * Nat.pow 10 p)
    (hten : 10 ∣ m * Nat.pow 10 p) : i.holds p m = false := by
  have hunit : 0 < Nat.pow 2 (-i.scale).toNat := Nat.pow_pos (by decide)
  have hhigh : i.high < m * Nat.pow 10 p * Nat.pow 2 (-i.scale).toNat := by
    rcases h.high_le with hhigh | ⟨hhigh, hnext⟩
    · have hstep := Nat.mul_le_mul_right (Nat.pow 2 (-i.scale).toNat) (Nat.succ_le_of_lt hm)
      rw [Nat.succ_mul, ← h.middle_eq] at hstep
      exact Nat.lt_of_lt_of_le hhigh hstep
    · have hne : n + 1 ≠ m * Nat.pow 10 p := by
        intro heq
        exact hnext (heq ▸ hten)
      have hm' : n + 1 < m * Nat.pow 10 p := Nat.lt_of_le_of_ne hm hne
      have hstep := Nat.mul_le_mul_right (Nat.pow 2 (-i.scale).toNat) (Nat.succ_le_of_lt hm')
      rw [Nat.succ_mul, Nat.succ_mul, ← h.middle_eq] at hstep
      exact Nat.lt_of_le_of_lt hhigh (Nat.lt_of_lt_of_le (Nat.lt_add_of_pos_right hunit) hstep)
  rw [h.holds_eq]
  simp only
  split <;> simp only [Bool.and_eq_false_iff, decide_eq_false_iff_not] <;> omega

theorem Surrounds.below_eq (h : i.Surrounds n) (p : Nat) :
    i.middle * i.quarter p / i.step p = n / Nat.pow 10 p := by
  rw [h.quarter_eq, h.middle_eq, step_natCast, Nat.mul_one]
  exact Nat.mul_div_mul_right n _ (Nat.pow_pos (by decide))

/-- A grid that the number is on. Should the grid's next point be in the interval too, the middle is
nearer. -/
theorem Surrounds.nearest?_of_dvd (h : i.Surrounds n) (tie : Tie) (hp : Nat.pow 10 p ∣ n) :
    i.nearest? tie p = some (n / Nat.pow 10 p) := by
  have hbelow : i.holds p (n / Nat.pow 10 p) = true := h.holds_of_eq (Nat.div_mul_cancel hp)
  have hnearer : compare (2 * (i.middle * i.quarter p)) ((2 * (n / Nat.pow 10 p) + 1) * i.step p) = .lt := by
    have hpoint : n / Nat.pow 10 p * i.step p = i.middle := by
      rw [step_natCast, ← Nat.mul_assoc, Nat.div_mul_cancel hp, h.middle_eq]
    have hstep : 0 < i.step p := by
      rw [step_natCast]
      exact Nat.mul_pos (Nat.pow_pos (by decide)) (Nat.pow_pos (by decide))
    rw [Nat.compare_eq_lt, h.quarter_eq, Nat.mul_one, Nat.add_mul, Nat.mul_assoc, hpoint, Nat.one_mul]
    exact Nat.lt_add_of_pos_right hstep
  unfold nearest?
  rw [h.below_eq]
  simp only [hbelow, hnearer]
  cases i.holds p (n / Nat.pow 10 p + 1) <;> rfl

/-- On another grid its neighbours are out of the interval. -/
theorem Surrounds.nearest?_of_not_dvd (h : i.Surrounds n) (tie : Tie) (hp : ¬ Nat.pow 10 p ∣ n) :
    i.nearest? tie p = none := by
  have hgrid : 0 < Nat.pow 10 p := Nat.pow_pos (by decide)
  have hsplit := Nat.div_add_mod n (Nat.pow 10 p)
  have hrest := Nat.mod_lt n hgrid
  have hrest0 : n % Nat.pow 10 p ≠ 0 := fun h0 => hp (Nat.dvd_of_mod_eq_zero h0)
  rw [Nat.mul_comm] at hsplit
  have hbelow : i.holds p (n / Nat.pow 10 p) = false := h.not_holds_of_lt (by omega)
  have hten : 10 ∣ Nat.pow 10 p := by
    cases p with
    | zero => exact absurd (Nat.one_dvd n) hp
    | succ p => exact Nat.dvd_mul_left 10 (Nat.pow 10 p)
  have habove : i.holds p (n / Nat.pow 10 p + 1) = false := by
    apply h.not_holds_of_gt
    · rw [Nat.succ_mul]
      omega
    · exact Nat.dvd_mul_left_of_dvd hten _
  unfold nearest?
  rw [h.below_eq]
  simp only [hbelow, habove]

/-- What is found on a grid is the number itself. -/
theorem Surrounds.eq_of_nearest? (h : i.Surrounds n) {tie : Tie} {d : Nat}
    (hd : i.nearest? tie p = some d) : d * Nat.pow 10 p = n := by
  by_cases hp : Nat.pow 10 p ∣ n
  · rw [h.nearest?_of_dvd tie hp] at hd
    obtain rfl := Option.some.inj hd
    exact Nat.div_mul_cancel hp
  · rw [h.nearest?_of_not_dvd tie hp] at hd
    cases hd

end Interval

/-! ## The shortest decimal -/

/-- A search does not go beyond a place that has something to find. -/
theorem exists_le_of_findSome?_range {α : Type} {f : Nat → Option α} {m k : Nat} (hm : m < k)
    (hf : (f m).isSome = true) :
    ∃ a b, a ≤ m ∧ f a = some b ∧ (List.range k).findSome? f = some b := by
  have hsplit : List.range k = List.range (m + 1) ++ (List.range (k - (m + 1))).map (m + 1 + ·) := by
    rw [← List.range_add, Nat.add_sub_cancel' hm]
  have hfound : ((List.range (m + 1)).findSome? f).isSome = true :=
    List.findSome?_isSome_iff.mpr ⟨m, List.mem_range.mpr (Nat.lt_succ_self m), hf⟩
  obtain ⟨b, hb⟩ := Option.isSome_iff_exists.mp hfound
  obtain ⟨a, ha, hfa⟩ := List.exists_of_findSome?_eq_some hb
  refine ⟨a, b, Nat.lt_succ_iff.mp (List.mem_range.mp ha), hfa, ?_⟩
  rw [hsplit, List.findSome?_append, hb]
  rfl

theorem decimalTop_eq {x : Dyadic} {n : Nat} (hpos : 0 < n) (hnum : x.num = n * x.den) :
    decimalTop x = Numeral.length n := by
  have hden : 0 < x.den := x.den_pos
  rw [decimalTop, hnum, if_pos (Nat.le_mul_of_pos_left x.den hpos), Nat.mul_div_cancel n hden]

/-- The decimal that is found on a grid. -/
def Interval.decimal? (i : Interval) (tie : Tie) (place : Int) : Option Decimal :=
  (i.nearest? tie place).map fun digits => ⟨digits, place⟩

theorem shortest_eq {exponent : Fin 2047} {fraction : Fin fractions} (tie : Tie)
    (h : (magnitude exponent fraction).significand ≠ 0) :
    shortest tie exponent fraction =
      (((List.range 17).findSome? fun (k : Nat) =>
        (interval exponent fraction).decimal? tie (decimalTop (magnitude exponent fraction) - 1 - k)).getD
          (exactDecimal (magnitude exponent fraction))).trim := by
  rw [shortest, if_neg h]
  rfl

theorem Interval.Surrounds.decimal?_isWhole {i : Interval} {n p : Nat} {tie : Tie} {x : Decimal}
    (h : i.Surrounds n) (hx : i.decimal? tie p = some x) : x.IsWhole n := by
  obtain ⟨digits, hdigits, rfl⟩ := Option.map_eq_some_iff.mp hx
  exact ⟨p, rfl, h.eq_of_nearest? hdigits⟩

/-- From the first digit of the number on, the grids hold nothing else, and the grid of its last
digit holds the number. -/
theorem Interval.Surrounds.exists_found {i : Interval} {n : Nat} (h : i.Surrounds n) (tie : Tie)
    (hlength : Numeral.length n ≤ 17) :
    ∃ x : Decimal, x.IsWhole n ∧
      ((List.range 17).findSome? fun (k : Nat) =>
        i.decimal? tie (Numeral.length n - 1 - k)) = some x := by
  have hfirst : 0 < Numeral.length n := Nat.length_toDigits_pos
  have hlast : (i.decimal? tie (Numeral.length n - 1 - (Numeral.length n - 1 : Nat))).isSome = true := by
    have hplace : (Numeral.length n : Int) - 1 - (Numeral.length n - 1 : Nat) = (0 : Nat) := by omega
    rw [hplace, decimal?, h.nearest?_of_dvd (p := 0) tie (Nat.one_dvd n)]
    rfl
  obtain ⟨k, x, hk, hx, hfound⟩ := exists_le_of_findSome?_range
    (f := fun (k : Nat) => i.decimal? tie (Numeral.length n - 1 - k))
    (Nat.lt_of_lt_of_le (Nat.sub_one_lt hfirst.ne') hlength) hlast
  obtain ⟨p, hp⟩ := Int.eq_ofNat_of_zero_le (show (0 : Int) ≤ Numeral.length n - 1 - k by omega)
  simp only [hp] at hx
  exact ⟨x, h.decimal?_isWhole hx, hfound⟩

theorem shortest_isWhole {exponent : Fin 2047} {fraction : Fin fractions} {n : Nat} (tie : Tie)
    (hpos : 0 < n) (hle : n ≤ 2 * fractions) (h : (magnitude exponent fraction).toRat = n) :
    (shortest tie exponent fraction).IsWhole n := by
  have hlength : Numeral.length n ≤ 17 := by
    refine (Nat.length_toDigits_le_iff (by decide) (by decide)).mpr (Nat.lt_of_le_of_lt hle ?_)
    decide
  have hsignificand : (magnitude exponent fraction).significand ≠ 0 := by
    intro h0
    have hzero := (Dyadic.toRat_eq_zero_iff _).mpr h0
    rw [h] at hzero
    exact hpos.ne' (by exact_mod_cast hzero)
  obtain ⟨x, hx, hfound⟩ := (interval_surrounds hpos hle h).exists_found tie hlength
  rw [shortest_eq tie hsignificand, decimalTop_eq hpos (Dyadic.num_eq_of_toRat h), hfound]
  exact hx.trim

end Binary64

/-! ## The text of a whole number -/

namespace DecimalStyle

/-- The zeros that the shortest decimal left out are written again. -/
theorem ofDecimal_of_isWhole {style : DecimalStyle} {x : Decimal} {n : Nat}
    (hpositional : ∀ k, style.isPositional k = true) (hpoint : style.wholePoint = false)
    (hpos : 0 < n) (h : x.IsWhole n) : style.ofDecimal x = Numeral.digits n := by
  obtain ⟨p, hp, rfl⟩ := h
  have hdigits : 0 < x.digits := Nat.pos_of_mul_pos_right hpos
  have hlength : 0 < (Numeral.digits x.digits).length := Nat.length_toDigits_pos
  have hzeros : (((Numeral.digits x.digits).length : Int) + p).toNat - (Numeral.digits x.digits).length = p := by
    omega
  rw [ofDecimal, hpositional, if_pos rfl, positional, hp, if_neg (by omega), if_pos (by omega), hzeros,
    hpoint, if_neg (by decide), List.append_nil]
  show Nat.toDigits 10 x.digits ++ List.replicate p '0' = _
  rw [Numeral.toDigits_append _ _ hdigits (by simp), Nat.ofDigitChars_replicate_zero, Nat.mul_comm]
  rfl

theorem write_of_toRat {style : DecimalStyle} {exponent : Fin 2047} {fraction : Fin Binary64.fractions}
    {n : Nat} (hpositional : ∀ k, style.isPositional k = true) (hpoint : style.wholePoint = false)
    (hpos : 0 < n) (hle : n ≤ 2 * Binary64.fractions)
    (h : (Binary64.magnitude exponent fraction).toRat = n) (negative : Bool) :
    style.write negative exponent fraction =
      if negative then '-' :: Numeral.digits n else Numeral.digits n := by
  rw [write, ofDecimal_of_isWhole hpositional hpoint hpos
    (Binary64.shortest_isWhole style.tie hpos hle h)]

end DecimalStyle

end DocPath
