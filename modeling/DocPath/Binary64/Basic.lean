/-!
# Binary floating-point numbers

The 64-bit binary format with exact arithmetic on natural numbers. A finite number is
given by its sign, its biased exponent and its fraction, so each number has one
representation; zero has two, one for each sign. There is one "not a number".
-/

namespace DocPath

/-- The number of fractions, which have 52 bits. -/
abbrev Binary64.fractions : Nat := 0x10000000000000

inductive Binary64 where
  | nan
  | infinite (negative : Bool)
  | finite (negative : Bool) (exponent : Fin 2047) (fraction : Fin Binary64.fractions)
deriving DecidableEq, Repr

/-- The number `significand * 2 ^ scale`. -/
structure Dyadic where
  significand : Nat
  scale : Int
deriving DecidableEq, Repr

namespace Dyadic

/-! The number as the quotient `num / den`. -/

def num (x : Dyadic) : Nat :=
  x.significand * Nat.pow 2 x.scale.toNat

def den (x : Dyadic) : Nat :=
  Nat.pow 2 (-x.scale).toNat

/-- The integer part. -/
def floor (x : Dyadic) : Nat :=
  x.num / x.den

def isIntegral (x : Dyadic) : Bool :=
  x.num % x.den = 0

end Dyadic

namespace Binary64

def zero (negative : Bool) : Binary64 :=
  .finite negative 0 0

/-- The absolute value of a finite number. Numbers of the least exponent have no hidden
bit; their scale is that of the next exponent. -/
def magnitude (exponent : Fin 2047) (fraction : Fin fractions) : Dyadic :=
  if exponent.val = 0 then ⟨fraction.val, -1074⟩
  else ⟨fractions + fraction.val, exponent.val - 1075⟩

def isFinite : Binary64 → Bool
  | .finite .. => true
  | _ => false

def isZero : Binary64 → Bool
  | .finite _ exponent fraction => exponent.val = 0 && fraction.val = 0
  | _ => false

theorem eq_zero_of_isZero {x : Binary64} (h : x.isZero = true) : ∃ negative, x = .zero negative := by
  cases x with
  | finite negative exponent fraction =>
      simp only [isZero, Bool.and_eq_true, decide_eq_true_eq] at h
      obtain rfl : exponent = 0 := Fin.ext h.1
      obtain rfl : fraction = 0 := Fin.ext h.2
      exact ⟨negative, rfl⟩
  | _ => cases h

/-- Numeric equality: the two zeros are equal, and nothing equals a "not a number". -/
def equals : Binary64 → Binary64 → Bool
  | .nan, _ => false
  | _, .nan => false
  | x, y => x = y || (x.isZero && y.isZero)

/-- The integer part of a finite number, toward zero. -/
def truncate? : Binary64 → Option Int
  | .finite negative exponent fraction =>
    let n : Int := (magnitude exponent fraction).floor
    some (if negative then -n else n)
  | _ => none

/-- The value of a number that is a natural number; both zeros are. -/
def toNat? : Binary64 → Option Nat
  | .finite negative exponent fraction =>
    let x := magnitude exponent fraction
    if x.isIntegral && (!negative || x.significand = 0) then some x.floor else none
  | _ => none

/-- Counting the finite magnitudes from zero upwards, the number at the given place;
beyond the last comes infinity. -/
def ofRank (negative : Bool) (rank : Nat) : Binary64 :=
  if h : rank < 2047 * fractions then
    .finite negative ⟨rank / fractions, Nat.div_lt_of_lt_mul (Nat.mul_comm _ _ ▸ h)⟩
      ⟨rank % fractions, Nat.mod_lt _ (by decide)⟩
  else .infinite negative

/-- A quotient rounded to the nearest natural number, ties to the even one. -/
def roundedQuotient (num den : Nat) : Nat :=
  let floor := num / den
  let rest := num % den
  if 2 * rest < den || (2 * rest = den && floor % 2 = 0) then floor else floor + 1

/-- The number nearest to the positive quotient `num / den`, ties to an even fraction.
The significand is rounded at the scale where it has 53 bits, or at the least scale; a
significand that rounds up to 54 bits has the rank of the next exponent. -/
def ofQuotient (negative : Bool) (num den : Nat) : Binary64 :=
  let estimate : Int := (Nat.log2 num : Int) - Nat.log2 den
  let log : Int :=
    if num * Nat.pow 2 (-estimate).toNat < den * Nat.pow 2 estimate.toNat then estimate - 1
    else estimate
  let scale := max (log - 52) (-1074)
  let significand :=
    roundedQuotient (num * Nat.pow 2 (-scale).toNat) (den * Nat.pow 2 scale.toNat)
  ofRank negative ((scale + 1074).toNat * fractions + significand)

/-- The number nearest to the quotient `num / den`, which may be zero. -/
def ofRatio (negative : Bool) (num den : Nat) : Binary64 :=
  if num = 0 then zero negative else ofQuotient negative num den

def ofNat (n : Nat) : Binary64 :=
  ofRatio false n 1

end Binary64

end DocPath
