import DocPath.Binary64.Basic
import DocPath.Numeral

/-!
# Decimal text of floating-point numbers

A decimal is read as the nearest binary number. A binary number is written with the
fewest digits that read back as it, and of those the nearest to it. Both directions
compare exact natural numbers. How the digits are laid out is a `DecimalStyle`.
-/

namespace DocPath

/-- The number `digits * 10 ^ exponent`. -/
structure Decimal where
  digits : Nat
  exponent : Int
deriving DecidableEq, Repr

namespace Decimal

/-- The same number without trailing zeros. -/
def trim (d : Decimal) : Decimal :=
  if d.digits ≠ 0 ∧ d.digits % 10 = 0 then trim ⟨d.digits / 10, d.exponent + 1⟩ else d
termination_by d.digits
decreasing_by omega

end Decimal

/-- Which of two equally near decimals is written. -/
inductive Tie where
  | toEven
  | upward
deriving DecidableEq, Repr

namespace Binary64

/-- The number nearest to a decimal. The first two bounds save the large powers of ten:
from `10 ^ 309` on all is infinite, and below `10 ^ -330` all is zero. -/
def ofDecimal (negative : Bool) (d : Decimal) : Binary64 :=
  let top := d.exponent + Numeral.length d.digits
  if d.digits = 0 then zero negative
  else if 309 < top then .infinite negative
  else if top < -330 then zero negative
  else
    ofQuotient negative (d.digits * Nat.pow 10 d.exponent.toNat) (Nat.pow 10 (-d.exponent).toNat)

/-- The reals that round to a positive number, in quarters of its last place: from half
a place below, or a quarter where the places below are narrower, to half a place above.
The ends belong to it when the number wins ties. -/
structure Interval where
  low : Nat
  middle : Nat
  high : Nat
  scale : Int
  closed : Bool

def interval (exponent : Fin 2047) (fraction : Fin fractions) : Interval :=
  let x := magnitude exponent fraction
  let narrow := fraction.val = 0 && 1 < exponent.val
  { low := 4 * x.significand - (if narrow then 1 else 2)
    middle := 4 * x.significand
    high := 4 * x.significand + 2
    scale := x.scale - 2
    closed := x.significand % 2 = 0 }

namespace Interval

/-- On a common scale, the size of a step `10 ^ place`. -/
def step (i : Interval) (place : Int) : Nat :=
  Nat.pow 10 place.toNat * Nat.pow 2 (-i.scale).toNat

/-- On a common scale, the size of a quarter of a last place. -/
def quarter (i : Interval) (place : Int) : Nat :=
  Nat.pow 2 i.scale.toNat * Nat.pow 10 (-place).toNat

/-- Whether `n * 10 ^ place` lies in the interval. -/
def holds (i : Interval) (place : Int) (n : Nat) : Bool :=
  let x := n * i.step place
  let low := i.low * i.quarter place
  let high := i.high * i.quarter place
  if i.closed then low ≤ x && x ≤ high else low < x && x < high

/-- Of the two multiples of `10 ^ place` around the middle, the nearer one in the interval. -/
def nearest? (i : Interval) (tie : Tie) (place : Int) : Option Nat :=
  let below := i.middle * i.quarter place / i.step place
  match i.holds place below, i.holds place (below + 1) with
  | false, false => none
  | true, false => some below
  | false, true => some (below + 1)
  | true, true =>
    match compare (2 * (i.middle * i.quarter place)) ((2 * below + 1) * i.step place) with
    | .lt => some below
    | .gt => some (below + 1)
    | .eq => match tie with
      | .toEven => some (if below % 2 = 0 then below else below + 1)
      | .upward => some (below + 1)

end Interval

/-- The least `k` with a positive number below `10 ^ k`. -/
def decimalTop (x : Dyadic) : Int :=
  if x.den ≤ x.num then Numeral.length (x.num / x.den)
  else 1 - (Numeral.length ((x.den - 1) / x.num) : Int)

/-- All digits of a number. -/
def exactDecimal (x : Dyadic) : Decimal :=
  if 0 ≤ x.scale then ⟨x.significand * Nat.pow 2 x.scale.toNat, 0⟩
  else ⟨x.significand * Nat.pow 5 (-x.scale).toNat, x.scale⟩

/-- The decimal with the fewest digits that reads back as the number, and of those the
nearest. Grids are tried from the coarsest one that can tell the number from zero;
seventeen digits are enough, and if they were not, all digits would read back. -/
def shortest (tie : Tie) (exponent : Fin 2047) (fraction : Fin fractions) : Decimal :=
  let x := magnitude exponent fraction
  if x.significand = 0 then ⟨0, 0⟩
  else
    let i := interval exponent fraction
    let top := decimalTop x
    let found := (List.range 17).findSome? fun (n : Nat) =>
      let place := top - 1 - n
      (i.nearest? tie place).map fun digits => Decimal.mk digits place
    (found.getD (exactDecimal x)).trim

end Binary64

/-- How the digits of a number are laid out. -/
structure DecimalStyle where
  /-- which of two equally near decimals is taken -/
  tie : Tie
  /-- for `0.d₁d₂… * 10 ^ k`, whether `k` allows for positional notation -/
  isPositional : Int → Bool
  /-- whether a whole number in positional notation ends in `.0` -/
  wholePoint : Bool

namespace DecimalStyle

def positional (style : DecimalStyle) (digits : List Char) (k : Int) : List Char :=
  if k ≤ 0 then '0' :: '.' :: List.replicate (-k).toNat '0' ++ digits
  else if digits.length ≤ k.toNat then
    digits ++ List.replicate (k.toNat - digits.length) '0' ++
      (if style.wholePoint then ['.', '0'] else [])
  else digits.take k.toNat ++ '.' :: digits.drop k.toNat

/-- One digit before the point, and an exponent that always has a sign. -/
def scientific (digits : List Char) (k : Int) : List Char :=
  let fraction := digits.drop 1
  digits.take 1 ++ (if fraction.isEmpty then [] else '.' :: fraction) ++
    'e' :: (if k - 1 < 0 then '-' else '+') :: Numeral.digits (k - 1).natAbs

def ofDecimal (style : DecimalStyle) (d : Decimal) : List Char :=
  let digits := Numeral.digits d.digits
  let k := digits.length + d.exponent
  if style.isPositional k then style.positional digits k else scientific digits k

/-- The text of a finite number. -/
def write (style : DecimalStyle) (negative : Bool) (exponent : Fin 2047)
    (fraction : Fin Binary64.fractions) : List Char :=
  let digits := style.ofDecimal (Binary64.shortest style.tie exponent fraction)
  if negative then '-' :: digits else digits

end DecimalStyle

end DocPath
