import DocPath.Binary64.Arithmetic
import DocPath.Json.Basic

/-!
# Reading JSON numbers

The grammar of numbers, and the number that a text stands for. A whole number that 64
bits hold is exact. Any other is worked out in floating-point numbers: its digits, as
far as 64 bits hold them, times or over a power of ten. Each of the three numbers is
rounded, so the result can lie a few places beside the number nearest to the text.
-/

namespace DocPath

/-- A number as it is written: its sign, the digits before and behind the point, and
its exponent, if it has one. -/
structure WrittenNumber where
  negative : Bool
  whole : List Char
  fraction : List Char
  exponent : Option Int

namespace WrittenNumber

/-! ## Grammar -/

def natural? (cs : List Char) : Option Nat :=
  if cs ≠ [] ∧ cs.all Char.isDigit then some (Numeral.value cs) else none

/-- The digits of an exponent, with a sign or without. -/
def exponent? : List Char → Option Int
  | '-' :: cs => (natural? cs).map fun n => -(n : Int)
  | '+' :: cs => (natural? cs).map Int.ofNat
  | cs => (natural? cs).map Int.ofNat

def isExponentMark (c : Char) : Bool :=
  c = 'e' || c = 'E'

/-- Whole digits without leading zeros, then a fraction and an exponent, if any. -/
def unsigned? (negative : Bool) (cs : List Char) : Option WrittenNumber :=
  let whole := cs.takeWhile Char.isDigit
  let (hasPoint, rest) := match cs.dropWhile Char.isDigit with
    | '.' :: rest => (true, rest)
    | rest => (false, rest)
  let fraction := if hasPoint then rest.takeWhile Char.isDigit else []
  let behind := if hasPoint then rest.dropWhile Char.isDigit else rest
  if !Numeral.isCanonical whole || (hasPoint && fraction.isEmpty) then none
  else match behind with
    | [] => some ⟨negative, whole, fraction, none⟩
    | mark :: exponent =>
      if isExponentMark mark then
        (exponent? exponent).map fun e => ⟨negative, whole, fraction, some e⟩
      else none

def ofText? : List Char → Option WrittenNumber
  | '-' :: cs => unsigned? true cs
  | cs => unsigned? false cs

/-! ## Value -/

/-- Whether there is neither a fraction nor an exponent. -/
def isWhole (n : WrittenNumber) : Bool :=
  n.fraction.isEmpty && n.exponent.isNone

/-- A whole number, with its sign. -/
def toInt (n : WrittenNumber) : Int :=
  if n.negative then -Numeral.value n.whole else Numeral.value n.whole

/-- Puts digits behind a number up to the first one with which it no longer fits 64
bits. That digit and the ones behind it are left. -/
def absorb (n : Nat) : List Char → Nat × List Char
  | [] => (n, [])
  | c :: cs =>
    let next := 10 * n + (c.toNat - '0'.toNat)
    if next < UInt64.size then absorb next cs else (n, c :: cs)

/-- The digits that count, and their exponent. Each digit left over before the point
raises it by one, and each digit taken from behind the point lowers it by one. -/
def decimal (n : WrittenNumber) : Decimal :=
  let (digits, wholeLeft) := absorb 0 n.whole
  let (digits, fractionLeft) := absorb digits n.fraction
  ⟨digits, n.exponent.getD 0 + wholeLeft.length + fractionLeft.length - n.fraction.length⟩

/-- The greatest exponent of a power of ten that is a finite number. -/
def maxPower : Nat := 308

def powerOfTen (k : Nat) : Binary64 :=
  .ofDecimal false ⟨1, k⟩

/-- A number times `10 ^ k`. It is divided by powers of ten if `k` is negative, by the
greatest one first, until the rest of `k` is in their range. -/
def scaled (x : Binary64) (k : Int) : Binary64 :=
  if x.isZero then x
  else if k < -maxPower then scaled (x.div (powerOfTen maxPower)) (k + maxPower)
  else if k < 0 then x.div (powerOfTen k.natAbs)
  else if k ≤ maxPower then x.mul (powerOfTen k.natAbs)
  else .infinite x.isNegative
termination_by (-k).toNat
decreasing_by
  simp only [maxPower] at *
  omega

def toBinary64 (n : WrittenNumber) : Binary64 :=
  let d := n.decimal
  scaled (.ofRatio n.negative d.digits 1) d.exponent

/-- Zero with a minus sign is no integer, since no integer has that sign. A number that
is too great is refused. -/
def toNumber? (n : WrittenNumber) : Option JsonNumber :=
  let z := n.toInt
  let x := n.toBinary64
  if h : n.isWhole ∧ ¬(n.negative ∧ z = 0) ∧ Int64.minValue.toInt ≤ z ∧ z < UInt64.size then
    some (.integer z h.2.2)
  else if h : x.isFinite = true then some (.float x h)
  else none

end WrittenNumber

/-- The number that a text stands for, if it is one. -/
def JsonNumber.read (cs : List Char) : Option JsonNumber :=
  (WrittenNumber.ofText? cs).bind WrittenNumber.toNumber?

end DocPath
