import DocPath.Binary64.Basic

/-!
# Products and quotients

The exact product or quotient of two floating-point numbers, rounded once. The signs
are combined also where the result is a zero or infinite.
-/

namespace DocPath.Binary64

def isNegative : Binary64 → Bool
  | .nan => false
  | .infinite negative => negative
  | .finite negative .. => negative

/-- A zero times an infinite number is "not a number". -/
def mul : Binary64 → Binary64 → Binary64
  | .finite s e f, .finite t g h =>
    let x := magnitude e f
    let y := magnitude g h
    ofRatio (s ^^ t) (x.num * y.num) (x.den * y.den)
  | .nan, _ => .nan
  | _, .nan => .nan
  | x, y =>
    if x.isZero || y.isZero then .nan else .infinite (x.isNegative ^^ y.isNegative)

/-- Two zeros, and two infinite numbers, have no quotient. -/
def div : Binary64 → Binary64 → Binary64
  | .finite s e f, .finite t g h =>
    let x := magnitude e f
    let y := magnitude g h
    if y.significand ≠ 0 then ofRatio (s ^^ t) (x.num * y.den) (x.den * y.num)
    else if x.significand ≠ 0 then .infinite (s ^^ t)
    else .nan
  | .finite s .., .infinite t => zero (s ^^ t)
  | .infinite s, .finite t .. => .infinite (s ^^ t)
  | _, _ => .nan

end DocPath.Binary64
