import ClusterReadiness.Number.Dyadic

/-!
The numbers that policies, delays and documents are made of: integers of any size and binary64
values, kept apart, since a message shows which of the two a number is. Mixed operations convert the
integer; a comparison is exact. Growth of a product to infinity is silent, but an integer that no
`Float` can hold, or a power out of range, is an `Overflow`.
-/

namespace ClusterReadiness

inductive Overflow where
  | integerTooLarge
  | powerOutOfRange
  | quotientTooLarge
  | timerTooLarge
  | countTooLarge
  | countTooWide
deriving DecidableEq, Repr

namespace Overflow

def message : Overflow → String
  | integerTooLarge => "int too large to convert to float"
  | powerOutOfRange => "(34, 'Numerical result out of range')"
  | quotientTooLarge => "integer division result too large for a float"
  | timerTooLarge => "timestamp too large to convert to C _PyTime_t"
  | countTooLarge => "signed integer is greater than maximum"
  | countTooWide => "Python int too large to convert to C long"

end Overflow

inductive Number where
  | int (value : Int)
  | float (value : Float)
deriving DecidableEq

namespace Number

def infinity : Float := Float.ofScientific 1 false 400

/-- The closest `Float` to `digits * 10 ^ exponent`. Exponents far outside of its range are settled
without computing the power. -/
def ofDecimal (digits : Nat) (exponent : Int) : Float :=
  let lead := exponent + (Nat.toDigits 10 digits).length
  if digits = 0 || lead < -400 then 0.0
  else if 400 < lead then infinity
  else Float.ofScientific digits (decide (exponent < 0)) exponent.natAbs

/-- The closest `Float`, unless rounding leaves the finite range. -/
def ofInt? (n : Int) : Option Float :=
  let x := Float.ofInt n
  if x.isInf then none else some x

def toFloat : Number → Except Overflow Float
  | int n => match ofInt? n with
    | some x => .ok x
    | none => .error .integerTooLarge
  | float x => .ok x

/-- A number times a factor is always a `Float`. -/
def scale (a : Number) (factor : Float) : Except Overflow Number :=
  a.toFloat.map fun x => .float (x * factor)

/-- The integer is strictly below the `Float`, compared exactly. -/
def intBelowFloat (n : Int) (x : Float) : Bool :=
  if x.isNaN then false
  else if x.isInf then 0.0 < x
  else if 0.0 ≤ x then n < 0 || (Dyadic.ofFinite x).compareQuotient n.toNat 1 == .gt
  else n < 0 && (Dyadic.ofFinite x).compareQuotient n.natAbs 1 == .lt

def isBelow : Number → Number → Bool
  | int a, int b => decide (a < b)
  | int a, float y => intBelowFloat a y
  | float x, int b => intBelowFloat (-b) (-x)
  | float x, float y => decide (x < y)

/-- The cap takes over only when it is strictly below; a NaN is never capped. -/
def capAt (x : Float) (cap : Int) : Number :=
  if intBelowFloat cap x then .int cap else .float x

/-- The integer that the closest `Float` of `n` stands for. -/
def rounded (x : Float) (n : Int) : Int :=
  let magnitude : Int := (Dyadic.ofFinite x).floor
  if n < 0 then -magnitude else magnitude

/-- `base ^ n` rounded once, for a base that is not negative. The exponent is itself taken as a
`Float`; a zero exponent gives one whatever the base. -/
def power (base : Float) (n : Int) : Except Overflow Float :=
  match ofInt? n with
  | none => .error .integerTooLarge
  | some y =>
    let n := rounded y n
    if n = 0 then .ok 1.0
    else if base.isNaN then .ok base
    else if base.isInf then .ok (if n < 0 then 0.0 else base)
    else
      let p := (Dyadic.ofFinite base).pow n.natAbs
      let r := (if n < 0 then p.inverse else p).nearest
      if r.isInf then .error .powerOutOfRange else .ok r

end Number

end ClusterReadiness
