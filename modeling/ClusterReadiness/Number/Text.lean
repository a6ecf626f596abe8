import ClusterReadiness.Number.Basic

/-!
How numbers are written. A `Float` is written with the fewest decimal digits that read back to it,
positionally while the leading digit stands between the fourth place after the point and the
sixteenth before it, and with an exponent of at least two digits otherwise.
-/

namespace ClusterReadiness

/-- The value `digits * 10 ^ exponent`. -/
structure Decimal where
  digits : Nat
  exponent : Int
deriving DecidableEq, Repr

namespace Decimal

def toFloat (d : Decimal) : Float :=
  if d.exponent < 0 then Float.ofScientific d.digits true d.exponent.natAbs
  else Float.ofScientific d.digits false d.exponent.natAbs

/-- `10 ^ k` as a quotient of naturals. -/
def tenPower (k : Int) : Nat × Nat :=
  if k < 0 then (1, Nat.pow 10 k.natAbs) else (Nat.pow 10 k.natAbs, 1)

/-- The least `k` up to two steps above `k` with `d < 10 ^ k`. -/
def scaleFrom (d : Dyadic) (k : Int) : Nat → Int
  | 0 => k
  | steps + 1 =>
    let (num, den) := tenPower k
    if d.compareQuotient num den == .lt then k else scaleFrom d (k + 1) steps

/-- The value is below `10 ^ scale d` and not below `10 ^ (scale d - 1)`. -/
def scale (d : Dyadic) : Int := scaleFrom d (((d.ceiling - 1) * 1233).fdiv 4096) 3

/-- The multiples of `10 ^ k` around `d`: the one not above it, and whether the next one is closer.
A value halfway between them belongs to the even multiple. -/
def grid (d : Dyadic) (k : Int) : Nat × Bool :=
  let num := (d.mantissa <<< d.exponent.toNat) * Nat.pow 10 (-k).toNat
  let den := (1 <<< (-d.exponent).toNat) * Nat.pow 10 k.toNat
  let below := num / den
  let rest := 2 * (num % den)
  (below, rest > den || (rest == den && below % 2 == 1))

/-- The closest decimal on the grid that still reads back, if one of the two neighbours does. -/
def onGrid? (x : Float) (d : Dyadic) (k : Int) : Option Decimal :=
  let (below, upper) := grid d k
  let near : Decimal := ⟨if upper then below + 1 else below, k⟩
  let far : Decimal := ⟨if upper then below else below + 1, k⟩
  if near.toFloat == x then some near else if far.toFloat == x then some far else none

def shortestFrom (x : Float) (d : Dyadic) (top : Int) (digits : Nat) : Nat → Decimal
  | 0 => let k := top - digits; ⟨(grid d k).1, k⟩
  | more + 1 =>
    match onGrid? x d (top - digits) with
    | some found => found
    | none => shortestFrom x d top (digits + 1) more

/-- Fewest digits that read back to the positive finite `x`. -/
def shortest (x : Float) : Decimal :=
  let d := Dyadic.ofFinite x
  shortestFrom x d (scale d) 1 17

end Decimal

namespace Number

def zeros (n : Nat) : String := String.ofList (List.replicate n '0')

/-- Digits without trailing zeros, and the power of ten of the leading digit. -/
def significant (d : Decimal) : List Char × Int :=
  let text := Nat.toDigits 10 d.digits
  let kept := (text.reverse.dropWhile (· == '0')).reverse
  (kept, d.exponent + (text.length : Int) - 1)

def exponentText (e : Int) : String :=
  let sign := if e < 0 then "-" else "+"
  let digits := toString e.natAbs
  sign ++ (if e.natAbs < 10 then "0" else "") ++ digits

/-- Layout of the digits of a positive value whose leading digit has weight `10 ^ lead`. -/
def layout (digits : List Char) (lead : Int) : String :=
  if lead < -4 || 16 ≤ lead then
    let mantissa := match digits with
      | [] => "0"
      | first :: [] => String.singleton first
      | first :: rest => String.singleton first ++ "." ++ String.ofList rest
    mantissa ++ "e" ++ exponentText lead
  else if lead < 0 then
    "0." ++ zeros (lead.natAbs - 1) ++ String.ofList digits
  else
    let whole := lead.toNat + 1
    if digits.length ≤ whole then
      String.ofList digits ++ zeros (whole - digits.length) ++ ".0"
    else
      String.ofList (digits.take whole) ++ "." ++ String.ofList (digits.drop whole)

def isNegative (x : Float) : Bool := (x.toBits.toNat >>> 63) == 1

def floatText (x : Float) : String :=
  if x.isNaN then "nan"
  else
    let sign := if isNegative x then "-" else ""
    if x.isInf then sign ++ "inf"
    else if x == 0.0 then sign ++ "0.0"
    else
      let (digits, lead) := significant (Decimal.shortest x.abs)
      sign ++ layout digits lead

def text : Number → String
  | int n => toString n
  | float x => floatText x

/-- Three places after the point, a half going to the even neighbour. -/
def thousandths (x : Float) : String :=
  if x.isNaN then "nan"
  else
    let sign := if isNegative x then "-" else ""
    if x.isInf then sign ++ "inf"
    else
      let (below, upper) := Decimal.grid (Dyadic.ofFinite x) (-3)
      let n := if upper then below + 1 else below
      let places := toString (n % 1000)
      sign ++ toString (n / 1000) ++ "." ++ zeros (3 - places.length) ++ places

end Number

end ClusterReadiness
