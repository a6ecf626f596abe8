/-!
Finite numbers written `mantissa * 2 ^ exponent`. Every finite `Float` is one of them up to its
sign, and `nearest` goes back: it rounds to the closest `Float`, ties to the even neighbour.
Nothing here says anything about the infinities except that `nearest` answers one on overflow.
-/

namespace ClusterReadiness

structure Dyadic where
  mantissa : Nat
  exponent : Int
deriving DecidableEq, Repr

namespace Dyadic

/-- The magnitude of a finite `Float`; the sign is read off separately. -/
def ofFinite (x : Float) : Dyadic :=
  let bits : Nat := x.toBits.toNat
  let field : Nat := (bits >>> 52) % 2048
  let fraction : Nat := bits % (1 <<< 52)
  if field = 0 then ⟨fraction, -1074⟩ else ⟨(1 <<< 52) + fraction, (field : Int) - 1075⟩

/-- Number of binary digits of the mantissa. -/
def width (d : Dyadic) : Nat := if d.mantissa = 0 then 0 else d.mantissa.log2 + 1

/-- The value is at least `2 ^ (ceiling - 1)`. -/
def ceiling (d : Dyadic) : Int := d.exponent + d.width

/-- Rounds to the closest `Float`. A power of two below the point is a power of five over one of
ten, so the decimal reader of the core library does the rounding. -/
def nearest (d : Dyadic) : Float :=
  if d.mantissa = 0 || d.ceiling < -1100 then 0.0
  else if d.ceiling > 1100 then Float.ofScientific 1 false 400
  else if d.exponent < 0 then
    let places := (-d.exponent).toNat
    Float.ofScientific (d.mantissa * Nat.pow 5 places) true places
  else Float.ofScientific (d.mantissa <<< d.exponent.toNat) false 0

/-- The closest `Float` to a quotient; `den` is not zero. -/
def nearestQuotient (num den : Nat) : Float :=
  let shift := 64 + den.log2
  let quotient := (num <<< shift) / den
  let rest := (num <<< shift) % den
  nearest ⟨if rest = 0 then quotient else quotient ||| 1, -(shift : Int)⟩

def mul (a b : Dyadic) : Dyadic := ⟨a.mantissa * b.mantissa, a.exponent + b.exponent⟩

/-- Keeps the leading `digits` binary digits. Lost digits that are not all zero leave a trace in the
last one kept, so that a later `nearest` does not take the value for a tie. -/
def trim (digits : Nat) (d : Dyadic) : Dyadic :=
  let extra := d.width - digits
  if extra = 0 then d
  else
    let kept := d.mantissa >>> extra
    let lost := d.mantissa % (1 <<< extra)
    ⟨if lost = 0 then kept else kept ||| 1, d.exponent + extra⟩

/-- Digits carried through a power. A power that fits is exact. -/
def workingDigits : Nat := 320

/-- Repeated squaring over the lowest `steps` binary digits of the exponent. -/
def powSteps (d : Dyadic) : Nat → Nat → Dyadic
  | 0, _ => ⟨1, 0⟩
  | steps + 1, n =>
    let half := powSteps d steps (n / 2)
    let square := (half.mul half).trim workingDigits
    if n % 2 = 0 then square else (square.mul d).trim workingDigits

def pow (d : Dyadic) (n : Nat) : Dyadic := d.powSteps (n.log2 + 1) n

/-- `1 / d`, for a mantissa that is not zero, to the digits carried. -/
def inverse (d : Dyadic) : Dyadic :=
  let shift := workingDigits + d.width
  let quotient := (1 <<< shift) / d.mantissa
  let exact := (1 <<< shift) % d.mantissa = 0
  ⟨if exact then quotient else quotient ||| 1, -(shift : Int) - d.exponent⟩

/-- The whole number below the value. -/
def floor (d : Dyadic) : Nat :=
  if d.exponent < 0 then d.mantissa >>> (-d.exponent).toNat
  else d.mantissa <<< d.exponent.toNat

/-- Exact comparison with a quotient of naturals, by cross-multiplying. -/
def compareQuotient (d : Dyadic) (num den : Nat) : Ordering :=
  if d.exponent < 0 then compare (d.mantissa * den) (num <<< (-d.exponent).toNat)
  else compare ((d.mantissa <<< d.exponent.toNat) * den) num

end Dyadic

end ClusterReadiness
