import ClusterReadiness.Document.Basic
import ClusterReadiness.Toml.Lexeme

/-!
Numbers, dates and times of a TOML document. Digits may be grouped by single underscores. A date is a
day of the calendar from year one on, and a time without a date has no offset.
-/

namespace ClusterReadiness

namespace Toml

section Numbers

/-- Digits, after the first one, with single underscores between them. -/
def groupedRest (isDigit : Char → Bool) : List Char → List Char × List Char
  | [] => ([], [])
  | c :: rest =>
    if isDigit c then
      let (digits, after) := groupedRest isDigit rest
      (c :: digits, after)
    else if c == '_' && (rest.head?.any isDigit) then groupedRest isDigit rest
    else ([], c :: rest)

def grouped (isDigit : Char → Bool) : List Char → Parsed (List Char)
  | c :: rest =>
    if isDigit c then
      let (digits, after) := groupedRest isDigit rest
      some (c :: digits, after)
    else none
  | [] => none

def valueOf (base : Nat) (digits : List Char) : Nat :=
  digits.foldl (fun n c => n * base + (hexDigit? c).getD 0) 0

def isBinary (c : Char) : Bool := c == '0' || c == '1'

def isOctal (c : Char) : Bool := '0' ≤ c && c ≤ '7'

def isHexadecimal (c : Char) : Bool := (hexDigit? c).isSome

/-- An unsigned integer with a mark for its base. -/
def marked : List Char → Parsed Nat
  | '0' :: mark :: rest =>
    let digits (base : Nat) (isDigit : Char → Bool) : Parsed Nat :=
      (grouped isDigit rest).map fun (digits, rest) => (valueOf base digits, rest)
    if mark == 'x' then digits 16 isHexadecimal
    else if mark == 'b' then digits 2 isBinary
    else if mark == 'o' then digits 8 isOctal
    else none
  | _ => none

/-- The digits before the point; a leading zero stands alone. -/
def wholePart : List Char → Parsed (List Char)
  | '0' :: rest => some (['0'], rest)
  | cs => grouped Char.isDigit cs

def fraction : List Char → List Char × List Char
  | '.' :: rest => (grouped Char.isDigit rest).getD ([], '.' :: rest)
  | cs => ([], cs)

def signed : List Char → Bool × List Char
  | '-' :: rest => (true, rest)
  | '+' :: rest => (false, rest)
  | cs => (false, cs)

def exponent? (cs : List Char) : Parsed Int :=
  match cs with
  | c :: rest =>
    if c == 'e' || c == 'E' then
      let (negative, rest) := signed rest
      (grouped Char.isDigit rest).map fun (digits, rest) =>
        (if negative then -(valueOf 10 digits : Int) else valueOf 10 digits, rest)
    else none
  | [] => none

def negateIf (negative : Bool) (x : Float) : Float := if negative then -x else x

/-- A decimal number is a `Float` if it has a fraction or an exponent. -/
def decimal (cs : List Char) : Parsed Document :=
  let (negative, cs) := signed cs
  match wholePart cs with
  | none => none
  | some (whole, rest) =>
    let (places, rest) := fraction rest
    let exponent := exponent? rest
    if places.isEmpty && exponent.isNone then
      let n : Int := valueOf 10 whole
      some (.int (if negative then -n else n), rest)
    else
      let (e, rest) := exponent.getD (0, rest)
      let x := Number.ofDecimal (valueOf 10 (whole ++ places)) (e - places.length)
      some (.float (negateIf negative x), rest)

def notANumber : Float := Number.infinity - Number.infinity

def special (cs : List Char) : Parsed Document :=
  let (negative, rest) := signed cs
  match rest with
  | 'i' :: 'n' :: 'f' :: rest => some (.float (negateIf negative Number.infinity), rest)
  | 'n' :: 'a' :: 'n' :: rest => some (.float notANumber, rest)
  | _ => none

def number (cs : List Char) : Parsed Document :=
  match marked cs with
  | some (n, rest) => some (.int n, rest)
  | none => (decimal cs).or (special cs)

end Numbers

section Moments

/-- Exactly so many digits, as a number within bounds. -/
def fixed (width least most : Nat) (cs : List Char) : Option (Nat × List Char) :=
  let digits := cs.take width
  let n := valueOf 10 digits
  if digits.length == width && digits.all Char.isDigit && least ≤ n && n ≤ most then
    some (n, cs.drop width)
  else none

def skipChar (c : Char) : List Char → Option (List Char)
  | d :: rest => if d == c then some rest else none
  | [] => none

def isLeapYear (year : Nat) : Bool :=
  year % 4 == 0 && (year % 100 != 0 || year % 400 == 0)

def daysIn (year month : Nat) : Nat :=
  if month = 2 then (if isLeapYear year then 29 else 28)
  else if month = 4 || month = 6 || month = 9 || month = 11 then 30
  else 31

/-- Year, month and day as they are written. -/
def dateShape (cs : List Char) : Option ((Nat × Nat × Nat) × List Char) := do
  let (year, cs) ← fixed 4 0 9999 cs
  let (month, cs) ← fixed 2 1 12 (← skipChar '-' cs)
  let (day, cs) ← fixed 2 1 31 (← skipChar '-' cs)
  return ((year, month, day), cs)

/-- A fraction of a second is taken with at least one digit. -/
def skipFraction (cs : List Char) : List Char :=
  match cs with
  | '.' :: c :: rest => if c.isDigit then rest.dropWhile Char.isDigit else cs
  | _ => cs

def clockTime (cs : List Char) : Option (List Char) := do
  let (_, cs) ← fixed 2 0 23 cs
  let (_, cs) ← fixed 2 0 59 (← skipChar ':' cs)
  let (_, cs) ← fixed 2 0 59 (← skipChar ':' cs)
  return skipFraction cs

def zoneOffset (cs : List Char) : Option (List Char) := do
  let (_, cs) ← fixed 2 0 23 cs
  let (_, cs) ← fixed 2 0 59 (← skipChar ':' cs)
  return cs

def skipZone (cs : List Char) : List Char :=
  match cs with
  | 'Z' :: rest | 'z' :: rest => rest
  | '+' :: rest | '-' :: rest => (zoneOffset rest).getD cs
  | _ => cs

/-- The time of day after a date, set off by one character. -/
def timeOfDay (cs : List Char) : Option (List Char) :=
  match cs with
  | c :: rest => if c == 'T' || c == 't' || c == ' ' then clockTime rest else none
  | [] => none

/-- A text of the shape of a date is a date or nothing. -/
def moment? (cs : List Char) : Option (Parsed Document) :=
  match dateShape cs with
  | some ((year, month, day), rest) =>
    some (if year = 0 || daysIn year month < day then none
      else match timeOfDay rest with
        | some rest => some (.datetime, skipZone rest)
        | none => some (.date, rest))
  | none => (clockTime cs).map fun rest => some (.time, rest)

end Moments

end Toml

end ClusterReadiness
