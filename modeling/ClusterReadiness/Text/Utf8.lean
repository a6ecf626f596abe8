import ClusterReadiness.Text.Quoted

/-!
Bytes read as UTF-8. Every byte has to belong to the shortest encoding of a character that is no
surrogate. The first place where that fails is reported with the bytes that cannot be read: the
start of a character up to the byte that does not continue it, or what is left of the input where it
ends too early.
-/

namespace ClusterReadiness

namespace Text

inductive Utf8Fault where
  | invalidStart
  | invalidContinuation
  | unexpectedEnd
deriving DecidableEq, Repr

namespace Utf8Fault

def message : Utf8Fault → String
  | invalidStart => "invalid start byte"
  | invalidContinuation => "invalid continuation byte"
  | unexpectedEnd => "unexpected end of data"

end Utf8Fault

/-- Bytes that cannot be read: `count` of them from `position` on, of which `first` is the first. -/
structure Undecodable where
  position : Nat
  count : Nat
  first : UInt8
  fault : Utf8Fault
deriving DecidableEq, Repr

namespace Undecodable

def message (u : Undecodable) : String :=
  let what :=
    if u.count = 1 then
      "byte 0x" ++ String.ofList (hexDigits 2 u.first.toNat) ++ " in position " ++
        toString u.position
    else
      "bytes in position " ++ toString u.position ++ "-" ++ toString (u.position + u.count - 1)
  "'utf-8' codec can't decode " ++ what ++ ": " ++ u.fault.message

end Undecodable

/-- How many bytes follow a first byte of more than one, what it contributes, and the bounds of the
second byte, which keep out longer encodings than needed, surrogates and numbers too large. -/
def leading? (first : Nat) : Option (Nat × Nat × Nat × Nat) :=
  if 0xC2 ≤ first && first < 0xE0 then some (1, first - 0xC0, 0x80, 0xBF)
  else if 0xE0 ≤ first && first < 0xF0 then
    some (2, first - 0xE0, if first = 0xE0 then 0xA0 else 0x80, if first = 0xED then 0x9F else 0xBF)
  else if 0xF0 ≤ first && first < 0xF5 then
    some (3, first - 0xF0, if first = 0xF0 then 0x90 else 0x80, if first = 0xF4 then 0x8F else 0xBF)
  else none

/-- What one read came to: a character and the number of its bytes, or the fault and its bytes. -/
inductive Utf8Step where
  | char (c : Char) (width : Nat)
  | fault (fault : Utf8Fault) (count : Nat)
deriving DecidableEq, Repr

/-- Takes the bytes that continue a character, `taken` of which are there; only the next one has
bounds of its own. -/
def continueChar : (more number low high taken : Nat) → List UInt8 → Utf8Step
  | 0, number, _, _, taken, _ => .char (Char.ofNat number) taken
  | _ + 1, _, _, _, taken, [] => .fault .unexpectedEnd taken
  | more + 1, number, low, high, taken, byte :: rest =>
    let n := byte.toNat
    if low ≤ n && n ≤ high then
      continueChar more (number * 64 + (n - 0x80)) 0x80 0xBF (taken + 1) rest
    else .fault .invalidContinuation taken

def firstChar (byte : UInt8) (rest : List UInt8) : Utf8Step :=
  let n := byte.toNat
  if n < 0x80 then .char (Char.ofNat n) 1
  else
    match leading? n with
    | none => .fault .invalidStart 1
    | some (more, number, low, high) => continueChar more number low high 1 rest

/-- Reads on from a position, with at most `fuel` characters to come. -/
def decodeFrom : (fuel position : Nat) → List UInt8 → Except Undecodable (List Char)
  | 0, _, _ => .ok []
  | _, _, [] => .ok []
  | fuel + 1, position, byte :: rest =>
    match firstChar byte rest with
    | .fault fault count => .error ⟨position, count, byte, fault⟩
    | .char c width =>
      (decodeFrom fuel (position + width) (rest.drop (width - 1))).map (c :: ·)

def decodeUtf8 (bytes : List UInt8) : Except Undecodable String :=
  (decodeFrom bytes.length 0 bytes).map String.ofList

end Text

end ClusterReadiness
