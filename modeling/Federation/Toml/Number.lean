import Federation.Text.Decimal
import Federation.Text.Hex
import Federation.Text.Reader
import Federation.Value

/-!
Numbers in TOML. Digits may be parted by single underscores. An integer has 64 bits with its sign,
and a number with a fraction or an exponent must not round to infinity.
-/

namespace Federation.Toml

open Federation.Text

/-- Reads a run of digits with single underscores between them, and leaves the underscores out. -/
def readDigits (isDigit : Char → Bool) (cs : List Char) : Found (List Char) :=
  let isPart := fun c => isDigit c || c == '_'
  let groups := (cs.takeWhile isPart).splitOn '_'
  if groups.all fun group => !group.isEmpty then some (groups.flatten, cs.dropWhile isPart)
  else none

def valueInBase (base : Nat) (digits : List Char) : Nat :=
  digits.foldl (fun n c => n * base + (hexValue? c).getD 0) 0

def readInBase (base : Nat) (isDigit : Char → Bool) (cs : List Char) : Found Value :=
  (readDigits isDigit cs).bind fun (digits, rest) =>
    let value := valueInBase base digits
    if value < Nat.pow 2 63 then some (.int value, rest) else none

def readFraction : List Char → Found (List Char)
  | '.' :: rest => readDigits Char.isDigit rest
  | cs => some ([], cs)

def readSign : List Char → Bool × List Char
  | '-' :: rest => (true, rest)
  | '+' :: rest => (false, rest)
  | cs => (false, cs)

def readExponent (cs : List Char) : Found Int :=
  match cs with
  | c :: rest =>
    if c == 'e' || c == 'E' then
      let (isNegative, rest) := readSign rest
      (readDigits Char.isDigit rest).map fun (digits, rest) =>
        let value : Int := decimalFrom 0 digits
        (if isNegative then -value else value, rest)
    else some (0, cs)
  | [] => some (0, cs)

/-- Whether `digits` times a power of ten is at least the least number that rounds to infinity
as a double. -/
def roundsToInfinity (digits : Nat) (exponent : Int) : Bool :=
  let bound := Nat.pow 2 1024 - Nat.pow 2 970
  let places : Int := (Nat.toDigits 10 digits).length + exponent
  if digits = 0 || places < 300 then false
  else if 310 < places then true
  else if 0 ≤ exponent then bound ≤ digits * Nat.pow 10 exponent.toNat
  else bound * Nat.pow 10 (-exponent).toNat ≤ digits

def isContinued : List Char → Bool
  | c :: _ => c == '.' || c == 'e' || c == 'E'
  | [] => false

/-- The integer of some digits, if it has no more than 64 bits with its sign. -/
def integer? (isNegative : Bool) (digits : List Char) : Option Value :=
  let value := decimalFrom 0 digits
  if isNegative then
    if value ≤ Nat.pow 2 63 then some (.int (-value)) else none
  else if value < Nat.pow 2 63 then some (.int value)
  else none

def readDecimal (isNegative : Bool) (cs : List Char) : Found Value :=
  (readDigits Char.isDigit cs).bind fun (whole, rest) =>
    if whole.head? == some '0' && 1 < whole.length then none
    else if isContinued rest then
      (readFraction rest).bind fun (fraction, rest) =>
        (readExponent rest).bind fun (exponent, rest) =>
          let digits := decimalFrom 0 (whole ++ fraction)
          if !isNegative && roundsToInfinity digits (exponent - fraction.length) then none
          else some (.float, rest)
    else (integer? isNegative whole).map fun v => (v, rest)

def readSpecial (cs : List Char) : Found Value :=
  match readChars ['i', 'n', 'f'] cs with
  | some rest => some (.float, rest)
  | none => (readChars ['n', 'a', 'n'] cs).map fun rest => (.float, rest)

/-- Reads any number. Only a number without a sign has a base other than ten. -/
def readNumber (cs : List Char) : Found Value :=
  match cs with
  | '0' :: 'x' :: rest => readInBase 16 isHexDigit rest
  | '0' :: 'o' :: rest => readInBase 8 (fun c => '0' ≤ c && c ≤ '7') rest
  | '0' :: 'b' :: rest => readInBase 2 (fun c => c == '0' || c == '1') rest
  | _ =>
    let (isNegative, rest) := readSign cs
    match readSpecial rest with
    | some found => some found
    | none => readDecimal isNegative rest

end Federation.Toml
