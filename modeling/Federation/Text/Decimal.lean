/-!
Decimal numerals without a sign.
-/

namespace Federation.Text

def decimalFrom (start : Nat) (digits : List Char) : Nat :=
  digits.foldl (fun n c => n * 10 + (c.toNat - '0'.toNat)) start

/-- Reads a numeral of at most `bits` binary places. One plus sign may stand before its digits. -/
def readUnsigned? (bits : Nat) (s : String) : Option Nat :=
  let digits := match s.toList with
    | '+' :: rest => rest
    | cs => cs
  if digits.isEmpty || !digits.all Char.isDigit then none
  else
    let n := decimalFrom 0 digits
    if n < Nat.pow 2 bits then some n else none

def decimal (n : Nat) : String :=
  String.ofList (Nat.toDigits 10 n)

end Federation.Text
