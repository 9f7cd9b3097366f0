import Federation.Text.Decimal
import Federation.Text.Reader

/-!
Dates and times in TOML: a date of the calendar, a time of the day, or both with an optional offset.
-/

namespace Federation.Toml

open Federation.Text

def readBetween (count least greatest : Nat) (cs : List Char) : Found Nat :=
  (readExactly count Char.isDigit cs).bind fun (digits, rest) =>
    let n := decimalFrom 0 digits
    if least ≤ n && n ≤ greatest then some (n, rest) else none

def isLeapYear (year : Nat) : Bool :=
  year % 4 == 0 && (year % 100 != 0 || year % 400 == 0)

def daysIn (year month : Nat) : Nat :=
  if month = 2 then if isLeapYear year then 29 else 28
  else if month = 4 || month = 6 || month = 9 || month = 11 then 30
  else 31

def skipDate (cs : List Char) : Option (List Char) :=
  (readBetween 4 0 9999 cs).bind fun (year, cs) =>
    ((readChar '-' cs).bind (readBetween 2 1 12)).bind fun (month, cs) =>
      ((readChar '-' cs).bind (readBetween 2 1 (daysIn year month))).map (·.2)

def skipSecondFraction : List Char → List Char
  | '.' :: rest =>
    if (rest.takeWhile Char.isDigit).isEmpty then '.' :: rest else rest.dropWhile Char.isDigit
  | cs => cs

/-- Skips a time of the day. A minute may have a leap second. -/
def skipTime (cs : List Char) : Option (List Char) :=
  (readBetween 2 0 23 cs).bind fun (_, cs) =>
    ((readChar ':' cs).bind (readBetween 2 0 59)).bind fun (_, cs) =>
      ((readChar ':' cs).bind (readBetween 2 0 60)).map fun (_, cs) => skipSecondFraction cs

def skipOffset (cs : List Char) : Option (List Char) :=
  match cs with
  | c :: rest =>
    if c == 'Z' || c == 'z' then some rest
    else if c == '+' || c == '-' then
      (readBetween 2 0 23 rest).bind fun (_, cs) =>
        ((readChar ':' cs).bind (readBetween 2 0 59)).map (·.2)
    else some cs
  | [] => some []

def skipTimeOfDate (cs : List Char) : Option (List Char) :=
  match cs with
  | c :: rest =>
    if c == 'T' || c == 't' || c == ' ' then
      match skipTime rest with
      | some rest => skipOffset rest
      | none => some cs
    else some cs
  | [] => some []

def startsDate (cs : List Char) : Bool :=
  ((readExactly 4 Char.isDigit cs).bind fun (_, rest) => readChar '-' rest).isSome

def startsTime (cs : List Char) : Bool :=
  ((readExactly 2 Char.isDigit cs).bind fun (_, rest) => readChar ':' rest).isSome

end Federation.Toml
