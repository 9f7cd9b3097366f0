import Federation.Text.Trim

/-!
Domain names: which texts are one, their canonical form, and the domain part of an address.

A name is a sequence of labels parted by dots, with at most one more dot at the end, or an
address literal in brackets. The canonical form is the lowercase text without the closing dot.
-/

namespace Federation.Domain

open Federation.Text

def maxNameBytes : Nat := 1023

def maxLabelBytes : Nat := 63

def isForbidden (c : Char) : Bool :=
  isBlank c || isControl c || ['@', '/', ':', '"', '\'', '&', '<', '>', '[', ']'].contains c

def isLabel (label : List Char) : Bool :=
  !label.isEmpty && decide (byteLength label ≤ maxLabelBytes) && label.head? != some '-' &&
    label.getLast? != some '-' && !label.any isForbidden

def isLiteralChar (c : Char) : Bool :=
  isHexDigit c || c == ':' || c == '.'

/-- What follows the opening bracket of an address literal: at least one digit, colon or dot, and
the closing bracket. -/
def isLiteralTail (tail : List Char) : Bool :=
  tail.getLast? == some ']' && !tail.dropLast.isEmpty && tail.dropLast.all isLiteralChar

def dropRootDot (name : List Char) : List Char :=
  if name.getLast? = some '.' then name.dropLast else name

def canonical? (name : List Char) : Option (List Char) :=
  if name.isEmpty || decide (maxNameBytes < byteLength name) then none
  else match name with
    | '[' :: tail => if isLiteralTail tail then some (name.map Char.toLower) else none
    | _ =>
      if ((dropRootDot name).splitOn '.').all isLabel then
        some ((dropRootDot name).map Char.toLower)
      else none

def dropResource (address : List Char) : List Char :=
  address.takeWhile (· != '/')

/-- What follows the last at sign, or everything if there is none. -/
def dropNode (address : List Char) : List Char :=
  (address.reverse.takeWhile (· != '@')).reverse

/-- The domain part of an address `node@domain/resource`. -/
def part (address : String) : String :=
  String.ofList (dropNode (dropResource address.toList))

theorem toList_part (address : String) :
    (part address).toList = dropNode (dropResource address.toList) :=
  String.toList_ofList

end Federation.Domain
