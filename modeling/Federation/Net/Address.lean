import Federation.Text.Decimal
import Federation.Text.Hex
import Federation.Text.Reader

/-!
Internet addresses and their text. An address of the fourth version is four decimal numbers. One of
the sixth version is eight groups in hexadecimal, the last two of which may be written as an address
of the fourth version, and one run of zero groups may be left out between two colons.
-/

namespace Federation.Net

open Federation.Text

structure Ipv4 where
  a : UInt8
  b : UInt8
  c : UInt8
  d : UInt8
  deriving DecidableEq

structure Ipv6 where
  groups : List UInt16
  length_groups : groups.length = 8
  deriving DecidableEq

inductive Address where
  | v4 (address : Ipv4)
  | v6 (address : Ipv6)
  deriving DecidableEq

/-! ## Reading -/

def readOctet (cs : List Char) : Found UInt8 :=
  let digits := cs.takeWhile Char.isDigit
  let value := decimalFrom 0 digits
  if digits.isEmpty || 3 < digits.length || (digits.head? == some '0' && 1 < digits.length) ||
      255 < value then none
  else some (value.toUInt8, cs.dropWhile Char.isDigit)

def readGroup (cs : List Char) : Found UInt16 :=
  let digits := cs.takeWhile isHexDigit
  if digits.isEmpty || 4 < digits.length then none
  else
    some ((hexValue digits).toUInt16, cs.dropWhile isHexDigit)

def readDotOctet (cs : List Char) : Found UInt8 :=
  (readChar '.' cs).bind readOctet

def readIpv4 (cs : List Char) : Found Ipv4 :=
  (readOctet cs).bind fun (a, cs) =>
    (readDotOctet cs).bind fun (b, cs) =>
      (readDotOctet cs).bind fun (c, cs) =>
        (readDotOctet cs).map fun (d, cs) => (⟨a, b, c, d⟩, cs)

def Ipv4.groups (ip : Ipv4) : List UInt16 :=
  [ip.a.toUInt16 * 256 + ip.b.toUInt16, ip.c.toUInt16 * 256 + ip.d.toUInt16]

def readSeparator (isFirst : Bool) (cs : List Char) : Option (List Char) :=
  if isFirst then some cs else readChar ':' cs

/-- Reads up to `limit` groups, and says whether an address of the fourth version ended them. Where
no group can be read, reading ends before the colon. -/
def readGroups (isFirst : Bool) : (limit : Nat) → List Char → List UInt16 × Bool × List Char
  | 0, cs => ([], false, cs)
  | limit + 1, cs =>
    match (if limit = 0 then none else (readSeparator isFirst cs).bind readIpv4) with
    | some (ip, rest) => (ip.groups, true, rest)
    | none =>
      match (readSeparator isFirst cs).bind readGroup with
      | some (group, rest) =>
        let (more, endsInIpv4, rest) := readGroups false limit rest
        (group :: more, endsInIpv4, rest)
      | none => ([], false, cs)

def Ipv6.ofGroups? (groups : List UInt16) : Option Ipv6 :=
  if h : groups.length = 8 then some ⟨groups, h⟩ else none

def readIpv6 (cs : List Char) : Found Ipv6 :=
  let (head, endsInIpv4, rest) := readGroups true 8 cs
  if head.length = 8 then (Ipv6.ofGroups? head).map fun ip => (ip, rest)
  else if endsInIpv4 then none
  else
    ((readChar ':' rest).bind (readChar ':')).bind fun rest =>
      -- At least one group must be left out here.
      let (tail, _, rest) := readGroups true (7 - head.length) rest
      let zeros := List.replicate (8 - head.length - tail.length) 0
      (Ipv6.ofGroups? (head ++ zeros ++ tail)).map fun ip => (ip, rest)

def Address.parse? (s : String) : Option Address :=
  match readIpv4 s.toList with
  | some (ip, rest) => if rest.isEmpty then some (.v4 ip) else none
  | none =>
    match readIpv6 s.toList with
    | some (ip, rest) => if rest.isEmpty then some (.v6 ip) else none
    | none => none

/-! ## Writing -/

def octetText (n : UInt8) : String :=
  decimal n.toNat

def Ipv4.text (ip : Ipv4) : String :=
  octetText ip.a ++ "." ++ octetText ip.b ++ "." ++ octetText ip.c ++ "." ++ octetText ip.d

def groupsText (groups : List UInt16) : String :=
  ":".intercalate (groups.map fun g => String.ofList (hex g.toNat))

def zerosAtStart (groups : List UInt16) : Nat :=
  (groups.takeWhile (· == 0)).length

/-- The place and the length of the longest run of zero groups, of equal ones the first. -/
def longestZeros : List UInt16 → Nat × Nat
  | [] => (0, 0)
  | g :: rest =>
    let here := zerosAtStart (g :: rest)
    let (start, length) := longestZeros rest
    if length ≤ here then (0, here) else (start + 1, length)

def Ipv6.mapped? (ip : Ipv6) : Option Ipv4 :=
  match ip.groups with
  | [0, 0, 0, 0, 0, 0xffff, g, h] =>
    some ⟨(g / 256).toUInt8, g.toUInt8, (h / 256).toUInt8, h.toUInt8⟩
  | _ => none

def Ipv6.text (ip : Ipv6) : String :=
  match ip.mapped? with
  | some ip => "::ffff:" ++ ip.text
  | none =>
    let (start, length) := longestZeros ip.groups
    if 1 < length then
      groupsText (ip.groups.take start) ++ "::" ++ groupsText (ip.groups.drop (start + length))
    else groupsText ip.groups

def Address.text : Address → String
  | .v4 ip => ip.text
  | .v6 ip => ip.text

end Federation.Net
