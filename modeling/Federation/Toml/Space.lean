import Federation.Text.Reader

/-!
The space between the parts of a TOML document: blanks, comments and ends of lines.
-/

namespace Federation.Toml

open Federation.Text

def isBlank (c : Char) : Bool :=
  c == ' ' || c == '\t'

/-- Characters that comments and texts may hold: no controls but the tab. -/
def isPlain (c : Char) : Bool :=
  c == '\t' || (0x20 ≤ c.toNat && c.toNat ≤ 0x7E) || 0x80 ≤ c.toNat

def skipBlanks (cs : List Char) : List Char :=
  cs.dropWhile isBlank

def readNewline : List Char → Option (List Char)
  | '\n' :: rest => some rest
  | '\r' :: '\n' :: rest => some rest
  | _ => none

def skipComment : List Char → List Char
  | '#' :: rest => rest.dropWhile isPlain
  | cs => cs

def readLineEnd (cs : List Char) : Option (List Char) :=
  match skipComment (skipBlanks cs) with
  | [] => some []
  | rest => readNewline rest

def skipLinesFrom : (fuel : Nat) → List Char → List Char
  | 0, cs => cs
  | fuel + 1, cs =>
    match readNewline (skipComment (skipBlanks cs)) with
    | some rest => skipLinesFrom fuel rest
    | none => skipBlanks cs

def skipLines (cs : List Char) : List Char :=
  skipLinesFrom cs.length cs

end Federation.Toml
