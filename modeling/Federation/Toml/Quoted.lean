import Federation.Text.Hex
import Federation.Toml.Space

/-!
Texts in TOML. In double quotes a backslash starts an escape, in single quotes every character
stands for itself. Three quotes open a text of several lines; it leaves out a line end right after
them, and may hold one or two quotes in a row, also just before the three that close it.
-/

namespace Federation.Toml

open Federation.Text

def charOfCode? (n : Nat) : Option Char :=
  if h : n.isValidChar then some (Char.ofNatAux n h) else none

def readCode (count : Nat) (cs : List Char) : Found Char :=
  (readExactly count isHexDigit cs).bind fun (digits, rest) =>
    (charOfCode? (hexValue digits)).map fun c => (c, rest)

def readEscape : List Char → Found Char
  | 'b' :: rest => some ('\x08', rest)
  | 't' :: rest => some ('\t', rest)
  | 'n' :: rest => some ('\n', rest)
  | 'f' :: rest => some ('\x0c', rest)
  | 'r' :: rest => some ('\r', rest)
  | '"' :: rest => some ('"', rest)
  | '\\' :: rest => some ('\\', rest)
  | 'u' :: rest => readCode 4 rest
  | 'U' :: rest => readCode 8 rest
  | _ => none

def readBasicFrom : (fuel : Nat) → List Char → Found (List Char)
  | 0, _ => none
  | _ + 1, [] => none
  | fuel + 1, c :: rest =>
    if c = '"' then some ([], rest)
    else if c = '\\' then
      (readEscape rest).bind fun (e, rest) =>
        (readBasicFrom fuel rest).map fun (more, rest) => (e :: more, rest)
    else if isPlain c then
      (readBasicFrom fuel rest).map fun (more, rest) => (c :: more, rest)
    else none

def readLiteral (cs : List Char) : Found (List Char) :=
  let isInside := fun c => isPlain c && c != '\''
  (readChar '\'' (cs.dropWhile isInside)).map fun rest => (cs.takeWhile isInside, rest)

def skipFolded : (fuel : Nat) → List Char → List Char
  | 0, cs => cs
  | fuel + 1, cs =>
    match readNewline (skipBlanks cs) with
    | some rest => skipFolded fuel rest
    | none => skipBlanks cs

/-- The line end that a backslash folds away with all space after it, if nothing but blanks stands
between the two. -/
def readFold (cs : List Char) : Option (List Char) :=
  (readNewline (skipBlanks cs)).map fun rest => skipFolded rest.length rest

/-- What a run of quotes in a text of several lines means: how many quotes belong to the text, and
whether it ends there. -/
def splitQuotes (count : Nat) : Nat × Bool :=
  if count < 3 then (count, false) else (min (count - 3) 2, true)

def readLinesFrom (quote : Char) (hasEscapes : Bool) :
    (fuel : Nat) → List Char → Found (List Char)
  | 0, _ => none
  | fuel + 1, cs =>
    match readNewline cs with
    | some rest =>
      (readLinesFrom quote hasEscapes fuel rest).map fun (more, rest) => ('\n' :: more, rest)
    | none =>
      match cs with
      | [] => none
      | c :: rest =>
        if c = quote then
          let (inside, ends) := splitQuotes (cs.takeWhile (· == quote)).length
          let quotes := List.replicate inside quote
          if ends then some (quotes, cs.drop (inside + 3))
          else
            (readLinesFrom quote hasEscapes fuel (cs.drop inside)).map fun (more, rest) =>
              (quotes ++ more, rest)
        else if hasEscapes && c == '\\' then
          match readFold rest with
          | some rest => readLinesFrom quote hasEscapes fuel rest
          | none =>
            (readEscape rest).bind fun (e, rest) =>
              (readLinesFrom quote hasEscapes fuel rest).map fun (more, rest) => (e :: more, rest)
        else if isPlain c then
          (readLinesFrom quote hasEscapes fuel rest).map fun (more, rest) => (c :: more, rest)
        else none

/-- Reads a text of several lines after its three opening quotes; a line end there is no
part of it. -/
def readLines (quote : Char) (hasEscapes : Bool) (cs : List Char) : Found (List Char) :=
  let start := (readNewline cs).getD cs
  readLinesFrom quote hasEscapes (start.length + 1) start

def readLine : List Char → Found String
  | '"' :: rest => (readBasicFrom rest.length rest).map fun (cs, rest) => (String.ofList cs, rest)
  | '\'' :: rest => (readLiteral rest).map fun (cs, rest) => (String.ofList cs, rest)
  | _ => none

def readText : List Char → Found String
  | '"' :: '"' :: '"' :: rest =>
    (readLines '"' true rest).map fun (cs, rest) => (String.ofList cs, rest)
  | '\'' :: '\'' :: '\'' :: rest =>
    (readLines '\'' false rest).map fun (cs, rest) => (String.ofList cs, rest)
  | cs => readLine cs

end Federation.Toml
