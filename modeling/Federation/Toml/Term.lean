import Federation.Toml.Number
import Federation.Toml.Quoted
import Federation.Toml.Table
import Federation.Toml.Time

/-!
Keys and values in TOML. Arrays may stretch over several lines and end with a comma, inline tables
may do neither. Dotted keys and nested values are limited in depth.
-/

namespace Federation.Toml

open Federation.Text

/-- No key has more parts, and no value is nested deeper, than this. -/
def maxDepth : Nat := 79

def isKeyChar (c : Char) : Bool :=
  c.isAlphanum || c == '-' || c == '_'

def readKeyPart (cs : List Char) : Found String :=
  match readLine cs with
  | some found => some found
  | none =>
    let word := cs.takeWhile isKeyChar
    if word.isEmpty then none else some (String.ofList word, cs.dropWhile isKeyChar)

/-- Reads a key of at most `limit` parts with dots between them: the parts before the last one, and
the last one. Blanks may stand around every part. -/
def readKey : (limit : Nat) → List Char → Found (List String × String)
  | 0, _ => none
  | limit + 1, cs =>
    (readKeyPart (skipBlanks cs)).bind fun (part, rest) =>
      match skipBlanks rest with
      | '.' :: rest =>
        (readKey limit rest).map fun ((path, key), rest) => ((part :: path, key), rest)
      | rest => some (([], part), rest)

def readScalar (cs : List Char) : Found Value :=
  match readText cs with
  | some (s, rest) => some (.text s, rest)
  | none =>
    match readChars ['t', 'r', 'u', 'e'] cs with
    | some rest => some (.bool true, rest)
    | none =>
      match readChars ['f', 'a', 'l', 's', 'e'] cs with
      | some rest => some (.bool false, rest)
      | none =>
        if startsDate cs then
          ((skipDate cs).bind skipTimeOfDate).map fun rest => (.time, rest)
        else if startsTime cs then (skipTime cs).map fun rest => (.time, rest)
        else readNumber cs

def readItems (read : List Char → Found Value) : (fuel : Nat) → List Char → Found (List Value)
  | 0, _ => none
  | fuel + 1, cs =>
    match skipLines cs with
    | ']' :: rest => some ([], rest)
    | cs =>
      (read cs).bind fun (v, rest) =>
        match skipLines rest with
        | ',' :: rest => (readItems read fuel rest).map fun (more, rest) => (v :: more, rest)
        | ']' :: rest => some ([v], rest)
        | _ => none

def readAssignment (read : List Char → Found Value) (cs : List Char) :
    Found ((List String × String) × Value) :=
  (readKey maxDepth cs).bind fun (key, rest) =>
    (readChar '=' rest).bind fun rest =>
      (read (skipBlanks rest)).map fun (v, rest) => ((key, v), rest)

def readFields (read : List Char → Found Value) : (fuel : Nat) → Table → List Char → Found Table
  | 0, _, _ => none
  | fuel + 1, t, cs =>
    (readAssignment read cs).bind fun (((path, key), v), rest) =>
      (t.assign path key v).bind fun t =>
        match skipBlanks rest with
        | ',' :: rest => readFields read fuel t rest
        | '\x7d' :: rest => some (t, rest)
        | _ => none

def readInlineTable (read : List Char → Found Value) (cs : List Char) : Found Value :=
  match skipBlanks cs with
  | '\x7d' :: rest => some (.record [], rest)
  | cs => (readFields read cs.length {} cs).map fun (t, rest) => (t.item.toValue, rest)

def readValue : (depth : Nat) → List Char → Found Value
  | 0, cs => readScalar cs
  | depth + 1, cs =>
    match cs with
    | '[' :: rest =>
      (readItems (readValue depth) (rest.length + 1) rest).map fun (vs, rest) => (.list vs, rest)
    | '\x7b' :: rest => readInlineTable (readValue depth) rest
    | _ => readScalar cs

end Federation.Toml
