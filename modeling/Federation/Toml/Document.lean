import Federation.Toml.Term

/-!
TOML documents: the lines that say something, and the tables that they make up together.
-/

namespace Federation.Toml

open Federation.Text

inductive Statement where
  | assign (path : List String) (key : String) (v : Value)
  /-- The header of a table, or of one more table in an array. -/
  | header (isArray : Bool) (path : List String) (key : String)

def readStatement (cs : List Char) : Found Statement :=
  match cs with
  | '[' :: '[' :: rest =>
    (readKey maxDepth rest).bind fun ((path, key), rest) =>
      ((readChars [']', ']'] rest).bind readLineEnd).map fun rest => (.header true path key, rest)
  | '[' :: rest =>
    (readKey maxDepth rest).bind fun ((path, key), rest) =>
      ((readChar ']' rest).bind readLineEnd).map fun rest => (.header false path key, rest)
  | cs =>
    (readAssignment (readValue maxDepth) cs).bind fun (((path, key), v), rest) =>
      (readLineEnd rest).map fun rest => (.assign path key v, rest)

def readStatements : (fuel : Nat) → List Char → Option (List Statement)
  | 0, cs => if cs.isEmpty then some [] else none
  | fuel + 1, cs =>
    match skipBlanks cs with
    | [] => some []
    | cs =>
      match readLineEnd cs with
      | some rest => readStatements fuel rest
      | none =>
        (readStatement cs).bind fun (statement, rest) =>
          (readStatements fuel rest).map (statement :: ·)

/-- A document while it is read: the tables that are complete, and the one that assignments go to,
with its place once it has had a header. -/
structure Draft where
  root : Table := {}
  current : Table := {}
  place : Option (Bool × List String × String) := none

namespace Draft

def close (d : Draft) : Option Table :=
  match d.place with
  | none => some d.current
  | some (false, path, key) =>
    Table.alterAt false (fun parent => some (parent.put key d.current.item)) path d.root
  | some (true, path, key) =>
    Table.alterAt false (fun parent =>
      match parent.get? key with
      | none => some (parent.put key (.tables [d.current.entries]))
      | some (.tables all) => some (parent.put key (.tables (all ++ [d.current.entries])))
      | some _ => none) path d.root

/-- Starts the table of a header. A table that is only implicit so far keeps what it holds. -/
def openTable (d : Draft) (path : List String) (key : String) : Option Draft :=
  d.close.bind fun root =>
    (Table.alterAt false some path root).bind fun root =>
      match Table.itemAt? key path root with
      | none => some ⟨root, {}, some (false, path, key)⟩
      | some (.table true false entries) =>
        some ⟨root, { entries := entries }, some (false, path, key)⟩
      | some _ => none

def openArrayTable (d : Draft) (path : List String) (key : String) : Option Draft :=
  d.close.bind fun root =>
    (Table.alterAt false some path root).bind fun root =>
      match Table.itemAt? key path root with
      | none => some ⟨root, {}, some (true, path, key)⟩
      | some (.tables _) => some ⟨root, {}, some (true, path, key)⟩
      | some _ => none

def add (d : Draft) : Statement → Option Draft
  | .assign path key v => (d.current.assign path key v).map fun t => { d with current := t }
  | .header false path key => d.openTable path key
  | .header true path key => d.openArrayTable path key

end Draft

def dropByteOrderMark : List Char → List Char
  | '\ufeff' :: rest => rest
  | cs => cs

def parse? (text : String) : Option Value :=
  let cs := dropByteOrderMark text.toList
  (readStatements (cs.length + 1) cs).bind fun statements =>
    (statements.foldlM Draft.add ({} : Draft)).bind fun draft =>
      draft.close.map fun root => root.item.toValue

end Federation.Toml
