import Federation.Value

/-!
How the lines of a TOML document make up its tables.

A table is implicit as long as it is only known from longer names, and dotted if it is known from
the dotted key of an assignment. An implicit table may still get a header of its own, a dotted one
may not, and a dotted key may not reach into a table that has a header.
-/

namespace Federation.Toml

inductive Item where
  | value (v : Value)
  | table (isImplicit isDotted : Bool) (entries : List (String × Item))
  | tables (all : List (List (String × Item)))

structure Table where
  isImplicit : Bool := false
  isDotted : Bool := false
  entries : List (String × Item) := []

namespace Table

def item (t : Table) : Item :=
  .table t.isImplicit t.isDotted t.entries

def get? (t : Table) (key : String) : Option Item :=
  t.entries.lookup key

def put (t : Table) (key : String) (i : Item) : Table :=
  if (t.get? key).isSome then
    { t with entries := t.entries.map fun e => if e.1 = key then (key, i) else e }
  else { t with entries := t.entries ++ [(key, i)] }

/-- Changes the table that a path leads to, making the tables on the way that are missing. The path
is `isDotted` if it belongs to an assignment. Of an array of tables the last one is meant. -/
def alterAt (isDotted : Bool) (f : Table → Option Table) : List String → Table → Option Table
  | [], t => f t
  | key :: path, t =>
    match t.get? key with
    | none =>
      (alterAt isDotted f path { isImplicit := true, isDotted := isDotted }).map fun child =>
        t.put key child.item
    | some (.value _) => none
    | some (.tables all) =>
      match all.getLast? with
      | none => none
      | some last =>
        (alterAt isDotted f path { entries := last }).map fun child =>
          t.put key (.tables (all.dropLast ++ [child.entries]))
    | some (.table isImplicit wasDotted entries) =>
      if isDotted && !isImplicit then none
      else
        (alterAt isDotted f path ⟨isImplicit, wasDotted, entries⟩).map fun child =>
          t.put key child.item

def itemAt? (key : String) : List String → Table → Option Item
  | [], t => t.get? key
  | next :: path, t =>
    match t.get? next with
    | some (.table isImplicit isDotted entries) =>
      itemAt? key path ⟨isImplicit, isDotted, entries⟩
    | some (.tables all) => itemAt? key path { entries := all.getLast?.getD [] }
    | _ => none

/-- Assigns a value to a key that the tables of a path lead to. The key must be new, and a table
that has a header is assigned to only under that header. -/
def assign (t : Table) (path : List String) (key : String) (v : Value) : Option Table :=
  alterAt true (fun inner =>
    if inner.isDotted == path.isEmpty || (inner.get? key).isSome then none
    else some (inner.put key (.value v))) path t

end Table

mutual

def Item.toValue : Item → Value
  | .value v => v
  | .table _ _ entries => .record (entryValues entries)
  | .tables all => .list (tableValues all)

def entryValues : List (String × Item) → List (String × Value)
  | [] => []
  | (key, i) :: rest => (key, i.toValue) :: entryValues rest

def tableValues : List (List (String × Item)) → List Value
  | [] => []
  | entries :: rest => .record (entryValues entries) :: tableValues rest

end

end Federation.Toml
