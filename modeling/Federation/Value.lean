/-!
Structured values: what a file or a message says before anyone knows what it is meant to be.
-/

namespace Federation

inductive Value where
  | null
  | bool (b : Bool)
  | int (n : Int)
  /-- A number with a fraction or an exponent. Nothing here is read from one. -/
  | float
  | text (s : String)
  /-- A date, a time or both. Nothing here is read from one. -/
  | time
  | list (items : List Value)
  | record (fields : List (String × Value))
  deriving Inhabited

namespace Value

def bool? : Value → Option Bool
  | .bool b => some b
  | _ => none

def text? : Value → Option String
  | .text s => some s
  | _ => none

def unsigned? (bits : Nat) : Value → Option Nat
  | .int n => if 0 ≤ n ∧ n < Nat.pow 2 bits then some n.toNat else none
  | _ => none

def listOf? {α : Type} (read : Value → Option α) : Value → Option (List α)
  | .list items => items.mapM read
  | _ => none

/-- The values of some fields, found by their names in a record or by their places in a list. A
time counts as a record without any of them. -/
def fields? (names : List String) : Value → Option (List (Option Value))
  | .record fields => some (names.map fun name => fields.lookup name)
  | .list items => some ((List.range names.length).map fun i => items[i]?)
  | .time => some (names.map fun _ => none)
  | _ => none

/-- The name of a variant, by itself or as a record of nothing but itself. -/
def variant? : Value → Option String
  | .text s => some s
  | .record [(name, .null)] => some name
  | _ => none

end Value

end Federation
