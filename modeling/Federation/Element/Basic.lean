/-!
Elements: the trees that servers exchange. An element has a name, which may carry a namespace
label before a colon, attributes in the order of their first setting, and optional character data
before its children.
-/

namespace Federation

structure Element where
  name : String
  attrs : List (String × String) := []
  cdata : Option String := none
  children : List Element := []
  deriving Inhabited

namespace Element

mutual

def decEq : (a b : Element) → Decidable (a = b)
  | ⟨n, as, t, cs⟩, ⟨n', as', t', cs'⟩ =>
    if h : n = n' ∧ as = as' ∧ t = t' then
      match decEqList cs cs' with
      | .isTrue hc => .isTrue (by rw [h.1, h.2.1, h.2.2, hc])
      | .isFalse hc => .isFalse (by intro e; cases e; exact hc rfl)
    else .isFalse (by intro e; cases e; exact h ⟨rfl, rfl, rfl⟩)

def decEqList : (as bs : List Element) → Decidable (as = bs)
  | [], [] => .isTrue rfl
  | [], _ :: _ => .isFalse (by intro e; cases e)
  | _ :: _, [] => .isFalse (by intro e; cases e)
  | a :: as, b :: bs =>
    match decEq a b with
    | .isTrue h =>
      match decEqList as bs with
      | .isTrue hs => .isTrue (by rw [h, hs])
      | .isFalse hs => .isFalse (by intro e; cases e; exact hs rfl)
    | .isFalse h => .isFalse (by intro e; cases e; exact h rfl)

end

instance : DecidableEq Element := decEq

/-- Sets an attribute in a list of attributes; one that is there keeps its place. -/
def setIn (key value : String) : List (String × String) → List (String × String)
  | [] => [(key, value)]
  | (k, v) :: rest => if k = key then (k, value) :: rest else (k, v) :: setIn key value rest

def setAttr (e : Element) (key value : String) : Element :=
  { e with attrs := setIn key value e.attrs }

def withCdata (e : Element) (cdata : String) : Element :=
  { e with cdata := some cdata }

def addChild (e : Element) (child : Element) : Element :=
  { e with children := e.children ++ [child] }

def attr? (e : Element) (key : String) : Option String :=
  e.attrs.lookup key

/-- The namespace label of the name: what stands before the first colon, if there is one. -/
def label? (e : Element) : Option String :=
  if e.name.toList.contains ':' then some (String.ofList (e.name.toList.takeWhile (· != ':')))
  else none

def localName (e : Element) : String :=
  match e.name.toList.dropWhile (· != ':') with
  | [] => e.name
  | _ :: rest => String.ofList rest

/-- The namespace that the element itself declares for its name. -/
def xmlns? (e : Element) : Option String :=
  match e.label? with
  | some label => e.attr? ("xmlns:" ++ label)
  | none => e.attr? "xmlns"

def is (e : Element) (localName xmlns : String) : Bool :=
  e.localName == localName && e.xmlns? == some xmlns

def findChild? (e : Element) (localName xmlns : String) : Option Element :=
  e.children.find? (·.is localName xmlns)

def hasChild (e : Element) (localName xmlns : String) : Bool :=
  (e.findChild? localName xmlns).isSome

end Element

end Federation
