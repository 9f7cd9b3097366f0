/-!
Reading a text from its start. A reader gives what it found and the characters after it, or nothing
if the text does not start with what it looks for.
-/

namespace Federation.Text

abbrev Found (α : Type) := Option (α × List Char)

def readChar (c : Char) : List Char → Option (List Char)
  | [] => none
  | d :: rest => if d = c then some rest else none

def readChars (word : List Char) (cs : List Char) : Option (List Char) :=
  if word.isPrefixOf cs then some (cs.drop word.length) else none

def readExactly (count : Nat) (p : Char → Bool) (cs : List Char) : Found (List Char) :=
  let taken := cs.take count
  if taken.length = count && taken.all p then some (taken, cs.drop count) else none

end Federation.Text
