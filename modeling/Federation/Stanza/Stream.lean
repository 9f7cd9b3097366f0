import Federation.Element.Xml
import Federation.Stanza.Namespace

/-!
The envelope of a stream: its header, its features and its errors.
-/

namespace Federation

/-- What a peer announces in its stream header. Other attributes have no meaning here. -/
structure StreamHeader where
  id : Option String := none
  sender : Option String := none
  recipient : Option String := none
  version : Option String := none

namespace Stanza

def streamError (condition : String) : Element :=
  (⟨"stream:error", [], none, []⟩ : Element).addChild
    ((⟨condition, [], none, []⟩ : Element).setAttr "xmlns" Namespace.streamErrors)

def isEnvelope (localName labelled : String) (e : Element) : Bool :=
  e.localName == localName && (e.name == labelled || e.xmlns? == some Namespace.streams)

def isStreamError (e : Element) : Bool :=
  isEnvelope "error" "stream:error" e

def isStreamFeatures (e : Element) : Bool :=
  isEnvelope "features" "stream:features" e

def dialbackFeature : Element :=
  (⟨"dialback", [], none, []⟩ : Element).setAttr "xmlns" Namespace.dialbackFeature

def streamFeatures (features : List Element) : Element :=
  ⟨"stream:features", [], none, features⟩

def headerAttr (name : String) : Option String → String
  | some value => " " ++ name ++ "='" ++ Element.escape value ++ "'"
  | none => ""

def streamHeader (id : String) (sender recipient version : Option String) : String :=
  "<stream:stream xmlns='" ++ Namespace.server ++ "' xmlns:stream='" ++ Namespace.streams ++
    "' xmlns:db='" ++ Namespace.dialback ++ "' id='" ++ Element.escape id ++ "'" ++
    headerAttr "from" sender ++ headerAttr "to" recipient ++ headerAttr "version" version ++ ">"

end Stanza

end Federation
