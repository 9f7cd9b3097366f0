import Federation.Element.Basic
import Federation.Stanza.Namespace

/-!
Dialback stanzas. A `db:result` carries a key, or with a `type` the verdict on one; a `db:verify`
asks whether a key is right, or with a `type` answers that question.
-/

namespace Federation

inductive DialbackKind where
  | result
  | verify
  deriving DecidableEq

namespace DialbackKind

def elementName : DialbackKind → String
  | .result => "db:result"
  | .verify => "db:verify"

/-- Whether an element counts as a dialback stanza's by its namespace: a declared one decides, and
without a declaration the label `db` of the stream header is meant. -/
def inNamespace (e : Element) : Bool :=
  match e.xmlns? with
  | some xmlns => xmlns == Namespace.dialback
  | none => ['d', 'b', ':'].isPrefixOf e.name.toList

def of? (e : Element) : Option DialbackKind :=
  if !inNamespace e then none
  else if e.localName == "result" then some .result
  else if e.localName == "verify" then some .verify
  else none

end DialbackKind

inductive Verdict where
  | valid
  | invalid
  | error
  deriving DecidableEq

namespace Verdict

/-- Reads a `type`. An unknown text counts as an error, never as a consent. -/
def parse (text : String) : Verdict :=
  if text = "valid" then .valid else if text = "invalid" then .invalid else .error

def text : Verdict → String
  | .valid => "valid"
  | .invalid => "invalid"
  | .error => "error"

def ofBool (isRight : Bool) : Verdict :=
  if isRight then .valid else .invalid

end Verdict

namespace Stanza

def dialback (kind : DialbackKind) (sender recipient : String) : Element :=
  (((⟨kind.elementName, [], none, []⟩ : Element).setAttr "xmlns:db" Namespace.dialback).setAttr
    "from" sender).setAttr "to" recipient

def key (sender recipient key : String) : Element :=
  (dialback .result sender recipient).withCdata key

def verifyRequest (sender recipient streamId key : String) : Element :=
  ((dialback .verify sender recipient).setAttr "id" streamId).withCdata key

def verifyReply (sender recipient streamId : String) (isRight : Bool) : Element :=
  ((dialback .verify sender recipient).setAttr "id" streamId).setAttr
    "type" (Verdict.ofBool isRight).text

def resultReply (sender recipient : String) (verdict : Verdict) (error : Option Element) :
    Element :=
  let reply := (dialback .result sender recipient).setAttr "type" verdict.text
  match error with
  | some error => reply.addChild error
  | none => reply

def error (errorType condition : String) : Element :=
  ((⟨"error", [], none, []⟩ : Element).setAttr "type" errorType).addChild
    ((⟨condition, [], none, []⟩ : Element).setAttr "xmlns" Namespace.stanzaErrors)

end Stanza

end Federation
