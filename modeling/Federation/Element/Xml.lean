import Federation.Element.Basic

/-!
The XML text of an element. Values stand in single quotes, the five special characters are written
as entities, and an element with neither character data nor children is closed in place.
-/

namespace Federation.Element

def escapeChar (c : Char) : List Char :=
  match c with
  | '&' => ['&', 'a', 'm', 'p', ';']
  | '<' => ['&', 'l', 't', ';']
  | '>' => ['&', 'g', 't', ';']
  | '\'' => ['&', 'a', 'p', 'o', 's', ';']
  | '"' => ['&', 'q', 'u', 'o', 't', ';']
  | c => [c]

def escapeChars (cs : List Char) : List Char :=
  cs.flatMap escapeChar

def escape (text : String) : String :=
  String.ofList (escapeChars text.toList)

def attrChars (attr : String × String) : List Char :=
  ' ' :: attr.1.toList ++ '=' :: '\'' :: escapeChars attr.2.toList ++ ['\'']

/-- The opening tag up to, but without, its closing mark. -/
def openChars (name : String) (attrs : List (String × String)) : List Char :=
  '<' :: name.toList ++ attrs.flatMap attrChars

def closeChars (name : String) : List Char :=
  '<' :: '/' :: name.toList ++ ['>']

mutual

def xmlChars : Element → List Char
  | ⟨name, attrs, cdata, children⟩ =>
    if cdata.isNone && children.isEmpty then openChars name attrs ++ ['/', '>']
    else
      openChars name attrs ++ '>' :: escapeChars (cdata.getD "").toList ++
        xmlCharsAll children ++ closeChars name

def xmlCharsAll : List Element → List Char
  | [] => []
  | e :: rest => xmlChars e ++ xmlCharsAll rest

end

def toXml (e : Element) : String :=
  String.ofList e.xmlChars

theorem toList_toXml (e : Element) : e.toXml.toList = e.xmlChars :=
  String.toList_ofList

theorem toList_escape (text : String) : (escape text).toList = escapeChars text.toList :=
  String.toList_ofList

end Federation.Element
