import Federation.Stanza.Dialback
import Federation.Stanza.Stream

/-!
How the stanzas that a node writes read at the other end: what kind they are of, whom they name and
what they say.
-/

namespace Federation

namespace Element

theorem lookup_cons_eq (key value other : String) (attrs : List (String × String)) :
    ((key, value) :: attrs).lookup other =
      if other = key then some value else attrs.lookup other := by
  by_cases h : other = key
  · simp [h]
  · have hne : (other == key) = false := by simpa using h
    simp [List.lookup_cons, hne, h]

theorem lookup_setIn (key value other : String) (attrs : List (String × String)) :
    (setIn key value attrs).lookup other =
      if other = key then some value else attrs.lookup other := by
  induction attrs with
  | nil => exact lookup_cons_eq key value other []
  | cons attr rest ih =>
    obtain ⟨k, v⟩ := attr
    by_cases hk : k = key
    · subst hk
      by_cases h : other = k <;> simp [setIn, lookup_cons_eq, h]
    · by_cases h : other = k
      · subst h
        simp [setIn, hk]
      · simp [setIn, lookup_cons_eq, hk, h, ih]

@[simp] theorem attr?_setAttr (e : Element) (key value other : String) :
    (e.setAttr key value).attr? other = if other = key then some value else e.attr? other :=
  lookup_setIn key value other e.attrs

@[simp] theorem attr?_withCdata (e : Element) (cdata key : String) :
    (e.withCdata cdata).attr? key = e.attr? key := rfl

@[simp] theorem attr?_addChild (e child : Element) (key : String) :
    (e.addChild child).attr? key = e.attr? key := rfl

end Element

namespace DialbackKind

theorem of?_eq_some {e : Element} {kind : DialbackKind} (hname : e.name = kind.elementName)
    (hxmlns : e.attr? "xmlns:db" = some Namespace.dialback) : of? e = some kind := by
  have hlabel : e.label? = some "db" := by
    cases kind <;> simp only [Element.label?, hname, elementName] <;> decide
  have hin : inNamespace e = true := by
    have hprefix : "xmlns:" ++ "db" = "xmlns:db" := by decide
    simp [inNamespace, Element.xmlns?, hlabel, hprefix, hxmlns]
  cases kind
  · have hlocal : e.localName = "result" := by
      simp only [Element.localName, hname, elementName]
      decide
    simp [of?, hin, hlocal]
  · have hlocal : e.localName = "verify" := by
      simp only [Element.localName, hname, elementName]
      decide
    simp [of?, hin, hlocal]

end DialbackKind

namespace Stanza

variable (sender recipient : String)

@[simp] theorem attr?_dialback (kind : DialbackKind) (key : String) :
    (dialback kind sender recipient).attr? key =
      if key = "to" then some recipient else if key = "from" then some sender
      else if key = "xmlns:db" then some Namespace.dialback else none := by
  rw [dialback, Element.attr?_setAttr, Element.attr?_setAttr, Element.attr?_setAttr]
  rfl

theorem of?_key (text : String) : DialbackKind.of? (key sender recipient text) = some .result :=
  DialbackKind.of?_eq_some rfl (by simp [key])

theorem of?_verifyRequest (id text : String) :
    DialbackKind.of? (verifyRequest sender recipient id text) = some .verify :=
  DialbackKind.of?_eq_some rfl (by simp [verifyRequest])

theorem of?_verifyReply (id : String) (isRight : Bool) :
    DialbackKind.of? (verifyReply sender recipient id isRight) = some .verify :=
  DialbackKind.of?_eq_some rfl (by simp [verifyReply])

theorem of?_resultReply (verdict : Verdict) (error : Option Element) :
    DialbackKind.of? (resultReply sender recipient verdict error) = some .result := by
  apply DialbackKind.of?_eq_some
  · cases error <;> rfl
  · cases error <;> simp [resultReply]

theorem of?_streamError (condition : String) :
    DialbackKind.of? (streamError condition) = none := by
  have hlabel : (streamError condition).label? = some "stream" := by
    have hname : (streamError condition).name = "stream:error" := rfl
    simp only [Element.label?, hname]
    decide
  have hxmlns : (streamError condition).xmlns? = none := by
    simp only [Element.xmlns?, hlabel]
    rfl
  have hin : DialbackKind.inNamespace (streamError condition) = false := by
    have hname : (streamError condition).name = "stream:error" := rfl
    simp only [DialbackKind.inNamespace, hxmlns, hname]
    decide
  simp [DialbackKind.of?, hin]

/-- A key says for whom it is. -/
theorem key_injective {sender recipient text sender' recipient' text' : String}
    (h : key sender recipient text = key sender' recipient' text') :
    sender = sender' ∧ recipient = recipient' := by
  have hfrom := congrArg (·.attr? "from") h
  have hto := congrArg (·.attr? "to") h
  simp only [key, Element.attr?_withCdata, attr?_dialback] at hfrom hto
  exact ⟨by simpa using hfrom, by simpa using hto⟩

theorem type_key (text : String) : (key sender recipient text).attr? "type" = none := by
  simp [key]

theorem attr?_verifyRequest (id text name : String) :
    (verifyRequest sender recipient id text).attr? name =
      if name = "id" then some id else (dialback .verify sender recipient).attr? name := by
  rw [verifyRequest, Element.attr?_withCdata, Element.attr?_setAttr]

theorem attr?_verifyReply (id name : String) (isRight : Bool) :
    (verifyReply sender recipient id isRight).attr? name =
      if name = "type" then some (Verdict.ofBool isRight).text
      else if name = "id" then some id else (dialback .verify sender recipient).attr? name := by
  rw [verifyReply, Element.attr?_setAttr, Element.attr?_setAttr]

theorem type_verifyRequest (id text : String) :
    (verifyRequest sender recipient id text).attr? "type" = none := by
  simp [verifyRequest]

theorem type_resultReply (verdict : Verdict) (error : Option Element) :
    (resultReply sender recipient verdict error).attr? "type" = some verdict.text := by
  cases error <;> simp [resultReply]

theorem type_verifyReply (id : String) (isRight : Bool) :
    (verifyReply sender recipient id isRight).attr? "type" =
      some (Verdict.ofBool isRight).text := by
  simp [verifyReply]

theorem eq_true_of_type_verifyReply {sender recipient id : String} {isRight : Bool}
    (h : (verifyReply sender recipient id isRight).attr? "type" = some "valid") :
    isRight = true := by
  rw [type_verifyReply] at h
  cases isRight with
  | true => rfl
  | false => exact absurd h (by decide)

end Stanza

end Federation
