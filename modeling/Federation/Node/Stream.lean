import Federation.Processor.Basic

/-!
What a peer sends on a connection: its stream header, its elements, and the start of the service.
-/

namespace Federation.Node

variable {τ : Type}

def serviceStarted (n : Node τ) (chain : Chain τ) (conn : ConnId) :
    Except TrustError Unit × Node τ :=
  match n.find? conn with
  | some k => (.ok (), chain.serviceStarted n k)
  | none => (.error (.unknownConnection conn), n)

def offeredFeatures (n : Node τ) (chain : Chain τ) (conn : ConnId) : List Element :=
  match n.find? conn with
  | some k => chain.features n k
  | none => []

def receive (n : Node τ) (chain : Chain τ) (conn : ConnId) (e : Element) : Bool × Node τ :=
  match n.find? conn with
  | some k => chain.process n k e
  | none => (false, n)

/-- The pair that the stream header of a peer names, `none` if it leaves out a side. A recipient
that is not served is refused even then. -/
def headerPair (n : Node τ) (header : StreamHeader) : Except DomainError (Option DomainPair) :=
  match header.recipient.map Domain.part, header.sender.map Domain.part with
  | some recipient, sender =>
    if !n.directory.isServed (Text.lower recipient) then .error (.notLocal recipient)
    else
      match sender with
      | some sender => (DomainPair.checked recipient sender n.directory.isServed).map some
      | none => .ok none
  | none, _ => .ok none

/-- Our answer to the stream header of a peer: our own header, after which comes what is wrong with
the peer's, or the features if it announces a version. -/
def answerHeader (n : Node τ) (chain : Chain τ) (k : SessionKey) (header : StreamHeader) :
    String × Option TrustError × Node τ :=
  let own := Stanza.streamHeader (n.session k).streamId (header.recipient.map Domain.part)
    (header.sender.map Domain.part) header.version
  match n.headerPair header with
  | .error e => (own, some (.domain e), n)
  | .ok pair =>
    let n := match pair with
      | some pair => n.alter k (·.setPair pair)
      | none => n
    if header.version.isSome then
      (own ++ (Stanza.streamFeatures (chain.features n k)).toXml, none, n)
    else (own, none, n)

variable [Transport τ]

/-- Acts on the stream header of a peer and says what to write back. An inbound stream is answered
with a header, and refused if its addressing does not hold; on an outbound one the id that the peer
announces is kept. -/
def streamOpened (n : Node τ) (chain : Chain τ) (conn : ConnId) (header : StreamHeader) :
    Option String × Node τ :=
  match n.find? conn with
  | none => (none, n)
  | some k =>
    match (n.session k).role with
    | .inbound =>
      match n.answerHeader chain k header with
      | (text, some e, n) =>
        (some (text ++ (Stanza.streamError e.condition).toXml), n.stop k false)
      | (text, none, n) =>
        let (more, n) := chain.streamOpened n k header
        (some (text ++ more), n)
    | .outbound =>
      let n := match header.id with
        | some id => n.alter k (·.setPeerStreamId id)
        | none => n
      let (text, n) := chain.streamOpened n k header
      (if text.isEmpty then none else some text, n)

end Federation.Node
