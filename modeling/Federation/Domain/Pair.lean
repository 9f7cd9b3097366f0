import Federation.Domain.Error
import Federation.Domain.Name

/-!
Pairs of an own domain and a peer domain. Trust is kept per pair, so a pair is the key of all trust
state; its canonical form is what `checked` returns.
-/

namespace Federation

namespace Domain

def normalize (domain : String) : Except DomainError String :=
  match canonical? domain.toList with
  | some name => .ok (String.ofList name)
  | none => .error (.invalid domain)

end Domain

structure DomainPair where
  own : String
  peer : String
  deriving DecidableEq, Inhabited

namespace DomainPair

/-- The pair of two texts in lowercase, neither of them checked. -/
def ofTexts (own peer : String) : DomainPair :=
  ⟨Text.lower own, Text.lower peer⟩

/-- The pair that the addressing of a received stanza names: `recipient` is the own side. -/
def ofAddresses (recipient sender : String) : DomainPair :=
  ofTexts (Domain.part recipient) (Domain.part sender)

/-- The canonical pair of two domain names, the first served here and the second not. -/
def checked (own peer : String) (isServed : String → Bool) : Except DomainError DomainPair :=
  match Domain.normalize own with
  | .error e => .error e
  | .ok own =>
    match Domain.normalize peer with
    | .error e => .error e
    | .ok peer =>
      if !isServed own then .error (.notLocal own)
      else if isServed peer then .error (.notRemote peer)
      else .ok ⟨own, peer⟩

def validate (pair : DomainPair) (isServed : String → Bool) : Except DomainError Unit :=
  (checked pair.own pair.peer isServed).map fun _ => ()

/-- The pair as the other server sees it. -/
def reversed (pair : DomainPair) : DomainPair :=
  ⟨pair.peer, pair.own⟩

def text (pair : DomainPair) : String :=
  pair.own ++ "@" ++ pair.peer

def le (a b : DomainPair) : Bool :=
  decide (a.own < b.own) || (a.own == b.own && !decide (b.peer < a.peer))

end DomainPair

end Federation
