import Federation.Text.Quoted

/-!
Why a pair of domains is refused.
-/

namespace Federation

inductive DomainError where
  /-- The own side is not served here. -/
  | notLocal (domain : String)
  /-- The peer side is one of the served domains. -/
  | notRemote (domain : String)
  | invalid (domain : String)
  deriving DecidableEq

def DomainError.message : DomainError → String
  | .notLocal domain => "not a local domain: " ++ domain
  | .notRemote domain => "not a remote domain: " ++ domain
  | .invalid domain => "invalid domain: " ++ Text.quote domain

end Federation
