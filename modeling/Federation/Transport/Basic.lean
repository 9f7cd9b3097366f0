import Federation.Connection.Basic
import Federation.Domain.Pair
import Federation.Element.Basic

/-!
Transports: what carries elements between servers. A transport is a state of any type with four
operations on it, and may answer each of them as it likes.
-/

namespace Federation

inductive TransportError where
  /-- The connection is closed or was never there. -/
  | closed (conn : ConnId)
  | connectFailed (pair : DomainPair) (reason : String)
  deriving DecidableEq

def TransportError.message : TransportError → String
  | .closed conn => "connection " ++ conn.text ++ " is closed"
  | .connectFailed pair reason => "failed to connect " ++ pair.text ++ ": " ++ reason

class Transport (τ : Type) where
  /-- Writes a batch of elements as one unit. -/
  write : τ → ConnId → List Element → Except TransportError Unit × τ
  connect : τ → DomainPair → Except TransportError ConnId × τ
  /-- Closes a connection, at once if `force` is set and after pending output otherwise. -/
  stop : τ → ConnId → (force : Bool) → τ
  isOpen : τ → ConnId → Bool

end Federation
