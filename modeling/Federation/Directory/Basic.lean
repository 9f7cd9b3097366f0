import Federation.Domain.Pair

/-!
Directories: which domains are served here, with which secrets and under which policy.
-/

namespace Federation

structure Directory where
  isServed : String → Bool
  secret? : String → Option String
  /-- Whether a domain accepts and presents keys only over TLS. -/
  requiresTls : String → Bool

namespace Directory

/-- The secret of a domain; without one the domain counts as not served. -/
def secretFor (d : Directory) (domain : String) : Except DomainError String :=
  match d.secret? domain with
  | some secret => .ok secret
  | none => .error (.notLocal domain)

end Directory

end Federation
