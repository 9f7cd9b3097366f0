import Federation.Config.Basic

/-!
Directories made from lists of domains: one that knows domains by their canonical names in any case,
and one that knows them exactly as they are listed.
-/

namespace Federation

structure ServedDomain where
  name : String
  secret : String
  requiresTls : Bool

structure DomainTable where
  domains : List ServedDomain := []

namespace DomainTable

def insert (t : DomainTable) (d : ServedDomain) : DomainTable :=
  ⟨t.domains.filter (·.name != d.name) ++ [d]⟩

/-- Adds a listed domain. It uses up an identifier if it brings no secret, so the number of those
that have been generated goes in and out. -/
def add (identify : Nat → String) (t : DomainTable) (issued : Nat) (d : DomainConfig) :
    Except ConfigError (DomainTable × Nat) :=
  match Domain.normalize d.name with
  | .error e => .error (.invalid (.badDomain e))
  | .ok name =>
    let given := d.secret.getD ""
    if given = "" then
      .ok (t.insert ⟨name, identify (issued + 1), d.tlsRequired⟩, issued + 1)
    else .ok (t.insert ⟨name, given, d.tlsRequired⟩, issued)

def addAll (identify : Nat → String) (t : DomainTable) (issued : Nat) :
    List DomainConfig → Except ConfigError (DomainTable × Nat)
  | [] => .ok (t, issued)
  | d :: rest =>
    match t.add identify issued d with
    | .error e => .error e
    | .ok (t, issued) => addAll identify t issued rest

def ofConfig (issued : Nat) (domains : List DomainConfig)
    (identify : Nat → String := identifierText) : Except ConfigError (DomainTable × Nat) :=
  addAll identify {} issued domains

def get? (t : DomainTable) (domain : String) : Option ServedDomain :=
  t.domains.find? (·.name == Text.lower domain)

def names (t : DomainTable) : List String :=
  (t.domains.map (·.name)).mergeSort fun a b => !decide (b < a)

def directory (t : DomainTable) : Directory where
  isServed domain := (t.get? domain).isSome
  secret? domain := (t.get? domain).map (·.secret)
  requiresTls domain := ((t.get? domain).map (·.requiresTls)).getD false

end DomainTable

namespace Directory

def lastListed? (domains : List DomainConfig) (domain : String) : Option DomainConfig :=
  domains.reverse.find? (·.name == domain)

/-- The directory that knows the listed domains exactly as they are written. One without a secret is
served all the same. -/
def exact (domains : List DomainConfig) : Directory where
  isServed domain := (lastListed? domains domain).isSome
  secret? domain := (lastListed? domains domain).bind (·.secret)
  requiresTls domain := ((lastListed? domains domain).map (·.tlsRequired)).getD false

end Directory

end Federation
