import Federation.Session.Basic

/-!
The registry of trust: for every pair the connections that serve it and whether a key for it has
been verified. Pairs are stored in their canonical form, and an entry lives as long as it has links.
-/

namespace Federation

structure Link where
  conn : ConnId
  session : SessionKey
  deriving DecidableEq

namespace Link

/-- Adds a link in the order of connections. A connection that is there keeps its link. -/
def insert (link : Link) : List Link → List Link
  | [] => [link]
  | l :: rest =>
    if link.conn = l.conn then l :: rest
    else if link.conn.number < l.conn.number then link :: l :: rest
    else l :: insert link rest

def remove (conn : ConnId) (links : List Link) : List Link :=
  links.filter (·.conn != conn)

end Link

structure TrustEntry where
  pair : DomainPair
  isAuthenticated : Bool := false
  incoming : List Link := []
  outgoing : List Link := []

namespace TrustEntry

/-- All links, the outgoing ones first, each kind in the order of connections. -/
def links (e : TrustEntry) : List Link :=
  e.outgoing ++ e.incoming

def addIncoming (link : Link) (e : TrustEntry) : TrustEntry :=
  { e with incoming := link.insert e.incoming }

def addOutgoing (link : Link) (e : TrustEntry) : TrustEntry :=
  { e with outgoing := link.insert e.outgoing }

def authenticate (e : TrustEntry) : TrustEntry :=
  { e with isAuthenticated := true }

/-- The entry without the links of a connection. -/
def unlink (conn : ConnId) (e : TrustEntry) : TrustEntry :=
  { e with incoming := Link.remove conn e.incoming, outgoing := Link.remove conn e.outgoing }

end TrustEntry

structure Registry where
  entries : List TrustEntry := []

namespace Registry

/-- The entry stored for exactly this pair. -/
def get? (r : Registry) (pair : DomainPair) : Option TrustEntry :=
  r.entries.find? (·.pair = pair)

def alter (r : Registry) (pair : DomainPair) (f : TrustEntry → TrustEntry) : Registry :=
  ⟨r.entries.map fun e => if e.pair = pair then f e else e⟩

def erase (r : Registry) (pair : DomainPair) : Registry :=
  ⟨r.entries.filter (·.pair ≠ pair)⟩

/-- The canonical form of a pair. One that is stored needs no check. -/
def canonical (r : Registry) (isServed : String → Bool) (pair : DomainPair) :
    Except DomainError DomainPair :=
  if (r.get? pair).isSome then .ok pair else DomainPair.checked pair.own pair.peer isServed

def ensure (r : Registry) (pair : DomainPair) : Registry :=
  if (r.get? pair).isSome then r else ⟨r.entries ++ [{ pair := pair }]⟩

def getOrCreate (r : Registry) (isServed : String → Bool) (pair : DomainPair) (create : Bool) :
    Except DomainError (Option TrustEntry × Registry) :=
  match r.canonical isServed pair with
  | .error e => .error e
  | .ok p =>
    let r := if create then r.ensure p else r
    .ok (r.get? p, r)

/-- The entry of a pair, made if there is none. If none came back even so, the own side
would be refused. -/
def entry (r : Registry) (isServed : String → Bool) (pair : DomainPair) :
    Except DomainError (TrustEntry × Registry) :=
  match r.getOrCreate isServed pair true with
  | .error e => .error e
  | .ok (some e, r) => .ok (e, r)
  | .ok (none, _) => .error (.notLocal pair.own)

def isAuthenticated (r : Registry) (pair : DomainPair) : Bool :=
  ((r.get? pair).map (·.isAuthenticated)).getD false

def authenticatedPairs (r : Registry) : List DomainPair :=
  ((r.entries.filter (·.isAuthenticated)).map (·.pair)).mergeSort DomainPair.le

def size (r : Registry) : Nat :=
  r.entries.length

/-- Takes a connection out of the links of a pair. An entry without links goes, and with it the
trust in its pair. -/
def unlink (r : Registry) (pair : DomainPair) (conn : ConnId) : Registry :=
  match r.get? pair with
  | none => r
  | some e => if (e.unlink conn).links.isEmpty then r.erase pair else r.alter pair (·.unlink conn)

def holds (r : Registry) (session : SessionKey) : Bool :=
  r.entries.any fun e => e.links.any (·.session == session)

end Registry

end Federation
