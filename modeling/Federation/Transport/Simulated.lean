import Federation.Transport.Basic

/-!
A transport without sockets: it numbers the connections it is asked for, forgets what is written,
and can be told to refuse connections or to lose them.
-/

namespace Federation

inductive ConnectMode where
  | succeed
  | refuse
  /-- The connection is closed before anyone can use it. -/
  | dieAtOnce
  deriving DecidableEq

structure Simulated where
  next : Nat := 1000
  mode : ConnectMode := .succeed
  closed : List ConnId := []

namespace Simulated

def close (t : Simulated) (conn : ConnId) : Simulated :=
  { t with closed := t.closed.insert conn }

/-- Every connection that was not closed is open, also one never heard of. -/
def isOpen (t : Simulated) (conn : ConnId) : Bool :=
  !t.closed.contains conn

def write (t : Simulated) (conn : ConnId) (_batch : List Element) :
    Except TransportError Unit × Simulated :=
  if t.isOpen conn then (.ok (), t) else (.error (.closed conn), t)

def connect (t : Simulated) (pair : DomainPair) : Except TransportError ConnId × Simulated :=
  match t.mode with
  | .refuse => (.error (.connectFailed pair "refused"), t)
  | .succeed => (.ok ⟨t.next⟩, { t with next := t.next + 1 })
  | .dieAtOnce => (.ok ⟨t.next⟩, { t with next := t.next + 1 }.close ⟨t.next⟩)

instance : Transport Simulated where
  write := write
  connect := connect
  stop t conn _ := t.close conn
  isOpen := isOpen

end Simulated

end Federation
