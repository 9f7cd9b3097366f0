import Federation.Transport.Basic

/-!
A transport that turns every request into a command for whoever owns the sockets. Commands stay in
the order in which they were given; the receiver takes them when it likes, and may go away.
-/

namespace Federation

inductive TransportCommand where
  | write (conn : ConnId) (batch : List Element)
  | connect (conn : ConnId) (pair : DomainPair)
  | close (conn : ConnId) (force : Bool)
  deriving DecidableEq

structure Channel where
  /-- How many connections have got a number. The numbers start from one. -/
  allocated : Nat := 0
  opened : List ConnId := []
  commands : List TransportCommand := []
  /-- How many of the commands the receiver has taken. -/
  taken : Nat := 0
  isReceiving : Bool := true

namespace Channel

def isOpen (t : Channel) (conn : ConnId) : Bool :=
  t.opened.contains conn

def openCount (t : Channel) : Nat :=
  t.opened.length

def nextConn (t : Channel) : ConnId :=
  ⟨t.allocated + 1⟩

def allocate (t : Channel) : Channel :=
  { t with allocated := t.allocated + 1, opened := t.opened ++ [t.nextConn] }

/-- Hands a command over, if anyone takes it. -/
def emit (t : Channel) (command : TransportCommand) : Channel :=
  if t.isReceiving then { t with commands := t.commands ++ [command] } else t

def register (t : Channel) : ConnId × Channel :=
  (t.nextConn, t.allocate)

def write (t : Channel) (conn : ConnId) (batch : List Element) :
    Except TransportError Unit × Channel :=
  if t.isOpen conn && t.isReceiving then (.ok (), t.emit (.write conn batch))
  else (.error (.closed conn), t)

/-- Asks for a connection. It is open from the start, because the receiver may fail it as soon as it
sees the command. -/
def connect (t : Channel) (pair : DomainPair) : Except TransportError ConnId × Channel :=
  if t.isReceiving then (.ok t.nextConn, t.allocate.emit (.connect t.nextConn pair))
  else
    (.error (.connectFailed pair "socket layer is not running"),
      { t with allocated := t.allocated + 1 })

def close (t : Channel) (conn : ConnId) (force : Bool) : Channel :=
  if t.isOpen conn then
    { t with opened := t.opened.filter (· != conn) }.emit (.close conn force)
  else t

def pending (t : Channel) : List TransportCommand :=
  t.commands.drop t.taken

def takeAll (t : Channel) : Channel :=
  { t with taken := t.commands.length }

def dropReceiver (t : Channel) : Channel :=
  { t with isReceiving := false, taken := t.commands.length }

@[simp] theorem isOpen_emit (t : Channel) (command : TransportCommand) (conn : ConnId) :
    (t.emit command).isOpen conn = t.isOpen conn := by
  rw [emit]
  split <;> rfl

theorem isOpen_allocate (t : Channel) (conn : ConnId) :
    t.allocate.isOpen conn = (t.isOpen conn || conn == t.nextConn) := by
  rw [Bool.eq_iff_iff]
  simp [isOpen, allocate]

theorem isOpen_close (t : Channel) (conn other : ConnId) (force : Bool) :
    (t.close conn force).isOpen other = (t.isOpen other && other != conn) := by
  rw [close]
  split
  · rw [isOpen_emit, Bool.eq_iff_iff]
    simp [isOpen]
  · rename_i hclosed
    by_cases hother : other = conn
    · simpa [hother] using hclosed
    · simp [hother]

instance : Transport Channel where
  write := write
  connect := connect
  stop := close
  isOpen := isOpen

end Channel

end Federation
