import Federation.Dialback.Error
import Federation.Directory.Basic
import Federation.Registry.Basic
import Federation.Stanza.Stream

/-!
Nodes: the whole state of trust of one server, and the smallest steps on it.

A node refers to its sessions by number. It keeps every session it ever had, so that a session that
links or timers still refer to can be looked up after its connection is gone, and it keeps a log of
everything it asked of its transport and its timer, in the order of occurrence.
-/

namespace Federation

structure Duration where
  milliseconds : Nat
  deriving DecidableEq

namespace Duration

def ofSeconds (n : Nat) : Duration :=
  ⟨n * 1000⟩

def seconds (d : Duration) : Nat :=
  d.milliseconds / 1000

/-- A numeral counts seconds. -/
instance (n : Nat) : OfNat Duration n :=
  ⟨ofSeconds n⟩

/-- Where a number is asked for, a duration gives its whole seconds. -/
instance : Coe Duration Nat :=
  ⟨seconds⟩

end Duration

structure Settings where
  authTimeout : Duration := 30
  /-- Present a key also to a peer whose certificate is trusted and that does not offer dialback. -/
  workaround : Bool := true
  skipTlsHosts : List String := []

inductive Effect where
  /-- A batch was offered to the transport, which took it or not. -/
  | write (conn : ConnId) (batch : List Element) (accepted : Bool)
  /-- A connection was asked for, and the transport gave it a number or refused. -/
  | connect (pair : DomainPair) (conn : Option ConnId)
  | stop (conn : ConnId) (force : Bool)
  | schedule (delay : Duration)
  | offered (probe element : String)
  | serviced (probe : String) (conn : ConnId)
  deriving DecidableEq

/-- A check of a session that is due at some time, in milliseconds. -/
structure Alarm where
  deadline : Nat
  session : SessionKey
  deriving DecidableEq

/-- The text of the `n`-th identifier where they are counted. -/
def identifierText (n : Nat) : String :=
  "00000000000040008000" ++ String.ofList (Text.hexPadded 12 n)

structure Node (τ : Type) where
  settings : Settings
  directory : Directory
  transport : τ
  /-- Where identifiers come from: the text of the `n`-th that is generated. -/
  identify : Nat → String := identifierText
  /-- How many identifiers have been generated. -/
  issued : Nat := 0
  /-- The time in milliseconds. -/
  clock : Nat := 0
  alarms : List Alarm := []
  registry : Registry := {}
  /-- Every session that was ever created; its number is its place. -/
  sessions : List Session := []
  live : List (ConnId × SessionKey) := []
  /-- Sessions that someone outside the node still refers to. -/
  pinned : List SessionKey := []
  log : List Effect := []

namespace Node

variable {τ : Type}

def create (settings : Settings) (directory : Directory) (transport : τ) (issued : Nat)
    (identify : Nat → String := identifierText) : Node τ :=
  let hosts := (settings.skipTlsHosts.map Text.lower).eraseDups
  { settings := { settings with skipTlsHosts := hosts }
    directory := directory
    transport := transport
    identify := identify
    issued := issued }

def session (n : Node τ) (k : SessionKey) : Session :=
  n.sessions.getD k default

def alter (n : Node τ) (k : SessionKey) (f : Session → Session) : Node τ :=
  { n with sessions := n.sessions.modify k f }

def find? (n : Node τ) (conn : ConnId) : Option SessionKey :=
  n.live.lookup conn

def sessionCount (n : Node τ) : Nat :=
  n.live.length

def isReferenced (n : Node τ) (k : SessionKey) : Bool :=
  n.live.any (·.2 == k) || n.pinned.contains k || n.registry.holds k

def record (n : Node τ) (effect : Effect) : Node τ :=
  { n with log := n.log ++ [effect] }

def nextIdentifier (n : Node τ) : String :=
  n.identify (n.issued + 1)

/-- Adds a session that uses up one identifier, under the number `n.sessions.length`. -/
def addSession (n : Node τ) (s : Session) : Node τ :=
  { n with sessions := n.sessions ++ [s], issued := n.issued + 1 }

def register (n : Node τ) (conn : ConnId) (k : SessionKey) : Node τ :=
  { n with live := n.live.filter (·.1 != conn) ++ [(conn, k)] }

def unregister (n : Node τ) (conn : ConnId) : Node τ :=
  { n with live := n.live.filter (·.1 != conn) }

def skipsTls (n : Node τ) (peer : String) : Bool :=
  n.settings.skipTlsHosts.contains (Text.lower peer)

def entry (n : Node τ) (pair : DomainPair) : Except DomainError DomainPair × Node τ :=
  match n.registry.canonical n.directory.isServed pair with
  | .error e => (.error e, n)
  | .ok p => (.ok p, { n with registry := n.registry.ensure p })

variable [Transport τ]

def write (n : Node τ) (conn : ConnId) (batch : List Element) :
    Except TransportError Unit × Node τ :=
  let (outcome, transport) := Transport.write n.transport conn batch
  (outcome, { n with transport := transport }.record (.write conn batch outcome.isOk))

def connect (n : Node τ) (pair : DomainPair) : Except TransportError ConnId × Node τ :=
  let (outcome, transport) := Transport.connect n.transport pair
  (outcome, { n with transport := transport }.record (.connect pair outcome.toOption))

def halt (n : Node τ) (conn : ConnId) (force : Bool) : Node τ :=
  { n with transport := Transport.stop n.transport conn force }.record (.stop conn force)

/-- Whether a session can be used: its connection is open and not being torn down. -/
def isOpen (n : Node τ) (k : SessionKey) : Bool :=
  !(n.session k).isClosing && Transport.isOpen n.transport (n.session k).conn

/-- Tears a connection down. Only the first request has an effect. -/
def stop (n : Node τ) (k : SessionKey) (force : Bool) : Node τ :=
  if (n.session k).isClosing then n
  else (n.alter k Session.beginClose).halt (n.session k).conn force

/-- Writes one stanza past the queue. -/
def sendNow (n : Node τ) (k : SessionKey) (stanza : Element) :
    Except TransportError Unit × Node τ :=
  n.write (n.session k).conn [stanza]

/-- Writes the queue of a session in one batch, and says how many stanzas that were. The queue is
empty afterwards, whether the transport took the batch or not. -/
def flush (n : Node τ) (k : SessionKey) : Except TransportError Nat × Node τ :=
  let batch := (n.session k).waiting
  if batch.isEmpty then (.ok 0, n)
  else
    let (outcome, n) := (n.alter k Session.clearQueue).write (n.session k).conn batch
    (outcome.map fun _ => batch.length, n)

def discard (n : Node τ) (k : SessionKey) : Nat × Node τ :=
  ((n.session k).waiting.length, n.alter k Session.clearQueue)

def failStream (n : Node τ) (k : SessionKey) (condition : String) (force : Bool) : Node τ :=
  (n.sendNow k (Stanza.streamError condition)).2.stop k force

end Node

end Federation
