import Federation.Node.Connection

/-!
Processors: the parts of a node that act on what peers send. They are asked in a fixed order, and
the first that consumes an element ends its way.
-/

namespace Federation

inductive ProcessorOrder where
  | streamError
  | dialback
  deriving DecidableEq

def ProcessorOrder.rank : ProcessorOrder → Nat
  | .streamError => 0
  | .dialback => 10

structure Processor (τ : Type) where
  name : String
  order : ProcessorOrder
  /-- Acts on an element and says whether it consumed it. -/
  process : Node τ → SessionKey → Element → Bool × Node τ
  /-- Acts on the stream header of the peer and says what to write after our own. -/
  streamOpened : Node τ → SessionKey → StreamHeader → Option String × Node τ :=
    fun n _ _ => (none, n)
  /-- The features that the processor offers on a session. Offering them changes nothing:
  a processor keeps no state of its own, and none of those here notes anything in the
  session for it. -/
  features : Node τ → SessionKey → List Element := fun _ _ => []
  serviceStarted : Node τ → SessionKey → Node τ := fun n _ => n

abbrev Chain (τ : Type) := List (Processor τ)

namespace Chain

variable {τ : Type}

/-- Puts processors in order; those of the same order keep their places. -/
def ofProcessors (processors : List (Processor τ)) : Chain τ :=
  processors.mergeSort fun a b => decide (a.order.rank ≤ b.order.rank)

/-- Offers an element to the processors until one consumes it. -/
def process (n : Node τ) (k : SessionKey) (e : Element) : Chain τ → Bool × Node τ
  | [] => (false, n)
  | p :: rest =>
    match p.process n k e with
    | (true, n) => (true, n)
    | (false, n) => process n k e rest

/-- Tells every processor about a stream header, and puts what they write one after the other. -/
def streamOpened (n : Node τ) (k : SessionKey) (header : StreamHeader) :
    Chain τ → String × Node τ
  | [] => ("", n)
  | p :: rest =>
    let (text, n) := p.streamOpened n k header
    let (more, n) := streamOpened n k header rest
    (text.getD "" ++ more, n)

def features (n : Node τ) (k : SessionKey) (chain : Chain τ) : List Element :=
  chain.flatMap fun p => p.features n k

def serviceStarted (n : Node τ) (k : SessionKey) (chain : Chain τ) : Node τ :=
  chain.foldl (fun n p => p.serviceStarted n k) n

end Chain

end Federation
