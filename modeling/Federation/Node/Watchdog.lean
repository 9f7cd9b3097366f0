import Federation.Node.Connection

/-!
The deadline for authentication. A check is scheduled when a connection is first serviced; when it
is due, a connection that nobody trusts yet is closed at once. A session that nobody refers to any
more is left alone.
-/

namespace Federation.Node

variable {τ : Type}

def arm (n : Node τ) (timeout : Duration) (k : SessionKey) : Node τ :=
  let alarm : Alarm := ⟨n.clock + timeout.milliseconds, k⟩
  { n with alarms := n.alarms ++ [alarm] }.record (.schedule timeout)

variable [Transport τ]

def expire (n : Node τ) (k : SessionKey) : Node τ :=
  if n.isReferenced k && !(n.session k).isAuthenticated && n.isOpen k then n.stop k true else n

/-- The checks that are due, by deadline and then in the order of their scheduling. -/
def dueAlarms (n : Node τ) : List Alarm :=
  (n.alarms.filter (·.deadline ≤ n.clock)).mergeSort fun a b => decide (a.deadline ≤ b.deadline)

def runDue (n : Node τ) : Node τ :=
  n.dueAlarms.foldl (fun n alarm => n.expire alarm.session)
    { n with alarms := n.alarms.filter fun alarm => !decide (alarm.deadline ≤ n.clock) }

def tick (n : Node τ) (milliseconds : Nat) : Node τ :=
  { n with clock := n.clock + milliseconds }

def advance (n : Node τ) (milliseconds : Nat) : Node τ :=
  (n.tick milliseconds).runDue

end Federation.Node
