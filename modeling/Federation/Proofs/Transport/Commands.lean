import Federation.Transport.Channel
import Mathlib.Data.List.Induction
import Mathlib.Data.List.Nodup

/-!
The commands of a channel, connection by connection. Whatever is asked of the channel, and about
whichever connections, the owner of the sockets is first told to connect, if the connection was
asked for, then what to write, and last to close; after that it hears of the connection no more. A
connection is open from the moment it has a number until that last command.
-/

namespace Federation

namespace TransportCommand

def conn : TransportCommand → ConnId
  | .write conn _ | .connect conn _ | .close conn _ => conn

def isClose : TransportCommand → Bool
  | .close _ _ => true
  | _ => false

end TransportCommand

namespace Channel

inductive Call where
  | register
  | connect (pair : DomainPair)
  | write (conn : ConnId) (batch : List Element)
  | close (conn : ConnId) (force : Bool)

def perform (t : Channel) : Call → Channel
  | .register => t.register.2
  | .connect pair => (t.connect pair).2
  | .write conn batch => (t.write conn batch).2
  | .close conn force => t.close conn force

def after (calls : List Call) : Channel :=
  calls.foldl perform {}

/-- The connection that a call returns, with the pair it was asked for, if it was not accepted. -/
def returned (t : Channel) : Call → List (ConnId × Option DomainPair)
  | .register => [(t.register.1, none)]
  | .connect pair =>
    match (t.connect pair).1 with
    | .ok conn => [(conn, some pair)]
    | .error _ => []
  | .write _ _ | .close _ _ => []

def returnedBy (t : Channel) : List Call → List (ConnId × Option DomainPair)
  | [] => []
  | call :: calls => t.returned call ++ (t.perform call).returnedBy calls

def commandsOn (t : Channel) (conn : ConnId) : List TransportCommand :=
  t.commands.filter (·.conn == conn)

def wasClosed (t : Channel) (conn : ConnId) : Bool :=
  (t.commandsOn conn).any (·.isClose)

theorem after_snoc (calls : List Call) (call : Call) :
    after (calls ++ [call]) = (after calls).perform call := by
  rw [after, List.foldl_append]
  rfl

theorem returnedBy_snoc (t : Channel) (calls : List Call) (call : Call) :
    t.returnedBy (calls ++ [call]) =
      t.returnedBy calls ++ (calls.foldl perform t).returned call := by
  induction calls generalizing t with
  | nil => simp [returnedBy]
  | cons first calls ih =>
    rw [List.cons_append, returnedBy, returnedBy, ih, List.append_assoc, List.foldl_cons]

/-- The commands about a connection so far, and whether it is open: it may be written to until
it is closed. -/
inductive Course (conn : ConnId) (origin : Option DomainPair) : Bool → List TransportCommand → Prop
  | start : Course conn origin true (origin.toList.map (.connect conn))
  | write {commands : List TransportCommand} (batch : List Element)
      (h : Course conn origin true commands) :
      Course conn origin true (commands ++ [.write conn batch])
  | close {commands : List TransportCommand} (force : Bool) (h : Course conn origin true commands) :
      Course conn origin false (commands ++ [.close conn force])

variable {conn : ConnId} {origin : Option DomainPair} {commands : List TransportCommand}

theorem Course.eq_append {isOpen : Bool} (h : Course conn origin isOpen commands) :
    ∃ (batches : List (List Element)) (closing : Option Bool),
      commands = origin.toList.map (.connect conn) ++ batches.map (.write conn) ++
        closing.toList.map (.close conn) ∧ isOpen = closing.isNone := by
  induction h with
  | start => exact ⟨[], none, by simp, rfl⟩
  | write batch _ ih =>
    obtain ⟨batches, closing, rfl, hclosing⟩ := ih
    obtain rfl := Option.isNone_iff_eq_none.mp hclosing.symm
    exact ⟨batches ++ [batch], none, by simp, rfl⟩
  | close force _ ih =>
    obtain ⟨batches, closing, rfl, hclosing⟩ := ih
    obtain rfl := Option.isNone_iff_eq_none.mp hclosing.symm
    exact ⟨batches, some force, by simp, rfl⟩

theorem Course.any_isClose {isOpen : Bool} (h : Course conn origin isOpen commands) :
    commands.any (·.isClose) = !isOpen := by
  induction h with
  | start => cases origin <;> rfl
  | write batch _ ih => rw [List.any_append, ih]; rfl
  | close force _ _ => rw [List.any_append]; simp [TransportCommand.isClose]

structure Orderly (t : Channel) (given : List (ConnId × Option DomainPair)) : Prop where
  receiving : t.isReceiving = true
  numbers : given.map Prod.fst = (List.range t.allocated).map (⟨· + 1⟩)
  opened : t.opened = (given.map Prod.fst).filter t.isOpen
  known : ∀ conn origin, (conn, origin) ∈ given →
    Course conn origin (t.isOpen conn) (t.commandsOn conn)
  unknown : ∀ conn, conn ∉ given.map Prod.fst → t.isOpen conn = false ∧ t.commandsOn conn = []

variable {t : Channel} {given : List (ConnId × Option DomainPair)}

theorem commands_emit (hreceiving : t.isReceiving = true) (command : TransportCommand) :
    (t.emit command).commands = t.commands ++ [command] := by
  rw [emit, if_pos hreceiving]

theorem commandsOn_emit (hreceiving : t.isReceiving = true) (command : TransportCommand)
    (conn : ConnId) :
    (t.emit command).commandsOn conn =
      t.commandsOn conn ++ if command.conn = conn then [command] else [] := by
  rw [commandsOn, commands_emit hreceiving, List.filter_append, commandsOn, List.filter_singleton]
  simp

@[simp] theorem isReceiving_emit (t : Channel) (command : TransportCommand) :
    (t.emit command).isReceiving = t.isReceiving := by
  rw [emit]
  split <;> rfl

@[simp] theorem allocated_emit (t : Channel) (command : TransportCommand) :
    (t.emit command).allocated = t.allocated := by
  rw [emit]
  split <;> rfl

@[simp] theorem opened_emit (t : Channel) (command : TransportCommand) :
    (t.emit command).opened = t.opened := by
  rw [emit]
  split <;> rfl

theorem isOpen_iff_mem : t.isOpen conn = true ↔ conn ∈ t.opened := by
  rw [isOpen, List.contains_iff_mem]

namespace Orderly

theorem new : Orderly {} [] where
  receiving := rfl
  numbers := rfl
  opened := rfl
  known _ _ h := absurd h List.not_mem_nil
  unknown _ _ := ⟨rfl, rfl⟩

theorem nodup (h : Orderly t given) : (given.map Prod.fst).Nodup := by
  rw [h.numbers]
  refine List.nodup_range.map fun m n hmn => ?_
  simpa using hmn

theorem nextConn_notMem (h : Orderly t given) : t.nextConn ∉ given.map Prod.fst := by
  rw [h.numbers, List.mem_map]
  rintro ⟨n, hn, heq⟩
  have hnumber : n + 1 = t.allocated + 1 := congrArg ConnId.number heq
  rw [List.mem_range] at hn
  omega

theorem mem_of_isOpen (h : Orderly t given) (hopen : t.isOpen conn = true) :
    conn ∈ given.map Prod.fst := by
  by_contra hnone
  rw [(h.unknown conn hnone).1] at hopen
  exact Bool.noConfusion hopen

/-- A number is given to a connection, and the owner of the sockets hears of it at most where it is
asked for. -/
theorem allocate (h : Orderly t given) {t' : Channel} (origin : Option DomainPair)
    (hreceiving : t'.isReceiving = true) (hallocated : t'.allocated = t.allocated + 1)
    (hopened : t'.opened = t.opened ++ [t.nextConn])
    (hcommands : ∀ conn, t'.commandsOn conn = t.commandsOn conn ++
      if t.nextConn = conn then origin.toList.map (.connect t.nextConn) else []) :
    Orderly t' (given ++ [(t.nextConn, origin)]) := by
  have hisOpen (conn : ConnId) (hne : t.nextConn ≠ conn) : t'.isOpen conn = t.isOpen conn := by
    rw [Bool.eq_iff_iff, isOpen_iff_mem, isOpen_iff_mem, hopened, List.mem_append,
      List.mem_singleton, or_iff_left hne.symm]
  have hnext : t'.isOpen t.nextConn = true := by
    rw [isOpen_iff_mem, hopened]
    exact List.mem_append_right _ (List.mem_singleton_self _)
  have hold {conn : ConnId} (hmem : conn ∈ given.map Prod.fst) : t.nextConn ≠ conn := by
    rintro rfl
    exact h.nextConn_notMem hmem
  obtain ⟨-, hnone⟩ := h.unknown t.nextConn h.nextConn_notMem
  refine ⟨hreceiving, ?_, ?_, ?_, ?_⟩
  · rw [List.map_append, h.numbers, hallocated, List.range_succ, List.map_append]
    rfl
  · rw [hopened, h.opened, List.map_append, List.filter_append]
    congr 1
    · exact List.filter_congr fun conn hconn => (hisOpen conn (hold hconn)).symm
    · simp [hnext]
  · intro conn origin' hmem
    rcases List.mem_append.mp hmem with hmem | hmem
    · have hne := hold (List.mem_map_of_mem (f := Prod.fst) hmem)
      rw [hisOpen conn hne, hcommands, if_neg hne, List.append_nil]
      exact h.known conn origin' hmem
    · obtain ⟨rfl, rfl⟩ := Prod.mk.inj (List.mem_singleton.mp hmem)
      rw [hnext, hcommands, if_pos rfl, hnone]
      exact .start
  · intro conn hconn
    rw [List.map_append, List.mem_append, not_or] at hconn
    have hne : t.nextConn ≠ conn := fun heq => hconn.2 (heq ▸ List.mem_singleton_self _)
    rw [hisOpen conn hne, hcommands, if_neg hne, List.append_nil]
    exact h.unknown conn hconn.1

/-- A command about an open connection is handed over. It stays open unless it is closed by that. -/
theorem emit (h : Orderly t given) (hopen : t.isOpen conn = true) {t' : Channel}
    (command : TransportCommand) (hreceiving : t'.isReceiving = true)
    (hallocated : t'.allocated = t.allocated)
    (hopened : t'.opened = t.opened.filter fun other => other != conn || !command.isClose)
    (hcommands : ∀ other, t'.commandsOn other = t.commandsOn other ++
      if conn = other then [command] else [])
    (hcourse : ∀ origin commands, Course conn origin true commands →
      Course conn origin (!command.isClose) (commands ++ [command])) :
    Orderly t' given := by
  have hisOpen (other : ConnId) :
      t'.isOpen other = (t.isOpen other && (other != conn || !command.isClose)) := by
    rw [Bool.eq_iff_iff, Bool.and_eq_true, isOpen_iff_mem, isOpen_iff_mem, hopened, List.mem_filter]
  refine ⟨hreceiving, by rw [hallocated, h.numbers], ?_, ?_, ?_⟩
  · rw [hopened, h.opened, List.filter_filter]
    exact List.filter_congr fun other _ => by rw [hisOpen, Bool.and_comm]
  · intro other origin hmem
    have hknown := h.known other origin hmem
    rw [hisOpen, hcommands]
    by_cases heq : conn = other
    · subst heq
      rw [hopen] at hknown ⊢
      simpa using hcourse origin _ hknown
    · rw [if_neg heq, List.append_nil, bne_iff_ne.mpr (Ne.symm heq), Bool.true_or, Bool.and_true]
      exact hknown
  · intro other hother
    have hne : conn ≠ other := fun heq => hother (heq ▸ h.mem_of_isOpen hopen)
    obtain ⟨hclosed, hnone⟩ := h.unknown other hother
    rw [hisOpen, hcommands, if_neg hne, hclosed, hnone]
    exact ⟨rfl, rfl⟩

/-- By cases on the call: one that allocates adds a connection, one about an open connection adds a
command about it, and any other one changes nothing. -/
theorem perform (h : Orderly t given) (call : Call) :
    Orderly (t.perform call) (given ++ t.returned call) := by
  cases call with
  | register =>
    exact h.allocate none h.receiving rfl rfl fun conn => by simp [Channel.perform, register,
      Channel.allocate, commandsOn]
  | connect pair =>
    have hconnect :
        t.connect pair = (.ok t.nextConn, t.allocate.emit (.connect t.nextConn pair)) := by
      rw [connect, if_pos h.receiving]
    have hallocate : t.allocate.isReceiving = true := h.receiving
    simp only [Channel.perform, returned, hconnect]
    refine h.allocate (some pair) (by rw [isReceiving_emit, hallocate])
      (by rw [allocated_emit]; rfl) (by rw [opened_emit]; rfl) fun conn => ?_
    rw [commandsOn_emit hallocate]
    rfl
  | write conn batch =>
    rw [returned, List.append_nil, Channel.perform, write]
    cases hopen : t.isOpen conn with
    | false => exact h
    | true =>
      rw [h.receiving]
      refine h.emit hopen (.write conn batch) (by simpa using h.receiving) (by simp) ?_
        (fun other => commandsOn_emit h.receiving _ other) fun _ _ hcourse => .write batch hcourse
      simp [TransportCommand.isClose]
  | close conn force =>
    rw [returned, List.append_nil, Channel.perform, close]
    cases hopen : t.isOpen conn with
    | false => exact h
    | true =>
      rw [if_pos rfl]
      have hreceiving :
          Channel.isReceiving { t with opened := t.opened.filter (· != conn) } = true :=
        h.receiving
      refine h.emit hopen (.close conn force) (by rw [isReceiving_emit, hreceiving])
        (by rw [allocated_emit]) ?_ (fun other => commandsOn_emit hreceiving _ other)
        fun _ _ hcourse => .close force hcourse
      simp [TransportCommand.isClose]

end Orderly

/-- By induction over the calls, from the last one. -/
theorem orderly_after (calls : List Call) :
    Orderly (after calls) (returnedBy {} calls) := by
  induction calls using List.reverseRecOn with
  | nil => exact .new
  | append_singleton calls call ih =>
    rw [after_snoc, returnedBy_snoc]
    exact ih.perform call

variable {calls : List Call}

theorem course_of_mem {origin : Option DomainPair} (hmem : (conn, origin) ∈ returnedBy {} calls) :
    Course conn origin ((after calls).isOpen conn) ((after calls).commandsOn conn) :=
  (orderly_after calls).known conn origin hmem

/-- A connection that was returned was returned once, and so for one pair at most. -/
theorem origin_unique {origin origin' : Option DomainPair}
    (hmem : (conn, origin) ∈ returnedBy {} calls) (hmem' : (conn, origin') ∈ returnedBy {} calls) :
    origin = origin' :=
  congrArg Prod.snd (List.inj_on_of_nodup_map (orderly_after calls).nodup hmem hmem' rfl)

theorem isOpen_after_iff :
    (after calls).isOpen conn = true ↔
      conn ∈ (returnedBy {} calls).map Prod.fst ∧ (after calls).wasClosed conn = false := by
  constructor
  · intro hopen
    have hmem := (orderly_after calls).mem_of_isOpen hopen
    obtain ⟨⟨_, origin⟩, hreturned, rfl⟩ := List.mem_map.mp hmem
    exact ⟨hmem, by rw [wasClosed, (course_of_mem hreturned).any_isClose, hopen, Bool.not_true]⟩
  · rintro ⟨hmem, hclosed⟩
    obtain ⟨⟨_, origin⟩, hreturned, rfl⟩ := List.mem_map.mp hmem
    rw [wasClosed, (course_of_mem hreturned).any_isClose] at hclosed
    rwa [Bool.not_eq_false'] at hclosed

/-- What the owner of the sockets hears of one connection. -/
theorem exists_commandsOn_after (calls : List Call) (conn : ConnId) :
    ∃ (opening : Option DomainPair) (batches : List (List Element)) (closing : Option Bool),
      (after calls).commandsOn conn = opening.toList.map (.connect conn) ++
        batches.map (.write conn) ++ closing.toList.map (.close conn) ∧
      ∀ pair, opening = some pair ↔ (conn, some pair) ∈ returnedBy {} calls := by
  by_cases hmem : conn ∈ (returnedBy {} calls).map Prod.fst
  · obtain ⟨⟨_, origin⟩, hreturned, rfl⟩ := List.mem_map.mp hmem
    obtain ⟨batches, closing, hcommands, -⟩ := (course_of_mem hreturned).eq_append
    refine ⟨origin, batches, closing, hcommands, fun pair => ⟨?_, origin_unique hreturned⟩⟩
    rintro rfl
    exact hreturned
  · refine ⟨none, [], none, ((orderly_after calls).unknown conn hmem).2, fun pair => ?_⟩
    exact iff_of_false (by simp) fun hreturned =>
      hmem (List.mem_map_of_mem (f := Prod.fst) hreturned)

theorem connect_of_receiving (h : t.isReceiving = true) (pair : DomainPair) :
    t.connect pair = (.ok t.nextConn,
      { t.allocate with commands := t.commands ++ [.connect t.nextConn pair] }) := by
  have hallocate : t.allocate.isReceiving = true := h
  rw [connect, if_pos h, emit, if_pos hallocate]
  rfl

theorem write_of_receiving (h : t.isReceiving = true) (conn : ConnId) (batch : List Element) :
    t.write conn batch =
      if t.isOpen conn then (.ok (), { t with commands := t.commands ++ [.write conn batch] })
      else (.error (.closed conn), t) := by
  have hopen : (t.isOpen conn && t.isReceiving) = t.isOpen conn := by rw [h, Bool.and_true]
  rw [write, hopen, emit, if_pos h]

theorem close_of_receiving (h : t.isReceiving = true) (conn : ConnId) (force : Bool) :
    t.close conn force =
      if t.isOpen conn then
        { t with
          opened := t.opened.filter (· != conn)
          commands := t.commands ++ [.close conn force] }
      else t := by
  have hremaining : Channel.isReceiving { t with opened := t.opened.filter (· != conn) } = true := h
  rw [close, emit, if_pos hremaining]

/-- The channel after any calls. The connections have distinct numbers, one after the other. About
each of them there is first the command to connect, exactly if it was asked for, then what is
written, and at most one command to close, which is the last. It is open from when it is returned
until it is closed. A connection that is asked for gets the next number, and the command to connect
is handed over. What is written is taken exactly while the connection is open. To close an open
connection hands over the one command to close it, after which it is not open; to close any other
changes nothing. -/
theorem commands_in_order (calls : List Call) :
    ((returnedBy {} calls).map Prod.fst).Nodup ∧
      (returnedBy {} calls).map Prod.fst =
        (List.range (returnedBy {} calls).length).map (⟨· + 1⟩) ∧
      (∀ conn : ConnId, ∃ (opening : Option DomainPair) (batches : List (List Element))
        (closing : Option Bool),
        (after calls).commandsOn conn = opening.toList.map (.connect conn) ++
          batches.map (.write conn) ++ closing.toList.map (.close conn) ∧
        ∀ pair, opening = some pair ↔ (conn, some pair) ∈ returnedBy {} calls) ∧
      (∀ conn : ConnId, (after calls).isOpen conn = true ↔
        conn ∈ (returnedBy {} calls).map Prod.fst ∧ (after calls).wasClosed conn = false) ∧
      (after calls).openCount =
        ((returnedBy {} calls).map Prod.fst).countP (fun conn => !(after calls).wasClosed conn) ∧
      (∀ pair : DomainPair, (after calls).connect pair = (.ok (after calls).nextConn,
        { (after calls).allocate with
          commands := (after calls).commands ++ [.connect (after calls).nextConn pair] })) ∧
      (∀ (conn : ConnId) (batch : List Element), (after calls).write conn batch =
        if (after calls).isOpen conn then
          (.ok (), { after calls with commands := (after calls).commands ++ [.write conn batch] })
        else (.error (.closed conn), after calls)) ∧
      ∀ (conn : ConnId) (force : Bool), ((after calls).close conn force).isOpen conn = false ∧
        (after calls).close conn force =
          if (after calls).isOpen conn then
            { after calls with
              opened := (after calls).opened.filter (· != conn)
              commands := (after calls).commands ++ [.close conn force] }
          else after calls := by
  have h := orderly_after calls
  refine ⟨h.nodup, ?_, exists_commandsOn_after calls, fun conn => isOpen_after_iff, ?_,
    connect_of_receiving h.receiving, write_of_receiving h.receiving, fun conn force => ⟨?_, ?_⟩⟩
  · have hlength : (returnedBy {} calls).length = (after calls).allocated := by
      simpa using congrArg List.length h.numbers
    rw [hlength, h.numbers]
  · rw [openCount, h.opened, List.countP_eq_length_filter]
    refine congrArg List.length (List.filter_congr fun conn hmem => ?_)
    rw [Bool.eq_iff_iff, isOpen_after_iff, Bool.not_eq_true', and_iff_right hmem]
  · rw [isOpen_close, bne_self_eq_false, Bool.and_false]
  · exact close_of_receiving h.receiving conn force

example (p : DomainPair) :
    (after [.connect p, .register, .write ⟨1⟩ [], .close ⟨1⟩ true, .write ⟨1⟩ [], .close ⟨1⟩ false,
      .close ⟨3⟩ true]).commands = [.connect ⟨1⟩ p, .write ⟨1⟩ [], .close ⟨1⟩ true] :=
  rfl

end Channel

end Federation
