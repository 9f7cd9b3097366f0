import Federation.Proofs.Node.Frame
import Federation.Server.Basic
import Mathlib.Logic.Function.Iterate

/-!
The task that takes the commands of a channel. It does what they say one after the other; only
failing a connection gives a new command, which is to close it, and doing this gives no other. So
the task gets idle, and what it made of the node it made of it command by command.
-/

namespace Federation

namespace Channel

variable {t : Channel}

theorem pending_emit (hreceiving : t.isReceiving) (htaken : t.taken ≤ t.commands.length)
    (command : TransportCommand) : (t.emit command).pending = t.pending ++ [command] := by
  rw [emit, if_pos hreceiving, pending, pending, List.drop_append_of_le_length htaken]

theorem pending_close (hreceiving : t.isReceiving) (htaken : t.taken ≤ t.commands.length)
    (conn : ConnId) (force : Bool) :
    (t.close conn force).pending =
      t.pending ++ if t.isOpen conn then [.close conn force] else [] := by
  unfold close
  split
  · exact pending_emit (t := { t with opened := t.opened.filter (· != conn) }) hreceiving htaken _
  · rw [List.append_nil]

theorem close_withTaken (t : Channel) (taken : Nat) (conn : ConnId) (force : Bool) :
    { t with taken := taken }.close conn force = { t.close conn force with taken := taken } := by
  have hopen : { t with taken := taken }.isOpen conn = t.isOpen conn := rfl
  unfold close emit
  rw [hopen]
  split
  · split <;> rfl
  · rfl

theorem pending_eq_cons {command : TransportCommand} {rest : List TransportCommand}
    (h : t.pending = command :: rest) :
    t.taken < t.commands.length ∧ { t with taken := t.taken + 1 }.pending = rest := by
  refine ⟨?_, ?_⟩
  · by_contra hle
    rw [pending, List.drop_eq_nil_of_le (by omega)] at h
    cases h
  · have hdrop : { t with taken := t.taken + 1 }.pending = t.pending.drop 1 := by
      rw [pending, pending, List.drop_drop]
    rw [hdrop, h]
    rfl

end Channel

namespace Node

def withTaken (n : Node Channel) (taken : Nat) : Node Channel :=
  { n with transport := { n.transport with taken := taken } }

def serveNext (n : Node Channel) : Node Channel :=
  match n.transport.pending with
  | [] => n
  | command :: _ => (n.withTaken (n.transport.taken + 1)).handle command

variable {n : Node Channel}

/-- What a command does, does not depend on how many have been taken. -/
theorem handle_withTaken (n : Node Channel) (taken : Nat) (command : TransportCommand) :
    (n.withTaken taken).handle command = (n.handle command).withTaken taken := by
  cases command with
  | write conn batch => rfl
  | connect conn pair => simp only [handle, withTaken, Channel.close_withTaken]
  | close conn force =>
    simp only [handle, connectionClosed]
    have hfind : (n.withTaken taken).find? conn = n.find? conn := rfl
    rw [hfind]
    cases n.find? conn <;> rfl

/-- A command hands over at most one other, to close the connection that it fails. -/
theorem handle_transport (n : Node Channel) (command : TransportCommand) :
    (n.handle command).transport.taken = n.transport.taken ∧
      ∃ added, (n.handle command).transport.commands = n.transport.commands ++ added ∧
        (added = [] ∨ ∃ conn pair, command = .connect conn pair ∧ added = [.close conn true]) := by
  cases command with
  | write conn batch => exact ⟨rfl, [], by simp [handle], Or.inl rfl⟩
  | connect conn pair =>
    simp only [handle, Channel.close]
    split
    · simp only [Channel.emit]
      split
      · exact ⟨rfl, _, rfl, Or.inr ⟨conn, pair, rfl, rfl⟩⟩
      · exact ⟨rfl, [], by simp, Or.inl rfl⟩
    · exact ⟨rfl, [], by simp, Or.inl rfl⟩
  | close conn force =>
    rw [handle, transport_connectionClosed]
    exact ⟨rfl, [], by simp, Or.inl rfl⟩

theorem foldl_handle_withTaken (commands : List TransportCommand) (n : Node Channel)
    (taken : Nat) :
    commands.foldl handle (n.withTaken taken) = (commands.foldl handle n).withTaken taken := by
  induction commands generalizing n with
  | nil => rfl
  | cons command commands ih => rw [List.foldl_cons, handle_withTaken, ih, List.foldl_cons]

/-- Some commands hand over others only to close what they fail. -/
theorem foldl_handle_transport (commands : List TransportCommand) (n : Node Channel) :
    (commands.foldl handle n).transport.taken = n.transport.taken ∧
      ∃ added, (commands.foldl handle n).transport.commands = n.transport.commands ++ added ∧
        (∀ command ∈ added, ∃ conn force, command = .close conn force) ∧
        ((∀ conn pair, TransportCommand.connect conn pair ∉ commands) → added = []) := by
  induction commands generalizing n with
  | nil => exact ⟨rfl, [], by simp, by simp, fun _ => rfl⟩
  | cons command commands ih =>
    obtain ⟨htaken, first, hfirst, hgrounds⟩ := handle_transport n command
    obtain ⟨htaken', added, hadded, hcloses, hnone⟩ := ih (n.handle command)
    refine ⟨htaken'.trans htaken, first ++ added, ?_, ?_, fun hconnect => ?_⟩
    · rw [List.foldl_cons, hadded, hfirst, List.append_assoc]
    · intro other hother
      rcases List.mem_append.mp hother with hmem | hmem
      · rcases hgrounds with rfl | ⟨conn, pair, -, rfl⟩
        · cases hmem
        · exact ⟨conn, true, List.mem_singleton.mp hmem⟩
      · exact hcloses other hmem
    · rw [hnone fun conn pair hmem => hconnect conn pair (List.mem_cons_of_mem command hmem)]
      rcases hgrounds with rfl | ⟨conn, pair, rfl, -⟩
      · rfl
      · exact absurd List.mem_cons_self (hconnect conn pair)

/-- Commands that are done one by one. -/
theorem serveNext_iterate {commands rest : List TransportCommand}
    (hpending : n.transport.pending = commands ++ rest) :
    serveNext^[commands.length] n =
      (commands.foldl handle n).withTaken (n.transport.taken + commands.length) := by
  induction commands generalizing n rest with
  | nil => rfl
  | cons command commands ih =>
    have hnext : n.serveNext = (n.handle command).withTaken (n.transport.taken + 1) := by
      rw [serveNext, hpending, ← handle_withTaken]
      rfl
    have hcons : n.transport.pending = command :: (commands ++ rest) := hpending
    obtain ⟨htaken, hrest⟩ := Channel.pending_eq_cons hcons
    obtain ⟨-, added, hcommands, -⟩ := handle_transport n command
    have hpending' : n.serveNext.transport.pending = commands ++ (rest ++ added) := by
      rw [hnext, Channel.pending, withTaken, hcommands, ← List.append_assoc, ← hrest]
      exact List.drop_append_of_le_length htaken
    rw [List.length_cons, Function.iterate_succ_apply, ih hpending', hnext,
      foldl_handle_withTaken, List.foldl_cons]
    show Node.withTaken _ (n.transport.taken + 1 + commands.length) = _
    rw [Nat.add_right_comm, Nat.add_assoc]
    rfl

theorem sweep_eq_withTaken (n : Node Channel) :
    n.sweep = (n.transport.pending.foldl handle n).withTaken n.transport.commands.length :=
  foldl_handle_withTaken n.transport.pending n n.transport.commands.length

theorem sweep_eq_iterate (htaken : n.transport.taken ≤ n.transport.commands.length) :
    n.sweep = serveNext^[n.transport.pending.length] n := by
  have hlength : n.transport.taken + n.transport.pending.length =
      n.transport.commands.length := by
    rw [Channel.pending, List.length_drop]
    omega
  rw [sweep_eq_withTaken, serveNext_iterate (List.append_nil _).symm, hlength]

/-- When the commands that were there are done, those that wait close connections, and there are
none if no connection had to be failed. -/
theorem pending_sweep (n : Node Channel) :
    n.sweep.transport.taken ≤ n.sweep.transport.commands.length ∧
      (∀ command ∈ n.sweep.transport.pending, ∃ conn force, command = .close conn force) ∧
      ((∀ conn pair, TransportCommand.connect conn pair ∉ n.transport.pending) →
        n.sweep.transport.pending = []) := by
  obtain ⟨-, added, hadded, hcloses, hnone⟩ := foldl_handle_transport n.transport.pending n
  have hpending : n.sweep.transport.pending = added := by
    rw [sweep_eq_withTaken, Channel.pending, withTaken, hadded, List.drop_left]
  refine ⟨?_, hpending ▸ hcloses, hpending ▸ hnone⟩
  rw [sweep_eq_withTaken, withTaken, hadded, List.length_append]
  exact Nat.le_add_right _ _

/-- The task gets idle by doing one command after the other. -/
theorem settle_idle (htaken : n.transport.taken ≤ n.transport.commands.length) :
    n.settle.transport.pending = [] ∧ ∃ count, n.settle = serveNext^[count] n := by
  obtain ⟨htaken', hcloses, -⟩ := pending_sweep n
  obtain ⟨-, -, hnone⟩ := pending_sweep n.sweep
  refine ⟨hnone fun conn pair hmem => ?_,
    n.sweep.transport.pending.length + n.transport.pending.length, ?_⟩
  · obtain ⟨other, force, hclose⟩ := hcloses _ hmem
    cases hclose
  · rw [settle, sweep_eq_iterate htaken', Function.iterate_add_apply, ← sweep_eq_iterate htaken]

end Node

end Federation
