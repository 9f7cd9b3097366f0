import Federation.Directory.Table
import Federation.Proofs.Node.Frame
import Mathlib.Data.List.Forall2

/-!
What becomes of the control stanzas of a connection. They wait in one queue, and whoever writes or
discards takes the whole queue. So the stanzas that were ever queued, in their order, are cut into
one piece for each call and the piece that still waits: each of them was written once with all of
its piece, or lost because the transport did not take this batch, or discarded, or it is waiting.
-/

namespace Federation

inductive QueueCall where
  | add (stanza : Element)
  | flush
  | send (stanza : Element)
  | discard

def QueueCall.added : QueueCall → List Element
  | .add stanza => [stanza]
  | .flush | .send _ | .discard => []

inductive QueueAnswer where
  | added
  | flushed (outcome : Except TransportError Nat)
  | sent (outcome : Except TransportError Unit)
  | discarded (count : Nat)
  deriving DecidableEq

/-- A call, what waited when it was made, what it returned, and what the node did to its
surroundings meanwhile. -/
structure QueueReport where
  call : QueueCall
  waiting : List Element
  answer : QueueAnswer
  output : List Effect

def QueueReport.accepted (r : QueueReport) : List Element :=
  match r.call, r.output with
  | .flush, [.write _ batch true] => batch
  | _, _ => []

def QueueReport.refused (r : QueueReport) : List Element :=
  match r.call, r.output with
  | .flush, [.write _ batch false] => batch
  | _, _ => []

def QueueReport.discardCount (r : QueueReport) : Nat :=
  match r.answer with
  | .discarded count => count
  | _ => 0

def QueueReport.discardTotal : List QueueReport → Nat
  | [] => 0
  | r :: rest => r.discardCount + discardTotal rest

/-- What a call makes of the stanzas that it takes out of the queue. A flush and a discard take all
that wait. -/
inductive Settles (conn : ConnId) : QueueReport → List Element → Prop
  | added (waiting : List Element) (stanza : Element) :
      Settles conn ⟨.add stanza, waiting, .added, []⟩ []
  | nothing : Settles conn ⟨.flush, [], .flushed (.ok 0), []⟩ []
  | written {batch : List Element} (h : batch ≠ []) :
      Settles conn ⟨.flush, batch, .flushed (.ok batch.length), [.write conn batch true]⟩ batch
  | dropped {batch : List Element} (h : batch ≠ []) (e : TransportError) :
      Settles conn ⟨.flush, batch, .flushed (.error e), [.write conn batch false]⟩ batch
  | sent (waiting : List Element) (stanza : Element) (outcome : Except TransportError Unit) :
      Settles conn ⟨.send stanza, waiting, .sent outcome, [.write conn [stanza] outcome.isOk]⟩ []
  | discarded (stanzas : List Element) :
      Settles conn ⟨.discard, stanzas, .discarded stanzas.length, []⟩ stanzas

namespace Settles

variable {conn : ConnId} {r : QueueReport} {piece : List Element}

/-- Whatever is written is a batch that is not empty. -/
theorem exists_write (h : Settles conn r piece) {effect : Effect} (heffect : effect ∈ r.output) :
    ∃ batch accepted, effect = .write conn batch accepted ∧ batch ≠ [] := by
  cases h with
  | added | nothing | discarded => cases heffect
  | written hne => exact ⟨piece, true, List.mem_singleton.mp heffect, hne⟩
  | dropped hne => exact ⟨piece, false, List.mem_singleton.mp heffect, hne⟩
  | sent waiting stanza outcome =>
    exact ⟨[stanza], _, List.mem_singleton.mp heffect, List.cons_ne_nil _ _⟩

/-- What is taken out of the queue is all written, all lost or all discarded. -/
theorem exists_eq_append (h : Settles conn r piece) :
    ∃ discarded : List Element,
      piece = r.accepted ++ r.refused ++ discarded ∧ discarded.length = r.discardCount := by
  cases h with
  | written | dropped => exact ⟨[], by simp [QueueReport.accepted, QueueReport.refused], rfl⟩
  | discarded => exact ⟨piece, rfl, rfl⟩
  | added | nothing | sent => exact ⟨[], rfl, rfl⟩

end Settles

namespace Node

variable {τ : Type} [Transport τ]

def onQueue (k : SessionKey) (n : Node τ) : QueueCall → QueueAnswer × Node τ
  | .add stanza => (.added, n.alter k (·.enqueue stanza))
  | .flush => let (outcome, n) := n.flush k; (.flushed outcome, n)
  | .send stanza => let (outcome, n) := n.sendNow k stanza; (.sent outcome, n)
  | .discard => let (count, n) := n.discard k; (.discarded count, n)

def afterCalls (k : SessionKey) (n : Node τ) (calls : List QueueCall) : Node τ :=
  calls.foldl (fun n call => (n.onQueue k call).2) n

def queueReport (k : SessionKey) (n : Node τ) (call : QueueCall) : QueueReport :=
  ⟨call, (n.session k).waiting, (n.onQueue k call).1,
    (n.onQueue k call).2.log.drop n.log.length⟩

def queueReports (k : SessionKey) (n : Node τ) : List QueueCall → List QueueReport
  | [] => []
  | call :: rest => n.queueReport k call :: (n.onQueue k call).2.queueReports k rest

theorem map_call_queueReports (n : Node τ) (k : SessionKey) (calls : List QueueCall) :
    (n.queueReports k calls).map (·.call) = calls := by
  induction calls generalizing n with
  | nil => rfl
  | cons call rest ih => exact congrArg (call :: ·) (ih _)

/-- A call takes nothing out of the queue or all that waits there. -/
structure TakesPiece (k : SessionKey) (n : Node τ) (call : QueueCall) (piece : List Element) :
    Prop where
  settles : Settles (n.session k).conn (n.queueReport k call) piece
  waiting : piece ++ ((n.onQueue k call).2.session k).waiting =
    (n.session k).waiting ++ call.added
  conn : ((n.onQueue k call).2.session k).conn = (n.session k).conn
  length : (n.onQueue k call).2.sessions.length = n.sessions.length

variable {n : Node τ} {k : SessionKey}

theorem takesPiece_flush (hk : k < n.sessions.length) :
    n.TakesPiece k .flush (n.session k).waiting := by
  have hsession : ((n.onQueue k .flush).2.session k) = (n.session k).clearQueue := by
    rw [onQueue, session_flush, if_pos ⟨rfl, hk⟩]
  refine ⟨?_, ?_, ?_, length_sessions_flush n k⟩
  · by_cases hempty : (n.session k).waiting = []
    · have hflush : n.flush k = (.ok 0, n) := by simp [flush, hempty]
      simpa [queueReport, onQueue, hflush, hempty] using Settles.nothing
    · -- What the transport answers decides whether the batch is written or lost.
      obtain ⟨outcome, hanswer, hlog⟩ : ∃ outcome : Except TransportError Unit,
          (n.flush k).1 = outcome.map (fun _ => (n.session k).waiting.length) ∧
            (n.flush k).2.log = n.log ++
              [.write (n.session k).conn (n.session k).waiting outcome.isOk] := by
        refine ⟨(Transport.write n.transport (n.session k).conn (n.session k).waiting).1, ?_, ?_⟩
        · simp only [flush, List.isEmpty_iff, hempty, if_false]
          rfl
        · rw [flush_eq, if_neg hempty]
          rfl
      have hreport : n.queueReport k .flush =
          ⟨.flush, (n.session k).waiting,
            .flushed (outcome.map fun _ => (n.session k).waiting.length),
            [.write (n.session k).conn (n.session k).waiting outcome.isOk]⟩ := by
        simp [queueReport, onQueue, hanswer, hlog]
      rw [hreport]
      cases outcome with
      | ok _ => exact .written hempty
      | error e => exact .dropped hempty e
  · rw [hsession, QueueCall.added]
    rfl
  · rw [hsession]
    rfl

theorem exists_takesPiece (hk : k < n.sessions.length) (call : QueueCall) :
    ∃ piece, n.TakesPiece k call piece := by
  cases call with
  | add stanza =>
    have hsession : (n.onQueue k (.add stanza)).2.session k = (n.session k).enqueue stanza :=
      session_alter_self hk _
    refine ⟨[], ?_, ?_, ?_, length_sessions_alter n k _⟩
    · have hlog : (n.onQueue k (.add stanza)).2.log = n.log := rfl
      rw [queueReport, hlog, List.drop_length]
      exact .added _ stanza
    · rw [hsession]
      rfl
    · rw [hsession]
      rfl
  | flush => exact ⟨_, takesPiece_flush hk⟩
  | send stanza =>
    refine ⟨[], ?_, ?_, rfl, rfl⟩
    · have hlog : (n.onQueue k (.send stanza)).2.log = n.log ++
          [.write (n.session k).conn [stanza] (n.sendNow k stanza).1.isOk] := rfl
      rw [queueReport, hlog, List.drop_left]
      exact .sent _ stanza (n.sendNow k stanza).1
    · exact (List.append_nil _).symm
  | discard =>
    have hsession : (n.onQueue k .discard).2.session k = (n.session k).clearQueue :=
      session_alter_self hk _
    refine ⟨(n.session k).waiting, ?_, ?_, ?_, length_sessions_alter n k _⟩
    · have hlog : (n.onQueue k .discard).2.log = n.log := rfl
      rw [queueReport, hlog, List.drop_length]
      exact .discarded _
    · rw [hsession]
      rfl
    · rw [hsession]
      rfl

/-- By induction over the calls: what the first one leaves waiting is what the others begin with. -/
theorem exists_pieces (hk : k < n.sessions.length) (calls : List QueueCall) :
    ∃ pieces, List.Forall₂ (Settles (n.session k).conn) (n.queueReports k calls) pieces ∧
      pieces.flatten ++ ((n.afterCalls k calls).session k).waiting =
        (n.session k).waiting ++ calls.flatMap QueueCall.added := by
  induction calls generalizing n with
  | nil => exact ⟨[], .nil, by simp [afterCalls]⟩
  | cons call rest ih =>
    obtain ⟨piece, htakes⟩ := exists_takesPiece hk call
    obtain ⟨pieces, hsettles, hpieces⟩ := ih (by rwa [htakes.length])
    rw [htakes.conn] at hsettles
    refine ⟨piece :: pieces, .cons htakes.settles hsettles, ?_⟩
    calc (piece :: pieces).flatten ++ ((n.afterCalls k (call :: rest)).session k).waiting
        = piece ++ (((n.onQueue k call).2.session k).waiting ++
            rest.flatMap QueueCall.added) := by
          rw [← hpieces, List.flatten_cons, List.append_assoc]
          rfl
      _ = (n.session k).waiting ++ (call :: rest).flatMap QueueCall.added := by
          rw [← List.append_assoc, htakes.waiting, List.append_assoc, List.flatMap_cons]

/-- Each stanza of the pieces is in one of the batches that were taken or refused, or among those
that were discarded. -/
theorem exists_discarded {conn : ConnId} {reports : List QueueReport}
    {pieces : List (List Element)} (h : List.Forall₂ (Settles conn) reports pieces) :
    ∃ discarded : List Element,
      (reports.flatMap QueueReport.accepted ++ reports.flatMap QueueReport.refused ++
        discarded).Perm pieces.flatten ∧
      discarded.length = QueueReport.discardTotal reports := by
  induction h with
  | nil => exact ⟨[], .refl _, rfl⟩
  | @cons r piece reports pieces hsettles _ ih =>
    obtain ⟨first, rfl, hfirst⟩ := hsettles.exists_eq_append
    obtain ⟨others, hperm, hothers⟩ := ih
    refine ⟨first ++ others, ?_, ?_⟩
    · rw [List.flatten_cons]
      refine List.Perm.trans ?_ (hperm.append_left _)
      refine List.perm_iff_count.mpr fun stanza => ?_
      simp only [List.flatMap_cons, List.count_append]
      omega
    · rw [List.length_append, hfirst, hothers, QueueReport.discardTotal]

theorem accepted_sublist {conn : ConnId} {reports : List QueueReport}
    {pieces : List (List Element)} (h : List.Forall₂ (Settles conn) reports pieces) :
    (reports.flatMap QueueReport.accepted).Sublist pieces.flatten := by
  induction h with
  | nil => exact List.Sublist.refl _
  | cons hsettles _ ih =>
    obtain ⟨discarded, rfl, -⟩ := hsettles.exists_eq_append
    rw [List.flatMap_cons, List.flatten_cons, List.append_assoc _ _ discarded]
    exact (List.sublist_append_left _ _).append ih

/-- Whatever is done with the queue of a connection, and whichever batches the transport takes, the
stanzas that waited at the start and those that were added are, in their order, the pieces that the
calls took out of the queue, one for each call, followed by what still waits. A flush takes all
that waits: it writes this in one batch and returns how many stanzas it wrote, or returns the
refusal of the transport and the batch is lost; if nothing waits it writes nothing. A discard takes
all that waits and returns how many stanzas these were. To send takes nothing out. So each stanza
is in one batch that the transport took, in one that it refused, among those discarded, or still
waiting; the batches that it took, followed by what still waits, keep the order of the additions;
and no batch is empty. -/
theorem control_stanzas_settled_once (n : Node τ) {k : SessionKey} (hk : k < n.sessions.length)
    (calls : List QueueCall) :
    let reports := n.queueReports k calls
    let waiting := ((n.afterCalls k calls).session k).waiting
    let added := (n.session k).waiting ++ calls.flatMap QueueCall.added
    reports.map (·.call) = calls ∧
    (∃ pieces, List.Forall₂ (Settles (n.session k).conn) reports pieces ∧
      pieces.flatten ++ waiting = added) ∧
    (∃ discarded : List Element,
      (reports.flatMap QueueReport.accepted ++ reports.flatMap QueueReport.refused ++ discarded ++
        waiting).Perm added ∧
      discarded.length = QueueReport.discardTotal reports) ∧
    (reports.flatMap QueueReport.accepted ++ waiting).Sublist added ∧
    ∀ r ∈ reports, ∀ effect ∈ r.output,
      ∃ batch accepted, effect = .write (n.session k).conn batch accepted ∧ batch ≠ [] := by
  intro reports waiting added
  obtain ⟨pieces, hsettles, hpieces⟩ := exists_pieces hk calls
  change pieces.flatten ++ waiting = added at hpieces
  refine ⟨map_call_queueReports n k calls, ⟨pieces, hsettles, hpieces⟩, ?_, ?_,
    fun r hr effect heffect => ?_⟩
  · obtain ⟨discarded, hperm, hcount⟩ := exists_discarded hsettles
    refine ⟨discarded, ?_, hcount⟩
    rw [← hpieces]
    exact hperm.append_right waiting
  · rw [← hpieces]
    exact (accepted_sublist hsettles).append (List.Sublist.refl _)
  · obtain ⟨i, hi, rfl⟩ := List.getElem_of_mem hr
    have hi' : i < pieces.length := hsettles.length_eq ▸ hi
    exact (hsettles.get hi hi').exists_write heffect

end Node

/-- A transport that takes or refuses one batch after the other as it has been told. -/
structure Scripted where
  answers : List Bool

instance : Transport Scripted where
  write t conn _ :=
    match t.answers with
    | false :: rest => (.error (.closed conn), ⟨rest⟩)
    | _ :: rest => (.ok (), ⟨rest⟩)
    | [] => (.ok (), t)
  connect t pair := (.error (.connectFailed pair "no connection"), t)
  stop t _ _ := t
  isOpen _ _ := true

namespace Node

/-- Of five stanzas two are written in one batch, one is lost with a batch, one is discarded and one
waits at the end. -/
theorem control_stanzas_settled_once_of_refused_batch :
    let n := ((create {} (.exact []) (Scripted.mk [true, true, false]) 0).accept ⟨1⟩ "").2
    let stanza := fun name => Element.mk name [] none []
    let calls : List QueueCall := [.add (stanza "a"), .send (stanza "m"), .add (stanza "b"), .flush,
      .flush, .add (stanza "c"), .flush, .add (stanza "d"), .discard, .add (stanza "e")]
    let reports := n.queueReports 0 calls
    0 < n.sessions.length ∧
      reports.map (·.answer) = [.added, .sent (.ok ()), .added, .flushed (.ok 2), .flushed (.ok 0),
        .added, .flushed (.error (.closed ⟨1⟩)), .added, .discarded 1, .added] ∧
      ((n.afterCalls 0 calls).session 0).waiting = [stanza "e"] ∧
      ∃ discarded : List Element, discarded.length = 1 ∧
        ([stanza "a", stanza "b"] ++ [stanza "c"] ++ discarded ++ [stanza "e"]).Perm
          [stanza "a", stanza "b", stanza "c", stanza "d", stanza "e"] := by
  intro n stanza calls reports
  have hlength : 0 < n.sessions.length := by decide
  obtain ⟨-, -, ⟨discarded, hperm, hcount⟩, -, -⟩ := n.control_stanzas_settled_once hlength calls
  have hanswers : reports.map (·.answer) = [.added, .sent (.ok ()), .added, .flushed (.ok 2),
      .flushed (.ok 0), .added, .flushed (.error (.closed ⟨1⟩)), .added, .discarded 1, .added] := by
    decide +kernel
  have hbatches : reports.flatMap QueueReport.accepted = [stanza "a", stanza "b"] ∧
      reports.flatMap QueueReport.refused = [stanza "c"] ∧
      ((n.afterCalls 0 calls).session 0).waiting = [stanza "e"] ∧
      QueueReport.discardTotal reports = 1 := by
    decide +kernel
  obtain ⟨haccepted, hrefused, hwaiting, hdiscards⟩ := hbatches
  rw [haccepted, hrefused, hwaiting] at hperm
  exact ⟨hlength, hanswers, hwaiting, discarded, hcount.trans hdiscards, hperm⟩

end Node

end Federation
