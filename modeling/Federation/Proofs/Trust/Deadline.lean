import Federation.Proofs.Node.Contact
import Federation.Proofs.Trust.Output
import Federation.Proofs.Trust.Phases

/-!
The deadline for authentication. From the start of the service on, a check of the session is to come
until time has reached its deadline. The check closes the session just if it is there, trusted for
no pair and open, and whatever it found, no check concerns the session later: trust is not lost
again, and what is closed does not open.
-/

namespace Federation

theorem Simulated.neverReopens : Transport.NeverReopens Simulated where
  write := shutsDown.write
  connect := shutsDown.connect
  stop := shutsDown.stop

theorem Channel.neverReopens : Transport.NeverReopens Channel where
  write := shutsDown.write
  connect := shutsDown.connect
  stop := shutsDown.stop

namespace Node

open Relation

variable {τ : Type}

def IsOverdue [Transport τ] (n : Node τ) (k : SessionKey) : Prop :=
  n.IsLive k ∧ (∀ p, ¬ (n.session k).isTrustedFor p) ∧ n.isOpen k

def IsExempt [Transport τ] (n : Node τ) (k : SessionKey) : Prop :=
  (∃ p, (n.session k).isTrustedFor p) ∨ n.isOpen k = false

structure Checks [Transport τ] (n m : Node τ) (k : SessionKey) : Prop where
  closes : n.IsOverdue k → m = (n.alter k Session.beginClose).halt (n.session k).conn true
  spares : ¬ n.IsOverdue k → m = n

/-- What the checks rely on: the sessions agree with themselves, those whose connections are not
there any more are being torn down, and every check to come is one of a session. -/
structure Watched (n : Node τ) : Prop where
  wellFormed : n.WellFormed
  agrees : ∀ k, (n.session k).Agrees
  ended : n.EndsClosing
  alarms : ∀ alarm ∈ n.alarms, alarm.session < n.sessions.length

theorem isReferenced_of_isLive {n : Node τ} {k : SessionKey} (h : n.IsLive k) :
    n.isReferenced k := by
  obtain ⟨before, rest, hlive, -⟩ := List.lookup_eq_some_iff.mp h
  have hmem : ((n.session k).conn, k) ∈ n.live := by simp [hlive]
  have hany : n.live.any (·.2 == k) := List.any_eq_true.mpr ⟨_, hmem, by simp⟩
  simp [isReferenced, hany]

variable [Transport τ] {n m : Node τ} {c : Cause} {k : SessionKey}

section Timers

/-- A move concerns the clock and the checks to come only if the service of a connection starts or
time goes on. -/
theorem Move.timers (h : Move c n m) :
    m.clock = n.clock ∧ m.alarms = n.alarms ∨
      (∃ conn timeout k, n.find? conn = some k ∧ c = .call (.serviceStarted conn) ∧
        m = n.arm timeout k) ∨
      ∃ milliseconds, c = .call (.advance milliseconds) ∧ m.sessions = n.sessions ∧
        ∀ alarm ∈ m.alarms, alarm ∈ n.alarms := by
  have hflush : ∀ (n : Node τ) k,
      (n.flush k).2.clock = n.clock ∧ (n.flush k).2.alarms = n.alarms := by
    intro n k
    rw [flush_eq]
    split <;> exact ⟨rfl, rfl⟩
  have htrust : ∀ (n : Node τ) p k,
      (n.trust p k).clock = n.clock ∧ (n.trust p k).alarms = n.alarms := by
    intro n p k
    unfold trust addLink
    simp only
    split <;> exact ⟨rfl, rfl⟩
  cases h with
  | offerKey k p => exact Or.inl (hflush _ k)
  | flush k => exact Or.inl (hflush n k)
  | stop k force =>
    unfold Node.stop
    split <;> exact Or.inl ⟨rfl, rfl⟩
  | grantVerdict k stanza p => exact Or.inl (htrust _ p k)
  | grantCertificate k stanza pair p => exact Or.inl (htrust n p k)
  | grantRelayed r t stanza p => exact Or.inl (htrust _ p t)
  | close conn k hfind =>
    simp only [connectionClosed, hfind]
    exact Or.inl ⟨rfl, rfl⟩
  | arm conn timeout k hfind => exact Or.inr (Or.inl ⟨conn, timeout, k, hfind, rfl, rfl⟩)
  | tick milliseconds clock alarms hkept => exact Or.inr (Or.inr ⟨milliseconds, rfl, rfl, hkept⟩)
  | _ => exact Or.inl ⟨rfl, rfl⟩

/-- Unless time goes on, no check is made. -/
theorem Moves.mem_alarms (h : Moves c n m) (hc : ∀ milliseconds, c ≠ .call (.advance milliseconds))
    {alarm : Alarm} (halarm : alarm ∈ n.alarms) : alarm ∈ m.alarms := by
  induction h with
  | refl => exact halarm
  | tail _ hmove ih =>
    rcases hmove.timers with ⟨-, hsame⟩ | ⟨conn, timeout, k, -, -, rfl⟩ | ⟨milliseconds, hcall, -⟩
    · rwa [hsame]
    · exact List.mem_append_left _ ih
    · exact absurd hcall (hc milliseconds)

end Timers

section Watched

theorem Move.watched (h : Move c n m) (hconns : (m.sessions.map (·.conn)).Nodup)
    (hn : n.Watched) : m.Watched where
  wellFormed := h.wellFormed hn.wellFormed
  agrees := fun k => (h.change k).agrees (hn.agrees k)
  ended := h.endsClosing hn.wellFormed hconns hn.ended
  alarms := by
    intro alarm halarm
    refine Nat.lt_of_lt_of_le ?_ h.length_le
    rcases h.timers with ⟨-, hsame⟩ | ⟨conn, timeout, k, hfind, -, rfl⟩ | ⟨-, -, -, hkept⟩
    · rw [hsame] at halarm
      exact hn.alarms alarm halarm
    · rcases List.mem_append.mp halarm with hold | hnew
      · exact hn.alarms alarm hold
      · rw [List.mem_singleton.mp hnew]
        exact (hn.wellFormed.live conn k hfind).1
    · exact hn.alarms alarm (hkept alarm halarm)

theorem Moves.watched (h : Moves c n m) (hconns : (m.sessions.map (·.conn)).Nodup)
    (hn : n.Watched) : m.Watched := by
  induction h with
  | refl => exact hn
  | tail _ hmove ih => exact hmove.watched hconns (ih (hmove.conns_prefix.sublist.nodup hconns))

theorem Moves.isExempt (h : Moves c n m) (hstays : Transport.NeverReopens τ)
    (hconns : (m.sessions.map (·.conn)).Nodup) (hk : k < n.sessions.length)
    (hexempt : n.IsExempt k) : m.IsExempt k := by
  induction h with
  | refl => exact hexempt
  | tail hmoves hmove ih =>
    rcases ih (hmove.conns_prefix.sublist.nodup hconns) with ⟨p, htrusted⟩ | hclosed
    · exact Or.inl ⟨p, (hmove.change k).isTrustedFor_of_isTrustedFor htrusted⟩
    · have hk' := Nat.lt_of_lt_of_le hk (Moves.length_le hmoves)
      exact Or.inr (hmove.isOpen_eq_false hstays hconns hk' hclosed)

/-- A session that is not there any more is not open. -/
theorem Watched.isLive_of_isOpen (hn : n.Watched) (hk : k < n.sessions.length)
    (hopen : n.isOpen k) : n.IsLive k := by
  by_contra hdead
  rw [isOpen, hn.ended k hk hdead] at hopen
  cases hopen

theorem Watched.isOverdue_or_isExempt (hn : n.Watched) (hk : k < n.sessions.length) :
    n.IsOverdue k ∨ n.IsExempt k := by
  by_cases htrusted : ∃ p, (n.session k).isTrustedFor p
  · exact Or.inr (Or.inl htrusted)
  · cases hopen : n.isOpen k with
    | false => exact Or.inr (Or.inr hopen)
    | true => exact Or.inl ⟨hn.isLive_of_isOpen hk hopen, not_exists.mp htrusted, hopen⟩

theorem IsExempt.not_isOverdue (h : n.IsExempt k) : ¬ n.IsOverdue k := by
  rintro ⟨-, huntrusted, hopen⟩
  rcases h with ⟨p, htrusted⟩ | hclosed
  · exact huntrusted p htrusted
  · rw [hclosed] at hopen
    cases hopen

theorem Watched.checks (hn : n.Watched) (hk : k < n.sessions.length) : Checks n (n.expire k) k where
  closes := by
    rintro ⟨hlive, huntrusted, hopen⟩
    have hflag : (n.session k).isAuthenticated = false := by
      rw [← Bool.not_eq_true, (hn.agrees k).authenticated]
      exact not_exists.mpr huntrusted
    have hclosing : (n.session k).isClosing = false := by
      simp only [isOpen, Bool.and_eq_true, Bool.not_eq_true'] at hopen
      exact hopen.1
    rw [expire, if_pos (by simp [isReferenced_of_isLive hlive, hflag, hopen]),
      stop_of_open hclosing]
  spares := by
    intro hnot
    have hexempt := (hn.isOverdue_or_isExempt hk).resolve_left hnot
    rw [expire, if_neg]
    rcases hexempt with htrusted | hclosed
    · simp [(hn.agrees k).authenticated.mpr htrusted]
    · simp [hclosed]

theorem Watched.isExempt_expire (hn : n.Watched) (hk : k < n.sessions.length) :
    (n.expire k).IsExempt k := by
  rcases hn.isOverdue_or_isExempt hk with hoverdue | hexempt
  · rw [(hn.checks hk).closes hoverdue]
    refine Or.inr ?_
    have hsession : ((n.alter k Session.beginClose).halt (n.session k).conn true).session k =
        (n.session k).beginClose := session_alter_self hk _
    rw [isOpen, hsession]
    rfl
  · rwa [(hn.checks hk).spares hexempt.not_isOverdue]

end Watched

def afterChecks (n : Node τ) (made : List Alarm) : Node τ :=
  made.foldl (fun n alarm => n.expire alarm.session)
    { n with alarms := n.alarms.filter fun alarm => !decide (alarm.deadline ≤ n.clock) }

section Checks

/-- When time goes on, the checks that are due are made one after the other. -/
theorem advance_eq (n : Node τ) (milliseconds : Nat) :
    n.advance milliseconds =
      (n.tick milliseconds).afterChecks (n.tick milliseconds).dueAlarms := rfl

theorem afterChecks_concat (n : Node τ) (made : List Alarm) (alarm : Alarm) :
    n.afterChecks (made ++ [alarm]) = (n.afterChecks made).expire alarm.session := by
  simp [afterChecks]

theorem moves_afterChecks_append (n : Node τ) (c : Cause) (made rest : List Alarm) :
    Moves c (n.afterChecks made) (n.afterChecks (made ++ rest)) := by
  induction rest using List.reverseRecOn with
  | nil => rw [List.append_nil]
  | append_singleton rest alarm ih =>
    rw [← List.append_assoc, afterChecks_concat]
    exact ih.trans (moves_expire alarm.session)

theorem moves_afterChecks (n : Node τ) (milliseconds : Nat) (made : List Alarm) :
    Moves (.call (.advance milliseconds)) n ((n.tick milliseconds).afterChecks made) :=
  (ReflTransGen.single (.tick milliseconds (n.clock + milliseconds) _ fun _ halarm =>
    (List.mem_filter.mp halarm).1)).trans (moves_afterChecks_append (n.tick milliseconds) _ [] made)

theorem length_sessions_afterChecks (n : Node τ) (made : List Alarm) :
    (n.afterChecks made).sessions.length = n.sessions.length := by
  induction made using List.reverseRecOn with
  | nil => rfl
  | append_singleton made alarm ih =>
    rw [afterChecks_concat, expire]
    split
    · rw [length_sessions_stop, ih]
    · exact ih

theorem clock_afterChecks (n : Node τ) (made : List Alarm) :
    (n.afterChecks made).clock = n.clock ∧ (n.afterChecks made).alarms =
      n.alarms.filter fun alarm => !decide (alarm.deadline ≤ n.clock) := by
  induction made using List.reverseRecOn with
  | nil => exact ⟨rfl, rfl⟩
  | append_singleton made alarm ih =>
    rw [afterChecks_concat, expire]
    split
    · unfold Node.stop
      split <;> exact ih
    · exact ih

omit [Transport τ] in
theorem mem_dueAlarms {alarm : Alarm} :
    alarm ∈ n.dueAlarms ↔ alarm ∈ n.alarms ∧ alarm.deadline ≤ n.clock := by
  simp [dueAlarms, List.mem_mergeSort]

/-- A check that is due when time goes on is made, and concerns its session for the last time. -/
theorem Watched.check_or_exempt_advance (hn : n.Watched) (hstays : Transport.NeverReopens τ)
    {milliseconds : Nat} (hconns : ((n.advance milliseconds).sessions.map (·.conn)).Nodup)
    {alarm : Alarm} (halarm : alarm ∈ n.alarms) :
    alarm ∈ (n.advance milliseconds).alarms ∨ (n.advance milliseconds).IsExempt alarm.session := by
  let ticked := n.tick milliseconds
  rw [advance_eq] at hconns ⊢
  by_cases hdue : alarm.deadline ≤ ticked.clock
  · right
    obtain ⟨made, rest, hsplit⟩ :=
      List.append_of_mem ((mem_dueAlarms (n := ticked)).mpr ⟨halarm, hdue⟩)
    have hbefore := moves_afterChecks n milliseconds made
    have hcheck := moves_expire (c := .call (.advance milliseconds))
      (n := ticked.afterChecks made) alarm.session
    have hrest := moves_afterChecks_append ticked (.call (.advance milliseconds))
      (made ++ [alarm]) rest
    rw [List.append_assoc, List.singleton_append, ← hsplit, afterChecks_concat] at hrest
    have hk := Nat.lt_of_lt_of_le (hn.alarms alarm halarm) hbefore.length_le
    have hwatched := hbefore.watched
      ((Moves.conns_prefix (hcheck.trans hrest)).sublist.nodup hconns) hn
    exact hrest.isExempt hstays hconns (Nat.lt_of_lt_of_le hk hcheck.length_le)
      (hwatched.isExempt_expire hk)
  · left
    rw [(clock_afterChecks _ _).2]
    exact List.mem_filter.mpr ⟨halarm, by simpa using hdue⟩

/-- After time went on, no check is due. -/
theorem dueAlarms_advance (n : Node τ) (milliseconds : Nat) :
    (n.advance milliseconds).dueAlarms = [] := by
  refine List.eq_nil_iff_forall_not_mem.mpr fun alarm halarm => ?_
  rw [advance_eq, mem_dueAlarms, (clock_afterChecks _ _).1, (clock_afterChecks _ _).2] at halarm
  simp only [List.mem_filter, Bool.not_eq_true', decide_eq_false_iff_not] at halarm
  exact halarm.1.2 halarm.2

end Checks

end Node

namespace Setup

variable {τ : Type} [Transport τ] (setup : Setup τ)

/-- What changes on its own does not open the connection of a session again. -/
def NeverReopens (past : List (Occurrence τ)) : Prop :=
  ∀ before transport pinned rest, past = before ++ .drift transport pinned :: rest →
    ∀ k < (setup.after before).sessions.length,
      Transport.isOpen (setup.after before).transport
        ((setup.after before).session k).conn = false →
      Transport.isOpen transport ((setup.after before).session k).conn = false

/-- A check of a session that is made when time goes on after a history, at the node that the checks
before it have left. -/
inductive ChecksAt (past : List (Occurrence τ)) : Node τ → SessionKey → Prop
  | intro (milliseconds : Nat) (made rest : List Alarm) (alarm : Alarm)
      (hdue : ((setup.after past).tick milliseconds).dueAlarms = made ++ alarm :: rest) :
      ChecksAt past (((setup.after past).tick milliseconds).afterChecks made) alarm.session

theorem watched_after {past : List (Occurrence τ)}
    (hconns : ((setup.after past).sessions.map (·.conn)).Nodup) : (setup.after past).Watched := by
  refine setup.invariant
    (P := fun n => (n.sessions.map (fun s => s.conn)).Nodup → n.Watched) ?_ ?_ ?_ past hconns
  · refine fun _ => ⟨setup.wellFormed_after [], setup.agrees_after [], ?_, ?_⟩
    · exact fun k hk => by cases hk
    · exact fun alarm h => by cases h
  · exact fun hmove hn hnodup =>
      hmove.watched hnodup (hn (hmove.conns_prefix.sublist.nodup hnodup))
  · intro n transport pinned hn hnodup
    have h := hn hnodup
    exact ⟨⟨h.wellFormed.entries, h.wellFormed.live⟩, h.agrees, h.ended, h.alarms⟩

variable (hstays : Transport.NeverReopens τ)

include hstays

theorem isExempt_next {past : List (Occurrence τ)} {o : Occurrence τ} {k : SessionKey}
    (hconns : ((setup.after (past ++ [o])).sessions.map (·.conn)).Nodup)
    (hdrift : setup.NeverReopens (past ++ [o])) (hk : k < (setup.after past).sessions.length)
    (hexempt : (setup.after past).IsExempt k) : (setup.after (past ++ [o])).IsExempt k := by
  rw [after_snoc] at hconns ⊢
  cases o with
  | event event => exact (setup.moves_event past event).isExempt hstays hconns hk hexempt
  | drift transport pinned =>
    rcases hexempt with htrusted | hclosed
    · exact Or.inl htrusted
    · refine Or.inr ?_
      simp only [Node.isOpen, Bool.and_eq_false_iff] at hclosed ⊢
      exact hclosed.imp id (hdrift past transport pinned [] rfl k hk)

/-- From the start of the service on, the check of a session is to come, until no check concerns the
session any more. -/
theorem check_or_exempt {before rest : List (Occurrence τ)} {conn : ConnId} {k : SessionKey}
    (hfind : (setup.after before).find? conn = some k)
    (hconns : ((setup.after (before ++ .event (.serviceStarted conn) :: rest)).sessions.map
      (·.conn)).Nodup)
    (hdrift : setup.NeverReopens (before ++ .event (.serviceStarted conn) :: rest)) :
    let n := setup.after (before ++ .event (.serviceStarted conn) :: rest)
    ⟨(setup.after before).clock + setup.settings.authTimeout.milliseconds, k⟩ ∈ n.alarms ∨
      n.IsExempt k := by
  have hk : k < (setup.after before).sessions.length :=
    ((setup.wellFormed_after before).live conn k hfind).1
  induction rest using List.reverseRecOn with
  | nil =>
    left
    have harmed : (setup.after before).step setup.chain (.serviceStarted conn) =
        (setup.after before).arm setup.settings.authTimeout k := by
      simp only [Node.step, Node.serviceStarted, hfind, chain, Node.standard_eq]
      rfl
    simp only [after_snoc, next_event, harmed]
    exact List.mem_append_right _ (List.mem_singleton_self _)
  | append_singleton rest o ih =>
    have hsplit : before ++ .event (.serviceStarted conn) :: (rest ++ [o]) =
        (before ++ .event (.serviceStarted conn) :: rest) ++ [o] := by simp
    simp only [hsplit] at hconns hdrift ⊢
    have hk' := (setup.identity_append before (.event (.serviceStarted conn) :: rest) hk).1
    have hconns' := setup.nodup_conns_of_append hconns
    have hdrift' : setup.NeverReopens (before ++ .event (.serviceStarted conn) :: rest) := by
      intro earlier transport pinned later heq
      exact hdrift earlier transport pinned (later ++ [o]) (by rw [heq]; simp)
    rcases ih hconns' hdrift' with halarm | hexempt
    · rw [after_snoc] at hconns ⊢
      cases o with
      | drift transport pinned => exact Or.inl halarm
      | event event =>
        by_cases hadvance : ∃ milliseconds, event = .advance milliseconds
        · obtain ⟨milliseconds, rfl⟩ := hadvance
          exact (setup.watched_after hconns').check_or_exempt_advance hstays hconns halarm
        · left
          refine (setup.moves_event _ event).mem_alarms (fun milliseconds hcall => ?_) halarm
          exact hadvance ⟨milliseconds, Node.eq_of_cause_eq_call hcall⟩
    · exact Or.inr (setup.isExempt_next hstays hconns hdrift hk' hexempt)

omit hstays in
/-- A check is one of a session, and is made with what the history has left. -/
theorem watched_of_checksAt {past : List (Occurrence τ)}
    (hconns : ((setup.after past).sessions.map (·.conn)).Nodup) {n : Node τ} {k : SessionKey}
    (h : setup.ChecksAt past n k) :
    (∃ c, Node.Moves c (setup.after past) n) ∧ n.Watched ∧ k < n.sessions.length := by
  obtain ⟨milliseconds, made, rest, alarm, hdue⟩ := h
  let ticked := (setup.after past).tick milliseconds
  have hmoves := Node.moves_afterChecks (setup.after past) milliseconds made
  have hlength : (ticked.afterChecks made).sessions.length = (setup.after past).sessions.length :=
    Node.length_sessions_afterChecks ticked made
  have hconns' := hmoves.conns_prefix.eq_of_length (by simpa using hlength.symm)
  have hwatched := setup.watched_after hconns
  have halarm : alarm ∈ ticked.dueAlarms := by simp [ticked, hdue]
  exact ⟨⟨_, hmoves⟩, hmoves.watched (hconns' ▸ hconns) hwatched,
    hlength.symm ▸ hwatched.alarms alarm (Node.mem_dueAlarms.mp halarm).1⟩

/-- Once the deadline that the start of the service set to a session has come, and the checks that
are due were made, the session is trusted for a pair or not open; and every time that goes on makes
all checks that are due. A check closes its session at once just if this is overdue, and does
nothing else. If the session was ever trusted for a pair before, the check does nothing. -/
theorem watchdog_deadline {past : List (Occurrence τ)}
    (hconns : ((setup.after past).sessions.map (·.conn)).Nodup)
    (hdrift : setup.NeverReopens past) :
    (∀ before conn rest k, past = before ++ .event (.serviceStarted conn) :: rest →
      (setup.after before).find? conn = some k →
      (setup.after before).clock + setup.settings.authTimeout.milliseconds ≤
        (setup.after past).clock →
      ⟨(setup.after before).clock + setup.settings.authTimeout.milliseconds, k⟩ ∉
        (setup.after past).dueAlarms →
      (setup.after past).IsExempt k) ∧
    (∀ milliseconds,
      let ticked := (setup.after past).tick milliseconds
      setup.after (past ++ [.event (.advance milliseconds)]) =
          ticked.afterChecks ticked.dueAlarms ∧
        (setup.after (past ++ [.event (.advance milliseconds)])).dueAlarms = []) ∧
    ∀ n k, setup.ChecksAt past n k → Node.Checks n (n.expire k) k ∧
      ∀ before, before <+: past → ∀ p, ((setup.after before).session k).isTrustedFor p →
        n.expire k = n := by
  refine ⟨?_, ?_, ?_⟩
  · rintro before conn rest k rfl hfind htime hmade
    rcases setup.check_or_exempt hstays hfind hconns hdrift with halarm | hexempt
    · exact absurd (Node.mem_dueAlarms.mpr ⟨halarm, htime⟩) hmade
    · exact hexempt
  · intro milliseconds ticked
    rw [after_snoc]
    exact ⟨rfl, Node.dueAlarms_advance _ milliseconds⟩
  · intro n k hcheck
    obtain ⟨⟨c, hmoves⟩, hwatched, hk⟩ := setup.watched_of_checksAt hconns hcheck
    refine ⟨hwatched.checks hk, ?_⟩
    rintro before ⟨rest, rfl⟩ p htrusted
    have hexempt : n.IsExempt k := Or.inl ⟨p, hmoves.isTrustedFor_of_isTrustedFor
      (setup.isTrustedFor_append before rest htrusted)⟩
    exact (hwatched.checks hk).spares hexempt.not_isOverdue

omit hstays in
/-- A peer that says nothing for half a minute is cut off at the deadline, and stays cut off. -/
theorem watchdog_deadline_of_silent_peer :
    let started : List (Occurrence Simulated) :=
      [.event (.accept ⟨1⟩ "peer"), .event (.serviceStarted ⟨1⟩)]
    let past := started ++ [.event (.advance 30000)]
    let ticked := (served.after started).tick 30000
    ((served.after past).IsLive 0 ∧ ((served.after past).session 0).trusted = []) ∧
      (served.after past).IsExempt 0 ∧ served.ChecksAt started (ticked.afterChecks []) 0 ∧
      Node.Checks (ticked.afterChecks []) ((ticked.afterChecks []).expire 0) 0 ∧
      (served.after past).log = [.schedule 30, .stop ⟨1⟩ true] := by
  intro started past ticked
  have hdrift : ∀ past' : List (Occurrence Simulated), past' <+: past →
      served.NeverReopens past' := by
    rintro past' ⟨rest', hprefix⟩ before transport pinned rest rfl
    have hmem : Occurrence.drift transport pinned ∈ past := by rw [← hprefix]; simp
    simp [past, started] at hmem
  have hconns : ((served.after past).sessions.map (·.conn)).Nodup := by
    rw [after_eq_foldl]
    decide +kernel
  have hstarted : ((served.after started).sessions.map (·.conn)).Nodup :=
    served.nodup_conns_of_append hconns
  have hcheck : served.ChecksAt started (ticked.afterChecks []) 0 := by
    refine .intro 30000 [] [] ⟨30000, 0⟩ ?_
    rw [after_eq_foldl]
    decide +kernel
  obtain ⟨hdeadline, -, -⟩ := served.watchdog_deadline Simulated.neverReopens hconns
    (hdrift past (List.prefix_refl past))
  obtain ⟨-, -, hchecks⟩ := served.watchdog_deadline Simulated.neverReopens hstarted
    (hdrift started (List.prefix_append _ _))
  refine ⟨?_, hdeadline [.event (.accept ⟨1⟩ "peer")] ⟨1⟩ [.event (.advance 30000)] 0 rfl ?_ ?_ ?_,
    hcheck, (hchecks _ 0 hcheck).1, ?_⟩
  · rw [Node.IsLive, after_eq_foldl]
    decide +kernel
  · rw [after_eq_foldl]
    decide +kernel
  · rw [after_eq_foldl, after_eq_foldl]
    decide +kernel
  · rw [after_eq_foldl, after_eq_foldl]
    decide +kernel
  · rw [after_eq_foldl]
    decide +kernel

end Setup

end Federation
