import Federation.Proofs.Dialback.Key
import Federation.Proofs.Node.History
import Federation.Transport.Channel
import Federation.Transport.Simulated
import Mathlib.Data.List.Forall2

/-!
Nodes that are the same but for their secrets. Two stanzas are alike if they are the same, or
present keys, or answer whether a key is right; two sessions are alike if they are the same but for
the stanzas that wait on them, which are alike one by one. A transport is blind if it treats stanzas
alike that are.

The smallest steps on two nodes that are alike make nodes that are alike.
-/

namespace Federation

/-- Two stanzas that differ in a key or in what is answered about one, if at all. -/
inductive Stanza.Alike : Element → Element → Prop
  | refl (e : Element) : Alike e e
  | key (own peer : String) {key key' : String} (h : Key.IsDigest key) (h' : Key.IsDigest key') :
      Alike (Stanza.key own peer key) (Stanza.key own peer key')
  | answer (own peer id : String) (isRight isRight' : Bool) :
      Alike (verifyReply own peer id isRight) (verifyReply own peer id isRight')

theorem Stanza.alike_refl (batch : List Element) : List.Forall₂ Alike batch batch :=
  List.forall₂_same.mpr fun e _ => Alike.refl e

/-- Two sessions that are the same, but for stanzas alike that wait. -/
structure Session.Alike (s s' : Session) : Prop where
  rest : s' = { s with waiting := s'.waiting }
  waiting : List.Forall₂ Stanza.Alike s.waiting s'.waiting

namespace Session.Alike

theorem refl (s : Session) : Session.Alike s s :=
  ⟨rfl, Stanza.alike_refl s.waiting⟩

variable {s s' : Session} (h : Session.Alike s s')

include h

theorem view {α : Type} (view : Session → α)
    (hview : ∀ (s : Session) (waiting : List Element),
      view { s with waiting := waiting } = view s) :
    view s' = view s := by
  rw [h.rest, hview]

/-- A change that has nothing to do with the queue. -/
theorem map {f : Session → Session} (hf : ∀ (s : Session) (waiting : List Element),
    f { s with waiting := waiting } = { f s with waiting := waiting }) :
    Session.Alike (f s) (f s') := by
  have hkeep : ∀ s : Session, (f s).waiting = s.waiting := fun s =>
    (congrArg Session.waiting (hf s s.waiting) : (f s).waiting = _)
  refine ⟨?_, by rw [hkeep, hkeep]; exact h.waiting⟩
  rw [hkeep, ← hf, ← h.rest]

theorem enqueue {e e' : Element} (he : Stanza.Alike e e') :
    Session.Alike (s.enqueue e) (s'.enqueue e') := by
  refine ⟨?_, List.rel_append h.waiting (.cons he .nil)⟩
  rw [h.rest]
  rfl

theorem clearQueue : Session.Alike s.clearQueue s'.clearQueue := by
  refine ⟨?_, .nil⟩
  rw [h.rest]
  rfl

end Session.Alike

/-- Two effects that differ in what is written at most. -/
inductive Effect.Alike : Effect → Effect → Prop
  | write (conn : ConnId) {batch batch' : List Element} (accepted : Bool)
      (h : List.Forall₂ Stanza.Alike batch batch') :
      Alike (.write conn batch accepted) (.write conn batch' accepted)
  | refl (effect : Effect) : Alike effect effect

/-- Two directories that differ in the values of secrets at most. -/
structure Directory.Alike (d d' : Directory) : Prop where
  isServed : ∀ domain, d'.isServed domain = d.isServed domain
  requiresTls : ∀ domain, d'.requiresTls domain = d.requiresTls domain
  hasSecret : ∀ domain, (d'.secret? domain).isSome = (d.secret? domain).isSome

namespace Directory.Alike

variable {d d' : Directory} (h : d.Alike d')

include h

theorem isServed_eq : d'.isServed = d.isServed :=
  funext h.isServed

theorem requiresTls_eq : d'.requiresTls = d.requiresTls :=
  funext h.requiresTls

/-- A domain has a secret in both directories or the same fault in both. -/
theorem secretFor_cases (domain : String) :
    (∃ e, d.secretFor domain = .error e ∧ d'.secretFor domain = .error e) ∨
      ∃ secret secret', d.secretFor domain = .ok secret ∧ d'.secretFor domain = .ok secret' := by
  have hsecret := h.hasSecret domain
  unfold secretFor
  cases hd : d.secret? domain with
  | none =>
    have hnone : d'.secret? domain = none := by simpa [hd] using hsecret
    exact Or.inl ⟨_, rfl, by rw [hnone]⟩
  | some secret =>
    obtain ⟨secret', hd'⟩ := Option.isSome_iff_exists.mp (by simpa [hd] using hsecret)
    exact Or.inr ⟨secret, secret', rfl, by rw [hd']⟩

end Directory.Alike

/-- Transports that behave alike whatever secrets are behind what is written. -/
structure Transport.Blind {τ : Type} [Transport τ] (R : τ → τ → Prop) : Prop where
  write : ∀ {t t'}, R t t' → ∀ conn {batch batch'}, List.Forall₂ Stanza.Alike batch batch' →
    (Transport.write t' conn batch').1 = (Transport.write t conn batch).1 ∧
      R (Transport.write t conn batch).2 (Transport.write t' conn batch').2
  connect : ∀ {t t'}, R t t' → ∀ pair,
    (Transport.connect t' pair).1 = (Transport.connect t pair).1 ∧
      R (Transport.connect t pair).2 (Transport.connect t' pair).2
  stop : ∀ {t t'}, R t t' → ∀ conn force,
    R (Transport.stop t conn force) (Transport.stop t' conn force)
  isOpen : ∀ {t t'}, R t t' → ∀ conn, Transport.isOpen t' conn = Transport.isOpen t conn

/-- The simulated transport forgets what is written. -/
theorem Simulated.blind : Transport.Blind fun t t' : Simulated => t = t' where
  write := by
    rintro t _ rfl conn batch batch' -
    show (t.write conn batch').1 = (t.write conn batch).1 ∧
      (t.write conn batch).2 = (t.write conn batch').2
    unfold Simulated.write
    split <;> exact ⟨rfl, rfl⟩
  connect := by
    rintro t _ rfl pair
    exact ⟨rfl, rfl⟩
  stop := by
    rintro t _ rfl conn force
    rfl
  isOpen := by
    rintro t _ rfl conn
    rfl

/-- Two commands that differ in what is written at most. -/
inductive TransportCommand.Alike : TransportCommand → TransportCommand → Prop
  | write (conn : ConnId) {batch batch' : List Element}
      (h : List.Forall₂ Stanza.Alike batch batch') : Alike (.write conn batch) (.write conn batch')
  | refl (command : TransportCommand) : Alike command command

/-- Two channels that differ in their commands at most, which are alike one by one. -/
structure Channel.Alike (t t' : Channel) : Prop where
  rest : t' = { t with commands := t'.commands }
  commands : List.Forall₂ TransportCommand.Alike t.commands t'.commands

namespace Channel.Alike

variable {t t' : Channel} (h : Channel.Alike t t')

include h

theorem isReceiving_eq : t'.isReceiving = t.isReceiving := by
  rw [h.rest]

theorem isOpen_eq (conn : ConnId) : t'.isOpen conn = t.isOpen conn := by
  rw [h.rest]
  rfl

theorem nextConn_eq : t'.nextConn = t.nextConn := by
  rw [h.rest]
  rfl

theorem emit {command command' : TransportCommand} (hcommand : command.Alike command') :
    Channel.Alike (t.emit command) (t'.emit command') := by
  unfold Channel.emit
  rw [h.isReceiving_eq]
  split
  · refine ⟨?_, List.rel_append h.commands (.cons hcommand .nil)⟩
    rw [h.rest]
  · exact h

/-- A change that has nothing to do with the commands. -/
theorem map {f : Channel → Channel} (hf : ∀ (t : Channel) (commands : List TransportCommand),
    f { t with commands := commands } = { f t with commands := commands }) :
    Channel.Alike (f t) (f t') := by
  have hkeep : ∀ t : Channel, (f t).commands = t.commands := fun t =>
    (congrArg Channel.commands (hf t t.commands) : (f t).commands = _)
  refine ⟨?_, by rw [hkeep, hkeep]; exact h.commands⟩
  rw [hkeep, ← hf, ← h.rest]

theorem write (conn : ConnId) {batch batch' : List Element}
    (hbatch : List.Forall₂ Stanza.Alike batch batch') :
    (t'.write conn batch').1 = (t.write conn batch).1 ∧
      Channel.Alike (t.write conn batch).2 (t'.write conn batch').2 := by
  unfold Channel.write
  rw [h.isOpen_eq, h.isReceiving_eq]
  split
  · exact ⟨rfl, h.emit (.write conn hbatch)⟩
  · exact ⟨rfl, h⟩

theorem connect (pair : DomainPair) :
    (t'.connect pair).1 = (t.connect pair).1 ∧
      Channel.Alike (t.connect pair).2 (t'.connect pair).2 := by
  have hreceiving := h.isReceiving_eq
  by_cases hopen : t.isReceiving
  · rw [Channel.connect, if_pos (hreceiving.trans hopen), Channel.connect, if_pos hopen,
      h.nextConn_eq]
    exact ⟨rfl, (h.map (f := allocate) fun _ _ => rfl).emit (.refl _)⟩
  · rw [Channel.connect, if_neg (by rwa [hreceiving]), Channel.connect, if_neg hopen]
    exact ⟨rfl, h.map (f := fun t => { t with allocated := t.allocated + 1 }) fun _ _ => rfl⟩

theorem close (conn : ConnId) (force : Bool) :
    Channel.Alike (t.close conn force) (t'.close conn force) := by
  unfold Channel.close
  rw [h.isOpen_eq]
  split
  · exact (h.map (f := fun t => { t with opened := t.opened.filter (· != conn) })
      fun _ _ => rfl).emit (.refl _)
  · exact h

end Channel.Alike

/-- A channel keeps what is written and does not look into it. -/
theorem Channel.blind : Transport.Blind Channel.Alike where
  write := fun h conn _ _ hbatch => h.write conn hbatch
  connect := fun h pair => h.connect pair
  stop := fun h conn force => h.close conn force
  isOpen := fun h conn => h.isOpen_eq conn

/-- Two nodes that are the same, but for their secrets and what these are behind. -/
structure Node.Alike {τ : Type} (R : τ → τ → Prop) (n n' : Node τ) : Prop where
  settings : n'.settings = n.settings
  directory : n.directory.Alike n'.directory
  transport : R n.transport n'.transport
  identify : n'.identify = n.identify
  issued : n'.issued = n.issued
  clock : n'.clock = n.clock
  alarms : n'.alarms = n.alarms
  registry : n'.registry = n.registry
  sessions : List.Forall₂ Session.Alike n.sessions n'.sessions
  live : n'.live = n.live
  pinned : n'.pinned = n.pinned
  log : List.Forall₂ Effect.Alike n.log n'.log

inductive Node.AlikeResult {τ α : Type} (R : τ → τ → Prop) : α × Node τ → α × Node τ → Prop
  | intro (outcome : α) {n n' : Node τ} (h : n.Alike R n') :
      AlikeResult R (outcome, n) (outcome, n')

namespace Node

theorem AlikeResult.node {τ α : Type} {R : τ → τ → Prop} {r r' : α × Node τ}
    (h : AlikeResult R r r') : r.2.Alike R r'.2 := by
  cases h with
  | intro outcome h => exact h

theorem AlikeResult.exists_eq {τ α : Type} {R : τ → τ → Prop} {r r' : α × Node τ}
    (h : AlikeResult R r r') :
    ∃ outcome n n', r = (outcome, n) ∧ r' = (outcome, n') ∧ n.Alike R n' := by
  cases h with
  | intro outcome h => exact ⟨outcome, _, _, rfl, rfl, h⟩

namespace Alike

variable {τ : Type} {R : τ → τ → Prop} {n n' : Node τ} (h : n.Alike R n')

include h

theorem session (k : SessionKey) : Session.Alike (n.session k) (n'.session k) := by
  have hget : ∀ {l l' : List Session}, List.Forall₂ Session.Alike l l' → ∀ k,
      Session.Alike (l.getD k default) (l'.getD k default) := by
    intro l l' hl
    induction hl with
    | nil => exact fun _ => .refl _
    | cons hs _ ih =>
      intro k
      cases k with
      | zero => exact hs
      | succ k => exact ih k
  exact hget h.sessions k

theorem view {α : Type} (view : Session → α)
    (hview : ∀ (s : Session) (waiting : List Element), view { s with waiting := waiting } = view s)
    (k : SessionKey) : view (n'.session k) = view (n.session k) :=
  (h.session k).view view hview

theorem length_sessions : n'.sessions.length = n.sessions.length :=
  h.sessions.length_eq.symm

theorem find? (conn : ConnId) : n'.find? conn = n.find? conn := by
  rw [Node.find?, h.live, Node.find?]

theorem isReferenced (k : SessionKey) : n'.isReferenced k = n.isReferenced k := by
  rw [Node.isReferenced, h.live, h.pinned, h.registry, Node.isReferenced]

theorem skipsTls (peer : String) : n'.skipsTls peer = n.skipsTls peer := by
  rw [Node.skipsTls, h.settings, Node.skipsTls]

theorem nextIdentifier : n'.nextIdentifier = n.nextIdentifier := by
  rw [Node.nextIdentifier, h.identify, h.issued, Node.nextIdentifier]

theorem modify (k : SessionKey) {f f' : Session → Session}
    (hf : ∀ {s s'}, Session.Alike s s' → Session.Alike (f s) (f' s')) :
    (n.alter k f).Alike R (n'.alter k f') where
  __ := h
  sessions := by
    have hmodify : ∀ {l l' : List Session}, List.Forall₂ Session.Alike l l' → ∀ k,
        List.Forall₂ Session.Alike (l.modify k f) (l'.modify k f') := by
      intro l l' hl
      induction hl with
      | nil =>
        intro k
        cases k <;> exact .nil
      | cons hs hrest ih =>
        intro k
        cases k with
        | zero => exact .cons (hf hs) hrest
        | succ k => exact .cons hs (ih k)
    exact hmodify h.sessions k

/-- A change of a session that has nothing to do with its queue. -/
theorem alter (k : SessionKey) {f : Session → Session}
    (hf : ∀ (s : Session) (waiting : List Element),
      f { s with waiting := waiting } = { f s with waiting := waiting }) :
    (n.alter k f).Alike R (n'.alter k f) :=
  h.modify k fun hs => hs.map hf

theorem setPhase (k : SessionKey) (phase : Phase) :
    (n.alter k (·.setPhase phase)).Alike R (n'.alter k (·.setPhase phase)) := by
  refine h.alter k fun s waiting => ?_
  by_cases hfinal : s.phase.isFinal <;> simp [Session.setPhase, hfinal]

theorem record {effect effect' : Effect} (heffect : effect.Alike effect') :
    (n.record effect).Alike R (n'.record effect') where
  __ := h
  log := List.rel_append h.log (.cons heffect .nil)

theorem withRegistry (r : Registry) :
    ({ n with registry := r } : Node τ).Alike R { n' with registry := r } where
  __ := h
  registry := rfl

theorem addSession (s : Session) : (n.addSession s).Alike R (n'.addSession s) where
  __ := h
  issued := congrArg (· + 1) h.issued
  sessions := List.rel_append h.sessions (.cons (.refl s) .nil)

theorem register (conn : ConnId) (k : SessionKey) :
    (n.register conn k).Alike R (n'.register conn k) where
  __ := h
  live := by rw [Node.register, h.live, Node.register]

theorem unregister (conn : ConnId) : (n.unregister conn).Alike R (n'.unregister conn) where
  __ := h
  live := by rw [Node.unregister, h.live, Node.unregister]

theorem entry (pair : DomainPair) : AlikeResult R (n.entry pair) (n'.entry pair) := by
  unfold Node.entry
  rw [h.registry, h.directory.isServed_eq]
  split
  · exact .intro _ h
  · exact .intro _ (h.withRegistry _)

theorem discard (k : SessionKey) : (n.discard k).2.Alike R (n'.discard k).2 :=
  h.modify k Session.Alike.clearQueue

variable [Transport τ] (hblind : Transport.Blind R)

include hblind

theorem write (conn : ConnId) {batch batch' : List Element}
    (hbatch : List.Forall₂ Stanza.Alike batch batch') :
    AlikeResult R (n.write conn batch) (n'.write conn batch') := by
  obtain ⟨houtcome, htransport⟩ := hblind.write h.transport conn hbatch
  unfold Node.write
  revert houtcome htransport
  rcases Transport.write n.transport conn batch with ⟨outcome, t⟩
  rcases Transport.write n'.transport conn batch' with ⟨outcome', t'⟩
  rintro (rfl : outcome' = outcome) htransport
  have hnext : ({ n with transport := t } : Node τ).Alike R { n' with transport := t' } :=
    { h with transport := htransport }
  exact .intro _ (hnext.record (.write conn _ hbatch))

theorem connect (pair : DomainPair) : AlikeResult R (n.connect pair) (n'.connect pair) := by
  obtain ⟨houtcome, htransport⟩ := hblind.connect h.transport pair
  unfold Node.connect
  revert houtcome htransport
  rcases Transport.connect n.transport pair with ⟨outcome, t⟩
  rcases Transport.connect n'.transport pair with ⟨outcome', t'⟩
  rintro (rfl : outcome' = outcome) htransport
  have hnext : ({ n with transport := t } : Node τ).Alike R { n' with transport := t' } :=
    { h with transport := htransport }
  exact .intro _ (hnext.record (.refl _))

theorem halt (conn : ConnId) (force : Bool) : (n.halt conn force).Alike R (n'.halt conn force) := by
  have hnext : ({ n with transport := Transport.stop n.transport conn force } : Node τ).Alike R
      { n' with transport := Transport.stop n'.transport conn force } :=
    { h with transport := hblind.stop h.transport conn force }
  exact hnext.record (.refl _)

theorem isOpen (k : SessionKey) : n'.isOpen k = n.isOpen k := by
  rw [Node.isOpen, h.view Session.isClosing fun _ _ => rfl, h.view Session.conn fun _ _ => rfl,
    hblind.isOpen h.transport, Node.isOpen]

theorem stop (k : SessionKey) (force : Bool) : (n.stop k force).Alike R (n'.stop k force) := by
  unfold Node.stop
  rw [h.view Session.isClosing fun _ _ => rfl, h.view Session.conn fun _ _ => rfl]
  split
  · exact h
  · exact (h.alter k (f := Session.beginClose) fun _ _ => rfl).halt hblind _ force

theorem sendNow (k : SessionKey) {e e' : Element} (he : Stanza.Alike e e') :
    AlikeResult R (n.sendNow k e) (n'.sendNow k e') := by
  rw [Node.sendNow, Node.sendNow, h.view Session.conn fun _ _ => rfl]
  exact h.write hblind _ (.cons he .nil)

theorem flush (k : SessionKey) : AlikeResult R (n.flush k) (n'.flush k) := by
  have hwaiting := (h.session k).waiting
  have hlength := hwaiting.length_eq
  have hempty : (n'.session k).waiting.isEmpty = (n.session k).waiting.isEmpty := by
    generalize (n.session k).waiting = batch at hwaiting
    generalize (n'.session k).waiting = batch' at hwaiting
    cases hwaiting <;> rfl
  unfold Node.flush
  simp only [hempty, h.view Session.conn fun _ _ => rfl, ← hlength]
  split
  · exact .intro _ h
  · have hcleared := h.modify k Session.Alike.clearQueue
    obtain ⟨outcome, m, m', hr, hr', hm⟩ :=
      (hcleared.write hblind (n.session k).conn hwaiting).exists_eq
    simp only [hr, hr']
    exact .intro _ hm

theorem failStream (k : SessionKey) (condition : String) (force : Bool) :
    (n.failStream k condition force).Alike R (n'.failStream k condition force) :=
  (h.sendNow hblind k (.refl _)).node.stop hblind k force

end Alike

end Node

end Federation
