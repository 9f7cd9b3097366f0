import Federation.Proofs.Trust.Lifetime
import Federation.Proofs.Trust.Progress
import Federation.Proofs.Trust.TwoServers
import Mathlib.Data.List.Basic

/-!
Dialback as a whole. One server opens a connection to another and presents its key; the other asks
over a relay whether the key is right, is told so, and passes that on. Whatever happened to either
of them before, nothing in this stands in the way: in the end each trusts the pair of the two
domains on its side.
-/

namespace Federation

def Occurrence.heard {τ : Type} (conn : ConnId) (elements : List Element) : List (Occurrence τ) :=
  elements.map fun e => .event (.receive conn e)

def Setup.writtenSince {τ : Type} [Transport τ] (setup : Setup τ) (past now : List (Occurrence τ))
    (conn : ConnId) : List Element :=
  ((setup.after now).writtenOn conn).drop ((setup.after past).writtenOn conn).length

theorem Setup.writtenSince_of_append {τ : Type} [Transport τ] (setup : Setup τ)
    {past now : List (Occurrence τ)} {conn : ConnId} {batch : List Element}
    (h : (setup.after now).writtenOn conn = (setup.after past).writtenOn conn ++ batch) :
    setup.writtenSince past now conn = batch := by
  rw [writtenSince, h, List.drop_left]

/-- Where there are two sessions more, their connections are the only new ones. -/
theorem Setup.nodup_conns_of_two {τ : Type} [Transport τ] (setup : Setup τ)
    {before past : List (Occurrence τ)} (hpast : before <+: past) {c d : ConnId}
    (hlength : (setup.after past).sessions.length = (setup.after before).sessions.length + 2)
    (hc : ((setup.after past).session (setup.after before).sessions.length).conn = c)
    (hd : ((setup.after past).session ((setup.after before).sessions.length + 1)).conn = d)
    (h : ((setup.after before).sessions.map (·.conn) ++ [c, d]).Nodup) :
    ((setup.after past).sessions.map (·.conn)).Nodup := by
  obtain ⟨more, hmore⟩ := setup.map_sessions_prefix Session.conn Session.conn_eq hpast
  have hlong : ((setup.after past).sessions.map (·.conn)).length =
      ((setup.after before).sessions.map (·.conn)).length + 2 := by
    rw [List.length_map, List.length_map, hlength]
  rw [← hmore, List.length_append] at hlong
  obtain ⟨x, y, rfl⟩ := List.length_eq_two.mp (Nat.add_left_cancel hlong)
  have hconn : ∀ k < (setup.after past).sessions.length,
      ((setup.after past).sessions.map (·.conn))[k]? = some ((setup.after past).session k).conn :=
    fun k hk => by simp [Node.session, hk]
  have hx := hconn (setup.after before).sessions.length (by omega)
  have hy := hconn ((setup.after before).sessions.length + 1) (by omega)
  rw [← hmore, hc] at hx
  rw [← hmore, hd] at hy
  simp at hx hy
  rwa [← hmore, hx, hy]

/-- A server that has accepted a connection answers a header with the stream id that it
keeps for it. -/
theorem Setup.answer_of_accepting {τ : Type} [Transport τ] (setup : Setup τ)
    (past : List (Occurrence τ)) (conn : ConnId) (address : String) {p : DomainPair}
    (hp : p.IsCanonical setup.directory.isServed) :
    let accepting := past ++ [.event (.accept conn address)]
    let header : StreamHeader := { sender := some p.peer, recipient := some p.own }
    ((setup.after accepting).streamOpened setup.chain conn header).1 =
      some (Stanza.streamHeader ((setup.after (accepting ++ [.event (.streamOpened conn
        header)])).session (setup.after past).sessions.length).streamId (some p.own) (some p.peer)
          none) := by
  intro accepting header
  have haccepting : setup.after accepting = ((setup.after past).accept conn address).2 := by
    rw [Setup.after_snoc, Setup.next_event]
    rfl
  have hfind : (setup.after accepting).find? conn = some (setup.after past).sessions.length := by
    rw [haccepting]
    exact Node.find?_register_self _ _ _
  have hrole : ((setup.after accepting).session (setup.after past).sessions.length).role =
      .inbound := by
    rw [haccepting]
    exact congrArg Session.role (Node.session_addSession_self (setup.after past) _)
  have hp' : p.IsCanonical (setup.after accepting).directory.isServed := by
    rw [Setup.directory_after]
    exact hp
  obtain ⟨hlt, -⟩ := (setup.wellFormed_after accepting).live _ _ hfind
  obtain ⟨-, hkept⟩ := setup.identity_append accepting [.event (.streamOpened conn header)] hlt
  rw [Session.streamId_eq hkept]
  exact congrArg Prod.fst (Node.streamOpened_of_canonical setup.settings hfind hrole hp')

/-- Two servers, whatever happened to them before, and the two connections between them: one that
the first opens for a pair, and the relay that the second opens. -/
structure Encounter (α β : Type) where
  originating : Setup α
  receiving : Setup β
  originatingPast : List (Occurrence α)
  receivingPast : List (Occurrence β)
  pair : DomainPair
  /-- The connection as the server that opens it knows it. -/
  opened : ConnId
  /-- The same connection as the server that accepts it knows it. -/
  accepted : ConnId
  address : String
  relay : ConnId
  relayAccepted : ConnId
  relayAddress : String
  /-- What the originating server finds when the relay arrives. -/
  transport : α
  pinned : List SessionKey

namespace Encounter

variable {α β : Type} [Transport α] [Transport β] (e : Encounter α β)

def outbound : SessionKey :=
  (e.originating.after e.originatingPast).sessions.length

def inbound : SessionKey :=
  (e.receiving.after e.receivingPast).sessions.length

def opening : List (Occurrence α) :=
  e.originatingPast ++ [.event (.openConnection e.pair none)]

def header : StreamHeader :=
  { sender := some e.pair.own, recipient := some e.pair.peer }

/-- The receiving server accepts it and answers the header. -/
def accepting : List (Occurrence β) :=
  e.receivingPast ++ [.event (.accept e.accepted e.address)]

def greeting : List (Occurrence β) :=
  e.accepting ++ [.event (.streamOpened e.accepted e.header)]

def streamId : String :=
  ((e.receiving.after e.greeting).session e.inbound).streamId

def answer : StreamHeader :=
  { id := some e.streamId, sender := some e.pair.peer, recipient := some e.pair.own }

/-- The originating server is given the id that this announces. -/
def presenting : List (Occurrence α) :=
  e.opening ++ [.event (.streamOpened e.opened e.answer)]

def asking : List (Occurrence β) :=
  e.greeting ++ Occurrence.heard e.accepted
    (e.originating.writtenSince e.originatingPast e.presenting e.opened)

def relayHeader : StreamHeader :=
  { sender := some e.pair.peer, recipient := some e.pair.own }

/-- The relay arrives at the originating server, which answers its header. -/
def relayAccepting : List (Occurrence α) :=
  e.presenting ++ [.drift e.transport e.pinned, .event (.accept e.relayAccepted e.relayAddress)]

def relayGreeting : List (Occurrence α) :=
  e.relayAccepting ++ [.event (.streamOpened e.relayAccepted e.relayHeader)]

def relayStreamId : String :=
  ((e.originating.after e.relayGreeting).session (e.outbound + 1)).streamId

def relayAnswer : StreamHeader :=
  { id := some e.relayStreamId, sender := some e.pair.own, recipient := some e.pair.peer }

def sending : List (Occurrence β) :=
  e.asking ++ [.event (.streamOpened e.relay e.relayAnswer)]

def answering : List (Occurrence α) :=
  e.relayGreeting ++ Occurrence.heard e.relayAccepted
    (e.receiving.writtenSince e.receivingPast e.sending e.relay)

def relaying : List (Occurrence β) :=
  e.sending ++ Occurrence.heard e.relay
    (e.originating.writtenSince e.originatingPast e.answering e.relayAccepted)

def settling : List (Occurrence α) :=
  e.answering ++ Occurrence.heard e.opened
    (e.receiving.writtenSince e.receivingPast e.relaying e.accepted)

/-- Nothing stands in the way of the two servers: each serves its own domain and not the other's,
both have a secret, the receiving one demands no TLS and has no connection of its own to ask over,
and the transports keep up the two connections. No connection gets the number of another one, and
the stream id that the receiving server announces is a new one. -/
structure IsUnhindered (up : α → ConnId → Prop) (up' : β → ConnId → Prop) : Prop where
  keepsUp : Transport.KeepsUp up
  keepsUp' : Transport.KeepsUp up'
  canonical : e.pair.IsCanonical e.originating.directory.isServed
  canonical' : e.pair.reversed.IsCanonical e.receiving.directory.isServed
  secret : ∃ secret, e.originating.directory.secretFor e.pair.own = .ok secret
  secret' : ∃ secret, e.receiving.directory.secretFor e.pair.peer = .ok secret
  lax : e.receiving.directory.requiresTls e.pair.peer = false
  unlinked : (e.receiving.after e.receivingPast).carriers e.pair.reversed = []
  connects : (Transport.connect (e.originating.after e.originatingPast).transport e.pair).1 =
    .ok e.opened
  opens : up (Transport.connect (e.originating.after e.originatingPast).transport e.pair).2 e.opened
  accepts : up' (e.receiving.after e.receivingPast).transport e.accepted
  connects' : (Transport.connect (e.receiving.after e.receivingPast).transport
    e.pair.reversed).1 = .ok e.relay
  opens' : up' (Transport.connect (e.receiving.after e.receivingPast).transport
    e.pair.reversed).2 e.relay
  keeps : up e.transport e.opened
  accepts' : up e.transport e.relayAccepted
  conns : ((e.originating.after e.originatingPast).sessions.map (·.conn) ++
    [e.opened, e.relayAccepted]).Nodup
  conns' : ((e.receiving.after e.receivingPast).sessions.map (·.conn) ++
    [e.accepted, e.relay]).Nodup
  isFresh : e.streamId ∉ (e.receiving.after e.receivingPast).sessions.map (·.streamId)

/-- How the encounter ends. The headers were answered with the stream ids that the other server was
given, each server trusts the pair of the two domains and the connection for it, the relay is being
closed, and all that was written on the two connections was heard. -/
structure Completes : Prop where
  answered : ((e.receiving.after e.accepting).streamOpened e.receiving.chain e.accepted
    e.header).1 = some (Stanza.streamHeader e.streamId (some e.pair.peer) (some e.pair.own) none)
  relayAnswered : ((e.originating.after e.relayAccepting).streamOpened e.originating.chain
    e.relayAccepted e.relayHeader).1 =
      some (Stanza.streamHeader e.relayStreamId (some e.pair.own) (some e.pair.peer) none)
  outbound : ((e.originating.after e.settling).session e.outbound).role = .outbound ∧
    ((e.originating.after e.settling).session e.outbound).conn = e.opened ∧
    (e.originating.after e.settling).IsSettled e.outbound e.pair
  inbound : ((e.receiving.after e.relaying).session e.inbound).role = .inbound ∧
    ((e.receiving.after e.relaying).session e.inbound).conn = e.accepted ∧
    (e.receiving.after e.relaying).IsSettled e.inbound e.pair.reversed
  relay : ((e.receiving.after e.relaying).session (e.inbound + 1)).conn = e.relay ∧
    ((e.receiving.after e.relaying).session (e.inbound + 1)).isRelay ∧
    ((e.receiving.after e.relaying).session (e.inbound + 1)).isClosing
  heard : heardOn e.relaying e.accepted = heardOn e.receivingPast e.accepted ++
      e.originating.writtenSince e.originatingPast e.settling e.opened ∧
    heardOn e.relaying e.relay = heardOn e.receivingPast e.relay ++
      e.originating.writtenSince e.originatingPast e.settling e.relayAccepted
  heard' : heardOn e.settling e.opened = heardOn e.originatingPast e.opened ++
      e.receiving.writtenSince e.receivingPast e.relaying e.accepted ∧
    heardOn e.settling e.relayAccepted = heardOn e.originatingPast e.relayAccepted ++
      e.receiving.writtenSince e.receivingPast e.relaying e.relay

theorem receivingPast_prefix : e.receivingPast <+: e.sending := by
  simp [sending, asking, greeting, accepting]

section Stages

variable {up : α → ConnId → Prop} {up' : β → ConnId → Prop} (h : e.IsUnhindered up up')

include h

theorem opened_ne_relayAccepted : e.opened ≠ e.relayAccepted :=
  List.pairwise_pair.mp (List.nodup_append.mp h.conns).2.1

theorem accepted_ne_relay : e.accepted ≠ e.relay :=
  List.pairwise_pair.mp (List.nodup_append.mp h.conns').2.1

theorem canonical_after (past : List (Occurrence α)) :
    e.pair.IsCanonical (e.originating.after past).directory.isServed := by
  rw [Setup.directory_after]
  exact h.canonical

theorem canonical_after' (past : List (Occurrence β)) :
    e.pair.reversed.IsCanonical (e.receiving.after past).directory.isServed := by
  rw [Setup.directory_after]
  exact h.canonical'

theorem after_opening : e.originating.after e.opening =
    (e.originating.after e.originatingPast).dial e.pair none e.opened := by
  rw [opening, Setup.after_snoc, Setup.next_event]
  exact congrArg Prod.snd (Node.openConnection_of_isOpen none
    (e.originating.wellFormed_after _).entries (e.canonical_after h _) h.connects
      (h.keepsUp.isOpen h.opens))

theorem after_greeting : e.receiving.after e.greeting =
    (e.receiving.after e.receivingPast).welcome e.accepted e.address e.pair.reversed := by
  rw [greeting, accepting, Setup.after_snoc, Setup.next_event, Setup.after_snoc, Setup.next_event]
  exact Node.step_accept_header (p := e.pair.reversed) e.receiving.settings e.accepted e.address
    (e.canonical_after' h _)

/-- The key is the first thing that the originating server says on the connection. -/
theorem awaitsVerdict_of_presenting {secret : String}
    (hsecret : e.originating.directory.secretFor e.pair.own = .ok secret) :
    (e.originating.after e.presenting).AwaitsVerdict up e.outbound e.pair e.opened ∧
      (e.originating.after e.presenting).log = (e.originating.after e.opening).log ++
        [.write e.opened [Stanza.key e.pair.own e.pair.peer
          (Key.derive e.pair.own e.pair.peer secret e.streamId)] true] ∧
      (e.originating.after e.presenting).sessions.length = e.outbound + 1 := by
  have hopening := e.after_opening h
  have hlength : (e.originating.after e.opening).sessions.length = e.outbound + 1 := by
    rw [hopening]
    exact Node.length_sessions_dial _ _ _ _
  have hsecret' : (e.originating.after e.opening).directory.secretFor e.pair.own = .ok secret := by
    rw [Setup.directory_after]
    exact hsecret
  have hfind : (e.originating.after e.opening).find? e.opened = some e.outbound := by
    rw [hopening]
    exact Node.find?_dial_self _ _ _ _
  have hup : up (e.originating.after e.opening).transport e.opened := by
    rw [hopening]
    exact h.opens
  have hk : e.outbound < (e.originating.after e.opening).sessions.length := by
    rw [hlength]
    exact Nat.lt_succ_self _
  have hsession : (e.originating.after e.opening).session e.outbound =
      (Session.opened e.opened e.pair none
        (e.originating.after e.originatingPast).nextIdentifier).join e.pair := by
    rw [hopening, Node.session_dial]
    exact if_pos rfl
  have hid : e.answer.id = some e.streamId := rfl
  obtain ⟨hawaits, hlog, hsame⟩ := Node.awaitsVerdict_of_header h.keepsUp e.originating.settings
    hfind hk hup hid rfl hsecret' hsession
  rw [presenting, Setup.after_snoc, Setup.next_event]
  exact ⟨hawaits, hlog, hsame.trans hlength⟩

theorem writtenOn_presenting {secret : String}
    (hsecret : e.originating.directory.secretFor e.pair.own = .ok secret) (conn : ConnId) :
    (e.originating.after e.presenting).writtenOn conn =
      (e.originating.after e.originatingPast).writtenOn conn ++
        if e.opened = conn then [Stanza.key e.pair.own e.pair.peer
          (Key.derive e.pair.own e.pair.peer secret e.streamId)] else [] := by
  have hopening : (e.originating.after e.opening).writtenOn conn =
      (e.originating.after e.originatingPast).writtenOn conn := by
    rw [e.after_opening h]
    refine Node.writtenOn_of_log_append (Node.log_dial _ _ _ _) fun batch hwrite => ?_
    exact Effect.noConfusion (List.mem_singleton.mp hwrite)
  rw [Node.writtenOn_of_log_write (e.awaitsVerdict_of_presenting h hsecret).2.1, hopening]

/-- So it is what the receiving server hears. -/
theorem asking_eq {secret : String}
    (hsecret : e.originating.directory.secretFor e.pair.own = .ok secret) :
    e.asking = e.greeting ++ [.event (.receive e.accepted (Stanza.key e.pair.own e.pair.peer
      (Key.derive e.pair.own e.pair.peer secret e.streamId)))] := by
  have hwritten := e.writtenOn_presenting h hsecret e.opened
  rw [if_pos rfl] at hwritten
  rw [asking, Setup.writtenSince_of_append _ hwritten]
  rfl

theorem greeting_rests :
    (e.receiving.after e.greeting).Rests up' e.inbound e.accepted := by
  have hsession : (e.receiving.after e.greeting).session e.inbound =
      { Session.accepted e.accepted e.address
          (e.receiving.after e.receivingPast).nextIdentifier with
        pair := some e.pair.reversed, phase := .awaitingKey } := by
    rw [e.after_greeting h, Node.session_welcome]
    exact if_pos rfl
  have hup : up' (e.receiving.after e.greeting).transport e.accepted := by
    rw [e.after_greeting h]
    exact h.accepts
  refine ⟨?_, ?_, ?_, hup⟩
  all_goals rw [hsession]
  exacts [rfl, rfl, rfl]

theorem carriers_greeting : (e.receiving.after e.greeting).carriers e.pair.reversed = [] := by
  rw [← h.unlinked, e.after_greeting h]
  refine Node.carriers_congr rfl (fun j hj => ?_) rfl
  obtain ⟨-, pair, hpair, -⟩ := (e.receiving.bound_after _).outgoing _ j hj
  rw [Node.session_welcome, if_neg (Nat.ne_of_lt (Node.lt_length_of_pair hpair))]
  exact ⟨rfl, rfl, rfl⟩

/-- The receiving server opens a relay, and puts the question on it. -/
theorem verifies_of_asking {secret : String}
    (hsecret : e.originating.directory.secretFor e.pair.own = .ok secret) :
    let n := e.receiving.after e.asking
    let r := e.inbound + 1
    n.Verifies up' e.inbound e.pair.reversed e.streamId e.accepted ∧
      (∃ ident, n.session r = (((Session.opened e.relay e.pair.reversed (some e.pair.own)
        ident).join e.pair.reversed).addVerifyRequest e.pair.own e.streamId).enqueue
          (Stanza.verifyRequest e.pair.peer e.pair.own e.streamId
            (Key.derive e.pair.own e.pair.peer secret e.streamId))) ∧
      n.sessions.length = r + 1 ∧ n.find? e.relay = some r ∧ up' n.transport e.relay ∧
      n.log = (e.receiving.after e.greeting).log ++ [.connect e.pair.reversed (some e.relay)] := by
  have hgreeting := e.after_greeting h
  have hfind : (e.receiving.after e.greeting).find? e.accepted = some e.inbound := by
    rw [hgreeting]
    exact Node.find?_welcome_self _ _ _ _
  have hsession : (e.receiving.after e.greeting).session e.inbound =
      { Session.accepted e.accepted e.address
          (e.receiving.after e.receivingPast).nextIdentifier with
        pair := some e.pair.reversed, phase := .awaitingKey } := by
    rw [hgreeting, Node.session_welcome]
    exact if_pos rfl
  have hlength : (e.receiving.after e.greeting).sessions.length = e.inbound + 1 := by
    rw [hgreeting]
    exact Node.length_sessions_welcome _ _ _ _
  have htransport : (e.receiving.after e.greeting).transport =
      (e.receiving.after e.receivingPast).transport := by
    rw [hgreeting]
    rfl
  have hlax : (e.receiving.after e.greeting).directory.requiresTls e.pair.reversed.own = false := by
    rw [Setup.directory_after]
    exact h.lax
  rw [e.asking_eq h hsecret, Setup.after_snoc, Setup.next_event]
  have hverifies := Node.verifies_of_key h.keepsUp' (e.receiving.wellFormed_after _)
    e.receiving.settings hfind (e.canonical_after' h _) (e.greeting_rests h)
    (by rw [hsession]; rfl) (by rw [hsession])
    hlax (Key.trim_derive e.pair.own e.pair.peer secret e.streamId) (Key.derive_ne_empty _ _ _ _)
    (e.carriers_greeting h)
    (by rw [htransport]; exact h.connects') (by rw [htransport]; exact h.opens')
    (e.accepted_ne_relay h).symm
  rw [hlength] at hverifies
  exact hverifies

theorem after_relayGreeting : e.originating.after e.relayGreeting =
    Node.welcome { e.originating.after e.presenting with
      transport := e.transport, pinned := e.pinned } e.relayAccepted e.relayAddress e.pair := by
  have hsplit : e.relayAccepting = (e.presenting ++ [.drift e.transport e.pinned]) ++
      [.event (.accept e.relayAccepted e.relayAddress)] := by
    simp [relayAccepting]
  rw [relayGreeting, hsplit, Setup.after_snoc, Setup.next_event, Setup.after_snoc, Setup.next_event,
    Setup.after_snoc]
  exact Node.step_accept_header (p := e.pair) e.originating.settings e.relayAccepted
    e.relayAddress (e.canonical_after h _)

/-- The relay arrives, and nothing is said. -/
theorem awaitsVerdict_of_relayGreeting {secret : String}
    (hsecret : e.originating.directory.secretFor e.pair.own = .ok secret) :
    let n := e.originating.after e.relayGreeting
    n.AwaitsVerdict up e.outbound e.pair e.opened ∧ n.Rests up (e.outbound + 1) e.relayAccepted ∧
      n.find? e.relayAccepted = some (e.outbound + 1) ∧ n.sessions.length = e.outbound + 2 ∧
      ∀ conn, n.writtenOn conn = (e.originating.after e.presenting).writtenOn conn := by
  obtain ⟨hawaits, -, hlength⟩ := e.awaitsVerdict_of_presenting h hsecret
  have hgreeting := e.after_relayGreeting h
  have hsession : ∀ j, (e.originating.after e.relayGreeting).session j =
      if j = e.outbound + 1 then
        { Session.accepted e.relayAccepted e.relayAddress
            (e.originating.after e.presenting).nextIdentifier with
          pair := some e.pair, phase := .awaitingKey }
      else (e.originating.after e.presenting).session j := by
    intro j
    rw [hgreeting, Node.session_welcome, ← hlength]
    rfl
  have htransport : (e.originating.after e.relayGreeting).transport = e.transport := by
    rw [hgreeting]
    rfl
  have hnew := hsession (e.outbound + 1)
  rw [if_pos rfl] at hnew
  refine ⟨hawaits.of_eq ?_ (by rw [htransport]; exact h.keeps), ⟨?_, ?_, ?_, ?_⟩, ?_, ?_,
    Node.writtenOn_of_log_eq (by rw [hgreeting]; rfl)⟩
  · rw [hsession, if_neg (Nat.ne_of_lt (Nat.lt_succ_self _))]
  · rw [hnew]
    rfl
  · rw [hnew]
    rfl
  · rw [hnew]
    rfl
  · rw [htransport]
    exact h.accepts'
  · rw [hgreeting, ← hlength]
    exact Node.find?_welcome_self _ _ _ _
  · rw [hgreeting, Node.length_sessions_welcome]
    exact congrArg (· + 1) hlength

/-- The question is the first thing that the receiving server says on the relay. -/
theorem awaitsAnswer_of_sending {secret : String}
    (hsecret : e.originating.directory.secretFor e.pair.own = .ok secret) :
    let n := e.receiving.after e.sending
    n.AwaitsAnswer up' (e.inbound + 1) e.pair.reversed e.streamId e.relay ∧
      n.Verifies up' e.inbound e.pair.reversed e.streamId e.accepted ∧
      n.sessions.length = e.inbound + 2 ∧
      ∀ conn, n.writtenOn conn = (e.receiving.after e.receivingPast).writtenOn conn ++
        if e.relay = conn then [Stanza.verifyRequest e.pair.peer e.pair.own e.streamId
          (Key.derive e.pair.own e.pair.peer secret e.streamId)] else [] := by
  obtain ⟨secret', hsecret'⟩ := h.secret'
  obtain ⟨hverifies, ⟨ident, hsession⟩, hlength, hfind, hup, hlog⟩ := e.verifies_of_asking h hsecret
  have hown :
      (e.receiving.after e.asking).directory.secretFor e.pair.reversed.own = .ok secret' := by
    rw [Setup.directory_after]
    exact hsecret'
  have hid : e.relayAnswer.id = some e.relayStreamId := rfl
  have hr : e.inbound + 1 < (e.receiving.after e.asking).sessions.length := by
    rw [hlength]
    exact Nat.lt_succ_self _
  obtain ⟨hawaits, hwritten, hothers, hsame, hstill⟩ := Node.awaitsAnswer_of_header h.keepsUp'
    e.receiving.settings hfind hr hup hid rfl hown hsession
  have hbefore : ∀ conn, (e.receiving.after e.asking).writtenOn conn =
      (e.receiving.after e.receivingPast).writtenOn conn := by
    intro conn
    rw [Node.writtenOn_of_log_append hlog fun batch hwrite =>
      Effect.noConfusion (List.mem_singleton.mp hwrite), e.after_greeting h]
    exact Node.writtenOn_of_log_eq rfl conn
  rw [sending, Setup.after_snoc, Setup.next_event]
  refine ⟨hawaits, hverifies.of_eq (hothers _ (Nat.ne_of_lt (Nat.lt_succ_self _)))
    (hstill _ hverifies.isUp), hsame.trans hlength, fun conn => ?_⟩
  rw [← hbefore]
  exact Node.writtenOn_of_log_write hwritten conn

/-- So it is what the originating server hears there. -/
theorem answering_eq {secret : String}
    (hsecret : e.originating.directory.secretFor e.pair.own = .ok secret) :
    e.answering = e.relayGreeting ++ [.event (.receive e.relayAccepted
      (Stanza.verifyRequest e.pair.peer e.pair.own e.streamId
        (Key.derive e.pair.own e.pair.peer secret e.streamId)))] := by
  have hwritten := (e.awaitsAnswer_of_sending h hsecret).2.2.2 e.relay
  rw [if_pos rfl] at hwritten
  rw [answering, Setup.writtenSince_of_append _ hwritten]
  rfl

/-- The answer to it is that the key is right. -/
theorem awaitsVerdict_of_answering {secret : String}
    (hsecret : e.originating.directory.secretFor e.pair.own = .ok secret) :
    let n := e.originating.after e.answering
    n.AwaitsVerdict up e.outbound e.pair e.opened ∧ n.Rests up (e.outbound + 1) e.relayAccepted ∧
      n.sessions.length = e.outbound + 2 ∧
      ∀ conn, n.writtenOn conn = (e.originating.after e.presenting).writtenOn conn ++
        if e.relayAccepted = conn then
          [Stanza.verifyReply e.pair.own e.pair.peer e.streamId true] else [] := by
  obtain ⟨hawaits, hrests, hfind, hlength, hwritten⟩ := e.awaitsVerdict_of_relayGreeting h hsecret
  have hown :
      (e.originating.after e.relayGreeting).directory.secretFor e.pair.own = .ok secret := by
    rw [Setup.directory_after]
    exact hsecret
  obtain ⟨hrests', hlog, hothers, hsame, hup⟩ := Node.answers_right_key h.keepsUp
    (e.originating.wellFormed_after _) e.originating.settings hfind (e.canonical_after h _)
    e.streamId hrests hown
  rw [e.answering_eq h hsecret, Setup.after_snoc, Setup.next_event]
  refine ⟨hawaits.of_eq (hothers _ (Nat.ne_of_lt (Nat.lt_succ_self _))) (hup _ hawaits.isUp),
    hrests', hsame.trans hlength, fun conn => ?_⟩
  rw [← hwritten]
  exact Node.writtenOn_of_log_write hlog conn

theorem nodup_conns_answering :
    ((e.originating.after e.answering).sessions.map (·.conn)).Nodup := by
  obtain ⟨secret, hsecret⟩ := h.secret
  obtain ⟨hawaits, hrests, hlength, -⟩ := e.awaitsVerdict_of_answering h hsecret
  have hpast : e.originatingPast <+: e.answering := by
    simp [answering, relayGreeting, relayAccepting, presenting, opening]
  exact e.originating.nodup_conns_of_two hpast hlength hawaits.ofConn hrests.ofConn h.conns

/-- Both connections are there at the originating server when the verdict comes. -/
theorem find?_answering : (e.originating.after e.answering).find? e.opened = some e.outbound ∧
    (e.originating.after e.answering).find? e.relayAccepted = some (e.outbound + 1) := by
  obtain ⟨secret, hsecret⟩ := h.secret
  have hconns := e.nodup_conns_answering h
  obtain ⟨-, -, haccepted, -⟩ := e.awaitsVerdict_of_relayGreeting h hsecret
  have hopened : (e.originating.after e.opening).find? e.opened = some e.outbound := by
    rw [e.after_opening h]
    exact Node.find?_dial_self _ _ _ _
  have hsplit : e.answering = e.opening ++ [.event (.streamOpened e.opened e.answer),
      .drift e.transport e.pinned, .event (.accept e.relayAccepted e.relayAddress),
      .event (.streamOpened e.relayAccepted e.relayHeader), .event (.receive e.relayAccepted
        (Stanza.verifyRequest e.pair.peer e.pair.own e.streamId
          (Key.derive e.pair.own e.pair.peer secret e.streamId)))] := by
    simp [e.answering_eq h hsecret, relayGreeting, relayAccepting, presenting]
  constructor
  · rw [hsplit] at hconns ⊢
    exact e.originating.find?_append hopened (by simp) hconns
  · rw [e.answering_eq h hsecret] at hconns ⊢
    exact e.originating.find?_append haccepted (by simp) hconns

theorem relaying_eq : e.relaying = e.sending ++ [.event (.receive e.relay
    (Stanza.verifyReply e.pair.own e.pair.peer e.streamId true))] := by
  obtain ⟨secret, hsecret⟩ := h.secret
  have hwritten := (e.awaitsVerdict_of_answering h hsecret).2.2.2 e.relayAccepted
  rw [e.writtenOn_presenting h hsecret, if_pos rfl, if_neg (e.opened_ne_relayAccepted h),
    List.append_nil] at hwritten
  rw [relaying, Setup.writtenSince_of_append _ hwritten]
  rfl

theorem nodup_conns_sending : ((e.receiving.after e.sending).sessions.map (·.conn)).Nodup := by
  obtain ⟨secret, hsecret⟩ := h.secret
  obtain ⟨hawaits, hverifies, hlength, -⟩ := e.awaitsAnswer_of_sending h hsecret
  exact e.receiving.nodup_conns_of_two e.receivingPast_prefix hlength hverifies.ofConn
    hawaits.ofConn h.conns'

/-- The stream that is asked about is the only one with its id. -/
theorem eq_inbound_of_sending {j : SessionKey}
    (hj : j < (e.receiving.after e.sending).sessions.length)
    (hrole : ((e.receiving.after e.sending).session j).role = .inbound)
    (hstream : ((e.receiving.after e.sending).session j).streamId = e.streamId) :
    j = e.inbound := by
  obtain ⟨secret, hsecret⟩ := h.secret
  obtain ⟨hawaits, -, hlength, -⟩ := e.awaitsAnswer_of_sending h hsecret
  rw [hlength] at hj
  by_contra hne
  rcases Nat.lt_or_ge j e.inbound with hpast | hnew
  · obtain ⟨rest, hrest⟩ := e.receivingPast_prefix
    obtain ⟨-, hkept⟩ := e.receiving.identity_append e.receivingPast rest hpast
    rw [hrest] at hkept
    have hlt : j < (e.receiving.after e.receivingPast).sessions.length := hpast
    refine h.isFresh (List.mem_map.mpr ⟨_, List.getElem_mem hlt, ?_⟩)
    rw [← hstream, Session.streamId_eq hkept]
    simp [Node.session, hlt]
  · obtain rfl : j = e.inbound + 1 :=
      Nat.le_antisymm (Nat.le_of_lt_succ hj) (Nat.lt_of_le_of_ne hnew (Ne.symm hne))
    exact absurd (hrole.symm.trans hawaits.role) (by decide)

/-- Both connections are there at the receiving server when the answer comes. -/
theorem find?_sending : (e.receiving.after e.sending).find? e.accepted = some e.inbound ∧
    (e.receiving.after e.sending).find? e.relay = some (e.inbound + 1) := by
  obtain ⟨secret, hsecret⟩ := h.secret
  have hconns := e.nodup_conns_sending h
  obtain ⟨-, -, -, hrelay, -⟩ := e.verifies_of_asking h hsecret
  have haccepted : (e.receiving.after e.greeting).find? e.accepted = some e.inbound := by
    rw [e.after_greeting h]
    exact Node.find?_welcome_self _ _ _ _
  have hsplit : e.sending = e.greeting ++ ([.event (.receive e.accepted
      (Stanza.key e.pair.own e.pair.peer (Key.derive e.pair.own e.pair.peer secret e.streamId)))] ++
        [.event (.streamOpened e.relay e.relayAnswer)]) := by
    rw [sending, e.asking_eq h hsecret, List.append_assoc]
  constructor
  · rw [hsplit] at hconns ⊢
    exact e.receiving.find?_append haccepted (by simp) hconns
  · exact e.receiving.find?_append hrelay (by simp) hconns

/-- The receiving server trusts the pair then, says so on the connection, and closes the relay. -/
theorem isSettled_of_relaying :
    let n := e.receiving.after e.relaying
    n.IsSettled e.inbound e.pair.reversed ∧
      ((n.session (e.inbound + 1)).isRelay ∧ (n.session (e.inbound + 1)).isClosing) ∧
      n.writtenOn e.accepted = (e.receiving.after e.receivingPast).writtenOn e.accepted ++
        [Stanza.resultReply e.pair.peer e.pair.own .valid none] ∧
      n.writtenOn e.relay = (e.receiving.after e.sending).writtenOn e.relay := by
  obtain ⟨secret, hsecret⟩ := h.secret
  obtain ⟨hawaits, hverifies, -, hwritten⟩ := e.awaitsAnswer_of_sending h hsecret
  obtain ⟨haccepted, hrelay⟩ := e.find?_sending h
  have hn := e.receiving.wellFormed_after e.sending
  have hconns := e.nodup_conns_sending h
  -- The answer names a stream, and that leads back to the session on which the key was presented.
  have hlive : (e.receiving.after e.sending).IsLive e.inbound := by
    rw [Node.IsLive, hverifies.ofConn]
    exact haccepted
  have htarget := Node.incomingByStream?_of_joined hn (e.receiving.bound_after _)
    (e.receiving.coherent_after hconns) (fun j hj hrole hstream =>
      e.eq_inbound_of_sending h hj hrole (hstream.trans hverifies.streamId)) hlive hverifies.role
        hverifies.joined
  rw [hverifies.streamId] at htarget
  have hsettled := Node.isSettled_of_confirmation h.keepsUp' hn e.receiving.settings hrelay
    (e.canonical_after' h _) hawaits hverifies htarget
    (Node.hasOwnConn_of_nodup hconns (hn.live _ _ haccepted).1)
    (Node.hasOwnConn_of_nodup hconns (hn.live _ _ hrelay).1)
  have hbefore := hwritten e.accepted
  rw [if_neg (e.accepted_ne_relay h).symm, List.append_nil] at hbefore
  rw [← hbefore, e.relaying_eq h, Setup.after_snoc, Setup.next_event]
  exact hsettled

theorem settling_eq : e.settling = e.answering ++ [.event (.receive e.opened
    (Stanza.resultReply e.pair.peer e.pair.own .valid none))] := by
  rw [settling, Setup.writtenSince_of_append _ (e.isSettled_of_relaying h).2.2.1]
  rfl

/-- The originating server trusts it at last, and there is nothing more to be said. -/
theorem isSettled_of_settling :
    let n := e.originating.after e.settling
    n.IsSettled e.outbound e.pair ∧
      n.writtenOn e.opened = (e.originating.after e.answering).writtenOn e.opened ∧
      n.writtenOn e.relayAccepted =
        (e.originating.after e.answering).writtenOn e.relayAccepted := by
  obtain ⟨secret, hsecret⟩ := h.secret
  obtain ⟨hawaits, hrests, -⟩ := e.awaitsVerdict_of_answering h hsecret
  obtain ⟨hopened, haccepted⟩ := e.find?_answering h
  have hn := e.originating.wellFormed_after e.answering
  have hconns := e.nodup_conns_answering h
  obtain ⟨hsettled, hwritten⟩ := Node.isSettled_of_consent h.keepsUp hn e.originating.settings
    hopened (e.canonical_after h _) hawaits
  have hquiet := hwritten e.outbound (Node.hasOwnConn_of_nodup hconns (hn.live _ _ hopened).1)
    hawaits.waiting
  have hquiet' := hwritten (e.outbound + 1)
    (Node.hasOwnConn_of_nodup hconns (hn.live _ _ haccepted).1) hrests.waiting
  rw [hawaits.ofConn] at hquiet
  rw [hrests.ofConn] at hquiet'
  rw [e.settling_eq h, Setup.after_snoc, Setup.next_event]
  exact ⟨hsettled, hquiet, hquiet'⟩

theorem headers_answered : ((e.receiving.after e.accepting).streamOpened e.receiving.chain
      e.accepted e.header).1 =
        some (Stanza.streamHeader e.streamId (some e.pair.peer) (some e.pair.own) none) ∧
    ((e.originating.after e.relayAccepting).streamOpened e.originating.chain
      e.relayAccepted e.relayHeader).1 =
        some (Stanza.streamHeader e.relayStreamId (some e.pair.own) (some e.pair.peer) none) := by
  obtain ⟨secret, hsecret⟩ := h.secret
  obtain ⟨-, -, hlength⟩ := e.awaitsVerdict_of_presenting h hsecret
  refine ⟨e.receiving.answer_of_accepting e.receivingPast e.accepted e.address
    (p := e.pair.reversed) h.canonical', ?_⟩
  have hrelay := e.originating.answer_of_accepting
    (e.presenting ++ [.drift e.transport e.pinned]) e.relayAccepted e.relayAddress h.canonical
  have hdrifted : (e.originating.after (e.presenting ++
      [.drift e.transport e.pinned])).sessions.length = e.outbound + 1 := by
    rw [Setup.after_snoc]
    exact hlength
  rw [hdrifted, List.append_assoc] at hrelay
  exact hrelay

/-- What is heard on a connection is what was written on it. -/
theorem heard_relaying : heardOn e.relaying e.accepted = heardOn e.receivingPast e.accepted ++
      e.originating.writtenSince e.originatingPast e.settling e.opened ∧
    heardOn e.relaying e.relay = heardOn e.receivingPast e.relay ++
      e.originating.writtenSince e.originatingPast e.settling e.relayAccepted := by
  obtain ⟨secret, hsecret⟩ := h.secret
  obtain ⟨-, hopened, hrelayed⟩ := e.isSettled_of_settling h
  obtain ⟨-, -, -, hanswer⟩ := e.awaitsVerdict_of_answering h hsecret
  have hne := e.opened_ne_relayAccepted h
  have hkey : (e.originating.after e.settling).writtenOn e.opened =
      (e.originating.after e.originatingPast).writtenOn e.opened ++
        [Stanza.key e.pair.own e.pair.peer
          (Key.derive e.pair.own e.pair.peer secret e.streamId)] := by
    rw [hopened, hanswer, if_neg hne.symm, List.append_nil, e.writtenOn_presenting h hsecret,
      if_pos rfl]
  have hreply : (e.originating.after e.settling).writtenOn e.relayAccepted =
      (e.originating.after e.originatingPast).writtenOn e.relayAccepted ++
        [Stanza.verifyReply e.pair.own e.pair.peer e.streamId true] := by
    rw [hrelayed, hanswer, if_pos rfl, e.writtenOn_presenting h hsecret, if_neg hne,
      List.append_nil]
  rw [Setup.writtenSince_of_append _ hkey, Setup.writtenSince_of_append _ hreply, e.relaying_eq h,
    sending, e.asking_eq h hsecret, greeting, accepting]
  have hne' := e.accepted_ne_relay h
  simp [heardOn, hne', hne'.symm]

theorem heard_settling : heardOn e.settling e.opened = heardOn e.originatingPast e.opened ++
      e.receiving.writtenSince e.receivingPast e.relaying e.accepted ∧
    heardOn e.settling e.relayAccepted = heardOn e.originatingPast e.relayAccepted ++
      e.receiving.writtenSince e.receivingPast e.relaying e.relay := by
  obtain ⟨secret, hsecret⟩ := h.secret
  obtain ⟨-, -, hverdict, hrelay⟩ := e.isSettled_of_relaying h
  obtain ⟨-, -, -, hasked⟩ := e.awaitsAnswer_of_sending h hsecret
  have hquestion : (e.receiving.after e.relaying).writtenOn e.relay =
      (e.receiving.after e.receivingPast).writtenOn e.relay ++ [Stanza.verifyRequest e.pair.peer
        e.pair.own e.streamId (Key.derive e.pair.own e.pair.peer secret e.streamId)] := by
    rw [hrelay, hasked, if_pos rfl]
  rw [Setup.writtenSince_of_append _ hverdict, Setup.writtenSince_of_append _ hquestion,
    e.settling_eq h, e.answering_eq h hsecret, relayGreeting, relayAccepting, presenting, opening]
  have hne := e.opened_ne_relayAccepted h
  simp [heardOn, hne, hne.symm]

end Stages

/-- Dialback is complete: where nothing stands in the way, it ends with both servers
trusting the pair. -/
theorem completes {up : α → ConnId → Prop} {up' : β → ConnId → Prop}
    (h : e.IsUnhindered up up') : e.Completes := by
  obtain ⟨secret, hsecret⟩ := h.secret
  obtain ⟨hanswered, hrelayAnswered⟩ := e.headers_answered h
  obtain ⟨hsettled, -⟩ := e.isSettled_of_settling h
  obtain ⟨hsettled', ⟨hrelay, hclosing⟩, -⟩ := e.isSettled_of_relaying h
  obtain ⟨hawaits, -⟩ := e.awaitsVerdict_of_answering h hsecret
  obtain ⟨hawaits', hverifies, -⟩ := e.awaitsAnswer_of_sending h hsecret
  obtain ⟨hopened, -⟩ := e.find?_answering h
  obtain ⟨haccepted, hasked⟩ := e.find?_sending h
  -- The sessions that have settled are the ones that were there before the last verdicts.
  obtain ⟨-, hkept⟩ := e.originating.identity_append e.answering
    (Occurrence.heard e.opened (e.receiving.writtenSince e.receivingPast e.relaying e.accepted))
    ((e.originating.wellFormed_after e.answering).live _ _ hopened).1
  have hkept' : ∀ {conn k}, (e.receiving.after e.sending).find? conn = some k →
      ((e.receiving.after e.relaying).session k).identity =
        ((e.receiving.after e.sending).session k).identity := fun hfind =>
    (e.receiving.identity_append e.sending _
      ((e.receiving.wellFormed_after e.sending).live _ _ hfind).1).2
  exact {
    answered := hanswered
    relayAnswered := hrelayAnswered
    outbound := ⟨(Session.role_eq hkept).trans hawaits.role,
      (Session.conn_eq hkept).trans hawaits.ofConn, hsettled⟩
    inbound := ⟨(Session.role_eq (hkept' haccepted)).trans hverifies.role,
      (Session.conn_eq (hkept' haccepted)).trans hverifies.ofConn, hsettled'⟩
    relay := ⟨(Session.conn_eq (hkept' hasked)).trans hawaits'.ofConn, hrelay, hclosing⟩
    heard := e.heard_relaying h
    heard' := e.heard_settling h }

open Setup SideBySide

def firstContact : Encounter Simulated Simulated where
  originating := authority
  receiving := served
  originatingPast := []
  receivingPast := []
  pair := ⟨"a.example", "b.example"⟩
  opened := ⟨1000⟩
  accepted := ⟨2⟩
  address := "192.0.2.1"
  relay := ⟨1000⟩
  relayAccepted := ⟨1⟩
  relayAddress := "192.0.2.2"
  transport := { next := 1001 }
  pinned := []

theorem firstContact_isUnhindered :
    firstContact.IsUnhindered (fun t conn => t.isOpen conn = true)
      (fun t conn => t.isOpen conn = true) where
  keepsUp := Simulated.keepsUp
  keepsUp' := Simulated.keepsUp
  canonical := by
    rw [DomainPair.IsCanonical]
    decide +kernel
  canonical' := by
    rw [DomainPair.IsCanonical]
    decide +kernel
  secret := ⟨"secret", by decide +kernel⟩
  secret' := ⟨"secret", by decide +kernel⟩
  lax := by decide +kernel
  unlinked := by decide +kernel
  connects := by decide +kernel
  opens := by decide +kernel
  accepts := by decide +kernel
  connects' := by decide +kernel
  opens' := by decide +kernel
  keeps := by decide +kernel
  accepts' := by decide +kernel
  conns := by decide +kernel
  conns' := by decide +kernel
  isFresh := List.not_mem_nil

theorem completes_of_firstContact :
    (authority.after firstContact.settling).IsSettled 0 ⟨"a.example", "b.example"⟩ ∧
      (served.after firstContact.relaying).IsSettled 0 ⟨"b.example", "a.example"⟩ := by
  have hcompletes := firstContact.completes firstContact_isUnhindered
  exact ⟨hcompletes.outbound.2.2, hcompletes.inbound.2.2⟩

end Encounter

end Federation
