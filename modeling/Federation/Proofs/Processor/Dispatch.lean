import Federation.Processor.Probe
import Federation.Proofs.Node.Greeting
import Federation.Proofs.Trust.Authority

/-!
How a node asks its processors. They are put in order once, and those of the same order keep their
places. From then on each event of a session goes through the chain from its front: an element up to
the first processor that consumes it, the start of the service through all of them.

Which processors are called is not part of a node. So they are watched: a watched processor does the
same and keeps, beside the state of the transport, a list of the calls.
-/

namespace Federation

theorem ProcessorOrder.rank_injective : Function.Injective rank := by
  intro a b h
  cases a <;> cases b <;> first | rfl | cases h

namespace Chain

variable {τ : Type} {ps qs : List (Processor τ)}

/-- Among the processors of any one order the two lists agree, so they differ only in how those of
different orders are interleaved. -/
def SameByOrder (ps qs : List (Processor τ)) : Prop :=
  ∀ order, ps.filter (·.order = order) = qs.filter (·.order = order)

def IsOrdered (ps : List (Processor τ)) : Prop :=
  ps.Pairwise fun p q => p.order.rank ≤ q.order.rank

theorem SameByOrder.mem_of_mem (h : SameByOrder ps qs) {p : Processor τ} (hp : p ∈ ps) :
    p ∈ qs := by
  have hfiltered : p ∈ ps.filter (·.order = p.order) := List.mem_filter.mpr ⟨hp, by simp⟩
  rw [h p.order] at hfiltered
  exact (List.mem_filter.mp hfiltered).1

theorem SameByOrder.symm (h : SameByOrder ps qs) : SameByOrder qs ps :=
  fun order => (h order).symm

theorem SameByOrder.trans {rs : List (Processor τ)} (h : SameByOrder ps qs)
    (h' : SameByOrder qs rs) : SameByOrder ps rs :=
  fun order => (h order).trans (h' order)

theorem SameByOrder.tail {p : Processor τ} (h : SameByOrder (p :: ps) (p :: qs)) :
    SameByOrder ps qs := by
  intro order
  have hfilter := h order
  by_cases horder : p.order = order <;> simpa [List.filter_cons, horder] using hfilter

theorem IsOrdered.rank_le_of_mem {p q : Processor τ} (h : IsOrdered (p :: ps)) (hq : q ∈ p :: ps) :
    p.order.rank ≤ q.order.rank := by
  rcases List.mem_cons.mp hq with rfl | hq
  · exact le_rfl
  · exact List.rel_of_pairwise_cons h hq

/-- In two lists that are in order the first processors have the same order, so they are the same
one, and the induction is on what follows them. -/
theorem IsOrdered.eq_of_sameByOrder (hps : IsOrdered ps) (hqs : IsOrdered qs)
    (h : SameByOrder ps qs) : ps = qs := by
  induction ps generalizing qs with
  | nil =>
    refine (List.eq_nil_iff_forall_not_mem.mpr fun q hq => ?_).symm
    cases h.symm.mem_of_mem hq
  | cons p ps ih =>
    cases qs with
    | nil => cases h.mem_of_mem List.mem_cons_self
    | cons q qs =>
      have hle : p.order.rank ≤ q.order.rank :=
        hps.rank_le_of_mem (h.symm.mem_of_mem List.mem_cons_self)
      have hge : q.order.rank ≤ p.order.rank :=
        hqs.rank_le_of_mem (h.mem_of_mem List.mem_cons_self)
      have horder : q.order = p.order := ProcessorOrder.rank_injective (Nat.le_antisymm hge hle)
      obtain rfl : p = q := by
        have hfilter := h p.order
        simp only [List.filter_cons, horder, decide_true, if_true] at hfilter
        exact (List.cons_eq_cons.mp hfilter).1
      rw [ih hps.of_cons hqs.of_cons h.tail]

theorem ofProcessors_perm (ps : List (Processor τ)) : (ofProcessors ps).Perm ps :=
  List.mergeSort_perm _ _

theorem le_rank_trans (p q r : Processor τ) (hpq : decide (p.order.rank ≤ q.order.rank) = true)
    (hqr : decide (q.order.rank ≤ r.order.rank) = true) :
    decide (p.order.rank ≤ r.order.rank) = true := by
  simp only [decide_eq_true_eq] at hpq hqr ⊢
  exact hpq.trans hqr

theorem le_rank_total (p q : Processor τ) :
    (decide (p.order.rank ≤ q.order.rank) || decide (q.order.rank ≤ p.order.rank)) = true := by
  simpa using Nat.le_total p.order.rank q.order.rank

theorem isOrdered_ofProcessors (ps : List (Processor τ)) : IsOrdered (ofProcessors ps) :=
  (List.pairwise_mergeSort le_rank_trans le_rank_total ps).imp of_decide_eq_true

/-- Processors of one order are in order in any sequence, so sorting does not move them
against each other. -/
theorem sameByOrder_ofProcessors (ps : List (Processor τ)) : SameByOrder (ofProcessors ps) ps := by
  intro order
  have hsorted : (ps.filter (·.order = order)).Pairwise
      fun p q => decide (p.order.rank ≤ q.order.rank) = true := by
    refine List.pairwise_of_forall_mem_list fun p hp q hq => ?_
    have hporder : p.order = order := of_decide_eq_true (List.mem_filter.mp hp).2
    have hqorder : q.order = order := of_decide_eq_true (List.mem_filter.mp hq).2
    rw [hporder, hqorder, decide_eq_true_eq]
  have hsublist : (ps.filter (·.order = order)).Sublist (ofProcessors ps) :=
    List.sublist_mergeSort le_rank_trans le_rank_total hsorted List.filter_sublist
  have hfiltered := hsublist.filter (·.order = order)
  simp only [List.filter_filter, Bool.and_self] at hfiltered
  exact (hfiltered.eq_of_length ((ofProcessors_perm ps).filter _).length_eq.symm).symm

theorem ofProcessors_eq_iff : ofProcessors ps = ofProcessors qs ↔ SameByOrder ps qs := by
  refine ⟨fun h => ?_, fun h => ?_⟩
  · have hps := (sameByOrder_ofProcessors ps).symm
    rw [h] at hps
    exact hps.trans (sameByOrder_ofProcessors qs)
  · refine (isOrdered_ofProcessors ps).eq_of_sameByOrder (isOrdered_ofProcessors qs) ?_
    exact ((sameByOrder_ofProcessors ps).trans h).trans (sameByOrder_ofProcessors qs).symm

end Chain

inductive ProcessorCall (τ : Type) where
  | process (p : Processor τ) (k : SessionKey) (e : Element) (consumed : Bool)
  | serviceStarted (p : Processor τ) (k : SessionKey)

structure Watched (τ : Type) where
  inner : τ
  calls : List (ProcessorCall τ)

section

variable {τ : Type}

def Node.watch (n : Node τ) (calls : List (ProcessorCall τ)) : Node (Watched τ) :=
  { n with transport := ⟨n.transport, calls⟩ }

def Node.unwatch (n : Node (Watched τ)) : Node τ :=
  { n with transport := n.transport.inner }

/-- A processor that does the same and has its calls noted. -/
def Processor.watched (p : Processor τ) : Processor (Watched τ) where
  name := p.name
  order := p.order
  process n k e :=
    let (consumed, m) := p.process n.unwatch k e
    (consumed, m.watch (n.transport.calls ++ [.process p k e consumed]))
  streamOpened n k header :=
    let (text, m) := p.streamOpened n.unwatch k header
    (text, m.watch n.transport.calls)
  features n k := p.features n.unwatch k
  serviceStarted n k :=
    (p.serviceStarted n.unwatch k).watch (n.transport.calls ++ [.serviceStarted p k])

@[simp] theorem Node.unwatch_watch (n : Node τ) (calls : List (ProcessorCall τ)) :
    (n.watch calls).unwatch = n := rfl

@[simp] theorem Node.calls_watch (n : Node τ) (calls : List (ProcessorCall τ)) :
    (n.watch calls).transport.calls = calls := rfl

@[simp] theorem Node.find?_watch (n : Node τ) (calls : List (ProcessorCall τ)) (conn : ConnId) :
    (n.watch calls).find? conn = n.find? conn := rfl

end

namespace Chain

variable {τ : Type} {k : SessionKey} {e : Element}

/-- The calls by which an element is offered to a chain, and whether it was consumed: each processor
is asked once up to the first that consumes the element, and all are asked if none does. -/
inductive Offers (k : SessionKey) (e : Element) (chain : Chain τ) :
    Bool → List (ProcessorCall τ) → Prop
  | consumed (asked : List (Processor τ)) (last : Processor τ) (rest : List (Processor τ))
      (h : chain = asked ++ last :: rest) :
      Offers k e chain true (asked.map (.process · k e false) ++ [.process last k e true])
  | declined : Offers k e chain false (chain.map (.process · k e false))

theorem Offers.cons {chain : Chain τ} {consumed : Bool} {calls : List (ProcessorCall τ)}
    (h : Offers k e chain consumed calls) (p : Processor τ) :
    Offers k e (p :: chain) consumed (.process p k e false :: calls) := by
  cases h with
  | consumed asked last rest h =>
    exact .consumed (p :: asked) last rest (by rw [h, List.cons_append])
  | declined => exact .declined

theorem ofProcessors_map_watched (ps : List (Processor τ)) :
    ofProcessors (ps.map Processor.watched) = (ofProcessors ps).map Processor.watched :=
  (List.map_mergeSort (f := Processor.watched) fun _ _ _ _ => rfl).symm

theorem process_of_consumes {p : Processor τ} {n m : Node τ} (h : p.process n k e = (true, m))
    (rest : Chain τ) : process n k e (p :: rest) = (true, m) := by
  rw [process, h]

theorem process_of_declines {p : Processor τ} {n m : Node τ} (h : p.process n k e = (false, m))
    (rest : Chain τ) : process n k e (p :: rest) = process m k e rest := by
  rw [process, h]

/-- By induction on the chain: a processor that declines hands on the node that it leaves, with its
own call noted. -/
theorem exists_process_watched (chain : Chain τ) (n : Node τ) (k : SessionKey) (e : Element)
    (before : List (ProcessorCall τ)) :
    ∃ calls, process (n.watch before) k e (chain.map Processor.watched) =
        ((process n k e chain).1, (process n k e chain).2.watch (before ++ calls)) ∧
      Offers k e chain (process n k e chain).1 calls := by
  induction chain generalizing n before with
  | nil => exact ⟨[], by simp [process], .declined⟩
  | cons p rest ih =>
    obtain ⟨consumed, m, hp⟩ : ∃ consumed m, p.process n k e = (consumed, m) := ⟨_, _, rfl⟩
    have hwatched : p.watched.process (n.watch before) k e =
        (consumed, m.watch (before ++ [.process p k e consumed])) := by
      simp only [Processor.watched, Node.unwatch_watch, Node.calls_watch, hp]
    rw [List.map_cons]
    cases consumed with
    | true =>
      rw [process_of_consumes hwatched, process_of_consumes hp]
      exact ⟨[.process p k e true], rfl, .consumed [] p rest rfl⟩
    | false =>
      obtain ⟨calls, heq, hoffers⟩ := ih m (before ++ [.process p k e false])
      rw [process_of_declines hwatched, process_of_declines hp, heq]
      refine ⟨.process p k e false :: calls, ?_, hoffers.cons p⟩
      rw [List.append_assoc, List.singleton_append]

theorem serviceStarted_watched (chain : Chain τ) (n : Node τ) (before : List (ProcessorCall τ)) :
    serviceStarted (n.watch before) k (chain.map Processor.watched) =
      (serviceStarted n k chain).watch (before ++ chain.map (.serviceStarted · k)) := by
  induction chain generalizing n before with
  | nil => simp [serviceStarted]
  | cons p rest ih =>
    have hrest := ih (p.serviceStarted n k) (before ++ [.serviceStarted p k])
    rw [List.append_assoc, List.singleton_append] at hrest
    exact hrest

end Chain

namespace Node

variable {τ : Type} [Transport τ] {n : Node τ} {k : SessionKey} {conn : ConnId}

/-- The features in the answer to a stream header are those for the session that has taken the pair
of the header. -/
theorem exists_features_of_header {chain : Chain τ} (hfind : n.find? conn = some k)
    (hrole : (n.session k).role = .inbound) {header : StreamHeader} {named : Option DomainPair}
    (hnamed : n.headerPair header = .ok named) (hversion : header.version.isSome) :
    ∃ more m, n.streamOpened chain conn header =
      (some (n.ownHeader k header ++
        (Stanza.streamFeatures (chain.features (n.taking k named) k)).toXml ++ more), m) := by
  have hanswer : n.answerHeader chain k header =
      (n.ownHeader k header ++
        (Stanza.streamFeatures (chain.features (n.taking k named) k)).toXml, none,
        n.taking k named) := by
    cases named <;> simp [answerHeader, hnamed, hversion, ownHeader, taking]
  refine ⟨(chain.streamOpened (n.taking k named) k header).1,
    (chain.streamOpened (n.taking k named) k header).2, ?_⟩
  simp only [streamOpened, hfind, hrole, hanswer]

/-- The processors of a node are put in order, and those of the same order keep their places. On a
connection that is there an element is offered to them in this sequence, each once, up to the first
that consumes it, and it is consumed just if there is one. The start of the service is told to all
of them in this sequence, and the features are those of all of them one after the other, also in the
answer to a stream header. Lists that agree among the processors of each order, and only those, make
the same chain, and so each run of events ends the same. -/
theorem first_consumer_ends_dispatch (ps : List (Processor τ)) :
    let chain := Chain.ofProcessors ps
    let watched := Chain.ofProcessors (ps.map Processor.watched)
    (chain.Perm ps ∧ Chain.IsOrdered chain ∧ Chain.SameByOrder chain ps) ∧
    (∀ (n : Node τ) conn k, n.find? conn = some k →
      (∀ e, ∃ calls, (n.watch []).receive watched conn e =
          ((n.receive chain conn e).1, (n.receive chain conn e).2.watch calls) ∧
        Chain.Offers k e chain (n.receive chain conn e).1 calls) ∧
      (n.watch []).serviceStarted watched conn =
        (.ok (), (n.serviceStarted chain conn).2.watch (chain.map (.serviceStarted · k))) ∧
      n.offeredFeatures chain conn = chain.flatMap (·.features n k) ∧
      ∀ header named, (n.session k).role = .inbound → n.headerPair header = .ok named →
        header.version.isSome →
        ∃ more m, n.streamOpened chain conn header =
          (some (n.ownHeader k header ++ (Stanza.streamFeatures
            (chain.flatMap (·.features (n.taking k named) k))).toXml ++ more), m)) ∧
    ∀ qs, (Chain.ofProcessors qs = chain ↔ Chain.SameByOrder qs ps) ∧
      (Chain.SameByOrder qs ps → ∀ (n : Node τ) events,
        n.run (Chain.ofProcessors qs) events = n.run chain events) := by
  intro chain watched
  have hwatched : watched = chain.map Processor.watched := Chain.ofProcessors_map_watched ps
  refine ⟨⟨Chain.ofProcessors_perm ps, Chain.isOrdered_ofProcessors ps,
    Chain.sameByOrder_ofProcessors ps⟩, fun n conn k hfind => ⟨fun e => ?_, ?_, ?_, ?_⟩,
    fun qs => ⟨Chain.ofProcessors_eq_iff, fun h n events => ?_⟩⟩
  · obtain ⟨calls, heq, hoffers⟩ := chain.exists_process_watched n k e []
    refine ⟨calls, ?_, ?_⟩
    · simpa only [receive, find?_watch, hfind, hwatched, List.nil_append] using heq
    · simpa only [receive, hfind] using hoffers
  · simp only [serviceStarted, find?_watch, hfind, hwatched, Chain.serviceStarted_watched,
      List.nil_append]
  · simp only [offeredFeatures, hfind, Chain.features]
  · intro header named hrole hnamed hversion
    exact exists_features_of_header hfind hrole hnamed hversion
  · rw [Chain.ofProcessors_eq_iff.mpr h]

/-- Two processors of one order that both consume messages, and one of an order before them that
consumes nothing, wherever it stands in the list. -/
theorem first_consumer_ends_dispatch_of_probes :
    let n := Setup.served.after [.event (.accept ⟨1⟩ "192.0.2.1")]
    let early : Processor Simulated := .probe ⟨"early", .streamError, [], none, none⟩
    let first : Processor Simulated := .probe ⟨"first", .dialback, ["message"], none, some "one"⟩
    let second : Processor Simulated := .probe ⟨"second", .dialback, ["message"], none, some "two"⟩
    let header : StreamHeader :=
      { recipient := some "b.example", sender := some "a.example", version := some "1.0" }
    let chain := Chain.ofProcessors [first, early, second]
    (n.find? ⟨1⟩ = some 0 ∧ (n.session 0).role = .inbound ∧
      n.headerPair header = .ok (some ⟨"b.example", "a.example"⟩)) ∧
    Chain.SameByOrder [early, first, second] [first, early, second] ∧
    chain = [early, first, second] ∧
    (∃ calls, Chain.Offers 0 ⟨"message", [], none, []⟩ chain true calls) ∧
    n.offeredFeatures chain ⟨1⟩ = [⟨"one", [], none, []⟩, ⟨"two", [], none, []⟩] ∧
    (∃ text m, n.streamOpened chain ⟨1⟩ header = (some text, m)) ∧
    ∀ events, n.run (Chain.ofProcessors [early, first, second]) events = n.run chain events := by
  intro n early first second header chain
  obtain ⟨hfind, hrole, hnamed⟩ : n.find? ⟨1⟩ = some 0 ∧ (n.session 0).role = .inbound ∧
      n.headerPair header = .ok (some ⟨"b.example", "a.example"⟩) := by
    simp only [n]
    rw [Setup.after_eq_foldl]
    decide +kernel
  have hsame : Chain.SameByOrder [early, first, second] [first, early, second] := by
    rintro (_ | _) <;> rfl
  obtain ⟨⟨-, hordered, hkept⟩, hlive, hlists⟩ :=
    first_consumer_ends_dispatch [first, early, second]
  have hchain : chain = [early, first, second] :=
    hordered.eq_of_sameByOrder (by simp [Chain.IsOrdered, early, first, second, Processor.probe,
      ProcessorOrder.rank]) (hkept.trans hsame.symm)
  obtain ⟨hoffers, -, hfeatures, hheader⟩ := hlive n ⟨1⟩ 0 hfind
  refine ⟨⟨hfind, hrole, hnamed⟩, hsame, hchain, ?_, ?_, ?_, (hlists _).2 hsame n⟩
  · obtain ⟨calls, -, h⟩ := hoffers ⟨"message", [], none, []⟩
    refine ⟨calls, ?_⟩
    have hconsumed : (n.receive chain ⟨1⟩ ⟨"message", [], none, []⟩).1 = true := by
      rw [receive, hfind, hchain]
      rfl
    rwa [hconsumed] at h
  · refine hfeatures.trans ?_
    change chain.flatMap _ = _
    rw [hchain]
    rfl
  · obtain ⟨more, m, h⟩ := hheader header _ hrole hnamed rfl
    exact ⟨_, m, h⟩

end Node

end Federation
