import Mathlib.Data.Set.Function
import PortForwardX.Chain.Accounts
import PortForwardX.Udp.Reuse

/-!
# Replies through two forwarders

A session of the back stands for an upstream socket of the front, and that socket for a
client. As long as sources and keys are not confused, and no thread receives from a socket
that is not its own, the answers to a session of the back reach the client it stands for.
-/
namespace PortForwardX.Chain

open Transition Net Conduit

open Udp (SessionId Owner Payload Parcel forwarder Event)

open scoped List

/-- No two upstream sockets opened so far have the same source. -/
def SourcesApart (source : SessionId → SockAddr) (s : Udp.State) : Prop :=
  ((List.range s.nextSession).map source).Nodup

/-- The keys of those received from so far differ. -/
def KeysApart (q : Udp.Setup) (s : Udp.State) : Prop :=
  ∀ a ∈ s.senders, ∀ b ∈ s.senders, q.key a = q.key b → a = b

instance (source : SessionId → SockAddr) (s : Udp.State) : Decidable (SourcesApart source s) :=
  inferInstanceAs (Decidable (List.Nodup _))

instance (q : Udp.Setup) (s : Udp.State) : Decidable (KeysApart q s) :=
  inferInstanceAs (Decidable (∀ a ∈ s.senders, ∀ b ∈ s.senders, q.key a = q.key b → a = b))

/-- What both forwarders rely on of the addresses in a run. -/
structure Apart (p : Setup) (x : State) : Prop where
  frontSources : SourcesApart p.frontSource x.front
  backSources : SourcesApart p.backSource x.back
  frontKeys : KeysApart p.front x.front
  backKeys : KeysApart p.back x.back

/-- Each session of the back has an owner among the clients of the front. What the session
has forwarded came to the front from its owner, and what the front has delivered to a client
are answers of the final target to sessions the client owns. Each datagram on the left counts
for one on the right. -/
def RepliesReachOwners (x : State) : Prop :=
  ∃ owner : SessionId → SockAddr,
    (relabel owner (x.back.trace.filterMap Event.forwarded)).Subperm
      (x.front.trace.filterMap Event.fromClient) ∧
    (x.front.trace.filterMap Event.delivered).Subperm (relabel owner x.answers)

variable {p : Setup} {x : State} {q : Udp.Setup} {s : Udp.State}

instance : Decidable (Apart p x) :=
  decidable_of_iff (SourcesApart p.frontSource x.front ∧ SourcesApart p.backSource x.back ∧
      KeysApart p.front x.front ∧ KeysApart p.back x.back)
    ⟨fun h => ⟨h.1, h.2.1, h.2.2.1, h.2.2.2⟩, fun h => ⟨h.1, h.2, h.3, h.4⟩⟩

/-! ### One forwarder -/

/-- The client a session was made for. -/
def client (s : Udp.State) (σ : SessionId) : SockAddr := (s.heap σ).clientAddr

theorem delivered_eq (attributed : Udp.Attributed q s) :
    s.trace.filterMap Event.delivered = relabel (client s) (s.trace.filterMap Event.relayed) := by
  rw [relabel, List.map_filterMap]
  refine List.filterMap_congr fun e member => ?_
  cases e with
  | sendClient σ socket dest remote payload =>
    obtain ⟨-, rfl⟩ := attributed.events _ member
    rfl
  | _ => rfl

/-- The session that a datagram is forwarded in was found under its sender's key. -/
theorem sender_eq (attributed : Udp.Attributed q s) (faithful : s.upward.Faithful)
    (keys : KeysApart q s) {σ : SessionId} {sender dest : SockAddr} {socket : Owner}
    {payload : List UInt8} {marks : Bool}
    (sent : .sendUpstream σ sender socket dest payload marks ∈ s.trace) :
    sender = client s σ := by
  obtain ⟨allocated, -, key⟩ := attributed.events _ sent
  have known := Udp.sent_sender faithful (Udp.State.mem_upward_sent sent)
  exact keys sender known _ (attributed.clients σ allocated) key

theorem forwarded_eq (attributed : Udp.Attributed q s) (faithful : s.upward.Faithful)
    (keys : KeysApart q s) :
    relabel (client s) (s.trace.filterMap Event.forwarded) =
      s.trace.filterMap Event.toTarget := by
  rw [relabel, List.map_filterMap]
  refine List.filterMap_congr fun e member => ?_
  cases e with
  | sendUpstream σ sender socket dest payload marks =>
    rw [Event.toTarget, sender_eq attributed faithful keys member]
    rfl
  | _ => rfl

/-- A receipt on the thread's own socket is told by the socket as well as by the thread. -/
theorem receipt_own {e : Event} (own : e.OwnReceipt) (source : SessionId → SockAddr) :
    e.receipt.bind atListen = e.fromClient ∧
      e.receipt.bind (atUpstream source) = e.heard.map fun d => (source d.1, d.2) := by
  cases e with
  | recvListen owner sender payload =>
    obtain rfl : owner = .listen := own
    exact ⟨rfl, rfl⟩
  | recvUpstream σ owner remote payload =>
    obtain rfl : owner = .upstream σ := own
    exact ⟨rfl, rfl⟩
  | _ => exact ⟨rfl, rfl⟩

theorem heard_eq (own : Udp.OwnReceipts s) (source : SessionId → SockAddr) :
    relabel source (s.trace.filterMap Event.heard) =
      (receipts s).filterMap (atUpstream source) := by
  rw [relabel, List.map_filterMap, receipts, List.filterMap_filterMap]
  exact List.filterMap_congr fun e member => (receipt_own (own.events e member) source).2.symm

theorem fromClient_eq (own : Udp.OwnReceipts s) :
    (receipts s).filterMap atListen = s.trace.filterMap Event.fromClient := by
  rw [receipts, List.filterMap_filterMap]
  exact List.filterMap_congr fun e member =>
    (receipt_own (own.events e member) fun _ => ⟨[]⟩).1

/-- Sockets opened so far can be told by their sources. -/
theorem SourcesApart.session {source : SessionId → SockAddr} (apart : SourcesApart source s) :
    ∃ session : SockAddr → SessionId, ∀ σ < s.nextSession, session (source σ) = σ := by
  have injective : Set.InjOn source {σ | σ < s.nextSession} := by
    intro σ allocated τ allocated' same
    exact List.inj_on_of_nodup_map apart (List.mem_range.mpr allocated)
      (List.mem_range.mpr allocated') same
  exact ⟨Function.invFunOn source {σ | σ < s.nextSession},
    fun σ allocated => injective.leftInvOn_invFunOn allocated⟩

theorem heard_allocated (attributed : Udp.Attributed q s) :
    ∀ d ∈ s.trace.filterMap Event.heard, d.1 < s.nextSession := by
  intro d member
  obtain ⟨e, happened, shape⟩ := List.mem_filterMap.mp member
  cases e with
  | recvUpstream σ owner remote payload =>
    cases shape
    exact attributed.events _ happened
  | _ => cases shape

/-! ### The pair -/

/-- What the front has sent on to the back, under the clients its sockets stand for, it has
received from them. -/
theorem ascended (attributed : Udp.Attributed p.front x.front) (faithful : x.front.upward.Faithful)
    (keys : KeysApart p.front x.front) {session : SockAddr → SessionId}
    (inverse : ∀ σ < x.front.nextSession, session (p.frontSource σ) = σ) :
    (relabel (client x.front ∘ session) (x.front.trace.filterMap (ascends p))).Sublist
      (x.front.trace.filterMap Event.fromClient) := by
  refine List.Sublist.trans ?_ faithful.sent_sublist
  rw [relabel, List.map_filterMap, Udp.State.upward_sent]
  refine filterMap_sublist fun e member => ?_
  cases e with
  | sendUpstream σ sender socket dest payload marks =>
    obtain ⟨allocated, rfl, -⟩ := attributed.events _ member
    have same := sender_eq attributed faithful keys member
    by_cases there : dest = p.listen
    · simp [ascends, there, Event.toTarget, inverse σ allocated, same]
    · exact .inl (by simp [ascends, there])
  | _ => exact .inl rfl

/-- In every run in which no thread of either forwarder calls `recvfrom` on a number that
has gone to another socket, replies reach the owners of the sessions they answer. -/
theorem replies_reach_owners (p : Setup) {x : State}
    (reached : (chain p).Reach (fun x action => findsOwn x action = true) x) (apart : Apart p x) :
    RepliesReachOwners x := by
  have front := reach_front (fun s a => Udp.findsOwn s a = true) (fun _ _ => id) reached
  have back := reach_back (fun s a => Udp.findsOwn s a = true) (fun _ _ => id) reached
  have conserved := conserved_reached reached
  have frontAttributed := Udp.attributed_reached front
  have backAttributed := Udp.attributed_reached back
  obtain ⟨frontUpward, frontDownward⟩ := Udp.relays_faithful front
  obtain ⟨backUpward, backDownward⟩ := Udp.relays_faithful back
  have frontOwn := Udp.ownReceipts_reached front
  have backOwn := Udp.ownReceipts_reached back
  obtain ⟨frontSession, frontInverse⟩ := apart.frontSources.session
  obtain ⟨backSession, backInverse⟩ := apart.backSources.session
  -- whom an address in front of the back stands for, and so whom a session of the back
  let bearer := client x.front ∘ frontSession
  let owner := bearer ∘ client x.back
  refine ⟨owner, ?_, ?_⟩
  · calc relabel owner (x.back.trace.filterMap Event.forwarded)
      _ = relabel bearer (x.back.trace.filterMap Event.toTarget) := by
          rw [← forwarded_eq backAttributed backUpward apart.backKeys, relabel_relabel]
      _ <+~ relabel bearer (x.back.trace.filterMap Event.fromClient) :=
          relabel_subperm bearer backUpward.sent_sublist.subperm
      _ <+~ relabel bearer (x.front.trace.filterMap (ascends p)) := by
          rw [← fromClient_eq backOwn]
          exact relabel_subperm bearer conserved.up.arrivals
      _ <+~ x.front.trace.filterMap Event.fromClient :=
          (ascended frontAttributed frontUpward apart.frontKeys frontInverse).subperm
  · calc x.front.trace.filterMap Event.delivered
      _ = relabel (client x.front) (x.front.trace.filterMap Event.relayed) :=
          delivered_eq frontAttributed
      _ <+~ relabel (client x.front) (x.front.trace.filterMap Event.heard) :=
          relabel_subperm _ (Udp.relayed_heard frontDownward)
      _ = relabel bearer (relabel p.frontSource (x.front.trace.filterMap Event.heard)) := by
          rw [relabel_relabel]
          exact relabel_congr fun d member => by
            simp [bearer, frontInverse _ (heard_allocated frontAttributed d member)]
      _ <+~ relabel bearer (x.back.trace.filterMap Event.delivered) := by
          rw [heard_eq frontOwn]
          exact relabel_subperm bearer conserved.down.arrivals
      _ = relabel owner (x.back.trace.filterMap Event.relayed) := by
          rw [delivered_eq backAttributed, relabel_relabel]
      _ <+~ relabel owner (x.back.trace.filterMap Event.heard) :=
          relabel_subperm owner (Udp.relayed_heard backDownward)
      _ = relabel (owner ∘ backSession)
            (relabel p.backSource (x.back.trace.filterMap Event.heard)) := by
          rw [relabel_relabel]
          exact relabel_congr fun d member => by
            simp [backInverse _ (heard_allocated backAttributed d member)]
      _ <+~ relabel (owner ∘ backSession) (relabel p.backSource x.answers) := by
          rw [heard_eq backOwn]
          exact relabel_subperm _ conserved.inward.arrivals
      _ = relabel owner x.answers := by
          rw [relabel_relabel]
          exact relabel_congr fun d member => by
            simp [backInverse _ (answers_allocated reached d member)]

/-- The two clients of the front get a session of the back each; the final target answers the
second. -/
def twoClients : List Action :=
  Udp.Sample.oneClient.map .front ++
    (.udp .none :: Udp.Sample.newClient 4 (Sample.frontSource 0)
      (Udp.Sample.payload [1, 2])).map .back ++
    (Udp.Sample.newClient 5 Udp.Sample.bob (Udp.Sample.payload [3])).map .front ++
    (Udp.Sample.newClient 5 (Sample.frontSource 1) (Udp.Sample.payload [3])).map .back ++
    .answer 1 (Udp.Sample.payload [9]) ::
    (Udp.Sample.awaitReply 1 ++
      Udp.Sample.relayReply 1 Sample.target (Udp.Sample.payload [9])).map .back ++
    (Udp.Sample.awaitReply 1 ++
      Udp.Sample.relayReply 1 Udp.Sample.server (Udp.Sample.payload [9])).map .front

theorem replies_reach_owners_two_clients :
    ∃ x, (chain Sample.setup).Reach (fun x action => findsOwn x action = true) x ∧
      x.answers = [(1, [9])] ∧
      x.front.trace.filterMap Event.delivered = [(Udp.Sample.bob, [9])] ∧
      RepliesReachOwners x := by
  have result : ((chain Sample.setup).runIf (fun x action => findsOwn x action = true)
      Sample.initial twoClients).map (fun x => decide (Apart Sample.setup x) &&
        x.answers == [(1, [9])] &&
        x.front.trace.filterMap Event.delivered == [(Udp.Sample.bob, [9])]) = some true := by
    decide +kernel
  obtain ⟨x, run, seen⟩ := Option.map_eq_some_iff.mp result
  simp only [Bool.and_eq_true, decide_eq_true_eq, beq_iff_eq] at seen
  obtain ⟨⟨apart, answered⟩, delivered⟩ := seen
  have reached := Machine.Reach.runIf (.start Sample.initial_init) run
  exact ⟨x, reached, answered, delivered, replies_reach_owners _ reached apart⟩

/-- A client's session of the front is evicted while its reply loop is about to call
`recvfrom`, and its number goes to another part of the process. -/
def overtaken : List Udp.Action :=
  Udp.evictedAfter 3 ++
    [.foreignOpen 4, .reply 0 .none, .reply 0 (.datagram Udp.Sample.bob (Udp.Sample.payload [66])),
      .reply 0 .none, .reply 0 .sent]

/-- What arrives at the other part of the process is delivered to the client, though the
final target has sent nothing. -/
theorem overtaken_delivers_foreign :
    ∃ x, (chain Sample.setup).Reach Machine.anyStep x ∧ Apart Sample.setup x ∧
      x.answers = [] ∧ x.front.trace.filterMap Event.delivered = [(Udp.Sample.alice, [66])] ∧
      ¬ RepliesReachOwners x := by
  have result : ((chain Sample.setup).run Sample.initial (overtaken.map .front)).map (fun x =>
      decide (Apart Sample.setup x) && x.answers == [] &&
        x.front.trace.filterMap Event.delivered == [(Udp.Sample.alice, [66])]) = some true := by
    decide +kernel
  obtain ⟨x, run, seen⟩ := Option.map_eq_some_iff.mp result
  simp only [Bool.and_eq_true, decide_eq_true_eq, beq_iff_eq] at seen
  obtain ⟨⟨apart, none_⟩, delivered⟩ := seen
  refine ⟨x, Machine.Reach.run (.start Sample.initial_init) run, apart, none_, delivered, ?_⟩
  rintro ⟨owner, -, replied⟩
  rw [delivered, none_] at replied
  simp [relabel] at replied

end PortForwardX.Chain
