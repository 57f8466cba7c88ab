import PortForwardX.Udp.Identity
import PortForwardX.Udp.Relay

/-!
# Isolation of clients

What a session sends, in either direction, was received for that session, once for each
sending, and goes to the addresses fixed when the session was made.
-/
namespace PortForwardX.Udp

open Transition Net Conduit

/-- The clients' addresses can be rendered. -/
def namedClient (p : Setup) : Action → Bool
  | .udp (.datagram client _) => (p.getnameinfo client).isSome
  | _ => true

/-- Sockets can be told apart by number, and clients by key. -/
def distinguishable (p : Setup) (s : State) (action : Action) : Bool :=
  fresh s action && namedClient p action

/-- The session was made once, for this client and this target. -/
def State.MadeFor (s : State) (σ : SessionId) (client target : SockAddr) : Prop :=
  .created σ client target ∈ s.trace ∧
    ∀ client' target', .created σ client' target' ∈ s.trace → client' = client ∧ target' = target

/-- An event uses the sockets and addresses of the session it belongs to. -/
def Event.Lawful (s : State) : Event → Prop
  | .recvListen socket _ _ => socket = .listen
  | .created σ client target =>
    σ < s.nextSession ∧ (s.heap σ).clientAddr = client ∧ (s.heap σ).targetAddr = target
  | .sendUpstream σ client socket dest _ _ =>
    σ < s.nextSession ∧ socket = .upstream σ ∧ (s.heap σ).clientAddr = client ∧
      (s.heap σ).targetAddr = dest
  | .recvUpstream σ socket _ _ => socket = .upstream σ
  | .sendClient σ socket dest _ _ =>
    σ < s.nextSession ∧ socket = .listen ∧ (s.heap σ).clientAddr = dest
  | _ => True

/-- What the sessions and the events say of each other. -/
structure Ledger (p : Setup) (s : State) : Prop where
  known : ∀ σ < s.nextSession, (p.getnameinfo (s.heap σ).clientAddr).isSome
  held : ∀ d, s.udp.datagram = some d → (p.getnameinfo d.client).isSome
  created : ∀ σ < s.nextSession,
    .created σ (s.heap σ).clientAddr (s.heap σ).targetAddr ∈ s.trace
  lawful : ∀ e ∈ s.trace, e.Lawful s

variable {p : Setup} {s t : State} {c c' : Cleanup} {a : Answer} {action : Action}
  {σ : SessionId}

theorem Event.Lawful.fixed {e : Event} (fixed : Fixed s t) (lawful : e.Lawful s) : e.Lawful t := by
  cases e with
  | created σ client target =>
    obtain ⟨old, rfl, rfl⟩ := lawful
    exact ⟨old.trans_le fixed.next, fixed.client σ old, fixed.target σ old⟩
  | sendUpstream σ client socket dest payload marks =>
    obtain ⟨old, own, rfl, rfl⟩ := lawful
    exact ⟨old.trans_le fixed.next, own, fixed.client σ old, fixed.target σ old⟩
  | sendClient σ socket dest remote payload =>
    obtain ⟨old, listen, rfl⟩ := lawful
    exact ⟨old.trans_le fixed.next, listen, fixed.client σ old⟩
  | _ => exact lawful

/-- The events a cleanup adds say nothing about sockets and addresses. -/
theorem CleanMove.lawful (move : CleanMove p s c t c') :
    ∀ e ∈ t.trace, e ∈ s.trace ∨ e.Lawful t := by
  cases move <;> simp +contextual [or_imp, Event.Lawful]

/-- The session `UdpLoop` works on was made for the client whose datagram it holds. -/
theorem Ledger.served (ledger : Ledger p s) (indexed : Indexed p s)
    (names : NumericNames p.getnameinfo) {d : Datagram} (held : s.udp.datagram = some d)
    (session : s.udp.session = some σ) : (s.heap σ).clientAddr = d.client := by
  obtain ⟨old, same⟩ := indexed.served d σ held session
  exact (clientEndpointKey_injective names (ledger.held d held) (ledger.known σ old) same).symm

theorem UdpMove.lawful (move : UdpMove p s a t) (ledger : Ledger p s) (indexed : Indexed p s)
    (named : Named s) (names : NumericNames p.getnameinfo) :
    ∀ e ∈ t.trace, e ∈ s.trace ∨ e.Lawful t := by
  have udp := named.udp
  cases move with
  | clean pc unfinished move => exact move.lawful
  | recvDatagram pc answer | recvEmpty pc answer =>
    rw [pc] at udp
    -- the socket was named when the call was made
    have listen := udp _ (recvfrom_socket answer)
    simp +contextual [or_imp, Event.Lawful, listen]
  | @sent d σ owner pc open_ | @sentEmpty d σ owner pc open_ =>
    have old := (indexed.served d σ (by simp [pc, UdpPc.datagram]) (by simp [pc, UdpPc.session])).1
    -- the member still names the session's own socket, and the session its client
    have own := named.resolve (named.upstream σ) open_
    have client : (s.heap σ).clientAddr = d.client :=
      ledger.served indexed names (by simp [pc, UdpPc.datagram]) (by simp [pc, UdpPc.session])
    simp +contextual [or_imp, Event.Lawful, old, own, client]
  | _ => simp +contextual [or_imp, Event.Lawful]

theorem ReplyMove.lawful (move : ReplyMove p s σ a t) (threads : Threads s) (named : Named s) :
    ∀ e ∈ t.trace, e ∈ s.trace ∨ e.Lawful t := by
  have reply := named.reply σ
  have old := move.allocated threads
  cases move with
  | recvDatagram pc answer | recvEmpty pc answer =>
    rw [pc] at reply
    have own := reply _ (recvfrom_socket answer)
    simp +contextual [or_imp, Event.Lawful, own]
  | sent pc open_ =>
    rw [pc] at reply
    have listen := named.resolve reply open_
    simp +contextual [or_imp, Event.Lawful, old, listen]
  | _ => simp +contextual [or_imp, Event.Lawful]

/-- The datagram `UdpLoop` holds after a step is the one it held or the one it received. -/
theorem UdpMove.datagram (move : UdpMove p s a t) {d : Datagram} (held : t.udp.datagram = some d) :
    s.udp.datagram = some d ∨ ∃ payload, a = .datagram d.client payload := by
  cases move with
  | @recvDatagram _ socket owner client bytes pc answer some_ =>
    obtain rfl : ⟨client, bytes⟩ = d := by simpa [UdpPc.datagram] using held
    unfold recvfrom at answer
    split at answer <;> simp_all
  | test pc | retest pc | cleaned pc =>
    dsimp only [State.goto] at held
    split at held <;> cases held
  | noThread pc => exact .inl held
  | _ pc => simp_all [UdpPc.datagram]

/-- The rule for a step that makes no session. -/
theorem Ledger.keep (ledger : Ledger p s) (next : t.nextSession = s.nextSession)
    (fixed : Fixed s t) (history : s.trace <+: t.trace)
    (held : ∀ d, t.udp.datagram = some d → (p.getnameinfo d.client).isSome)
    (lawful : ∀ e ∈ t.trace, e ∈ s.trace ∨ e.Lawful t) : Ledger p t where
  known σ allocated := by
    rw [next] at allocated
    exact fixed.client σ allocated ▸ ledger.known σ allocated
  held := held
  created σ allocated := by
    rw [next] at allocated
    rw [fixed.client σ allocated, fixed.target σ allocated]
    exact history.subset (ledger.created σ allocated)
  lawful e member := (lawful e member).elim (fun old => (ledger.lawful e old).fixed fixed) id

theorem Ledger.quiet (ledger : Ledger p s) (quiet : Quiet s t) (history : s.trace <+: t.trace)
    (lawful : ∀ e ∈ t.trace, e ∈ s.trace ∨ e.Lawful t) : Ledger p t :=
  ledger.keep quiet.nextSession quiet.fixed history (quiet.udp ▸ ledger.held) lawful

theorem UdpMove.ledger (move : UdpMove p s a t) (ledger : Ledger p s) (indexed : Indexed p s)
    (named : Named s) (names : NumericNames p.getnameinfo)
    (client : namedClient p (.udp a) = true) : Ledger p t := by
  have fixed := move.fixed
  have history := (Move.udp move).history
  have held : ∀ d, t.udp.datagram = some d → (p.getnameinfo d.client).isSome := by
    intro d after
    rcases move.datagram after with before | ⟨payload, rfl⟩
    · exact ledger.held d before
    · exact client
  have lawful := move.lawful ledger indexed named names
  cases move with
  | @socketMade fd d endpoint rest pc free =>
    have same := ledger.held d (by simp [pc, UdpPc.datagram])
    -- of the new session everything is read off the datagram in hand
    refine ⟨fun τ after => ?_, held, fun τ after => ?_,
      fun e member => (lawful e member).elim (fun old => (ledger.lawful e old).fixed fixed) id⟩
    · rcases Nat.lt_succ_iff_lt_or_eq.mp after with old | rfl
      · rw [fixed.client τ old]
        exact ledger.known τ old
      · simpa using same
    · rcases Nat.lt_succ_iff_lt_or_eq.mp after with old | rfl
      · rw [fixed.client τ old, fixed.target τ old]
        exact history.subset (ledger.created τ old)
      · simp
  | clean pc unfinished move =>
    exact ledger.keep move.quiet.nextSession fixed history held lawful
  | _ => exact ledger.keep rfl fixed history held lawful

theorem Move.ledger (move : Move p s action t) (ledger : Ledger p s) (indexed : Indexed p s)
    (threads : Threads s) (named : Named s) (names : NumericNames p.getnameinfo)
    (client : namedClient p action = true) : Ledger p t := by
  have history := move.history
  cases move with
  | udp move => exact move.ledger ledger indexed named names client
  | reply move => exact ledger.quiet move.quiet history (move.lawful threads named)
  | stop move =>
    apply ledger.quiet move.quiet history
    cases move with
    | clean pc unfinished move => exact move.lawful
    | _ => exact fun e => .inl
  | foreignOpen =>
    refine ledger.quiet ⟨rfl, rfl, .refl _, fun _ => rfl, fun _ => rfl, ?_⟩ history ?_
    · simp [Event.ofUdpLoop]
    · simp +contextual [or_imp, Event.Lawful]
  | _ =>
    exact ledger.quiet ⟨rfl, rfl, .refl _, fun _ => rfl, fun _ => rfl, rfl⟩ history fun e => .inl

theorem ledger_reached (names : NumericNames p.getnameinfo)
    (reached : (forwarder p).Reach (fun s action => distinguishable p s action = true) s) :
    Ledger p s := by
  induction reached with
  | start init =>
    obtain ⟨fd, clock, outcome, endpoints, -, rfl⟩ := init
    refine ⟨?_, ?_, ?_, ?_⟩ <;> simp [started, UdpPc.datagram, Event.Lawful]
  | next before admitted step ih =>
    have both := Bool.and_eq_true_iff.mp admitted
    refine (step_move step).ledger ih (indexed_reached before) (threads_reached before)
      (named_reached (fun _ _ admitted => (Bool.and_eq_true_iff.mp admitted).1) before) names both.2

/-- Clients of the UDP forwarder are isolated from each other. In every run in which no
descriptor number is reused and every client address can be rendered: the table holds at
most one session for each client address, under its key; what is sent on a session's
upstream socket was received on the listen socket from the session's client, once for each
sending, and goes to the target fixed when the session was made; and what a session's
reply loop sends on the listen socket was received on the session's upstream socket, once
for each sending, and goes to the session's client. -/
theorem client_isolation (names : NumericNames p.getnameinfo)
    (reached : (forwarder p).Reach (fun s action => distinguishable p s action = true) s) :
    ((∀ entry ∈ s.udpSessions, entry.1 = p.key (s.heap entry.2).clientAddr) ∧
      ∀ entry ∈ s.udpSessions, ∀ entry' ∈ s.udpSessions,
        (s.heap entry.2).clientAddr = (s.heap entry'.2).clientAddr → entry = entry') ∧
    ((∀ socket client payload, .recvListen socket client payload ∈ s.trace → socket = .listen) ∧
      (∀ σ client socket dest payload marks,
        .sendUpstream σ client socket dest payload marks ∈ s.trace →
          socket = .upstream σ ∧ s.MadeFor σ client dest) ∧
      (s.trace.filterMap Event.toTarget).Sublist (s.trace.filterMap Event.fromClient)) ∧
    ∀ σ, (∀ socket remote payload, .recvUpstream σ socket remote payload ∈ s.trace →
        socket = .upstream σ) ∧
      (∀ socket dest remote payload, .sendClient σ socket dest remote payload ∈ s.trace →
        socket = .listen ∧ ∃ target, s.MadeFor σ dest target) ∧
      (s.trace.filterMap (Event.toClient σ)).Sublist
        (s.trace.filterMap (Event.fromUpstream σ)) := by
  have indexed := indexed_reached reached
  have ledger := ledger_reached names reached
  have faithful := relays_faithful reached
  have madeFor : ∀ σ < s.nextSession,
      s.MadeFor σ (s.heap σ).clientAddr (s.heap σ).targetAddr := by
    intro σ old
    refine ⟨ledger.created σ old, fun client target made => ?_⟩
    obtain ⟨-, rfl, rfl⟩ := ledger.lawful _ made
    exact ⟨rfl, rfl⟩
  refine ⟨⟨indexed.keyed, ?_⟩, ⟨fun socket client payload => ledger.lawful _, ?_,
    faithful.1.sent_sublist⟩, fun σ => ⟨fun socket remote payload => ledger.lawful _, ?_,
    (faithful.2 σ).sent_sublist⟩⟩
  · intro entry member entry' member' same
    apply List.inj_on_of_nodup_map indexed.unique member member'
    rw [indexed.keyed entry member, indexed.keyed entry' member', same]
  · intro σ client socket dest payload marks event
    obtain ⟨old, own, rfl, rfl⟩ := ledger.lawful _ event
    exact ⟨own, madeFor σ old⟩
  · intro socket dest remote payload event
    obtain ⟨old, own, rfl⟩ := ledger.lawful _ event
    exact ⟨own, _, madeFor σ old⟩

/-- Two clients at once, and a reply to the second. -/
def twoClients : List Action :=
  Sample.oneClient ++
    Sample.newClient 5 Sample.bob (Sample.payload [3]) ++ Sample.awaitReply 0 ++
    Sample.awaitReply 1 ++ Sample.relayReply 1 Sample.server (Sample.payload [9])

theorem client_isolation_two_clients :
    ∃ s, (forwarder Sample.setup).Reach
        (fun s action => distinguishable Sample.setup s action = true) s ∧
      s.trace.filterMap Event.toTarget = [(Sample.alice, [1, 2]), (Sample.bob, [3])] ∧
      .sendClient 1 .listen Sample.bob Sample.server [9] ∈ s.trace ∧
      ∃ target, s.MadeFor 1 Sample.bob target := by
  have result : ((forwarder Sample.setup).runIf
      (fun s action => distinguishable Sample.setup s action = true) Sample.initial
      twoClients).map (fun s => (s.trace.filterMap Event.toTarget,
        decide (.sendClient 1 .listen Sample.bob Sample.server [9] ∈ s.trace))) =
      some ([(Sample.alice, [1, 2]), (Sample.bob, [3])], true) := by decide +kernel
  obtain ⟨s, run, seen⟩ := Option.map_eq_some_iff.mp result
  simp only [Prod.mk.injEq, decide_eq_true_eq] at seen
  have reached := Machine.Reach.runIf (.start Sample.initial_init) run
  have isolated := client_isolation Sample.names reached
  exact ⟨s, reached, seen.1, seen.2, ((isolated.2.2 1).2.1 _ _ _ _ seen.2).2⟩

end PortForwardX.Udp
