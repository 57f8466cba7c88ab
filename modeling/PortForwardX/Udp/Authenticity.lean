import PortForwardX.Udp.Relay

/-!
# Authenticity of replies

The upstream socket is not connected, and the reply loop relays what it receives without
looking at where it came from. A reply is the target's if and only if nobody else reaches
the socket.
-/
namespace PortForwardX.Udp

open Transition Net Conduit

/-- Everything sent to a client was received on the upstream socket of its session from
the target of its session. -/
def State.Authentic (s : State) : Prop :=
  ∀ σ socket dest remote payload, .sendClient σ socket dest remote payload ∈ s.trace →
    remote = (s.heap σ).targetAddr ∧ .recvUpstream σ (.upstream σ) remote payload ∈ s.trace

/-- A datagram with contents that reaches a reply loop comes from the target of its session
on its own upstream socket. -/
def genuine (s : State) : Action → Bool
  | .reply σ (.datagram remote payload) =>
    match s.reply σ with
    | .inRecv socket =>
      payload.bytes.isEmpty || (socket == some (.upstream σ) && remote == (s.heap σ).targetAddr)
    | _ => true
  | _ => true

/-- All receipts with contents are genuine. -/
def GenuineReceipts (s : State) : Prop :=
  ∀ σ socket remote payload, .recvUpstream σ socket remote payload ∈ s.trace → payload ≠ [] →
    σ < s.nextSession ∧ socket = .upstream σ ∧ remote = (s.heap σ).targetAddr

variable {p : Setup} {s t : State} {a : Answer} {action : Action} {σ : SessionId}

/-- A receipt that a step adds is one its reply loop has just made. -/
theorem Move.newReceipt {socket : Owner} {remote : SockAddr} {payload : List UInt8}
    (move : Move p s action t) (after : .recvUpstream σ socket remote payload ∈ t.trace) :
    .recvUpstream σ socket remote payload ∈ s.trace ∨
      ∃ a, action = .reply σ a ∧ s.reply σ = .inRecv (some socket) ∧
        recvfrom s (some socket) a = some (.data socket remote payload) := by
  rcases move.ownEvent σ (by simp [Event.ofReply]) after with old | ⟨a, rfl⟩
  · exact .inl old
  · cases move with
    | reply move =>
      cases move with
      | recvDatagram pc answer | recvEmpty pc answer =>
        obtain ⟨rfl, -⟩ := recvfrom_data answer
        rcases List.mem_append.mp after with old | new
        · exact .inl old
        · simp only [List.mem_singleton, Event.recvUpstream.injEq] at new
          obtain ⟨-, rfl, rfl, rfl⟩ := new
          exact .inr ⟨a, rfl, pc, answer⟩
      | _ => simp_all

theorem Move.genuineReceipts (move : Move p s action t) (threads : Threads s)
    (before : GenuineReceipts s) (admitted : genuine s action = true) : GenuineReceipts t := by
  intro σ socket remote payload receipt some_
  have fixed := move.fixed
  rcases move.newReceipt receipt with old | ⟨a, rfl, pc, answer⟩
  · obtain ⟨allocated, own, target⟩ := before σ socket remote payload old some_
    exact ⟨allocated.trans_le fixed.next, own, by rw [fixed.target σ allocated, target]⟩
  · cases move with
    | reply move =>
      have allocated := move.allocated threads
      obtain ⟨-, full, rfl, rfl⟩ := recvfrom_data answer
      simp only [genuine, pc, Bool.or_eq_true, List.isEmpty_iff, some_, false_or,
        Bool.and_eq_true, beq_iff_eq, Option.some.injEq] at admitted
      exact ⟨allocated.trans_le fixed.next, admitted.1,
        by rw [fixed.target σ allocated, admitted.2]⟩

theorem genuineReceipts_reached
    (reached : (forwarder p).Reach (fun s action => genuine s action = true) s) :
    GenuineReceipts s := by
  induction reached with
  | start init =>
    obtain ⟨fd, clock, outcome, endpoints, -, rfl⟩ := init
    simp [GenuineReceipts, started]
  | next before admitted step ih =>
    exact (step_move step).genuineReceipts (threads_reached before) ih admitted

/-- A forged reply is relayed: from `recvfrom` on, the three next steps of the loop send
the datagram to the client, whatever its sender. -/
theorem forged_reply_relayed {owner : Owner} {fd : Nat} (remote : SockAddr) {payload : Payload}
    (alive : s.terminated = false) (pc : s.reply σ = .inRecv (some owner))
    (listening : s.listenSocket = some fd) (open_ : s.fds fd = some .listen)
    (some_ : payload.bytes ≠ []) :
    ∃ t, (forwarder p).run s [.reply σ (.datagram remote payload), .reply σ .none,
        .reply σ .sent] = some t ∧
      t.heap = s.heap ∧
      .sendClient σ .listen (s.heap σ).clientAddr remote payload.bytes ∈ t.trace := by
  simp [forwarder, step, replyStep, recvfrom, Received.count, State.resolve, alive, pc, listening,
    open_, some_]

/-- The reply loops relay genuine replies as such: in every run in which every datagram
with contents that reaches a reply loop comes from its session's target on its session's
upstream socket, everything sent to a client was received there from that target. Nothing
less will do: a datagram from elsewhere is relayed by the loop's next three steps. -/
theorem authentic_of_genuine (p : Setup) :
    (∀ s, (forwarder p).Reach (fun s action => genuine s action = true) s → s.Authentic) ∧
      ∀ s σ owner fd remote (payload : Payload), s.terminated = false →
        s.reply σ = .inRecv (some owner) → s.listenSocket = some fd → s.fds fd = some .listen →
        payload.bytes ≠ [] → (s.heap σ).targetAddr ≠ remote →
        ∃ t, (forwarder p).run s [.reply σ (.datagram remote payload), .reply σ .none,
          .reply σ .sent] = some t ∧ ¬ t.Authentic := by
  constructor
  · intro s reached τ socket dest remote payload sent
    have passed := State.mem_downward_sent sent
    have some_ : payload ≠ [] := downward_wanted reached _ (List.mem_append_left _ passed)
    -- what was sent was received, and all that was received was genuine
    have received := ((relays_faithful reached).2 τ).sent_sublist.subset passed
    obtain ⟨socket', receipt⟩ := State.mem_downward_received.mp received
    obtain ⟨-, rfl, target⟩ := genuineReceipts_reached reached _ _ _ _ receipt some_
    exact ⟨target, receipt⟩
  · intro s σ owner fd remote payload alive pc listening open_ some_ other
    obtain ⟨t, run, same, sent⟩ :=
      forged_reply_relayed (p := p) remote alive pc listening open_ some_
    refine ⟨t, run, fun authentic => other ?_⟩
    rw [(authentic _ _ _ _ _ sent).1, same]

/-- One client, and a reply from `remote`. -/
def replyFrom (remote : SockAddr) : List Action :=
  Sample.oneClient ++ Sample.awaitReply 0 ++
    Sample.relayReply 0 remote (Sample.payload [9])

/-- A reply of the target, relayed as such. -/
theorem authentic_of_genuine_target :
    ∃ s, (forwarder Sample.setup).Reach (fun s action => genuine s action = true) s ∧
      .sendClient 0 .listen Sample.alice Sample.server [9] ∈ s.trace ∧ s.Authentic := by
  have result : ((forwarder Sample.setup).runIf (fun s action => genuine s action = true)
      Sample.initial (replyFrom Sample.server)).map (fun s =>
        decide (.sendClient 0 .listen Sample.alice Sample.server [9] ∈ s.trace)) = some true := by
    decide +kernel
  obtain ⟨s, run, seen⟩ := Option.map_eq_some_iff.mp result
  have reached := Machine.Reach.runIf (.start Sample.initial_init) run
  exact ⟨s, reached, of_decide_eq_true seen, (authentic_of_genuine _).1 s reached⟩

/-- A stranger's datagram reaches the client as a reply of the target. -/
theorem stranger_relayed :
    ∃ s, (forwarder Sample.setup).Reach Machine.anyStep s ∧
      .sendClient 0 .listen Sample.alice Sample.bob [9] ∈ s.trace ∧
      (s.heap 0).targetAddr = Sample.server ∧ ¬ s.Authentic := by
  have result : ((forwarder Sample.setup).run Sample.initial (replyFrom Sample.bob)).map (fun s =>
      (decide (.sendClient 0 .listen Sample.alice Sample.bob [9] ∈ s.trace),
        (s.heap 0).targetAddr)) = some (true, Sample.server) := by
    decide +kernel
  obtain ⟨s, run, seen⟩ := Option.map_eq_some_iff.mp result
  obtain ⟨sent, target⟩ := Prod.mk.inj seen
  have sent := of_decide_eq_true sent
  refine ⟨s, Machine.Reach.run (.start Sample.initial_init) run, sent, target, fun authentic => ?_⟩
  have same := (authentic 0 _ _ _ _ sent).1
  rw [target] at same
  exact absurd same (by decide)

end PortForwardX.Udp
