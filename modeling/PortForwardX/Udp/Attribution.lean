import PortForwardX.Conduit.Bag
import PortForwardX.Udp.Descriptors
import PortForwardX.Udp.Relay

/-!
# What sends and receipts are attributed to

In every run, numbers given out again or not, a session sends to the client it was made
for and forwards only datagrams received under that client's key. A receipt belongs to the
socket its thread is resolved to when it calls `recvfrom`.
-/
namespace PortForwardX.Udp

open Transition Net Conduit

/-- Everyone from whom the UDP thread has received. -/
def State.senders (s : State) : List SockAddr := s.upward.received.map Prod.fst

/-- An event of a session tells the session, and its addresses, truly. -/
def Event.Attributed (p : Setup) (s : State) : Event → Prop
  | .sendUpstream σ client socket _ _ _ =>
    σ < s.nextSession ∧ socket = .upstream σ ∧ p.key client = p.key (s.heap σ).clientAddr
  | .recvUpstream σ _ _ _ => σ < s.nextSession
  | .sendClient σ _ dest _ _ => σ < s.nextSession ∧ dest = (s.heap σ).clientAddr
  | _ => True

/-- Sessions are made for clients that were received from. -/
structure Attributed (p : Setup) (s : State) : Prop where
  events : ∀ e ∈ s.trace, e.Attributed p s
  clients : ∀ σ < s.nextSession, (s.heap σ).clientAddr ∈ s.senders

/-- The datagram a step takes out of a socket, with the socket. -/
def arrival (s : State) : Action → Option (Owner × Parcel)
  | .udp (.datagram sender payload) =>
    match s.udp with
    | .inRecv (some owner) => some (owner, sender, payload.bytes)
    | _ => none
  | .reply σ (.datagram sender payload) =>
    match s.reply σ with
    | .inRecv (some owner) => some (owner, sender, payload.bytes)
    | _ => none
  | _ => none

/-- A datagram received, with the socket it came out of. -/
def Event.receipt : Event → Option (Owner × Parcel)
  | .recvListen owner client payload => some (owner, client, payload)
  | .recvUpstream _ owner remote payload => some (owner, remote, payload)
  | _ => none

/-- A datagram received by a reply loop, with the session. -/
def Event.heard : Event → Option (SessionId × List UInt8)
  | .recvUpstream σ _ _ payload => some (σ, payload)
  | _ => none

/-- A datagram sent to a client, with the session. -/
def Event.relayed : Event → Option (SessionId × List UInt8)
  | .sendClient σ _ _ _ payload => some (σ, payload)
  | _ => none

/-- A datagram forwarded to the target, with the session. -/
def Event.forwarded : Event → Option (SessionId × List UInt8)
  | .sendUpstream σ _ _ _ payload _ => some (σ, payload)
  | _ => none

/-- A datagram sent to a client, with the client. -/
def Event.delivered : Event → Option Parcel
  | .sendClient _ _ dest _ payload => some (dest, payload)
  | _ => none

/-- A call of `recvfrom` finds the caller's own socket under its number, or none. -/
def findsOwn (s : State) : Action → Bool
  | .udp _ =>
    match s.udp with
    | .callRecv socket => (s.resolve socket).all (· == .listen)
    | _ => true
  | .reply σ _ =>
    match s.reply σ with
    | .callRecv socket => (s.resolve socket).all (· == .upstream σ)
    | _ => true
  | _ => true

/-- A datagram was received on the socket of the thread that received it. -/
def Event.OwnReceipt : Event → Prop
  | .recvListen owner _ _ => owner = .listen
  | .recvUpstream σ owner _ _ => owner = .upstream σ
  | _ => True

/-- Whoever waits in `recvfrom` waits on its own socket, and so has everyone before. -/
structure OwnReceipts (s : State) : Prop where
  udp : ∀ owner, s.udp = .inRecv (some owner) → owner = .listen
  reply : ∀ σ owner, s.reply σ = .inRecv (some owner) → owner = .upstream σ
  events : ∀ e ∈ s.trace, e.OwnReceipt

variable {p : Setup} {s t : State} {c c' : Cleanup} {a : Answer} {action : Action}
  {σ : SessionId} {owner : Owner}

/-! ### Sessions and their clients -/

theorem Event.Attributed.fixed {e : Event} (fixed : Fixed s t) (attributed : e.Attributed p s) :
    e.Attributed p t := by
  cases e with
  | sendUpstream τ client socket dest payload marks =>
    obtain ⟨old, own, key⟩ := attributed
    exact ⟨old.trans_le fixed.next, own, by rw [fixed.client τ old, key]⟩
  | recvUpstream τ socket remote payload => exact attributed.trans_le fixed.next
  | sendClient τ socket dest remote payload =>
    obtain ⟨old, client⟩ := attributed
    exact ⟨old.trans_le fixed.next, by rw [fixed.client τ old, client]⟩
  | _ => trivial

/-- Outside a cleanup the number in a session reaches the session's own socket or none. -/
theorem Descriptors.resolve (descriptors : Descriptors s) (none_ : s.cleaner = none)
    (open_ : s.resolve (s.heap σ).upstreamSocket = some owner) : owner = .upstream σ := by
  obtain ⟨fd, held, named⟩ := Option.bind_eq_some_iff.mp open_
  rw [descriptors.own none_ held] at named
  exact (Option.some.inj named).symm

theorem CleanMove.attributed (move : CleanMove p s c t c') :
    ∀ e ∈ t.trace, e ∈ s.trace ∨ e.Attributed p t := by
  cases move <;> simp +contextual [or_imp, Event.Attributed]

theorem UdpMove.attributed (move : UdpMove p s a t) (indexed : Indexed p s) (threads : Threads s)
    (descriptors : Descriptors s) : ∀ e ∈ t.trace, e ∈ s.trace ∨ e.Attributed p t := by
  have alive := move.alive
  cases move with
  | clean pc unfinished move => exact move.attributed
  | @sent d τ socket pc open_ | @sentEmpty d τ socket pc open_ =>
    have served := indexed.served d τ (by simp [pc, UdpPc.datagram]) (by simp [pc, UdpPc.session])
    -- nobody cleans up while the UDP thread sends
    have own := descriptors.resolve (threads.no_cleaner alive (by simp [pc])) open_
    simp +contextual [or_imp, Event.Attributed, served, own]
  | _ => simp +contextual [or_imp, Event.Attributed]

theorem ReplyMove.attributed (move : ReplyMove p s σ a t) (threads : Threads s) :
    ∀ e ∈ t.trace, e ∈ s.trace ∨ e.Attributed p t := by
  have old := move.allocated threads
  cases move <;> simp +contextual [or_imp, Event.Attributed, old]

theorem Move.attributedEvents (move : Move p s action t) (indexed : Indexed p s)
    (threads : Threads s) (descriptors : Descriptors s) :
    ∀ e ∈ t.trace, e ∈ s.trace ∨ e.Attributed p t := by
  cases move with
  | udp move => exact move.attributed indexed threads descriptors
  | reply move => exact move.attributed threads
  | stop move =>
    cases move with
    | clean pc unfinished move => exact move.attributed
    | _ => exact fun e => .inl
  | foreignOpen => simp +contextual [or_imp, Event.Attributed]
  | _ => exact fun e => .inl

/-- Senders stay known. -/
theorem Move.senders (move : Move p s action t) : s.senders ⊆ t.senders :=
  ((move.history.sublist.filterMap Event.fromClient).map Prod.fst).subset

/-- Who `UdpLoop` holds a datagram of has sent it. -/
theorem held_sender {d : Datagram} (faithful : s.upward.Faithful)
    (held : s.udp.datagram = some d) : d.client ∈ s.senders := by
  have taken : (d.client, d.buffer) ∈ s.upward.received :=
    faithful.subset (List.mem_append_right _ (by simp [held]))
  exact List.mem_map_of_mem taken

/-- Whom `UdpLoop` has forwarded for has sent. -/
theorem sent_sender {client : SockAddr} {payload : List UInt8} (faithful : s.upward.Faithful)
    (sent : (client, payload) ∈ s.upward.sent) : client ∈ s.senders :=
  List.mem_map_of_mem (faithful.sent_sublist.subset sent)

theorem Move.clients (move : Move p s action t) (faithful : s.upward.Faithful)
    (before : ∀ τ < s.nextSession, (s.heap τ).clientAddr ∈ s.senders) :
    ∀ τ < t.nextSession, (t.heap τ).clientAddr ∈ t.senders := by
  have fixed := move.fixed
  have more := move.senders
  intro τ allocated
  by_cases old : τ < s.nextSession
  · rw [fixed.client τ old]
    exact more (before τ old)
  · -- a session made in this step takes its client from the datagram in hand
    by_cases own : ∃ a, action = .udp a
    · obtain ⟨a, rfl⟩ := own
      cases move with
      | udp move =>
        cases move with
        | @socketMade fd d endpoint rest pc free =>
          obtain rfl : τ = s.nextSession :=
            (Nat.lt_succ_iff_lt_or_eq.mp allocated).resolve_left old
          have sender := held_sender faithful (d := d) (by simp [pc, UdpPc.datagram])
          simpa using more sender
        | clean pc unfinished move => exact absurd (move.quiet.nextSession ▸ allocated) old
        | _ => exact absurd allocated old
    · have quiet := move.quiet fun a same => own ⟨a, same⟩
      exact absurd (quiet.nextSession ▸ allocated) old

/-- In every run. -/
theorem attributed_reached {ok : State → Action → Prop} (reached : (forwarder p).Reach ok s) :
    Attributed p s := by
  induction reached with
  | start init =>
    obtain ⟨fd, clock, outcome, endpoints, -, rfl⟩ := init
    exact ⟨by simp [started, Event.Attributed], by simp [started]⟩
  | next before _ step ih =>
    have move := step_move step
    refine ⟨fun e member => ?_, move.clients (relays_faithful before).1 ih.clients⟩
    rcases move.attributedEvents (indexed_reached before) (threads_reached before)
      (descriptors_reached before) e member with old | new
    · exact (ih.events e old).fixed move.fixed
    · exact new

/-! ### Receipts and their sockets -/

theorem CleanMove.receipts (move : CleanMove p s c t c') :
    t.trace.filterMap Event.receipt = s.trace.filterMap Event.receipt := by
  cases move <;> simp [Event.receipt]

/-- Nothing arrives at a thread that does not wait for it. -/
theorem arrival_udp (elsewhere : ∀ owner, s.udp ≠ .inRecv (some owner)) :
    arrival s (.udp a) = none := by
  unfold arrival
  grind

theorem arrival_reply (elsewhere : ∀ owner, s.reply σ ≠ .inRecv (some owner)) :
    arrival s (.reply σ a) = none := by
  unfold arrival
  grind

theorem UdpMove.receipts (move : UdpMove p s a t) :
    t.trace.filterMap Event.receipt =
      s.trace.filterMap Event.receipt ++ (arrival s (.udp a)).toList := by
  cases move with
  | clean pc unfinished move => simp [move.receipts, arrival_udp, pc]
  | recvDatagram pc answer | recvEmpty pc answer =>
    obtain ⟨rfl, payload, rfl, contents⟩ := recvfrom_data answer
    simp [arrival, pc, contents, Event.receipt]
  | recvNothing pc answer none_ =>
    -- a datagram would have been one of the two cases above
    cases a with
    | datagram sender payload =>
      obtain ⟨owner, rfl⟩ := recvfrom_datagram answer
      exact absurd rfl (none_ _ _ _)
    | _ => simp [arrival]
  | _ pc => simp [arrival_udp, pc, Event.receipt]

theorem ReplyMove.receipts (move : ReplyMove p s σ a t) :
    t.trace.filterMap Event.receipt =
      s.trace.filterMap Event.receipt ++ (arrival s (.reply σ a)).toList := by
  cases move with
  | recvDatagram pc answer | recvEmpty pc answer =>
    obtain ⟨rfl, payload, rfl, contents⟩ := recvfrom_data answer
    simp [arrival, pc, contents, Event.receipt]
  | recvZero pc answer =>
    obtain ⟨rfl, -⟩ := recvfrom_nothing answer
    simp [arrival]
  | recvFailed pc answer =>
    obtain rfl := recvfrom_failed answer
    simp [arrival]
  | _ pc => simp [arrival_reply, pc, Event.receipt]

/-- What is received in a step is the datagram that arrives in it. -/
theorem Move.receipts (move : Move p s action t) :
    t.trace.filterMap Event.receipt =
      s.trace.filterMap Event.receipt ++ (arrival s action).toList := by
  cases move with
  | udp move => exact move.receipts
  | reply move => exact move.receipts
  | stop move =>
    cases move with
    | clean pc unfinished move => simp [move.receipts, arrival]
    | _ => simp [arrival]
  | _ => simp [arrival, Event.receipt]

/-! ### Own sockets -/

theorem CleanMove.ownReceipts (move : CleanMove p s c t c') (before : OwnReceipts s) :
    OwnReceipts t where
  udp owner waiting := before.udp owner (move.quiet.udp ▸ waiting)
  reply τ owner waiting := by
    rcases move.frame.reply τ with same | ⟨-, joined⟩
    · exact before.reply τ owner (same ▸ waiting)
    · simp [joined] at waiting
  events := by
    cases move <;> simpa [or_imp, forall_and, Event.OwnReceipt] using before.events

theorem UdpMove.ownReceipts (move : UdpMove p s a t) (before : OwnReceipts s)
    (admitted : findsOwn s (.udp a) = true) : OwnReceipts t := by
  have udp := before.udp
  cases move with
  | clean pc unfinished move =>
    have cleaned := move.ownReceipts before
    exact { cleaned with udp := by simp }
  | callRecv pc =>
    -- the one step in which the UDP thread is resolved to a socket
    refine { before with udp := fun owner waiting => ?_ }
    simp only [State.goto, UdpPc.inRecv.injEq] at waiting
    simpa [findsOwn, pc, waiting] using admitted
  | recvDatagram pc answer | recvEmpty pc answer =>
    have own := udp _ (recvfrom_socket answer ▸ pc)
    exact ⟨by simp, before.reply, by
      simpa [or_imp, forall_and, Event.OwnReceipt, own] using before.events⟩
  | @startThread d τ pc =>
    refine ⟨by simp, fun σ owner waiting => ?_, by
      simpa [or_imp, forall_and, Event.OwnReceipt] using before.events⟩
    by_cases own : σ = τ
    · simp [own] at waiting
    · exact before.reply σ owner (by simpa [own] using waiting)
  | test | retest | cleaned =>
    refine { before with udp := fun owner waiting => ?_ }
    dsimp only [State.goto] at waiting
    split at waiting <;> cases waiting
  | noThread pc => exact { before with }
  | _ =>
    exact ⟨by simp, before.reply, by
      simpa [or_imp, forall_and, Event.OwnReceipt] using before.events⟩

theorem ReplyMove.ownReceipts (move : ReplyMove p s σ a t) (before : OwnReceipts s)
    (admitted : findsOwn s (.reply σ a) = true) : OwnReceipts t where
  udp owner waiting := before.udp owner (move.quiet.udp ▸ waiting)
  reply τ owner waiting := by
    by_cases own : τ = σ
    · subst own
      cases move with
      | @callRecv _ fd pc =>
        -- a number may have gone to another socket since it was read
        have found : s.fds fd = some owner := by simpa using waiting
        simpa [findsOwn, pc, State.resolve, found] using admitted
      | testRunning | testMarked | recvFailed | sent =>
        simp only [State.gotoReply, State.log, Function.update_self] at waiting
        split at waiting <;> cases waiting
      | _ => simp at waiting
    · exact before.reply τ owner (move.frame.reply τ own ▸ waiting)
  events := by
    have reply := before.reply σ
    cases move with
    | recvDatagram pc answer | recvEmpty pc answer =>
      have own := reply _ (recvfrom_socket answer ▸ pc)
      simpa [or_imp, forall_and, Event.OwnReceipt, own] using before.events
    | _ => simpa [or_imp, forall_and, Event.OwnReceipt] using before.events

theorem Move.ownReceipts (move : Move p s action t) (before : OwnReceipts s)
    (admitted : findsOwn s action = true) : OwnReceipts t := by
  cases move with
  | udp move => exact move.ownReceipts before admitted
  | reply move => exact move.ownReceipts before admitted
  | stop move =>
    cases move with
    | clean pc unfinished move =>
      have cleaned := move.ownReceipts before
      exact { cleaned with }
    | _ => exact { before with }
  | foreignOpen =>
    exact { before with
      events := by simpa [or_imp, forall_and, Event.OwnReceipt] using before.events }
  | _ => exact { before with }

/-- In every run in which every call of `recvfrom` finds the caller's own socket or none. -/
theorem ownReceipts_reached
    (reached : (forwarder p).Reach (fun s action => findsOwn s action = true) s) :
    OwnReceipts s := by
  induction reached with
  | start init =>
    obtain ⟨fd, clock, outcome, endpoints, -, rfl⟩ := init
    exact ⟨by simp [started], by simp [started], by simp [started, Event.OwnReceipt]⟩
  | next _ admitted step ih => exact (step_move step).ownReceipts ih admitted

/-! ### Accounts under labels -/

theorem relayed_of_session : (s.trace.filterMap Event.relayed).filter (fun x => x.1 = σ) =
    (s.downward σ).sent.map fun parcel => (σ, parcel.2) := by
  rw [State.downward_sent, List.filter_filterMap, List.map_filterMap]
  congr 1
  funext e
  cases e with
  | sendClient τ socket dest remote payload =>
    by_cases own : τ = σ <;> simp [Event.relayed, Event.toClient, Option.filter, own]
  | _ => rfl

theorem heard_of_session : (s.trace.filterMap Event.heard).filter (fun x => x.1 = σ) =
    (s.downward σ).received.map fun parcel => (σ, parcel.2) := by
  rw [State.downward_received, List.filter_filterMap, List.map_filterMap]
  congr 1
  funext e
  cases e with
  | recvUpstream τ socket remote payload =>
    by_cases own : τ = σ <;> simp [Event.heard, Event.fromUpstream, Option.filter, own]
  | _ => rfl

/-- The reply loops together send no more than they have received, each for itself. -/
theorem relayed_heard (faithful : ∀ σ, (s.downward σ).Faithful) :
    (s.trace.filterMap Event.relayed).Subperm (s.trace.filterMap Event.heard) := by
  refine subperm_of_labels fun σ => ?_
  rw [relayed_of_session, heard_of_session]
  exact ((faithful σ).sent_sublist.map _).subperm

end PortForwardX.Udp
