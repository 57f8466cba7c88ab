import PortForwardX.Conduit.Slot
import PortForwardX.Udp.Threads

/-!
# The two directions as one-slot relays

`UdpLoop` holds at most one client datagram, and the reply loop of a session at most one
reply. Projected onto what it has received, holds and has sent, every step of the
forwarder is a step of a one-slot relay that ought to keep the non-empty datagrams. The
only steps that lose one are failures of the environment.
-/
namespace PortForwardX.Udp

open Transition Net Conduit

/-- A sender and the bytes of its datagram. -/
abbrev Parcel := SockAddr × List UInt8

/-- Worth keeping for a loop that takes a result of zero for an end or a timeout. -/
def NonEmpty (parcel : Parcel) : Prop := parcel.2 ≠ []

instance : DecidablePred NonEmpty := fun parcel => inferInstanceAs (Decidable (parcel.2 ≠ []))

/-- Received on the listen socket. -/
def Event.fromClient : Event → Option Parcel
  | .recvListen _ client payload => some (client, payload)
  | _ => none

/-- Sent on to the target, under the client it was received from. -/
def Event.toTarget : Event → Option Parcel
  | .sendUpstream _ client _ _ payload _ => some (client, payload)
  | _ => none

/-- Received by the reply loop of `σ`. -/
def Event.fromUpstream (σ : SessionId) : Event → Option Parcel
  | .recvUpstream τ _ remote payload => if τ = σ then some (remote, payload) else none
  | _ => none

/-- Sent to its client by the reply loop of `σ`, under the remote it was received from. -/
def Event.toClient (σ : SessionId) : Event → Option Parcel
  | .sendClient τ _ _ remote payload => if τ = σ then some (remote, payload) else none
  | _ => none

/-- The reply a loop holds. -/
def ReplyPc.parcel : ReplyPc → Option Parcel
  | .readListen remote buffer | .callSend _ remote buffer => some (remote, buffer)
  | _ => none

/-- `UdpLoop` as a relay. -/
def State.upward (s : State) : Slot Parcel where
  received := s.trace.filterMap Event.fromClient
  hand := s.udp.datagram.map fun d => (d.client, d.buffer)
  sent := s.trace.filterMap Event.toTarget

/-- The reply loop of `σ` as a relay. -/
def State.downward (s : State) (σ : SessionId) : Slot Parcel where
  received := s.trace.filterMap (Event.fromUpstream σ)
  hand := (s.reply σ).parcel
  sent := s.trace.filterMap (Event.toClient σ)

/-- The client datagram in hand is given up: no target, no socket, or a failed `sendto`. -/
def losesDatagram (s : State) (a : Answer) : Bool :=
  match s.udp, a with
  | .snapshot _, _ => s.targetEndpoints.isEmpty
  | .createSocket _ [], _ => true
  | .sendTo _ _, .error _ => true
  | _, _ => false

/-- The reply in hand is given up: the `sendto` to the client failed. -/
def losesReply (s : State) (σ : SessionId) (a : Answer) : Bool :=
  match s.reply σ, a with
  | .callSend .., .error _ => true
  | _, _ => false

variable {p : Setup} {s t : State} {c c' : Cleanup} {a : Answer} {action : Action}
  {σ : SessionId}

theorem filterMap_of_filter {β : Type} {f : Event → Option β} {q : Event → Bool}
    (silent : ∀ e, q e = false → f e = none) {old new : List Event}
    (same : new.filter q = old.filter q) : new.filterMap f = old.filterMap f := by
  -- what the filter drops counts for nothing
  have seen : ∀ l : List Event, l.filterMap f = (l.filter q).filterMap f := by
    intro l
    rw [List.filterMap_filter]
    congr
    funext e
    by_cases kept : q e = true
    · simp [kept]
    · simp [silent e (by simpa using kept)]
  rw [seen new, seen old, same]

/-! ### Client to target -/

theorem Quiet.upward (quiet : Quiet s t) : t.upward = s.upward := by
  unfold State.upward
  rw [quiet.udp, filterMap_of_filter (f := Event.fromClient) _ quiet.events,
    filterMap_of_filter (f := Event.toTarget) _ quiet.events]
  all_goals
    intro e
    cases e <;> simp [Event.ofUdpLoop, Event.fromClient, Event.toTarget]

@[simp] theorem State.upward_received :
    s.upward.received = s.trace.filterMap Event.fromClient := rfl

@[simp] theorem State.upward_hand :
    s.upward.hand = s.udp.datagram.map fun d => (d.client, d.buffer) := rfl

@[simp] theorem State.upward_sent : s.upward.sent = s.trace.filterMap Event.toTarget := rfl

theorem UdpMove.upward (move : UdpMove p s a t) :
    Slot.Step NonEmpty (losesDatagram s a = true) s.upward t.upward := by
  cases move with
  | @recvDatagram _ socket owner client bytes pc answer some_ =>
    refine .take_of (x := (client, bytes)) some_ (.inl (by simp [pc, UdpPc.datagram])) ?_ rfl ?_ <;>
      simp [Event.fromClient, Event.toTarget]
  | @recvEmpty _ socket owner client pc answer =>
    refine .ignore_of (x := (client, [])) (.inl fun kept => kept rfl) ?_ ?_ ?_ <;>
      simp [pc, UdpPc.datagram, Event.fromClient, Event.toTarget]
  | @sent d σ owner pc | @sentEmpty d σ owner pc =>
    -- whatever `UdpLoop` makes of the result, the datagram is out
    refine .put_of (by simp [pc, UdpPc.datagram]; rfl) ?_ rfl ?_ <;>
      simp [Event.fromClient, Event.toTarget]
  | noTarget pc empty =>
    exact .drop_of (by simp [losesDatagram, pc, empty]) rfl rfl rfl
  | noSocket pc => exact .drop_of (by simp [losesDatagram, pc]) rfl rfl rfl
  | sendFailed pc =>
    refine .drop_of (by simp [losesDatagram, pc]) ?_ rfl ?_ <;>
      simp [Event.fromClient, Event.toTarget]
  | clean pc unfinished move =>
    -- no datagram is in hand during a cleanup
    refine .of_eq ?_
    rw [← move.quiet.upward]
    simp [State.upward, move.quiet.udp, pc, UdpPc.datagram]
  | test pc | retest pc | cleaned pc =>
    refine .of_eq ?_
    simp only [State.upward, State.goto, pc]
    split <;> rfl
  | _ pc =>
    exact .of_eq (by simp [State.upward, pc, UdpPc.datagram, Event.fromClient, Event.toTarget])

/-- Every step of the forwarder is a step of the client-to-target relay. -/
theorem Move.upward (move : Move p s action t) :
    Slot.Step NonEmpty (∃ a, action = .udp a ∧ losesDatagram s a = true) s.upward t.upward := by
  cases move with
  | udp move => exact move.upward.mono fun loss => ⟨_, rfl, loss⟩
  | reply move => exact .of_eq move.quiet.upward
  | stop move => exact .of_eq move.quiet.upward
  | foreignOpen =>
    exact .of_eq (Quiet.upward ⟨rfl, rfl, .refl _, fun _ => rfl, fun _ => rfl,
      by simp [Event.ofUdpLoop]⟩)
  | _ => exact .stay _

/-! ### Target to client -/

@[simp] theorem State.downward_received :
    (s.downward σ).received = s.trace.filterMap (Event.fromUpstream σ) := rfl

@[simp] theorem State.downward_hand : (s.downward σ).hand = (s.reply σ).parcel := rfl

@[simp] theorem State.downward_sent :
    (s.downward σ).sent = s.trace.filterMap (Event.toClient σ) := rfl

/-- The relay of a session depends on its loop's control point and events only. -/
theorem State.downward_eq (parcel : (t.reply σ).parcel = (s.reply σ).parcel)
    (events : t.trace.filter (Event.ofReply σ) = s.trace.filter (Event.ofReply σ)) :
    t.downward σ = s.downward σ := by
  unfold State.downward
  rw [parcel, filterMap_of_filter (f := Event.fromUpstream σ) _ events,
    filterMap_of_filter (f := Event.toClient σ) _ events]
  all_goals
    intro e
    cases e <;> simp [Event.ofReply, Event.fromUpstream, Event.toClient]

theorem ReplyMove.downward (move : ReplyMove p s σ a t) :
    Slot.Step NonEmpty (losesReply s σ a = true) (s.downward σ) (t.downward σ) := by
  cases move with
  | @recvDatagram _ socket owner remote bytes pc answer some_ =>
    refine .take_of (x := (remote, bytes)) some_ (.inl (by simp [pc, ReplyPc.parcel])) ?_ ?_ ?_ <;>
      simp [Event.fromUpstream, Event.toClient, ReplyPc.parcel]
  | @recvEmpty _ socket owner remote pc answer =>
    refine .ignore_of (x := (remote, [])) (.inl fun kept => kept rfl) ?_ ?_ ?_ <;>
      simp [pc, ReplyPc.parcel, Event.fromUpstream, Event.toClient]
  | @sent socket owner remote buffer pc open_ =>
    refine .put_of (x := (remote, buffer)) (by simp [pc, ReplyPc.parcel]) ?_ ?_ ?_
    · simp [Event.fromUpstream]
    · by_cases none_ : buffer = [] <;> simp [ReplyPc.parcel, none_]
    · simp [Event.toClient]
  | sendFailed pc =>
    refine .drop_of (by simp [losesReply, pc]) ?_ ?_ ?_ <;>
      simp [ReplyPc.parcel, Event.fromUpstream, Event.toClient]
  | testRunning pc | testMarked pc | recvFailed pc =>
    -- empty-handed on both branches
    refine .of_eq (State.downward_eq ?_ rfl)
    simp only [State.gotoReply, Function.update_self, pc]
    split <;> rfl
  | callRecv pc =>
    refine .of_eq ?_
    simp [State.downward, pc, ReplyPc.parcel, Event.fromUpstream, Event.toClient]
  | _ pc => exact .of_eq (State.downward_eq (by simp [pc, ReplyPc.parcel]) rfl)

/-- Another thread finds the loop empty-handed, if it does anything to it. -/
theorem Move.parcel (move : Move p s action t) (threads : Threads s)
    (other : ∀ a, action ≠ .reply σ a) : (t.reply σ).parcel = (s.reply σ).parcel := by
  rcases move.others other with same | ⟨preparing, begun⟩ | ⟨ended, joined⟩
  · rw [same]
  · simp [begun, (threads.prepared σ preparing).2.1, ReplyPc.parcel]
  · simp [ended, joined, ReplyPc.parcel]

/-- Every step of the forwarder is a step of every session's target-to-client relay. -/
theorem Move.downward (move : Move p s action t) (threads : Threads s) :
    Slot.Step NonEmpty (∃ a, action = .reply σ a ∧ losesReply s σ a = true) (s.downward σ)
      (t.downward σ) := by
  by_cases own : ∃ a, action = .reply σ a
  · obtain ⟨a, rfl⟩ := own
    cases move with
    | reply move => exact move.downward.mono fun loss => ⟨_, rfl, loss⟩
  · -- nobody else touches what the loop holds or adds to its events
    have other : ∀ a, action ≠ .reply σ a := fun a same => own ⟨a, same⟩
    exact .of_eq (State.downward_eq (move.parcel threads other) (move.replyEvents other))

/-! ### Parcels and events -/

theorem State.mem_upward_sent {σ : SessionId} {client : SockAddr} {socket : Owner}
    {dest : SockAddr} {payload : List UInt8} {marks : Bool}
    (member : .sendUpstream σ client socket dest payload marks ∈ s.trace) :
    (client, payload) ∈ s.upward.sent :=
  List.mem_filterMap.mpr ⟨_, member, rfl⟩

theorem State.mem_downward_received {parcel : Parcel} :
    parcel ∈ (s.downward σ).received ↔
      ∃ socket, .recvUpstream σ socket parcel.1 parcel.2 ∈ s.trace := by
  simp only [State.downward_received, List.mem_filterMap]
  constructor
  · rintro ⟨e, member, shape⟩
    cases e <;> simp only [Event.fromUpstream, Option.ite_none_right_eq_some, Option.some.injEq,
      reduceCtorEq] at shape
    obtain ⟨rfl, rfl⟩ := shape
    exact ⟨_, member⟩
  · rintro ⟨socket, member⟩
    exact ⟨_, member, by simp [Event.fromUpstream]⟩

theorem State.mem_downward_sent {socket : Owner} {dest remote : SockAddr} {payload : List UInt8}
    (member : .sendClient σ socket dest remote payload ∈ s.trace) :
    (remote, payload) ∈ (s.downward σ).sent :=
  List.mem_filterMap.mpr ⟨_, member, by simp [Event.toClient]⟩

/-- Both directions, as relays, in every run. -/
theorem relays_faithful {ok : State → Action → Prop} (reached : (forwarder p).Reach ok s) :
    s.upward.Faithful ∧ ∀ σ, (s.downward σ).Faithful := by
  induction reached with
  | start init =>
    obtain ⟨fd, clock, outcome, endpoints, -, rfl⟩ := init
    exact ⟨List.Sublist.refl [], fun σ => List.Sublist.refl []⟩
  | next before admitted step ih =>
    have move := step_move step
    exact ⟨move.upward.faithful ih.1, fun σ =>
      (move.downward (threads_reached before)).faithful (ih.2 σ)⟩

/-- `UdpLoop` holds and forwards nothing empty. -/
theorem upward_wanted {ok : State → Action → Prop} (reached : (forwarder p).Reach ok s) :
    s.upward.Wanted NonEmpty := by
  induction reached with
  | start init =>
    obtain ⟨fd, clock, outcome, endpoints, -, rfl⟩ := init
    simp [Slot.Wanted, started, UdpPc.datagram, Event.toTarget]
  | next _ _ step ih => exact (step_move step).upward.wanted ih

/-- The reply loops hold and relay nothing empty. -/
theorem downward_wanted {ok : State → Action → Prop} (reached : (forwarder p).Reach ok s) :
    (s.downward σ).Wanted NonEmpty := by
  induction reached with
  | start init =>
    obtain ⟨fd, clock, outcome, endpoints, -, rfl⟩ := init
    simp [Slot.Wanted, started, ReplyPc.parcel, Event.toClient]
  | next before _ step ih => exact ((step_move step).downward (threads_reached before)).wanted ih

end PortForwardX.Udp
