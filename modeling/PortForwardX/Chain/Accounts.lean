import PortForwardX.Chain.Step

/-!
# The ways between the forwarders as channels

Projected onto what the threads at their ends have sent and received, each of the three
ways is a channel on which nothing arrives that was not sent, and nothing more often.
-/
namespace PortForwardX.Chain

open Transition Net Conduit

open Udp (SessionId Owner Payload Parcel forwarder arrival)

/-- Out of the listen socket, with the sender. -/
def atListen : Owner × Parcel → Option Parcel
  | (.listen, parcel) => some parcel
  | _ => none

/-- Out of an upstream socket, with the address of the socket. -/
def atUpstream (source : SessionId → SockAddr) : Owner × Parcel → Option Parcel
  | (.upstream σ, parcel) => some (source σ, parcel.2)
  | _ => none

def receipts (s : Udp.State) : List (Owner × Parcel) := s.trace.filterMap Udp.Event.receipt

/-- The way from the front to the listen socket of the back. -/
def State.upBag (p : Setup) (x : State) : Bag Parcel where
  sent := x.front.trace.filterMap (ascends p)
  flying := x.up
  arrived := (receipts x.back).filterMap atListen

/-- The way from the back to the upstream sockets of the front. -/
def State.downBag (p : Setup) (x : State) : Bag Parcel where
  sent := x.back.trace.filterMap Udp.Event.delivered
  flying := x.down
  arrived := (receipts x.front).filterMap (atUpstream p.frontSource)

/-- The way from the final target to the upstream sockets of the back. -/
def State.inwardBag (p : Setup) (x : State) : Bag Parcel where
  sent := relabel p.backSource x.answers
  flying := x.inward
  arrived := (receipts x.back).filterMap (atUpstream p.backSource)

/-- All three ways. -/
structure Conserved (p : Setup) (x : State) : Prop where
  up : (x.upBag p).Conserved
  down : (x.downBag p).Conserved
  inward : (x.inwardBag p).Conserved

variable {p : Setup} {x y : State} {a : Udp.Action} {sent arrived : List Parcel}

/-! ### What arrives comes from the way -/

theorem frontTakes_conserved {down : List Parcel} (takes : frontTakes p x a = some down)
    (before : Bag.Conserved ⟨sent, x.down, arrived⟩) :
    Bag.Conserved ⟨sent, down,
      arrived ++ (arrival x.front a).toList.filterMap (atUpstream p.frontSource)⟩ := by
  unfold frontTakes at takes
  split at takes
  next σ sender payload come =>
    simpa [come, atUpstream] using before.take takes
  next elsewhere =>
    -- nothing comes out of an upstream socket
    obtain rfl := Option.some.inj takes
    have none_ : (arrival x.front a).toList.filterMap (atUpstream p.frontSource) = [] := by
      cases come : arrival x.front a with
      | none => rfl
      | some receipt =>
        obtain ⟨owner, sender, payload⟩ := receipt
        cases owner with
        | upstream σ => exact absurd come (elsewhere σ sender payload)
        | _ => rfl
    rwa [none_, List.append_nil]

theorem backTakes_conserved {up inward sent' arrived' : List Parcel}
    (takes : backTakes p x a = some (up, inward))
    (upBefore : Bag.Conserved ⟨sent, x.up, arrived⟩)
    (inwardBefore : Bag.Conserved ⟨sent', x.inward, arrived'⟩) :
    Bag.Conserved ⟨sent, up, arrived ++ (arrival x.back a).toList.filterMap atListen⟩ ∧
      Bag.Conserved ⟨sent', inward,
        arrived' ++ (arrival x.back a).toList.filterMap (atUpstream p.backSource)⟩ := by
  unfold backTakes at takes
  split at takes
  next parcel come =>
    obtain ⟨rest, taken, same⟩ := Option.map_eq_some_iff.mp takes
    obtain ⟨rfl, rfl⟩ := Prod.mk.inj same
    exact ⟨by simpa [come, atListen] using upBefore.take taken,
      by simpa [come, atUpstream, List.filterMap_cons] using inwardBefore⟩
  next g sender payload come =>
    obtain ⟨rest, taken, same⟩ := Option.map_eq_some_iff.mp takes
    obtain ⟨rfl, rfl⟩ := Prod.mk.inj same
    exact ⟨by simpa [come, atListen, List.filterMap_cons] using upBefore,
      by simpa [come, atUpstream] using inwardBefore.take taken⟩
  next notListen notUpstream =>
    obtain ⟨rfl, rfl⟩ := Prod.mk.inj (Option.some.inj takes)
    cases come : arrival x.back a with
    | none => exact ⟨by simpa using upBefore, by simpa using inwardBefore⟩
    | some receipt =>
      obtain ⟨owner, parcel⟩ := receipt
      cases owner with
      | listen => exact absurd come (notListen parcel)
      | upstream g => exact absurd come (notUpstream g parcel.1 parcel.2)
      | foreign =>
        -- a socket of another part of the process is at the end of neither way
        exact ⟨by simpa [atListen, List.filterMap_cons] using upBefore,
          by simpa [atUpstream, List.filterMap_cons] using inwardBefore⟩

/-! ### Every step keeps the accounts -/

theorem trace_since {s t : Udp.State} (history : s.trace <+: t.trace) :
    t.trace = s.trace ++ since s t :=
  (List.prefix_iff_eq_append.mp history).symm

/-- What a step of a forwarder adds to a way that starts at it. -/
theorem filterMap_since {s t : Udp.State} (f : Udp.Event → Option Parcel)
    (history : s.trace <+: t.trace) :
    t.trace.filterMap f = s.trace.filterMap f ++ (since s t).filterMap f := by
  conv_lhs => rw [trace_since history]
  exact List.filterMap_append

/-- What a step of a forwarder adds to a way that ends at it. -/
theorem receipts_step {q : Udp.Setup} {s t : Udp.State} (f : Owner × Parcel → Option Parcel)
    (move : Udp.Move q s a t) :
    (receipts t).filterMap f = (receipts s).filterMap f ++ (arrival s a).toList.filterMap f := by
  rw [receipts, move.receipts, List.filterMap_append]
  rfl

theorem Move.conserved {action : Action} (move : Move p x action y) (before : Conserved p x) :
    Conserved p y := by
  cases move with
  | front step takes =>
    have moved := Udp.step_move step
    refine ⟨?_, ?_, before.inward⟩
    · simpa only [State.upBag, filterMap_since (ascends p) moved.history] using
        before.up.send _
    · simpa only [State.downBag, receipts_step (atUpstream p.frontSource) moved] using
        frontTakes_conserved takes before.down
  | back step takes =>
    have moved := Udp.step_move step
    obtain ⟨up, inward⟩ := backTakes_conserved takes before.up before.inward
    refine ⟨?_, ?_, ?_⟩
    · simpa only [State.upBag, receipts_step atListen moved] using up
    · simpa only [State.downBag, filterMap_since Udp.Event.delivered moved.history] using
        before.down.send _
    · simpa only [State.inwardBag, receipts_step (atUpstream p.backSource) moved] using inward
  | answer allocated =>
    refine ⟨before.up, before.down, ?_⟩
    simpa only [State.inwardBag, relabel, List.map_append, List.map_singleton] using
      before.inward.send [_]

/-- On every way, in every run. -/
theorem conserved_reached {ok : State → Action → Prop} (reached : (chain p).Reach ok x) :
    Conserved p x := by
  induction reached with
  | start init =>
    obtain ⟨front, back, ⟨fd, clock, outcome, endpoints, -, rfl⟩,
      ⟨fd', clock', outcome', endpoints', -, rfl⟩, rfl⟩ := init
    exact ⟨Bag.conserved_empty, Bag.conserved_empty, Bag.conserved_empty⟩
  | next _ _ moved ih => exact (step_move moved).conserved ih

/-- The final target answers sessions that there are. -/
theorem answers_allocated {ok : State → Action → Prop} (reached : (chain p).Reach ok x) :
    ∀ d ∈ x.answers, d.1 < x.back.nextSession := by
  induction reached with
  | start init =>
    obtain ⟨front, back, -, -, rfl⟩ := init
    simp
  | next _ _ moved ih =>
    cases step_move moved with
    | front step takes => exact ih
    | back step takes =>
      exact fun d member => (ih d member).trans_le (Udp.step_move step).fixed.next
    | answer allocated => simpa [or_imp, forall_and, allocated] using ih

end PortForwardX.Chain
