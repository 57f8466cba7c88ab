import PortForwardX.Udp.Attribution

/-!
# Two UDP forwarders in a row

The target of the front forwarder is the listen address of the back forwarder, whose target
answers as it likes. Each forwarder runs by its own steps. The network between them loses
and reorders datagrams, but neither duplicates nor forges them: what one side sends is put
on the way, and what the other receives is taken from there. A datagram that is lost stays
on the way.
-/
namespace PortForwardX.Chain

open Transition Net Conduit

open Udp (SessionId Owner Payload Parcel forwarder arrival)

/-- The two forwarders, and the source addresses the system gives to the upstream socket of
each of their sessions. -/
structure Setup where
  front : Udp.Setup
  back : Udp.Setup
  listen : SockAddr
  frontSource : SessionId → SockAddr
  backSource : SessionId → SockAddr

/-- The forwarders, what is on the way and what the final target has sent. -/
structure State where
  front : Udp.State
  back : Udp.State
  /-- To the listen socket of the back, with the source. -/
  up : List Parcel := []
  /-- From the back to its clients, with the destination. -/
  down : List Parcel := []
  /-- From the final target to upstream sockets of the back, with the destination. -/
  inward : List Parcel := []
  /-- All that the final target has sent, with the session whose socket it was sent to. -/
  answers : List (SessionId × List UInt8) := []

inductive Action where
  | front (a : Udp.Action)
  | back (a : Udp.Action)
  | answer (session : SessionId) (payload : Payload)

/-- What a forwarder has done between two states of a run. -/
def since (s t : Udp.State) : List Udp.Event := t.trace.drop s.trace.length

/-- A datagram that the front sends to the back. -/
def ascends (p : Setup) : Udp.Event → Option Parcel
  | .sendUpstream _ _ (.upstream σ) dest payload _ =>
    if dest = p.listen then some (p.frontSource σ, payload) else none
  | _ => none

/-- What is left on the way to the front when it takes a step. Its clients are free to send,
and so is whoever reaches a socket of another part of the process. -/
def frontTakes (p : Setup) (x : State) (a : Udp.Action) : Option (List Parcel) :=
  match arrival x.front a with
  | some (.upstream σ, _, payload) => Bag.take x.down (p.frontSource σ, payload)
  | _ => some x.down

/-- What is left on the ways to the back, from the front and from the final target, when it
takes a step. -/
def backTakes (p : Setup) (x : State) (a : Udp.Action) : Option (List Parcel × List Parcel) :=
  match arrival x.back a with
  | some (.listen, parcel) => (Bag.take x.up parcel).map fun up => (up, x.inward)
  | some (.upstream g, _, payload) =>
    (Bag.take x.inward (p.backSource g, payload)).map fun inward => (x.up, inward)
  | _ => some (x.up, x.inward)

def step (p : Setup) (x : State) : Action → Option State
  | .front a =>
    match (forwarder p.front).step x.front a, frontTakes p x a with
    | some t, some down =>
      some { x with
        front := t
        up := x.up ++ (since x.front t).filterMap (ascends p)
        down := down }
    | _, _ => none
  | .back a =>
    match (forwarder p.back).step x.back a, backTakes p x a with
    | some t, some (up, inward) =>
      some { x with
        back := t
        up := up
        down := x.down ++ (since x.back t).filterMap Udp.Event.delivered
        inward := inward }
    | _, _ => none
  | .answer g payload =>
    -- a socket can be sent to once it has been opened
    if g < x.back.nextSession then
      some { x with
        inward := x.inward ++ [(p.backSource g, payload.bytes)]
        answers := x.answers ++ [(g, payload.bytes)] }
    else none

/-- The pair from the return of both `Start` calls on. -/
def chain (p : Setup) : Machine State Action where
  Init x := ∃ front back, (forwarder p.front).Init front ∧ (forwarder p.back).Init back ∧
    x = { front, back }
  step := step p

/-- No thread of either forwarder calls `recvfrom` on a number that has gone to another
socket. -/
def findsOwn (x : State) : Action → Bool
  | .front a => Udp.findsOwn x.front a
  | .back a => Udp.findsOwn x.back a
  | .answer .. => true

variable {p : Setup} {x y : State}

/-! ### The steps by name -/

/-- What a step presupposes and where it leads. -/
inductive Move (p : Setup) (x : State) : Action → State → Prop
  | front {a : Udp.Action} {t : Udp.State} {down : List Parcel}
      (step : (forwarder p.front).step x.front a = some t) (takes : frontTakes p x a = some down) :
      Move p x (.front a) { x with
        front := t
        up := x.up ++ (since x.front t).filterMap (ascends p)
        down := down }
  | back {a : Udp.Action} {t : Udp.State} {up inward : List Parcel}
      (step : (forwarder p.back).step x.back a = some t)
      (takes : backTakes p x a = some (up, inward)) :
      Move p x (.back a) { x with
        back := t
        up := up
        down := x.down ++ (since x.back t).filterMap Udp.Event.delivered
        inward := inward }
  | answer {g : SessionId} {payload : Payload} (allocated : g < x.back.nextSession) :
      Move p x (.answer g payload) { x with
        inward := x.inward ++ [(p.backSource g, payload.bytes)]
        answers := x.answers ++ [(g, payload.bytes)] }

theorem step_move {action : Action} (moved : (chain p).step x action = some y) :
    Move p x action y := by
  cases action with
  | front a | back a =>
    simp only [chain, step] at moved
    split at moved
    next taken takes =>
      cases moved
      constructor <;> assumption
    · cases moved
  | answer g payload =>
    simp only [chain, step, Option.ite_none_right_eq_some, Option.some.injEq] at moved
    obtain ⟨allocated, rfl⟩ := moved
    exact .answer allocated

/-! ### Each forwarder by itself -/

theorem reach_front {ok : State → Action → Prop} (ok' : Udp.State → Udp.Action → Prop)
    (weaker : ∀ x a, ok x (.front a) → ok' x.front a) (reached : (chain p).Reach ok x) :
    (forwarder p.front).Reach ok' x.front := by
  induction reached with
  | start init =>
    obtain ⟨front, back, frontInit, -, rfl⟩ := init
    exact .start frontInit
  | next _ admitted moved ih =>
    cases step_move moved with
    | front step takes => exact .next ih (weaker _ _ admitted) step
    | _ => exact ih

theorem reach_back {ok : State → Action → Prop} (ok' : Udp.State → Udp.Action → Prop)
    (weaker : ∀ x a, ok x (.back a) → ok' x.back a) (reached : (chain p).Reach ok x) :
    (forwarder p.back).Reach ok' x.back := by
  induction reached with
  | start init =>
    obtain ⟨front, back, -, backInit, rfl⟩ := init
    exact .start backInit
  | next _ admitted moved ih =>
    cases step_move moved with
    | back step takes => exact .next ih (weaker _ _ admitted) step
    | _ => exact ih

/-! ### A sample pair

The sample forwarder in front, whose target is the listen address of the back. -/

namespace Sample

def frontSource (σ : SessionId) : SockAddr := Udp.Sample.inet (50000 + σ.toUInt16) 198 51 100 1

def backSource (g : SessionId) : SockAddr := Udp.Sample.inet (60000 + g.toUInt16) 203 0 113 1

/-- The final target. -/
def target : SockAddr := Udp.Sample.inet 53 203 0 113 9

def back : Udp.Setup where
  platform := .posix
  config := { targetHost := "203.0.113.9", udpSessionIdleTimeoutSeconds := 2 }
  getnameinfo address :=
    if address = frontSource 0 then some ("198.51.100.1", "50000")
    else if address = frontSource 1 then some ("198.51.100.1", "50001")
    else none

def setup : Setup where
  front := Udp.Sample.setup
  back := back
  listen := Udp.Sample.server
  frontSource := frontSource
  backSource := backSource

def initial : State where
  front := Udp.Sample.initial
  back := Udp.started 3 0 [⟨.inet, target.bytes, _, rfl⟩]

theorem initial_init : (chain setup).Init initial :=
  ⟨_, _, Udp.Sample.initial_init, ⟨3, 0, .found [⟨.inet, some target.bytes⟩], _, rfl, rfl⟩, rfl⟩

end Sample

end PortForwardX.Chain
