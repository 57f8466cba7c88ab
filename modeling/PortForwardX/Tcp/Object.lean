import PortForwardX.Platform.Socket
import PortForwardX.Tcp.Control

/-!
# The life of a `ForwardSession` object

A session as its owner sees it, from `Start` to the end of the destructor, with the
descriptor numbers behind its two sockets. A relay copies the members into the arguments
of `RelayOneDirection` when its thread starts; `Stop` and `CloseSockets` read the members
themselves. The system gives closed numbers to other sockets of the process.
-/
namespace PortForwardX.Tcp

open Transition

/-- Who a descriptor number belongs to while it is open. -/
inductive Owner where
  | session (side : Side)
  | foreign
  deriving DecidableEq, Repr

/-- The arguments of `RelayOneDirection`, as far as its thread has copied them. -/
inductive Arguments where
  | unread
  | source (source : SocketHandle)
  | both (source destination : SocketHandle)
  deriving DecidableEq, Repr

/-- Control points of `Join`. `byWorker` says that the caller is the worker itself. -/
inductive JoinPc where
  | idle
  | testJoinable (byWorker : Bool)
  | testSelf (byWorker : Bool)
  | join
  deriving DecidableEq, Repr

/-- Control points of `~ForwardSession`. -/
inductive DestructorPc where
  | alive
  | callStop
  | inStop
  | callJoin
  | inJoin
  | gone
  deriving DecidableEq, Repr

def Call.side : Call → Side
  | .recv side _ | .recvEnd side | .recvError side | .send side _ | .sendError side
  | .shutdownWrite side | .shutdownBoth side | .close side => side

/-- A call with the handle it was given and the owner of that number at the time. -/
structure NumberedCall where
  call : Call
  handle : SocketHandle
  owner : Option Owner
  deriving DecidableEq, Repr

/-- `calls` and `answers` are history only. -/
structure Object where
  session : State := initial
  number : Side → Nat
  fds : Nat → Option Owner
  arguments : Side → Arguments := fun _ => .unread
  joinable : Bool := true
  join : JoinPc := .idle
  destructor : DestructorPc := .alive
  calls : List NumberedCall := []
  answers : List Bool := []

inductive ObjectAction where
  | relay (source : Side) (result : Int)
  | worker
  | callStop
  | stop
  | callJoin (byWorker : Bool)
  | join
  | isFinished
  | destroy
  | destructor
  | peer (a : Action)
  | foreignOpen (fd : Nat)
  | foreignClose (fd : Nat)
  deriving DecidableEq, Repr

namespace Object

/-- `client_socket_` or `upstream_socket_`. -/
def member (o : Object) (side : Side) : SocketHandle :=
  if (o.session.socket side).held then some (o.number side) else kInvalidSocket

/-- The session moves to `t`. The calls it makes on a side go to the handle of that side,
and a close frees the number. -/
def advance (o : Object) (t : State) (handle : Side → SocketHandle) : Object :=
  let made := t.trace.drop o.session.trace.length
  { o with
    session := t
    fds := fun fd => if made.any fun c => c == .close c.side && handle c.side == some fd then none
      else o.fds fd
    calls := o.calls ++ made.map fun c => ⟨c, handle c.side, (handle c.side).bind o.fds⟩ }

/-- The thread that reads `d`: it copies the two members and then executes
`RelayOneDirection`. -/
def relayStep (o : Object) (d : Side) (result : Int) : Option Object :=
  match o.arguments d with
  | .unread =>
    if (o.session.relay d).pc = .notStarted then none
    else some { o with arguments := Function.update o.arguments d (.source (o.member d)) }
  | .source source =>
    some { o with arguments := Function.update o.arguments d (.both source (o.member d.other)) }
  | .both source destination =>
    (Tcp.relayStep o.session d result).map fun t =>
      o.advance t fun side => if side = d then source else destination

/-- The next instruction of `Join`. -/
def joinStep (o : Object) : Option Object :=
  match o.join with
  | .idle => none
  | .testJoinable byWorker =>
    some { o with join := if o.joinable then .testSelf byWorker else .idle }
  | .testSelf byWorker =>
    -- the worker would wait for itself and is detached instead
    if byWorker then some { o with joinable := false, join := .idle }
    else some { o with join := .join }
  | .join =>
    if o.session.worker = .done then some { o with joinable := false, join := .idle } else none

/-- The next instruction of the destructor: `Stop` and then `Join`. -/
def destructorStep (o : Object) : Option Object :=
  match o.destructor with
  | .alive | .gone => none
  | .callStop => some { o with session := callStopStep o.session, destructor := .inStop }
  | .inStop =>
    if o.session.stopPc = .idle ∨ o.session.stopPc = .done then
      some { o with destructor := .callJoin }
    else none
  | .callJoin => some { o with join := .testJoinable false, destructor := .inJoin }
  | .inJoin => if o.join = .idle then some { o with destructor := .gone } else none

/-- What the two peers do. -/
def peerStep (o : Object) (a : Action) : Option Object :=
  match a with
  | .arrive .. | .finishStream _ | .peerReset _ =>
    (Tcp.step o.session a).map fun t => { o with session := t }
  | _ => none

/-- One step. Members are called on a living object only, `Join` by one caller at a time,
and the destructor begins when no other call is under way. -/
def step (o : Object) : ObjectAction → Option Object
  | .relay d result => o.relayStep d result
  | .worker => (workerStep o.session).map fun t => o.advance t o.member
  | .callStop =>
    if o.destructor = .alive then some { o with session := callStopStep o.session } else none
  | .stop => (stopStep o.session).map fun t => o.advance t o.member
  | .callJoin byWorker =>
    if o.destructor = .alive ∧ o.join = .idle then
      some { o with join := .testJoinable byWorker }
    else none
  | .join => o.joinStep
  | .isFinished =>
    if o.destructor = .alive then some { o with answers := o.answers ++ [o.session.finished] }
    else none
  | .destroy =>
    if o.destructor = .alive ∧ o.join = .idle ∧
        (o.session.stopPc = .idle ∨ o.session.stopPc = .done) then
      some { o with destructor := .callStop }
    else none
  | .destructor => o.destructorStep
  | .peer a => o.peerStep a
  | .foreignOpen fd =>
    if o.fds fd = none then some { o with fds := Function.update o.fds fd (some .foreign) } else none
  | .foreignClose fd =>
    if o.fds fd = some .foreign then some { o with fds := Function.update o.fds fd none } else none

end Object

/-- A session that has been started, on two open sockets with different numbers. -/
def object : Machine Object ObjectAction where
  Init o := ∃ number fds, number .client ≠ number .upstream ∧
    (∀ d, fds (number d) = some (.session d)) ∧ o = { number := number, fds := fds }
  step := Object.step

/-- `Join` is called from other threads than the worker. -/
def outside (_ : Object) : ObjectAction → Bool
  | .callJoin byWorker => !byWorker
  | _ => true

end PortForwardX.Tcp
