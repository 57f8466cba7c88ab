import PortForwardX.Transition.Machine
import Mathlib.Logic.Function.Basic

/-!
# One TCP session

`ForwardSession` with its four actors: the worker that executes `Run`, the two
`RelayOneDirection` threads it starts, and the one `Stop` call that wins the
exchange on `stopping_`. Every step is one call on a socket, one member access or
one thread operation. The result of a `Recv` or `Send` is part of the action, as
is everything the two peers do.
-/
namespace PortForwardX.Tcp

open Transition

/-- The two sockets of a session. A relay is named after the socket it reads. -/
inductive Side where
  | client
  | upstream
  deriving DecidableEq, Repr

def Side.other : Side → Side
  | .client => .upstream
  | .upstream => .client

@[simp] theorem Side.other_other (d : Side) : d.other.other = d := by cases d <;> rfl

@[simp] theorem Side.other_ne (d : Side) : d.other ≠ d := by cases d <;> decide

@[simp] theorem Side.ne_other (d : Side) : d ≠ d.other := by cases d <;> decide

theorem Side.forall {P : Side → Prop} : (∀ d, P d) ↔ P .client ∧ P .upstream :=
  ⟨fun h => ⟨h _, h _⟩, fun h d => by cases d <;> simp [h]⟩

theorem Side.eq_or_other (d e : Side) : e = d ∨ e = d.other := by
  cases d <;> cases e <;> decide

/-- Size of the array `RelayOneDirection` relays through. -/
def bufferSize : Nat := 16 * 1024

/-- One socket of the session as the two ends see it. `arrived` is the peer's
stream as far as it has come, `taken` how much of it `Recv` has returned. `reset` says
that the peer has reset the connection and the error of that is no longer pending: the
call that takes it only fails. `held` says that the session's member has not been
overwritten with `kInvalidSocket`. -/
structure Socket where
  arrived : List UInt8 := []
  ended : Bool := false
  taken : Nat := 0
  readShut : Bool := false
  writeShut : Bool := false
  reset : Bool := false
  failed : Bool := false
  held : Bool := true
  isOpen : Bool := true
  deriving DecidableEq, Repr

/-- `ShutdownBoth` on an open socket. -/
@[simp] def Socket.shutdownBoth (k : Socket) : Socket :=
  { k with readShut := true, writeShut := true }

/-- Bytes that have arrived and that `Recv` has not returned yet. -/
def Socket.unread (k : Socket) : Nat := k.arrived.length - k.taken

/-- The connection has been reset, or the write side has been shut down: what `send` answers
with a signal. -/
def Socket.broken (k : Socket) : Bool := k.reset || k.writeShut

/-- How `RelayOneDirection` returned. -/
inductive Ending where
  | endOfStream
  | recvFailed
  | sendFailed
  deriving DecidableEq, Repr

/-- Control points of `RelayOneDirection`. `send` is the loop of `SendAll`, with
its argument `size` and its local `sent`. -/
inductive RelayPc where
  | notStarted
  | recv
  | send (size sent : Nat)
  | shutdownWrite
  | afterRecvError
  | afterSendError
  | afterSourceShut
  | ended (ending : Ending)
  deriving DecidableEq, Repr

def RelayPc.hasEnded : RelayPc → Bool
  | .ended _ => true
  | _ => false

structure Relay where
  pc : RelayPc := .notStarted
  buffer : List UInt8 := List.replicate bufferSize 0

/-- Control points of `Run` and the `CloseSockets` it calls. -/
inductive WorkerPc where
  | startUpstream
  | startDownstream
  | joinUpstream
  | joinDownstream
  | lock
  | close (side : Side)
  | invalidate (side : Side)
  | unlock
  | finish
  | done
  deriving DecidableEq, Repr

/-- Control points of the `Stop` call that found `stopping_` false. -/
inductive StopPc where
  | idle
  | lock
  | shutdown (side : Side)
  | unlock
  | done
  deriving DecidableEq, Repr

/-- Holder of `socket_mutex_`. -/
inductive Holder where
  | worker
  | stopper
  deriving DecidableEq, Repr

/-- Calls on the two sockets in the order they were made. -/
inductive Call where
  | recv (side : Side) (chunk : List UInt8)
  | recvEnd (side : Side)
  | recvError (side : Side)
  | send (side : Side) (chunk : List UInt8)
  | sendError (side : Side)
  | shutdownWrite (side : Side)
  | shutdownBoth (side : Side)
  | close (side : Side)
  deriving DecidableEq, Repr

/-- A use of the write side of `side`, whether it succeeds or not. -/
def Call.writesTo (side : Side) : Call → Bool
  | .send s _ | .sendError s | .shutdownWrite s => s == side
  | _ => false

/-- `trace` is history only: no step reads it. -/
structure State where
  socket : Side → Socket := fun _ => {}
  relay : Side → Relay := fun _ => {}
  worker : WorkerPc := .startUpstream
  stopPc : StopPc := .idle
  stopping : Bool := false
  finished : Bool := false
  socketMutex : Option Holder := none
  trace : List Call := []

inductive Action where
  | relay (source : Side) (result : Int)
  | worker
  | callStop
  | stop
  | arrive (side : Side) (bytes : List UInt8)
  | finishStream (side : Side)
  | peerReset (side : Side)
  deriving DecidableEq, Repr

namespace State

@[simp] def setSocket (s : State) (side : Side) (f : Socket → Socket) : State :=
  { s with socket := Function.update s.socket side (f (s.socket side)) }

@[simp] def setRelay (s : State) (d : Side) (r : Relay) : State :=
  { s with relay := Function.update s.relay d r }

@[simp] def goto (s : State) (d : Side) (pc : RelayPc) : State :=
  s.setRelay d { s.relay d with pc := pc }

@[simp] def call (s : State) (c : Call) : State := { s with trace := s.trace ++ [c] }

end State

/-- `Recv(source)` returned `result`: end of stream, an error, or a chunk that
overwrites the beginning of the reused buffer. A zero also stands for a read side
that has been shut down locally. -/
def recvStep (s : State) (d : Side) (result : Int) : Option State :=
  let source := s.socket d
  -- `received == 0`: the caller goes on to `ShutdownWrite(destination)`
  if result = 0 then
    if (source.ended ∧ source.taken = source.arrived.length) ∨ source.readShut then
      some ((s.call (.recvEnd d)).goto d .shutdownWrite)
    else none
  else if result < 0 then
    some (((s.setSocket d fun k => { k with failed := true }).call (.recvError d)).goto d
      .afterRecvError)
  else
    let received := result.toNat
    if received ≤ bufferSize ∧ source.taken + received ≤ source.arrived.length then
      let chunk := (source.arrived.drop source.taken).take received
      -- the bytes behind the chunk are left over from earlier reads
      let buffer := chunk ++ (s.relay d).buffer.drop received
      some (((s.setSocket d fun k => { k with taken := k.taken + received }).call
        (.recv d chunk)).setRelay d ⟨.send received 0, buffer⟩)
    else none

/-- One iteration of `SendAll`: `Send(destination, data + sent, size - sent)`
returned `result`. Where it does not return, since the connection is broken and the signal
ends the process, is the business of the machines that hold sessions. -/
def sendStep (s : State) (d : Side) (size sent : Nat) (result : Int) : Option State :=
  -- `chunk <= 0` makes `SendAll` return false
  if result ≤ 0 then
    some (((s.setSocket d.other fun k => { k with failed := true }).call
      (.sendError d.other)).goto d .afterSendError)
  else
    let chunk := result.toNat
    if chunk ≤ size - sent then
      let bytes := (((s.relay d).buffer.take size).drop sent).take chunk
      let next := s.call (.send d.other bytes)
      -- `while (sent < size)`
      if sent + chunk < size then some (next.goto d (.send size (sent + chunk)))
      else some (next.goto d .recv)
    else none

/-- The next instruction of `RelayOneDirection(source, destination)`. -/
def relayStep (s : State) (d : Side) (result : Int) : Option State :=
  match (s.relay d).pc with
  | .notStarted => none
  | .recv => recvStep s d result
  | .send size sent => sendStep s d size sent result
  | .shutdownWrite =>
    some (((s.setSocket d.other fun k => { k with writeShut := true }).call
      (.shutdownWrite d.other)).goto d (.ended .endOfStream))
  | .afterRecvError =>
    some (((s.setSocket d.other Socket.shutdownBoth).call (.shutdownBoth d.other)).goto d
      (.ended .recvFailed))
  -- first the source, then the destination
  | .afterSendError =>
    some (((s.setSocket d Socket.shutdownBoth).call (.shutdownBoth d)).goto d .afterSourceShut)
  | .afterSourceShut =>
    some (((s.setSocket d.other Socket.shutdownBoth).call (.shutdownBoth d.other)).goto d
      (.ended .sendFailed))
  | .ended _ => none

/-- The steps of a relay by name: what each presupposes and where it leads. -/
inductive RelayMove (s : State) (d : Side) : Int → State → Prop
  | recvEnd (pc : (s.relay d).pc = .recv)
      (drained : ((s.socket d).ended = true ∧
        (s.socket d).taken = (s.socket d).arrived.length) ∨ (s.socket d).readShut = true) :
      RelayMove s d 0 ((s.call (.recvEnd d)).goto d .shutdownWrite)
  | recvError {result : Int} (pc : (s.relay d).pc = .recv) (negative : result < 0) :
      RelayMove s d result (((s.setSocket d fun k => { k with failed := true }).call
        (.recvError d)).goto d .afterRecvError)
  | recvChunk {n : Nat} (pc : (s.relay d).pc = .recv) (positive : 0 < n) (fits : n ≤ bufferSize)
      (available : (s.socket d).taken + n ≤ (s.socket d).arrived.length) :
      RelayMove s d n (((s.setSocket d fun k => { k with taken := k.taken + n }).call
        (.recv d (((s.socket d).arrived.drop (s.socket d).taken).take n))).setRelay d
        ⟨.send n 0, ((s.socket d).arrived.drop (s.socket d).taken).take n ++
          (s.relay d).buffer.drop n⟩)
  | sendError {size sent : Nat} {result : Int} (pc : (s.relay d).pc = .send size sent)
      (refused : result ≤ 0) :
      RelayMove s d result (((s.setSocket d.other fun k => { k with failed := true }).call
        (.sendError d.other)).goto d .afterSendError)
  | sendPart {size sent n : Nat} (pc : (s.relay d).pc = .send size sent) (positive : 0 < n)
      (remains : sent + n < size) :
      RelayMove s d n ((s.call (.send d.other
        ((((s.relay d).buffer.take size).drop sent).take n))).goto d (.send size (sent + n)))
  | sendRest {size sent n : Nat} (pc : (s.relay d).pc = .send size sent) (positive : 0 < n)
      (fits : n ≤ size - sent) (last : size ≤ sent + n) :
      RelayMove s d n ((s.call (.send d.other
        ((((s.relay d).buffer.take size).drop sent).take n))).goto d .recv)
  | shutdownWrite {result : Int} (pc : (s.relay d).pc = .shutdownWrite) :
      RelayMove s d result (((s.setSocket d.other fun k => { k with writeShut := true }).call
        (.shutdownWrite d.other)).goto d (.ended .endOfStream))
  | abandonDestination {result : Int} (pc : (s.relay d).pc = .afterRecvError) :
      RelayMove s d result (((s.setSocket d.other Socket.shutdownBoth).call
        (.shutdownBoth d.other)).goto d (.ended .recvFailed))
  | abandonSource {result : Int} (pc : (s.relay d).pc = .afterSendError) :
      RelayMove s d result (((s.setSocket d Socket.shutdownBoth).call
        (.shutdownBoth d)).goto d .afterSourceShut)
  | abandonBoth {result : Int} (pc : (s.relay d).pc = .afterSourceShut) :
      RelayMove s d result (((s.setSocket d.other Socket.shutdownBoth).call
        (.shutdownBoth d.other)).goto d (.ended .sendFailed))

theorem recvStep_move {s t : State} {d : Side} {result : Int} (pc : (s.relay d).pc = .recv)
    (moved : recvStep s d result = some t) : RelayMove s d result t := by
  unfold recvStep at moved
  dsimp only at moved
  split at moved
  next zero =>
    split at moved
    · cases moved
      subst zero
      exact .recvEnd pc ‹_›
    · cases moved
  next nonzero =>
    split at moved
    next negative =>
      cases moved
      exact .recvError pc negative
    next positive =>
      split at moved
      next possible =>
        cases moved
        obtain ⟨n, rfl⟩ := Int.eq_ofNat_of_zero_le (Int.not_lt.mp positive)
        simp only [Int.toNat_natCast] at possible ⊢
        exact .recvChunk pc (by omega) possible.1 possible.2
      · cases moved

theorem sendStep_move {s t : State} {d : Side} {size sent : Nat} {result : Int}
    (pc : (s.relay d).pc = .send size sent) (moved : sendStep s d size sent result = some t) :
    RelayMove s d result t := by
  unfold sendStep at moved
  dsimp only at moved
  split at moved
  next refused =>
    cases moved
    exact .sendError pc refused
  next accepted =>
    obtain ⟨n, rfl⟩ := Int.eq_ofNat_of_zero_le (by omega : 0 ≤ result)
    simp only [Int.toNat_natCast] at moved
    split at moved
    next fits =>
      split at moved
      next remains =>
        cases moved
        exact .sendPart pc (by omega) remains
      next last =>
        cases moved
        exact .sendRest pc (by omega) fits (by omega)
    · cases moved

/-- Every step a relay takes is one of the named moves. -/
theorem relayStep_move {s t : State} {d : Side} {result : Int}
    (moved : relayStep s d result = some t) : RelayMove s d result t := by
  unfold relayStep at moved
  cases pc : (s.relay d).pc with
  | notStarted | ended _ => simp [pc] at moved
  | recv => exact recvStep_move pc (by simpa [pc] using moved)
  | send size sent => exact sendStep_move pc (by simpa [pc] using moved)
  | shutdownWrite =>
    simp only [pc, Option.some.injEq] at moved
    exact moved ▸ .shutdownWrite pc
  | afterRecvError =>
    simp only [pc, Option.some.injEq] at moved
    exact moved ▸ .abandonDestination pc
  | afterSendError =>
    simp only [pc, Option.some.injEq] at moved
    exact moved ▸ .abandonSource pc
  | afterSourceShut =>
    simp only [pc, Option.some.injEq] at moved
    exact moved ▸ .abandonBoth pc

/-- The next instruction of `Run`, with `CloseSockets` inlined. -/
def workerStep (s : State) : Option State :=
  match s.worker with
  -- the thread `upstream` reads the client
  | .startUpstream => some { s.goto .client .recv with worker := .startDownstream }
  | .startDownstream => some { s.goto .upstream .recv with worker := .joinUpstream }
  | .joinUpstream =>
    if (s.relay .client).pc.hasEnded then some { s with worker := .joinDownstream } else none
  | .joinDownstream =>
    if (s.relay .upstream).pc.hasEnded then some { s with worker := .lock } else none
  -- `CloseSockets` from here to `unlock`
  | .lock =>
    if s.socketMutex = none then
      some { s with socketMutex := some .worker, worker := .close .client }
    else none
  | .close side =>
    -- `!= kInvalidSocket`
    if (s.socket side).held then
      some { (s.setSocket side fun k => { k with isOpen := false }).call (.close side) with
        worker := .invalidate side }
    else
      match side with
      | .client => some { s with worker := .close .upstream }
      | .upstream => some { s with worker := .unlock }
  | .invalidate .client =>
    some { s.setSocket .client (fun k => { k with held := false }) with worker := .close .upstream }
  | .invalidate .upstream =>
    some { s.setSocket .upstream (fun k => { k with held := false }) with worker := .unlock }
  | .unlock => some { s with socketMutex := none, worker := .finish }
  | .finish => some { s with finished := true, worker := .done }
  | .done => none

/-- The steps of `Run` by name. -/
inductive WorkerMove (s : State) : State → Prop
  | startUpstream (pc : s.worker = .startUpstream) :
      WorkerMove s { s.goto .client .recv with worker := .startDownstream }
  | startDownstream (pc : s.worker = .startDownstream) :
      WorkerMove s { s.goto .upstream .recv with worker := .joinUpstream }
  | joinUpstream (pc : s.worker = .joinUpstream) (ended : (s.relay .client).pc.hasEnded = true) :
      WorkerMove s { s with worker := .joinDownstream }
  | joinDownstream (pc : s.worker = .joinDownstream)
      (ended : (s.relay .upstream).pc.hasEnded = true) : WorkerMove s { s with worker := .lock }
  | lock (pc : s.worker = .lock) (free : s.socketMutex = none) :
      WorkerMove s { s with socketMutex := some .worker, worker := .close .client }
  | close {side : Side} (pc : s.worker = .close side) (held : (s.socket side).held = true) :
      WorkerMove s { (s.setSocket side fun k => { k with isOpen := false }).call (.close side) with
        worker := .invalidate side }
  | skipClient (pc : s.worker = .close .client) (dropped : (s.socket .client).held = false) :
      WorkerMove s { s with worker := .close .upstream }
  | skipUpstream (pc : s.worker = .close .upstream) (dropped : (s.socket .upstream).held = false) :
      WorkerMove s { s with worker := .unlock }
  | invalidateClient (pc : s.worker = .invalidate .client) :
      WorkerMove s { s.setSocket .client (fun k => { k with held := false }) with
        worker := .close .upstream }
  | invalidateUpstream (pc : s.worker = .invalidate .upstream) :
      WorkerMove s { s.setSocket .upstream (fun k => { k with held := false }) with
        worker := .unlock }
  | unlock (pc : s.worker = .unlock) :
      WorkerMove s { s with socketMutex := none, worker := .finish }
  | finish (pc : s.worker = .finish) : WorkerMove s { s with finished := true, worker := .done }

theorem workerStep_move {s t : State} (moved : workerStep s = some t) : WorkerMove s t := by
  unfold workerStep at moved
  split at moved
  next pc => cases moved; exact .startUpstream pc
  next pc => cases moved; exact .startDownstream pc
  next pc =>
    split at moved
    next ended => cases moved; exact .joinUpstream pc ended
    · cases moved
  next pc =>
    split at moved
    next ended => cases moved; exact .joinDownstream pc ended
    · cases moved
  next pc =>
    split at moved
    next free => cases moved; exact .lock pc free
    · cases moved
  next side pc =>
    split at moved
    next held => cases moved; exact .close pc held
    next dropped =>
      have dropped : (s.socket side).held = false := Bool.eq_false_iff.mpr dropped
      cases side with
      | client => cases moved; exact .skipClient pc dropped
      | upstream => cases moved; exact .skipUpstream pc dropped
  next pc => cases moved; exact .invalidateClient pc
  next pc => cases moved; exact .invalidateUpstream pc
  next pc => cases moved; exact .unlock pc
  next pc => cases moved; exact .finish pc
  next => cases moved

/-- `ShutdownBoth` on a member: nothing happens on `kInvalidSocket`. -/
def shutdownMember (s : State) (side : Side) : State :=
  if (s.socket side).held then (s.setSocket side Socket.shutdownBoth).call (.shutdownBoth side)
  else s

/-- The next instruction of the `Stop` call that is under way. -/
def stopStep (s : State) : Option State :=
  match s.stopPc with
  | .idle => none
  | .lock =>
    if s.socketMutex = none then
      some { s with socketMutex := some .stopper, stopPc := .shutdown .client }
    else none
  | .shutdown .client => some { shutdownMember s .client with stopPc := .shutdown .upstream }
  | .shutdown .upstream => some { shutdownMember s .upstream with stopPc := .unlock }
  | .unlock => some { s with socketMutex := none, stopPc := .done }
  | .done => none

/-- The steps of `Stop` by name. -/
inductive StopMove (s : State) : State → Prop
  | lock (pc : s.stopPc = .lock) (free : s.socketMutex = none) :
      StopMove s { s with socketMutex := some .stopper, stopPc := .shutdown .client }
  | shutdownClient (pc : s.stopPc = .shutdown .client) :
      StopMove s { shutdownMember s .client with stopPc := .shutdown .upstream }
  | shutdownUpstream (pc : s.stopPc = .shutdown .upstream) :
      StopMove s { shutdownMember s .upstream with stopPc := .unlock }
  | unlock (pc : s.stopPc = .unlock) : StopMove s { s with socketMutex := none, stopPc := .done }

theorem stopStep_move {s t : State} (moved : stopStep s = some t) : StopMove s t := by
  unfold stopStep at moved
  split at moved
  next => cases moved
  next pc =>
    split at moved
    next free => cases moved; exact .lock pc free
    · cases moved
  next pc => cases moved; exact .shutdownClient pc
  next pc => cases moved; exact .shutdownUpstream pc
  next pc => cases moved; exact .unlock pc
  next => cases moved

@[simp] theorem shutdownMember_relay (s : State) (side : Side) :
    (shutdownMember s side).relay = s.relay := by
  unfold shutdownMember; split <;> rfl

@[simp] theorem shutdownMember_worker (s : State) (side : Side) :
    (shutdownMember s side).worker = s.worker := by
  unfold shutdownMember; split <;> rfl

@[simp] theorem shutdownMember_finished (s : State) (side : Side) :
    (shutdownMember s side).finished = s.finished := by
  unfold shutdownMember; split <;> rfl

@[simp] theorem shutdownMember_unread (s : State) (side d : Side) :
    ((shutdownMember s side).socket d).unread = (s.socket d).unread := by
  unfold shutdownMember
  split
  · rcases Side.eq_or_other side d with rfl | rfl <;> simp [Socket.unread]
  · rfl

/-- A call of `Stop`: `stopping_.exchange(true)` lets the first one continue and
makes every later one return. -/
def callStopStep (s : State) : State :=
  if s.stopping then s else { s with stopping := true, stopPc := .lock }

def step (s : State) : Action → Option State
  | .relay d result => relayStep s d result
  | .worker => workerStep s
  | .callStop => some (callStopStep s)
  | .stop => stopStep s
  | .arrive side bytes =>
    if (s.socket side).ended then none
    else some (s.setSocket side fun k => { k with arrived := k.arrived ++ bytes })
  | .finishStream side => some (s.setSocket side fun k => { k with ended := true })
  | .peerReset side => some (s.setSocket side fun k => { k with reset := true })

/-- The first call of `Stop` gets going, the later ones return. -/
theorem callStop_move {s t : State} (moved : step s .callStop = some t) :
    (s.stopping = true ∧ t = s) ∨
      (s.stopping = false ∧ t = { s with stopping := true, stopPc := .lock }) := by
  obtain rfl : callStopStep s = t := Option.some.inj moved
  unfold callStopStep
  split
  next called => exact .inl ⟨called, rfl⟩
  next fresh => exact .inr ⟨Bool.eq_false_iff.mpr fresh, rfl⟩

/-- Bytes arrive only before the end of the peer's stream. -/
theorem arrive_move {s t : State} {side : Side} {bytes : List UInt8}
    (moved : step s (.arrive side bytes) = some t) :
    (s.socket side).ended = false ∧
      t = s.setSocket side fun k => { k with arrived := k.arrived ++ bytes } := by
  simp only [step] at moved
  split at moved
  · cases moved
  next going => exact ⟨Bool.eq_false_iff.mpr going, (Option.some.inj moved).symm⟩

/-- A session right after `Start`: both sockets connected, nothing relayed yet. -/
def initial : State := {}

def session : Machine State Action := ⟨fun s => s = initial, step⟩

end PortForwardX.Tcp
