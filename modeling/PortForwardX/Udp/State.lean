import PortForwardX.Transition.Machine
import PortForwardX.Platform.Socket
import PortForwardX.Net.Endpoint
import PortForwardX.Net.Resolver
import Mathlib.Logic.Function.Basic

/-!
# State of the UDP forwarder

`Forwarder::Impl` after a successful `Start` for UDP: the UDP thread, one reply loop for
each session, the resolver thread and the one `Stop` call that finds `running_` set.
Every flag load, member access and system call is a step of its own. Descriptor numbers
are given out by the system, which reuses them, to this forwarder and to the rest of the
process.
-/
namespace PortForwardX.Udp

open Net

/-- Identity of a `UdpSession` object. -/
abbrev SessionId := Nat

/-- Who a descriptor number belongs to while it is open. -/
inductive Owner where
  | listen
  | upstream (session : SessionId)
  | foreign
  deriving DecidableEq, Repr

/-- The largest payload a UDP datagram can carry. -/
def maxPayload : Nat := 65527

/-- Size of the arrays `UdpLoop` and `UdpUpstreamToClientLoop` receive into. -/
def bufferSize : Nat := 64 * 1024

structure Payload where
  bytes : List UInt8
  fits : bytes.length ≤ maxPayload
  deriving DecidableEq, Repr

/-- The part of a payload that `recvfrom` copies into the buffer. -/
def Payload.received (payload : Payload) : List UInt8 := payload.bytes.take bufferSize

@[simp] theorem Payload.received_eq (payload : Payload) : payload.received = payload.bytes :=
  List.take_of_length_le (payload.fits.trans (by decide))

/-- A client's datagram as `UdpLoop` holds it: the sender and the received bytes. -/
structure Datagram where
  client : SockAddr
  buffer : List UInt8
  deriving DecidableEq, Repr

structure UdpSession where
  upstreamSocket : SocketHandle := kInvalidSocket
  targetAddr : SockAddr := ⟨[]⟩
  clientAddr : SockAddr := ⟨[]⟩
  lastActiveMs : UInt64 := 0
  markedForClose : Bool := false
  deriving DecidableEq, Repr

/-- The texts `CleanupIdleUdpSessions` gives as reasons. -/
inductive CloseReason where
  | markedForClose
  | stopping
  | idleTimeout
  deriving DecidableEq, Repr

/-- Control points of `CleanupIdleUdpSessions` after it has read the clock. -/
inductive CleanupPc where
  | scan
  | second (key : String) (session : SessionId) (first : UInt64)
  | decide (key : String) (session : SessionId) (idleTimeout : Bool)
  | evict (key : String) (session : SessionId) (reason : CloseReason)
  | shutdown
  | close (session : SessionId)
  | setInvalid (session : SessionId)
  | join (session : SessionId)
  deriving DecidableEq, Repr

/-- An activation of `CleanupIdleUdpSessions`: its argument, its local `now`, the entries
it has still to look at and the sessions it has still to close. -/
structure Cleanup where
  forceAll : Bool
  now : UInt64
  todo : List (String × SessionId)
  closing : List SessionId
  pc : CleanupPc
  deriving DecidableEq, Repr

/-- Control points of `UdpLoop` and of `GetOrCreateUdpSession`, which it calls. -/
inductive UdpPc where
  | start
  | test
  | readListen
  | callRecv (socket : SocketHandle)
  | inRecv (socket : Option Owner)
  | retest
  | lookup (d : Datagram)
  | snapshot (d : Datagram)
  | createSocket (d : Datagram) (endpoints : List ResolvedEndpoint)
  | initActive (d : Datagram) (session : SessionId)
  | emplace (d : Datagram) (session : SessionId)
  | startThread (d : Datagram) (session : SessionId)
  | readClock (d : Datagram) (session : SessionId)
  | storeActive (d : Datagram) (session : SessionId) (ms : UInt64)
  | sendTo (d : Datagram) (session : SessionId)
  | maybeCleanup
  | enterCleanup (forceAll : Bool)
  | cleaning (c : Cleanup)
  | exited
  deriving DecidableEq, Repr

/-- Control points of `UdpUpstreamToClientLoop`. From `leaving` on the thread is out of
its loop; `joined` says that a cleanup has joined it. -/
inductive ReplyPc where
  | notStarted
  | testRunning
  | testMarked
  | readSocket
  | callRecv (socket : SocketHandle)
  | inRecv (socket : Option Owner)
  | readListen (remote : SockAddr) (buffer : List UInt8)
  | callSend (socket : SocketHandle) (remote : SockAddr) (buffer : List UInt8)
  | readClock
  | storeActive (ms : UInt64)
  | leaving
  | exited
  | joined
  deriving DecidableEq, Repr

/-- The thread runs and has left its loop. -/
def ReplyPc.left : ReplyPc → Bool
  | .leaving | .exited | .joined => true
  | _ => false

/-- Control points of the `Stop` call that found `running_` true. -/
inductive StopPc where
  | idle
  | shutdownListen
  | closeListen
  | setListenInvalid
  | joinUdp
  | joinResolver
  | enterCleanup
  | cleaning (c : Cleanup)
  | done
  deriving DecidableEq, Repr

/-- What happened, in order. No step reads it. -/
inductive Event where
  | opened (fd : Nat) (owner : Owner)
  | recvListen (socket : Owner) (client : SockAddr) (payload : List UInt8)
  | created (session : SessionId) (client target : SockAddr)
  | returned (session : SessionId) (running marked left : Bool)
  | sendUpstream (session : SessionId) (client : SockAddr) (socket : Owner) (dest : SockAddr)
      (payload : List UInt8) (marks : Bool)
  | sendUpstreamFailed (session : SessionId)
  | callRecv (session : SessionId) (fd : Nat) (socket : Option Owner)
  | recvUpstream (session : SessionId) (socket : Owner) (remote : SockAddr)
      (payload : List UInt8)
  | sendClient (session : SessionId) (socket : Owner) (dest remote : SockAddr)
      (payload : List UInt8)
  | sendClientFailed (session : SessionId)
  | idleTest (session : SessionId) (now first second : UInt64)
  | evicted (session : SessionId) (reason : CloseReason)
  | closed (session : SessionId) (fd : SocketHandle)
  deriving DecidableEq, Repr

structure State where
  clock : UInt64
  running : Bool := true
  fds : Nat → Option Owner
  shut : Owner → Bool := fun _ => false
  listenSocket : SocketHandle
  targetEndpoints : List ResolvedEndpoint
  udpSessions : List (String × SessionId) := []
  heap : SessionId → UdpSession := fun _ => {}
  nextSession : SessionId := 0
  lastUdpCleanupMs : UInt64 := 0
  udp : UdpPc := .start
  reply : SessionId → ReplyPc := fun _ => .notStarted
  resolver : ResolverPc := .test 0
  stop : StopPc := .idle
  terminated : Bool := false
  trace : List Event

namespace State

@[simp] def goto (s : State) (pc : UdpPc) : State := { s with udp := pc }

@[simp] def gotoReply (s : State) (σ : SessionId) (pc : ReplyPc) : State :=
  { s with reply := Function.update s.reply σ pc }

@[simp] def log (s : State) (e : Event) : State := { s with trace := s.trace ++ [e] }

/-- A number that was free now names a socket of `owner`. -/
@[simp] def openFd (s : State) (fd : Nat) (owner : Owner) : State :=
  { s with fds := Function.update s.fds fd (some owner), trace := s.trace ++ [.opened fd owner] }

/-- Who the number in a `SocketHandle` belongs to. -/
def resolve (s : State) (socket : SocketHandle) : Option Owner := socket.bind s.fds

/-- `CloseSocket`, which leaves `kInvalidSocket` alone. -/
@[simp] def closeSocket (s : State) (socket : SocketHandle) : State :=
  { s with fds := fun fd => if socket = some fd then none else s.fds fd }

/-- `ShutdownBoth`. -/
@[simp] def shutdownBoth (s : State) (socket : SocketHandle) : State :=
  { s with shut := fun owner => s.shut owner || s.resolve socket == some owner }

/-- An assignment to members of one session. -/
@[simp] def modify (s : State) (σ : SessionId) (f : UdpSession → UdpSession) : State :=
  { s with heap := Function.update s.heap σ (f (s.heap σ)) }

@[simp] def storeActive (s : State) (σ : SessionId) (ms : UInt64) : State :=
  s.modify σ fun session => { session with lastActiveMs := ms }

@[simp] def mark (s : State) (σ : SessionId) : State :=
  s.modify σ fun session => { session with markedForClose := true }

@[simp] def invalidate (s : State) (σ : SessionId) : State :=
  s.modify σ fun session => { session with upstreamSocket := kInvalidSocket }

/-- The table entry under a key. -/
def find (s : State) (key : String) : Option SessionId := s.udpSessions.lookup key

/-! A member keeps its value in every session if the assigned object agrees on it. -/

variable {h : SessionId → UdpSession} {u : UdpSession} {σ τ : SessionId}

theorem update_member {β : Type} (member : UdpSession → β) (same : member u = member (h σ)) :
    member (Function.update h σ u τ) = member (h τ) := by
  by_cases equal : τ = σ
  · subst equal
    rw [Function.update_self, same]
  · rw [Function.update_of_ne equal]

@[simp] theorem update_upstreamSocket (same : u.upstreamSocket = (h σ).upstreamSocket) :
    (Function.update h σ u τ).upstreamSocket = (h τ).upstreamSocket :=
  update_member UdpSession.upstreamSocket same

@[simp] theorem update_targetAddr (same : u.targetAddr = (h σ).targetAddr) :
    (Function.update h σ u τ).targetAddr = (h τ).targetAddr :=
  update_member UdpSession.targetAddr same

@[simp] theorem update_clientAddr (same : u.clientAddr = (h σ).clientAddr) :
    (Function.update h σ u τ).clientAddr = (h τ).clientAddr :=
  update_member UdpSession.clientAddr same

@[simp] theorem update_lastActiveMs (same : u.lastActiveMs = (h σ).lastActiveMs) :
    (Function.update h σ u τ).lastActiveMs = (h τ).lastActiveMs :=
  update_member UdpSession.lastActiveMs same

@[simp] theorem update_markedForClose (same : u.markedForClose = (h σ).markedForClose) :
    (Function.update h σ u τ).markedForClose = (h τ).markedForClose :=
  update_member UdpSession.markedForClose same

end State

end PortForwardX.Udp
