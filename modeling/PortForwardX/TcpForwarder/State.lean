import PortForwardX.Transition.Machine
import PortForwardX.Platform.Socket
import PortForwardX.Net.Endpoint
import PortForwardX.Net.Resolver
import PortForwardX.Tcp.Session

/-!
# State of the TCP forwarder

`Forwarder::Impl` after a successful `Start` for TCP: the accept thread, the sessions it
makes, each with its own threads, the resolver thread and the one `Stop` call that finds
`running_` set. A socket is known by the order in which sockets were made, so that a second
close of it would show.
-/
namespace PortForwardX.TcpForwarder

open Net

/-- Identity of a socket returned by `accept` or `socket`. -/
abbrev SocketId := Nat

/-- Identity of a `ForwardSession` object. -/
abbrev SessionRef := Nat

/-- The member `worker_`. -/
inductive Worker where
  | notStarted
  | joinable
  | joined
  deriving DecidableEq, Repr

/-- A `ForwardSession` with the sockets given to its constructor. -/
structure ForwardSession where
  socket : Tcp.Side → SocketId := fun _ => 0
  state : Tcp.State := Tcp.initial
  worker : Worker := .notStarted

/-- Holder of `session_mutex_`. -/
inductive Holder where
  | acceptor
  | stopper
  deriving DecidableEq, Repr

/-- Control points of `CleanupFinishedSessions`. The last two are the end of its scope,
where the vector of finished sessions is destroyed and with it the sessions. -/
inductive CleanupPc where
  | lock
  | scan
  | erase (id : UInt64) (session : SessionRef)
  | unlock
  | join (rest : List SessionRef)
  | destroy (rest : List SessionRef)
  | inDestructor (session : SessionRef) (rest : List SessionRef)
  deriving DecidableEq, Repr

/-- An activation of `CleanupFinishedSessions` with its two vectors and the entries it has
still to look at. `afterLoop` says which of the two calls it is. -/
structure Cleanup where
  afterLoop : Bool
  todo : List (UInt64 × SessionRef) := []
  finishedSessions : List SessionRef := []
  finishedPeers : List String := []
  pc : CleanupPc := .lock
  deriving DecidableEq, Repr

/-- Control points of `AcceptLoop`, with `ConnectToEndpoints` inlined. -/
inductive AcceptPc where
  | test
  | cleanup (c : Cleanup)
  | callAccept
  | retest
  | snapshot (client : SocketId) (peer : SockAddr)
  | refresh (client : SocketId) (peer : SockAddr)
  | snapshotAgain (client : SocketId) (peer : SockAddr)
  | makeSocket (client : SocketId) (peer : SockAddr) (endpoints : List ResolvedEndpoint)
  | connect (client : SocketId) (peer : SockAddr) (candidate : SocketId)
      (rest : List ResolvedEndpoint)
  | closeCandidate (client : SocketId) (peer : SockAddr) (candidate : SocketId)
      (rest : List ResolvedEndpoint)
  | closeClient (client : SocketId)
  | lock (client upstream : SocketId) (peer : SockAddr)
  | count (client upstream : SocketId) (peer : SockAddr)
  | make (client upstream : SocketId) (peer : SockAddr) (id : UInt64)
  | insertSession (session : SessionRef) (peer : SockAddr) (id : UInt64)
  | insertPeer (session : SessionRef) (peer : SockAddr) (id : UInt64)
  | unlock (session : SessionRef)
  | start (session : SessionRef)
  | exited
  deriving DecidableEq, Repr

/-- Control points of the `Stop` call that found `running_` true. `sessions` is its local
vector. -/
inductive StopPc where
  | idle
  | shutdownListen
  | closeListen
  | setListenInvalid
  | joinAccept
  | joinResolver
  | lock
  | copy
  | unlock (sessions : List SessionRef)
  | stopEach (sessions rest : List SessionRef)
  | inStop (sessions : List SessionRef) (session : SessionRef) (rest : List SessionRef)
  | joinEach (sessions rest : List SessionRef)
  | lockAgain (sessions : List SessionRef)
  | clearSessions (sessions : List SessionRef)
  | clearPeers (sessions : List SessionRef)
  | unlockAgain (sessions : List SessionRef)
  | destroy (rest : List SessionRef)
  | inDestructor (session : SessionRef) (rest : List SessionRef)
  | done
  deriving DecidableEq, Repr

/-- `closes`, `joins`, `found` and `tests` are history only: the sockets closed and the
sessions joined so far, what the last cleanup found in the table and what `IsFinished`
returned to it. -/
structure State where
  running : Bool := true
  listenSocket : SocketHandle
  listenOpen : Bool := true
  targetEndpoints : List ResolvedEndpoint
  sessionMutex : Option Holder := none
  sessions : List (UInt64 × SessionRef) := []
  sessionPeers : List (UInt64 × String) := []
  nextSessionId : UInt64 := 0
  heap : SessionRef → ForwardSession := fun _ => {}
  nextRef : SessionRef := 0
  isOpen : SocketId → Bool := fun _ => false
  nextSocket : SocketId := 0
  accept : AcceptPc := .test
  resolver : ResolverPc := .test 0
  stop : StopPc := .idle
  terminated : Bool := false
  closes : List SocketId := []
  joins : List SessionRef := []
  found : List (UInt64 × SessionRef) := []
  tests : List ((UInt64 × SessionRef) × Bool) := []

/-- The side a call on a session's sockets closes. -/
def closes : Tcp.Call → Option Tcp.Side
  | .close side => some side
  | _ => none

/-- The sides a session has closed on its way from `u` to `t`. -/
def closedSides (u t : Tcp.State) : List Tcp.Side := (t.trace.drop u.trace.length).filterMap closes

namespace State

@[simp] def goto (s : State) (pc : AcceptPc) : State := { s with accept := pc }

/-- `accept` or `socket` returns a new socket. -/
@[simp] def openSocket (s : State) : State :=
  { s with isOpen := Function.update s.isOpen s.nextSocket true, nextSocket := s.nextSocket + 1 }

/-- `CloseSocket`. -/
@[simp] def closeSocket (s : State) (socket : SocketId) : State :=
  { s with
    isOpen := Function.update s.isOpen socket false
    closes := s.closes ++ [socket] }

/-- A session's state becomes `t`. A close its worker has made on the way is a close of the
socket behind that side. -/
def advance (s : State) (ref : SessionRef) (t : Tcp.State) : State :=
  let session := s.heap ref
  let closed := (closedSides session.state t).map session.socket
  { s with
    heap := Function.update s.heap ref { session with state := t }
    isOpen := fun socket => s.isOpen socket && !closed.contains socket
    closes := s.closes ++ closed }

/-- The worker of a session has been joined. -/
@[simp] def joinWorker (s : State) (ref : SessionRef) : State :=
  { s with
    heap := Function.update s.heap ref { s.heap ref with worker := .joined }
    joins := s.joins ++ [ref] }

/-- `Join`, called by another thread than the session's worker. -/
def join (s : State) (ref : SessionRef) : Option State :=
  match (s.heap ref).worker with
  | .joinable => if (s.heap ref).state.worker = .done then some (s.joinWorker ref) else none
  | .notStarted | .joined => some s

/-- `ForwardSession::Stop` is called. -/
def callStop (s : State) (ref : SessionRef) : State :=
  let session := s.heap ref
  { s with
    heap := Function.update s.heap ref { session with state := Tcp.callStopStep session.state } }

/-- A call of `ForwardSession::Stop` has returned. -/
def stopReturned (s : State) (ref : SessionRef) : Bool :=
  (s.heap ref).state.stopPc == .idle || (s.heap ref).state.stopPc == .done

end State

end PortForwardX.TcpForwarder
