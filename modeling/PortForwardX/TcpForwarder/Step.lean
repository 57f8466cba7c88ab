import PortForwardX.Tcp.Process
import PortForwardX.TcpForwarder.State

/-!
# Steps of the TCP forwarder

One definition for each thread. An action says whose turn it is and what the call it makes
returns. The threads of a session take the steps of `Tcp.step`.
-/
namespace PortForwardX.TcpForwarder

open Transition Net

/-- What does not change while the forwarder runs. -/
structure Setup where
  platform : Platform
  config : ForwardConfig
  getnameinfo : GetNameInfo

/-- What the environment answers to the step a thread takes. -/
inductive Answer where
  | none
  | order (entries : List (UInt64 × SessionRef))
  | accepted (peer : SockAddr)
  | made
  | connected
  | failed
  | started (ok : Bool)
  | resolved (outcome : GetAddrInfo)
  deriving DecidableEq, Repr

/-- `workerThrows` is a failure to start one of the two relays of a session. -/
inductive Action where
  | accept (a : Answer)
  | session (ref : SessionRef) (a : Tcp.Action)
  | workerThrows (ref : SessionRef)
  | resolver (a : Answer)
  | callStop
  | stop (a : Answer)
  deriving DecidableEq, Repr

/-! ### `CleanupFinishedSessions` -/

def Cleanup.finished (c : Cleanup) : Bool := c.pc == .destroy []

/-- The entry under `id` leaves `session_peers_` and its session leaves `sessions_`. -/
def State.eraseEntry (s : State) (id : UInt64) : State :=
  { s with
    sessions := s.sessions.filter fun entry => entry.1 != id
    sessionPeers := s.sessionPeers.filter fun entry => entry.1 != id }

/-- The next instruction of a cleanup that has not returned. -/
def cleanupStep (s : State) (c : Cleanup) (a : Answer) : Option (State × Cleanup) :=
  match c.pc with
  | .lock =>
    match a with
    -- the iteration order of an `unordered_map` is not specified, but an erasure keeps it
    | .order entries =>
      if s.sessionMutex = none ∧ entries.isPerm s.sessions then
        some ({ s with sessionMutex := some .acceptor, found := entries, tests := [] },
          { c with todo := entries, pc := .scan })
      else none
    | _ => none
  | .scan =>
    match c.todo with
    | [] => some (s, { c with pc := .unlock })
    | (id, ref) :: rest =>
      let finished := (s.heap ref).state.finished
      some ({ s with tests := s.tests ++ [((id, ref), finished)] },
        { c with todo := rest, pc := if finished then .erase id ref else .scan })
  | .erase id ref =>
    let peer := (s.sessionPeers.lookup id).getD "unknown"
    some (s.eraseEntry id,
      { c with finishedSessions := c.finishedSessions ++ [ref]
               finishedPeers := c.finishedPeers ++ [peer], pc := .scan })
  | .unlock => some ({ s with sessionMutex := none }, { c with pc := .join c.finishedSessions })
  | .join [] => some (s, { c with pc := .destroy c.finishedSessions })
  | .join (ref :: rest) => (s.join ref).map fun t => (t, { c with pc := .join rest })
  | .destroy [] => none
  | .destroy (ref :: rest) => some (s.callStop ref, { c with pc := .inDestructor ref rest })
  | .inDestructor ref rest =>
    if s.stopReturned ref then (s.join ref).map fun t => (t, { c with pc := .destroy rest })
    else none

/-! ### `AcceptLoop` -/

/-- The constructor of `ForwardSession`. -/
def ForwardSession.new (client upstream : SocketId) : ForwardSession where
  socket
    | .client => client
    | .upstream => upstream

/-- `make_shared` makes a session of two sockets. -/
@[simp] def State.makeSession (s : State) (client upstream : SocketId) : State :=
  { s with
    heap := Function.update s.heap s.nextRef (.new client upstream)
    nextRef := s.nextRef + 1 }

/-- `Start` of a session has made its worker. -/
@[simp] def State.startWorker (s : State) (ref : SessionRef) : State :=
  { s with heap := Function.update s.heap ref { s.heap ref with worker := .joinable } }

/-- `sessions_[id] = session`: the operator overwrites an entry under the same key. -/
@[simp] def State.insertSession (s : State) (id : UInt64) (session : SessionRef) : State :=
  { s with sessions := (id, session) :: s.sessions.filter fun entry => entry.1 != id }

/-- `session_peers_[id] = peer`. -/
@[simp] def State.insertPeer (s : State) (id : UInt64) (peer : String) : State :=
  { s with sessionPeers := (id, peer) :: s.sessionPeers.filter fun entry => entry.1 != id }

/-- The next instruction of the accept thread. -/
def acceptStep (p : Setup) (s : State) (a : Answer) : Option State :=
  match s.accept with
  | .test => some (s.goto (.cleanup { afterLoop := !s.running }))
  | .cleanup c =>
    if c.finished then some (s.goto (if c.afterLoop then .exited else .callAccept))
    else (cleanupStep s c a).map fun next => next.1.goto (.cleanup next.2)
  | .callAccept =>
    match a with
    | .accepted peer => some (s.openSocket.goto (.snapshot s.nextSocket peer))
    | .failed => some (s.goto .retest)
    | _ => none
  | .retest => some (s.goto (if s.running then .test else .cleanup { afterLoop := true }))
  | .snapshot client peer =>
    some (s.goto (if s.targetEndpoints.isEmpty then .refresh client peer
      else .makeSocket client peer s.targetEndpoints))
  | .refresh client peer =>
    match a with
    | .resolved outcome =>
      -- the result is not looked at: a failed resolution leaves the old list in place
      match resolveTargetEndpoints p.config outcome with
      | .ok endpoints =>
        some ({ s with targetEndpoints := endpoints }.goto (.snapshotAgain client peer))
      | .error _ => some (s.goto (.snapshotAgain client peer))
    | _ => none
  | .snapshotAgain client peer =>
    some (s.goto (if s.targetEndpoints.isEmpty then .closeClient client
      else .makeSocket client peer s.targetEndpoints))
  -- `ConnectToEndpoints` from here to `closeCandidate`
  | .makeSocket client _ [] => some (s.goto (.closeClient client))
  | .makeSocket client peer (_ :: rest) =>
    match a with
    | .made => some (s.openSocket.goto (.connect client peer s.nextSocket rest))
    | .failed => some (s.goto (.makeSocket client peer rest))
    | _ => none
  | .connect client peer candidate rest =>
    match a with
    | .connected => some (s.goto (.lock client candidate peer))
    | .failed => some (s.goto (.closeCandidate client peer candidate rest))
    | _ => none
  | .closeCandidate client peer candidate rest =>
    some ((s.closeSocket candidate).goto (.makeSocket client peer rest))
  | .closeClient client => some ((s.closeSocket client).goto .test)
  | .lock client upstream peer =>
    if s.sessionMutex = none then
      some ({ s with sessionMutex := some .acceptor }.goto (.count client upstream peer))
    else none
  | .count client upstream peer =>
    -- `++next_session_id_` in unsigned arithmetic
    let id := s.nextSessionId + 1
    some ({ s with nextSessionId := id }.goto (.make client upstream peer id))
  | .make client upstream peer id =>
    some ((s.makeSession client upstream).goto (.insertSession s.nextRef peer id))
  | .insertSession session peer id =>
    some ((s.insertSession id session).goto (.insertPeer session peer id))
  | .insertPeer session peer id =>
    some ((s.insertPeer id (endpointToString p.getnameinfo peer)).goto (.unlock session))
  | .unlock session => some ({ s with sessionMutex := none }.goto (.start session))
  | .start ref =>
    match a with
    | .started true => some ((s.startWorker ref).goto .test)
    -- the exception leaves the thread function
    | .started false => some { s with terminated := true }
    | _ => none
  | .exited => none

/-! ### `Stop` and `ResolverLoop` -/

/-- The next instruction of the `Stop` call that is under way. It closes no UDP sessions,
since there are none. -/
def stopStep (s : State) (a : Answer) : Option State :=
  match s.stop with
  | .idle => none
  | .shutdownListen => some { s with stop := .closeListen }
  | .closeListen => some { s with listenOpen := false, stop := .setListenInvalid }
  | .setListenInvalid => some { s with listenSocket := kInvalidSocket, stop := .joinAccept }
  | .joinAccept =>
    -- `Stop` waits here until the accept thread has returned
    match s.accept with
    | .exited => some { s with stop := .joinResolver }
    | _ => none
  | .joinResolver =>
    match s.resolver with
    | .exited => some { s with stop := .lock }
    | _ => none
  | .lock =>
    if s.sessionMutex = none then some { s with sessionMutex := some .stopper, stop := .copy }
    else none
  | .copy =>
    match a with
    | .order entries =>
      if entries.isPerm s.sessions then some { s with stop := .unlock (entries.map Prod.snd) }
      else none
    | _ => none
  | .unlock sessions => some { s with sessionMutex := none, stop := .stopEach sessions sessions }
  | .stopEach sessions [] => some { s with stop := .joinEach sessions sessions }
  | .stopEach sessions (ref :: rest) => some { s.callStop ref with stop := .inStop sessions ref rest }
  | .inStop sessions ref rest =>
    if s.stopReturned ref then some { s with stop := .stopEach sessions rest } else none
  | .joinEach sessions [] => some { s with stop := .lockAgain sessions }
  | .joinEach sessions (ref :: rest) =>
    (s.join ref).map fun t => { t with stop := .joinEach sessions rest }
  | .lockAgain sessions =>
    if s.sessionMutex = none then
      some { s with sessionMutex := some .stopper, stop := .clearSessions sessions }
    else none
  | .clearSessions sessions => some { s with sessions := [], stop := .clearPeers sessions }
  | .clearPeers sessions => some { s with sessionPeers := [], stop := .unlockAgain sessions }
  | .unlockAgain sessions => some { s with sessionMutex := none, stop := .destroy sessions }
  | .destroy [] => some { s with stop := .done }
  | .destroy (ref :: rest) => some { s.callStop ref with stop := .inDestructor ref rest }
  | .inDestructor ref rest =>
    if s.stopReturned ref then (s.join ref).map fun t => { t with stop := .destroy rest }
    else none
  | .done => none

def resolverStep (p : Setup) (s : State) (a : Answer) : Option State :=
  match s.resolver with
  | .refresh =>
    match a with
    | .resolved outcome =>
      match resolveTargetEndpoints p.config outcome with
      | .ok endpoints => some { s with targetEndpoints := endpoints, resolver := .test 0 }
      | .error _ => some { s with resolver := .test 0 }
    | _ => none
  | pc => (pc.next p.config s.running).map fun pc' => { s with resolver := pc' }

/-! ### The forwarder -/

/-- The step is a `Send` of a session on a broken connection, on a platform where that ends
the process. -/
def signalled (p : Setup) (s : State) : Action → Bool
  | .session ref a => brokenSendKills p.platform && Tcp.Process.sendsOnBroken (s.heap ref).state a
  | _ => false

/-- Some session is at such a `Send`. -/
def Signalled (p : Setup) (s : State) : Prop :=
  ∃ ref < s.nextRef, ∃ a, signalled p s (.session ref a) = true

/-- A step of a thread of a session or of one of its peers. The worker exists once `Start`
has made it. Calls of `Stop` are steps of the threads that make them. -/
def sessionStep (p : Setup) (s : State) (ref : SessionRef) (a : Tcp.Action) : Option State :=
  if ref < s.nextRef ∧ a ≠ .callStop ∧ (a = .worker → (s.heap ref).worker ≠ .notStarted) then
    -- the signal comes before `send` returns
    if signalled p s (.session ref a) then some { s with terminated := true }
    else (Tcp.step (s.heap ref).state a).map (s.advance ref)
  else none

/-- One step of the forwarder. An ended process takes none. -/
def step (p : Setup) (s : State) (action : Action) : Option State :=
  if s.terminated then none
  else
    match action with
    | .accept a => acceptStep p s a
    | .session ref a => sessionStep p s ref a
    | .workerThrows ref =>
      -- the exception leaves `Run`, before its first or its second thread is made
      let session := s.heap ref
      if session.worker ≠ .notStarted ∧
          (session.state.worker = .startUpstream ∨ session.state.worker = .startDownstream) then
        some { s with terminated := true }
      else none
    | .resolver a => resolverStep p s a
    | .callStop =>
      match s.stop with
      | .idle => some { s with running := false, stop := .shutdownListen }
      | _ => none
    | .stop a => stopStep s a

/-- The state in which a successful `Start` leaves the forwarder. -/
def started (listenSocket : SocketHandle) (endpoints : List ResolvedEndpoint) : State where
  listenSocket := listenSocket
  targetEndpoints := endpoints

/-- The TCP forwarder from the return of `Start` on. -/
def forwarder (p : Setup) : Machine State Action where
  Init s := ∃ fd outcome endpoints,
    resolveTargetEndpoints p.config outcome = .ok endpoints ∧ s = started (some fd) endpoints
  step := step p

/-! ### A sample forwarder

One client address and one target, with the actions of common stretches of a run. -/

namespace Sample

def peer : SockAddr := ⟨[2, 0, 156, 64, 192, 0, 2, 1]⟩
def server : SockAddr := ⟨[2, 0, 0, 80, 198, 51, 100, 7]⟩

def setup : Setup where
  platform := .posix
  config := { targetHost := "198.51.100.7" }
  getnameinfo address := if address = peer then some ("192.0.2.1", "40000") else none

/-- After a `Start` that resolved one endpoint. -/
def initial : State := started (some 3) [⟨.inet, server.bytes, _, rfl⟩]

theorem initial_init : (forwarder setup).Init initial :=
  ⟨3, .found [⟨.inet, some server.bytes⟩], _, rfl, rfl⟩

/-- The head of `AcceptLoop` and a cleanup that finds `entries`, with the steps it takes from
there on. -/
def cleanup (entries : List (UInt64 × SessionRef)) (steps : Nat) : List Action :=
  (.none :: .order entries :: List.replicate steps Answer.none).map .accept

/-- A connection that is set up at the first attempt. -/
def connection : List Action :=
  ([.accepted peer, .none, .made, .connected, .none, .none, .none, .none, .none, .none,
    .started true] : List Answer).map .accept

/-- A connection for which there is no target socket. -/
def refusedConnection : List Action :=
  ([.accepted peer, .none, .made, .failed, .none, .none, .none] : List Answer).map .accept

/-- A session from its first step on: both relays fail and the worker closes up. -/
def sessionEnds (ref : SessionRef) : List Action :=
  ([.worker, .worker, .relay .client (-1), .relay .client 0, .relay .upstream (-1),
    .relay .upstream 0] ++ List.replicate 9 .worker : List Tcp.Action).map (.session ref)

/-- What a session does in a call of `Stop`. -/
def stopCall (ref : SessionRef) : List Action :=
  (List.replicate 4 Tcp.Action.stop).map (.session ref)

end Sample

end PortForwardX.TcpForwarder
