import PortForwardX.Udp.State

/-!
# Steps of the UDP forwarder

One definition for each thread. An action says whose turn it is and what the call it
makes returns.
-/
namespace PortForwardX.Udp

open Transition Net

/-- What does not change while the forwarder runs. -/
structure Setup where
  platform : Platform
  config : ForwardConfig
  getnameinfo : GetNameInfo

namespace Setup

variable (p : Setup)

/-- `idle_timeout_ms`. -/
def idleTimeoutMs : UInt64 := p.config.udpSessionIdleTimeoutSeconds.toUInt64 * 1000

def key (client : SockAddr) : String := clientEndpointKey p.getnameinfo client

end Setup

/-- `kUdpCleanupIntervalMs`. -/
def udpCleanupIntervalMs : UInt64 := 1000

/-- What the environment answers to the step a thread takes. -/
inductive Answer where
  | none
  | datagram (sender : SockAddr) (payload : Payload)
  | zero
  | error (e : SocketError)
  | sent
  | socket (fd : Nat)
  | started (ok : Bool)
  | order (entries : List (String × SessionId))
  | resolved (outcome : GetAddrInfo)
  deriving DecidableEq, Repr

inductive Action where
  | udp (a : Answer)
  | reply (session : SessionId) (a : Answer)
  | resolver (a : Answer)
  | callStop
  | stop (a : Answer)
  | tick (ms : UInt64)
  | foreignOpen (fd : Nat)
  | foreignClose (fd : Nat)
  deriving DecidableEq, Repr

/-- What `recvfrom` returned: a datagram of some length, zero without a datagram, or `-1`
with an error code. -/
inductive Received where
  | data (socket : Owner) (sender : SockAddr) (bytes : List UInt8)
  | nothing
  | failed (e : SocketError)

/-- The result of `recvfrom` as the program sees it. -/
def Received.count : Received → Int
  | .data _ _ bytes => bytes.length
  | .nothing => 0
  | .failed _ => -1

/-- What `recvfrom` may return on the socket a call was resolved to. It returns zero without a
datagram only on a socket that has been shut down. On a socket of another part of the process it
may also never return: `SetUdpRecvTimeout` is called for the forwarder's own sockets only. -/
def recvfrom (s : State) : Option Owner → Answer → Option Received
  | some owner, .datagram sender payload => some (.data owner sender payload.received)
  | some owner, .zero => if s.shut owner then some .nothing else none
  | some _, .error e => if e = .badDescriptor then none else some (.failed e)
  | none, .error e => if e = .badDescriptor then some (.failed e) else none
  | _, _ => none

/-! ### `CleanupIdleUdpSessions` -/

def Cleanup.finished (c : Cleanup) : Bool := c.pc == .shutdown && c.closing.isEmpty

/-- Why a session that is to be closed is closed. -/
def Cleanup.reason (c : Cleanup) (idleTimeout : Bool) : CloseReason :=
  if c.forceAll then .stopping else if idleTimeout then .idleTimeout else .markedForClose

/-- The next instruction of a cleanup that has not returned. -/
def cleanStep (p : Setup) (s : State) (c : Cleanup) : Option (State × Cleanup) :=
  match c.pc with
  | .scan =>
    match c.todo with
    | [] => some (s, { c with pc := .shutdown })
    | (key, σ) :: rest =>
      -- the conjunction is evaluated from the left: a timeout of zero loads nothing
      let first := (s.heap σ).lastActiveMs
      if 0 < p.idleTimeoutMs ∧ first < c.now then
        some (s, { c with todo := rest, pc := .second key σ first })
      else some (s, { c with todo := rest, pc := .decide key σ false })
  | .second key σ first =>
    -- the same member again, loaded anew
    let second := (s.heap σ).lastActiveMs
    some (s.log (.idleTest σ c.now first second),
      { c with pc := .decide key σ (p.idleTimeoutMs < c.now - second) })
  | .decide key σ idleTimeout =>
    if c.forceAll || (s.heap σ).markedForClose || idleTimeout then
      some (s, { c with pc := .evict key σ (c.reason idleTimeout) })
    else some (s, { c with pc := .scan })
  | .evict key σ reason =>
    -- the store to the flag; the erasure is invisible to the reply loop
    some ({ s.mark σ with udpSessions := s.udpSessions.filter fun entry => entry.1 != key }.log
      (.evicted σ reason), { c with closing := c.closing ++ [σ], pc := .scan })
  | .shutdown =>
    -- the second loop, over `closing_sessions`, without the lock
    match c.closing with
    | [] => none
    | σ :: rest =>
      some (s.shutdownBoth (s.heap σ).upstreamSocket, { c with closing := rest, pc := .close σ })
  | .close σ =>
    let socket := (s.heap σ).upstreamSocket
    some ((s.closeSocket socket).log (.closed σ socket), { c with pc := .setInvalid σ })
  | .setInvalid σ => some (s.invalidate σ, { c with pc := .join σ })
  | .join σ =>
    -- `join` waits for the thread function to return; it is skipped if not `joinable`
    match s.reply σ with
    | .exited => some (s.gotoReply σ .joined, { c with pc := .shutdown })
    | .notStarted | .joined => some (s, { c with pc := .shutdown })
    | _ => none

/-! ### `UdpLoop` -/

/-- `GetOrCreateUdpSession` returns `σ`. -/
@[simp] def State.returnSession (s : State) (d : Datagram) (σ : SessionId) : State :=
  (s.log (.returned σ s.running (s.heap σ).markedForClose (s.reply σ).left)).goto (.readClock d σ)

/-- The session object made for a new upstream socket. -/
@[simp] def State.newSession (s : State) (fd : Nat) (target client : SockAddr) : State :=
  { s.openFd fd (.upstream s.nextSession) with
    heap := Function.update s.heap s.nextSession
      { upstreamSocket := some fd, targetAddr := target, clientAddr := client }
    nextSession := s.nextSession + 1 }

/-- One endpoint of `CreateUdpSocketForEndpoint`. -/
def createStep (s : State) (d : Datagram) (a : Answer) : List ResolvedEndpoint → Option State
  | [] => some (s.goto .maybeCleanup)
  | endpoint :: rest =>
    -- an address that does not fit is passed over before a socket is made
    if sizeofSockaddrStorage < endpoint.sockaddrLen then some (s.goto (.createSocket d rest))
    else
      match a with
      | .error _ => some (s.goto (.createSocket d rest))
      | .socket fd =>
        if s.fds fd = none then
          let target : SockAddr := ⟨endpoint.sockaddrBytes⟩
          some (((s.newSession fd target d.client).log
            (.created s.nextSession d.client target)).goto (.initActive d s.nextSession))
        else none
      | _ => none

/-- `sendto` the target, and the store to the flag if it fails. -/
def sendStep (s : State) (d : Datagram) (σ : SessionId) : Answer → Option State
  | .sent =>
    match s.resolve (s.heap σ).upstreamSocket with
    | none => none
    | some owner =>
      -- the result of `sendto` is the length, and `sent <= 0` counts as a failure
      let sent : Int := d.buffer.length
      let next := s.log (.sendUpstream σ d.client owner (s.heap σ).targetAddr d.buffer
        (sent ≤ 0))
      some ((if sent ≤ 0 then next.mark σ else next).goto .maybeCleanup)
  | .error _ => some (((s.log (.sendUpstreamFailed σ)).mark σ).goto .maybeCleanup)
  | _ => none

/-- The next instruction of the UDP thread. -/
def udpStep (p : Setup) (s : State) (a : Answer) : Option State :=
  match s.udp with
  | .start => some ({ s with lastUdpCleanupMs := s.clock }.goto .test)
  | .test => some (s.goto (if s.running then .readListen else .enterCleanup true))
  | .readListen => some (s.goto (.callRecv s.listenSocket))
  | .callRecv socket => some (s.goto (.inRecv (s.resolve socket)))
  | .inRecv socket =>
    match recvfrom s socket a with
    | none => none
    | some (.data owner client bytes) =>
      -- `received <= 0` also holds for a datagram without contents
      let received := (Received.data owner client bytes).count
      let next := s.log (.recvListen owner client bytes)
      some (next.goto (if received ≤ 0 then .retest else .lookup ⟨client, bytes⟩))
    | some _ => some (s.goto .retest)
  | .retest => some (s.goto (if s.running then .maybeCleanup else .enterCleanup true))
  | .lookup d =>
    -- whatever the table holds under the key is returned as it is
    match s.find (p.key d.client) with
    | some σ => some (s.returnSession d σ)
    | none => some (s.goto (.snapshot d))
  | .snapshot d =>
    some (s.goto (if s.targetEndpoints.isEmpty then .maybeCleanup
      else .createSocket d s.targetEndpoints))
  | .createSocket d endpoints => createStep s d a endpoints
  | .initActive d σ => some ((s.storeActive σ s.clock).goto (.emplace d σ))
  | .emplace d σ =>
    match s.find (p.key d.client) with
    | none =>
      some ({ s with udpSessions := (p.key d.client, σ) :: s.udpSessions }.goto (.startThread d σ))
    -- `emplace` found the key: the new socket is closed and the entry returned
    | some τ => some ((s.closeSocket (s.heap σ).upstreamSocket).returnSession d τ)
  | .startThread d σ =>
    match a with
    | .started true => some ((s.gotoReply σ .testRunning).returnSession d σ)
    -- the exception leaves the thread function
    | .started false => some { s with terminated := true }
    | _ => none
  | .readClock d σ => some (s.goto (.storeActive d σ s.clock))
  | .storeActive d σ ms => some ((s.storeActive σ ms).goto (.sendTo d σ))
  | .sendTo d σ => sendStep s d σ a
  | .maybeCleanup =>
    -- `now - last_udp_cleanup_ms_` in unsigned arithmetic
    if s.clock - s.lastUdpCleanupMs < udpCleanupIntervalMs then some (s.goto .test)
    else some ({ s with lastUdpCleanupMs := s.clock }.goto (.enterCleanup false))
  | .enterCleanup forceAll =>
    match a with
    -- the iteration order of an `unordered_map` is not specified
    | .order entries =>
      if entries.isPerm s.udpSessions then
        some (s.goto (.cleaning ⟨forceAll, s.clock, entries, [], .scan⟩))
      else none
    | _ => none
  | .cleaning c =>
    if c.finished then some (s.goto (if c.forceAll then .exited else .test))
    else (cleanStep p s c).map fun next => next.1.goto (.cleaning next.2)
  | .exited => none

/-! ### `UdpUpstreamToClientLoop` -/

/-- The next instruction of the reply loop of `σ`. -/
def replyStep (p : Setup) (s : State) (σ : SessionId) (a : Answer) : Option State :=
  match s.reply σ with
  | .notStarted => none
  | .testRunning => some (s.gotoReply σ (if s.running then .testMarked else .leaving))
  | .testMarked =>
    some (s.gotoReply σ (if (s.heap σ).markedForClose then .leaving else .readSocket))
  | .readSocket => some (s.gotoReply σ (.callRecv (s.heap σ).upstreamSocket))
  | .callRecv none => some (s.gotoReply σ (.inRecv none))
  | .callRecv (some fd) =>
    some ((s.log (.callRecv σ fd (s.fds fd))).gotoReply σ (.inRecv (s.fds fd)))
  | .inRecv socket =>
    match recvfrom s socket a with
    | none => none
    | some (.data owner remote bytes) =>
      -- an empty reply goes the way of an orderly shutdown: out of the loop
      let received := (Received.data owner remote bytes).count
      let next := s.log (.recvUpstream σ owner remote bytes)
      some (next.gotoReply σ (if received ≤ 0 then .leaving else .readListen remote bytes))
    | some .nothing => some (s.gotoReply σ .leaving)
    | some (.failed e) =>
      some (s.gotoReply σ (if isTransientRecvError p.platform e then .testRunning else .leaving))
  -- nothing compares `remote` with the session's target
  | .readListen remote buffer => some (s.gotoReply σ (.callSend s.listenSocket remote buffer))
  | .callSend socket remote buffer =>
    match a with
    | .sent =>
      match s.resolve socket with
      | none => none
      | some owner =>
        let sent : Int := buffer.length
        let next := s.log (.sendClient σ owner (s.heap σ).clientAddr remote buffer)
        some (next.gotoReply σ (if sent ≤ 0 then .leaving else .readClock))
    | .error _ => some ((s.log (.sendClientFailed σ)).gotoReply σ .leaving)
    | _ => none
  | .readClock => some (s.gotoReply σ (.storeActive s.clock))
  | .storeActive ms => some ((s.storeActive σ ms).gotoReply σ .testRunning)
  -- the store behind the loop, then the thread function returns
  | .leaving => some ((s.mark σ).gotoReply σ .exited)
  | .exited | .joined => none

/-! ### `Stop` and `ResolverLoop` -/

def stopStep (p : Setup) (s : State) (a : Answer) : Option State :=
  match s.stop with
  | .idle => none
  | .shutdownListen => some { s.shutdownBoth s.listenSocket with stop := .closeListen }
  | .closeListen => some { s.closeSocket s.listenSocket with stop := .setListenInvalid }
  | .setListenInvalid => some { s with listenSocket := kInvalidSocket, stop := .joinUdp }
  | .joinUdp =>
    -- `Stop` waits here until the UDP thread has returned
    match s.udp with
    | .exited => some { s with stop := .joinResolver }
    | _ => none
  | .joinResolver =>
    match s.resolver with
    | .exited => some { s with stop := .enterCleanup }
    | _ => none
  | .enterCleanup =>
    match a with
    | .order entries =>
      if entries.isPerm s.udpSessions then
        some { s with stop := .cleaning ⟨true, s.clock, entries, [], .scan⟩ }
      else none
    | _ => none
  | .cleaning c =>
    if c.finished then some { s with stop := .done }
    else (cleanStep p s c).map fun next => { next.1 with stop := .cleaning next.2 }
  | .done => none

def resolverStep (p : Setup) (s : State) (a : Answer) : Option State :=
  match s.resolver with
  | .refresh =>
    match a with
    | .resolved outcome =>
      -- a failed resolution leaves the old list in place
      match resolveTargetEndpoints p.config outcome with
      | .ok endpoints => some { s with targetEndpoints := endpoints, resolver := .test 0 }
      | .error _ => some { s with resolver := .test 0 }
    | _ => none
  | pc => (pc.next p.config s.running).map fun pc' => { s with resolver := pc' }

/-! ### The forwarder -/

/-- One step of the forwarder. An ended process takes none. -/
def step (p : Setup) (s : State) (action : Action) : Option State :=
  if s.terminated then none
  else
    match action with
    | .udp a => udpStep p s a
    | .reply σ a => replyStep p s σ a
    | .resolver a => resolverStep p s a
    | .callStop =>
      match s.stop with
      | .idle => some { s with running := false, stop := .shutdownListen }
      | _ => none
    | .stop a => stopStep p s a
    -- the monotonic clock never goes back
    | .tick ms => if s.clock ≤ ms then some { s with clock := ms } else none
    | .foreignOpen fd => if s.fds fd = none then some (s.openFd fd .foreign) else none
    | .foreignClose fd =>
      if s.fds fd = some .foreign then some (s.closeSocket (some fd)) else none

/-- The state in which a successful `Start` leaves the forwarder. -/
def started (fd : Nat) (clock : UInt64) (endpoints : List ResolvedEndpoint) : State where
  clock := clock
  fds := Function.update (fun _ => none) fd (some .listen)
  listenSocket := some fd
  targetEndpoints := endpoints
  trace := [.opened fd .listen]

/-- The UDP forwarder from the return of `Start` on. -/
def forwarder (p : Setup) : Machine State Action where
  Init s := ∃ fd clock outcome endpoints,
    resolveTargetEndpoints p.config outcome = .ok endpoints ∧ s = started fd clock endpoints
  step := step p

/-! ### A sample forwarder

Two IPv4 clients and one server, with the actions of common stretches of a run. -/

namespace Sample

/-- A `sockaddr_in`. -/
def inet (port : UInt16) (a b c d : UInt8) : SockAddr :=
  ⟨[2, 0, (port >>> 8).toUInt8, port.toUInt8, a, b, c, d, 0, 0, 0, 0, 0, 0, 0, 0]⟩

def alice : SockAddr := inet 40000 192 0 2 1
def bob : SockAddr := inet 40000 192 0 2 2
def server : SockAddr := inet 53 198 51 100 7

def setup : Setup where
  platform := .posix
  config := { targetHost := "198.51.100.7", udpSessionIdleTimeoutSeconds := 2 }
  getnameinfo address :=
    if address = alice then some ("192.0.2.1", "40000")
    else if address = bob then some ("192.0.2.2", "40000")
    else none

theorem names : NumericNames setup.getnameinfo where
  determines {a b name} ha hb := by
    simp only [setup] at ha hb
    grind
  decimal {a host service} ha := by
    simp only [setup] at ha
    split at ha
    · simp only [Option.some.injEq, Prod.mk.injEq] at ha
      exact ha.2 ▸ by decide
    · simp only [Option.ite_none_right_eq_some, Option.some.injEq, Prod.mk.injEq] at ha
      exact ha.2.2 ▸ by decide

/-- After a `Start` that resolved one endpoint and listens on descriptor 3. -/
def initial : State := started 3 0 [⟨.inet, server.bytes, _, rfl⟩]

theorem initial_init : (forwarder setup).Init initial :=
  ⟨3, 0, .found [⟨.inet, some server.bytes⟩], _, rfl, rfl⟩

/-- A datagram's contents, cut to what fits. -/
def payload (bytes : List UInt8) : Payload := ⟨bytes.take maxPayload, List.length_take_le _ _⟩

/-- An iteration of `UdpLoop` for a client that has no session. -/
def newClient (fd : Nat) (client : SockAddr) (payload : Payload) : List Action :=
  [.none, .none, .none, .datagram client payload, .none, .none, .socket fd, .none, .none,
    .started true, .none, .none, .sent, .none].map .udp

/-- The start of `UdpLoop`, and session 0 on descriptor 4 for the first client. -/
def oneClient : List Action := .udp .none :: newClient 4 alice (payload [1, 2])

/-- A reply loop from the head of its loop into `recvfrom`. -/
def awaitReply (σ : SessionId) : List Action := List.replicate 4 (.reply σ .none)

/-- A reply loop from `recvfrom` over the `sendto` back to the head of its loop. -/
def relayReply (σ : SessionId) (remote : SockAddr) (payload : Payload) : List Action :=
  [.datagram remote payload, .none, .sent, .none, .none].map (.reply σ)

/-- An iteration of `UdpLoop` that times out, with `steps` steps of the cleanup that follows. -/
def cleanup (entries : List (String × SessionId)) (steps : Nat) : List Action :=
  (([.none, .none, .none, .error .wouldBlock, .none, .none, .order entries] : List Answer) ++
    List.replicate steps Answer.none).map .udp

end Sample

end PortForwardX.Udp
