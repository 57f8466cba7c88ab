import PortForwardX.Udp.Step

/-!
# The steps of the UDP forwarder by name

For each thread, what a step presupposes and where it leads. Invariants are proved over
these relations and never unfold the step functions.
-/
namespace PortForwardX.Udp

open Transition Net

/-! ### What the results of `recvfrom` say -/

section recvfrom

variable {s : State} {a : Answer} {socket : Option Owner}

theorem recvfrom_data {owner : Owner} {remote : SockAddr}
    {bytes : List UInt8} (answer : recvfrom s socket a = some (.data owner remote bytes)) :
    socket = some owner ∧
      ∃ payload : Payload, a = .datagram remote payload ∧ payload.bytes = bytes := by
  unfold recvfrom at answer
  split at answer <;> simp_all

theorem recvfrom_socket {sender : SockAddr} {bytes : List UInt8}
    (answer : recvfrom s socket a = some (.data owner sender bytes)) : socket = some owner := by
  unfold recvfrom at answer
  split at answer <;> simp_all

theorem recvfrom_datagram {r : Received} {sender : SockAddr} {payload : Payload}
    (answer : recvfrom s socket (.datagram sender payload) = some r) :
    ∃ owner, r = .data owner sender payload.bytes := by
  cases socket with
  | none => cases answer
  | some owner => exact ⟨owner, by simpa [recvfrom] using answer.symm⟩

theorem recvfrom_nothing (answer : recvfrom s socket a = some .nothing) :
    a = .zero ∧ ∃ owner, socket = some owner ∧ s.shut owner = true := by
  unfold recvfrom at answer
  split at answer <;> simp_all

theorem recvfrom_failed {e : SocketError}
    (answer : recvfrom s socket a = some (.failed e)) : a = .error e := by
  unfold recvfrom at answer
  split at answer <;> simp_all

end recvfrom

/-! ### The threads -/

/-- The steps of a cleanup by name. -/
inductive CleanMove (p : Setup) (s : State) (c : Cleanup) : State → Cleanup → Prop
  | scanned (pc : c.pc = .scan) (todo : c.todo = []) : CleanMove p s c s { c with pc := .shutdown }
  | older {key : String} {σ : SessionId} {rest : List (String × SessionId)} (pc : c.pc = .scan)
      (todo : c.todo = (key, σ) :: rest) (limited : 0 < p.idleTimeoutMs)
      (older : (s.heap σ).lastActiveMs < c.now) :
      CleanMove p s c s { c with todo := rest, pc := .second key σ (s.heap σ).lastActiveMs }
  | recent {key : String} {σ : SessionId} {rest : List (String × SessionId)} (pc : c.pc = .scan)
      (todo : c.todo = (key, σ) :: rest)
      (recent : ¬ (0 < p.idleTimeoutMs ∧ (s.heap σ).lastActiveMs < c.now)) :
      CleanMove p s c s { c with todo := rest, pc := .decide key σ false }
  | idleTest {key : String} {σ : SessionId} {first : UInt64} (pc : c.pc = .second key σ first) :
      CleanMove p s c (s.log (.idleTest σ c.now first (s.heap σ).lastActiveMs))
        { c with pc := .decide key σ (p.idleTimeoutMs < c.now - (s.heap σ).lastActiveMs) }
  | spare {key : String} {σ : SessionId} {idle : Bool} (pc : c.pc = .decide key σ idle)
      (unforced : c.forceAll = false) (unmarked : (s.heap σ).markedForClose = false)
      (active : idle = false) : CleanMove p s c s { c with pc := .scan }
  | condemn {key : String} {σ : SessionId} {idle : Bool} (pc : c.pc = .decide key σ idle)
      (cause : c.forceAll = true ∨ (s.heap σ).markedForClose = true ∨ idle = true) :
      CleanMove p s c s { c with pc := .evict key σ (c.reason idle) }
  | evict {key : String} {σ : SessionId} {reason : CloseReason}
      (pc : c.pc = .evict key σ reason) :
      CleanMove p s c ({ s.mark σ with
          udpSessions := s.udpSessions.filter fun entry => entry.1 != key }.log (.evicted σ reason))
        { c with closing := c.closing ++ [σ], pc := .scan }
  | shutdown {σ : SessionId} {rest : List SessionId} (pc : c.pc = .shutdown)
      (closing : c.closing = σ :: rest) :
      CleanMove p s c (s.shutdownBoth (s.heap σ).upstreamSocket)
        { c with closing := rest, pc := .close σ }
  | close {σ : SessionId} (pc : c.pc = .close σ) :
      CleanMove p s c ((s.closeSocket (s.heap σ).upstreamSocket).log
        (.closed σ (s.heap σ).upstreamSocket)) { c with pc := .setInvalid σ }
  | setInvalid {σ : SessionId} (pc : c.pc = .setInvalid σ) :
      CleanMove p s c (s.invalidate σ) { c with pc := .join σ }
  | join {σ : SessionId} (pc : c.pc = .join σ) (ended : s.reply σ = .exited) :
      CleanMove p s c (s.gotoReply σ .joined) { c with pc := .shutdown }
  | unjoinable {σ : SessionId} (pc : c.pc = .join σ)
      (absent : s.reply σ = .notStarted ∨ s.reply σ = .joined) :
      CleanMove p s c s { c with pc := .shutdown }

theorem cleanStep_move {p : Setup} {s t : State} {c c' : Cleanup}
    (moved : cleanStep p s c = some (t, c')) : CleanMove p s c t c' := by
  unfold cleanStep at moved
  cases pc : c.pc with
  | scan =>
    cases todo : c.todo with
    | nil =>
      simp only [pc, todo, Option.some.injEq, Prod.mk.injEq] at moved
      obtain ⟨rfl, rfl⟩ := moved
      exact todo ▸ .scanned pc todo
    | cons entry rest =>
      obtain ⟨key, σ⟩ := entry
      simp only [pc, todo] at moved
      split at moved
      next older =>
        cases moved
        exact .older pc todo older.1 older.2
      next recent =>
        cases moved
        exact .recent pc todo recent
  | second key σ first =>
    simp only [pc, Option.some.injEq, Prod.mk.injEq] at moved
    obtain ⟨rfl, rfl⟩ := moved
    exact .idleTest pc
  | decide key σ idle =>
    simp only [pc, Bool.or_eq_true] at moved
    split at moved
    next cause =>
      cases moved
      exact .condemn pc (or_assoc.mp cause)
    next spared =>
      cases moved
      simp only [not_or, Bool.not_eq_true] at spared
      exact .spare pc spared.1.1 spared.1.2 spared.2
  | evict key σ reason =>
    simp only [pc, Option.some.injEq, Prod.mk.injEq] at moved
    obtain ⟨rfl, rfl⟩ := moved
    exact .evict pc
  | shutdown =>
    cases closing : c.closing with
    | nil => simp [pc, closing] at moved
    | cons σ rest =>
      simp only [pc, closing, Option.some.injEq, Prod.mk.injEq] at moved
      obtain ⟨rfl, rfl⟩ := moved
      exact .shutdown pc closing
  | close σ =>
    simp only [pc, Option.some.injEq, Prod.mk.injEq] at moved
    obtain ⟨rfl, rfl⟩ := moved
    exact .close pc
  | setInvalid σ =>
    simp only [pc, Option.some.injEq, Prod.mk.injEq] at moved
    obtain ⟨rfl, rfl⟩ := moved
    exact .setInvalid pc
  | join σ =>
    simp only [pc] at moved
    split at moved
    next ended =>
      cases moved
      exact .join pc ended
    next absent =>
      cases moved
      exact .unjoinable pc (.inl absent)
    next absent =>
      cases moved
      exact .unjoinable pc (.inr absent)
    · cases moved

/-- The steps of the UDP thread by name. -/
inductive UdpMove (p : Setup) (s : State) : Answer → State → Prop
  | start {a : Answer} (pc : s.udp = .start) :
      UdpMove p s a ({ s with lastUdpCleanupMs := s.clock }.goto .test)
  | test {a : Answer} (pc : s.udp = .test) :
      UdpMove p s a (s.goto (if s.running then .readListen else .enterCleanup true))
  | readListen {a : Answer} (pc : s.udp = .readListen) :
      UdpMove p s a (s.goto (.callRecv s.listenSocket))
  | callRecv {a : Answer} {socket : SocketHandle} (pc : s.udp = .callRecv socket) :
      UdpMove p s a (s.goto (.inRecv (s.resolve socket)))
  | recvDatagram {a : Answer} {socket : Option Owner} {owner : Owner} {client : SockAddr}
      {bytes : List UInt8} (pc : s.udp = .inRecv socket)
      (answer : recvfrom s socket a = some (.data owner client bytes)) (some_ : bytes ≠ []) :
      UdpMove p s a ((s.log (.recvListen owner client bytes)).goto (.lookup ⟨client, bytes⟩))
  | recvEmpty {a : Answer} {socket : Option Owner} {owner : Owner} {client : SockAddr}
      (pc : s.udp = .inRecv socket)
      (answer : recvfrom s socket a = some (.data owner client [])) :
      UdpMove p s a ((s.log (.recvListen owner client [])).goto .retest)
  | recvNothing {a : Answer} {socket : Option Owner} {r : Received} (pc : s.udp = .inRecv socket)
      (answer : recvfrom s socket a = some r) (none_ : ∀ owner client bytes,
        r ≠ .data owner client bytes) : UdpMove p s a (s.goto .retest)
  | retest {a : Answer} (pc : s.udp = .retest) :
      UdpMove p s a (s.goto (if s.running then .maybeCleanup else .enterCleanup true))
  | hit {a : Answer} {d : Datagram} {σ : SessionId} (pc : s.udp = .lookup d)
      (found : s.find (p.key d.client) = some σ) : UdpMove p s a (s.returnSession d σ)
  | miss {a : Answer} {d : Datagram} (pc : s.udp = .lookup d)
      (absent : s.find (p.key d.client) = none) : UdpMove p s a (s.goto (.snapshot d))
  | noTarget {a : Answer} {d : Datagram} (pc : s.udp = .snapshot d)
      (empty : s.targetEndpoints = []) : UdpMove p s a (s.goto .maybeCleanup)
  | snapshot {a : Answer} {d : Datagram} (pc : s.udp = .snapshot d)
      (nonempty : s.targetEndpoints ≠ []) :
      UdpMove p s a (s.goto (.createSocket d s.targetEndpoints))
  | noSocket {a : Answer} {d : Datagram} (pc : s.udp = .createSocket d []) :
      UdpMove p s a (s.goto .maybeCleanup)
  | tooLong {a : Answer} {d : Datagram} {endpoint : ResolvedEndpoint}
      {rest : List ResolvedEndpoint} (pc : s.udp = .createSocket d (endpoint :: rest))
      (long : sizeofSockaddrStorage < endpoint.sockaddrLen) :
      UdpMove p s a (s.goto (.createSocket d rest))
  | socketFailed {e : SocketError} {d : Datagram} {endpoint : ResolvedEndpoint}
      {rest : List ResolvedEndpoint} (pc : s.udp = .createSocket d (endpoint :: rest))
      (fits : endpoint.sockaddrLen ≤ sizeofSockaddrStorage) :
      UdpMove p s (.error e) (s.goto (.createSocket d rest))
  | socketMade {fd : Nat} {d : Datagram} {endpoint : ResolvedEndpoint}
      {rest : List ResolvedEndpoint} (pc : s.udp = .createSocket d (endpoint :: rest))
      (free : s.fds fd = none) :
      UdpMove p s (.socket fd) (((s.newSession fd ⟨endpoint.sockaddrBytes⟩ d.client).log
        (.created s.nextSession d.client ⟨endpoint.sockaddrBytes⟩)).goto
          (.initActive d s.nextSession))
  | initActive {a : Answer} {d : Datagram} {σ : SessionId} (pc : s.udp = .initActive d σ) :
      UdpMove p s a ((s.storeActive σ s.clock).goto (.emplace d σ))
  | emplace {a : Answer} {d : Datagram} {σ : SessionId} (pc : s.udp = .emplace d σ)
      (absent : s.find (p.key d.client) = none) :
      UdpMove p s a ({ s with udpSessions := (p.key d.client, σ) :: s.udpSessions }.goto
        (.startThread d σ))
  | emplaced {a : Answer} {d : Datagram} {σ τ : SessionId} (pc : s.udp = .emplace d σ)
      (found : s.find (p.key d.client) = some τ) :
      UdpMove p s a ((s.closeSocket (s.heap σ).upstreamSocket).returnSession d τ)
  | startThread {d : Datagram} {σ : SessionId} (pc : s.udp = .startThread d σ) :
      UdpMove p s (.started true) ((s.gotoReply σ .testRunning).returnSession d σ)
  | noThread {d : Datagram} {σ : SessionId} (pc : s.udp = .startThread d σ) :
      UdpMove p s (.started false) { s with terminated := true }
  | readClock {a : Answer} {d : Datagram} {σ : SessionId} (pc : s.udp = .readClock d σ) :
      UdpMove p s a (s.goto (.storeActive d σ s.clock))
  | storeActive {a : Answer} {d : Datagram} {σ : SessionId} {ms : UInt64}
      (pc : s.udp = .storeActive d σ ms) :
      UdpMove p s a ((s.storeActive σ ms).goto (.sendTo d σ))
  | sent {d : Datagram} {σ : SessionId} {owner : Owner} (pc : s.udp = .sendTo d σ)
      (open_ : s.resolve (s.heap σ).upstreamSocket = some owner) (some_ : d.buffer ≠ []) :
      UdpMove p s .sent ((s.log (.sendUpstream σ d.client owner
        (s.heap σ).targetAddr d.buffer false)).goto .maybeCleanup)
  | sentEmpty {d : Datagram} {σ : SessionId} {owner : Owner} (pc : s.udp = .sendTo d σ)
      (open_ : s.resolve (s.heap σ).upstreamSocket = some owner) (none_ : d.buffer = []) :
      UdpMove p s .sent (((s.log (.sendUpstream σ d.client owner
        (s.heap σ).targetAddr d.buffer true)).mark σ).goto .maybeCleanup)
  | sendFailed {e : SocketError} {d : Datagram} {σ : SessionId} (pc : s.udp = .sendTo d σ) :
      UdpMove p s (.error e) (((s.log (.sendUpstreamFailed σ)).mark σ).goto .maybeCleanup)
  | tooEarly {a : Answer} (pc : s.udp = .maybeCleanup)
      (early : s.clock - s.lastUdpCleanupMs < udpCleanupIntervalMs) : UdpMove p s a (s.goto .test)
  | cleanupDue {a : Answer} (pc : s.udp = .maybeCleanup)
      (due : ¬ s.clock - s.lastUdpCleanupMs < udpCleanupIntervalMs) :
      UdpMove p s a ({ s with lastUdpCleanupMs := s.clock }.goto (.enterCleanup false))
  | enterCleanup {forceAll : Bool} {entries : List (String × SessionId)}
      (pc : s.udp = .enterCleanup forceAll) (order : entries.Perm s.udpSessions) :
      UdpMove p s (.order entries) (s.goto (.cleaning ⟨forceAll, s.clock, entries, [], .scan⟩))
  | clean {a : Answer} {c c' : Cleanup} {t : State} (pc : s.udp = .cleaning c)
      (unfinished : c.finished = false) (move : CleanMove p s c t c') :
      UdpMove p s a (t.goto (.cleaning c'))
  | cleaned {a : Answer} {c : Cleanup} (pc : s.udp = .cleaning c) (finished : c.finished = true) :
      UdpMove p s a (s.goto (if c.forceAll then .exited else .test))

theorem sendStep_move {p : Setup} {s t : State} {d : Datagram} {σ : SessionId} {a : Answer}
    (pc : s.udp = .sendTo d σ) (moved : sendStep s d σ a = some t) : UdpMove p s a t := by
  unfold sendStep at moved
  split at moved
  next =>
    split at moved
    · cases moved
    next owner open_ =>
      -- the result is zero just if there was nothing to send
      by_cases none_ : d.buffer = []
      · simp only [none_, List.length_nil, Int.ofNat_zero, le_refl, decide_true, if_true,
          Option.some.injEq] at moved
        subst moved
        exact none_ ▸ .sentEmpty pc open_ none_
      · have positive : ¬ ((d.buffer.length : Int) ≤ 0) := by
          have := List.length_pos_iff.mpr none_
          omega
        simp only [positive, decide_false, if_false, Option.some.injEq] at moved
        exact moved ▸ .sent pc open_ none_
  next =>
    cases moved
    exact .sendFailed pc
  · cases moved

theorem createStep_move {p : Setup} {s t : State} {d : Datagram} {a : Answer}
    {endpoints : List ResolvedEndpoint} (pc : s.udp = .createSocket d endpoints)
    (moved : createStep s d a endpoints = some t) : UdpMove p s a t := by
  unfold createStep at moved
  split at moved
  next =>
    cases moved
    exact .noSocket pc
  next endpoint rest =>
    split at moved
    next long =>
      cases moved
      exact .tooLong pc long
    next fits =>
      split at moved
      next =>
        cases moved
        exact .socketFailed pc (Nat.le_of_not_lt fits)
      next =>
        split at moved
        next free =>
          cases moved
          exact .socketMade pc free
        · cases moved
      · cases moved

/-- Every step the UDP thread takes is one of the named moves. -/
theorem udpStep_move {p : Setup} {s t : State} {a : Answer} (moved : udpStep p s a = some t) :
    UdpMove p s a t := by
  unfold udpStep at moved
  split at moved
  next pc => exact Option.some.inj moved ▸ .start pc
  next pc => exact Option.some.inj moved ▸ .test pc
  next pc => exact Option.some.inj moved ▸ .readListen pc
  next socket pc => exact Option.some.inj moved ▸ .callRecv pc
  next socket pc =>
    split at moved
    · cases moved
    next owner client bytes answer =>
      -- `received <= 0` separates the empty datagram from the others
      dsimp only [Received.count] at moved
      cases bytes with
      | nil => exact Option.some.inj moved ▸ .recvEmpty pc answer
      | cons b bytes =>
        rw [if_neg (by simp)] at moved
        exact Option.some.inj moved ▸ .recvDatagram pc answer (List.cons_ne_nil _ _)
    next r other answer => exact Option.some.inj moved ▸ .recvNothing pc answer other
  next pc => exact Option.some.inj moved ▸ .retest pc
  next d pc =>
    split at moved
    next found => exact Option.some.inj moved ▸ .hit pc found
    next absent => exact Option.some.inj moved ▸ .miss pc absent
  next d pc =>
    by_cases empty : s.targetEndpoints = []
    · simp only [empty, List.isEmpty_nil, if_true, Option.some.injEq] at moved
      exact moved ▸ .noTarget pc empty
    · simp only [List.isEmpty_iff, empty, if_false, Option.some.injEq] at moved
      exact moved ▸ .snapshot pc empty
  next d endpoints pc => exact createStep_move pc moved
  next d σ pc => exact Option.some.inj moved ▸ .initActive pc
  next d σ pc =>
    split at moved
    next absent => exact Option.some.inj moved ▸ .emplace pc absent
    next found => exact Option.some.inj moved ▸ .emplaced pc found
  next d σ pc =>
    split at moved
    · exact Option.some.inj moved ▸ .startThread pc
    · exact Option.some.inj moved ▸ .noThread pc
    · cases moved
  next d σ pc => exact Option.some.inj moved ▸ .readClock pc
  next d σ ms pc => exact Option.some.inj moved ▸ .storeActive pc
  next d σ pc => exact sendStep_move pc moved
  next pc =>
    split at moved
    next early => exact Option.some.inj moved ▸ .tooEarly pc early
    next due => exact Option.some.inj moved ▸ .cleanupDue pc due
  next forceAll pc =>
    split at moved
    next entries =>
      split at moved
      next order => exact Option.some.inj moved ▸ .enterCleanup pc (List.isPerm_iff.mp order)
      · cases moved
    · cases moved
  next c pc =>
    split at moved
    next finished => exact Option.some.inj moved ▸ .cleaned pc finished
    next unfinished =>
      obtain ⟨⟨u, c'⟩, cleaned, rfl⟩ := Option.map_eq_some_iff.mp moved
      exact .clean pc (by simpa using unfinished) (cleanStep_move cleaned)
  · cases moved

/-- The steps of a reply loop by name. -/
inductive ReplyMove (p : Setup) (s : State) (σ : SessionId) : Answer → State → Prop
  | testRunning {a : Answer} (pc : s.reply σ = .testRunning) :
      ReplyMove p s σ a (s.gotoReply σ (if s.running then .testMarked else .leaving))
  | testMarked {a : Answer} (pc : s.reply σ = .testMarked) :
      ReplyMove p s σ a (s.gotoReply σ (if (s.heap σ).markedForClose then .leaving
        else .readSocket))
  | readSocket {a : Answer} (pc : s.reply σ = .readSocket) :
      ReplyMove p s σ a (s.gotoReply σ (.callRecv (s.heap σ).upstreamSocket))
  | callInvalid {a : Answer} (pc : s.reply σ = .callRecv none) :
      ReplyMove p s σ a (s.gotoReply σ (.inRecv none))
  | callRecv {a : Answer} {fd : Nat} (pc : s.reply σ = .callRecv (some fd)) :
      ReplyMove p s σ a ((s.log (.callRecv σ fd (s.fds fd))).gotoReply σ (.inRecv (s.fds fd)))
  | recvDatagram {a : Answer} {socket : Option Owner} {owner : Owner} {remote : SockAddr}
      {bytes : List UInt8} (pc : s.reply σ = .inRecv socket)
      (answer : recvfrom s socket a = some (.data owner remote bytes)) (some_ : bytes ≠ []) :
      ReplyMove p s σ a ((s.log (.recvUpstream σ owner remote bytes)).gotoReply σ
        (.readListen remote bytes))
  | recvEmpty {a : Answer} {socket : Option Owner} {owner : Owner} {remote : SockAddr}
      (pc : s.reply σ = .inRecv socket)
      (answer : recvfrom s socket a = some (.data owner remote [])) :
      ReplyMove p s σ a ((s.log (.recvUpstream σ owner remote [])).gotoReply σ .leaving)
  | recvZero {a : Answer} {socket : Option Owner} (pc : s.reply σ = .inRecv socket)
      (answer : recvfrom s socket a = some .nothing) :
      ReplyMove p s σ a (s.gotoReply σ .leaving)
  | recvFailed {a : Answer} {socket : Option Owner} {e : SocketError}
      (pc : s.reply σ = .inRecv socket) (answer : recvfrom s socket a = some (.failed e)) :
      ReplyMove p s σ a (s.gotoReply σ (if isTransientRecvError p.platform e then .testRunning
        else .leaving))
  | readListen {a : Answer} {remote : SockAddr} {buffer : List UInt8}
      (pc : s.reply σ = .readListen remote buffer) :
      ReplyMove p s σ a (s.gotoReply σ (.callSend s.listenSocket remote buffer))
  | sent {socket : SocketHandle} {owner : Owner} {remote : SockAddr} {buffer : List UInt8}
      (pc : s.reply σ = .callSend socket remote buffer) (open_ : s.resolve socket = some owner) :
      ReplyMove p s σ .sent ((s.log (.sendClient σ owner (s.heap σ).clientAddr remote
        buffer)).gotoReply σ (if buffer = [] then .leaving else .readClock))
  | sendFailed {socket : SocketHandle} {e : SocketError} {remote : SockAddr}
      {buffer : List UInt8} (pc : s.reply σ = .callSend socket remote buffer) :
      ReplyMove p s σ (.error e) ((s.log (.sendClientFailed σ)).gotoReply σ .leaving)
  | readClock {a : Answer} (pc : s.reply σ = .readClock) :
      ReplyMove p s σ a (s.gotoReply σ (.storeActive s.clock))
  | storeActive {a : Answer} {ms : UInt64} (pc : s.reply σ = .storeActive ms) :
      ReplyMove p s σ a ((s.storeActive σ ms).gotoReply σ .testRunning)
  | leaving {a : Answer} (pc : s.reply σ = .leaving) :
      ReplyMove p s σ a ((s.mark σ).gotoReply σ .exited)

/-- Every step a reply loop takes is one of the named moves. -/
theorem replyStep_move {p : Setup} {s t : State} {σ : SessionId} {a : Answer}
    (moved : replyStep p s σ a = some t) : ReplyMove p s σ a t := by
  unfold replyStep at moved
  split at moved
  · cases moved
  next pc => exact Option.some.inj moved ▸ .testRunning pc
  next pc => exact Option.some.inj moved ▸ .testMarked pc
  next pc => exact Option.some.inj moved ▸ .readSocket pc
  next pc => exact Option.some.inj moved ▸ .callInvalid pc
  next fd pc => exact Option.some.inj moved ▸ .callRecv pc
  next socket pc =>
    split at moved
    · cases moved
    next owner remote bytes answer =>
      dsimp only [Received.count] at moved
      cases bytes with
      | nil => exact Option.some.inj moved ▸ .recvEmpty pc answer
      | cons b bytes =>
        rw [if_neg (by simp)] at moved
        exact Option.some.inj moved ▸ .recvDatagram pc answer (List.cons_ne_nil _ _)
    next answer => exact Option.some.inj moved ▸ .recvZero pc answer
    next e answer => exact Option.some.inj moved ▸ .recvFailed pc answer
  next remote buffer pc => exact Option.some.inj moved ▸ .readListen pc
  next socket remote buffer pc =>
    split at moved
    next =>
      split at moved
      · cases moved
      next owner open_ =>
        -- `sent <= 0` holds for an empty buffer only
        have same : ((buffer.length : Int) ≤ 0) = (buffer = []) := by
          rw [← List.length_eq_zero_iff]
          exact propext ⟨fun h => by omega, fun h => by omega⟩
        simp only [same, Option.some.injEq] at moved
        exact moved ▸ .sent pc open_
    next => exact Option.some.inj moved ▸ .sendFailed pc
    · cases moved
  next pc => exact Option.some.inj moved ▸ .readClock pc
  next ms pc => exact Option.some.inj moved ▸ .storeActive pc
  next pc => exact Option.some.inj moved ▸ .leaving pc
  · cases moved
  · cases moved

/-! ### `Stop` and `ResolverLoop` -/

/-- The steps of the `Stop` call by name. -/
inductive StopMove (p : Setup) (s : State) : Answer → State → Prop
  | shutdownListen {a : Answer} (pc : s.stop = .shutdownListen) :
      StopMove p s a { s.shutdownBoth s.listenSocket with stop := .closeListen }
  | closeListen {a : Answer} (pc : s.stop = .closeListen) :
      StopMove p s a { s.closeSocket s.listenSocket with stop := .setListenInvalid }
  | setListenInvalid {a : Answer} (pc : s.stop = .setListenInvalid) :
      StopMove p s a { s with listenSocket := kInvalidSocket, stop := .joinUdp }
  | joinUdp {a : Answer} (pc : s.stop = .joinUdp) (ended : s.udp = .exited) :
      StopMove p s a { s with stop := .joinResolver }
  | joinResolver {a : Answer} (pc : s.stop = .joinResolver) (ended : s.resolver = .exited) :
      StopMove p s a { s with stop := .enterCleanup }
  | enterCleanup {entries : List (String × SessionId)} (pc : s.stop = .enterCleanup)
      (order : entries.Perm s.udpSessions) :
      StopMove p s (.order entries)
        { s with stop := .cleaning ⟨true, s.clock, entries, [], .scan⟩ }
  | clean {a : Answer} {c c' : Cleanup} {t : State} (pc : s.stop = .cleaning c)
      (unfinished : c.finished = false) (move : CleanMove p s c t c') :
      StopMove p s a { t with stop := .cleaning c' }
  | cleaned {a : Answer} {c : Cleanup} (pc : s.stop = .cleaning c) (finished : c.finished = true) :
      StopMove p s a { s with stop := .done }

/-- Every step of the `Stop` call is one of the named moves. -/
theorem stopStep_move {p : Setup} {s t : State} {a : Answer} (moved : stopStep p s a = some t) :
    StopMove p s a t := by
  unfold stopStep at moved
  split at moved
  · cases moved
  next pc => exact Option.some.inj moved ▸ .shutdownListen pc
  next pc => exact Option.some.inj moved ▸ .closeListen pc
  next pc => exact Option.some.inj moved ▸ .setListenInvalid pc
  next pc =>
    split at moved
    next ended => exact Option.some.inj moved ▸ .joinUdp pc ended
    · cases moved
  next pc =>
    split at moved
    next ended => exact Option.some.inj moved ▸ .joinResolver pc ended
    · cases moved
  next pc =>
    split at moved
    next entries =>
      split at moved
      next order => exact Option.some.inj moved ▸ .enterCleanup pc (List.isPerm_iff.mp order)
      · cases moved
    · cases moved
  next c pc =>
    split at moved
    next finished => exact Option.some.inj moved ▸ .cleaned pc finished
    next unfinished =>
      obtain ⟨⟨u, c'⟩, cleaned, rfl⟩ := Option.map_eq_some_iff.mp moved
      exact .clean pc (by simpa using unfinished) (cleanStep_move cleaned)
  · cases moved

/-- A step of the resolver thread touches its own control point and the target list. -/
theorem resolverStep_move {p : Setup} {s t : State} {a : Answer}
    (moved : resolverStep p s a = some t) :
    ∃ pc endpoints, t = { s with resolver := pc, targetEndpoints := endpoints } ∧
      (endpoints = s.targetEndpoints ∨
        ∃ outcome, resolveTargetEndpoints p.config outcome = .ok endpoints) := by
  unfold resolverStep at moved
  split at moved
  next =>
    split at moved
    next outcome =>
      split at moved
      next endpoints resolved =>
        exact ⟨_, _, (Option.some.inj moved).symm, .inr ⟨outcome, resolved⟩⟩
      · exact ⟨_, _, (Option.some.inj moved).symm, .inl rfl⟩
    · cases moved
  next =>
    obtain ⟨pc, -, rfl⟩ := Option.map_eq_some_iff.mp moved
    exact ⟨pc, _, rfl, .inl rfl⟩

/-! ### The forwarder -/

/-- The steps of the forwarder by actor. -/
inductive Move (p : Setup) (s : State) : Action → State → Prop
  | udp {a : Answer} {t : State} (move : UdpMove p s a t) : Move p s (.udp a) t
  | reply {σ : SessionId} {a : Answer} {t : State} (move : ReplyMove p s σ a t) :
      Move p s (.reply σ a) t
  | resolver {a : Answer} {pc : ResolverPc} {endpoints : List ResolvedEndpoint}
      (source : endpoints = s.targetEndpoints ∨
        ∃ outcome, resolveTargetEndpoints p.config outcome = .ok endpoints) :
      Move p s (.resolver a) { s with resolver := pc, targetEndpoints := endpoints }
  | callStop (pc : s.stop = .idle) :
      Move p s .callStop { s with running := false, stop := .shutdownListen }
  | stop {a : Answer} {t : State} (move : StopMove p s a t) : Move p s (.stop a) t
  | tick {ms : UInt64} (later : s.clock ≤ ms) : Move p s (.tick ms) { s with clock := ms }
  | foreignOpen {fd : Nat} (free : s.fds fd = none) :
      Move p s (.foreignOpen fd) (s.openFd fd .foreign)
  | foreignClose {fd : Nat} (foreign : s.fds fd = some .foreign) :
      Move p s (.foreignClose fd) (s.closeSocket (some fd))

theorem step_move {p : Setup} {s t : State} {action : Action}
    (moved : (forwarder p).step s action = some t) : Move p s action t := by
  change step p s action = some t at moved
  unfold step at moved
  split at moved
  · cases moved
  split at moved
  next a => exact .udp (udpStep_move moved)
  next σ a => exact .reply (replyStep_move moved)
  next a =>
    obtain ⟨pc, endpoints, rfl, source⟩ := resolverStep_move moved
    exact .resolver source
  next =>
    split at moved
    next pc => exact Option.some.inj moved ▸ .callStop pc
    · cases moved
  next a => exact .stop (stopStep_move moved)
  next ms =>
    split at moved
    next later => exact Option.some.inj moved ▸ .tick later
    · cases moved
  next fd =>
    split at moved
    next free => exact Option.some.inj moved ▸ .foreignOpen free
    · cases moved
  next fd =>
    split at moved
    next foreign => exact Option.some.inj moved ▸ .foreignClose foreign
    · cases moved

end PortForwardX.Udp
