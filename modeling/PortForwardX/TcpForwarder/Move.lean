import PortForwardX.TcpForwarder.Step

/-!
# The steps of the TCP forwarder by name

For each thread, what a step presupposes and where it leads.
-/
namespace PortForwardX.TcpForwarder

open Transition Net

variable {p : Setup} {s t : State} {c c' : Cleanup} {a : Answer}

/-- `Join` waits for a worker that has not been joined and does nothing otherwise. -/
theorem State.join_cases {ref : SessionRef} (joined : s.join ref = some t) :
    ((s.heap ref).worker = .joinable ∧ (s.heap ref).state.worker = .done ∧ t = s.joinWorker ref) ∨
      ((s.heap ref).worker ≠ .joinable ∧ t = s) := by
  unfold State.join at joined
  split at joined
  next joinable =>
    split at joined
    next done => exact .inl ⟨joinable, done, (Option.some.inj joined).symm⟩
    · cases joined
  next absent => exact .inr ⟨by simp [absent], (Option.some.inj joined).symm⟩
  next absent => exact .inr ⟨by simp [absent], (Option.some.inj joined).symm⟩

/-- The steps of a cleanup by name. -/
inductive CleanupMove (s : State) (c : Cleanup) : Answer → State → Cleanup → Prop
  | lock {entries : List (UInt64 × SessionRef)} (pc : c.pc = .lock) (free : s.sessionMutex = none)
      (order : entries.Perm s.sessions) :
      CleanupMove s c (.order entries)
        { s with sessionMutex := some .acceptor, found := entries, tests := [] }
        { c with todo := entries, pc := .scan }
  | scanned {a : Answer} (pc : c.pc = .scan) (todo : c.todo = []) :
      CleanupMove s c a s { c with pc := .unlock }
  | spare {a : Answer} {id : UInt64} {ref : SessionRef} {rest : List (UInt64 × SessionRef)}
      (pc : c.pc = .scan) (todo : c.todo = (id, ref) :: rest)
      (unfinished : (s.heap ref).state.finished = false) :
      CleanupMove s c a { s with tests := s.tests ++ [((id, ref), false)] }
        { c with todo := rest, pc := .scan }
  | condemn {a : Answer} {id : UInt64} {ref : SessionRef} {rest : List (UInt64 × SessionRef)}
      (pc : c.pc = .scan) (todo : c.todo = (id, ref) :: rest)
      (finished : (s.heap ref).state.finished = true) :
      CleanupMove s c a { s with tests := s.tests ++ [((id, ref), true)] }
        { c with todo := rest, pc := .erase id ref }
  | erase {a : Answer} {id : UInt64} {ref : SessionRef} (pc : c.pc = .erase id ref) :
      CleanupMove s c a (s.eraseEntry id)
        { c with finishedSessions := c.finishedSessions ++ [ref]
                 finishedPeers := c.finishedPeers ++ [(s.sessionPeers.lookup id).getD "unknown"]
                 pc := .scan }
  | unlock {a : Answer} (pc : c.pc = .unlock) :
      CleanupMove s c a { s with sessionMutex := none } { c with pc := .join c.finishedSessions }
  | joined {a : Answer} (pc : c.pc = .join []) :
      CleanupMove s c a s { c with pc := .destroy c.finishedSessions }
  | join {a : Answer} {ref : SessionRef} {rest : List SessionRef} {t : State}
      (pc : c.pc = .join (ref :: rest)) (moved : s.join ref = some t) :
      CleanupMove s c a t { c with pc := .join rest }
  | destroy {a : Answer} {ref : SessionRef} {rest : List SessionRef}
      (pc : c.pc = .destroy (ref :: rest)) :
      CleanupMove s c a (s.callStop ref) { c with pc := .inDestructor ref rest }
  | destructor {a : Answer} {ref : SessionRef} {rest : List SessionRef} {t : State}
      (pc : c.pc = .inDestructor ref rest) (returned : s.stopReturned ref = true)
      (moved : s.join ref = some t) : CleanupMove s c a t { c with pc := .destroy rest }

theorem cleanupStep_move (moved : cleanupStep s c a = some (t, c')) : CleanupMove s c a t c' := by
  unfold cleanupStep at moved
  split at moved
  next pc =>
    split at moved
    next entries =>
      split at moved
      next allowed =>
        cases moved
        exact .lock pc allowed.1 (List.isPerm_iff.mp allowed.2)
      · cases moved
    · cases moved
  next pc =>
    split at moved
    next todo =>
      cases moved
      exact .scanned pc todo
    next id ref rest todo =>
      dsimp only at moved
      cases finished : (s.heap ref).state.finished with
      | false =>
        rw [finished] at moved
        cases moved
        exact .spare pc todo finished
      | true =>
        rw [finished] at moved
        cases moved
        exact .condemn pc todo finished
  next id ref pc =>
    cases moved
    exact .erase pc
  next pc =>
    cases moved
    exact .unlock pc
  next pc =>
    cases moved
    exact .joined pc
  next ref rest pc =>
    obtain ⟨u, joined, same⟩ := Option.map_eq_some_iff.mp moved
    cases same
    exact .join pc joined
  next => cases moved
  next ref rest pc =>
    cases moved
    exact .destroy pc
  next ref rest pc =>
    split at moved
    next returned =>
      obtain ⟨u, joined, same⟩ := Option.map_eq_some_iff.mp moved
      cases same
      exact .destructor pc returned joined
    · cases moved

/-- The steps of the accept thread by name. -/
inductive AcceptMove (p : Setup) (s : State) : Answer → State → Prop
  | test {a : Answer} (pc : s.accept = .test) :
      AcceptMove p s a (s.goto (.cleanup { afterLoop := !s.running }))
  | clean {a : Answer} {c c' : Cleanup} {t : State} (pc : s.accept = .cleanup c)
      (unfinished : c.finished = false) (move : CleanupMove s c a t c') :
      AcceptMove p s a (t.goto (.cleanup c'))
  | cleaned {a : Answer} {c : Cleanup} (pc : s.accept = .cleanup c) (finished : c.finished = true) :
      AcceptMove p s a (s.goto (if c.afterLoop then .exited else .callAccept))
  | accepted {peer : SockAddr} (pc : s.accept = .callAccept) :
      AcceptMove p s (.accepted peer) (s.openSocket.goto (.snapshot s.nextSocket peer))
  | notAccepted (pc : s.accept = .callAccept) : AcceptMove p s .failed (s.goto .retest)
  | retest {a : Answer} (pc : s.accept = .retest) :
      AcceptMove p s a (s.goto (if s.running then .test else .cleanup { afterLoop := true }))
  | snapshotEmpty {a : Answer} {client : SocketId} {peer : SockAddr}
      (pc : s.accept = .snapshot client peer) (empty : s.targetEndpoints = []) :
      AcceptMove p s a (s.goto (.refresh client peer))
  | snapshot {a : Answer} {client : SocketId} {peer : SockAddr}
      (pc : s.accept = .snapshot client peer) (nonempty : s.targetEndpoints ≠ []) :
      AcceptMove p s a (s.goto (.makeSocket client peer s.targetEndpoints))
  | refreshed {client : SocketId} {peer : SockAddr} {outcome : GetAddrInfo}
      {endpoints : List ResolvedEndpoint} (pc : s.accept = .refresh client peer)
      (resolved : resolveTargetEndpoints p.config outcome = .ok endpoints) :
      AcceptMove p s (.resolved outcome)
        ({ s with targetEndpoints := endpoints }.goto (.snapshotAgain client peer))
  | notRefreshed {client : SocketId} {peer : SockAddr} {outcome : GetAddrInfo} {error : String}
      (pc : s.accept = .refresh client peer)
      (failed : resolveTargetEndpoints p.config outcome = .error error) :
      AcceptMove p s (.resolved outcome) (s.goto (.snapshotAgain client peer))
  | noTarget {a : Answer} {client : SocketId} {peer : SockAddr}
      (pc : s.accept = .snapshotAgain client peer) (empty : s.targetEndpoints = []) :
      AcceptMove p s a (s.goto (.closeClient client))
  | snapshotAgain {a : Answer} {client : SocketId} {peer : SockAddr}
      (pc : s.accept = .snapshotAgain client peer) (nonempty : s.targetEndpoints ≠ []) :
      AcceptMove p s a (s.goto (.makeSocket client peer s.targetEndpoints))
  | unconnected {a : Answer} {client : SocketId} {peer : SockAddr}
      (pc : s.accept = .makeSocket client peer []) : AcceptMove p s a (s.goto (.closeClient client))
  | made {client : SocketId} {peer : SockAddr} {endpoint : ResolvedEndpoint}
      {rest : List ResolvedEndpoint} (pc : s.accept = .makeSocket client peer (endpoint :: rest)) :
      AcceptMove p s .made (s.openSocket.goto (.connect client peer s.nextSocket rest))
  | notMade {client : SocketId} {peer : SockAddr} {endpoint : ResolvedEndpoint}
      {rest : List ResolvedEndpoint} (pc : s.accept = .makeSocket client peer (endpoint :: rest)) :
      AcceptMove p s .failed (s.goto (.makeSocket client peer rest))
  | connected {client candidate : SocketId} {peer : SockAddr} {rest : List ResolvedEndpoint}
      (pc : s.accept = .connect client peer candidate rest) :
      AcceptMove p s .connected (s.goto (.lock client candidate peer))
  | notConnected {client candidate : SocketId} {peer : SockAddr} {rest : List ResolvedEndpoint}
      (pc : s.accept = .connect client peer candidate rest) :
      AcceptMove p s .failed (s.goto (.closeCandidate client peer candidate rest))
  | closeCandidate {a : Answer} {client candidate : SocketId} {peer : SockAddr}
      {rest : List ResolvedEndpoint} (pc : s.accept = .closeCandidate client peer candidate rest) :
      AcceptMove p s a ((s.closeSocket candidate).goto (.makeSocket client peer rest))
  | closeClient {a : Answer} {client : SocketId} (pc : s.accept = .closeClient client) :
      AcceptMove p s a ((s.closeSocket client).goto .test)
  | lock {a : Answer} {client upstream : SocketId} {peer : SockAddr}
      (pc : s.accept = .lock client upstream peer) (free : s.sessionMutex = none) :
      AcceptMove p s a ({ s with sessionMutex := some .acceptor }.goto (.count client upstream peer))
  | count {a : Answer} {client upstream : SocketId} {peer : SockAddr}
      (pc : s.accept = .count client upstream peer) :
      AcceptMove p s a ({ s with nextSessionId := s.nextSessionId + 1 }.goto
        (.make client upstream peer (s.nextSessionId + 1)))
  | make {a : Answer} {client upstream : SocketId} {peer : SockAddr} {id : UInt64}
      (pc : s.accept = .make client upstream peer id) :
      AcceptMove p s a ((s.makeSession client upstream).goto (.insertSession s.nextRef peer id))
  | insertSession {a : Answer} {ref : SessionRef} {peer : SockAddr} {id : UInt64}
      (pc : s.accept = .insertSession ref peer id) :
      AcceptMove p s a ((s.insertSession id ref).goto (.insertPeer ref peer id))
  | insertPeer {a : Answer} {ref : SessionRef} {peer : SockAddr} {id : UInt64}
      (pc : s.accept = .insertPeer ref peer id) :
      AcceptMove p s a ((s.insertPeer id (endpointToString p.getnameinfo peer)).goto (.unlock ref))
  | unlock {a : Answer} {ref : SessionRef} (pc : s.accept = .unlock ref) :
      AcceptMove p s a ({ s with sessionMutex := none }.goto (.start ref))
  | started {ref : SessionRef} (pc : s.accept = .start ref) :
      AcceptMove p s (.started true) ((s.startWorker ref).goto .test)
  | throws {ref : SessionRef} (pc : s.accept = .start ref) :
      AcceptMove p s (.started false) { s with terminated := true }

theorem acceptStep_move (moved : acceptStep p s a = some t) : AcceptMove p s a t := by
  unfold acceptStep at moved
  split at moved
  next pc => exact Option.some.inj moved ▸ .test pc
  next c pc =>
    split at moved
    next finished => exact Option.some.inj moved ▸ .cleaned pc finished
    next unfinished =>
      obtain ⟨⟨u, c'⟩, cleaned, rfl⟩ := Option.map_eq_some_iff.mp moved
      exact .clean pc (by simpa using unfinished) (cleanupStep_move cleaned)
  next pc =>
    split at moved
    next peer => exact Option.some.inj moved ▸ .accepted pc
    next => exact Option.some.inj moved ▸ .notAccepted pc
    · cases moved
  next pc => exact Option.some.inj moved ▸ .retest pc
  next client peer pc =>
    by_cases empty : s.targetEndpoints = []
    · rw [if_pos (by simpa using empty)] at moved
      exact Option.some.inj moved ▸ .snapshotEmpty pc empty
    · rw [if_neg (by simpa using empty)] at moved
      exact Option.some.inj moved ▸ .snapshot pc empty
  next client peer pc =>
    split at moved
    next outcome =>
      split at moved
      next endpoints resolved => exact Option.some.inj moved ▸ .refreshed pc resolved
      next failed => exact Option.some.inj moved ▸ .notRefreshed pc failed
    · cases moved
  next client peer pc =>
    by_cases empty : s.targetEndpoints = []
    · rw [if_pos (by simpa using empty)] at moved
      exact Option.some.inj moved ▸ .noTarget pc empty
    · rw [if_neg (by simpa using empty)] at moved
      exact Option.some.inj moved ▸ .snapshotAgain pc empty
  next client peer pc => exact Option.some.inj moved ▸ .unconnected pc
  next client peer endpoint rest pc =>
    split at moved
    next => exact Option.some.inj moved ▸ .made pc
    next => exact Option.some.inj moved ▸ .notMade pc
    · cases moved
  next client peer candidate rest pc =>
    split at moved
    next => exact Option.some.inj moved ▸ .connected pc
    next => exact Option.some.inj moved ▸ .notConnected pc
    · cases moved
  next client peer candidate rest pc => exact Option.some.inj moved ▸ .closeCandidate pc
  next client pc => exact Option.some.inj moved ▸ .closeClient pc
  next client upstream peer pc =>
    split at moved
    next free => exact Option.some.inj moved ▸ .lock pc free
    · cases moved
  next client upstream peer pc => exact Option.some.inj moved ▸ .count pc
  next client upstream peer id pc => exact Option.some.inj moved ▸ .make pc
  next ref peer id pc => exact Option.some.inj moved ▸ .insertSession pc
  next ref peer id pc => exact Option.some.inj moved ▸ .insertPeer pc
  next ref pc => exact Option.some.inj moved ▸ .unlock pc
  next ref pc =>
    split at moved
    next => exact Option.some.inj moved ▸ .started pc
    next => exact Option.some.inj moved ▸ .throws pc
    · cases moved
  next => cases moved

/-- The steps of the `Stop` call by name. -/
inductive StopMove (s : State) : Answer → State → Prop
  | shutdownListen {a : Answer} (pc : s.stop = .shutdownListen) :
      StopMove s a { s with stop := .closeListen }
  | closeListen {a : Answer} (pc : s.stop = .closeListen) :
      StopMove s a { s with listenOpen := false, stop := .setListenInvalid }
  | setListenInvalid {a : Answer} (pc : s.stop = .setListenInvalid) :
      StopMove s a { s with listenSocket := kInvalidSocket, stop := .joinAccept }
  | joinAccept {a : Answer} (pc : s.stop = .joinAccept) (ended : s.accept = .exited) :
      StopMove s a { s with stop := .joinResolver }
  | joinResolver {a : Answer} (pc : s.stop = .joinResolver) (ended : s.resolver = .exited) :
      StopMove s a { s with stop := .lock }
  | lock {a : Answer} (pc : s.stop = .lock) (free : s.sessionMutex = none) :
      StopMove s a { s with sessionMutex := some .stopper, stop := .copy }
  | copy {entries : List (UInt64 × SessionRef)} (pc : s.stop = .copy)
      (order : entries.Perm s.sessions) :
      StopMove s (.order entries) { s with stop := .unlock (entries.map Prod.snd) }
  | unlock {a : Answer} {sessions : List SessionRef} (pc : s.stop = .unlock sessions) :
      StopMove s a { s with sessionMutex := none, stop := .stopEach sessions sessions }
  | stopped {a : Answer} {sessions : List SessionRef} (pc : s.stop = .stopEach sessions []) :
      StopMove s a { s with stop := .joinEach sessions sessions }
  | callStop {a : Answer} {sessions rest : List SessionRef} {ref : SessionRef}
      (pc : s.stop = .stopEach sessions (ref :: rest)) :
      StopMove s a { s.callStop ref with stop := .inStop sessions ref rest }
  | stopReturned {a : Answer} {sessions rest : List SessionRef} {ref : SessionRef}
      (pc : s.stop = .inStop sessions ref rest) (returned : s.stopReturned ref = true) :
      StopMove s a { s with stop := .stopEach sessions rest }
  | joined {a : Answer} {sessions : List SessionRef} (pc : s.stop = .joinEach sessions []) :
      StopMove s a { s with stop := .lockAgain sessions }
  | join {a : Answer} {sessions rest : List SessionRef} {ref : SessionRef} {t : State}
      (pc : s.stop = .joinEach sessions (ref :: rest)) (moved : s.join ref = some t) :
      StopMove s a { t with stop := .joinEach sessions rest }
  | lockAgain {a : Answer} {sessions : List SessionRef} (pc : s.stop = .lockAgain sessions)
      (free : s.sessionMutex = none) :
      StopMove s a { s with sessionMutex := some .stopper, stop := .clearSessions sessions }
  | clearSessions {a : Answer} {sessions : List SessionRef} (pc : s.stop = .clearSessions sessions) :
      StopMove s a { s with sessions := [], stop := .clearPeers sessions }
  | clearPeers {a : Answer} {sessions : List SessionRef} (pc : s.stop = .clearPeers sessions) :
      StopMove s a { s with sessionPeers := [], stop := .unlockAgain sessions }
  | unlockAgain {a : Answer} {sessions : List SessionRef} (pc : s.stop = .unlockAgain sessions) :
      StopMove s a { s with sessionMutex := none, stop := .destroy sessions }
  | destroyed {a : Answer} (pc : s.stop = .destroy []) : StopMove s a { s with stop := .done }
  | destroy {a : Answer} {rest : List SessionRef} {ref : SessionRef}
      (pc : s.stop = .destroy (ref :: rest)) :
      StopMove s a { s.callStop ref with stop := .inDestructor ref rest }
  | destructor {a : Answer} {rest : List SessionRef} {ref : SessionRef} {t : State}
      (pc : s.stop = .inDestructor ref rest) (returned : s.stopReturned ref = true)
      (moved : s.join ref = some t) : StopMove s a { t with stop := .destroy rest }

theorem stopStep_move (moved : stopStep s a = some t) : StopMove s a t := by
  unfold stopStep at moved
  split at moved
  next => cases moved
  next pc => exact Option.some.inj moved ▸ .shutdownListen pc
  next pc => exact Option.some.inj moved ▸ .closeListen pc
  next pc => exact Option.some.inj moved ▸ .setListenInvalid pc
  next pc =>
    split at moved
    next ended => exact Option.some.inj moved ▸ .joinAccept pc ended
    · cases moved
  next pc =>
    split at moved
    next ended => exact Option.some.inj moved ▸ .joinResolver pc ended
    · cases moved
  next pc =>
    split at moved
    next free => exact Option.some.inj moved ▸ .lock pc free
    · cases moved
  next pc =>
    split at moved
    next entries =>
      split at moved
      next order => exact Option.some.inj moved ▸ .copy pc (List.isPerm_iff.mp order)
      · cases moved
    · cases moved
  next sessions pc => exact Option.some.inj moved ▸ .unlock pc
  next sessions pc => exact Option.some.inj moved ▸ .stopped pc
  next sessions ref rest pc => exact Option.some.inj moved ▸ .callStop pc
  next sessions ref rest pc =>
    split at moved
    next returned => exact Option.some.inj moved ▸ .stopReturned pc returned
    · cases moved
  next sessions pc => exact Option.some.inj moved ▸ .joined pc
  next sessions ref rest pc =>
    obtain ⟨u, joined, rfl⟩ := Option.map_eq_some_iff.mp moved
    exact .join pc joined
  next sessions pc =>
    split at moved
    next free => exact Option.some.inj moved ▸ .lockAgain pc free
    · cases moved
  next sessions pc => exact Option.some.inj moved ▸ .clearSessions pc
  next sessions pc => exact Option.some.inj moved ▸ .clearPeers pc
  next sessions pc => exact Option.some.inj moved ▸ .unlockAgain pc
  next pc => exact Option.some.inj moved ▸ .destroyed pc
  next ref rest pc => exact Option.some.inj moved ▸ .destroy pc
  next ref rest pc =>
    split at moved
    next returned =>
      obtain ⟨u, joined, rfl⟩ := Option.map_eq_some_iff.mp moved
      exact .destructor pc returned joined
    · cases moved
  next => cases moved

/-- A step of the resolver thread touches its own control point and the target list. -/
theorem resolverStep_move (moved : resolverStep p s a = some t) :
    ∃ pc endpoints, t = { s with resolver := pc, targetEndpoints := endpoints } ∧
      (endpoints = s.targetEndpoints ∨
        ∃ outcome, resolveTargetEndpoints p.config outcome = .ok endpoints) := by
  unfold resolverStep at moved
  split at moved
  next =>
    split at moved
    next outcome =>
      split at moved
      next endpoints resolved =>
        exact ⟨_, _, (Option.some.inj moved).symm, .inr ⟨outcome, resolved⟩⟩
      · exact ⟨_, _, (Option.some.inj moved).symm, .inl rfl⟩
    · cases moved
  next =>
    obtain ⟨pc, -, rfl⟩ := Option.map_eq_some_iff.mp moved
    exact ⟨pc, _, rfl, .inl rfl⟩

/-- The steps of the forwarder by actor. -/
inductive Move (p : Setup) (s : State) : Action → State → Prop
  | accept {a : Answer} {t : State} (move : AcceptMove p s a t) : Move p s (.accept a) t
  | session {ref : SessionRef} {a : Tcp.Action} {t : Tcp.State} (made : ref < s.nextRef)
      (other : a ≠ .callStop) (exists_ : a = .worker → (s.heap ref).worker ≠ .notStarted)
      (moved : Tcp.step (s.heap ref).state a = some t)
      (quiet : signalled p s (.session ref a) = false) :
      Move p s (.session ref a) (s.advance ref t)
  | signal {ref : SessionRef} {a : Tcp.Action} (made : ref < s.nextRef)
      (kills : signalled p s (.session ref a) = true) :
      Move p s (.session ref a) { s with terminated := true }
  | workerThrows {ref : SessionRef} (exists_ : (s.heap ref).worker ≠ .notStarted)
      (starting : (s.heap ref).state.worker = .startUpstream ∨
        (s.heap ref).state.worker = .startDownstream) :
      Move p s (.workerThrows ref) { s with terminated := true }
  | resolver {a : Answer} {pc : ResolverPc} {endpoints : List ResolvedEndpoint}
      (source : endpoints = s.targetEndpoints ∨
        ∃ outcome, resolveTargetEndpoints p.config outcome = .ok endpoints) :
      Move p s (.resolver a) { s with resolver := pc, targetEndpoints := endpoints }
  | callStop (pc : s.stop = .idle) :
      Move p s .callStop { s with running := false, stop := .shutdownListen }
  | stop {a : Answer} {t : State} (move : StopMove s a t) : Move p s (.stop a) t

theorem step_move {action : Action} (moved : (forwarder p).step s action = some t) :
    Move p s action t := by
  change step p s action = some t at moved
  unfold step at moved
  split at moved
  · cases moved
  split at moved
  next a => exact .accept (acceptStep_move moved)
  next ref a =>
    unfold sessionStep at moved
    split at moved
    next allowed =>
      split at moved
      next kills => exact Option.some.inj moved ▸ .signal allowed.1 kills
      next quiet =>
        obtain ⟨u, stepped, rfl⟩ := Option.map_eq_some_iff.mp moved
        exact .session allowed.1 allowed.2.1 allowed.2.2 stepped (by simpa using quiet)
    · cases moved
  next ref =>
    dsimp only at moved
    split at moved
    next throws => exact Option.some.inj moved ▸ .workerThrows throws.1 throws.2
    · cases moved
  next a =>
    obtain ⟨pc, endpoints, rfl, source⟩ := resolverStep_move moved
    exact .resolver source
  next =>
    split at moved
    next pc => exact Option.some.inj moved ▸ .callStop pc
    · cases moved
  next a => exact .stop (stopStep_move moved)

end PortForwardX.TcpForwarder
