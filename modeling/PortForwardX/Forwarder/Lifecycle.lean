import PortForwardX.Forwarder.Calls
import PortForwardX.Udp.Shutdown
import PortForwardX.TcpForwarder.Shutdown

/-!
# Starting and stopping, again and again

Two flags, three thread objects and a socket tell whether a forwarder runs. Whenever no call
is under way they agree, so that no `Start` finds a thread object that is still joinable.
-/
namespace PortForwardX.Forwarder

open Transition Net Selection

/-- Threads can be started. -/
def startsThreads (s : State) (action : Action) : Prop :=
  match s.impl, action with
  | .udp u, .udp a => Udp.threadThrows u a = false
  | .tcp t, .tcp a => TcpForwarder.threadThrows t a = false
  | _, _ => True

instance (s : State) (action : Action) : Decidable (startsThreads s action) := by
  unfold startsThreads
  split <;> infer_instance

/-- A thread of the UDP or TCP forwarder inside has ended the process. -/
def Impl.terminated : Impl → Bool
  | .constructed _ => false
  | .udp u => u.terminated
  | .tcp t => t.terminated

/-- A TCP session is at a `Send` on a broken connection, on a platform where that ends the
process. -/
def Signalled (p : Setup) (s : State) : Prop :=
  match s.impl with
  | .tcp t => TcpForwarder.Signalled p.tcp t
  | _ => False

/-- Nothing runs, whether or not anything ever did. -/
def Impl.Over (p : Setup) : Impl → Prop
  | .constructed _ => True
  | .udp u => Udp.Shutdown u ∧ u.stop = .done ∧ u.terminated = false
  | .tcp t => TcpForwarder.Shutdown t ∧ t.stop = .done ∧
    (t.terminated = true → TcpForwarder.Signalled p.tcp t)

/-- Where a `Forwarder` is in its life: nothing runs, or a UDP or TCP forwarder does and `Stop`
has joined some of its threads. -/
inductive Phase (p : Setup) (s : State) : Prop
  | ended (impl : s.impl.Over p) (running : s.running = false) (stopping : s.stopping = false)
      (resolver : s.resolverThread = false) (accept : s.acceptThread = false)
      (udp : s.udpThread = false)
  | udp {u : Udp.State} (impl : s.impl = .udp u) (protocol : p.protocol = .udp)
      (reached : (Udp.forwarder p.udp).Reach (fun u a => Udp.threadThrows u a = false) u)
      (undone : u.stop ≠ .done) (running : s.running = true)
      (stopping : s.stopping = true ↔ u.stop ≠ .idle)
      (resolver : s.resolverThread = !u.stop.resolverJoined) (accept : s.acceptThread = false)
      (udp : s.udpThread = !u.stop.udpJoined)
  | tcp {t : TcpForwarder.State} (impl : s.impl = .tcp t) (protocol : p.protocol = .tcp)
      (reached : (TcpForwarder.forwarder p.tcp).Reach
        (fun t a => TcpForwarder.threadThrows t a = false) t)
      (undone : t.stop ≠ .done) (running : s.running = true)
      (stopping : s.stopping = true ↔ t.stop ≠ .idle)
      (resolver : s.resolverThread = !t.stop.resolverJoined)
      (accept : s.acceptThread = !t.stop.pastAccept) (udp : s.udpThread = false)

variable {p : Setup} {s s' : State} {message : Option String} {calls : StartCalls}
  {action : Action} {how : Option Return}

theorem Impl.Over.setTargets {impl : Impl} (ended : impl.Over p)
    (targets : List ResolvedEndpoint) : (impl.setTargets targets).Over p := by
  cases impl with
  | constructed => trivial
  | udp u =>
    obtain ⟨⟨running, listening, serving, udp, resolver⟩, done⟩ := ended
    exact ⟨⟨running, listening, serving, udp, resolver⟩, done⟩
  | tcp t =>
    obtain ⟨⟨running, listening, serving, accept, resolver⟩, done⟩ := ended
    exact ⟨⟨running, listening, serving, accept, resolver⟩, done⟩

theorem Impl.terminated_setTargets {impl : Impl} (targets : List ResolvedEndpoint) :
    (impl.setTargets targets).terminated = impl.terminated := by
  cases impl <;> rfl

/-- Where threads can be started only a signal ends the process. -/
theorem Phase.signalled (phase : Phase p s) (ended : s.impl.terminated = true) :
    Signalled p s := by
  unfold Signalled
  cases phase with
  | ended impl =>
    cases here : s.impl with
    | constructed targets =>
      rw [here] at ended
      cases ended
    | udp u =>
      rw [here] at ended impl
      exact absurd (impl.2.2.symm.trans ended) Bool.false_ne_true
    | tcp t =>
      rw [here] at ended impl
      exact impl.2.2 ended
  | udp impl protocol reached =>
    rw [impl] at ended
    exact absurd ((Udp.unterminated_reached reached).symm.trans ended) Bool.false_ne_true
  | tcp impl protocol reached =>
    rw [impl] at ended ⊢
    exact TcpForwarder.signalled_reached reached ended

/-! ### `Start` -/

/-- Every candidate that `Impl::Start` makes it closes, once, or keeps. It keeps none without
having resolved the target. -/
theorem implStart_spec (p : Setup) (calls : StartCalls) (targets : List ResolvedEndpoint)
    (message : Option String) :
    let result := implStart p calls targets message
    (∀ j, result.uses.count (.released j) + (if result.kept = some j then 1 else 0) =
      result.uses.count (.made j)) ∧
    ∀ i, result.kept = some i →
      resolveTargetEndpoints p.config calls.target = .ok result.targetEndpoints := by
  unfold implStart
  dsimp only
  split
  · simp
  · split
    · simp
    next endpoints resolved =>
      split
      · simp
      · rw [listenLoop_eq]
        have balanced := fun j => @tryInOrder_balanced _
          (fun i => (calls.candidates i).trial p.protocol)
          (sortEndpoints (resolve p.listenHost calls.listen).1 (effectiveListenFamily p.config)) 0 j
        split
        next i uses searched =>
          obtain ⟨kept, rfl⟩ := Prod.mk.inj searched
          rw [List.nil_append]
          exact ⟨fun j => by rw [← balanced j, kept], fun _ _ => resolved⟩
        next uses searched =>
          obtain ⟨kept, rfl⟩ := Prod.mk.inj searched
          rw [List.nil_append]
          exact ⟨fun j => by rw [← balanced j, kept], by simp⟩

/-- No `Start` ends the process: none finds a thread object that is joinable. -/
theorem start_phase (message : Option String) (calls : StartCalls) (phase : Phase p s)
    (alive : s.terminated = false) (inner : s.impl.terminated = false) :
    Phase p (s.start p message calls).1 ∧ (s.start p message calls).1.terminated = false ∧
      (s.start p message calls).1.impl.terminated = false := by
  unfold State.start
  cases phase with
  | ended impl running stopping resolver accept udp =>
    rw [if_neg (by simp [running])]
    dsimp only
    split
    next none_ =>
      exact ⟨.ended (impl.setTargets _) running stopping resolver accept udp, alive,
        (Impl.terminated_setTargets _).trans inner⟩
    next i kept =>
      have resolved := (implStart_spec p calls s.impl.targetEndpoints message).2 i kept
      unfold State.serve
      cases protocol : p.protocol with
      | tcp =>
        dsimp only
        rw [resolver, accept]
        refine ⟨.tcp rfl protocol (.start ⟨_, _, _, resolved, rfl⟩) ?_ rfl ?_ rfl rfl ?_, alive,
          rfl⟩
        · simp [TcpForwarder.started]
        · simp [stopping, TcpForwarder.started]
        · simpa using udp
      | udp =>
        dsimp only
        rw [resolver, udp]
        refine ⟨.udp rfl protocol (.start ⟨_, _, _, _, resolved, rfl⟩) ?_ rfl ?_ rfl ?_ rfl, alive,
          rfl⟩
        · simp [Udp.started]
        · simp [stopping, Udp.started]
        · simpa using accept
  | udp impl protocol reached undone running stopping resolver accept udp =>
    rw [if_pos running]
    exact ⟨.udp impl protocol reached undone running stopping resolver accept udp, alive, inner⟩
  | tcp impl protocol reached undone running stopping resolver accept udp =>
    rw [if_pos running]
    exact ⟨.tcp impl protocol reached undone running stopping resolver accept udp, alive, inner⟩

/-! ### `Stop` and the threads -/

theorem callStop_phase (phase : Phase p s) (agrees : s.terminated = s.impl.terminated)
    (free : s.stopping = false) (called : s.callStop p = some (s', how)) :
    Phase p s' ∧ s'.terminated = s'.impl.terminated := by
  unfold State.callStop at called
  cases phase with
  | ended impl running stopping resolver accept udp =>
    rw [if_pos (by simp [running])] at called
    obtain ⟨rfl, -⟩ := Prod.mk.inj (Option.some.inj called)
    exact ⟨.ended impl running stopping resolver accept udp, agrees⟩
  | @udp u impl protocol reached undone running stopping resolver accept udp =>
    have idle : u.stop = .idle := by
      by_contra other
      rw [stopping.mpr other] at free
      cases free
    have serving : u.running = true := (Udp.shutdown_reached reached).running.mpr idle
    rw [if_neg (by simp [running]), if_neg (by simp [impl, Impl.running, serving]), impl] at called
    obtain ⟨v, moved, same⟩ := Option.map_eq_some_iff.mp called
    obtain ⟨rfl, -⟩ := Prod.mk.inj same
    have later := reached.next (by simp [Udp.threadThrows]) moved
    rw [idle] at resolver udp
    rw [impl] at agrees
    cases Udp.step_move moved with
    | callStop =>
      exact ⟨.udp rfl protocol later (by simp) running (by simp) resolver accept udp, agrees⟩
  | @tcp t impl protocol reached undone running stopping resolver accept udp =>
    have idle : t.stop = .idle := by
      by_contra other
      rw [stopping.mpr other] at free
      cases free
    have serving : t.running = true := (TcpForwarder.shutdown_reached reached).running.mpr idle
    rw [if_neg (by simp [running]), if_neg (by simp [impl, Impl.running, serving]), impl] at called
    obtain ⟨v, moved, same⟩ := Option.map_eq_some_iff.mp called
    obtain ⟨rfl, -⟩ := Prod.mk.inj same
    have later := reached.next (by simp [TcpForwarder.threadThrows]) moved
    rw [idle] at resolver accept
    rw [impl] at agrees
    cases TcpForwarder.step_move moved with
    | callStop =>
      exact ⟨.tcp rfl protocol later (by simp) running (by simp) resolver accept udp, agrees⟩

theorem finish_undone {done : Bool} (undone : s.stopping = false ∨ done = false) :
    (s.finish done).1 = s := by
  rcases undone with no | rfl
  · simp [State.finish, no]
  · simp [State.finish]

/-- A step of the UDP forwarder while there is one, or after it has been stopped. -/
theorem udpStep_phase {u v : Udp.State} {a : Udp.Action} (phase : Phase p s)
    (impl : s.impl = .udp u) (other : a ≠ .callStop) (starts : Udp.threadThrows u a = false)
    (moved : (Udp.forwarder p.udp).step u a = some v) : Phase p (s.udpStep u v).1 := by
  have move := Udp.step_move moved
  obtain ⟨idle, done, joined, resolverJoined⟩ := move.stops other
  cases phase with
  | ended ended running stopping resolver accept udp =>
    rw [impl] at ended
    obtain ⟨shutdown, stop, alive⟩ := ended
    have alive' : v.terminated = false := by
      by_contra ended
      have throws := (move.terminates alive).mp (by simpa using ended)
      rw [starts] at throws
      cases throws
    rw [State.udpStep, finish_undone (.inl (by exact stopping))]
    exact .ended ⟨Udp.step_shutdown moved shutdown, done stop, alive'⟩ running stopping
      (by simp [State.advance, resolver]) (by simp [State.advance, accept])
      (by simp [State.advance, udp])
  | tcp impl' =>
    rw [impl] at impl'
    cases impl'
  | @udp u' impl' protocol reached undone running stopping resolver accept udp =>
    obtain rfl := Impl.udp.inj (impl.symm.trans impl')
    have later := reached.next starts moved
    have alive := Udp.unterminated_reached later
    -- the thread objects that are still joinable are those `Stop` has not joined
    have resolver : (s.resolverThread &&
        !(u.stop == .joinResolver && v.stop != .joinResolver)) = !v.stop.resolverJoined := by
      rw [resolver, resolverJoined, Bool.not_or]
    have udp : (s.udpThread && !(u.stop == .joinUdp && v.stop != .joinUdp)) =
        !v.stop.udpJoined := by
      rw [udp, joined, Bool.not_or]
    have accept : (s.acceptThread && !false) = false := by rw [accept]; rfl
    by_cases returned : v.stop = .done
    · have called : s.stopping = true := stopping.mpr fun yes => by
        rw [idle.mpr yes] at returned
        cases returned
      rw [State.udpStep, State.finish, if_pos (by simp [State.advance, called, returned])]
      exact .ended ⟨Udp.shutdown_reached later, returned, alive⟩ rfl rfl
        (resolver.trans (by rw [returned]; rfl)) accept (udp.trans (by rw [returned]; rfl))
    · rw [State.udpStep, finish_undone (.inr (by simpa using returned))]
      exact .udp rfl protocol later returned running (stopping.trans (not_congr idle).symm) resolver
        accept udp

/-- A step of the TCP forwarder while there is one, or after it has been stopped. -/
theorem tcpStep_phase {u v : TcpForwarder.State} {a : TcpForwarder.Action} (phase : Phase p s)
    (impl : s.impl = .tcp u) (other : a ≠ .callStop) (starts : TcpForwarder.threadThrows u a = false)
    (moved : (TcpForwarder.forwarder p.tcp).step u a = some v) : Phase p (s.tcpStep u v).1 := by
  have move := TcpForwarder.step_move moved
  obtain ⟨idle, done, joined, resolverJoined⟩ := move.stops other
  cases phase with
  | ended ended running stopping resolver accept udp =>
    rw [impl] at ended
    obtain ⟨shutdown, stop, -⟩ := ended
    have killed := move.signalled (TcpForwarder.step_alive moved) starts
    rw [State.tcpStep, finish_undone (.inl (by exact stopping))]
    exact .ended ⟨TcpForwarder.step_shutdown moved shutdown, done stop, killed⟩ running stopping
      (by simp [State.advance, resolver]) (by simp [State.advance, accept])
      (by simp [State.advance, udp])
  | udp impl' =>
    rw [impl] at impl'
    cases impl'
  | @tcp u' impl' protocol reached undone running stopping resolver accept udp =>
    obtain rfl := Impl.tcp.inj (impl.symm.trans impl')
    have later := reached.next starts moved
    have killed := TcpForwarder.signalled_reached later
    -- the thread objects that are still joinable are those `Stop` has not joined
    have resolver : (s.resolverThread &&
        !(u.stop == .joinResolver && v.stop != .joinResolver)) = !v.stop.resolverJoined := by
      rw [resolver, resolverJoined, Bool.not_or]
    have accept : (s.acceptThread && !(u.stop == .joinAccept && v.stop != .joinAccept)) =
        !v.stop.pastAccept := by
      rw [accept, joined, Bool.not_or]
    have udp : (s.udpThread && !false) = false := by rw [udp]; rfl
    by_cases returned : v.stop = .done
    · have called : s.stopping = true := stopping.mpr fun yes => by
        rw [idle.mpr yes] at returned
        cases returned
      rw [State.tcpStep, State.finish, if_pos (by simp [State.advance, called, returned])]
      exact .ended ⟨TcpForwarder.shutdown_reached later, returned, killed⟩ rfl rfl
        (resolver.trans (by rw [returned]; rfl)) (accept.trans (by rw [returned]; rfl)) udp
    · rw [State.tcpStep, finish_undone (.inr (by simpa using returned))]
      exact .tcp rfl protocol later returned running (stopping.trans (not_congr idle).symm) resolver
        accept udp

theorem udpStep_terminated {u v : Udp.State} :
    (s.udpStep u v).1.terminated = (s.udpStep u v).1.impl.terminated := by
  unfold State.udpStep State.finish
  split <;> rfl

theorem tcpStep_terminated {u v : TcpForwarder.State} :
    (s.tcpStep u v).1.terminated = (s.tcpStep u v).1.impl.terminated := by
  unfold State.tcpStep State.finish
  split <;> rfl

/-! ### Runs -/

theorem call_alive (called : call p s action = some (s', how)) : s.terminated = false := by
  unfold call at called
  rw [Option.ite_none_left_eq_some, Bool.not_eq_true] at called
  exact called.1

/-- A `Start` is called while the process runs and no other call is under way. -/
theorem call_start (called : call p s (.start message calls) = some (s', how)) :
    s.terminated = false ∧ s.stopping = false ∧ s.start p message calls = (s', how) := by
  have alive := call_alive called
  unfold call at called
  rw [if_neg (by simp [alive])] at called
  dsimp only at called
  split at called
  · cases called
  next free => exact ⟨alive, by simpa using free, Option.some.inj called⟩

theorem call_phase (phase : Phase p s) (agrees : s.terminated = s.impl.terminated)
    (starts : startsThreads s action) (called : call p s action = some (s', how)) :
    Phase p s' ∧ s'.terminated = s'.impl.terminated := by
  have alive := call_alive called
  unfold call at called
  rw [if_neg (by simp [alive])] at called
  cases action with
  | start message calls =>
    dsimp only at called
    split at called
    · cases called
    · rw [← (Prod.mk.inj (Option.some.inj called)).1]
      obtain ⟨later, outer, inner⟩ := start_phase message calls phase alive
        (agrees.symm.trans alive)
      exact ⟨later, outer.trans inner.symm⟩
  | stop =>
    dsimp only at called
    split at called
    · cases called
    next free => exact callStop_phase phase agrees (by simpa using free) called
  | udp a =>
    dsimp only at called
    split at called
    next u impl =>
      split at called
      · cases called
      next other =>
        obtain ⟨v, moved, same⟩ := Option.map_eq_some_iff.mp called
        have starts : Udp.threadThrows u a = false := by simpa [startsThreads, impl] using starts
        rw [← (Prod.mk.inj same).1]
        exact ⟨udpStep_phase phase impl other starts moved, udpStep_terminated⟩
    · cases called
  | tcp a =>
    dsimp only at called
    split at called
    next t impl =>
      split at called
      · cases called
      next other =>
        obtain ⟨v, moved, same⟩ := Option.map_eq_some_iff.mp called
        have starts : TcpForwarder.threadThrows t a = false := by
          simpa [startsThreads, impl] using starts
        rw [← (Prod.mk.inj same).1]
        exact ⟨tcpStep_phase phase impl other starts moved, tcpStep_terminated⟩
    · cases called

theorem phase_reached (reached : (object p).Reach startsThreads s) :
    Phase p s ∧ s.terminated = s.impl.terminated := by
  induction reached with
  | start init =>
    subst init
    exact ⟨.ended trivial rfl rfl rfl rfl rfl, rfl⟩
  | next _ starts moved ih =>
    obtain ⟨⟨t, how⟩, called, rfl⟩ := Option.map_eq_some_iff.mp moved
    exact call_phase ih.1 ih.2 starts called

/-! ### What the calls do to `running_` -/

theorem finish_running {done : Bool} :
    (s.finish done).1.running = ((s.finish done).2.bind Return.running).getD s.running := by
  unfold State.finish
  split <;> rfl

theorem start_running : (s.start p message calls).1.running =
    ((s.start p message calls).2.bind Return.running).getD s.running := by
  unfold State.start
  split
  · rfl
  · dsimp only
    split
    · rfl
    · unfold State.serve
      dsimp only
      split <;> split <;> rfl

theorem callStop_running (called : s.callStop p = some (s', how)) :
    s'.running = (how.bind Return.running).getD s.running := by
  unfold State.callStop at called
  split at called
  · obtain ⟨rfl, rfl⟩ := Prod.mk.inj (Option.some.inj called)
    rfl
  · split at called
    · obtain ⟨rfl, rfl⟩ := Prod.mk.inj (Option.some.inj called)
      rfl
    · split at called
      · cases called
      · obtain ⟨u, -, same⟩ := Option.map_eq_some_iff.mp called
        obtain ⟨rfl, rfl⟩ := Prod.mk.inj same
        rfl
      · obtain ⟨t, -, same⟩ := Option.map_eq_some_iff.mp called
        obtain ⟨rfl, rfl⟩ := Prod.mk.inj same
        rfl

theorem call_running (called : call p s action = some (s', how)) :
    s'.running = (how.bind Return.running).getD s.running := by
  unfold call at called
  split at called
  · cases called
  cases action with
  | start message calls =>
    dsimp only at called
    split at called
    · cases called
    · rw [← (Prod.mk.inj (Option.some.inj called)).1, ← (Prod.mk.inj (Option.some.inj called)).2]
      exact start_running
  | stop =>
    dsimp only at called
    split at called
    · cases called
    · exact callStop_running called
  | udp a =>
    dsimp only at called
    split at called
    · split at called
      · cases called
      · obtain ⟨v, -, same⟩ := Option.map_eq_some_iff.mp called
        obtain ⟨rfl, rfl⟩ := Prod.mk.inj same
        exact finish_running
    · cases called
  | tcp a =>
    dsimp only at called
    split at called
    · split at called
      · cases called
      · obtain ⟨v, -, same⟩ := Option.map_eq_some_iff.mp called
        obtain ⟨rfl, rfl⟩ := Prod.mk.inj same
        exact finish_running
    · cases called

theorem object_refreshes : (object p).Refreshes Return.running State.running (returned p) where
  start s init := ⟨.constructed, by rw [show s = {} from init]; rfl⟩
  step s action t moved := by
    obtain ⟨⟨t, how⟩, called, rfl⟩ := Option.map_eq_some_iff.mp moved
    rw [returned, called]
    exact call_running called

/-! ### Between the calls -/

/-- What the fields of a `Forwarder` say while no call is under way. -/
structure Consistent (p : Setup) (s : State) : Prop where
  impl : s.impl.running = s.running
  listening : s.impl.listenSocket.isSome = s.running
  resolver : s.impl.resolverLive = s.running
  accept : s.impl.acceptLive = (s.running && p.protocol == .tcp)
  udp : s.impl.udpLive = (s.running && p.protocol == .udp)
  joinable : s.resolverThread = s.impl.resolverLive ∧ s.acceptThread = s.impl.acceptLive ∧
    s.udpThread = s.impl.udpLive

theorem Phase.consistent (phase : Phase p s) (free : s.stopping = false) : Consistent p s := by
  cases phase with
  | ended impl running stopping resolver accept udp =>
    cases here : s.impl with
    | constructed targets =>
      constructor <;> simp [here, running, resolver, accept, udp, Impl.running, Impl.listenSocket,
        Impl.resolverLive, Impl.acceptLive, Impl.udpLive, kInvalidSocket]
    | udp u =>
      rw [here] at impl
      obtain ⟨off, closed, exited, ended⟩ := impl.1.gone impl.2.1
      constructor <;> simp [here, running, resolver, accept, udp, Impl.running, Impl.listenSocket,
        Impl.resolverLive, Impl.acceptLive, Impl.udpLive, off, closed, exited, ended]
    | tcp t =>
      rw [here] at impl
      obtain ⟨off, closed, exited, ended⟩ := impl.1.gone impl.2.1
      constructor <;> simp [here, running, resolver, accept, udp, Impl.running, Impl.listenSocket,
        Impl.resolverLive, Impl.acceptLive, Impl.udpLive, off, closed, exited, ended]
  | @udp u impl protocol reached undone running stopping resolver accept udp =>
    have idle : u.stop = .idle := by
      by_contra other
      rw [stopping.mpr other] at free
      cases free
    obtain ⟨on, opened, serving, resolving⟩ := (Udp.shutdown_reached reached).serves idle
    rw [idle] at resolver udp
    constructor <;> simp [impl, protocol, running, resolver, accept, udp, Impl.running,
      Impl.listenSocket, Impl.resolverLive, Impl.acceptLive, Impl.udpLive, on, opened, serving,
      resolving, Udp.StopPc.resolverJoined, Udp.StopPc.udpJoined]
  | @tcp t impl protocol reached undone running stopping resolver accept udp =>
    have idle : t.stop = .idle := by
      by_contra other
      rw [stopping.mpr other] at free
      cases free
    obtain ⟨on, opened, serving, resolving⟩ := (TcpForwarder.shutdown_reached reached).serves idle
    rw [idle] at resolver accept
    constructor <;> simp [impl, protocol, running, resolver, accept, udp, Impl.running,
      Impl.listenSocket, Impl.resolverLive, Impl.acceptLive, Impl.udpLive, on, opened, serving,
      resolving, TcpForwarder.StopPc.resolverJoined, TcpForwarder.StopPc.pastAccept]

/-- No call is under way in a forwarder that does not run. -/
theorem Phase.free (phase : Phase p s) (off : s.running = false) : s.stopping = false := by
  cases phase with
  | ended impl running stopping => exact stopping
  | udp impl protocol reached undone running | tcp impl protocol reached undone running =>
    rw [off] at running
    cases running

/-- Outside a forwarder's life nothing is joinable, so a `Start` that has kept a candidate
succeeds. -/
theorem start_kept (phase : Phase p s) (off : s.running = false)
    (kept : (implStart p calls s.impl.targetEndpoints message).kept.isSome = true) :
    (s.start p message calls).2 = some .started ∧
      (s.start p message calls).1.stopping = false := by
  obtain ⟨i, kept⟩ := Option.isSome_iff_exists.mp kept
  cases phase with
  | ended impl running stopping resolver accept udp =>
    unfold State.start
    rw [if_neg (by simp [off])]
    dsimp only
    rw [kept]
    unfold State.serve
    cases p.protocol <;> simp [resolver, accept, udp, stopping]
  | udp impl protocol reached undone running | tcp impl protocol reached undone running =>
    rw [off] at running
    cases running

theorem start_failed (failed : (s.start p message calls).2 = some .startFailed) :
    (∀ j, (implStart p calls s.impl.targetEndpoints message).uses.count (.made j) =
      (implStart p calls s.impl.targetEndpoints message).uses.count (.released j)) ∧
    ∃ targets text, (s.start p message calls).1 =
      { s with impl := s.impl.setTargets targets, message := text } := by
  unfold State.start at failed ⊢
  split at failed
  · cases failed
  next off =>
    rw [if_neg off]
    dsimp only at failed ⊢
    split at failed
    next none_ =>
      refine ⟨fun j => ?_, _, _, rfl⟩
      have balanced := (implStart_spec p calls s.impl.targetEndpoints message).1 j
      rw [none_] at balanced
      simpa using balanced.symm
    next i kept =>
      unfold State.serve at failed
      dsimp only at failed
      split at failed <;> split at failed <;> cases failed

/-- The life of a `Forwarder`, in every run of `Start` and `Stop` calls in which threads can be
started. No `Start` ends the process by an assignment to a joinable thread object: where it has
ended, a session has called `Send` on a broken connection. `running_` tells whether the latest
call that changed it was a successful `Start`. While no call is under way, the flags, the listen
socket, the threads and the thread objects say the same. A `Start` of a running forwarder changes
nothing. A `Start` that fails has closed every candidate as often as it made it, and may have
changed the targets but nothing else. A `Stop` of a stopped forwarder changes nothing, and a
stopped forwarder can be started. -/
theorem lifecycle {history : List Return}
    (reached : (called p).Reach (fun x action => startsThreads x.1 action) (s, history)) :
    (s.terminated = true → Signalled p s) ∧
    (∀ message calls t, (object p).step s (.start message calls) = some t → t.terminated = false) ∧
    Latest Return.running history s.running ∧
    (s.stopping = false → Consistent p s) ∧
    (∀ message calls, s.terminated = false → s.running = true → s.stopping = false →
      (object p).step s (.start message calls) =
        some { s with message := assign message "Forwarder already running." }) ∧
    (∀ message calls t, (object p).step s (.start message calls) = some t →
      returned p s (.start message calls) = some .startFailed →
      (∀ j, (implStart p calls s.impl.targetEndpoints message).uses.count (.made j) =
        (implStart p calls s.impl.targetEndpoints message).uses.count (.released j)) ∧
      ∃ targets text, t = { s with impl := s.impl.setTargets targets, message := text }) ∧
    (s.terminated = false → s.running = false → (object p).step s .stop = some s) ∧
    ∀ message calls, s.terminated = false → s.running = false →
      (implStart p calls s.impl.targetEndpoints message).kept.isSome = true →
      ∃ t, (object p).step s (.start message calls) = some t ∧ t.running = true ∧
        Consistent p t := by
  have plain : (object p).Reach startsThreads s :=
    Machine.Reach.unanswered startsThreads (fun _ _ => id) reached
  obtain ⟨phase, agrees⟩ := phase_reached plain
  have start (message : Option String) (calls : StartCalls) (alive : s.terminated = false)
      (free : s.stopping = false) :
      call p s (.start message calls) = some (s.start p message calls) := by
    simp [call, alive, free]
  refine ⟨fun ended => phase.signalled (agrees.symm.trans ended), fun message calls t moved => ?_,
    object_refreshes.latest reached, phase.consistent, fun message calls alive on free => ?_,
    fun message calls t moved failed => ?_, fun alive off => ?_,
    fun message calls alive off kept => ?_⟩
  · obtain ⟨⟨t, how⟩, called, rfl⟩ := Option.map_eq_some_iff.mp moved
    obtain ⟨alive, -, result⟩ := call_start called
    have kept := (start_phase message calls phase alive (agrees.symm.trans alive)).2.1
    rwa [result] at kept
  · change (call p s (.start message calls)).map Prod.fst = _
    rw [start message calls alive free, State.start, if_pos on]
    rfl
  · obtain ⟨⟨t, how⟩, called, rfl⟩ := Option.map_eq_some_iff.mp moved
    obtain ⟨alive, free, result⟩ := call_start called
    rw [returned, start message calls alive free] at failed
    obtain ⟨closed, targets, text, same⟩ := start_failed failed
    rw [result] at same
    exact ⟨closed, targets, text, same⟩
  · change (call p s .stop).map Prod.fst = _
    have free := phase.free off
    simp [call, State.callStop, alive, off, free]
  · have free := phase.free off
    obtain ⟨how, later⟩ := start_kept phase off kept
    refine ⟨_, by change (call p s _).map Prod.fst = _; rw [start message calls alive free]; rfl,
      ?_, ?_⟩
    · rw [start_running, how]
      rfl
    · exact (start_phase message calls phase alive (agrees.symm.trans alive)).1.consistent later

/-- A UDP forwarder. -/
def sample : Setup where
  protocol := .udp
  platform := .posix
  config := { targetHost := "198.51.100.7" }
  listenHost := "192.0.2.9"
  getnameinfo := Udp.Sample.setup.getnameinfo

/-- Calls that all succeed, but for that of `bind`. -/
def answers (bind : Bool) : StartCalls where
  wsaStartup := .ok ()
  target := .found [⟨.inet, some Udp.Sample.server.bytes⟩]
  listen := .found [⟨.inet, some Udp.Sample.alice.bytes⟩]
  candidates _ := ⟨true, true, bind, true, some ⟨.inet, 5300, some "192.0.2.9"⟩⟩
  fd _ := 3
  clock := 0

/-- A `Start` that fails, one that does not, one too many, a `Stop`, one too many and another
`Start`. -/
def restart : List Action :=
  [.start (some "") (answers false), .start none (answers true), .start none (answers true),
    .stop] ++
  ([.udp .none, .udp .none, .udp (.order []), .udp .none, .udp .none, .resolver .none,
    .stop .none, .stop .none, .stop .none, .stop .none, .stop .none, .stop (.order []),
    .stop .none, .stop .none] : List Udp.Action).map .udp ++
  [.stop, .start none (answers true)]

theorem lifecycle_restart :
    ∃ s, (called sample).Reach (fun x action => startsThreads x.1 action)
        (s, [.constructed, .startFailed, .started, .alreadyRunning, .stopped, .notRunning,
          .started]) ∧
      s.running = true ∧ Consistent sample s := by
  have result : ((called sample).runIf (fun x action => startsThreads x.1 action)
      ({}, [.constructed]) restart).map
      (fun x => x.1.running && !x.1.stopping && x.2 == [.constructed, .startFailed, .started,
        .alreadyRunning, .stopped, .notRunning, .started]) = some true := by decide +kernel
  obtain ⟨⟨s, history⟩, run, seen⟩ := Option.map_eq_some_iff.mp result
  simp only [Bool.and_eq_true, beq_iff_eq, Bool.not_eq_true'] at seen
  obtain ⟨⟨running, free⟩, rfl⟩ := seen
  have reached := Machine.Reach.runIf (.start (called_init sample)) run
  exact ⟨s, reached, running, (lifecycle reached).2.2.2.1 free⟩

end PortForwardX.Forwarder
