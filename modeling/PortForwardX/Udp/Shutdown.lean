import PortForwardX.Udp.Resolution
import PortForwardX.Udp.Rollback
import PortForwardX.Udp.Survival

/-!
# Serving and shut down

Until `Stop` is called both threads of the forwarder are there. When it has returned, both
have ended and the listen socket is gone.
-/
namespace PortForwardX.Udp

open Transition Net

/-- `Stop` has made the listen socket invalid. -/
def StopPc.unlistened : StopPc → Bool
  | .joinUdp | .joinResolver | .enterCleanup | .cleaning _ | .done => true
  | _ => false

/-- `Stop` has joined the resolver thread. -/
def StopPc.resolverJoined : StopPc → Bool
  | .enterCleanup | .cleaning _ | .done => true
  | _ => false

/-- How far the forwarder is shut down. -/
structure Shutdown (s : State) : Prop where
  running : s.running = true ↔ s.stop = .idle
  listening : s.listenSocket = none ↔ s.stop.unlistened = true
  serving : s.running = true → s.udp.forced = false ∧ s.resolver ≠ .exited
  udp : s.stop.udpJoined = true → s.udp = .exited
  resolver : s.stop.resolverJoined = true → s.resolver = .exited

variable {p : Setup} {s t : State} {a : Answer} {action : Action}

/-- The rule for a step that is not one of `Stop`. -/
theorem Shutdown.keep (before : Shutdown s) (running : t.running = s.running)
    (listenSocket : t.listenSocket = s.listenSocket) (stop : t.stop = s.stop)
    (udp : s.udp = .exited → t.udp = .exited)
    (resolver : s.resolver = .exited → t.resolver = .exited)
    (serving : s.running = true → s.udp.forced = false ∧ s.resolver ≠ .exited →
      t.udp.forced = false ∧ t.resolver ≠ .exited) : Shutdown t where
  running := by rw [running, stop]; exact before.running
  listening := by rw [listenSocket, stop]; exact before.listening
  serving := by
    rw [running]
    exact fun yes => serving yes (before.serving yes)
  udp := by
    rw [stop]
    exact fun joined => udp (before.udp joined)
  resolver := by
    rw [stop]
    exact fun joined => resolver (before.resolver joined)

theorem resolverStep_frame (moved : resolverStep p s a = some t) :
    s.resolver ≠ .exited ∧ t.running = s.running ∧ t.listenSocket = s.listenSocket ∧
      t.stop = s.stop ∧ t.udp = s.udp := by
  have follows := (resolverStep_resolves moved).2
  refine ⟨fun ended => ?_, ?_⟩
  · rw [ended] at follows
    rcases follows with next | ⟨other, -⟩
    · cases next
    · cases other
  · obtain ⟨pc, endpoints, rfl, -⟩ := resolverStep_move moved
    exact ⟨rfl, rfl, rfl, rfl⟩

theorem StopMove.shutdown (move : StopMove p s a t) (before : Shutdown s) : Shutdown t := by
  obtain ⟨running, listening, -, udp, resolver⟩ := before
  cases move with
  | shutdownListen pc | closeListen pc =>
    rw [pc] at running listening
    exact ⟨by simpa using running, by simpa [StopPc.unlistened] using listening,
      fun yes => absurd (running.mp yes) (by simp), by simp [StopPc.udpJoined],
      by simp [StopPc.resolverJoined]⟩
  | setListenInvalid pc =>
    rw [pc] at running
    exact ⟨by simpa using running, by simp [StopPc.unlistened, kInvalidSocket],
      fun yes => absurd (running.mp yes) (by simp), by simp [StopPc.udpJoined],
      by simp [StopPc.resolverJoined]⟩
  | joinUdp pc ended =>
    rw [pc] at running listening
    exact ⟨by simpa using running, by simpa [StopPc.unlistened] using listening,
      fun yes => absurd (running.mp yes) (by simp), fun _ => ended,
      by simp [StopPc.resolverJoined]⟩
  | joinResolver pc ended =>
    rw [pc] at running listening udp
    exact ⟨by simpa using running, by simpa [StopPc.unlistened] using listening,
      fun yes => absurd (running.mp yes) (by simp), fun _ => udp rfl, fun _ => ended⟩
  | enterCleanup pc | cleaned pc =>
    rw [pc] at running listening udp resolver
    exact ⟨by simpa using running, by simpa [StopPc.unlistened] using listening,
      fun yes => absurd (running.mp yes) (by simp), fun _ => udp rfl, fun _ => resolver rfl⟩
  | clean pc unfinished move =>
    rw [pc] at running listening udp resolver
    have frame := move.frame
    exact ⟨by simpa [frame.running] using running,
      by simpa [StopPc.unlistened, frame.listenSocket] using listening,
      fun yes => absurd (running.mp (frame.running ▸ yes)) (by simp),
      fun _ => move.quiet.udp.trans (udp rfl), fun _ => frame.resolver.trans (resolver rfl)⟩

theorem step_shutdown (moved : (forwarder p).step s action = some t) (before : Shutdown s) :
    Shutdown t := by
  by_cases own : ∃ a, action = .resolver a
  · obtain ⟨a, rfl⟩ := own
    have moved := step_resolver moved
    obtain ⟨alive, running, listenSocket, stop, udp⟩ := resolverStep_frame moved
    refine before.keep running listenSocket stop (fun ended => udp.trans ended)
      (fun ended => absurd ended alive) fun yes serving => ⟨udp ▸ serving.1, ?_⟩
    rcases (resolverStep_resolves moved).2 with next | ⟨-, again⟩
    · exact ResolverPc.next_running (yes ▸ next)
    · simp [again]
  · have move := step_move moved
    have resolver := (move.unresolved fun a same => own ⟨a, same⟩).2
    cases move with
    | resolver => exact absurd ⟨_, rfl⟩ own
    | udp move =>
      have listenSocket : t.listenSocket = s.listenSocket := by
        cases move with
        | clean pc unfinished move => exact move.frame.listenSocket
        | _ => rfl
      exact before.keep move.controls.1 listenSocket move.controls.2.1
        (fun ended => absurd ended move.alive) (fun ended => resolver.trans ended)
        fun yes serving => ⟨move.unforced yes serving.1, resolver ▸ serving.2⟩
    | reply move =>
      exact before.keep move.frame.running move.frame.listenSocket move.frame.stop
        (fun ended => move.quiet.udp.trans ended) (fun ended => resolver.trans ended)
        fun _ serving => ⟨move.quiet.udp ▸ serving.1, resolver ▸ serving.2⟩
    | callStop pc =>
      exact ⟨by simp, by rw [before.listening, pc]; simp [StopPc.unlistened], by simp,
        by simp [StopPc.udpJoined], by simp [StopPc.resolverJoined]⟩
    | tick | foreignOpen | foreignClose =>
      exact before.keep rfl rfl rfl id id fun _ => id
    | stop move => exact move.shutdown before

theorem shutdown_reached {ok : State → Action → Prop} (reached : (forwarder p).Reach ok s) :
    Shutdown s := by
  induction reached with
  | start init =>
    obtain ⟨fd, clock, outcome, endpoints, -, rfl⟩ := init
    exact ⟨by simp [started], by simp [started, StopPc.unlistened],
      fun _ => by simp [started, UdpPc.forced], by simp [started, StopPc.udpJoined],
      by simp [started, StopPc.resolverJoined]⟩
  | next _ _ moved ih => exact step_shutdown moved ih

/-- What `Stop` has joined after a step, and whether it has been called or has returned. -/
theorem Move.stops (move : Move p s action t) (other : action ≠ .callStop) :
    (t.stop = .idle ↔ s.stop = .idle) ∧ (s.stop = .done → t.stop = .done) ∧
      t.stop.udpJoined = (s.stop.udpJoined || (s.stop == .joinUdp && t.stop != .joinUdp)) ∧
      t.stop.resolverJoined =
        (s.stop.resolverJoined || (s.stop == .joinResolver && t.stop != .joinResolver)) := by
  cases move with
  | callStop => exact absurd rfl other
  | stop move =>
    cases move with
    | shutdownListen pc | closeListen pc | setListenInvalid pc | joinUdp pc | joinResolver pc
    | enterCleanup pc | clean pc | cleaned pc =>
      simp [pc, StopPc.udpJoined, StopPc.resolverJoined]
  | udp move => simp [move.controls.2.1, bne]
  | reply move => simp [move.frame.stop, bne]
  | _ => simp [bne]

/-- Before `Stop` is called. -/
theorem Shutdown.serves (shutdown : Shutdown s) (idle : s.stop = .idle) :
    s.running = true ∧ s.listenSocket.isSome = true ∧ s.udp ≠ .exited ∧
      s.resolver ≠ .exited := by
  have running := shutdown.running.mpr idle
  obtain ⟨inside, resolver⟩ := shutdown.serving running
  have listening : s.listenSocket ≠ none := by
    rw [Ne, shutdown.listening, idle]
    simp [StopPc.unlistened]
  refine ⟨running, Option.isSome_iff_ne_none.mpr listening, fun ended => ?_, resolver⟩
  rw [ended] at inside
  cases inside

/-- After `Stop` has returned. -/
theorem Shutdown.gone (shutdown : Shutdown s) (done : s.stop = .done) :
    s.running = false ∧ s.listenSocket = none ∧ s.udp = .exited ∧ s.resolver = .exited := by
  obtain ⟨running, listening, -, udp, resolver⟩ := shutdown
  rw [done] at running listening udp resolver
  exact ⟨by simpa using running, listening.mpr rfl, udp rfl, resolver rfl⟩

theorem unterminated_reached
    (reached : (forwarder p).Reach (fun s action => threadThrows s action = false) s) :
    s.terminated = false := by
  induction reached with
  | start init =>
    obtain ⟨fd, clock, outcome, endpoints, -, rfl⟩ := init
    rfl
  | next _ starts moved ih =>
    by_contra ended
    have throws := ((step_move moved).terminates ih).mp (by simpa using ended)
    rw [starts] at throws
    cases throws

end PortForwardX.Udp
