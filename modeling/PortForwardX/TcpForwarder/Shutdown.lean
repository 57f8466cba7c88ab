import PortForwardX.TcpForwarder.Resolution
import PortForwardX.TcpForwarder.Rollback

/-!
# Serving and shut down

Until `Stop` is called both threads of the forwarder are there. When it has returned, both
have ended and the listen socket is gone.
-/
namespace PortForwardX.TcpForwarder

open Transition Net

/-- `Stop` has made the listen socket invalid. -/
def StopPc.unlistened : StopPc → Bool
  | .idle | .shutdownListen | .closeListen | .setListenInvalid => false
  | _ => true

/-- `Stop` has joined the resolver thread. -/
def StopPc.resolverJoined : StopPc → Bool
  | .idle | .shutdownListen | .closeListen | .setListenInvalid | .joinAccept | .joinResolver =>
    false
  | _ => true

/-- The accept thread has left its loop. -/
def AcceptPc.leaving : AcceptPc → Bool
  | .cleanup c => c.afterLoop
  | .exited => true
  | _ => false

/-- How far the forwarder is shut down. -/
structure Shutdown (s : State) : Prop where
  running : s.running = true ↔ s.stop = .idle
  listening : s.listenSocket = none ↔ s.stop.unlistened = true
  serving : s.running = true → s.accept.leaving = false ∧ s.resolver ≠ .exited
  accept : s.stop.pastAccept = true → s.accept = .exited
  resolver : s.stop.resolverJoined = true → s.resolver = .exited

variable {p : Setup} {s t : State} {a : Answer} {action : Action} {c c' : Cleanup}

/-- The rule for a step that is not one of `Stop`. -/
theorem Shutdown.keep (before : Shutdown s) (running : t.running = s.running)
    (listenSocket : t.listenSocket = s.listenSocket) (stop : t.stop = s.stop)
    (accept : s.accept = .exited → t.accept = .exited)
    (resolver : s.resolver = .exited → t.resolver = .exited)
    (serving : s.running = true → s.accept.leaving = false ∧ s.resolver ≠ .exited →
      t.accept.leaving = false ∧ t.resolver ≠ .exited) : Shutdown t where
  running := by rw [running, stop]; exact before.running
  listening := by rw [listenSocket, stop]; exact before.listening
  serving := by
    rw [running]
    exact fun yes => serving yes (before.serving yes)
  accept := by
    rw [stop]
    exact fun joined => accept (before.accept joined)
  resolver := by
    rw [stop]
    exact fun joined => resolver (before.resolver joined)

theorem resolverStep_frame (moved : resolverStep p s a = some t) :
    s.resolver ≠ .exited ∧ t.running = s.running ∧ t.listenSocket = s.listenSocket ∧
      t.stop = s.stop ∧ t.accept = s.accept := by
  have follows := (resolverStep_resolves moved).2
  refine ⟨fun ended => ?_, ?_⟩
  · rw [ended] at follows
    rcases follows with next | ⟨other, -⟩
    · cases next
    · cases other
  · obtain ⟨pc, endpoints, rfl, -⟩ := resolverStep_move moved
    exact ⟨rfl, rfl, rfl, rfl⟩

/-- A cleanup leaves the listen socket alone and stays the one it is. -/
theorem CleanupMove.serving (move : CleanupMove s c a t c') :
    t.running = s.running ∧ t.listenSocket = s.listenSocket ∧ c'.afterLoop = c.afterLoop := by
  cases move with
  | join _ moved | destructor _ _ moved =>
    obtain ⟨heap, joins, rfl⟩ := State.join_frame moved
    exact ⟨rfl, rfl, rfl⟩
  | _ => exact ⟨rfl, rfl, rfl⟩

theorem AcceptMove.serving (move : AcceptMove p s a t) :
    t.running = s.running ∧ t.listenSocket = s.listenSocket ∧
      (s.running = true → s.accept.leaving = false → t.accept.leaving = false) := by
  cases move with
  | clean pc unfinished move =>
    obtain ⟨running, listenSocket, afterLoop⟩ := move.serving
    refine ⟨running, listenSocket, fun _ stays => ?_⟩
    simpa [AcceptPc.leaving, pc, afterLoop] using stays
  | @cleaned _ c pc finished =>
    refine ⟨rfl, rfl, fun _ stays => ?_⟩
    have inside : c.afterLoop = false := by simpa only [AcceptPc.leaving, pc] using stays
    simp [inside, AcceptPc.leaving]
  | test | retest => exact ⟨rfl, rfl, fun yes _ => by simp [yes, AcceptPc.leaving]⟩
  | throws => exact ⟨rfl, rfl, fun _ => id⟩
  | _ => exact ⟨rfl, rfl, fun _ _ => rfl⟩

theorem StopMove.shutdown (move : StopMove s a t) (before : Shutdown s) : Shutdown t := by
  obtain ⟨running, listening, -, accept, resolver⟩ := before
  cases move with
  | shutdownListen pc | closeListen pc =>
    rw [pc] at running listening
    exact ⟨by simpa using running, by simpa [StopPc.unlistened] using listening,
      fun yes => absurd (running.mp yes) (by simp), by simp [StopPc.pastAccept],
      by simp [StopPc.resolverJoined]⟩
  | setListenInvalid pc =>
    rw [pc] at running
    exact ⟨by simpa using running, by simp [StopPc.unlistened, kInvalidSocket],
      fun yes => absurd (running.mp yes) (by simp), by simp [StopPc.pastAccept],
      by simp [StopPc.resolverJoined]⟩
  | joinAccept pc ended =>
    rw [pc] at running listening
    exact ⟨by simpa using running, by simpa [StopPc.unlistened] using listening,
      fun yes => absurd (running.mp yes) (by simp), fun _ => ended,
      by simp [StopPc.resolverJoined]⟩
  | joinResolver pc ended =>
    rw [pc] at running listening accept
    exact ⟨by simpa using running, by simpa [StopPc.unlistened] using listening,
      fun yes => absurd (running.mp yes) (by simp), fun _ => accept rfl, fun _ => ended⟩
  | join pc moved | destructor pc _ moved =>
    obtain ⟨heap, joins, rfl⟩ := State.join_frame moved
    rw [pc] at running listening accept resolver
    exact ⟨by simpa using running, by simpa [StopPc.unlistened] using listening,
      fun yes => absurd (running.mp yes) (by simp), fun _ => accept rfl, fun _ => resolver rfl⟩
  | @callStop _ _ _ ref pc | @destroy _ _ ref pc =>
    have same : (s.callStop ref).running = s.running ∧
        (s.callStop ref).listenSocket = s.listenSocket := ⟨rfl, rfl⟩
    rw [pc] at running listening accept resolver
    exact ⟨by simpa [same] using running, by simpa [StopPc.unlistened, same] using listening,
      fun yes => absurd (running.mp yes) (by simp), fun _ => accept rfl, fun _ => resolver rfl⟩
  | lock pc | copy pc | unlock pc | stopped pc | stopReturned pc | joined pc | lockAgain pc
  | clearSessions pc | clearPeers pc | unlockAgain pc | destroyed pc =>
    rw [pc] at running listening accept resolver
    exact ⟨by simpa using running, by simpa [StopPc.unlistened] using listening,
      fun yes => absurd (running.mp yes) (by simp), fun _ => accept rfl, fun _ => resolver rfl⟩

theorem step_shutdown (moved : (forwarder p).step s action = some t) (before : Shutdown s) :
    Shutdown t := by
  cases action with
  | resolver a =>
    have moved := step_resolver moved
    obtain ⟨alive, running, listenSocket, stop, accept⟩ := resolverStep_frame moved
    refine before.keep running listenSocket stop (fun ended => accept.trans ended)
      (fun ended => absurd ended alive) fun yes serving => ⟨accept ▸ serving.1, ?_⟩
    rcases (resolverStep_resolves moved).2 with next | ⟨-, again⟩
    · exact ResolverPc.next_running (yes ▸ next)
    · simp [again]
  | accept a =>
    cases step_move moved with
    | accept move =>
      obtain ⟨running, listenSocket, stays⟩ := move.serving
      have resolver := move.resolves.2
      exact before.keep running listenSocket move.frame.1
        (fun ended => absurd ended move.frame.2) (fun ended => resolver.trans ended)
        fun yes serving => ⟨stays yes serving.1, resolver ▸ serving.2⟩
  | session ref a =>
    cases step_move moved with
    | session | signal => exact before.keep rfl rfl rfl id id fun _ => id
  | workerThrows ref =>
    cases step_move moved with
    | workerThrows => exact before.keep rfl rfl rfl id id fun _ => id
  | callStop =>
    cases step_move moved with
    | callStop pc =>
      exact ⟨by simp, by rw [before.listening, pc]; simp [StopPc.unlistened], by simp,
        by simp [StopPc.pastAccept], by simp [StopPc.resolverJoined]⟩
  | stop a =>
    cases step_move moved with
    | stop move => exact move.shutdown before

theorem shutdown_reached {ok : State → Action → Prop} (reached : (forwarder p).Reach ok s) :
    Shutdown s := by
  induction reached with
  | start init =>
    obtain ⟨fd, outcome, endpoints, -, rfl⟩ := init
    exact ⟨by simp [started], by simp [started, StopPc.unlistened],
      fun _ => by simp [started, AcceptPc.leaving], by simp [started, StopPc.pastAccept],
      by simp [started, StopPc.resolverJoined]⟩
  | next _ _ moved ih => exact step_shutdown moved ih

/-- What `Stop` has joined after a step, and whether it has been called or has returned. -/
theorem Move.stops (move : Move p s action t) (other : action ≠ .callStop) :
    (t.stop = .idle ↔ s.stop = .idle) ∧ (s.stop = .done → t.stop = .done) ∧
      t.stop.pastAccept = (s.stop.pastAccept || (s.stop == .joinAccept && t.stop != .joinAccept)) ∧
      t.stop.resolverJoined =
        (s.stop.resolverJoined || (s.stop == .joinResolver && t.stop != .joinResolver)) := by
  cases move with
  | callStop => exact absurd rfl other
  | stop move =>
    cases move with
    | shutdownListen pc | closeListen pc | setListenInvalid pc | joinAccept pc | joinResolver pc
    | lock pc | copy pc | unlock pc | stopped pc | callStop pc | stopReturned pc | joined pc
    | join pc | lockAgain pc | clearSessions pc | clearPeers pc | unlockAgain pc | destroyed pc
    | destroy pc | destructor pc => simp [pc, StopPc.pastAccept, StopPc.resolverJoined]
  | accept move => simp [move.frame.1, bne]
  | _ => simp [State.advance, bne]

/-- Before `Stop` is called. -/
theorem Shutdown.serves (shutdown : Shutdown s) (idle : s.stop = .idle) :
    s.running = true ∧ s.listenSocket.isSome = true ∧ s.accept ≠ .exited ∧
      s.resolver ≠ .exited := by
  have running := shutdown.running.mpr idle
  obtain ⟨inside, resolver⟩ := shutdown.serving running
  have listening : s.listenSocket ≠ none := by
    rw [Ne, shutdown.listening, idle]
    simp [StopPc.unlistened]
  refine ⟨running, Option.isSome_iff_ne_none.mpr listening, fun ended => ?_, resolver⟩
  rw [ended] at inside
  cases inside

/-- After `Stop` has returned. -/
theorem Shutdown.gone (shutdown : Shutdown s) (done : s.stop = .done) :
    s.running = false ∧ s.listenSocket = none ∧ s.accept = .exited ∧ s.resolver = .exited := by
  obtain ⟨running, listening, -, accept, resolver⟩ := shutdown
  rw [done] at running listening accept resolver
  exact ⟨by simpa using running, listening.mpr rfl, accept rfl, resolver rfl⟩

/-- Where the thread to be started can be started nothing but a signal ends the process. -/
theorem Move.signalled (move : Move p s action t) (alive : s.terminated = false)
    (starts : threadThrows s action = false) (ended : t.terminated = true) : Signalled p t := by
  have kills : TcpForwarder.signalled p s action = true :=
    ((move.terminates alive).mp ended).resolve_left (by simp [starts])
  cases move with
  | signal made _ => exact ⟨_, made, _, kills⟩
  | session _ _ _ _ quiet => simp [quiet] at kills
  | _ => simp [TcpForwarder.signalled] at kills

theorem signalled_reached
    (reached : (forwarder p).Reach (fun s action => threadThrows s action = false) s)
    (ended : s.terminated = true) : Signalled p s := by
  cases reached with
  | start init =>
    obtain ⟨fd, outcome, endpoints, -, rfl⟩ := init
    cases ended
  | next _ starts moved => exact (step_move moved).signalled (step_alive moved) starts ended

end PortForwardX.TcpForwarder
