import PortForwardX.Udp.Threads

/-!
# Setting up a session, and giving up

What is left behind when `GetOrCreateUdpSession` fails. Up to the first socket nothing has
been entered or opened. The one failure behind that point is the start of the thread, and
it ends the process.
-/
namespace PortForwardX.Udp

open Transition

variable {p : Setup} {s t u : State} {a : Answer} {action : Action}

/-- `GetOrCreateUdpSession` has found no entry and has not made a socket yet. -/
def UdpPc.looking : UdpPc → Bool
  | .snapshot _ | .createSocket _ _ => true
  | _ => false

/-- `GetOrCreateUdpSession` is about to start the thread of the session. -/
def UdpPc.starting : UdpPc → Bool
  | .startThread _ _ => true
  | _ => false

/-- `GetOrCreateUdpSession` sets up a session. -/
def UdpPc.settingUp (pc : UdpPc) : Bool := pc.creating || pc.starting

/-- The constructor of `std::thread` throws. -/
def threadThrows (s : State) (action : Action) : Bool :=
  s.udp.starting && action == .udp (.started false)

/-- Nothing of an attempt begun in `s` is left, and the loop goes on. -/
structure RolledBack (s u : State) : Prop where
  table : u.udpSessions = s.udpSessions
  sockets : ∀ fd σ, u.fds fd = some (.upstream σ) → s.fds fd = some (.upstream σ)
  goesOn : u.udp = .maybeCleanup ∧ u.terminated = false

/-- The table and the upstream sockets are those of `s`, if anything with fewer sockets. -/
def Untouched (s t : State) : Prop :=
  t.udpSessions = s.udpSessions ∧
    ∀ fd σ, t.fds fd = some (.upstream σ) → s.fds fd = some (.upstream σ)

theorem Untouched.trans (first : Untouched s t) (second : Untouched t u) : Untouched s u :=
  ⟨second.1.trans first.1, fun fd σ held => first.2 fd σ (second.2 fd σ held)⟩

/-- As long as the UDP thread is there, the others neither enter nor remove sessions, and
they open no upstream socket. -/
theorem Move.background (move : Move p s action t) (other : ∀ a, action ≠ .udp a)
    (unjoined : s.stop.udpJoined = false) : Untouched s t := by
  cases move with
  | udp => exact absurd rfl (other _)
  | reply move =>
    have frame := move.frame
    exact ⟨frame.udpSessions, fun fd σ => by rw [frame.fds]; exact id⟩
  | stop move =>
    cases move with
    | clean pc | enterCleanup pc | cleaned pc | joinResolver pc =>
      simp [pc, StopPc.udpJoined] at unjoined
    | closeListen => exact ⟨rfl, fun _ _ => State.fds_of_closeSocket⟩
    | _ => exact ⟨rfl, fun _ _ => id⟩
  | @foreignOpen fd' free =>
    refine ⟨rfl, fun fd σ held => ?_⟩
    by_cases same : fd = fd'
    · simp [same] at held
    · simpa [same] using held
  | foreignClose => exact ⟨rfl, fun _ _ => State.fds_of_closeSocket⟩
  | _ => exact ⟨rfl, fun _ _ => id⟩

/-- A step of the set-up that ends without a socket has left everything alone. -/
theorem UdpMove.givesUp (move : UdpMove p s a t) (inside : s.udp.settingUp = true)
    (after : t.udp.looking = true ∨ t.udp = .maybeCleanup) :
    s.udp.looking = true ∧ Untouched s t := by
  cases move with
  | noTarget pc | snapshot pc | noSocket pc | tooLong pc | socketFailed pc =>
    exact ⟨by rw [pc]; rfl, rfl, fun _ _ => id⟩
  | noThread pc => simp [pc, UdpPc.looking] at after
  | socketMade | initActive | emplace | emplaced | startThread => simp [UdpPc.looking] at after
  | start pc | test pc | readListen pc | callRecv pc | recvDatagram pc | recvEmpty pc
  | recvNothing pc | retest pc | hit pc | miss pc | readClock pc | storeActive pc | sent pc
  | sentEmpty pc | sendFailed pc | tooEarly pc | cleanupDue pc | enterCleanup pc | clean pc
  | cleaned pc => simp [pc, UdpPc.settingUp, UdpPc.creating, UdpPc.starting] at inside

/-- During a set-up that has not made a socket, everything is as it was. -/
theorem untouched_during (reached : (forwarder p).Reach Machine.anyStep s)
    (stretch : (forwarder p).During (fun t => t.udp.settingUp = true) s t)
    (looking : t.udp.looking = true) : Untouched s t := by
  induction stretch with
  | here => exact ⟨rfl, fun _ _ => id⟩
  | @next t u action before inside moved ih =>
    have move := step_move moved
    by_cases own : ∃ a, action = .udp a
    · obtain ⟨a, rfl⟩ := own
      cases move with
      | udp move =>
        obtain ⟨earlier, untouched⟩ := move.givesUp inside (.inl looking)
        exact (ih earlier).trans untouched
    · have alive : t.udp ≠ .exited := fun ended => by
        simp [ended, UdpPc.settingUp, UdpPc.creating, UdpPc.starting] at inside
      have unjoined := (threads_reached (reached.during before)).unjoined alive
      have other : ∀ a, action ≠ .udp a := fun a same => own ⟨a, same⟩
      exact (ih ((move.quiet other).udp ▸ looking)).trans (move.background other unjoined)

/-- An ended process takes no step. -/
theorem step_alive (moved : (forwarder p).step s action = some t) : s.terminated = false := by
  change step p s action = some t at moved
  unfold step at moved
  split at moved
  · cases moved
  next alive => simpa using alive

theorem UdpMove.terminates (move : UdpMove p s a t) (alive : s.terminated = false) :
    t.terminated = true ↔ threadThrows s (.udp a) = true := by
  cases move with
  | clean pc unfinished move =>
    simp [threadThrows, pc, UdpPc.starting, move.frame.terminated, alive]
  | noThread pc => simp [threadThrows, pc, UdpPc.starting]
  | startThread => simp [threadThrows, alive]
  | start pc | test pc | readListen pc | callRecv pc | recvDatagram pc | recvEmpty pc
  | recvNothing pc | retest pc | hit pc | miss pc | noTarget pc | snapshot pc | noSocket pc
  | tooLong pc | socketFailed pc | socketMade pc | initActive pc | emplace pc | emplaced pc
  | readClock pc | storeActive pc | sent pc | sentEmpty pc | sendFailed pc | tooEarly pc
  | cleanupDue pc | enterCleanup pc | cleaned pc =>
    simp [threadThrows, pc, UdpPc.starting, alive]

/-- The process ends when a thread cannot be started, and in no other step. -/
theorem Move.terminates (move : Move p s action t) (alive : s.terminated = false) :
    t.terminated = true ↔ threadThrows s action = true := by
  cases move with
  | udp move => exact move.terminates alive
  | reply move =>
    have same : t.terminated = s.terminated := by cases move <;> rfl
    simp [threadThrows, same, alive]
  | stop move =>
    cases move with
    | clean pc unfinished move => simp [threadThrows, move.frame.terminated, alive]
    | _ => simp [threadThrows, alive]
  | _ => simp [threadThrows, alive]

/-- A failure to set up a session leaves nothing behind if and only if it is not a failure
to start the thread. -/
theorem rolledBack_iff (reached : (forwarder p).Reach Machine.anyStep s)
    (stretch : (forwarder p).During (fun t => t.udp.settingUp = true) s t)
    (inside : t.udp.settingUp = true) (moved : (forwarder p).step t action = some u)
    (failed : u.udp = .maybeCleanup ∨ u.terminated = true) :
    RolledBack s u ↔ threadThrows t action = false := by
  have move := step_move moved
  have terminates := move.terminates (step_alive moved)
  constructor
  · intro back
    by_contra throws
    have goesOn := back.goesOn.2
    rw [terminates.mpr (by simpa using throws)] at goesOn
    cases goesOn
  · intro quiet
    have goesOn : u.terminated = false := by
      by_contra ended
      rw [terminates.mp (by simpa using ended)] at quiet
      cases quiet
    have idle : u.udp = .maybeCleanup := failed.resolve_right (by simp [goesOn])
    by_cases own : ∃ a, action = .udp a
    · obtain ⟨a, rfl⟩ := own
      cases move with
      | udp move =>
        obtain ⟨looking, untouched⟩ := move.givesUp inside (.inr idle)
        obtain ⟨table, sockets⟩ := (untouched_during reached stretch looking).trans untouched
        exact ⟨table, sockets, idle, goesOn⟩
    · -- nobody else moves the UDP thread
      rw [← (move.quiet fun a same => own ⟨a, same⟩).udp, idle] at inside
      cases inside

end PortForwardX.Udp
