import PortForwardX.Udp.Rollback
import PortForwardX.TcpForwarder.Rollback

/-!
# Failing to set up a session

Both loops register a session before they start its thread. Every failure up to there is
undone. The constructor of `std::thread` throws past both loops, with the session in the
tables and its sockets open.
-/
namespace PortForwardX.Forwarder

open Transition Net

/-- Setting up a session, for UDP from the point where the client has no entry and for TCP
from the call of `accept`, in any state of the tables and among any steps of the other
threads. Where it fails, the tables, the sockets and the loop are as if the client had never
come, if and only if the failure is not one to start a thread. For TCP a set-up is also cut
short where a session that is already there ends the process by a `Send` on a broken
connection. A session whose own threads cannot be started ends the process whenever that
happens. -/
theorem setup_atomic_iff (p : Udp.Setup) (q : TcpForwarder.Setup) :
    (∀ (s t u : Udp.State) (d : Udp.Datagram) (action : Udp.Action),
      (Udp.forwarder p).Reach Machine.anyStep s → s.udp = .snapshot d →
      (Udp.forwarder p).During (fun t => t.udp.settingUp = true) s t →
      t.udp.settingUp = true → (Udp.forwarder p).step t action = some u →
      (u.udp = .maybeCleanup ∨ u.terminated = true) →
      (Udp.RolledBack s u ↔ Udp.threadThrows t action = false)) ∧
    (∀ (s s₁ t u : TcpForwarder.State) (peer : SockAddr) (action : TcpForwarder.Action),
      (TcpForwarder.forwarder q).Reach Machine.anyStep s → s.accept = .callAccept →
      (TcpForwarder.forwarder q).step s (.accept (.accepted peer)) = some s₁ →
      (TcpForwarder.forwarder q).During (fun t => t.accept.settingUp = true) s₁ t →
      t.accept.settingUp = true → (TcpForwarder.forwarder q).step t action = some u →
      ((t.accept.starting = false ∧ u.accept = .test) ∨ u.terminated = true) →
      (TcpForwarder.RolledBack s u ↔ TcpForwarder.threadThrows t action = false ∧
        TcpForwarder.signalled q t action = false)) ∧
    ∀ (t u : TcpForwarder.State) (ref : TcpForwarder.SessionRef),
      (TcpForwarder.forwarder q).step t (.workerThrows ref) = some u →
      u.terminated = true ∧ ∀ action, (TcpForwarder.forwarder q).step u action = none := by
  refine ⟨?_, ?_, ?_⟩
  · intro s t u d action reached _ stretch inside moved failed
    exact Udp.rolledBack_iff reached stretch inside moved failed
  · intro s s₁ t u peer action reached pc accepted stretch inside moved failed
    exact TcpForwarder.rolledBack_iff reached pc accepted stretch inside moved failed
  · intro t u ref moved
    have ended : u.terminated = true :=
      ((TcpForwarder.step_move moved).terminates (TcpForwarder.step_alive moved)).mpr (.inl rfl)
    refine ⟨ended, fun action => ?_⟩
    by_contra goesOn
    obtain ⟨v, later⟩ := Option.ne_none_iff_exists'.mp goesOn
    rw [TcpForwarder.step_alive later] at ended
    cases ended

/-- A UDP forwarder that has missed the key of its first client. -/
def newClient : List Udp.Action := Udp.Sample.oneClient.take 6

/-- What it does for that client up to the point where it starts the thread. -/
def newSession : List Udp.Action := (Udp.Sample.oneClient.drop 6).take 4

/-- A TCP forwarder that is about to accept its first connection. -/
def firstAccept : List TcpForwarder.Action := TcpForwarder.Sample.cleanup [] 4

/-- What it does for that connection up to the point where it starts the session. -/
def newConnection : List TcpForwarder.Action := (TcpForwarder.Sample.connection.drop 1).take 9

/-- No socket can be made for the first UDP client, and the target refuses the first TCP
connection. -/
theorem setup_atomic_iff_refused :
    (∃ s u, (Udp.forwarder Udp.Sample.setup).Reach Machine.anyStep s ∧
      s.udp = .snapshot ⟨Udp.Sample.alice, [1, 2]⟩ ∧ Udp.RolledBack s u) ∧
    ∃ s u, (TcpForwarder.forwarder TcpForwarder.Sample.setup).Reach Machine.anyStep s ∧
      s.accept = .callAccept ∧ u.nextSocket = s.nextSocket + 2 ∧ TcpForwarder.RolledBack s u := by
  constructor
  · have result : ((Udp.forwarder Udp.Sample.setup).run Udp.Sample.initial newClient).bind
        (fun s => ((Udp.forwarder Udp.Sample.setup).runIf (fun t _ => t.udp.settingUp = true) s
          [.udp .none, .udp (.error (.other 24))]).bind fun t =>
          ((Udp.forwarder Udp.Sample.setup).step t (.udp .none)).map fun u =>
            s.udp == .snapshot ⟨Udp.Sample.alice, [1, 2]⟩ && t.udp.settingUp &&
              u.udp == .maybeCleanup && !Udp.threadThrows t (.udp .none)) = some true := by
      decide +kernel
    obtain ⟨s, before, rest⟩ := Option.bind_eq_some_iff.mp result
    obtain ⟨t, stretch, rest⟩ := Option.bind_eq_some_iff.mp rest
    obtain ⟨u, moved, seen⟩ := Option.map_eq_some_iff.mp rest
    simp only [Bool.and_eq_true, beq_iff_eq, and_assoc, Bool.not_eq_true'] at seen
    obtain ⟨pc, inside, idle, quiet⟩ := seen
    have reached := Machine.Reach.run (.start Udp.Sample.initial_init) before
    exact ⟨s, u, reached, pc, ((setup_atomic_iff _ TcpForwarder.Sample.setup).1 s t u _ _ reached pc
      (Machine.During.run stretch) inside moved (.inl idle)).mpr quiet⟩
  · have result : ((TcpForwarder.forwarder TcpForwarder.Sample.setup).run
        TcpForwarder.Sample.initial firstAccept).bind (fun s =>
          ((TcpForwarder.forwarder TcpForwarder.Sample.setup).step s
            (.accept (.accepted TcpForwarder.Sample.peer))).bind fun s₁ =>
          ((TcpForwarder.forwarder TcpForwarder.Sample.setup).runIf
            (fun t _ => t.accept.settingUp = true) s₁
            ((TcpForwarder.Sample.refusedConnection.drop 1).take 5)).bind fun t =>
          ((TcpForwarder.forwarder TcpForwarder.Sample.setup).step t (.accept .none)).map fun u =>
            s.accept == .callAccept && t.accept == .closeClient 0 && u.accept == .test &&
              s.nextSocket == 0 && u.nextSocket == 2) = some true := by
      decide +kernel
    obtain ⟨s, before, rest⟩ := Option.bind_eq_some_iff.mp result
    obtain ⟨s₁, accepted, rest⟩ := Option.bind_eq_some_iff.mp rest
    obtain ⟨t, stretch, rest⟩ := Option.bind_eq_some_iff.mp rest
    obtain ⟨u, moved, seen⟩ := Option.map_eq_some_iff.mp rest
    simp only [Bool.and_eq_true, beq_iff_eq, and_assoc] at seen
    obtain ⟨pc, closing, test, none_, two⟩ := seen
    have reached := Machine.Reach.run (.start TcpForwarder.Sample.initial_init) before
    refine ⟨s, u, reached, pc, by rw [none_, two], ?_⟩
    refine ((setup_atomic_iff Udp.Sample.setup _).2.1 s s₁ t u _ _ reached pc accepted
      (Machine.During.run stretch)
      (by rw [closing]; rfl) moved (.inl ⟨by rw [closing]; rfl, test⟩)).mpr ?_
    simp [TcpForwarder.threadThrows, TcpForwarder.signalled, closing,
      TcpForwarder.AcceptPc.starting]

/-- The first thread cannot be started: the session stays in the tables, its sockets stay
open, and the process ends. -/
theorem setup_not_atomic :
    (∃ s t u, (Udp.forwarder Udp.Sample.setup).Reach Machine.anyStep s ∧
      s.udp = .snapshot ⟨Udp.Sample.alice, [1, 2]⟩ ∧
      (Udp.forwarder Udp.Sample.setup).During (fun t => t.udp.settingUp = true) s t ∧
      (Udp.forwarder Udp.Sample.setup).step t (.udp (.started false)) = some u ∧
      s.udpSessions = [] ∧ u.udpSessions = [("192.0.2.1:40000", 0)] ∧
      s.fds 4 = none ∧ u.fds 4 = some (.upstream 0) ∧ u.terminated = true) ∧
    ∃ s s₁ t u, (TcpForwarder.forwarder TcpForwarder.Sample.setup).Reach Machine.anyStep s ∧
      s.accept = .callAccept ∧
      (TcpForwarder.forwarder TcpForwarder.Sample.setup).step s
        (.accept (.accepted TcpForwarder.Sample.peer)) = some s₁ ∧
      (TcpForwarder.forwarder TcpForwarder.Sample.setup).During
        (fun t => t.accept.settingUp = true) s₁ t ∧
      (TcpForwarder.forwarder TcpForwarder.Sample.setup).step t
        (.accept (.started false)) = some u ∧
      s.sessions = [] ∧ u.sessions = [(1, 0)] ∧
      s.sessionPeers = [] ∧ u.sessionPeers = [(1, "192.0.2.1:40000")] ∧
      u.isOpen 0 = true ∧ u.isOpen 1 = true ∧ u.terminated = true := by
  constructor
  · have result : ((Udp.forwarder Udp.Sample.setup).run Udp.Sample.initial newClient).bind
        (fun s => ((Udp.forwarder Udp.Sample.setup).runIf (fun t _ => t.udp.settingUp = true) s
          newSession).bind fun t =>
          ((Udp.forwarder Udp.Sample.setup).step t (.udp (.started false))).map fun u =>
            s.udp == .snapshot ⟨Udp.Sample.alice, [1, 2]⟩ && s.udpSessions == [] &&
              u.udpSessions == [("192.0.2.1:40000", 0)] && s.fds 4 == none &&
              u.fds 4 == some (.upstream 0) && u.terminated) = some true := by
      decide +kernel
    obtain ⟨s, before, rest⟩ := Option.bind_eq_some_iff.mp result
    obtain ⟨t, stretch, rest⟩ := Option.bind_eq_some_iff.mp rest
    obtain ⟨u, moved, seen⟩ := Option.map_eq_some_iff.mp rest
    simp only [Bool.and_eq_true, beq_iff_eq, and_assoc] at seen
    exact ⟨s, t, u, Machine.Reach.run (.start Udp.Sample.initial_init) before, seen.1,
      Machine.During.run stretch, moved, seen.2⟩
  · have result : ((TcpForwarder.forwarder TcpForwarder.Sample.setup).run
        TcpForwarder.Sample.initial firstAccept).bind (fun s =>
          ((TcpForwarder.forwarder TcpForwarder.Sample.setup).step s
            (.accept (.accepted TcpForwarder.Sample.peer))).bind fun s₁ =>
          ((TcpForwarder.forwarder TcpForwarder.Sample.setup).runIf
            (fun t _ => t.accept.settingUp = true) s₁ newConnection).bind fun t =>
          ((TcpForwarder.forwarder TcpForwarder.Sample.setup).step t
            (.accept (.started false))).map fun u =>
            s.accept == .callAccept && s.sessions == [] && u.sessions == [(1, 0)] &&
              s.sessionPeers == [] && u.sessionPeers == [(1, "192.0.2.1:40000")] &&
              u.isOpen 0 && u.isOpen 1 && u.terminated) = some true := by
      decide +kernel
    obtain ⟨s, before, rest⟩ := Option.bind_eq_some_iff.mp result
    obtain ⟨s₁, accepted, rest⟩ := Option.bind_eq_some_iff.mp rest
    obtain ⟨t, stretch, rest⟩ := Option.bind_eq_some_iff.mp rest
    obtain ⟨u, moved, seen⟩ := Option.map_eq_some_iff.mp rest
    simp only [Bool.and_eq_true, beq_iff_eq, and_assoc] at seen
    exact ⟨s, s₁, t, u, Machine.Reach.run (.start TcpForwarder.Sample.initial_init) before, seen.1,
      accepted, Machine.During.run stretch, moved, seen.2⟩

end PortForwardX.Forwarder
