import PortForwardX.Transition.Fairness
import PortForwardX.Udp.Descriptors

/-!
# The forwarder among the other users of descriptors

Numbers come from one table for the whole process. What the forwarder opens was free, and
what it closes or shuts down is its own, also when numbers are given out again. The listen
socket has one number, which the member holds until `Stop` has closed it.
-/
namespace PortForwardX.Udp

open Transition

variable {p : Setup} {s t : State} {c c' : Cleanup} {a : Answer} {action : Action} {fd : Nat}
  {owner : Owner}

/-- A number that is open after a step was open before, or the step has opened it. -/
theorem Move.opens (move : Move p s action t) (after : t.fds fd = some owner) :
    s.fds fd = some owner ∨
      (s.fds fd = none ∧ ((owner = .foreign ∧ action = .foreignOpen fd) ∨
        (owner = .upstream s.nextSession ∧ action = .udp (.socket fd)))) := by
  -- the one number that a step opens
  have opened {n : Nat} {o : Owner} (free : s.fds n = none)
      (named : Function.update s.fds n (some o) fd = some owner) :
      s.fds fd = some owner ∨ (s.fds fd = none ∧ fd = n ∧ owner = o) := by
    by_cases same : fd = n
    · subst same
      rw [Function.update_self] at named
      exact .inr ⟨free, rfl, (Option.some.inj named).symm⟩
    · exact .inl (by rwa [Function.update_of_ne same] at named)
  cases move with
  | udp move =>
    cases move with
    | clean pc unfinished move => exact .inl (move.frame.fds fd owner after)
    | socketMade pc free =>
      rcases opened free after with old | ⟨none_, rfl, rfl⟩
      · exact .inl old
      · exact .inr ⟨none_, .inr ⟨rfl, rfl⟩⟩
    | emplaced => exact .inl (State.fds_of_closeSocket after)
    | _ => exact .inl after
  | reply move => exact .inl (move.frame.fds ▸ after)
  | stop move =>
    cases move with
    | clean pc unfinished move => exact .inl (move.frame.fds fd owner after)
    | closeListen => exact .inl (State.fds_of_closeSocket after)
    | _ => exact .inl after
  | foreignOpen free =>
    rcases opened free after with old | ⟨none_, rfl, rfl⟩
    · exact .inl old
    · exact .inr ⟨none_, .inl ⟨rfl, rfl⟩⟩
  | foreignClose => exact .inl (State.fds_of_closeSocket after)
  | _ => exact .inl after

/-! ### The listen socket -/

/-- The number of the listen socket is the one the member holds. -/
def Listening (s : State) : Prop :=
  ∀ fd, s.fds fd = some .listen → s.listenSocket = some fd ∧ s.stop ≠ .setListenInvalid

theorem Move.listened (move : Move p s action t) (before : Listening s) : Listening t := by
  intro fd named
  -- nobody opens a listen socket
  have old : s.fds fd = some .listen := by
    rcases move.opens named with old | ⟨-, ⟨foreign, -⟩ | ⟨upstream, -⟩⟩
    · exact old
    · cases foreign
    · cases upstream
  obtain ⟨held, apart⟩ := before fd old
  cases move with
  | stop move =>
    cases move with
    | closeListen pc => simp [held] at named
    | setListenInvalid pc => exact absurd pc apart
    | clean pc unfinished move => exact ⟨move.frame.listenSocket.trans held, by simp⟩
    | _ => exact ⟨held, by simp⟩
  | udp move =>
    cases move with
    | clean pc unfinished move =>
      exact ⟨move.frame.listenSocket.trans held, move.frame.stop ▸ apart⟩
    | _ => exact ⟨held, apart⟩
  | reply move => exact ⟨move.frame.listenSocket.trans held, move.frame.stop ▸ apart⟩
  | callStop pc => exact ⟨held, by simp⟩
  | _ => exact ⟨held, apart⟩

theorem listening_reached {ok : State → Action → Prop} (reached : (forwarder p).Reach ok s) :
    Listening s := by
  induction reached with
  | start init =>
    obtain ⟨n, clock, outcome, endpoints, -, rfl⟩ := init
    intro fd named
    by_cases same : fd = n
    · exact ⟨same ▸ rfl, by simp [started]⟩
    · simp [started, same] at named
  | next _ _ moved ih => exact (step_move moved).listened ih

/-! ### Sockets of others -/

theorem CleanMove.spares_others (move : CleanMove p s c t c') (holds : c.Holds s)
    (unshut : s.shut .foreign = false) : t.shut .foreign = false := by
  cases move with
  | @shutdown σ rest pc closing =>
    -- the member holds the number of the session's own socket
    have own : s.resolve (s.heap σ).upstreamSocket ≠ some .foreign := by
      intro named
      obtain ⟨fd, held, foreign⟩ := Option.bind_eq_some_iff.mp named
      have mine := (holds σ fd held).resolve_right (by simp [pc])
      rw [mine] at foreign
      cases foreign
    simp [unshut, own]
  | _ => exact unshut

theorem Move.spares_others (move : Move p s action t) (descriptors : Descriptors s)
    (threads : Threads s) (unshut : s.shut .foreign = false) : t.shut .foreign = false := by
  cases move with
  | udp move =>
    cases move with
    | clean pc unfinished move =>
      exact move.spares_others (descriptors.holds (State.cleaner_udp pc)) unshut
    | _ => exact unshut
  | reply move => exact move.frame.shut ▸ unshut
  | stop move =>
    cases move with
    | clean pc unfinished move =>
      have ended := threads.exclusive (by rw [pc]; rfl)
      exact move.spares_others (descriptors.holds (State.cleaner_stop ended pc)) unshut
    | shutdownListen pc =>
      have own : s.resolve s.listenSocket ≠ some .foreign := by
        intro named
        obtain ⟨fd, held, foreign⟩ := Option.bind_eq_some_iff.mp named
        have mine := (descriptors.listen fd held).resolve_right (by simp [pc])
        rw [mine] at foreign
        cases foreign
      simp [unshut, own]
    | _ => exact unshut
  | _ => exact unshut

/-- What belongs to other parts of the process is never closed or shut down. -/
theorem others_reached {ok : State → Action → Prop} (reached : (forwarder p).Reach ok s) :
    s.shut .foreign = false ∧
      ∀ action t, (forwarder p).step s action = some t → ∀ fd, s.fds fd = some .foreign →
        action ≠ .foreignClose fd → t.fds fd = some .foreign := by
  constructor
  · induction reached with
    | start init =>
      obtain ⟨n, clock, outcome, endpoints, -, rfl⟩ := init
      rfl
    | next before _ moved ih =>
      exact (step_move moved).spares_others (descriptors_reached before) (threads_reached before) ih
  · intro action t moved fd named other
    have move := step_move moved
    by_cases closing : ∃ n, action = .foreignClose n
    · obtain ⟨n, rfl⟩ := closing
      have different : n ≠ fd := fun same => other (same ▸ rfl)
      cases move
      simpa [different] using named
    · refine move.stays (descriptors_reached reached) (indexed_reached reached)
        (threads_reached reached) ?_ named
      intro closes
      cases action with
      | foreignClose n => exact closing ⟨n, rfl⟩
      | udp a =>
        simp only [State.closes] at closes
        split at closes
        · obtain ⟨σ, -, same⟩ := Cleanup.closes_eq_some closes
          cases same
        · cases closes
      | stop a =>
        simp only [State.closes] at closes
        split at closes
        · obtain ⟨σ, -, same⟩ := Cleanup.closes_eq_some closes
          cases same
        · cases closes
        · cases closes
      | _ => cases closes

/-- A socket that another part of the process has opened stays open until that part closes it,
whatever the forwarder does meanwhile, and is not shut down: also when its number was one of
the forwarder's before. -/
theorem others_untouched (reached : (forwarder p).Reach Machine.anyStep s)
    (foreign : s.fds fd = some .foreign) (as : List Action)
    (result : (forwarder p).run s as = some t) (kept : .foreignClose fd ∉ as) :
    t.fds fd = some .foreign ∧ t.shut .foreign = false := by
  induction as generalizing s with
  | nil =>
    cases result
    exact ⟨foreign, (others_reached reached).1⟩
  | cons action rest ih =>
    obtain ⟨u, step, later⟩ := Option.bind_eq_some_iff.mp result
    obtain ⟨other, kept⟩ := not_or.mp (fun member => kept (List.mem_cons.mpr member))
    have still := (others_reached reached).2 action u step fd foreign fun same => other same.symm
    exact ih (.next reached trivial step) still later kept

/-- A cleanup closes a session's socket, and another part of the process is given its number
before the member is made invalid. -/
def numberGiven : List Action :=
  Sample.oneClient ++ .tick 5000 :: Sample.cleanup [("192.0.2.1:40000", 0)] 7 ++ [.foreignOpen 4]

/-- The cleanup goes on, and then `Stop` is called and returns. -/
def cleanedAndStopped : List Action :=
  [.udp .none, .reply 0 .none, .reply 0 .none, .reply 0 .none, .udp .none, .udp .none, .callStop,
    .stop .none, .stop .none, .stop .none, .udp .none, .udp (.order []), .udp .none, .udp .none,
    .resolver .none, .stop .none, .stop .none, .stop (.order []), .stop .none, .stop .none]

theorem others_untouched_given :
    ∃ s t, (forwarder Sample.setup).Reach Machine.anyStep s ∧
      (s.heap 0).upstreamSocket = some 4 ∧ s.fds 4 = some .foreign ∧
      (forwarder Sample.setup).run s cleanedAndStopped = some t ∧ t.stop = .done ∧
      t.fds 4 = some .foreign ∧ t.shut .foreign = false := by
  have result : ((forwarder Sample.setup).runIf Machine.anyStep Sample.initial numberGiven).map
      (fun s => decide ((s.heap 0).upstreamSocket = some 4 ∧ s.fds 4 = some .foreign ∧
        ((forwarder Sample.setup).run s cleanedAndStopped).map
          (fun t => decide (t.stop = .done)) = some true)) = some true := by
    decide +kernel
  obtain ⟨s, run, seen⟩ := Option.map_eq_some_iff.mp result
  obtain ⟨member, foreign, later⟩ := of_decide_eq_true seen
  obtain ⟨t, rest, done⟩ := Option.map_eq_some_iff.mp later
  have reached := Machine.Reach.runIf (.start Sample.initial_init) run
  exact ⟨s, t, reached, member, foreign, rest, of_decide_eq_true done,
    others_untouched reached foreign _ rest (by decide)⟩

end PortForwardX.Udp
