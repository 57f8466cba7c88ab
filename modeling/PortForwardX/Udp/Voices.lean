import PortForwardX.Udp.Termination

/-!
# One voice for each client

A client that comes back after its session has been evicted gets a new session and a new
socket. By then the old session's loop has been joined: nothing that still arrives for the old
session can get in between the replies of the new one.
-/
namespace PortForwardX.Udp

open Transition Net

variable {p : Setup} {s t : State} {action : Action} {σ τ : SessionId}

/-- The earlier of two sessions of one client has been joined. -/
def Succeeded (p : Setup) (s : State) : Prop :=
  ∀ σ τ, σ < τ → τ < s.nextSession →
    p.key (s.heap σ).clientAddr = p.key (s.heap τ).clientAddr → s.reply σ = .joined

/-- A loop that has been joined stays so. -/
theorem Move.staysJoined (move : Move p s action t) (threads : Threads s)
    (joined : s.reply σ = .joined) : t.reply σ = .joined := by
  by_cases own : ∃ a, action = .reply σ a
  · obtain ⟨a, rfl⟩ := own
    cases move with
    | reply move => cases move <;> simp_all
  · rcases move.others fun a same => own ⟨a, same⟩ with same | ⟨preparing, -⟩ | ⟨-, again⟩
    · exact same.trans joined
    · rw [(threads.prepared σ preparing).2.1] at joined
      cases joined
    · exact again

/-- Where a new session is made, every earlier one is in the table or has been joined. -/
theorem Conserving.settled_creating {n : Notes} (conserving : Conserving s n) (threads : Threads s)
    {d : Datagram} {endpoints : List ResolvedEndpoint} (pc : s.udp = .createSocket d endpoints)
    (made : σ < s.nextSession) : σ ∈ s.listed ∨ s.reply σ = .joined := by
  have idle : s.cleaner = none := by
    refine State.cleaner_eq_none (fun c cleaning => ?_) fun c cleaning => ?_
    · rw [pc] at cleaning
      cases cleaning
    · have ended := threads.exclusive (by rw [cleaning]; rfl)
      rw [pc] at ended
      cases ended
  obtain ⟨removed, closed⟩ := State.no_places idle
  have setup : s.udp.unlisted = [] := by
    rw [pc]
    rfl
  exact (conserving.settled setup removed closed made).imp_right (conserving.loops.joined σ).mpr

/-- A step makes no session, or one for the client whose datagram the UDP thread holds. -/
theorem Move.makes (move : Move p s action t) : t.nextSession = s.nextSession ∨
    ∃ d endpoints, s.udp = .createSocket d endpoints ∧ t.nextSession = s.nextSession + 1 ∧
      (t.heap s.nextSession).clientAddr = d.client := by
  by_cases own : ∃ a, action = .udp a
  · obtain ⟨a, rfl⟩ := own
    cases move with
    | udp move =>
      cases move with
      | @socketMade fd d endpoint rest pc free => exact .inr ⟨d, _, pc, rfl, by simp⟩
      | clean pc unfinished move => exact .inl move.quiet.nextSession
      | _ => exact .inl rfl
  · exact .inl (move.quiet fun a same => own ⟨a, same⟩).nextSession

theorem Move.succeeded {n : Notes} (move : Move p s action t) (threads : Threads s)
    (indexed : Indexed p s) (conserving : Conserving s n) (before : Succeeded p s) :
    Succeeded p t := by
  intro σ τ earlier made equal
  have fixed := move.fixed
  by_cases old : τ < s.nextSession
  · rw [fixed.client σ (Nat.lt_trans earlier old), fixed.client τ old] at equal
    exact move.staysJoined threads (before σ τ earlier old equal)
  · -- the session has just been made: no entry has its key
    rcases move.makes with same | ⟨d, endpoints, pc, next, client⟩
    · rw [same] at made
      exact absurd made old
    · obtain rfl : τ = s.nextSession :=
        Nat.le_antisymm (Nat.le_of_lt_succ (lt_of_lt_of_eq made next)) (Nat.le_of_not_lt old)
      rw [fixed.client σ earlier, client] at equal
      refine move.staysJoined threads ?_
      refine (conserving.settled_creating threads pc earlier).resolve_left fun listed => ?_
      obtain ⟨entry, member, rfl⟩ := List.mem_map.mp listed
      have none_ := indexed.absent (by rw [pc]; rfl) d (by rw [pc]; rfl)
      refine State.find_eq_none.mp none_ (List.mem_map.mpr ⟨entry, member, ?_⟩)
      rw [indexed.keyed entry member, equal]

theorem succeeded_reached {x : State × Notes} (reached : WatchedStarting p x) :
    Succeeded p x.1 := by
  induction reached with
  | start init =>
    obtain ⟨⟨fd, clock, outcome, endpoints, -, same⟩, -⟩ := init
    rw [same]
    intro σ τ _ made
    exact absurd made (Nat.not_lt_zero τ)
  | @next x y action before _ moved ih =>
    obtain ⟨step, -⟩ := Machine.observed_step.mp moved
    have plain := before.unobserved Machine.anyStep fun _ _ _ => trivial
    exact (step_move step).succeeded (threads_reached plain) (indexed_reached plain)
      (conserving_reached before) ih

/-- A loop that has been joined makes no event. -/
theorem run_silent {as : List Action} (reached : (forwarder p).Reach Machine.anyStep s)
    (joined : s.reply σ = .joined) (result : (forwarder p).run s as = some t) :
    t.trace.filter (Event.ofReply σ) = s.trace.filter (Event.ofReply σ) := by
  induction as generalizing s with
  | nil =>
    cases result
    rfl
  | cons action rest ih =>
    obtain ⟨u, step, later⟩ := Option.bind_eq_some_iff.mp result
    have move := step_move step
    have other (a : Answer) : action ≠ .reply σ a := by
      rintro rfl
      cases move with
      | reply move => cases move <;> simp_all
    rw [ih (.next reached trivial step) (move.staysJoined (threads_reached reached) joined) later,
      move.replyEvents other]

/-- Of two sessions of one client the earlier has been joined and its socket is closed, and
from then on its loop neither receives nor sends: the replies of the earlier session all come
before those of the later one. -/
theorem single_voice (reached : (forwarder p).Reach Machine.anyStep s)
    (alive : s.terminated = false) (earlier : σ < τ) (made : τ < s.nextSession)
    (same : p.key (s.heap σ).clientAddr = p.key (s.heap τ).clientAddr) :
    s.reply σ = .joined ∧ (∀ fd, s.fds fd ≠ some (.upstream σ)) ∧
      ∀ as t, (forwarder p).run s as = some t →
        t.trace.filter (Event.ofReply σ) = s.trace.filter (Event.ofReply σ) := by
  obtain ⟨n, watched⟩ : ∃ n, WatchedStarting p (s, n) :=
    (starting_of_alive reached alive).observe fun _ _ => ⟨{}, rfl⟩
  have joined : s.reply σ = .joined := succeeded_reached watched σ τ earlier made same
  have conserving : Conserving s n := conserving_reached watched
  refine ⟨joined, fun fd named => ?_, fun as t result => run_silent reached joined result⟩
  obtain ⟨fd', opened⟩ := conserving.made σ (Nat.lt_trans earlier made)
  have closed := (conserving.gone ((conserving.loops.joined σ).mp joined) opened).1
  exact closed (conserving.sockets.owned fd σ named).1

/-- A client falls silent, its session is evicted, and it comes back. -/
def clientReturns : List Action :=
  Sample.oneClient ++ .tick 5000 :: Sample.cleanup [("192.0.2.1:40000", 0)] 8 ++
    List.replicate 3 (.reply 0 .none) ++ [.udp .none, .udp .none] ++
    Sample.newClient 4 Sample.alice (Sample.payload [3])

/-- The new session has been given the number of the old one's socket. -/
theorem single_voice_returns :
    ∃ s, (forwarder Sample.setup).Reach Machine.anyStep s ∧ s.fds 4 = some (.upstream 1) ∧
      s.reply 1 = .testRunning ∧ s.reply 0 = .joined ∧ (∀ fd, s.fds fd ≠ some (.upstream 0)) ∧
      ∀ as t, (forwarder Sample.setup).run s as = some t →
        t.trace.filter (Event.ofReply 0) = s.trace.filter (Event.ofReply 0) := by
  have result : ((forwarder Sample.setup).runIf Machine.anyStep Sample.initial clientReturns).map
      (fun s => decide (s.fds 4 = some (.upstream 1) ∧ s.reply 1 = .testRunning ∧
        s.terminated = false ∧ s.nextSession = 2 ∧
        (s.heap 0).clientAddr = (s.heap 1).clientAddr)) = some true := by
    decide +kernel
  obtain ⟨s, run, seen⟩ := Option.map_eq_some_iff.mp result
  obtain ⟨number, running, alive, made, same⟩ := of_decide_eq_true seen
  have reached := Machine.Reach.runIf (.start Sample.initial_init) run
  exact ⟨s, reached, number, running,
    single_voice reached alive (σ := 0) (τ := 1) (by decide) (by rw [made]; decide) (by rw [same])⟩

end PortForwardX.Udp
