import PortForwardX.TcpForwarder.Stop

/-!
# The accept thread comes back to `accept`

Whatever becomes of a connection and whatever a cleanup finds, the accept thread gets back to
`accept`. Of the sessions it waits only for those that have finished, so none that is still
relaying can hold it up.
-/
namespace PortForwardX.TcpForwarder

open Transition Net

variable {p : Setup} {s t : State} {c c' : Cleanup} {a : Answer} {action : Action}
  {ref : SessionRef}

/-- Reading the target list, which others may change meanwhile. -/
def AcceptPc.stage : AcceptPc → Nat
  | .snapshot _ _ => 3
  | .refresh _ _ => 2
  | .snapshotAgain _ _ => 1
  | _ => 0

/-- The steps of a running accept thread up to `accept`, with `entries` sessions in the map. -/
def AcceptPc.ahead (entries : Nat) : AcceptPc → Nat
  | .callAccept | .snapshot _ _ | .refresh _ _ | .snapshotAgain _ _ => 0
  | .cleanup c => c.remaining entries + 1
  | .retest => 5 * entries + 9
  | pc => pc.remaining entries 0

def State.wayBack (s : State) : Nat ×ₗ Nat ×ₗ Nat ×ₗ Nat :=
  toLex (s.accept.stage, toLex (s.accept.ahead s.sessions.length,
    toLex (s.total Tcp.State.live, s.total Tcp.State.pending)))

/-- A running forwarder whose accept thread is not in `accept`. -/
structure Away (s : State) : Prop where
  running : s.running = true
  alive : s.terminated = false
  away : s.accept ≠ .callAccept

/-- The steps the accept thread depends on: its own, and what a session that is torn down has
still to do. The relays of a live session are not among them. -/
def Needed (s : State) : Action → Prop
  | .accept _ => True
  | .session ref a => Tcp.Pending (s.heap ref).state a
  | _ => False

theorem wayBack_lt_of_stage (earlier : t.accept.stage < s.accept.stage) : t.wayBack < s.wayBack :=
  Prod.Lex.toLex_lt_toLex.mpr (.inl earlier)

theorem wayBack_lt_of_ahead (same : t.accept.stage = s.accept.stage)
    (nearer : t.accept.ahead t.sessions.length < s.accept.ahead s.sessions.length) :
    t.wayBack < s.wayBack :=
  Prod.Lex.toLex_lt_toLex.mpr (.inr ⟨same, Prod.Lex.toLex_lt_toLex.mpr (.inl nearer)⟩)

theorem wayBack_of_sessions (first : t.accept = s.accept) (second : t.sessions = s.sessions)
    (spent : t.total Tcp.State.live < s.total Tcp.State.live ∨
      (t.total Tcp.State.live = s.total Tcp.State.live ∧
        t.total Tcp.State.pending ≤ s.total Tcp.State.pending ∧
        (Needed s action → t.total Tcp.State.pending < s.total Tcp.State.pending))) :
    t.wayBack ≤ s.wayBack ∧ (Needed s action → t.wayBack < s.wayBack) := by
  simp only [State.wayBack, first, second, Prod.Lex.toLex_le_toLex, Prod.Lex.toLex_lt_toLex,
    lt_irrefl, false_or, true_and]
  rcases spent with less | ⟨same, lower, strict⟩
  · exact ⟨.inl less, fun _ => .inl less⟩
  · exact ⟨.inr ⟨same, lower⟩, fun needed => .inr ⟨same, strict needed⟩⟩

theorem AcceptMove.returns (move : AcceptMove p s a t) (away : Away s)
    (serving : s.accept.leaving = false) : t.terminated = true ∨ t.wayBack < s.wayBack := by
  cases move with
  | throws => exact .inl rfl
  -- the thread is not in `accept`, so it does not return from it
  | accepted pc | notAccepted pc => exact absurd pc away.away
  | snapshotEmpty pc | snapshot pc | refreshed pc | notRefreshed pc | noTarget pc
  | snapshotAgain pc => exact .inr (wayBack_lt_of_stage (by simp [pc, AcceptPc.stage]))
  | @clean _ c c' u pc unfinished move =>
    refine .inr (wayBack_lt_of_ahead (by simp [pc, AcceptPc.stage]) ?_)
    simpa only [State.goto, pc, AcceptPc.ahead, Nat.add_lt_add_iff_right] using move.spends.1
  | @cleaned _ c pc finished =>
    have inside : c.afterLoop = false := by simpa only [AcceptPc.leaving, pc] using serving
    refine .inr (wayBack_lt_of_ahead ?_ ?_) <;> simp [pc, inside, AcceptPc.stage, AcceptPc.ahead]
  | @insertSession _ ref peer id pc =>
    refine .inr (wayBack_lt_of_ahead (by simp [pc, AcceptPc.stage]) ?_)
    -- one entry more at most
    have entries := List.length_filter_le (fun entry : UInt64 × SessionRef => entry.1 != id)
      s.sessions
    simp only [State.goto, State.insertSession, pc, AcceptPc.ahead, AcceptPc.remaining,
      List.length_cons]
    omega
  | test pc | retest pc =>
    refine .inr (wayBack_lt_of_ahead ?_ ?_) <;>
      simp [pc, away.running, AcceptPc.stage, AcceptPc.ahead, AcceptPc.remaining, Cleanup.remaining]
  | _ pc =>
    refine .inr (wayBack_lt_of_ahead (by simp [pc, AcceptPc.stage]) ?_)
    simp only [State.goto, State.openSocket, State.closeSocket, State.makeSession,
      State.insertPeer, State.startWorker, pc, AcceptPc.ahead, AcceptPc.remaining,
      List.length_cons, List.length_nil]
    omega

/-- Nobody makes the way back longer, and every step it depends on makes it shorter. -/
theorem step_returns (reached : (forwarder p).Reach Ruled s) (away : Away s)
    (ruled : Ruled s action) (moved : (forwarder p).step s action = some t) :
    (t.accept = .callAccept ∨ t.running = false ∨ t.terminated = true) ∨
      (Away t ∧ t.wayBack ≤ s.wayBack ∧ (Needed s action → t.wayBack < s.wayBack)) := by
  by_cases isOver : t.accept = .callAccept ∨ t.running = false ∨ t.terminated = true
  · exact .inl isOver
  rw [not_or, not_or, Bool.not_eq_false, Bool.not_eq_true] at isOver
  obtain ⟨outside, running, alive⟩ := isOver
  have shutdown := shutdown_reached reached
  refine .inr ⟨⟨running, alive, outside⟩, ?_⟩
  cases step_move moved with
  | accept move =>
    rcases move.returns away (shutdown.serving away.running).1 with ended | shorter
    · exact absurd (alive.symm.trans ended) Bool.false_ne_true
    · exact ⟨le_of_lt shorter, fun _ => shorter⟩
  | signal | workerThrows => cases alive
  | resolver => exact ⟨le_refl _, False.elim⟩
  | callStop => cases running
  | stop move =>
    have idle := shutdown.running.mp away.running
    cases move <;> simp_all
  | @session ref b u made _ exists_ stepped =>
    have heap : ((s.advance ref u).heap ref).state = u := by simp [State.advance]
    have others (r : SessionRef) (other : r ≠ ref) :
        ((s.advance ref u).heap r).state = (s.heap r).state := by
      simp [State.advance, other]
    have moved : Tcp.step (s.heap ref).state b = some ((s.advance ref u).heap ref).state := by
      rw [heap, stepped]
    have severed := Tcp.severed_reached (session_reached (few_of_ruled reached) made)
    have spent := State.total_spends (s := s) (t := s.advance ref u) rfl made others severed
      ruled.2 moved
    exact wayBack_of_sessions rfl rfl spent

/-- Away from `accept` a step that the accept thread depends on is possible. -/
theorem needed_ready (reached : (forwarder p).Reach FewConnections s) (away : Away s) :
    ∃ action, Needed s action ∧ (forwarder p).step s action ≠ none := by
  have alive := away.alive
  have serving : s.accept ≠ .exited := fun exited => by
    have stays := ((shutdown_reached reached).serving away.running).1
    rw [exited] at stays
    cases stays
  rcases acceptStep_ready reached serving with ⟨a, ready⟩ | ⟨ref, b, pending, ready⟩
  · exact ⟨.accept a, trivial, by simpa [forwarder, step, alive] using ready⟩
  · exact ⟨.session ref b, pending, by simpa [forwarder, step, alive] using ready⟩

/-- A forwarder that nobody has stopped accepts again and again: from whatever moment on, the
accept thread gets back to `accept`, unless the process ends. Two things in the forwarder end it:
a thread that cannot be started and, on POSIX, a `Send` of a session on a broken connection. Short
of that the clients and targets of the sessions may behave as they like. This takes no more than
that the thread's own steps and the last steps of sessions that are torn down are not all held up
for ever while one of them is possible: a `connect` and a name resolution come back. -/
theorem accepts_again (e : (forwarder p).Execution Ruled) (fair : e.Fair Needed) (i : Nat) :
    ∃ j, i ≤ j ∧ ((e.state j).accept = .callAccept ∨ (e.state j).running = false ∨
      Killed e j) := by
  suffices returns : ∃ j, i ≤ j ∧ ((e.state j).accept = .callAccept ∨
      (e.state j).running = false ∨ (e.state j).terminated = true) by
    obtain ⟨j, later, here⟩ := returns
    exact ⟨j, later, here.imp_right (Or.imp_right (killed e))⟩
  by_cases isOver : (e.state i).accept = .callAccept ∨ (e.state i).running = false ∨
      (e.state i).terminated = true
  · exact ⟨i, Nat.le_refl i, isOver⟩
  · rw [not_or, not_or, Bool.not_eq_false, Bool.not_eq_true] at isOver
    exact e.eventually Away (fun s => s.accept = .callAccept ∨ s.running = false ∨
      s.terminated = true) State.wayBack fair
      (fun _ _ _ reached away ruled moved => step_returns reached away ruled moved)
      (fun _ reached away => needed_ready (few_of_ruled reached) away)
      ⟨isOver.2.1, isOver.2.2, isOver.1⟩

/-- The accept thread has just accepted a client. -/
theorem accepts_again_busy :
    ∃ e : (forwarder Sample.setup).Execution Ruled, e.Fair Needed ∧
      (e.state 7).accept ≠ .callAccept ∧ (e.state 7).running = true ∧
      ∃ j, 7 ≤ j ∧ ((e.state j).accept = .callAccept ∨ (e.state j).running = false ∨
        Killed e j) := by
  have result : ((forwarder Sample.setup).runIf Ruled Sample.initial stopWithSession).map
      (fun s => decide (s.stop = .done)) = some true := by
    decide +kernel
  obtain ⟨s, run, seen⟩ := Option.map_eq_some_iff.mp result
  have reached : (forwarder Sample.setup).Reach Ruled s :=
    Machine.Reach.runIf (.start Sample.initial_init) run
  have isOver : Over Sample.setup s := over_of_done (few_of_ruled reached) (of_decide_eq_true seen)
  have fair : (Machine.Execution.ofRun Sample.initial_init run).Fair Needed := by
    refine Machine.Execution.fair_ofRun _ _ fun action needed => isOver.still action ?_
    cases action with
    | accept => rfl
    | session ref b => cases b <;> first | rfl | exact absurd needed id
    | _ => exact absurd needed id
  have early : ((forwarder Sample.setup).run Sample.initial (stopWithSession.take 7)).map
      (fun s => decide (s.accept ≠ .callAccept ∧ s.running = true)) = some true := by
    decide +kernel
  rw [Machine.Execution.ofRun_take Sample.initial_init run (by decide), Option.map_some,
    Option.some.injEq, decide_eq_true_eq] at early
  exact ⟨_, fair, early.1, early.2, accepts_again _ fair 7⟩

end PortForwardX.TcpForwarder
