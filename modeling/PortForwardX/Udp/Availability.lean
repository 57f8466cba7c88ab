import PortForwardX.Udp.Survival
import PortForwardX.Udp.Termination

/-!
# The UDP thread comes back to its socket

Whatever it has to do for a client, for a target that does not answer or in a cleanup, the UDP
thread gets back to `recvfrom`. The only thread it ever waits for is a reply loop that it has
told to end.
-/
namespace PortForwardX.Udp

open Transition Net

variable {p : Setup} {s t : State} {c c' : Cleanup} {a : Answer} {action : Action}
  {σ : SessionId}

/-! ### Reply loops that have been told to end -/

/-- The sessions that a cleanup of the UDP thread has taken out of the table are marked. -/
def Doomed (s : State) : Prop :=
  ∀ c, s.udp = .cleaning c →
    (∀ σ ∈ c.closing, (s.heap σ).markedForClose = true) ∧
    ∀ σ, c.pc = .close σ ∨ c.pc = .setInvalid σ ∨ c.pc = .join σ →
      (s.heap σ).markedForClose = true

theorem CleanMove.doomed (move : CleanMove p s c t c')
    (closing : ∀ σ ∈ c.closing, (s.heap σ).markedForClose = true)
    (current : ∀ σ, c.pc = .close σ ∨ c.pc = .setInvalid σ ∨ c.pc = .join σ →
      (s.heap σ).markedForClose = true) :
    (∀ σ ∈ c'.closing, (t.heap σ).markedForClose = true) ∧
    ∀ σ, c'.pc = .close σ ∨ c'.pc = .setInvalid σ ∨ c'.pc = .join σ →
      (t.heap σ).markedForClose = true := by
  have kept := move.frame.marked
  cases move with
  | @evict key τ reason pc =>
    -- the session is marked in the step that takes it out
    refine ⟨fun σ member => ?_, by simp⟩
    rcases List.mem_append.mp member with old | new
    · exact kept σ (closing σ old)
    · obtain rfl := List.mem_singleton.mp new
      simp
  | @shutdown τ rest pc split =>
    refine ⟨fun σ member => closing σ (by simp [split, member]), fun σ here => ?_⟩
    have same : τ = σ := by simpa using here
    exact closing σ (by simp [split, same])
  | @close τ pc =>
    refine ⟨closing, fun σ here => current σ ?_⟩
    have same : τ = σ := by simpa using here
    exact .inl (same ▸ pc)
  | @setInvalid τ pc =>
    refine ⟨fun σ member => kept σ (closing σ member), fun σ here => kept σ (current σ ?_)⟩
    have same : τ = σ := by simpa using here
    exact .inr (.inl (same ▸ pc))
  | _ => exact ⟨closing, by simp⟩

theorem Move.doomed (move : Move p s action t) (before : Doomed s) : Doomed t := by
  cases move with
  | udp move =>
    cases move with
    | @clean _ c c' u pc unfinished move =>
      intro d here
      obtain rfl := UdpPc.cleaning.inj here
      obtain ⟨closing, current⟩ := before c pc
      exact move.doomed closing current
    | enterCleanup =>
      intro d here
      obtain rfl := UdpPc.cleaning.inj here
      simp
    | test | retest | cleaned =>
      intro d here
      dsimp only [State.goto] at here
      split at here <;> cases here
    | noThread => exact before
    | _ =>
      intro d here
      cases here
  | reply move =>
    intro d here
    obtain ⟨closing, current⟩ := before d (move.quiet.udp ▸ here)
    have kept (τ : SessionId) (marked : (s.heap τ).markedForClose = true) :
        (t.heap τ).markedForClose = true := by
      cases move with
      | storeActive | leaving => exact State.marked_mono (by simp) marked
      | _ => exact marked
    exact ⟨fun τ member => kept τ (closing τ member), fun τ at_ => kept τ (current τ at_)⟩
  | stop move =>
    intro d here
    obtain ⟨closing, current⟩ := before d (move.quiet.udp ▸ here)
    have kept (τ : SessionId) (marked : (s.heap τ).markedForClose = true) :
        (t.heap τ).markedForClose = true := by
      cases move with
      | clean pc unfinished move => exact move.frame.marked τ marked
      | _ => exact marked
    exact ⟨fun τ member => kept τ (closing τ member), fun τ at_ => kept τ (current τ at_)⟩
  | _ => exact before

theorem doomed_reached {ok : State → Action → Prop} (reached : (forwarder p).Reach ok s) :
    Doomed s := by
  induction reached with
  | start init =>
    obtain ⟨fd, clock, outcome, endpoints, -, rfl⟩ := init
    simp [Doomed, started]
  | next _ _ moved ih => exact (step_move moved).doomed ih

/-- The steps that a reply loop whose session is marked takes before it ends. -/
def ReplyPc.leavingIn : ReplyPc → Nat
  | .notStarted | .exited | .joined => 0
  | .leaving => 1
  | .testMarked => 2
  | .testRunning => 3
  | .storeActive _ => 4
  | .readClock => 5
  | .callSend _ _ _ => 6
  | .readListen _ _ => 7
  | .inRecv _ => 8
  | .callRecv _ => 9
  | .readSocket => 10

theorem ReplyMove.obeys (move : ReplyMove p s σ a t)
    (marked : (s.heap σ).markedForClose = true) :
    (t.reply σ).leavingIn < (s.reply σ).leavingIn := by
  cases move with
  -- once round the loop at most, and then the mark is seen
  | testMarked pc => simp [pc, marked, ReplyPc.leavingIn]
  | testRunning pc | recvFailed pc | sent pc =>
    simp only [State.gotoReply, State.log, Function.update_self, pc]
    split <;> simp [ReplyPc.leavingIn]
  | _ pc => simp [pc, ReplyPc.leavingIn]

/-! ### The way back -/

/-- Looking a client up and reading the target list, which the resolver may change meanwhile. -/
def UdpPc.stage : UdpPc → Nat
  | .lookup _ => 2
  | .snapshot _ => 1
  | _ => 0

/-- The steps of a running UDP thread up to `recvfrom`, with `entries` sessions in the table. -/
def UdpPc.ahead (entries : Nat) : UdpPc → Nat
  | .inRecv _ | .exited => 0
  | .callRecv _ => 1
  | .readListen => 2
  | .test => 3
  | .start => 4
  | .cleaning c => c.remaining + 4
  | .enterCleanup _ => 8 * entries + 6
  | .maybeCleanup => 8 * entries + 7
  | .retest | .sendTo _ _ => 8 * entries + 8
  | .storeActive _ _ _ => 8 * entries + 9
  | .readClock _ _ => 8 * entries + 10
  | .startThread _ _ => 8 * entries + 11
  | .emplace _ _ => 8 * entries + 20
  | .initActive _ _ => 8 * entries + 21
  | .createSocket _ left => 8 * entries + left.length + 22
  | .snapshot _ | .lookup _ => 0

def State.waited (s : State) : Nat := s.udp.joining.elim 0 fun σ => (s.reply σ).leavingIn

def State.wayBack (s : State) : Nat ×ₗ Nat ×ₗ Nat :=
  toLex (s.udp.stage, toLex (s.udp.ahead s.udpSessions.length, s.waited))

/-- A running forwarder whose UDP thread is not in `recvfrom`. -/
structure Away (s : State) : Prop where
  running : s.running = true
  alive : s.terminated = false
  away : ∀ socket, s.udp ≠ .inRecv socket

/-- The steps the UDP thread depends on: its own, and those of the loop it waits for. -/
def Needed (s : State) : Action → Prop
  | .udp _ => True
  | .reply σ _ => s.udp.joining = some σ
  | _ => False

/-- Those of them that come in time. -/
def Expected (s : State) (action : Action) : Prop :=
  Needed s action ∧ s.awaitsForeign action = false

/-- The loop that the UDP thread waits for is in a call that need not return. -/
def Held (s : State) : Prop :=
  ∃ σ, s.udp.joining = some σ ∧ s.reply σ = .inRecv (some .foreign)

theorem wayBack_lt_of_stage (earlier : t.udp.stage < s.udp.stage) : t.wayBack < s.wayBack :=
  Prod.Lex.toLex_lt_toLex.mpr (.inl earlier)

theorem wayBack_lt_of_ahead (same : t.udp.stage = s.udp.stage)
    (nearer : t.udp.ahead t.udpSessions.length < s.udp.ahead s.udpSessions.length) :
    t.wayBack < s.wayBack :=
  Prod.Lex.toLex_lt_toLex.mpr (.inr ⟨same, Prod.Lex.toLex_lt_toLex.mpr (.inl nearer)⟩)

theorem UdpMove.returns (move : UdpMove p s a t) (away : Away s)
    (unforced : s.udp.forced = false) : t.terminated = true ∨ t.wayBack < s.wayBack := by
  cases move with
  | noThread => exact .inl rfl
  | recvDatagram pc | recvEmpty pc | recvNothing pc => exact absurd pc (away.away _)
  -- the steps that read the target list, whose length is not bounded from here
  | hit pc | miss pc | noTarget pc | snapshot pc =>
    exact .inr (wayBack_lt_of_stage (by simp [pc, UdpPc.stage]))
  | @clean _ c c' u pc unfinished move =>
    refine .inr (wayBack_lt_of_ahead (by simp [pc, UdpPc.stage]) ?_)
    have spent := move.spends
    simp only [State.goto, pc, UdpPc.ahead]
    omega
  | @cleaned _ c pc finished =>
    have serving : c.forceAll = false := by simpa only [UdpPc.forced, pc] using unforced
    refine .inr (wayBack_lt_of_ahead ?_ ?_) <;> simp [pc, serving, UdpPc.stage, UdpPc.ahead]
  | @enterCleanup forceAll entries pc order =>
    refine .inr (wayBack_lt_of_ahead (by simp [pc, UdpPc.stage]) ?_)
    simp only [State.goto, pc, UdpPc.ahead, Cleanup.remaining_enter order]
    omega
  | test pc | retest pc =>
    refine .inr (wayBack_lt_of_ahead ?_ ?_) <;> simp [pc, away.running, UdpPc.stage, UdpPc.ahead]
  | _ pc =>
    refine .inr (wayBack_lt_of_ahead (by simp [pc, UdpPc.stage]) ?_)
    simp only [State.goto, State.log, State.returnSession, State.storeActive, State.modify,
      State.mark, State.newSession, State.openFd, State.gotoReply, State.closeSocket, pc,
      UdpPc.ahead, List.length_cons, List.length_nil]
    omega

theorem wayBack_eq (udp : t.udp = s.udp) (table : t.udpSessions = s.udpSessions)
    (reply : ∀ σ, s.udp.joining = some σ → t.reply σ = s.reply σ) : t.wayBack = s.wayBack := by
  have waited : t.waited = s.waited := by
    rw [State.waited, State.waited, udp]
    cases joining : s.udp.joining with
    | none => rfl
    | some σ => simp [reply σ joining]
  rw [State.wayBack, State.wayBack, udp, table, waited]

/-- The loop that the UDP thread waits for moves. -/
theorem ReplyMove.shortens (move : ReplyMove p s σ a t) (doomed : Doomed s)
    (joining : s.udp.joining = some σ) : t.wayBack < s.wayBack := by
  obtain ⟨c, pc, joins⟩ := UdpPc.joining_eq_some.mp joining
  have marked := (doomed c pc).2 σ (.inr (.inr joins))
  have waited : t.waited < s.waited := by
    rw [State.waited, State.waited, move.quiet.udp, joining]
    exact move.obeys marked
  rw [State.wayBack, State.wayBack, move.quiet.udp, move.frame.udpSessions]
  exact Prod.Lex.toLex_lt_toLex.mpr (.inr ⟨rfl, Prod.Lex.toLex_lt_toLex.mpr (.inr ⟨rfl, waited⟩)⟩)

/-- Nobody makes the way back longer, and every step it depends on makes it shorter. -/
theorem step_returns (reached : (forwarder p).Reach Machine.anyStep s) (away : Away s)
    (moved : (forwarder p).step s action = some t) :
    ((∃ socket, t.udp = .inRecv socket) ∨ t.running = false ∨ t.terminated = true) ∨
      (Away t ∧ t.wayBack ≤ s.wayBack ∧ (Needed s action → t.wayBack < s.wayBack)) := by
  by_cases isOver : (∃ socket, t.udp = .inRecv socket) ∨ t.running = false ∨ t.terminated = true
  · exact .inl isOver
  rw [not_or, not_or, Bool.not_eq_false, Bool.not_eq_true] at isOver
  obtain ⟨outside, running, alive⟩ := isOver
  have still : Away t := ⟨running, alive, fun socket here => outside ⟨socket, here⟩⟩
  have shutdown := shutdown_reached reached
  have idle : s.stop = .idle := shutdown.running.mp away.running
  refine .inr ⟨still, ?_⟩
  cases step_move moved with
  | udp move =>
    rcases move.returns away (((shutdown_reached reached).serving away.running).1) with ended | shorter
    · exact absurd (alive.symm.trans ended) Bool.false_ne_true
    · exact ⟨le_of_lt shorter, fun _ => shorter⟩
  | @reply σ a t move =>
    by_cases joining : s.udp.joining = some σ
    · have shorter := move.shortens (doomed_reached reached) joining
      exact ⟨le_of_lt shorter, fun _ => shorter⟩
    · refine ⟨le_of_eq (wayBack_eq move.quiet.udp move.frame.udpSessions fun τ other => ?_),
        fun needed => absurd needed joining⟩
      exact move.frame.reply τ fun same => joining (same ▸ other)
  | stop move => cases move <;> simp_all
  | callStop => simp at running
  | _ => exact ⟨le_of_eq (wayBack_eq rfl rfl fun _ _ => rfl), False.elim⟩

/-- A loop that is in such a call comes out of it by a step of its own. -/
theorem held_kept (reached : (forwarder p).Reach Machine.anyStep s) (away : Away s)
    (held : Held s) (moved : (forwarder p).step s action = some t) :
    Held t ∨ Needed s action := by
  have idle : s.stop = .idle := (shutdown_reached reached).running.mp away.running
  cases step_move moved with
  | udp => exact .inr trivial
  | @reply τ a t move =>
    obtain ⟨σ, joining, inside⟩ := held
    by_cases own : σ = τ
    · exact .inr (own ▸ joining)
    · exact .inl ⟨σ, move.quiet.udp ▸ joining, (move.frame.reply σ own).trans inside⟩
  | stop move => cases move <;> simp_all
  | _ => exact .inl held

/-- Away from `recvfrom` a step that the UDP thread depends on is possible, unless the loop it
waits for is in a call that need not return. -/
theorem needed_ready (reached : (forwarder p).Reach Machine.anyStep s) (away : Away s) :
    Held s ∨ ∃ action, Expected s action ∧ (forwarder p).step s action ≠ none := by
  have alive := away.alive
  have serving : s.udp ≠ .exited := fun exited => by
    have unforced := ((shutdown_reached reached).serving away.running).1
    rw [exited] at unforced
    cases unforced
  rcases udpStep_ready (p := p) serving (away.away _) with ⟨a, ready⟩ | ⟨σ, joining, waits⟩
  · exact .inr ⟨.udp a, ⟨trivial, by simpa [State.awaitsForeign] using away.away _⟩,
      by simpa [forwarder, step, alive] using ready⟩
  · by_cases lost : s.reply σ = .inRecv (some .foreign)
    · exact .inl ⟨σ, joining, lost⟩
    · obtain ⟨a, ready⟩ := waits.resolve_left lost
      exact .inr ⟨.reply σ a, ⟨joining, by simpa [State.awaitsForeign] using lost⟩,
        by simpa [forwarder, step, alive] using ready⟩

/-- A forwarder that nobody has stopped receives again and again: from whatever moment on, the
UDP thread gets back to `recvfrom`, however its clients and targets behave and whatever the
other threads do. There are two exceptions, where nothing outside the forwarder ends the process.
It may end because a thread cannot be started. And a cleanup may wait for ever for a reply loop
that is in `recvfrom` on a number that was closed under it and stands for a socket of another part
of the process, for only the forwarder's own sockets have a timeout. This takes no more than that
the thread's own steps, and the other steps of a reply loop it waits for, are not all held up for
ever while one of them is possible: a `sendto` comes back. -/
theorem receives_again (e : (forwarder p).Execution Machine.anyStep) (fair : e.Fair Expected)
    (i : Nat) : ∃ j, i ≤ j ∧ ((∃ socket, (e.state j).udp = .inRecv socket) ∨
      (e.state j).running = false ∨ Killed e j ∨ ∀ k, j ≤ k → Held (e.state k)) := by
  by_cases isOver : (∃ socket, (e.state i).udp = .inRecv socket) ∨ (e.state i).running = false ∨
      (e.state i).terminated = true
  · refine ⟨i, Nat.le_refl i, ?_⟩
    rcases isOver with inside | stopped | ended
    · exact .inl inside
    · exact .inr (.inl stopped)
    · exact .inr (.inr (.inl (killed e ended)))
  rw [not_or, not_or, Bool.not_eq_false, Bool.not_eq_true] at isOver
  obtain ⟨outside, running, alive⟩ := isOver
  obtain ⟨j, later, (inside | stopped | ended) | held⟩ :=
    e.eventually_or_stuck Away (fun s => (∃ socket, s.udp = .inRecv socket) ∨ s.running = false ∨
      s.terminated = true) State.wayBack Held fair
      (fun s t a reached away _ moved => (step_returns reached away moved).imp_right
        fun ⟨still, le, lt⟩ => ⟨still, le, fun expected => lt expected.1⟩)
      (fun s t a reached away _ moved held => (step_returns reached away moved).imp_right
        fun ⟨_, _, lt⟩ => (held_kept reached away held moved).imp_right lt)
      (fun _ reached away => needed_ready reached away)
      ⟨running, alive, fun socket here => outside ⟨socket, here⟩⟩
  · exact ⟨j, later, .inl inside⟩
  · exact ⟨j, later, .inr (.inl stopped)⟩
  · exact ⟨j, later, .inr (.inr (.inl (killed e ended)))⟩
  · exact ⟨j, later, .inr (.inr (.inr held))⟩

/-- The UDP thread has a client's first datagram in hand. -/
theorem receives_again_busy :
    ∃ e : (forwarder Sample.setup).Execution Machine.anyStep, e.Fair Expected ∧
      (e.state 8).udp.datagram.isSome = true ∧ (e.state 8).running = true ∧
      ∃ j, 8 ≤ j ∧ ((∃ socket, (e.state j).udp = .inRecv socket) ∨
        (e.state j).running = false ∨ Killed e j ∨ ∀ k, j ≤ k → Held (e.state k)) := by
  have result : ((forwarder Sample.setup).runIf Machine.anyStep Sample.initial
      stopWithSession).map (fun s => decide (s.stop = .done ∧ s.terminated = false)) =
        some true := by
    decide +kernel
  obtain ⟨s, run, seen⟩ := Option.map_eq_some_iff.mp result
  obtain ⟨done, alive⟩ := of_decide_eq_true seen
  have isOver : Over Sample.setup s :=
    over_of_done (Machine.Reach.runIf (.start Sample.initial_init) run) alive done
  have fair : (Machine.Execution.ofRun Sample.initial_init run).Fair Expected := by
    refine Machine.Execution.fair_ofRun _ _ fun action expected => isOver.still action ?_
    cases action with
    | udp | reply => rfl
    | _ => exact absurd expected.1 id
  have early : ((forwarder Sample.setup).run Sample.initial (stopWithSession.take 8)).map
      (fun s => s.udp.datagram.isSome && s.running) = some true := by
    decide +kernel
  rw [Machine.Execution.ofRun_take Sample.initial_init run (by decide), Option.map_some,
    Option.some.injEq, Bool.and_eq_true] at early
  exact ⟨_, fair, early.1, early.2, receives_again _ fair 8⟩

end PortForwardX.Udp
