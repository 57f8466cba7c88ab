import PortForwardX.Udp.Descriptors

/-!
# Descriptor reuse under a reading loop

The cleanup closes a session's socket before it joins the reply loop, which reads the
member `upstream_socket` some steps before it uses the number. What decides is where the
loop stands at the close, and whether it reads the member before it is overwritten.
-/
namespace PortForwardX.Udp

open Transition

/-- Every `recvfrom` of a reply loop on a number was made while that number named the open
upstream socket of its own session. -/
def State.ReadsOwn (s : State) : Prop :=
  ∀ σ fd socket, .callRecv σ fd socket ∈ s.trace → socket = some (.upstream σ)

/-- The member still holds a number that the session's socket has lost. -/
def State.stale (s : State) (σ : SessionId) : Bool :=
  match (s.heap σ).upstreamSocket with
  | some fd => s.fds fd != some (.upstream σ)
  | none => false

/-- The cleanup is about to close the number that the reply loop is about to use. -/
def Cleanup.interrupts (c : Cleanup) (s : State) : Bool :=
  match c.pc with
  | .close σ =>
    match s.reply σ with
    | .callRecv (some fd) => (s.heap σ).upstreamSocket == some fd
    | _ => false
  | _ => false

/-- No loop reads a stale member, and no cleanup closes a number under a loop. -/
def timely (s : State) : Action → Bool
  | .reply σ _ =>
    match s.reply σ with
    | .readSocket => !s.stale σ
    | _ => true
  | .udp _ =>
    match s.udp with
    | .cleaning c => !c.interrupts s
    | _ => true
  | .stop _ =>
    match s.stop with
    | .cleaning c => !c.interrupts s
    | _ => true
  | _ => true

/-- Reply loops about to call `recvfrom` hold the number of their own open socket. -/
def CallsOwn (s : State) : Prop :=
  ∀ σ fd, s.reply σ = .callRecv (some fd) → s.fds fd = some (.upstream σ)

variable {p : Setup} {s t : State} {c c' : Cleanup} {a : Answer} {action : Action}
  {σ : SessionId} {fd : Nat}

theorem CleanMove.callsOwn (move : CleanMove p s c t c') (holds : c.Holds s)
    (before : CallsOwn s) (kept : c.interrupts s = false) : CallsOwn t := by
  intro τ fd calling
  have calling' : s.reply τ = .callRecv (some fd) := by
    rcases move.frame.reply τ with same | ⟨-, joined⟩
    · exact same.symm.trans calling
    · simp [joined] at calling
  have own := before τ fd calling'
  by_cases closing : c.pc = .close τ
  · -- the number that is closed is another one
    have different : (s.heap τ).upstreamSocket ≠ some fd := by
      simpa [Cleanup.interrupts, closing, calling'] using kept
    cases move <;> simp_all
  · refine move.stays holds (fun same => closing ?_) own
    obtain ⟨σ, pc, equal⟩ := Cleanup.closes_eq_some same
    rw [pc, Owner.upstream.inj equal]

theorem ReplyMove.callsOwn (move : ReplyMove p s σ a t) (before : CallsOwn s)
    (admitted : timely s (.reply σ a) = true) : CallsOwn t := by
  intro τ fd calling
  rw [move.frame.fds]
  by_cases own : τ = σ
  · subst own
    cases move with
    | readSocket pc =>
      -- the one place where a number is taken up: it is not stale
      have held : (s.heap τ).upstreamSocket = some fd := by simpa using calling
      simpa [timely, pc, State.stale, held] using admitted
    | testRunning | testMarked | recvFailed | sent =>
      simp only [State.gotoReply, State.log, Function.update_self] at calling
      split at calling <;> cases calling
    | _ => simp at calling
  · exact before τ fd ((move.frame.reply τ own).symm.trans calling)

theorem Move.callsOwn (move : Move p s action t) (before : CallsOwn s) (indexed : Indexed p s)
    (threads : Threads s) (descriptors : Descriptors s) (admitted : timely s action = true) :
    CallsOwn t := by
  have stays {τ : SessionId} {n : Nat} (calling : s.reply τ = .callRecv (some n))
      (other : s.closes action ≠ some (.upstream τ)) : t.fds n = some (.upstream τ) :=
    move.stays descriptors indexed threads other (before τ n calling)
  cases move with
  | udp move =>
    cases move with
    | clean pc unfinished move =>
      apply move.callsOwn (descriptors.holds (State.cleaner_udp pc)) before
      simpa [timely, pc] using admitted
    | @startThread d σ pc =>
      -- a loop that starts holds no number yet
      intro τ m calling
      by_cases own : τ = σ
      · simp [own] at calling
      · exact before τ m (by simpa [own] using calling)
    | cleaned => exact before
    | _ pc => exact fun τ m calling => stays calling (by simp [State.closes, pc])
  | reply move => exact move.callsOwn before admitted
  | stop move =>
    cases move with
    | clean pc unfinished move =>
      have ended := threads.exclusive (by rw [pc]; rfl)
      apply move.callsOwn (descriptors.holds (State.cleaner_stop ended pc)) before
      simpa [timely, pc] using admitted
    | cleaned => exact before
    | _ pc => exact fun τ m calling => stays calling (by simp [State.closes, pc])
  | _ => exact fun τ m calling => stays calling (by simp [State.closes])

/-- A call that a step adds is one its reply loop has just made. -/
theorem Move.newCall {socket : Option Owner} (move : Move p s action t)
    (after : .callRecv σ fd socket ∈ t.trace) :
    .callRecv σ fd socket ∈ s.trace ∨ (s.reply σ = .callRecv (some fd) ∧ socket = s.fds fd) := by
  rcases move.ownEvent σ (by simp [Event.ofReply]) after with old | ⟨a, rfl⟩
  · exact .inl old
  · cases move with
    | reply move =>
      cases move with
      | callRecv pc =>
        rcases List.mem_append.mp after with old | new
        · exact .inl old
        · simp only [List.mem_singleton, Event.callRecv.injEq] at new
          obtain ⟨-, rfl, rfl⟩ := new
          exact .inr ⟨pc, rfl⟩
      | _ => simp_all

theorem reads_own_reached
    (reached : (forwarder p).Reach (fun s action => timely s action = true) s) :
    CallsOwn s ∧ s.ReadsOwn := by
  induction reached with
  | start init =>
    obtain ⟨fd, clock, outcome, endpoints, -, rfl⟩ := init
    exact ⟨fun σ n calling => by simp [started] at calling, by simp [State.ReadsOwn, started]⟩
  | next before admitted step ih =>
    have move := step_move step
    refine ⟨move.callsOwn ih.1 (indexed_reached before) (threads_reached before)
      (descriptors_reached before) admitted, fun σ n socket call => ?_⟩
    rcases move.newCall call with old | ⟨calling, rfl⟩
    · exact ih.2 σ n socket old
    · exact ih.1 σ n calling

/-- A loop that holds a number it has lost calls `recvfrom` on it next. -/
theorem calls_lost (alive : s.terminated = false) (calling : s.reply σ = .callRecv (some fd))
    (lost : s.fds fd ≠ some (.upstream σ)) :
    ∃ t, (forwarder p).run s [.reply σ .none] = some t ∧ ¬ t.ReadsOwn := by
  refine ⟨(s.log (.callRecv σ fd (s.fds fd))).gotoReply σ (.inRecv (s.fds fd)), ?_, ?_⟩
  · simp [forwarder, step, replyStep, alive, calling]
  · intro own
    exact lost (own σ fd _ (by simp))

/-- A close under a loop that is about to call leaves it with a lost number. -/
theorem CleanMove.interrupted (move : CleanMove p s c t c') (interrupts : c.interrupts s = true) :
    ∃ σ fd, t.reply σ = .callRecv (some fd) ∧ t.fds fd ≠ some (.upstream σ) := by
  unfold Cleanup.interrupts at interrupts
  split at interrupts
  next σ closing =>
    split at interrupts
    next fd calling =>
      refine ⟨σ, fd, ?_⟩
      cases move <;> simp_all
    · cases interrupts
  · cases interrupts

/-- A step that is not timely leaves some loop with a lost number. -/
theorem Move.untimely (move : Move p s action t) (late : timely s action = false) :
    ∃ σ fd, t.reply σ = .callRecv (some fd) ∧ t.fds fd ≠ some (.upstream σ) := by
  cases move with
  | @reply σ a t move =>
    cases move with
    | readSocket pc =>
      -- a stale member is read
      simp only [timely, pc, State.stale, Bool.not_eq_false'] at late
      split at late
      next fd held => exact ⟨σ, fd, by simp [held], by simpa using late⟩
      · cases late
    | _ pc => simp [timely, pc] at late
  | udp move =>
    cases move with
    | clean pc unfinished move => exact move.interrupted (by simpa [timely, pc] using late)
    | @cleaned _ c pc finished =>
      -- a finished cleanup closes nothing
      simp only [Cleanup.finished, Bool.and_eq_true, beq_iff_eq] at finished
      simp [timely, pc, Cleanup.interrupts, finished.1] at late
    | _ pc => simp [timely, pc] at late
  | stop move =>
    cases move with
    | clean pc unfinished move => exact move.interrupted (by simpa [timely, pc] using late)
    | @cleaned _ c pc finished =>
      simp only [Cleanup.finished, Bool.and_eq_true, beq_iff_eq] at finished
      simp [timely, pc, Cleanup.interrupts, finished.1] at late
    | _ pc => simp [timely, pc] at late
  | _ => simp [timely] at late

/-- Reply loops call `recvfrom` only on their own open sockets in every run in which no
loop reads the member of a session between the close and the overwriting, and no cleanup
closes a number that a loop has read and not used yet; and any step that does so leaves a
loop whose next step is a call on a number that has been closed. -/
theorem reads_own_of_timely (p : Setup) :
    (∀ s, (forwarder p).Reach (fun s action => timely s action = true) s → s.ReadsOwn) ∧
      ∀ s action t, (forwarder p).step s action = some t → timely s action = false →
        t.terminated = false →
          ∃ σ u, (forwarder p).run t [.reply σ .none] = some u ∧ ¬ u.ReadsOwn := by
  refine ⟨fun s reached => (reads_own_reached reached).2, fun s action t moved late alive => ?_⟩
  obtain ⟨σ, fd, calling, lost⟩ := (step_move moved).untimely late
  exact ⟨σ, calls_lost alive calling lost⟩

/-- One client, `steps` steps of its reply loop, and the eviction of the idle session up to
the close. -/
def evictedAfter (steps : Nat) : List Action :=
  Sample.oneClient ++
    List.replicate steps (.reply 0 .none) ++
      .tick 5000 :: Sample.cleanup [("192.0.2.1:40000", 0)] 7

/-- The loop waits in `recvfrom` when its socket is closed; had it been about to call, the
same close would not have been timely. -/
theorem reads_own_of_timely_waiting :
    (∃ s, (forwarder Sample.setup).Reach (fun s action => timely s action = true) s ∧
      .callRecv 0 4 (some (.upstream 0)) ∈ s.trace ∧ .closed 0 (some 4) ∈ s.trace ∧ s.ReadsOwn) ∧
    ∃ s t σ u, (forwarder Sample.setup).step s (.udp .none) = some t ∧
      (forwarder Sample.setup).run t [.reply σ .none] = some u ∧ ¬ u.ReadsOwn := by
  constructor
  · have result : ((forwarder Sample.setup).runIf (fun s action => timely s action = true)
        Sample.initial (evictedAfter 4)).map (fun s =>
          decide (.callRecv 0 4 (some (.upstream 0)) ∈ s.trace ∧
            .closed 0 (some 4) ∈ s.trace)) = some true := by
      decide +kernel
    obtain ⟨s, run, seen⟩ := Option.map_eq_some_iff.mp result
    obtain ⟨call, close⟩ := of_decide_eq_true seen
    have reached := Machine.Reach.runIf (.start Sample.initial_init) run
    exact ⟨s, reached, call, close, (reads_own_of_timely _).1 s reached⟩
  · have result : ((forwarder Sample.setup).run Sample.initial (evictedAfter 3).dropLast).bind
        (fun s => ((forwarder Sample.setup).step s (.udp .none)).map fun t =>
          (timely s (.udp .none), t.terminated)) = some (false, false) := by
      decide +kernel
    obtain ⟨s, -, next⟩ := Option.bind_eq_some_iff.mp result
    obtain ⟨t, moved, seen⟩ := Option.map_eq_some_iff.mp next
    obtain ⟨late, alive⟩ := Prod.mk.inj seen
    obtain ⟨σ, u, run, lost⟩ := (reads_own_of_timely _).2 s _ t moved late alive
    exact ⟨s, t, σ, u, moved, run, lost⟩

/-- A loop reads its member and is overtaken by the eviction of its idle session. The number
goes to another part of the process, whose datagram the loop receives and relays. -/
theorem overtaken_reads_foreign :
    ∃ s, (forwarder Sample.setup).Reach Machine.anyStep s ∧
      .closed 0 (some 4) ∈ s.trace ∧ .callRecv 0 4 (some .foreign) ∈ s.trace ∧
      .sendClient 0 .listen Sample.alice Sample.bob [66] ∈ s.trace ∧ ¬ s.ReadsOwn := by
  have result : ((forwarder Sample.setup).run Sample.initial (evictedAfter 3 ++
      [.foreignOpen 4, .reply 0 .none, .reply 0 (.datagram Sample.bob (Sample.payload [66])),
        .reply 0 .none, .reply 0 .sent])).map (fun s =>
      decide (.closed 0 (some 4) ∈ s.trace ∧ .callRecv 0 4 (some .foreign) ∈ s.trace ∧
        .sendClient 0 .listen Sample.alice Sample.bob [66] ∈ s.trace)) = some true := by
    decide +kernel
  obtain ⟨s, run, seen⟩ := Option.map_eq_some_iff.mp result
  obtain ⟨close, call, sent⟩ := of_decide_eq_true seen
  refine ⟨s, Machine.Reach.run (.start Sample.initial_init) run, close, call, sent, fun own => ?_⟩
  exact absurd (own 0 4 _ call) (by decide)

end PortForwardX.Udp
