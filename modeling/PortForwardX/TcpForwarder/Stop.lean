import PortForwardX.TcpForwarder.Termination

/-!
# `Stop` returns

Whatever the `Stop` call waits for can go on: the accept thread, which waits at most for the
mutex and for sessions that are finished, the resolver thread, or a session that `Stop` has
told to end.
-/
namespace PortForwardX.TcpForwarder

open Transition Net

variable {p : Setup} {s t : State} {c : Cleanup} {a : Answer} {action : Action}
  {ref : SessionRef}

/-! ### Nobody waits for ever -/

/-- A session that has something to do. -/
def State.Busy (p : Setup) (s : State) : Prop :=
  ∃ ref b, Tcp.Pending (s.heap ref).state b ∧ sessionStep p s ref b ≠ none

theorem State.busy {b : Tcp.Action} (made : ref < s.nextRef)
    (started : (s.heap ref).worker ≠ .notStarted) (pending : Tcp.Pending (s.heap ref).state b)
    (enabled : Tcp.step (s.heap ref).state b ≠ none) : s.Busy p := by
  refine ⟨ref, b, pending, ?_⟩
  have other : b ≠ .callStop := by
    rintro rfl
    exact pending
  -- a call that raises the signal counts as a step
  by_cases kills : signalled p s (.session ref b) = true
  · simp [sessionStep, made, other, started, kills]
  · simpa [sessionStep, made, other, started, kills] using enabled

/-- Between two connections every session that has been made has been started. -/
theorem Workers.hasStarted (workers : Workers s) (made : ref < s.nextRef)
    (settled : s.accept.unstarted = none) : (s.heap ref).worker ≠ .notStarted := by
  rw [Ne, workers.unstarted, settled]
  simpa using made

/-- A session is joined, or it is still at work on its own end. -/
theorem State.join_ready (made : ref < s.nextRef) (started : (s.heap ref).worker ≠ .notStarted)
    (severed : Tcp.Severed (s.heap ref).state)
    (ending : (s.heap ref).state.worker = .done ∨ Tcp.TearingDown (s.heap ref).state) :
    s.join ref ≠ none ∨ s.Busy p := by
  by_cases done : (s.heap ref).state.worker = .done
  · refine .inl ?_
    unfold State.join
    split
    · simp [done]
    · simp
    · simp
  · obtain ⟨b, pending, enabled⟩ := severed.pending_ready (ending.resolve_left done) done
    exact .inr (State.busy made started pending enabled)

/-- A call of `Stop` returns, or the session is still at work on it. -/
theorem State.stop_ready (made : ref < s.nextRef) (started : (s.heap ref).worker ≠ .notStarted)
    (severed : Tcp.Severed (s.heap ref).state) (called : (s.heap ref).state.stopPc ≠ .idle) :
    (s.heap ref).state.stopPc = .done ∨ s.Busy p := by
  by_cases done : (s.heap ref).state.stopPc = .done
  · exact .inl done
  · right
    rcases severed.stop_ready called done with enabled | ⟨-, enabled⟩
    · exact State.busy made started (b := .stop) trivial enabled
    · exact State.busy made started (b := .worker) trivial enabled

/-- The end of a session's life in `CleanupFinishedSessions` or in `Stop`. -/
theorem State.destructor_ready (made : ref < s.nextRef)
    (started : (s.heap ref).worker ≠ .notStarted) (severed : Tcp.Severed (s.heap ref).state)
    (called : (s.heap ref).state.stopPc ≠ .idle) :
    (s.stopReturned ref = true ∧ s.join ref ≠ none) ∨ s.Busy p := by
  rcases State.stop_ready made started severed called with done | busy
  · have ending : Tcp.TearingDown (s.heap ref).state := .inr (.inl done)
    refine (State.join_ready made started severed (.inr ending)).imp_left fun joined => ?_
    exact ⟨by simp [State.stopReturned, done], joined⟩
  · exact .inr busy

theorem cleanupStep_ready (reached : (forwarder p).Reach FewConnections s)
    (pc : s.accept = .cleanup c) (unfinished : c.finished = false)
    (free : s.accept.locked = false → s.sessionMutex = none) :
    (∃ a, cleanupStep s c a ≠ none) ∨ s.Busy p := by
  obtain ⟨calls, lists⟩ := waiting_reached reached
  have started {r : SessionRef} (made : r < s.nextRef) : (s.heap r).worker ≠ .notStarted :=
    (workers_reached reached).hasStarted made (by rw [pc]; rfl)
  have severed {r : SessionRef} (made : r < s.nextRef) : Tcp.Severed (s.heap r).state :=
    Tcp.severed_reached (session_reached reached made)
  have visited {r : SessionRef} (member : r ∈ c.pc.visits) : r < s.nextRef ∧
      (s.heap r).state.worker = .done := by
    obtain ⟨made, finished⟩ := lists.cleaning (reaping_reached reached) pc member
    exact ⟨made, (severed made).control.finished.mp finished⟩
  unfold cleanupStep
  cases at_ : c.pc with
  | lock =>
    have unlocked := free (by simp [pc, AcceptPc.locked, at_, CleanupPc.locked])
    exact .inl ⟨.order s.sessions, by simp [unlocked, List.isPerm_iff]⟩
  | scan =>
    refine .inl ⟨.none, ?_⟩
    cases c.todo <;> simp
  | join rest =>
    cases rest with
    | nil => exact .inl ⟨.none, by simp⟩
    | cons ref rest =>
      obtain ⟨made, done⟩ := visited (r := ref) (by simp [at_, CleanupPc.visits])
      refine (State.join_ready made (started made) (severed made) (.inl done)).imp_left
        fun joined => ⟨.none, ?_⟩
      simpa using joined
  | destroy rest =>
    cases rest with
    | nil => simp [Cleanup.finished, at_] at unfinished
    | cons ref rest => exact .inl ⟨.none, by simp⟩
  | inDestructor ref rest =>
    obtain ⟨made, -⟩ := visited (r := ref) (by simp [at_, CleanupPc.visits])
    have called := calls.called ref made
      (.inl (by simp [pc, AcceptPc.callee, at_, CleanupPc.callee]))
    rcases State.destructor_ready made (started made) (severed made) called with
      ⟨returned, joined⟩ | busy
    · exact .inl ⟨.none, by simpa [returned] using joined⟩
    · exact .inr busy
  | erase | unlock => exact .inl ⟨.none, by simp⟩

/-- The accept thread can go on until it has ended, or it waits for a session. -/
theorem acceptStep_ready (reached : (forwarder p).Reach FewConnections s)
    (alive : s.accept ≠ .exited) : (∃ a, acceptStep p s a ≠ none) ∨ s.Busy p := by
  have locks := locks_reached reached
  -- nobody else locks the mutex while this thread is there
  have free (unlocked : s.accept.locked = false) : s.sessionMutex = none := by
    cases held : s.sessionMutex with
    | none => rfl
    | some holder =>
      cases holder with
      | acceptor => simp [locks.acceptor.mp held] at unlocked
      | stopper =>
        have stopping := locks.stopper.mp held
        refine absurd (locks.exited ?_) alive
        cases stop : s.stop <;> simp_all [StopPc.locked, StopPc.pastAccept]
  unfold acceptStep
  cases pc : s.accept with
  | exited => exact absurd pc alive
  | cleanup c =>
    by_cases finished : c.finished = true
    · exact .inl ⟨.none, by simp [finished]⟩
    · rcases cleanupStep_ready reached pc (by simpa using finished) free with
        ⟨a, ready⟩ | busy
      · exact .inl ⟨a, by simpa [finished] using ready⟩
      · exact .inr busy
  | callAccept => exact .inl ⟨.failed, by simp⟩
  | refresh =>
    refine .inl ⟨.resolved (.failed ""), ?_⟩
    simp only
    split <;> simp
  | makeSocket client peer endpoints =>
    refine .inl ⟨.failed, ?_⟩
    cases endpoints <;> simp
  | connect => exact .inl ⟨.failed, by simp⟩
  | lock =>
    have unlocked := free (by simp [pc, AcceptPc.locked])
    exact .inl ⟨.none, by simp [unlocked]⟩
  | start => exact .inl ⟨.started true, by simp⟩
  | _ => exact .inl ⟨.none, by simp⟩

theorem resolverStep_ready (alive : s.resolver ≠ .exited) : ∃ a, resolverStep p s a ≠ none := by
  unfold resolverStep
  cases pc : s.resolver with
  | exited => exact absurd pc alive
  | refresh =>
    refine ⟨.resolved (.failed ""), ?_⟩
    simp only
    split <;> simp
  | test => exact ⟨.none, by simp [ResolverPc.next]⟩
  | sleep elapsed =>
    refine ⟨.none, ?_⟩
    simp only [ResolverPc.next, ne_eq, Option.map_eq_none_iff]
    split
    next => split <;> simp
    next => simp

/-- The `Stop` call can go on once both threads have ended, or it waits for a session. -/
theorem stopStep_ready (reached : (forwarder p).Reach FewConnections s)
    (called : s.stop ≠ .idle) (busy : s.stop ≠ .done) (accept : s.accept = .exited)
    (resolver : s.resolver = .exited) : (∃ a, stopStep s a ≠ none) ∨ s.Busy p := by
  obtain ⟨calls, lists⟩ := waiting_reached reached
  have locks := locks_reached reached
  have started {r : SessionRef} (made : r < s.nextRef) : (s.heap r).worker ≠ .notStarted :=
    (workers_reached reached).hasStarted made (by rw [accept]; rfl)
  have severed {r : SessionRef} (made : r < s.nextRef) : Tcp.Severed (s.heap r).state :=
    Tcp.severed_reached (session_reached reached made)
  have free (unlocked : s.stop.locked = false) : s.sessionMutex = none := by
    cases held : s.sessionMutex with
    | none => rfl
    | some holder =>
      cases holder with
      | acceptor => simpa [accept, AcceptPc.locked] using locks.acceptor.mp held
      | stopper => simp [locks.stopper.mp held] at unlocked
  unfold stopStep
  cases pc : s.stop with
  | idle => exact absurd pc called
  | done => exact absurd pc busy
  | joinAccept => exact .inl ⟨.none, by simp [accept]⟩
  | joinResolver => exact .inl ⟨.none, by simp [resolver]⟩
  | lock =>
    have unlocked := free (by rw [pc]; rfl)
    exact .inl ⟨.none, by simp [unlocked]⟩
  | lockAgain =>
    have unlocked := free (by rw [pc]; rfl)
    exact .inl ⟨.none, by simp [unlocked]⟩
  | copy => exact .inl ⟨.order s.sessions, by simp [List.isPerm_iff]⟩
  | stopEach sessions rest =>
    refine .inl ⟨.none, ?_⟩
    cases rest <;> simp
  | inStop sessions ref rest =>
    have made := lists.made ref (by simp [pc, StopPc.visits])
    have called := calls.called ref made (.inr (by rw [pc]; rfl))
    refine (State.stop_ready made (started made) (severed made) called).imp_left
      fun done => ⟨.none, ?_⟩
    simp [State.stopReturned, done]
  | joinEach sessions rest =>
    cases rest with
    | nil => exact .inl ⟨.none, by simp⟩
    | cons ref rest =>
      -- the first loop has stopped it
      have member : ref ∈ s.stop.visits := by simp [pc, StopPc.visits]
      have made := lists.made ref member
      have stopped := (lists.stopped ref member).resolve_left (by simp [pc, StopPc.unstopped])
      have ending : Tcp.TearingDown (s.heap ref).state := .inr (.inl stopped)
      refine (State.join_ready made (started made) (severed made) (.inr ending)).imp_left
        fun joined => ⟨.none, ?_⟩
      simpa using joined
  | destroy rest =>
    refine .inl ⟨.none, ?_⟩
    cases rest <;> simp
  | inDestructor ref rest =>
    have made := lists.made ref (by simp [pc, StopPc.visits])
    have called := calls.called ref made (.inr (by rw [pc]; rfl))
    rcases State.destructor_ready made (started made) (severed made) called with
      ⟨returned, joined⟩ | busy
    · exact .inl ⟨.none, by simpa [returned] using joined⟩
    · exact .inr busy
  | _ => exact .inl ⟨.none, by simp⟩

/-- Until `Stop` has returned an urgent step is possible. -/
theorem urgent_ready (reached : (forwarder p).Reach FewConnections s) (stopping : Stopping s) :
    ∃ action, Urgent s action ∧ (forwarder p).step s action ≠ none := by
  have alive := stopping.alive
  have session (busy : s.Busy p) :
      ∃ action, Urgent s action ∧ (forwarder p).step s action ≠ none := by
    obtain ⟨ref, b, pending, ready⟩ := busy
    exact ⟨.session ref b, pending, by simpa [forwarder, step, alive] using ready⟩
  by_cases accept : s.accept = .exited
  · by_cases resolver : s.resolver = .exited
    · rcases stopStep_ready reached stopping.called stopping.busy accept resolver with
        ⟨a, ready⟩ | busy
      · exact ⟨.stop a, trivial, by simpa [forwarder, step, alive] using ready⟩
      · exact session busy
    · obtain ⟨a, ready⟩ := resolverStep_ready (p := p) resolver
      exact ⟨.resolver a, trivial, by simpa [forwarder, step, alive] using ready⟩
  · rcases acceptStep_ready reached accept with ⟨a, ready⟩ | busy
    · exact ⟨.accept a, trivial, by simpa [forwarder, step, alive] using ready⟩
    · exact session busy

/-! ### The end -/

/-- The action is a step of a thread of the forwarder or of one of its sessions. -/
def Action.ofThread : Action → Bool
  | .accept _ | .workerThrows _ | .resolver _ | .stop _ => true
  | .session _ a => a.isOwn
  | .callStop => false

/-- Nothing of the forwarder runs or is open. -/
structure Over (p : Setup) (s : State) : Prop where
  stop : s.stop = .done
  accept : s.accept = .exited
  resolver : s.resolver = .exited
  listen : s.listenSocket = none ∧ s.listenOpen = false
  maps : s.sessions = [] ∧ s.sessionPeers = []
  sockets : ∀ k < s.nextSocket, s.isOpen k = false
  sessions : ∀ ref < s.nextRef, (s.heap ref).worker = .joined ∧ (s.heap ref).state.worker = .done
  still : ∀ action, action.ofThread = true → (forwarder p).step s action = none

theorem AcceptMove.listens (move : AcceptMove p s a t) : t.listenOpen = s.listenOpen := by
  cases move with
  | clean pc unfinished move =>
    cases move with
    | join _ moved | destructor _ _ moved =>
      obtain ⟨heap, joins, rfl⟩ := State.join_frame moved
      rfl
    | _ => rfl
  | _ => rfl

/-- The listen socket is closed by the time the member says so. -/
theorem listenOpen_reached {ok : State → Action → Prop} (reached : (forwarder p).Reach ok s) :
    s.stop = .setListenInvalid ∨ s.stop.unlistened = true → s.listenOpen = false := by
  induction reached with
  | start init =>
    obtain ⟨fd, outcome, endpoints, -, rfl⟩ := init
    simp [started, StopPc.unlistened]
  | @next s t action _ _ moved ih =>
    cases step_move moved with
    | accept move =>
      rw [move.frame.1, move.listens]
      exact ih
    | stop move =>
      cases move with
      | shutdownListen => simp [StopPc.unlistened]
      | closeListen => exact fun _ => rfl
      | setListenInvalid pc => exact fun _ => ih (.inl pc)
      | join pc joined | destructor pc _ joined =>
        obtain ⟨heap, joins, rfl⟩ := State.join_frame joined
        exact fun _ => ih (.inr (by rw [pc]; rfl))
      | joinAccept pc | joinResolver pc | lock pc | copy pc | unlock pc | stopped pc
      | callStop pc | stopReturned pc | joined pc | lockAgain pc | clearSessions pc
      | clearPeers pc | unlockAgain pc | destroyed pc | destroy pc =>
        exact fun _ => ih (.inr (by rw [pc]; rfl))
    | callStop => simp [StopPc.unlistened]
    | _ => exact ih

theorem over_of_done (reached : (forwarder p).Reach FewConnections s) (done : s.stop = .done) :
    Over p s := by
  have workers := workers_reached reached
  have sessions := fun ref (made : ref < s.nextRef) => session_reached reached made
  have control := fun ref made => Tcp.control_reached (sessions ref made)
  obtain ⟨empty, peers, closed, joined⟩ := (owned_reached reached).stopped
    (reaping_reached reached) (table_reached reached) workers (locks_reached reached) control done
  obtain ⟨-, invalid, accept, resolver⟩ := (shutdown_reached reached).gone done
  have listen := listenOpen_reached reached (.inr (by rw [done]; rfl))
  have worked : ∀ ref < s.nextRef, (s.heap ref).state.worker = .done := fun ref made =>
    workers.done ref (joined ref made)
  refine ⟨done, accept, resolver, ⟨invalid, listen⟩, ⟨empty, peers⟩, closed,
    fun ref made => ⟨joined ref made, worked ref made⟩, fun action own => ?_⟩
  rw [Option.eq_none_iff_forall_ne_some]
  intro t moved
  cases step_move moved with
  | accept move => exact move.frame.2 accept
  | stop move => cases move <;> simp_all
  | resolver =>
    exact (resolverStep_frame (step_resolver moved)).1 resolver
  | callStop => cases own
  | @workerThrows ref exists_ starting =>
    by_cases made : ref < s.nextRef
    · rw [worked ref made] at starting
      simp at starting
    · exact exists_ ((workers.unstarted ref).mpr (.inl (Nat.le_of_not_lt made)))
  | @signal ref b made kills =>
    simp [signalled, Tcp.Process.sendsOnBroken_done (control ref made) (worked ref made)] at kills
  | @session ref b u made other exists_ stepped =>
    have isOver := (control ref made).isOver (worked ref made)
    cases b with
    | worker => simp [(isOver .client 0).1] at stepped
    | relay d result => simp [(isOver d result).2] at stepped
    | stop =>
      -- no call is under way: nobody is in one
      have returned : (s.heap ref).state.stopPc = .idle ∨ (s.heap ref).state.stopPc = .done := by
        by_contra busy
        rw [not_or] at busy
        rcases (waiting_reached reached).1.awaited ref made busy.1 busy.2 with here | here
        · rw [accept] at here
          cases here
        · rw [done] at here
          cases here
      rcases returned with pc | pc <;> simp [Tcp.step, Tcp.stopStep, pc] at stepped
    | callStop | arrive | finishStream | peerReset => cases own

theorem Urgent.ofThread (urgent : Urgent s action) : action.ofThread = true := by
  cases action with
  | session ref b => cases b <;> first | rfl | exact absurd urgent id
  | workerThrows | callStop => exact absurd urgent id
  | accept | resolver | stop => rfl

theorem step_done (moved : (forwarder p).step s action = some t) (done : s.stop = .done) :
    t.stop = .done := by
  by_cases call : action = .callStop
  · subst call
    cases step_move moved with
    | callStop pc => simp [pc] at done
  · exact ((step_move moved).stops call).2.1 done

/-- The process has ended by moment `j`: a thread could not be started, or some session has come
to a `Send` on a broken connection. -/
structure Killed {ok : State → Action → Prop} (e : (forwarder p).Execution ok) (j : Nat) : Prop where
  ended : (e.state j).terminated = true
  cause : (∃ k < j, ∃ a, e.action k = some a ∧ threadThrows (e.state k) a = true) ∨
    Signalled p (e.state j)

theorem killed {ok : State → Action → Prop} (e : (forwarder p).Execution ok) {j : Nat}
    (ended : (e.state j).terminated = true) : Killed e j := by
  refine ⟨ended, ?_⟩
  rcases e.violated_or_reach (fun s a => threadThrows s a = false) j with
    ⟨k, earlier, a, acted, throws⟩ | starts
  · exact .inl ⟨k, earlier, a, acted, by simpa using throws⟩
  · exact .inr (signalled_reached starts ended)

/-- Once `Stop` has been called it returns, whatever the peers of the sessions go on sending,
unless the process ends first. Two things in the forwarder end it: a thread that cannot be
started and, on POSIX, a `Send` on a broken connection, which `Stop` itself may have broken. When
`Stop` has returned both threads have ended, the listen socket and every other socket of the
forwarder are closed, every session has been joined, and nothing of this moves again. This takes
no more than that the steps `Stop` depends on are not all held up for ever while one of them is
possible: an `accept` on a socket that is shut down, or on its number after the close, a `connect`
and a name resolution come back. -/
theorem tcp_stop_returns (p : Setup) (e : (forwarder p).Execution Ruled) (fair : e.Fair Urgent)
    (i : Nat) (called : (e.state i).stop ≠ .idle) :
    ∃ j, i ≤ j ∧ (Killed e j ∨ ∀ k, j ≤ k → Over p (e.state k)) := by
  have returns : ∃ j, i ≤ j ∧ ((e.state j).stop = .done ∨ (e.state j).terminated = true) := by
    by_cases isOver : (e.state i).stop = .done ∨ (e.state i).terminated = true
    · exact ⟨i, Nat.le_refl i, isOver⟩
    · rw [not_or, Bool.not_eq_true] at isOver
      exact e.eventually Stopping (fun s => s.stop = .done ∨ s.terminated = true) State.rank fair
        (fun _ _ _ reached stopping ruled moved => step_spends reached stopping ruled moved)
        (fun _ reached stopping => urgent_ready (few_of_ruled reached) stopping)
        ⟨called, isOver.1, isOver.2⟩
  obtain ⟨j, later, done | ended⟩ := returns
  · refine ⟨j, later, .inr fun k after => ?_⟩
    have still : (e.state k).stop = .done :=
      e.stable (P := fun s => s.stop = .done) (fun _ _ _ _ moved now => step_done moved now)
        after done
    exact over_of_done (few_of_ruled (e.reach k)) still
  · exact ⟨j, later, .inl (killed e ended)⟩

/-- A session has relayed a byte when `Stop` is called, and its peers have not finished. -/
def stopWithSession : List Action :=
  Sample.cleanup [] 4 ++ Sample.connection ++
    ([.worker, .worker, .arrive .client [7], .relay .client 1, .relay .client 1] :
      List Tcp.Action).map (.session 0) ++
    [.callStop] ++ Sample.cleanup [(1, 0)] 5 ++ [.resolver .none] ++
    ([.none, .none, .none, .none, .none, .none, .order [(1, 0)], .none, .none] : List Answer).map
      .stop ++
    Sample.stopCall 0 ++ [.stop .none, .stop .none] ++
    ([.relay .client 0, .relay .upstream 0, .relay .client 0, .relay .upstream 0] ++
      List.replicate 9 .worker : List Tcp.Action).map (.session 0) ++
    (List.replicate 9 Answer.none).map .stop

/-- The session is stopped, joined and destroyed. -/
theorem tcp_stop_returns_session :
    ∃ e : (forwarder Sample.setup).Execution Ruled, e.Fair Urgent ∧
      (e.state 23).stop = .shutdownListen ∧ (e.state 23).sessions = [(1, 0)] ∧
        ∃ j, 23 ≤ j ∧ (Killed e j ∨ ∀ k, j ≤ k → Over Sample.setup (e.state k)) := by
  have result : ((forwarder Sample.setup).runIf Ruled Sample.initial stopWithSession).map
      (fun s => decide (s.stop = .done)) = some true := by
    decide +kernel
  obtain ⟨s, run, seen⟩ := Option.map_eq_some_iff.mp result
  have reached : (forwarder Sample.setup).Reach Ruled s :=
    Machine.Reach.runIf (.start Sample.initial_init) run
  have isOver : Over Sample.setup s := over_of_done (few_of_ruled reached) (of_decide_eq_true seen)
  have fair : (Machine.Execution.ofRun Sample.initial_init run).Fair Urgent :=
    Machine.Execution.fair_ofRun _ _ fun action urgent => isOver.still action urgent.ofThread
  -- the moment after the call
  have early : ((forwarder Sample.setup).run Sample.initial (stopWithSession.take 23)).map
      (fun s => decide (s.stop = .shutdownListen ∧ s.sessions = [(1, 0)])) = some true := by
    decide +kernel
  rw [Machine.Execution.ofRun_take Sample.initial_init run (by decide), Option.map_some,
    Option.some.injEq, decide_eq_true_eq] at early
  obtain ⟨called, listed⟩ := early
  refine ⟨_, fair, called, listed, tcp_stop_returns _ _ fair 23 ?_⟩
  rw [called]
  exact StopPc.noConfusion

end PortForwardX.TcpForwarder
