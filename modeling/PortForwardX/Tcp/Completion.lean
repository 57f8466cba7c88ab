import PortForwardX.Tcp.Process
import PortForwardX.Tcp.Progress
import PortForwardX.Transition.Component

/-!
# A session comes to its end

When both of its peers have finished sending, a session ends, whatever else happens to it. It is
one of many in a process, which a `Send` on a broken connection may end for all of them.
-/
namespace PortForwardX.Tcp

open Transition

variable {s t : State} {a : Action} {d : Side}

/-! ### A session by itself -/

/-- A worker that has not returned can go on, or it waits for a relay, or for `Stop`. -/
theorem Severed.worker_ready (inv : Severed s) (running : s.worker ≠ .done) :
    (∃ a, a.isOwn = true ∧ session.step s a ≠ none) ∨
      ∃ d, (s.relay d).pc ≠ .notStarted ∧ (s.relay d).pc.hasEnded = false := by
  have own (ready : step s .worker ≠ none) : ∃ a, a.isOwn = true ∧ session.step s a ≠ none :=
    ⟨.worker, rfl, ready⟩
  have waits (d : Side) (started : s.worker.started d = true)
      (unended : (s.relay d).pc.hasEnded = false) :
      ∃ d, (s.relay d).pc ≠ .notStarted ∧ (s.relay d).pc.hasEnded = false := by
    refine ⟨d, ?_, unended⟩
    rw [Ne, inv.control.started d, started]
    decide
  cases pc : s.worker with
  | done => exact absurd pc running
  | joinUpstream =>
    cases ended : (s.relay .client).pc.hasEnded with
    | false => exact .inr (waits .client (by simp [pc, WorkerPc.started]) ended)
    | true => exact .inl (own (by simp [step, workerStep, pc, ended]))
  | joinDownstream =>
    cases ended : (s.relay .upstream).pc.hasEnded with
    | false => exact .inr (waits .upstream (by simp [pc, WorkerPc.started]) ended)
    | true => exact .inl (own (by simp [step, workerStep, pc, ended]))
  | lock =>
    cases held : s.socketMutex with
    | none => exact .inl (own (by simp [step, workerStep, pc, held]))
    | some holder =>
      cases holder with
      | worker =>
        have locked := inv.exclusive.worker.mp held
        simp [pc, WorkerPc.locked] at locked
      | stopper =>
        -- `Stop` holds the mutex and will release it
        have locked := inv.exclusive.stopper.mp held
        refine .inl ⟨.stop, rfl, ?_⟩
        cases stop : s.stopPc with
        | idle | lock | done => simp [stop, StopPc.locked] at locked
        | shutdown side => cases side <;> simp [session, step, stopStep, stop]
        | unlock => simp [session, step, stopStep, stop]
  | close side =>
    refine .inl (own ?_)
    cases side <;> simp only [step, workerStep, pc] <;> split <;> simp
  | invalidate side => cases side <;> exact .inl (own (by simp [step, workerStep, pc]))
  | startUpstream | startDownstream | unlock | finish =>
    exact .inl (own (by simp [step, workerStep, pc]))

/-- A relay that runs has a step to take: its call comes back. -/
theorem relay_running (started : (s.relay d).pc ≠ .notStarted)
    (unended : (s.relay d).pc.hasEnded = false) : session.step s (.relay d (-1)) ≠ none := by
  cases pc : (s.relay d).pc with
  | notStarted => exact absurd pc started
  | ended => simp [pc, RelayPc.hasEnded] at unended
  | _ => simp [session, step, relayStep, recvStep, sendStep, pc]

/-- Both streams have ended, and the session has not. -/
structure Closing (s : State) : Prop where
  ended : ∀ d, (s.socket d).ended = true
  running : s.worker ≠ .done

theorem step_closing (reached : session.Reach Machine.anyStep s) (closing : Closing s)
    (moved : step s a = some t) : t.worker = .done ∨
      (Closing t ∧ remaining t ≤ remaining s ∧ (a.isOwn = true → remaining t < remaining s)) := by
  by_cases done : t.worker = .done
  · exact .inl done
  · refine .inr ⟨⟨fun d => step_ended moved (closing.ended d), done⟩, ?_⟩
    have spent : remaining t + (if a.isOwn then 1 else 0) ≤ remaining s := by
      cases a with
      | relay d result => exact remaining_relay (relayStep_move moved)
      | worker => exact remaining_worker (control_reached reached) (workerStep_move moved)
      | stop => cases stopStep_move moved <;> simp [remaining, Action.isOwn, StopPc.work, *]
      | callStop =>
        rcases callStop_move moved with ⟨-, rfl⟩ | ⟨fresh, rfl⟩
        · simp [Action.isOwn]
        · simp [remaining, Action.isOwn, StopPc.work, (exclusive_reached reached).stopping fresh]
      | arrive side bytes =>
        -- nothing arrives behind the end of a stream
        obtain ⟨going, -⟩ := arrive_move moved
        rw [closing.ended side] at going
        cases going
      | finishStream side | peerReset side =>
        cases moved
        cases side <;> simp [remaining, Action.isOwn, Socket.unread]
    refine ⟨by omega, fun own => ?_⟩
    rw [if_pos own] at spent
    omega

/-- When both peers have finished sending the worker of a session returns. -/
theorem eventually_returns (e : session.Execution Machine.anyStep)
    (fair : e.Fair fun _ a => a.isOwn = true) {i : Nat}
    (ended : ∀ d, ((e.state i).socket d).ended = true) :
    ∃ j, i ≤ j ∧ ∀ k, j ≤ k → (e.state k).worker = .done := by
  have returns : ∃ j, i ≤ j ∧ (e.state j).worker = .done := by
    by_cases isOver : (e.state i).worker = .done
    · exact ⟨i, Nat.le_refl i, isOver⟩
    · refine e.eventually Closing (fun s => s.worker = .done) remaining fair
        (fun _ _ _ reached closing _ moved => step_closing reached closing moved)
        (fun s reached closing => ?_) ⟨ended, isOver⟩
      rcases (severed_reached reached).worker_ready closing.running with ready | waits
      · exact ready
      · obtain ⟨d, started, unended⟩ := waits
        exact ⟨.relay d (-1), rfl, relay_running started unended⟩
  obtain ⟨j, later, done⟩ := returns
  refine ⟨j, later, fun k after => ?_⟩
  exact e.stable (P := fun s => s.worker = .done)
    (fun _ _ _ _ moved now => (step_staysDone moved).1 now) after done

/-! ### A session in its process -/

namespace Process

variable {platform : Platform} {p q : Process} {action : Action} {n : Nat}

/-- Session `n`, in its initial state until it is started. -/
def view (n : Nat) (p : Process) : State := (p.sessions n).getD Tcp.initial

theorem view_present (present : p.sessions n = some s) : view n p = s := by
  rw [view, present]
  rfl

/-- Each session of a process runs as a session of its own. -/
def member {ok : Process → Action → Prop} (platform : Platform) (n : Nat) :
    (machine platform).Component ok session Machine.anyStep where
  view := view n
  share
    | .session m a => if m = n then some a else none
    | .start _ => none
  init p init := by
    rw [show p = _ from init]
    rfl
  rests p q a moved apart := by
    cases a with
    | start m =>
      simp only [machine, step, Option.ite_none_right_eq_some, Option.some.injEq] at moved
      obtain ⟨⟨-, absent⟩, rfl⟩ := moved
      by_cases own : m = n
      · subst own
        simp [view, absent]
      · simp [view, Function.update_of_ne (Ne.symm own)]
    | session m a =>
      obtain ⟨s, t, -, -, -, rfl⟩ := step_session moved
      rw [ite_eq_right_iff] at apart
      have other : n ≠ m := fun same => Option.some_ne_none _ (apart same.symm)
      simp [view, Function.update_of_ne other]
  moves p q a b _ moved shared := by
    cases a with
    | start m => cases shared
    | session m a =>
      obtain ⟨s, t, present, -, inner, rfl⟩ := step_session moved
      obtain ⟨rfl, same⟩ := Option.ite_none_right_eq_some.mp shared
      obtain rfl := Option.some.inj same
      refine ⟨trivial, ?_⟩
      rw [view_present present, view_present (Function.update_self ..)]
      exact inner

/-- The steps of the threads of session `n`. -/
def Own (n : Nat) (_ : Process) (action : Action) : Prop :=
  ∃ a, action = .session n a ∧ a.isOwn = true

/-- A session that has been started stays, whatever becomes of it. -/
theorem step_present (moved : step platform p action = some q)
    (present : (p.sessions n).isSome = true) : (q.sessions n).isSome = true := by
  cases action with
  | start m =>
    simp only [step, Option.ite_none_right_eq_some, Option.some.injEq] at moved
    obtain ⟨⟨-, absent⟩, rfl⟩ := moved
    have other : n ≠ m := by
      rintro rfl
      simp [absent] at present
    simpa [Function.update_of_ne other] using present
  | session m a =>
    obtain ⟨s, t, -, -, -, rfl⟩ := step_session moved
    by_cases own : n = m
    · subst own
      simp
    · simpa [Function.update_of_ne own] using present

/-- A session of a process that runs can do in it what it could do alone. -/
theorem step_own {a : Tcp.Action} (running : p.running = true)
    (present : (p.sessions n).isSome = true) (possible : session.step (view n p) a ≠ none) :
    step platform p (.session n a) ≠ none := by
  obtain ⟨s, known⟩ := Option.isSome_iff_exists.mp present
  rw [view_present known] at possible
  obtain ⟨t, moved⟩ := Option.ne_none_iff_exists'.mp possible
  have inner : Tcp.step s a = some t := moved
  simp [step, known, running, inner]

variable {ok : Process → Action → Prop} (e : (machine platform).Execution ok)

/-- A `Send` on a broken connection has ended the process by moment `j`. -/
structure Killed (j : Nat) : Prop where
  ended : (e.state j).running = false
  posix : platform = .posix
  broken : ∃ m < j, ∃ a, e.action m = some a ∧ BrokenSend (e.state m) a = true

theorem killed {j : Nat} (ended : (e.state j).running = false) : Killed e j := by
  rcases e.violated_or_reach (fun p a => platform = .windows ∨ ¬BrokenSend p a) j with
    ⟨m, earlier, a, acted, broken⟩ | safe
  · rw [not_or, not_not] at broken
    refine ⟨ended, ?_, m, earlier, a, acted, broken.2⟩
    cases platform with
    | posix => rfl
    | windows => exact absurd rfl broken.1
  · have running : (e.state j).running = true :=
      safe.invariant (P := fun p => p.running = true) (fun _ init => init ▸ rfl)
        fun _ _ _ _ _ safe moved => (step_running moved).2.mpr safe
    rw [ended] at running
    cases running

theorem present_later {i k : Nat} (later : i ≤ k) (present : (e.state i).sessions n = some s) :
    ((e.state k).sessions n).isSome = true :=
  e.stable (P := fun p => (p.sessions n).isSome = true)
    (fun _ _ _ _ moved here => step_present moved here) later (by simp [present])

/-- Once both peers of a session have finished sending, its worker returns, as long as the
process is there. -/
theorem member_returns (fair : e.Fair (Own n)) {i : Nat}
    (running : ∀ k, i ≤ k → (e.state k).running = true)
    (present : (e.state i).sessions n = some s) (ended : ∀ d, (s.socket d).ended = true) :
    ∃ j, i ≤ j ∧ ∀ k, j ≤ k → (view n (e.state k)).worker = .done := by
  have alone : ((member platform n).execution e).Fair fun _ a => a.isOwn = true := by
    -- nothing but the end of the process keeps a started session from taking a step
    refine (member platform n).fair (fun p => p.running = true ∧ (p.sessions n).isSome = true)
      ?_ ?_ (fun k later => ⟨running k later, present_later e later present⟩) fair
    · rintro p - ⟨a, rfl, own⟩
      exact ⟨a, if_pos rfl, own⟩
    · rintro p a ⟨up, here⟩ own possible
      exact ⟨.session n a, ⟨a, rfl, own⟩, step_own up here possible⟩
  refine eventually_returns ((member platform n).execution e) alone fun d => ?_
  change ((view n (e.state i)).socket d).ended = true
  rw [view_present present]
  exact ended d

/-- The session has finished: both relays have ended and both sockets are closed. -/
structure Finished (t : State) : Prop where
  finished : t.finished = true
  ended : ∀ d, (t.relay d).pc.hasEnded = true
  closed : ∀ d, (t.socket d).isOpen = false

theorem finished_of_done (reached : session.Reach Machine.anyStep t) (done : t.worker = .done) :
    Finished t := by
  have control := control_reached reached
  have finished := control.finished.mpr done
  exact ⟨finished, fun d => (control.closed_of_finished finished d).2,
    fun d => (control.closed_of_finished finished d).1⟩

/-- No call of session `n` has failed before moment `k`, and it has not been stopped. -/
def NoFailure (n k : Nat) : Prop :=
  ∀ m < k, ∀ a, e.action m = some (.session n a) → Unfailing (view n (e.state m)) a

/-- A session whose calls do not fail has carried both streams when its relays have ended. -/
theorem complete_of_finished {k : Nat} (present : (e.state k).sessions n = some t)
    (finished : Finished t) (unfailing : NoFailure e n k) (d : Side) :
    delivered d t.trace = (t.socket d).arrived := by
  have reached : session.Reach Unfailing t := by
    rw [← view_present present]
    refine ((member platform n).execution e).reach_of_meets k fun m earlier b acted => ?_
    obtain ⟨a, taken, shared⟩ := Option.bind_eq_some_iff.mp acted
    cases a with
    | start => cases shared
    | session n' a =>
      obtain ⟨rfl, same⟩ := Option.ite_none_right_eq_some.mp shared
      obtain rfl := Option.some.inj same
      exact unfailing m earlier a taken
  obtain ⟨p, carries⟩ := carries_reached reached d
  exact (carries.complete (undisrupted_reached reached) (finished.ended d)).2

end Process

/-- When both peers of a session have finished sending, the session ends, whichever calls fail
meanwhile and whether or not `Stop` is called: both threads are joined, both sockets are closed,
and if no call has failed and `Stop` was not called each peer has been sent all of what the other
sent. This takes no more than that the session's threads are not all held up for ever, as one in
a `Send` to a peer that does not read may be. The one exception is that a `Send` on a broken
connection, in this session or another, ends the whole process, on POSIX. -/
theorem session_completes {platform : Platform} (n : Nat)
    (e : (Process.machine platform).Execution Machine.anyStep) (fair : e.Fair (Process.Own n))
    (i : Nat) (present : (e.state i).sessions n = some s)
    (ended : ∀ d, (s.socket d).ended = true) :
    ∃ j, i ≤ j ∧ (Process.Killed e j ∨
      ∀ k, j ≤ k → ∃ t, (e.state k).sessions n = some t ∧ Process.Finished t ∧
        (Process.NoFailure e n k → ∀ d, delivered d t.trace = (t.socket d).arrived)) := by
  by_cases dead : ∃ j, i ≤ j ∧ (e.state j).running = false
  · obtain ⟨j, later, ended⟩ := dead
    exact ⟨j, later, .inl (Process.killed e ended)⟩
  · have running (k : Nat) (later : i ≤ k) : (e.state k).running = true := by
      by_contra down
      exact dead ⟨k, later, by simpa using down⟩
    obtain ⟨j, later, done⟩ := Process.member_returns e fair running present ended
    refine ⟨j, later, .inr fun k after => ?_⟩
    obtain ⟨t, known⟩ := Option.isSome_iff_exists.mp
      (Process.present_later e (later.trans after) present)
    have reached : session.Reach Machine.anyStep (Process.view n (e.state k)) :=
      (Process.member platform n).reach (e.reach k)
    have returned := done k after
    rw [Process.view_present known] at reached returned
    have finished := Process.finished_of_done reached returned
    exact ⟨t, known, finished, fun unfailing =>
      Process.complete_of_finished e known finished unfailing⟩

/-- Two sessions are started. Each peer of the first sends a little and finishes before the
relays have begun; the second gets no further. -/
def bothFinish : List Process.Action :=
  [.start 0, .start 1] ++ ([.worker, .worker, .arrive .client [7], .arrive .upstream [8, 9],
    .finishStream .client, .finishStream .upstream, .relay .client 1, .relay .client 1,
    .relay .client 0, .relay .client 0, .relay .upstream 2, .relay .upstream 2,
    .relay .upstream 0, .relay .upstream 0] ++ List.replicate 9 .worker : List Action).map
    (.session 0)

theorem session_completes_both :
    ∃ (e : (Process.machine .posix).Execution Machine.anyStep) (s : State),
      e.Fair (Process.Own 0) ∧ (e.state 8).sessions 0 = some s ∧
      (∀ d, (s.socket d).ended = true) ∧ delivered .client s.trace = [] ∧
      ∃ j, 8 ≤ j ∧ (Process.Killed e j ∨
        ∀ k, j ≤ k → ∃ t, (e.state k).sessions 0 = some t ∧ Process.Finished t ∧
          (Process.NoFailure e 0 k → ∀ d, delivered d t.trace = (t.socket d).arrived)) := by
  have result : ((Process.machine .posix).runIf Machine.anyStep Process.initial bothFinish).map
      (fun p => (p.sessions 0).map fun s => decide (s.worker = .done ∧ s.stopPc = .idle)) =
      some (some true) := by
    decide +kernel
  obtain ⟨p, run, seen⟩ := Option.map_eq_some_iff.mp result
  obtain ⟨s, known, seen⟩ := Option.map_eq_some_iff.mp seen
  obtain ⟨done, idle⟩ := of_decide_eq_true seen
  have reached : session.Reach Machine.anyStep (Process.view 0 p) :=
    (Process.member .posix 0).reach (.runIf (.start rfl) run)
  rw [Process.view_present known] at reached
  have isOver := (control_reached reached).isOver done
  have quiet (a : Action) (own : a.isOwn = true) : session.step s a = none := by
    cases a with
    | relay d r => exact (isOver d r).2
    | worker => exact (isOver .client 0).1
    | stop => simp [session, step, stopStep, idle]
    | callStop | arrive | finishStream | peerReset => cases own
  have fair : (Machine.Execution.ofRun (m := Process.machine .posix) rfl run).Fair
      (Process.Own 0) := by
    refine Machine.Execution.fair_ofRun _ _ ?_
    rintro - ⟨a, rfl, own⟩
    have rests : step s a = none := quiet a own
    simp [Process.machine, Process.step, known, rests]
  have early : ((Process.machine .posix).run Process.initial (bothFinish.take 8)).map
      (fun p => (p.sessions 0).map fun s => decide (((s.socket .client).ended = true ∧
        (s.socket .upstream).ended = true) ∧ delivered .client s.trace = [])) =
      some (some true) := by
    decide +kernel
  rw [Machine.Execution.ofRun_take (m := Process.machine .posix) rfl run (by decide),
    Option.map_some, Option.some.injEq] at early
  obtain ⟨u, present, seen⟩ := Option.map_eq_some_iff.mp early
  obtain ⟨both, nothing⟩ := of_decide_eq_true seen
  have ended := (Side.forall (P := fun d => (u.socket d).ended = true)).mpr both
  exact ⟨_, u, fair, present, ended, nothing, session_completes 0 _ fair 8 present ended⟩

end PortForwardX.Tcp
