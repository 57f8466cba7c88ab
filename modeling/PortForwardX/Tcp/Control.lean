import PortForwardX.Tcp.Session

/-!
# Threads, handles and the mutex of a session

What the control point of `Run` says about the rest of the session: which relays
exist and which have ended, which members still hold a descriptor, which
descriptors are open and who owns `socket_mutex_`.
-/
namespace PortForwardX.Tcp

open Transition

/-- `Run` has created the thread that reads `d`. -/
def WorkerPc.started : WorkerPc → Side → Bool
  | .startUpstream, _ => false
  | .startDownstream, .upstream => false
  | _, _ => true

/-- `Run` has joined the thread that reads `d`. -/
def WorkerPc.joined : WorkerPc → Side → Bool
  | .startUpstream, _ | .startDownstream, _ | .joinUpstream, _ => false
  | .joinDownstream, .upstream => false
  | _, _ => true

/-- `Run` has closed the descriptor of `side`. -/
def WorkerPc.closed : WorkerPc → Side → Bool
  | .invalidate .client, .client => true
  | .close .upstream, .client | .invalidate .upstream, _ | .unlock, _ | .finish, _
  | .done, _ => true
  | _, _ => false

/-- `Run` has overwritten the member of `side` with `kInvalidSocket`. -/
def WorkerPc.dropped : WorkerPc → Side → Bool
  | .close .upstream, .client | .invalidate .upstream, .client => true
  | .unlock, _ | .finish, _ | .done, _ => true
  | _, _ => false

/-- The worker and the relays agree on which threads exist and which have ended, and
the worker's control point tells the state of the two descriptors. -/
structure Control (s : State) : Prop where
  started : ∀ d, (s.relay d).pc = .notStarted ↔ s.worker.started d = false
  joined : ∀ d, s.worker.joined d = true → (s.relay d).pc.hasEnded = true
  isOpen : ∀ d, (s.socket d).isOpen = !s.worker.closed d
  held : ∀ d, (s.socket d).held = !s.worker.dropped d
  finished : s.finished = true ↔ s.worker = .done

theorem control_initial : Control initial := by
  refine ⟨?_, ?_, ?_, ?_, by simp [initial]⟩ <;> intro d <;> cases d <;>
    simp [initial, WorkerPc.started, WorkerPc.joined, WorkerPc.closed, WorkerPc.dropped]

/-- What a relay's step leaves alone, and that it neither starts nor restarts one. -/
theorem RelayMove.frame {s t : State} {d : Side} {result : Int} (moved : RelayMove s d result t) :
    t.worker = s.worker ∧ t.stopPc = s.stopPc ∧ t.stopping = s.stopping ∧
      t.finished = s.finished ∧ t.socketMutex = s.socketMutex ∧
      t.relay d.other = s.relay d.other ∧ (s.relay d).pc ≠ .notStarted ∧
      (s.relay d).pc.hasEnded = false ∧ (t.relay d).pc ≠ .notStarted := by
  cases moved <;> simp [*, RelayPc.hasEnded]

/-- Only the worker closes a descriptor or overwrites a member. -/
theorem step_handles {s t : State} {a : Action} (moved : step s a = some t) (other : a ≠ .worker)
    (d : Side) : (t.socket d).isOpen = (s.socket d).isOpen ∧
      (t.socket d).held = (s.socket d).held := by
  cases a with
  | relay e result =>
    cases relayStep_move moved <;> rcases Side.eq_or_other e d with rfl | rfl <;> simp
  | worker => exact absurd rfl other
  | callStop => rcases callStop_move moved with ⟨-, rfl⟩ | ⟨-, rfl⟩ <;> simp
  | stop =>
    cases stopStep_move moved <;> simp only [shutdownMember] <;> (try split) <;> cases d <;> simp
  | arrive side bytes =>
    obtain ⟨-, rfl⟩ := arrive_move moved
    rcases Side.eq_or_other side d with rfl | rfl <;> simp
  | finishStream side | peerReset side =>
    cases moved
    rcases Side.eq_or_other side d with rfl | rfl <;> simp

/-- Only the worker moves its own control point, and only relays move theirs. -/
theorem step_threads {s t : State} {a : Action} (moved : step s a = some t) (other : a ≠ .worker) :
    t.worker = s.worker ∧ t.finished = s.finished ∧
      ∀ d, ((t.relay d).pc = .notStarted ↔ (s.relay d).pc = .notStarted) ∧
        ((s.relay d).pc.hasEnded = true → (t.relay d).pc.hasEnded = true) := by
  cases a with
  | relay e result =>
    obtain ⟨worker, _, _, finished, _, opposite, running, going, still⟩ :=
      (relayStep_move moved).frame
    refine ⟨worker, finished, fun d => ?_⟩
    rcases Side.eq_or_other e d with rfl | rfl
    · simp [running, still, going]
    · simp [opposite]
  | worker => exact absurd rfl other
  | callStop => rcases callStop_move moved with ⟨-, rfl⟩ | ⟨-, rfl⟩ <;> simp
  | stop => cases stopStep_move moved <;> simp
  | arrive side bytes =>
    obtain ⟨-, rfl⟩ := arrive_move moved
    simp
  | finishStream side | peerReset side =>
    cases moved
    simp

theorem control_step {s t : State} {a : Action} (inv : Control s) (moved : step s a = some t) :
    Control t := by
  by_cases own : a = .worker
  · subst own
    -- the worker moves: each of its control points tells the whole state
    obtain ⟨started, joined, isOpen, held, finished⟩ := inv
    simp only [Side.forall] at started joined isOpen held
    cases workerStep_move moved
    case close side pc _ =>
      cases side <;> constructor <;> simp_all [Side.forall, WorkerPc.started, WorkerPc.joined,
        WorkerPc.closed, WorkerPc.dropped]
    all_goals
      constructor <;> simp_all [Side.forall, WorkerPc.started, WorkerPc.joined, WorkerPc.closed,
        WorkerPc.dropped]
  · -- somebody else moves and leaves the worker and the handles alone
    obtain ⟨worker, finished, relays⟩ := step_threads moved own
    have handles := step_handles moved own
    refine ⟨?_, ?_, ?_, ?_, ?_⟩
    · intro d
      rw [worker, (relays d).1]
      exact inv.started d
    · intro d joined
      rw [worker] at joined
      exact (relays d).2 (inv.joined d joined)
    · intro d
      rw [worker, (handles d).1]
      exact inv.isOpen d
    · intro d
      rw [worker, (handles d).2]
      exact inv.held d
    · rw [worker, finished]
      exact inv.finished

theorem control_reached {ok : State → Action → Prop} {s : State} (reached : session.Reach ok s) :
    Control s :=
  reached.invariant (P := Control) (by rintro _ rfl; exact control_initial)
    fun _ _ _ _ inv _ moved => control_step inv moved

/-- `Run` is between locking and unlocking `socket_mutex_`. -/
def WorkerPc.locked : WorkerPc → Bool
  | .close _ | .invalidate _ | .unlock => true
  | _ => false

/-- `Stop` is between locking and unlocking `socket_mutex_`. -/
def StopPc.locked : StopPc → Bool
  | .shutdown _ | .unlock => true
  | _ => false

/-- Who holds `socket_mutex_`, and that only the first call of `Stop` gets going. -/
structure Exclusive (s : State) : Prop where
  worker : s.socketMutex = some .worker ↔ s.worker.locked = true
  stopper : s.socketMutex = some .stopper ↔ s.stopPc.locked = true
  stopping : s.stopping = false → s.stopPc = .idle

theorem exclusive_step {s t : State} {a : Action} (inv : Exclusive s) (moved : step s a = some t) :
    Exclusive t := by
  obtain ⟨worker, stopper, stopping⟩ := id inv
  cases a with
  | relay d result =>
    obtain ⟨same_worker, same_stop, same_stopping, _, same_mutex, _⟩ := (relayStep_move moved).frame
    constructor <;> simpa [same_worker, same_stop, same_stopping, same_mutex]
  | worker =>
    cases workerStep_move moved <;> constructor <;> simp_all [WorkerPc.locked]
  | callStop =>
    rcases callStop_move moved with ⟨-, rfl⟩ | ⟨fresh, rfl⟩
    · exact inv
    · constructor <;> simp_all [StopPc.locked]
  | stop =>
    cases stopStep_move moved <;> constructor <;> simp_all [StopPc.locked, shutdownMember] <;>
      split <;> simp_all
  | arrive side bytes =>
    obtain ⟨-, rfl⟩ := arrive_move moved
    exact ⟨worker, stopper, stopping⟩
  | finishStream side | peerReset side =>
    cases moved
    exact ⟨worker, stopper, stopping⟩

theorem exclusive_reached {ok : State → Action → Prop} {s : State}
    (reached : session.Reach ok s) : Exclusive s :=
  reached.invariant (P := Exclusive)
    (by rintro _ rfl; constructor <;> simp [initial, WorkerPc.locked, StopPc.locked])
    fun _ _ _ _ inv _ moved => exclusive_step inv moved

end PortForwardX.Tcp
