import PortForwardX.Tcp.Teardown

/-!
# What a session has to do

How long the relays of a live session go on is up to its peers. What the worker and `Stop`
have to do is bounded from the start, and once the session is being torn down so is what the
relays have to do.
-/
namespace PortForwardX.Tcp

open Transition

instance decidableTearingDown (s : State) : Decidable (TearingDown s) :=
  decidable_of_iff (s.stopPc = .unlock ∨ s.stopPc = .done ∨
    ((s.relay .client).pc = .ended .recvFailed ∨ (s.relay .client).pc = .ended .sendFailed) ∨
    ((s.relay .upstream).pc = .ended .recvFailed ∨ (s.relay .upstream).pc = .ended .sendFailed)) (by
      refine or_congr_right (or_congr_right ⟨?_, fun ⟨d, ended⟩ => ?_⟩)
      · rintro (ended | ended)
        · exact ⟨_, ended⟩
        · exact ⟨_, ended⟩
      · cases d with
        | client => exact .inl ended
        | upstream => exact .inr ended)

/-- A step that the end of the session waits for. -/
def Pending (s : State) : Action → Prop
  | .worker | .stop => True
  | .relay _ _ => TearingDown s
  | _ => False

/-- One as long as the peers decide how long the session goes on. -/
def State.live (s : State) : Nat := if TearingDown s then 0 else 1

/-- A bound on the pending steps, until the session is torn down and after that. -/
def State.pending (s : State) : Nat :=
  if TearingDown s then remaining s else s.worker.work + s.stopPc.work

/-- The threads a session has besides its relays. -/
theorem step_work {s t : State} {a : Action} (inv : Severed s) (moved : step s a = some t) :
    t.worker.work + t.stopPc.work + (if a = .worker ∨ a = .stop then 1 else 0) ≤
      s.worker.work + s.stopPc.work := by
  cases a with
  | relay d result =>
    obtain ⟨worker, stop, -⟩ := (relayStep_move moved).frame
    simp [worker, stop]
  | worker =>
    have moved := workerStep_move moved
    have stop : t.stopPc = s.stopPc := by cases moved <;> rfl
    have work := moved.work
    simp only [stop, true_or, if_true]
    omega
  | stop => cases stopStep_move moved <;> simp [StopPc.work, *]
  | callStop =>
    rcases callStop_move moved with ⟨-, rfl⟩ | ⟨fresh, rfl⟩
    · simp
    · simp [StopPc.work, inv.exclusive.stopping fresh]
  | arrive side bytes =>
    obtain ⟨-, rfl⟩ := arrive_move moved
    simp
  | finishStream side | peerReset side =>
    cases moved
    simp

/-- A pending step is one less to do, and no other step is one more; if the session begins
to be torn down, that happens once. -/
theorem step_pending {s t : State} {a : Action} (inv : Severed s) (silent : SilentWhenShut s a)
    (moved : step s a = some t) :
    t.live < s.live ∨ (t.live = s.live ∧ t.pending ≤ s.pending ∧
      (Pending s a → t.pending < s.pending)) := by
  by_cases ending : TearingDown s
  · -- the bound of the teardown
    have still := tearingDown_step inv ending moved
    have spent := remaining_step inv ending silent moved
    refine .inr ⟨by simp [State.live, ending, still], ?_⟩
    simp only [State.pending, ending, still, if_true]
    refine ⟨by omega, fun pending => ?_⟩
    have own : a.isOwn = true := by cases a <;> first | rfl | exact absurd pending id
    simp only [own, if_true] at spent
    omega
  · by_cases begins : TearingDown t
    · exact .inl (by simp [State.live, ending, begins])
    · have spent := step_work inv moved
      refine .inr ⟨by simp [State.live, ending, begins], ?_⟩
      simp only [State.pending, ending, begins, if_false]
      refine ⟨by omega, fun pending => ?_⟩
      have chosen : a = .worker ∨ a = .stop := by
        cases a with
        | worker => exact .inl rfl
        | stop => exact .inr rfl
        | relay => exact absurd pending ending
        | _ => exact absurd pending id
      rw [if_pos chosen] at spent
      omega

/-- A `Stop` call that is under way can go on, or it waits for the worker, which can. -/
theorem Severed.stop_ready {s : State} (inv : Severed s) (called : s.stopPc ≠ .idle)
    (busy : s.stopPc ≠ .done) :
    step s .stop ≠ none ∨ (s.worker.locked = true ∧ step s .worker ≠ none) := by
  cases pc : s.stopPc with
  | idle => exact absurd pc called
  | done => exact absurd pc busy
  | unlock => exact .inl (by simp [step, stopStep, pc])
  | shutdown side => exact .inl (by cases side <;> simp [step, stopStep, pc])
  | lock =>
    cases held : s.socketMutex with
    | none => exact .inl (by simp [step, stopStep, pc, held])
    | some holder =>
      cases holder with
      | stopper =>
        have locked := inv.exclusive.stopper.mp held
        simp [pc, StopPc.locked] at locked
      | worker =>
        -- the worker is closing the sockets
        have locked := inv.exclusive.worker.mp held
        refine .inr ⟨locked, ?_⟩
        cases worker : s.worker with
        | close side =>
          simp only [step, workerStep, worker]
          split
          · simp
          · cases side <;> simp
        | invalidate side => cases side <;> simp [step, workerStep, worker]
        | unlock => simp [step, workerStep, worker]
        | _ => simp [worker, WorkerPc.locked] at locked

/-- A session that is torn down and whose worker has not returned has a pending step. -/
theorem Severed.pending_ready {s : State} (inv : Severed s) (ending : TearingDown s)
    (running : s.worker ≠ .done) : ∃ a, Pending s a ∧ step s a ≠ none := by
  have unfinished : s.finished = false := by
    rw [← Bool.not_eq_true, inv.control.finished]
    exact running
  obtain ⟨a, t, own, -, moved⟩ := inv.progress ending unfinished
  refine ⟨a, ?_, by simp [moved]⟩
  cases a with
  | relay => exact ending
  | worker | stop => trivial
  | _ => cases own

/-- A worker that has returned leaves nothing to be done but a call of `Stop`. -/
theorem Control.isOver {s : State} (inv : Control s) (done : s.worker = .done) (d : Side)
    (result : Int) : step s .worker = none ∧ step s (.relay d result) = none := by
  refine ⟨by simp [step, workerStep, done], ?_⟩
  have ended := inv.joined d (by rw [done]; cases d <;> rfl)
  cases pc : (s.relay d).pc with
  | ended => simp [step, relayStep, pc]
  | _ => simp [pc, RelayPc.hasEnded] at ended

end PortForwardX.Tcp
