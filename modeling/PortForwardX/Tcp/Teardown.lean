import PortForwardX.Tcp.Control
import PortForwardX.Transition.Rank

/-!
# Teardown of a session

Once `Stop` has shut the sockets down, or a relay has ended after a failed call,
the other relay cannot be kept waiting by a peer any more: every call it still makes
is on a socket that has been shut down or has failed. What is left to do is then
bounded by the bytes already buffered, and ends with both descriptors closed.
-/
namespace PortForwardX.Tcp

open Transition

/-- `ShutdownBoth` has been applied to the socket. -/
def Socket.shut (k : Socket) : Bool := k.readShut && k.writeShut

/-- What is assumed of the calls of a relay. After `ShutdownBoth`, `Recv` returns the
buffered bytes and then 0, and `Send` fails; a socket on which a call failed keeps
failing. -/
def CallRules (s : State) (d : Side) (result : Int) : RelayPc → Prop
  | .recv =>
    ((s.socket d).failed = true → result < 0) ∧
      ((s.socket d).shut = true → (s.socket d).failed = false →
        0 ≤ result ∧ (result = 0 → (s.socket d).unread = 0))
  | .send _ _ => (s.socket d.other).failed = true ∨ (s.socket d.other).shut = true → result ≤ 0
  | _ => True

instance (s : State) (d : Side) (result : Int) : ∀ pc, Decidable (CallRules s d result pc)
  | .recv => inferInstanceAs (Decidable (_ ∧ _))
  | .send _ _ => inferInstanceAs (Decidable (_ → _))
  | .notStarted | .shutdownWrite | .afterRecvError | .afterSendError | .afterSourceShut
  | .ended _ => inferInstanceAs (Decidable True)

/-- What is assumed of sockets: the rules for calls, and that nothing more arrives
after `ShutdownBoth`. -/
def SocketRules (s : State) : Action → Prop
  | .relay d result => CallRules s d result (s.relay d).pc
  | .arrive side _ => (s.socket side).shut = false
  | _ => True

instance (s : State) : ∀ a, Decidable (SocketRules s a)
  | .relay d result => inferInstanceAs (Decidable (CallRules s d result (s.relay d).pc))
  | .arrive side _ => inferInstanceAs (Decidable ((s.socket side).shut = false))
  | .worker | .callStop | .stop | .finishStream _ | .peerReset _ =>
    inferInstanceAs (Decidable True)

/-- Of the rules only the last one: nothing more arrives after `ShutdownBoth`. -/
def SilentWhenShut (s : State) : Action → Prop
  | .arrive side _ => (s.socket side).shut = false
  | _ => True

instance (s : State) : ∀ a, Decidable (SilentWhenShut s a)
  | .arrive side _ => inferInstanceAs (Decidable ((s.socket side).shut = false))
  | .relay _ _ | .worker | .callStop | .stop | .finishStream _ | .peerReset _ =>
    inferInstanceAs (Decidable True)

theorem SocketRules.silentWhenShut {s : State} {a : Action} (rules : SocketRules s a) :
    SilentWhenShut s a := by
  cases a with
  | arrive side bytes => exact rules
  | _ => trivial

/-- The shutdowns of `Stop` are done, or a relay has ended otherwise than at the end
of its source. -/
def TearingDown (s : State) : Prop :=
  s.stopPc = .unlock ∨ s.stopPc = .done ∨
    ∃ d, (s.relay d).pc = .ended .recvFailed ∨ (s.relay d).pc = .ended .sendFailed

/-- The relay that reads `d` is in a call, or about to make one, on a socket that is
neither shut down nor has failed. -/
def OnLiveSocket (s : State) (d : Side) : Prop :=
  match (s.relay d).pc with
  | .recv => (s.socket d).failed = false ∧ (s.socket d).shut = false
  | .send _ _ => (s.socket d.other).failed = false ∧ (s.socket d.other).shut = false
  | _ => False

/-- Nothing undoes a shutdown or a failure. -/
theorem step_severed {s t : State} {a : Action} (moved : step s a = some t) (d : Side) :
    ((s.socket d).shut = true → (t.socket d).shut = true) ∧
      ((s.socket d).failed = true → (t.socket d).failed = true) := by
  cases a with
  | relay e result =>
    cases relayStep_move moved <;> rcases Side.eq_or_other e d with rfl | rfl <;>
      simp_all [Socket.shut]
  | worker =>
    cases workerStep_move moved
    case close side _ _ => rcases Side.eq_or_other side d with rfl | rfl <;> simp [Socket.shut]
    all_goals cases d <;> simp [Socket.shut]
  | callStop => rcases callStop_move moved with ⟨-, rfl⟩ | ⟨-, rfl⟩ <;> simp
  | stop =>
    cases stopStep_move moved <;> simp only [shutdownMember] <;> (try split) <;> cases d <;>
      simp [Socket.shut]
  | arrive side bytes =>
    obtain ⟨-, rfl⟩ := arrive_move moved
    rcases Side.eq_or_other side d with rfl | rfl <;> simp [Socket.shut]
  | finishStream side | peerReset side =>
    cases moved
    rcases Side.eq_or_other side d with rfl | rfl <;> simp [Socket.shut]

/-- A relay moves itself; all that others can do is to start it. -/
theorem step_relay {s t : State} {a : Action} {d : Side} (moved : step s a = some t)
    (other : ∀ result, a ≠ .relay d result) :
    (t.relay d).pc = (s.relay d).pc ∨ (t.relay d).pc = .recv ∧ s.worker.started d = false := by
  cases a with
  | relay e result =>
    rcases Side.eq_or_other e d with rfl | rfl
    · exact absurd rfl (other result)
    · left
      rw [(relayStep_move moved).frame.2.2.2.2.2.1]
  | worker => cases workerStep_move moved <;> cases d <;> simp_all [WorkerPc.started]
  | callStop => rcases callStop_move moved with ⟨-, rfl⟩ | ⟨-, rfl⟩ <;> simp
  | stop => cases stopStep_move moved <;> simp
  | arrive side bytes =>
    obtain ⟨-, rfl⟩ := arrive_move moved
    simp
  | finishStream side | peerReset side =>
    cases moved
    simp

theorem step_stopPc {s t : State} {a : Action} (moved : step s a = some t) (other : a ≠ .stop) :
    t.stopPc = s.stopPc ∨ t.stopPc = .lock := by
  cases a with
  | relay e result => exact .inl (relayStep_move moved).frame.2.1
  | worker => cases workerStep_move moved <;> simp
  | callStop => rcases callStop_move moved with ⟨-, rfl⟩ | ⟨-, rfl⟩ <;> simp
  | stop => exact absurd rfl other
  | arrive side bytes =>
    obtain ⟨-, rfl⟩ := arrive_move moved
    simp
  | finishStream side | peerReset side =>
    cases moved
    simp

/-- The relay part of `Severed`, for one relay. -/
def RelaySevered (s : State) (d : Side) : Prop :=
  match (s.relay d).pc with
  | .afterRecvError => (s.socket d).failed = true
  | .ended .recvFailed => (s.socket d).failed = true ∧ (s.socket d.other).shut = true
  | .afterSourceShut => (s.socket d).shut = true
  | .ended .sendFailed => (s.socket d).shut = true ∧ (s.socket d.other).shut = true
  | _ => True

theorem relaySevered_step {s t : State} {a : Action} {d : Side} (inv : RelaySevered s d)
    (moved : step s a = some t) : RelaySevered t d := by
  have own := step_severed moved d
  have opposite := step_severed moved d.other
  by_cases mine : ∃ result, a = .relay d result
  · obtain ⟨result, rfl⟩ := mine
    cases relayStep_move moved <;> simp_all [RelaySevered, Socket.shut]
  · -- the relay stands still or is started, and nothing undoes what the others have shut
    have same := step_relay moved (fun result eq => mine ⟨result, eq⟩)
    rcases same with same | ⟨same, _⟩
    · unfold RelaySevered at inv ⊢
      rw [same]
      split at inv <;> simp_all
    · simp [RelaySevered, same]

/-- What `Stop` has done to the sockets that the members still held. -/
def StopSevered (s : State) : Prop :=
  match s.stopPc with
  | .shutdown .upstream => (s.socket .client).held = true → (s.socket .client).shut = true
  | .unlock | .done => ∀ d, (s.socket d).held = true → (s.socket d).shut = true
  | _ => True

/-- A member that has been overwritten is never set again. -/
theorem step_held {s t : State} {a : Action} (moved : step s a = some t) (d : Side)
    (held : (t.socket d).held = true) : (s.socket d).held = true := by
  by_cases own : a = .worker
  · subst own
    cases workerStep_move moved
    case close side _ _ => rcases Side.eq_or_other side d with rfl | rfl <;> simp_all
    all_goals cases d <;> simp_all
  · rwa [(step_handles moved own d).2] at held

theorem stopSevered_step {s t : State} {a : Action} (inv : StopSevered s)
    (moved : step s a = some t) : StopSevered t := by
  have keeps : ∀ d, ((s.socket d).held = true → (s.socket d).shut = true) →
      (t.socket d).held = true → (t.socket d).shut = true :=
    fun d cut held => (step_severed moved d).1 (cut (step_held moved d held))
  by_cases own : a = .stop
  · subst own
    cases stopStep_move moved with
    | lock pc free => trivial
    | shutdownClient pc =>
      simp only [StopSevered, shutdownMember]
      split <;> simp_all [Socket.shut]
    | shutdownUpstream pc =>
      simp only [StopSevered, pc] at inv
      simp only [StopSevered, shutdownMember, Side.forall]
      split <;> simp_all [Socket.shut]
    | unlock pc => simpa [StopSevered, pc] using inv
  · -- members are dropped and sockets shut by others, never the other way round
    rcases step_stopPc moved own with same | same
    · unfold StopSevered at inv ⊢
      rw [same]
      split at inv
      · exact keeps _ inv
      · exact fun d => keeps d (inv d)
      · exact fun d => keeps d (inv d)
      · trivial
    · simp [StopSevered, same]

/-- The invariants that teardown rests on. -/
structure Severed (s : State) : Prop where
  relays : ∀ d, RelaySevered s d
  stop : StopSevered s
  control : Control s
  exclusive : Exclusive s

theorem severed_step {s t : State} {a : Action} (inv : Severed s) (moved : step s a = some t) :
    Severed t :=
  ⟨fun d => relaySevered_step (inv.relays d) moved, stopSevered_step inv.stop moved,
    control_step inv.control moved, exclusive_step inv.exclusive moved⟩

theorem severed_reached {ok : State → Action → Prop} {s : State} (reached : session.Reach ok s) :
    Severed s := by
  refine reached.invariant (P := Severed) ?_ fun _ _ _ _ inv _ moved => severed_step inv moved
  rintro _ rfl
  exact ⟨fun d => trivial, trivial, control_initial, @exclusive_reached ok _ (.start rfl)⟩

/-- A member is overwritten only after both relays have been joined. -/
theorem Control.held_of_running {s : State} (inv : Control s) {d : Side}
    (running : (s.relay d).pc.hasEnded = false) (e : Side) : (s.socket e).held = true := by
  rw [inv.held e]
  have joined := inv.joined d
  cases pc : s.worker <;> cases e <;> cases d <;>
    simp_all [WorkerPc.dropped, WorkerPc.joined]

/-- While a session is torn down, a relay that has not ended reads from a socket
that has been shut down, and sends to one that has been shut down or has failed. -/
theorem Severed.cut {s : State} (inv : Severed s) (ending : TearingDown s) {d : Side}
    (running : (s.relay d).pc.hasEnded = false) :
    (s.socket d).shut = true ∧
      ((s.socket d.other).failed = true ∨ (s.socket d.other).shut = true) := by
  have held := inv.control.held_of_running running
  rcases ending with stop | stop | ⟨e, failed | failed⟩
  · -- `Stop` has shut both members down, and none has been dropped
    have cut := inv.stop
    simp only [StopSevered, stop] at cut
    exact ⟨cut d (held d), .inr (cut _ (held _))⟩
  · have cut := inv.stop
    simp only [StopSevered, stop] at cut
    exact ⟨cut d (held d), .inr (cut _ (held _))⟩
  all_goals
    have cut := inv.relays e
    simp only [RelaySevered, failed] at cut
    -- the relay that ended in failure is the opposite one
    rcases Side.eq_or_other e d with rfl | rfl
    · simp [failed, RelayPc.hasEnded] at running
    · simp_all

/-- Steps of the session itself, as opposed to those of its peers and its callers. -/
def Action.isOwn : Action → Bool
  | .relay _ _ | .worker | .stop => true
  | _ => false

/-- A bound on the steps a relay still takes if nothing more arrives. Every byte of a
chunk costs at most one `Send` and one share of a `Recv`. -/
def RelayPc.work (unread : Nat) : RelayPc → Nat
  | .notStarted => 2 * unread + 5
  | .recv => 2 * unread + 4
  | .send size sent => 2 * unread + (size - sent) + 4
  | .afterSendError => 2
  | .shutdownWrite | .afterRecvError | .afterSourceShut => 1
  | .ended _ => 0

def WorkerPc.work : WorkerPc → Nat
  | .startUpstream => 12
  | .startDownstream => 11
  | .joinUpstream => 10
  | .joinDownstream => 9
  | .lock => 8
  | .close .client => 7
  | .invalidate .client => 6
  | .close .upstream => 5
  | .invalidate .upstream => 4
  | .unlock => 3
  | .finish => 2
  | .done => 0

def StopPc.work : StopPc → Nat
  | .idle => 6
  | .lock => 5
  | .shutdown .client => 4
  | .shutdown .upstream => 3
  | .unlock => 2
  | .done => 0

/-- A bound on the steps the session still takes once it is being torn down. -/
def remaining (s : State) : Nat :=
  (s.relay .client).pc.work (s.socket .client).unread +
    (s.relay .upstream).pc.work (s.socket .upstream).unread + s.worker.work + s.stopPc.work

theorem relayStep_work {s t : State} {d : Side} {result : Int} (moved : RelayMove s d result t) :
    (t.relay d).pc.work (t.socket d).unread + 1 ≤ (s.relay d).pc.work (s.socket d).unread ∧
      (t.socket d.other).unread = (s.socket d.other).unread := by
  cases moved <;> simp_all [RelayPc.work, Socket.unread] <;> omega

theorem remaining_relay {s t : State} {d : Side} {result : Int} (moved : RelayMove s d result t) :
    remaining t + 1 ≤ remaining s := by
  obtain ⟨less, unread⟩ := relayStep_work moved
  obtain ⟨worker, stop, _, _, _, other, _⟩ := moved.frame
  cases d with
  | client =>
    simp only [remaining, worker, stop, Side.other] at other unread ⊢
    rw [other, unread]
    omega
  | upstream =>
    simp only [remaining, worker, stop, Side.other] at other unread ⊢
    rw [other, unread]
    omega

/-- The worker reads and buffers nothing. -/
theorem WorkerMove.unread {s t : State} (moved : WorkerMove s t) (d : Side) :
    (t.socket d).unread = (s.socket d).unread := by
  cases moved with
  | @close side pc held =>
    rcases Side.eq_or_other side d with rfl | rfl <;> simp [Socket.unread]
  | invalidateClient pc | invalidateUpstream pc => cases d <;> simp [Socket.unread]
  | _ => rfl

/-- A thread that starts enters its loop. -/
theorem WorkerMove.relayWork {s t : State} (moved : WorkerMove s t) (control : Control s) (d : Side)
    (unread : Nat) : (t.relay d).pc.work unread ≤ (s.relay d).pc.work unread := by
  cases moved with
  | startUpstream pc =>
    have fresh := (control.started .client).mpr (by rw [pc]; rfl)
    cases d <;> simp [fresh, RelayPc.work]
  | startDownstream pc =>
    have fresh := (control.started .upstream).mpr (by rw [pc]; rfl)
    cases d <;> simp [fresh, RelayPc.work]
  | _ => exact Nat.le_refl _

theorem WorkerMove.work {s t : State} (moved : WorkerMove s t) :
    t.worker.work + 1 ≤ s.worker.work := by
  cases moved with
  | @close side pc held =>
    rw [pc]
    cases side <;> exact Nat.le_of_ble_eq_true rfl
  | _ pc =>
    rw [pc]
    exact Nat.le_of_ble_eq_true rfl

theorem remaining_worker {s t : State} (control : Control s) (moved : WorkerMove s t) :
    remaining t + 1 ≤ remaining s := by
  have client := moved.relayWork control .client (s.socket .client).unread
  have upstream := moved.relayWork control .upstream (s.socket .upstream).unread
  have worker := moved.work
  have stop : t.stopPc = s.stopPc := by cases moved <;> rfl
  simp only [remaining, moved.unread, stop]
  omega

theorem RelayPc.work_ended {pc : RelayPc} (ended : pc.hasEnded = true) (unread : Nat) :
    pc.work unread = 0 := by
  cases pc <;> simp_all [RelayPc.hasEnded, RelayPc.work]

theorem remaining_step {s t : State} {a : Action} (inv : Severed s) (ending : TearingDown s)
    (silent : SilentWhenShut s a) (moved : step s a = some t) :
    remaining t + (if a.isOwn then 1 else 0) ≤ remaining s := by
  cases a with
  | relay d result => exact remaining_relay (relayStep_move moved)
  | worker => exact remaining_worker inv.control (workerStep_move moved)
  | stop =>
    cases stopStep_move moved <;> simp [remaining, Action.isOwn, StopPc.work, *]
  | callStop =>
    rcases callStop_move moved with ⟨-, rfl⟩ | ⟨fresh, rfl⟩
    · simp [Action.isOwn]
    · simp [remaining, Action.isOwn, StopPc.work, inv.exclusive.stopping fresh]
  | arrive side bytes =>
    -- The relay of an open socket has ended, or the socket would have been shut down.
    have ended : (s.relay side).pc.hasEnded = true := by
      by_contra running
      have cut := inv.cut ending (Bool.eq_false_iff.mpr running)
      simp [SilentWhenShut, cut.1] at silent
    have done := RelayPc.work_ended ended
    obtain ⟨-, rfl⟩ := arrive_move moved
    cases side <;> simp [remaining, Action.isOwn, done]
  | finishStream side | peerReset side =>
    cases moved
    cases side <;> simp [remaining, Action.isOwn, Socket.unread]

theorem ended_step {s t : State} {a : Action} {d : Side} {ending : Ending} (inv : Control s)
    (ended : (s.relay d).pc = .ended ending) (moved : step s a = some t) :
    (t.relay d).pc = .ended ending := by
  have other : ∀ result, a ≠ .relay d result := by
    rintro result rfl
    simp [step, relayStep, ended] at moved
  rcases step_relay moved other with same | ⟨_, fresh⟩
  · rw [same, ended]
  · have := (inv.started d).mpr fresh
    simp [ended] at this

theorem tearingDown_step {s t : State} {a : Action} (inv : Severed s) (ending : TearingDown s)
    (moved : step s a = some t) : TearingDown t := by
  have stopped : s.stopPc = .unlock ∨ s.stopPc = .done → t.stopPc = .unlock ∨ t.stopPc = .done := by
    intro stopped
    have called : s.stopping = true := by
      by_contra fresh
      have := inv.exclusive.stopping (Bool.eq_false_iff.mpr fresh)
      simp [this] at stopped
    cases a with
    | stop => cases stopStep_move moved <;> simp_all
    | callStop =>
      rcases callStop_move moved with ⟨-, rfl⟩ | ⟨fresh, rfl⟩
      · exact stopped
      · simp [called] at fresh
    | relay => rw [(relayStep_move moved).frame.2.1]; exact stopped
    | worker => cases workerStep_move moved <;> simpa using stopped
    | arrive side bytes =>
      obtain ⟨-, rfl⟩ := arrive_move moved
      exact stopped
    | finishStream | peerReset =>
      cases moved
      exact stopped
  -- neither the shutdowns of `Stop` nor the end of a relay are taken back
  rcases ending with stop | stop | ⟨d, failed | failed⟩
  · rcases stopped (.inl stop) with h | h <;> simp [TearingDown, h]
  · rcases stopped (.inr stop) with h | h <;> simp [TearingDown, h]
  · exact .inr (.inr ⟨d, .inl (ended_step inv.control failed moved)⟩)
  · exact .inr (.inr ⟨d, .inr (ended_step inv.control failed moved)⟩)

/-- No relay is on a live socket while the session is torn down. -/
theorem Severed.not_onLiveSocket {s : State} (inv : Severed s) (ending : TearingDown s)
    (d : Side) : ¬OnLiveSocket s d := by
  intro live
  have cut := inv.cut ending (d := d)
  unfold OnLiveSocket at live
  split at live <;> simp_all [RelayPc.hasEnded]

/-- A relay that is running can always return from the call it is in. -/
theorem Severed.relay_ready {s : State} (inv : Severed s) (ending : TearingDown s) {d : Side}
    (started : (s.relay d).pc ≠ .notStarted) (running : (s.relay d).pc.hasEnded = false) :
    ∃ result t, SocketRules s (.relay d result) ∧ step s (.relay d result) = some t := by
  obtain ⟨source, destination⟩ := inv.cut ending running
  cases pc : (s.relay d).pc with
  | notStarted => exact absurd pc started
  | ended _ => simp [pc, RelayPc.hasEnded] at running
  | recv =>
    have readShut : (s.socket d).readShut = true := by
      simp only [Socket.shut, Bool.and_eq_true] at source
      exact source.1
    -- an error, the end of the stream or one more byte, as the socket rules have it
    by_cases failed : (s.socket d).failed = true
    · exact ⟨-1, _, by simp [SocketRules, CallRules, pc, failed],
        by simp [step, relayStep, pc, recvStep]; rfl⟩
    by_cases drained : (s.socket d).unread = 0
    · exact ⟨0, _, by simp [SocketRules, CallRules, pc, failed, drained],
        by simp [step, relayStep, pc, recvStep, readShut]; rfl⟩
    · have more : (s.socket d).taken + 1 ≤ (s.socket d).arrived.length := by
        simp only [Socket.unread] at drained
        omega
      exact ⟨1, _, by simp [SocketRules, CallRules, pc, failed],
        by simp [step, relayStep, pc, recvStep, bufferSize, more]; rfl⟩
  | send size sent =>
    exact ⟨-1, _, by simp [SocketRules, CallRules, pc],
      by simp [step, relayStep, pc, sendStep]; rfl⟩
  | shutdownWrite | afterRecvError | afterSendError | afterSourceShut =>
    exact ⟨0, _, by simp [SocketRules, CallRules, pc], by simp only [step, relayStep, pc]; rfl⟩

/-- As long as the session is not finished, some step of its own is possible. -/
theorem Severed.progress {s : State} (inv : Severed s) (ending : TearingDown s)
    (unfinished : s.finished = false) :
    ∃ a t, a.isOwn = true ∧ SocketRules s a ∧ step s a = some t := by
  have joining : ∀ d, s.worker.started d = true → (s.relay d).pc.hasEnded = false →
      ∃ a t, a.isOwn = true ∧ SocketRules s a ∧ step s a = some t := by
    intro d started running
    have running_pc : (s.relay d).pc ≠ .notStarted := by
      rw [ne_eq, inv.control.started d, started]
      decide
    obtain ⟨result, t, rules, moved⟩ := inv.relay_ready ending running_pc running
    exact ⟨.relay d result, t, rfl, rules, moved⟩
  cases pc : s.worker with
  | joinUpstream =>
    cases ended : (s.relay .client).pc.hasEnded with
    | false => exact joining .client (by simp [pc, WorkerPc.started]) ended
    | true => exact ⟨.worker, _, rfl, trivial, by simp [step, workerStep, pc, ended]; rfl⟩
  | joinDownstream =>
    cases ended : (s.relay .upstream).pc.hasEnded with
    | false => exact joining .upstream (by simp [pc, WorkerPc.started]) ended
    | true => exact ⟨.worker, _, rfl, trivial, by simp [step, workerStep, pc, ended]; rfl⟩
  | lock =>
    cases held : s.socketMutex with
    | none => exact ⟨.worker, _, rfl, trivial, by simp [step, workerStep, pc, held]; rfl⟩
    | some holder =>
      -- the mutex is free or `Stop` can go on and release it
      cases holder with
      | worker =>
        have := inv.exclusive.worker.mp held
        simp [pc, WorkerPc.locked] at this
      | stopper =>
        have locked := inv.exclusive.stopper.mp held
        refine ⟨.stop, ?_⟩
        cases stop : s.stopPc with
        | idle | lock | done => simp [stop, StopPc.locked] at locked
        | shutdown side =>
          cases side <;> exact ⟨_, rfl, trivial, by simp only [step, stopStep, stop]; rfl⟩
        | unlock => exact ⟨_, rfl, trivial, by simp only [step, stopStep, stop]; rfl⟩
  | close side =>
    have held : (s.socket side).held = true := by
      rw [inv.control.held side, pc]
      cases side <;> rfl
    exact ⟨.worker, _, rfl, trivial, by simp [step, workerStep, pc, held]; rfl⟩
  | invalidate side =>
    cases side <;> exact ⟨.worker, _, rfl, trivial, by simp only [step, workerStep, pc]; rfl⟩
  | startUpstream | startDownstream | unlock | finish =>
    exact ⟨.worker, _, rfl, trivial, by simp only [step, workerStep, pc]; rfl⟩
  | done => simp [inv.control.finished.mpr pc] at unfinished

theorem Control.closed_of_finished {s : State} (inv : Control s) (finished : s.finished = true)
    (d : Side) : (s.socket d).isOpen = false ∧ (s.relay d).pc.hasEnded = true := by
  have pc := inv.finished.mp finished
  refine ⟨?_, inv.joined d ?_⟩
  · rw [inv.isOpen d, pc]
    cases d <;> rfl
  · rw [pc]
    cases d <;> rfl

/-- Teardown never leaves a relay stuck. From any state of any run in which the
shutdowns of `Stop` are done or a relay has ended after an error, and however that run
goes on: no relay is in a call on a live socket, every relay that has started and not
ended can return from the call it is in, the session takes at most `remaining s` further
steps of its own, it can take one until `finished_` is set, and when `finished_` is set
both relays have ended and both descriptors are closed. -/
theorem session_teardown {s : State} (reached : session.Reach SocketRules s)
    (ending : TearingDown s) {as : List Action} {t : State}
    (admitted : session.Along (fun s a _ => SocketRules s a) s as)
    (result : session.run s as = some t) :
    (∀ d, ¬OnLiveSocket t d) ∧
    (∀ d, (t.relay d).pc ≠ .notStarted → (t.relay d).pc.hasEnded = false →
      ∃ r u, SocketRules t (.relay d r) ∧ step t (.relay d r) = some u) ∧
    as.countP Action.isOwn ≤ remaining s ∧
    (t.finished = false → ∃ a u, a.isOwn = true ∧ SocketRules t a ∧ step t a = some u) ∧
    (t.finished = true → ∀ d, (t.socket d).isOpen = false ∧ (t.relay d).pc.hasEnded = true) := by
  obtain ⟨⟨inv, still⟩, bound⟩ := Machine.Along.rank (P := fun s => Severed s ∧ TearingDown s)
    Action.isOwn remaining
    (fun _ _ _ before _ moved =>
      ⟨severed_step before.1 moved, tearingDown_step before.1 before.2 moved⟩)
    (fun _ _ _ before rules moved => remaining_step before.1 before.2 rules.silentWhenShut moved)
    ⟨severed_reached reached, ending⟩ admitted result
  refine ⟨fun d => inv.not_onLiveSocket still d, fun d started running =>
    inv.relay_ready still started running, by omega, inv.progress still, ?_⟩
  exact fun finished d => inv.control.closed_of_finished finished d

/-- `Stop` runs before either relay has begun, with a byte already buffered. -/
def stopFirst : List Action := [.arrive .client [7], .callStop, .stop, .stop, .stop]

/-- Both relays then end at once and `Run` closes up. -/
def closeUp : List Action :=
  [.worker, .worker, .relay .client 1, .relay .client (-1), .relay .client 0, .relay .client 0,
    .relay .upstream (-1), .relay .upstream 0, .stop] ++ List.replicate 9 .worker

theorem session_teardown_stop_first :
    ∃ s t, session.Reach SocketRules s ∧ TearingDown s ∧ session.run s closeUp = some t ∧
      t.finished = true ∧ ∀ d, (t.socket d).isOpen = false := by
  have stopped : (session.runIf SocketRules initial stopFirst).map (·.stopPc) = some .unlock := by
    decide +kernel
  have finished : ((session.runIf SocketRules initial stopFirst).bind
      (session.runIf SocketRules · closeUp)).map (·.finished) = some true := by
    decide +kernel
  obtain ⟨s, opened, stopped⟩ := Option.map_eq_some_iff.mp stopped
  obtain ⟨t, closed, finished⟩ := Option.map_eq_some_iff.mp finished
  rw [opened, Option.bind_some] at closed
  have ending : TearingDown s := .inl stopped
  have reached : session.Reach SocketRules s := Machine.Reach.runIf (.start rfl) opened
  obtain ⟨along, run⟩ := Machine.along_of_runIf closed
  obtain ⟨_, _, _, _, ended⟩ := session_teardown reached ending along run
  exact ⟨s, t, reached, ending, run, finished, fun d => (ended finished d).1⟩

end PortForwardX.Tcp
