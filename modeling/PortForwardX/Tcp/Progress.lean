import PortForwardX.Tcp.Fidelity
import PortForwardX.Tcp.Lifetime
import PortForwardX.Tcp.Pending
import PortForwardX.Transition.Fairness

/-!
# A session gets on

The two relays wait for their own sockets only. Each delivers what has arrived for it even if
the other is held up for ever.
-/
namespace PortForwardX.Tcp

open Transition Conduit

variable {s t : State} {a : Action} {d : Side} {n : Nat}

/-! ### One direction -/

/-- The steps that the relay which reads `d` takes, and those of the thread that starts it. -/
def Drives (d : Side) (s : State) (a : Action) : Prop :=
  (a = .worker ∨ ∃ result, a = .relay d result) ∧ Unfailing s a

/-- The first `n` bytes of the source of `d` have arrived and not all of them are through. -/
structure Behind (d : Side) (n : Nat) (s : State) : Prop where
  arrived : n ≤ (s.socket d).arrived.length
  waiting : (delivered d s.trace).length < n

/-- A step of the relay for which there is nothing to receive and nothing to send. -/
def RelayPc.turns : RelayPc → Nat
  | .notStarted => 2
  | .recv => 1
  | _ => 0

/-- What is left to do until `n` bytes are through: every byte takes at most one `Send`. -/
def overdue (d : Side) (n : Nat) (s : State) : Nat :=
  s.worker.work + 2 * (n - (delivered d s.trace).length) + (s.relay d).pc.turns

theorem delivered_append (before after : List Call) :
    delivered d (before ++ after) = delivered d before ++ delivered d after :=
  List.flatMap_append

/-- Only the relay of a direction sends in it. -/
theorem step_silent (moved : step s a = some t) (other : ∀ result, a ≠ .relay d result) :
    delivered d t.trace = delivered d s.trace := by
  cases a with
  | relay e result =>
    rcases Side.eq_or_other e d with rfl | rfl
    · exact absurd rfl (other result)
    · have same := relayStep_untouched (d := e.other) (by simpa [step] using moved)
      rw [← acceptedBy_history, ← acceptedBy_history, same.calls]
  | worker =>
    cases workerStep_move moved with
    | close =>
      change delivered d (s.trace ++ [.close _]) = _
      rw [delivered_append]
      simp [delivered]
    | _ => rfl
  | stop =>
    cases stopStep_move moved <;> simp only [shutdownMember] <;> (try split) <;>
      simp [delivered]
  | callStop => rcases callStop_move moved with ⟨-, rfl⟩ | ⟨-, rfl⟩ <;> rfl
  | arrive side bytes =>
    obtain ⟨-, rfl⟩ := arrive_move moved
    rfl
  | finishStream side | peerReset side =>
    cases moved
    rfl

/-- What is sent in a direction is the beginning of what has arrived for it. -/
theorem delivered_arrived {ok : State → Action → Prop} (reached : session.Reach ok s) :
    delivered d s.trace <+: (s.socket d).arrived := by
  obtain ⟨p, carries⟩ := carries_reached reached d
  obtain ⟨-, out⟩ := Pipe.run_empty carries.replay
  rw [acceptedBy_history] at out
  have whole : p.accepted <+: p.taken := List.prefix_append _ _
  rw [carries.source] at whole
  rw [out]
  exact whole.trans (List.take_prefix _ _)

/-- A relay that holds nothing back has delivered all it has received. -/
theorem Carries.caught_up {p : Pipe UInt8 bufferSize} (carries : Carries d s p)
    (dry : p.pending = []) :
    delivered d s.trace = (s.socket d).arrived.take (s.socket d).taken := by
  obtain ⟨-, out⟩ := Pipe.run_empty carries.replay
  rw [acceptedBy_history] at out
  rw [out, ← carries.source, Pipe.taken, dry, List.append_nil]

/-- While bytes are overdue their relay is in its loop. -/
theorem Behind.in_loop (behind : Behind d n s) (inv : Undisrupted s)
    (carried : ∃ p, Carries d s p) : (s.relay d).pc = .notStarted ∨ (s.relay d).pc = .recv ∨
      ∃ size sent, (s.relay d).pc = .send size sent := by
  obtain ⟨p, carries⟩ := carried
  have orderly := inv.orderly d
  have control := carries.control
  -- outside the loop the whole source is through
  have through (dry : p.pending = []) (exhausted : Exhausted d s) : False := by
    have all := carries.caught_up dry
    rw [exhausted.2, List.take_length] at all
    have waiting := behind.waiting
    rw [all] at waiting
    exact absurd behind.arrived (Nat.not_le_of_lt waiting)
  cases pc : (s.relay d).pc with
  | notStarted => exact .inl rfl
  | recv => exact .inr (.inl rfl)
  | send size sent => exact .inr (.inr ⟨size, sent, rfl⟩)
  | shutdownWrite =>
    rw [pc] at orderly
    simp only [Matches, pc] at control
    exact (through control.2 orderly).elim
  | ended ending =>
    rw [pc] at orderly
    cases ending with
    | endOfStream =>
      simp only [Matches, pc] at control
      exact (through (p.drained control) orderly).elim
    | recvFailed | sendFailed => exact orderly.elim
  | afterRecvError | afterSendError | afterSourceShut =>
    rw [pc] at orderly
    exact orderly.elim

/-- A chunk that `Send` accepts is through. -/
theorem delivered_send {s t : State} {chunk : List UInt8}
    (calls : t.trace = s.trace ++ [.send d.other chunk]) :
    delivered d t.trace = delivered d s.trace ++ chunk := by
  rw [calls, delivered_append]
  simp [delivered]

theorem sent_overdue {k : Nat} {chunk : List UInt8} {size sent : Nat} (behind : Behind d n s)
    (pc : (s.relay d).pc = .send size sent) (calls : t.trace = s.trace ++ [.send d.other chunk])
    (length : chunk.length = k) (positive : 0 < k) (worker : t.worker = s.worker)
    (arrived : (t.socket d).arrived = (s.socket d).arrived) (turns : (t.relay d).pc.turns ≤ 1) :
    n ≤ (delivered d t.trace).length ∨ (Behind d n t ∧ overdue d n t < overdue d n s) := by
  have all := congrArg List.length (delivered_send calls)
  rw [List.length_append, length] at all
  by_cases through : n ≤ (delivered d t.trace).length
  · exact .inl through
  · have waiting := behind.waiting
    refine .inr ⟨⟨arrived ▸ behind.arrived, Nat.lt_of_not_le through⟩, ?_⟩
    have sending : (s.relay d).pc.turns = 0 := by
      rw [pc]
      rfl
    rw [overdue, overdue, worker, all, sending]
    omega

theorem relayStep_overdue {result : Int} (behind : Behind d n s) (inv : Undisrupted s)
    (carried : ∃ p, Carries d s p) (admitted : Unfailing s (.relay d result))
    (moved : RelayMove s d result t) :
    n ≤ (delivered d t.trace).length ∨ (Behind d n t ∧ overdue d n t < overdue d n s) := by
  have loop := behind.in_loop inv carried
  obtain ⟨p, carries⟩ := carried
  have control := carries.control
  cases moved with
  | recvEnd pc drained =>
    -- bytes that have arrived are received before the end
    simp only [Matches, pc] at control
    have all := congrArg List.length (carries.caught_up control.2)
    have arrived := behind.arrived
    have waiting := behind.waiting
    rw [List.length_take] at all
    rcases drained with ⟨-, whole⟩ | shut
    · omega
    · rw [inv.reading d] at shut
      cases shut
  | recvError pc negative =>
    simp only [Unfailing, unfailing, pc, decide_eq_true_eq] at admitted
    omega
  | recvChunk pc positive fits available =>
    have same (chunk : List UInt8) : delivered d (s.trace ++ [.recv d chunk]) =
        delivered d s.trace := by
      rw [delivered_append]
      simp [delivered]
    refine .inr ⟨⟨?_, ?_⟩, ?_⟩
    · simpa using behind.arrived
    · simpa [same] using behind.waiting
    · simp [overdue, same, pc, RelayPc.turns]
  | sendError pc refused =>
    simp only [Unfailing, unfailing, pc, decide_eq_true_eq] at admitted
    omega
  | sendPart pc positive remains =>
    simp only [Matches, pc] at control
    exact sent_overdue behind pc rfl (sent_chunk_length control.2.2.1 (by omega)) positive rfl
      (by simp) (by simp [RelayPc.turns])
  | sendRest pc positive fits last =>
    simp only [Matches, pc] at control
    exact sent_overdue behind pc rfl (sent_chunk_length control.2.2.1 fits) positive rfl
      (by simp) (by simp [RelayPc.turns])
  | shutdownWrite pc | abandonDestination pc | abandonSource pc | abandonBoth pc =>
    simp [pc] at loop

/-- The relay of the other direction, the peers and `Stop` do not set this direction back. -/
theorem others_overdue (behind : Behind d n s) (same : Untouched d s t)
    (worker : t.worker = s.worker) : Behind d n t ∧ overdue d n t = overdue d n s := by
  have through : delivered d t.trace = delivered d s.trace := by
    rw [← acceptedBy_history, ← acceptedBy_history, same.calls]
  refine ⟨⟨same.arrived ▸ behind.arrived, through ▸ behind.waiting⟩, ?_⟩
  rw [overdue, overdue, worker, through, same.relay]

/-- What the worker does to a direction. -/
theorem workerStep_overdue (behind : Behind d n s) (control : Control s)
    (stepped : step s .worker = some t) : Behind d n t ∧ overdue d n t < overdue d n s := by
  have moved := workerStep_move stepped
  have work := moved.work
  have through : delivered d t.trace = delivered d s.trace := step_silent stepped (by simp)
  have arrived : (t.socket d).arrived = (s.socket d).arrived := by
    cases moved with
    | @close side _ _ => rcases Side.eq_or_other side d with rfl | rfl <;> simp
    | invalidateClient | invalidateUpstream => cases d <;> simp
    | _ => rfl
  have turns : (t.relay d).pc.turns ≤ (s.relay d).pc.turns := by
    cases moved with
    | startUpstream pc =>
      have fresh := (control.started .client).mpr (by rw [pc]; rfl)
      cases d <;> simp [fresh, RelayPc.turns]
    | startDownstream pc =>
      have fresh := (control.started .upstream).mpr (by rw [pc]; rfl)
      cases d <;> simp [fresh, RelayPc.turns]
    | _ => exact Nat.le_refl _
  refine ⟨⟨arrived ▸ behind.arrived, through ▸ behind.waiting⟩, ?_⟩
  rw [overdue, overdue, through]
  omega

theorem step_overdue (reached : session.Reach Unfailing s) (behind : Behind d n s)
    (admitted : Unfailing s a) (moved : step s a = some t) :
    n ≤ (delivered d t.trace).length ∨ (Behind d n t ∧ overdue d n t ≤ overdue d n s ∧
      (Drives d s a → overdue d n t < overdue d n s)) := by
  have inv := undisrupted_reached reached
  have carried := carries_reached reached d
  -- the rule for a step that is none of this direction's
  have idle (same : Untouched d s t) (worker : t.worker = s.worker)
      (other : ¬ Drives d s a) : Behind d n t ∧ overdue d n t ≤ overdue d n s ∧
      (Drives d s a → overdue d n t < overdue d n s) := by
    obtain ⟨still, equal⟩ := others_overdue behind same worker
    exact ⟨still, equal.le, fun drives => absurd drives other⟩
  cases a with
  | relay e result =>
    have move := relayStep_move moved
    rcases Side.eq_or_other e d with rfl | rfl
    · exact (relayStep_overdue behind inv carried admitted move).imp_right
        fun ⟨still, less⟩ => ⟨still, Nat.le_of_lt less, fun _ => less⟩
    · refine .inr (idle ?_ move.frame.1 ?_)
      · exact relayStep_untouched (d := e.other) (by simpa [step] using moved)
      · rintro ⟨own | ⟨r, own⟩, -⟩ <;> simp at own
  | worker =>
    obtain ⟨still, less⟩ := workerStep_overdue behind (control_reached reached) moved
    exact .inr ⟨still, Nat.le_of_lt less, fun _ => less⟩
  | callStop => exact absurd admitted Bool.false_ne_true
  | stop => simp [step, stopStep, inv.noStop] at moved
  | arrive side bytes =>
    obtain ⟨-, rfl⟩ := arrive_move moved
    refine .inr ?_
    rcases Side.eq_or_other side d with rfl | rfl
    · -- more arrives behind the bytes that are waited for
      refine ⟨⟨?_, behind.waiting⟩, Nat.le_refl _, ?_⟩
      · have arrived := behind.arrived
        simp only [State.setSocket, Function.update_self, List.length_append]
        omega
      · rintro ⟨own | ⟨r, own⟩, -⟩ <;> cases own
    · refine idle ⟨rfl, rfl, by simp, by simp⟩ rfl ?_
      rintro ⟨own | ⟨r, own⟩, -⟩ <;> cases own
  | finishStream side | peerReset side =>
    cases moved
    refine .inr (idle ?_ rfl ?_)
    · rcases Side.eq_or_other side d with rfl | rfl <;> constructor <;> simp
    · rintro ⟨own | ⟨r, own⟩, -⟩ <;> cases own

/-- A relay that has not started will be started by the worker. -/
theorem unstarted_ready (control : Control s) (pc : (s.relay d).pc = .notStarted) :
    ∃ a, Drives d s a ∧ session.step s a ≠ none := by
  refine ⟨.worker, ⟨.inl rfl, rfl⟩, ?_⟩
  have unstarted := (control.started d).mp pc
  cases worker : s.worker with
  | startUpstream | startDownstream => simp [session, step, workerStep, worker]
  | _ => simp [worker, WorkerPc.started] at unstarted

/-- What has arrived can be received. -/
theorem recv_ready (pc : (s.relay d).pc = .recv)
    (more : (s.socket d).taken < (s.socket d).arrived.length) :
    ∃ a, Drives d s a ∧ session.step s a ≠ none := by
  refine ⟨.relay d 1, ⟨.inr ⟨1, rfl⟩, by simp [Unfailing, unfailing, pc]⟩, ?_⟩
  have available : (s.socket d).taken + 1 ≤ (s.socket d).arrived.length := more
  simp [session, step, relayStep, pc, recvStep, bufferSize, available]

/-- A chunk that is not through can be sent on. -/
theorem send_ready {size sent : Nat} (pc : (s.relay d).pc = .send size sent)
    (room : sent < size) : ∃ a, Drives d s a ∧ session.step s a ≠ none := by
  refine ⟨.relay d 1, ⟨.inr ⟨1, rfl⟩, by simp [Unfailing, unfailing, pc]⟩, ?_⟩
  have fits : 1 ≤ size - sent := by omega
  by_cases last : sent + 1 < size
  · simp [session, step, relayStep, pc, sendStep, fits, last]
  · simp [session, step, relayStep, pc, sendStep, fits, last]

/-- While bytes are overdue, the relay can take a step or the worker can start it. -/
theorem overdue_ready (reached : session.Reach Unfailing s) (behind : Behind d n s) :
    ∃ a, Drives d s a ∧ session.step s a ≠ none := by
  have inv := undisrupted_reached reached
  obtain ⟨p, carries⟩ := carries_reached reached d
  have held := carries.control
  rcases behind.in_loop inv ⟨p, carries⟩ with pc | pc | ⟨size, sent, pc⟩
  · exact unstarted_ready (control_reached reached) pc
  · apply recv_ready pc
    simp only [Matches, pc] at held
    have all := congrArg List.length (carries.caught_up held.2)
    have waiting := behind.waiting
    have arrived := behind.arrived
    rw [List.length_take] at all
    omega
  · simp only [Matches, pc] at held
    exact send_ready pc (by omega)

/-- What arrives comes behind what has arrived, and nothing else changes it. -/
theorem step_arrives (moved : step s a = some t) :
    (t.socket d).arrived = (s.socket d).arrived ∨ ∃ more, a = .arrive d more ∧
      (s.socket d).ended = false ∧ (t.socket d).arrived = (s.socket d).arrived ++ more := by
  cases a with
  | relay e result =>
    left
    cases relayStep_move moved <;> rcases Side.eq_or_other e d with rfl | rfl <;> simp
  | worker =>
    left
    cases workerStep_move moved with
    | @close side _ _ => rcases Side.eq_or_other side d with rfl | rfl <;> simp
    | invalidateClient | invalidateUpstream => cases d <;> simp
    | _ => rfl
  | callStop =>
    left
    rcases callStop_move moved with ⟨-, rfl⟩ | ⟨-, rfl⟩ <;> rfl
  | stop =>
    left
    cases stopStep_move moved <;> simp only [shutdownMember] <;> (try split) <;> cases d <;> simp
  | arrive side more =>
    obtain ⟨going, rfl⟩ := arrive_move moved
    rcases Side.eq_or_other side d with rfl | rfl
    · exact .inr ⟨more, rfl, going, by simp⟩
    · exact .inl (by simp)
  | finishStream side | peerReset side =>
    left
    cases moved
    rcases Side.eq_or_other side d with rfl | rfl <;> simp

theorem step_arrived {bytes : List UInt8} (moved : step s a = some t)
    (before : bytes <+: (s.socket d).arrived) : bytes <+: (t.socket d).arrived := by
  rcases step_arrives (d := d) moved with same | ⟨more, -, -, longer⟩
  · rwa [same]
  · rw [longer]
    exact before.trans (List.prefix_append _ _)

/-- What has arrived gets through. -/
theorem eventually_delivered (e : session.Execution Unfailing) (fair : e.Fair (Drives d)) {i : Nat}
    (arrived : n ≤ ((e.state i).socket d).arrived.length) :
    ∃ j, i ≤ j ∧ n ≤ (delivered d (e.state j).trace).length := by
  by_cases already : n ≤ (delivered d (e.state i).trace).length
  · exact ⟨i, Nat.le_refl i, already⟩
  · exact e.eventually (Behind d n) (fun s => n ≤ (delivered d s.trace).length) (overdue d n) fair
      (fun _ _ _ reached behind admitted moved => step_overdue reached behind admitted moved)
      (fun _ reached behind => overdue_ready reached behind) ⟨arrived, Nat.lt_of_not_le already⟩

/-- As long as no call fails, every byte that has arrived on a socket is eventually sent to the
other one, in order, whatever becomes of the opposite direction: it is enough that the relay of
this direction and the thread that starts it are not held up for ever, as the relay is in a
`Send` to a peer that does not read. -/
theorem bytes_delivered (d : Side) (e : session.Execution Unfailing) (fair : e.Fair (Drives d))
    (i : Nat) :
    ∃ j, i ≤ j ∧ ((e.state i).socket d).arrived <+: delivered d (e.state j).trace := by
  obtain ⟨j, later, long⟩ := eventually_delivered e fair (Nat.le_refl _)
  refine ⟨j, later, ?_⟩
  -- both are beginnings of what has arrived by then
  have source : ((e.state i).socket d).arrived <+: ((e.state j).socket d).arrived :=
    e.stable (P := fun s => ((e.state i).socket d).arrived <+: (s.socket d).arrived)
      (fun _ _ _ _ moved before => step_arrived moved before) later (List.prefix_refl _)
  exact List.prefix_of_prefix_length_le source (delivered_arrived (e.reach j)) long

/-- Two bytes of the client, sent on one at a time. The relay of the other direction never gets
a turn. -/
def twoBytes : List Action :=
  [.worker, .worker, .arrive .client [7, 8], .relay .client 2, .relay .client 1, .relay .client 1]

theorem bytes_delivered_two :
    ∃ e : session.Execution Unfailing, e.Fair (Drives .client) ∧
      ((e.state 3).socket .client).arrived = [7, 8] ∧ delivered .client (e.state 3).trace = [] ∧
      ∃ j, 3 ≤ j ∧
        ((e.state 3).socket .client).arrived <+: delivered .client (e.state j).trace := by
  have result : (session.runIf Unfailing initial twoBytes).map (fun s =>
      decide (s.worker = .joinUpstream ∧ (s.relay .client).pc = .recv ∧
        (s.socket .client).ended = false ∧ (s.socket .client).readShut = false ∧
        (s.socket .client).taken = (s.socket .client).arrived.length)) = some true := by
    decide +kernel
  obtain ⟨s, run, seen⟩ := Option.map_eq_some_iff.mp result
  obtain ⟨worker, pc, open_, reading, all⟩ := of_decide_eq_true seen
  -- the relay waits for the client and the worker for the relay
  have quiet (a : Action) (drives : Drives .client s a) : session.step s a = none := by
    obtain ⟨rfl | ⟨r, rfl⟩, admitted⟩ := drives
    · simp [session, step, workerStep, worker, pc, RelayPc.hasEnded]
    · simp only [Unfailing, unfailing, pc, decide_eq_true_eq] at admitted
      by_cases zero : r = 0
      · simp [session, step, relayStep, pc, recvStep, zero, open_, reading]
      · have more : ¬ (s.socket .client).taken + r.toNat ≤ (s.socket .client).arrived.length := by
          omega
        simp [session, step, relayStep, pc, recvStep, zero, Int.not_lt.mpr admitted, more]
  have fair : (Machine.Execution.ofRun (m := session) rfl run).Fair (Drives .client) :=
    Machine.Execution.fair_ofRun _ _ quiet
  have early : (session.run initial (twoBytes.take 3)).map (fun s =>
      decide ((s.socket .client).arrived = [7, 8] ∧ delivered .client s.trace = [])) =
        some true := by
    decide +kernel
  rw [Machine.Execution.ofRun_take (m := session) rfl run (by decide), Option.map_some,
    Option.some.injEq, decide_eq_true_eq] at early
  exact ⟨_, fair, early.1, early.2, bytes_delivered .client _ fair 3⟩

/-! ### The ends of the streams -/

/-- A stream ends when its peer finishes it. -/
theorem step_ends (moved : step s a = some t) (ended : (t.socket d).ended = true) :
    (s.socket d).ended = true ∨ a = .finishStream d := by
  cases a with
  | relay e result =>
    left
    cases relayStep_move moved <;> rcases Side.eq_or_other e d with rfl | rfl <;>
      simpa using ended
  | worker =>
    left
    cases workerStep_move moved with
    | @close side _ _ => rcases Side.eq_or_other side d with rfl | rfl <;> simpa using ended
    | invalidateClient | invalidateUpstream => cases d <;> simpa using ended
    | _ => exact ended
  | callStop =>
    left
    rcases callStop_move moved with ⟨-, rfl⟩ | ⟨-, rfl⟩ <;> exact ended
  | stop =>
    left
    cases stopStep_move moved <;> simp only [shutdownMember] at ended <;> (try split at ended) <;>
      cases d <;> simpa using ended
  | arrive side bytes =>
    obtain ⟨-, rfl⟩ := arrive_move moved
    left
    rcases Side.eq_or_other side d with rfl | rfl <;> simpa using ended
  | finishStream side =>
    cases moved
    rcases Side.eq_or_other side d with rfl | rfl
    · exact .inr rfl
    · exact .inl (by simpa using ended)
  | peerReset side =>
    cases moved
    left
    rcases Side.eq_or_other side d with rfl | rfl <;> simpa using ended

/-- A stream that has ended stays so. -/
theorem step_ended (moved : step s a = some t) (ended : (s.socket d).ended = true) :
    (t.socket d).ended = true := by
  cases a with
  | relay e result =>
    cases relayStep_move moved <;> rcases Side.eq_or_other e d with rfl | rfl <;> simpa
  | worker =>
    cases workerStep_move moved with
    | @close side _ _ => rcases Side.eq_or_other side d with rfl | rfl <;> simpa
    | invalidateClient | invalidateUpstream => cases d <;> simpa
    | _ => exact ended
  | callStop => rcases callStop_move moved with ⟨-, rfl⟩ | ⟨-, rfl⟩ <;> exact ended
  | stop =>
    cases stopStep_move moved <;> simp only [shutdownMember] <;> (try split) <;> cases d <;> simpa
  | arrive side bytes =>
    obtain ⟨-, rfl⟩ := arrive_move moved
    rcases Side.eq_or_other side d with rfl | rfl <;> simpa
  | finishStream side | peerReset side =>
    cases moved
    rcases Side.eq_or_other side d with rfl | rfl <;> simp [ended]

/-- A socket is closed after both relays have ended. -/
theorem ended_of_closed (control : Control s) {side : Side}
    (closed : (s.socket side).isOpen = false) (d : Side) : (s.relay d).pc.hasEnded = true := by
  refine control.joined d ?_
  rw [control.isOpen] at closed
  cases pc : s.worker with
  | close e | invalidate e => cases e <;> cases side <;> simp_all [WorkerPc.closed, WorkerPc.joined]
  | _ => cases d <;> cases side <;> simp_all [WorkerPc.closed, WorkerPc.joined]

end PortForwardX.Tcp
