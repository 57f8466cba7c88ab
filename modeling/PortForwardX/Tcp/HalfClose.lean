import PortForwardX.Tcp.Progress

/-!
# The end of a stream gets through

A peer that has finished sending may go on receiving. Its end of stream is handed on behind the
last of its bytes, and the opposite direction goes on for as long as the other peer likes. When
both directions are through, the session itself comes to its end.
-/
namespace PortForwardX.Tcp

open Transition

variable {s t : State} {a : Action} {d : Side}

/-- A stream has ended, and its relay is still at work on it. -/
structure Winding (d : Side) (s : State) : Prop where
  ended : (s.socket d).ended = true
  going : (s.relay d).pc.hasEnded = false

/-- A bound on the steps until the relay of `d` is over, the one that starts it included. -/
def unsent (d : Side) (s : State) : Nat := s.worker.work + (s.relay d).pc.work (s.socket d).unread

theorem relayStep_winding {e : Side} {result : Int} (winding : Winding d s)
    (moved : step s (.relay e result) = some t) : (t.relay d).pc.hasEnded = true ∨
      (Winding d t ∧ unsent d t + (if e = d then 1 else 0) ≤ unsent d s) := by
  have ended := step_ended moved winding.ended
  have move := relayStep_move moved
  obtain ⟨less, unread⟩ := relayStep_work move
  obtain ⟨worker, _, _, _, _, opposite, _⟩ := move.frame
  by_cases isOver : (t.relay d).pc.hasEnded = true
  · exact .inl isOver
  · refine .inr ⟨⟨ended, Bool.eq_false_iff.mpr isOver⟩, ?_⟩
    rcases Side.eq_or_other e d with rfl | rfl
    · rw [if_pos rfl, unsent, unsent, worker]
      omega
    · -- the other relay reads the other socket
      rw [if_neg e.other_ne.symm, unsent, unsent, worker, opposite, unread]
      exact Nat.le_refl _

theorem step_winding (reached : session.Reach Unfailing s) (winding : Winding d s)
    (admitted : Unfailing s a) (moved : step s a = some t) : (t.relay d).pc.hasEnded = true ∨
      (Winding d t ∧ unsent d t ≤ unsent d s ∧ (Drives d s a → unsent d t < unsent d s)) := by
  have ended := step_ended moved winding.ended
  cases a with
  | relay e result =>
    refine (relayStep_winding winding moved).imp_right fun ⟨still, spent⟩ => ⟨still, by omega, ?_⟩
    rintro ⟨own | ⟨r, own⟩, -⟩
    · cases own
    · rw [if_pos (Action.relay.inj own).1] at spent
      omega
  | worker =>
    right
    have move := workerStep_move moved
    have control := control_reached reached
    have worker := move.work
    have relay := move.relayWork control d (s.socket d).unread
    have going : (t.relay d).pc.hasEnded = false := by
      rw [← Bool.not_eq_true]
      intro isOver
      -- only a relay itself comes to its end
      rcases step_relay (d := d) moved (fun r => by simp) with same | ⟨recv, -⟩
      · rw [same, winding.going] at isOver
        cases isOver
      · rw [recv] at isOver
        cases isOver
    have less : unsent d t < unsent d s := by
      rw [unsent, unsent, move.unread]
      omega
    exact ⟨⟨ended, going⟩, Nat.le_of_lt less, fun _ => less⟩
  | callStop => exact absurd admitted Bool.false_ne_true
  | stop => simp [step, stopStep, (undisrupted_reached reached).noStop] at moved
  | arrive side bytes =>
    obtain ⟨open_, rfl⟩ := arrive_move moved
    right
    rcases Side.eq_or_other side d with rfl | rfl
    · -- nothing arrives behind the end of a stream
      rw [winding.ended] at open_
      cases open_
    · refine ⟨⟨ended, winding.going⟩, by simp [unsent], ?_⟩
      rintro ⟨own | ⟨r, own⟩, -⟩ <;> cases own
  | finishStream side | peerReset side =>
    cases moved
    refine .inr ⟨⟨ended, winding.going⟩, ?_, ?_⟩
    · rcases Side.eq_or_other side d with rfl | rfl <;> simp [unsent, Socket.unread]
    · rintro ⟨own | ⟨r, own⟩, -⟩ <;> cases own

/-- A relay whose stream has ended always has a step to take until it is over. -/
theorem winding_ready (reached : session.Reach Unfailing s) (winding : Winding d s) :
    ∃ a, Drives d s a ∧ session.step s a ≠ none := by
  have orderly := (undisrupted_reached reached).orderly d
  obtain ⟨p, carries⟩ := carries_reached reached d
  have held := carries.control
  cases pc : (s.relay d).pc with
  | notStarted => exact unstarted_ready (control_reached reached) pc
  | recv =>
    by_cases more : (s.socket d).taken < (s.socket d).arrived.length
    · exact recv_ready pc more
    · -- all is read, so `Recv` returns zero
      have all : (s.socket d).taken = (s.socket d).arrived.length :=
        Nat.le_antisymm carries.arrived (Nat.le_of_not_lt more)
      refine ⟨.relay d 0, ⟨.inr ⟨0, rfl⟩, by simp [Unfailing, unfailing, pc]⟩, ?_⟩
      simp [session, step, relayStep, pc, recvStep, winding.ended, all]
  | send size sent =>
    simp only [Matches, pc] at held
    exact send_ready pc (by omega)
  | shutdownWrite =>
    refine ⟨.relay d 0, ⟨.inr ⟨0, rfl⟩, by simp [Unfailing, unfailing, pc]⟩, ?_⟩
    simp [session, step, relayStep, pc]
  | ended ending => exact absurd (by rw [pc]; rfl) (Bool.eq_false_iff.mp winding.going)
  | afterRecvError | afterSendError | afterSourceShut =>
    rw [pc] at orderly
    exact orderly.elim

theorem eventually_ended (e : session.Execution Unfailing) (fair : e.Fair (Drives d)) {i : Nat}
    (ended : ((e.state i).socket d).ended = true) :
    ∃ j, i ≤ j ∧ ((e.state j).relay d).pc.hasEnded = true := by
  by_cases isOver : ((e.state i).relay d).pc.hasEnded = true
  · exact ⟨i, Nat.le_refl i, isOver⟩
  · exact e.eventually (Winding d) (fun s => (s.relay d).pc.hasEnded = true) (unsent d) fair
      (fun _ _ _ reached winding admitted moved => step_winding reached winding admitted moved)
      (fun _ reached winding => winding_ready reached winding)
      ⟨ended, Bool.eq_false_iff.mpr isOver⟩

/-! ### What the other peer sees -/

/-- A write side that is shut down stays so. -/
theorem step_writeShut {e : Side} (moved : step s a = some t)
    (shut : (s.socket e).writeShut = true) : (t.socket e).writeShut = true := by
  cases a with
  | relay d result =>
    cases relayStep_move moved <;> rcases Side.eq_or_other d e with rfl | rfl <;> simp [shut]
  | worker =>
    cases workerStep_move moved with
    | @close side _ _ => rcases Side.eq_or_other side e with rfl | rfl <;> simp [shut]
    | invalidateClient | invalidateUpstream => cases e <;> simp [shut]
    | _ => exact shut
  | callStop => rcases callStop_move moved with ⟨-, rfl⟩ | ⟨-, rfl⟩ <;> exact shut
  | stop =>
    cases stopStep_move moved <;> simp only [shutdownMember] <;> (try split) <;> cases e <;>
      simp [shut]
  | arrive side bytes =>
    obtain ⟨-, rfl⟩ := arrive_move moved
    rcases Side.eq_or_other side e with rfl | rfl <;> simp [shut]
  | finishStream side | peerReset side =>
    cases moved
    rcases Side.eq_or_other side e with rfl | rfl <;> simp [shut]

/-- A relay leaves its destination shut down for writing, however it ends. -/
theorem writeShut_reached {ok : State → Action → Prop} (reached : session.Reach ok s) :
    ∀ d, (s.relay d).pc.hasEnded = true → (s.socket d.other).writeShut = true := by
  induction reached with
  | start init =>
    intro d isOver
    rw [show _ = _ from init] at isOver
    cases isOver
  | @next s t a _ _ moved ih =>
    intro d isOver
    by_cases already : (s.relay d).pc.hasEnded = true
    · exact step_writeShut moved (ih d already)
    · by_cases own : ∃ result, a = .relay d result
      · obtain ⟨result, rfl⟩ := own
        cases relayStep_move moved <;> simp_all [RelayPc.hasEnded]
      · rcases step_relay (d := d) moved (fun r same => own ⟨r, same⟩) with same | ⟨recv, -⟩
        · rw [same] at isOver
          exact absurd isOver already
        · rw [recv] at isOver
          cases isOver

/-- While no call fails, only the end of a relay shuts its destination down for writing. -/
theorem step_writing (inv : Undisrupted s) (moved : step s a = some t)
    (writing : (s.socket d.other).writeShut = false) :
    (t.socket d.other).writeShut = false ∨ (t.relay d).pc.hasEnded = true := by
  cases a with
  | relay e result =>
    have orderly := inv.orderly e
    rcases Side.eq_or_other e d with rfl | rfl <;> cases relayStep_move moved <;>
      simp_all [RelayPc.Orderly, RelayPc.hasEnded]
  | worker =>
    left
    cases workerStep_move moved with
    | @close side _ _ => rcases Side.eq_or_other side d.other with rfl | same <;> simp_all
    | invalidateClient | invalidateUpstream => cases d <;> simpa [Side.other] using writing
    | _ => exact writing
  | callStop =>
    left
    rcases callStop_move moved with ⟨-, rfl⟩ | ⟨-, rfl⟩ <;> exact writing
  | stop => simp [step, stopStep, inv.noStop] at moved
  | arrive side bytes =>
    left
    obtain ⟨-, rfl⟩ := arrive_move moved
    rcases Side.eq_or_other side d.other with rfl | same <;> simp_all
  | finishStream side | peerReset side =>
    left
    cases moved
    rcases Side.eq_or_other side d.other with rfl | same <;> simp_all

theorem step_staysEnded (control : Control s) (moved : step s a = some t)
    (isOver : (s.relay d).pc.hasEnded = true) : (t.relay d).pc.hasEnded = true := by
  cases pc : (s.relay d).pc with
  | ended ending =>
    rw [ended_step control pc moved]
    rfl
  | _ => simp [pc, RelayPc.hasEnded] at isOver

/-- While no call fails, a socket can be written to until the relay that does so is over. -/
theorem writing_reached (reached : session.Reach Unfailing s) :
    ∀ d, (s.relay d).pc.hasEnded = false → (s.socket d.other).writeShut = false := by
  induction reached with
  | start init =>
    intro d _
    rw [show _ = _ from init]
    rfl
  | @next s t a before _ moved ih =>
    intro d going
    have control := control_reached before
    have earlier : (s.relay d).pc.hasEnded = false := by
      rw [← Bool.not_eq_true] at going ⊢
      exact fun isOver => going (step_staysEnded control moved isOver)
    refine (step_writing (undisrupted_reached before) moved (ih d earlier)).resolve_right ?_
    simp [going]

/-- Nothing more is sent in a direction whose relay is over. -/
theorem step_silent_of_ended (moved : step s a = some t)
    (isOver : (s.relay d).pc.hasEnded = true) : delivered d t.trace = delivered d s.trace := by
  apply step_silent moved
  rintro result rfl
  have going := (relayStep_move moved).frame.2.2.2.2.2.2.2.1
  exact absurd going (by simp [isOver])

/-- Half-close gets through. As long as no call fails, a peer that has finished sending has all
of its bytes sent to the other one, which then is told that no more will come, for good. No read
side is ever shut down, and until the opposite relay is over both sockets are open and the first
peer can be written to, so that the opposite direction goes on undisturbed. It is enough that
the relay of this direction and the thread that starts it are not held up for ever, as the relay
is in a `Send` to a peer that does not read; the other relay may wait for ever. -/
theorem half_close_passes (d : Side) (e : session.Execution Unfailing) (fair : e.Fair (Drives d))
    (i : Nat) (ended : ((e.state i).socket d).ended = true) :
    ∃ j, i ≤ j ∧ ∀ k, j ≤ k →
      delivered d (e.state k).trace = ((e.state k).socket d).arrived ∧
      ((e.state k).socket d.other).writeShut = true ∧
      (∀ side, ((e.state k).socket side).readShut = false) ∧
      (((e.state k).relay d.other).pc.hasEnded = false →
        (∀ side, ((e.state k).socket side).isOpen = true) ∧
        ((e.state k).socket d).writeShut = false) := by
  obtain ⟨j, later, isOver⟩ := eventually_ended e fair ended
  refine ⟨j, later, fun k after => ?_⟩
  have still : ((e.state k).relay d).pc.hasEnded = true :=
    e.stable (P := fun s => (s.relay d).pc.hasEnded = true)
      (fun _ _ _ reached moved now => step_staysEnded (control_reached reached) moved now)
      after isOver
  have inv := undisrupted_reached (e.reach k)
  obtain ⟨p, carries⟩ := carries_reached (e.reach k) d
  refine ⟨(carries.complete inv still).2, writeShut_reached (e.reach k) d still, inv.reading,
    fun going => ⟨fun side => ?_, ?_⟩⟩
  · by_contra closed
    rw [Bool.not_eq_true] at closed
    have isOver := ended_of_closed (control_reached (e.reach k)) closed d.other
    rw [going] at isOver
    cases isOver
  · have writing := writing_reached (e.reach k) d.other going
    rwa [Side.other_other] at writing

/-- The client sends two bytes and finishes. The upstream peer says nothing and stays. -/
def clientFinishes : List Action :=
  [.worker, .worker, .arrive .client [7, 8], .finishStream .client, .relay .client 2,
    .relay .client 2, .relay .client 0, .relay .client 0, .worker]

theorem half_close_passes_client :
    ∃ e : session.Execution Unfailing, e.Fair (Drives .client) ∧
      ((e.state 4).socket .client).ended = true ∧ delivered .client (e.state 4).trace = [] ∧
      ∃ j, 4 ≤ j ∧ ∀ k, j ≤ k →
        delivered .client (e.state k).trace = ((e.state k).socket .client).arrived ∧
        ((e.state k).socket .upstream).writeShut = true ∧
        (∀ side, ((e.state k).socket side).readShut = false) ∧
        (((e.state k).relay .upstream).pc.hasEnded = false →
          (∀ side, ((e.state k).socket side).isOpen = true) ∧
          ((e.state k).socket .client).writeShut = false) := by
  have result : (session.runIf Unfailing initial clientFinishes).map (fun s =>
      decide (s.worker = .joinDownstream ∧ (s.relay .client).pc = .ended .endOfStream ∧
        (s.relay .upstream).pc = .recv)) = some true := by
    decide +kernel
  obtain ⟨s, run, seen⟩ := Option.map_eq_some_iff.mp result
  obtain ⟨worker, pc, waits⟩ := of_decide_eq_true seen
  -- the worker waits for the other relay
  have quiet (a : Action) (drives : Drives .client s a) : session.step s a = none := by
    obtain ⟨rfl | ⟨r, rfl⟩, -⟩ := drives
    · simp [session, step, workerStep, worker, waits, RelayPc.hasEnded]
    · simp [session, step, relayStep, pc]
  have fair : (Machine.Execution.ofRun (m := session) rfl run).Fair (Drives .client) :=
    Machine.Execution.fair_ofRun _ _ quiet
  have early : (session.run initial (clientFinishes.take 4)).map (fun s =>
      decide ((s.socket .client).ended = true ∧ delivered .client s.trace = [])) =
        some true := by
    decide +kernel
  rw [Machine.Execution.ofRun_take (m := session) rfl run (by decide), Option.map_some,
    Option.some.injEq, decide_eq_true_eq] at early
  exact ⟨_, fair, early.1, early.2, half_close_passes .client _ fair 4 early.1⟩

/-! ### The end of the session -/

/-- Both relays are over and the worker has not returned. -/
structure Closable (s : State) : Prop where
  isOver : ∀ d, (s.relay d).pc.hasEnded = true
  running : s.worker ≠ .done

/-- Nothing holds the worker up then. -/
theorem closable_ready (reached : session.Reach Unfailing s) (closable : Closable s) :
    step s .worker ≠ none := by
  have exclusive := exclusive_reached reached
  cases pc : s.worker with
  | done => exact absurd pc closable.running
  | joinUpstream | joinDownstream => simp [step, workerStep, pc, closable.isOver]
  | lock =>
    -- nobody has called `Stop`
    have unlocked : s.socketMutex = none := by
      cases held : s.socketMutex with
      | none => rfl
      | some holder =>
        cases holder with
        | worker =>
          have locked := exclusive.worker.mp held
          simp [pc, WorkerPc.locked] at locked
        | stopper =>
          have locked := exclusive.stopper.mp held
          simp [(undisrupted_reached reached).noStop, StopPc.locked] at locked
    simp [step, workerStep, pc, unlocked]
  | close side =>
    simp only [step, workerStep, pc]
    split
    · simp
    · cases side <;> simp
  | invalidate side => cases side <;> simp [step, workerStep, pc]
  | startUpstream | startDownstream | unlock | finish => simp [step, workerStep, pc]

theorem eventually_done (e : session.Execution Unfailing) (fair : e.Fair (Drives d)) {i : Nat}
    (isOver : ∀ d, ((e.state i).relay d).pc.hasEnded = true) :
    ∃ j, i ≤ j ∧ (e.state j).worker = .done := by
  by_cases done : (e.state i).worker = .done
  · exact ⟨i, Nat.le_refl i, done⟩
  · apply e.eventually Closable (fun s => s.worker = .done) (fun s => s.worker.work) fair _ _
      ⟨isOver, done⟩
    · intro s t a reached closable _ moved
      have control := control_reached reached
      by_cases done : t.worker = .done
      · exact .inl done
      · refine .inr ⟨⟨fun d => step_staysEnded control moved (closable.isOver d), done⟩, ?_⟩
        by_cases own : a = .worker
        · subst own
          have less := (workerStep_move moved).work
          exact ⟨Nat.le_of_lt less, fun _ => less⟩
        · rw [(step_threads moved own).1]
          refine ⟨Nat.le_refl _, ?_⟩
          rintro ⟨rfl | ⟨r, rfl⟩, -⟩
          · exact absurd rfl own
          · -- a relay that is over takes no step
            have going := (relayStep_move moved).frame.2.2.2.2.2.2.2.1
            exact absurd going (by simp [closable.isOver d])
    · intro s reached closable
      exact ⟨.worker, ⟨.inl rfl, rfl⟩, closable_ready reached closable⟩

end PortForwardX.Tcp
