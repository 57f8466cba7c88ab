import PortForwardX.Transition.Fairness
import PortForwardX.Udp.Conservation
import PortForwardX.Udp.Ownership
import PortForwardX.Udp.Shutdown
import Mathlib.Algebra.BigOperators.Group.Finset.Basic
import Mathlib.Algebra.Order.BigOperators.Group.Finset
import Mathlib.Data.Prod.Lex

/-!
# `Stop` returns

Once `running_` is clear no thread goes round its loop again, and nobody waits for a thread
that waits. What is left to do shrinks with every step of a thread. A resolution that is
under way may still lengthen the target list, so the resolver thread comes first.
-/
namespace PortForwardX.Udp

open Transition Net

variable {p : Setup} {s t : State} {c c' : Cleanup} {a : Answer} {action : Action}
  {σ : SessionId}

/-- The action is a step of one of the forwarder's threads or of the `Stop` call. -/
def Action.ofThread : Action → Bool
  | .udp _ | .reply _ _ | .resolver _ | .stop _ => true
  | _ => false

/-- A call that need not return: `recvfrom` on a socket of another part of the process, which
may have no timeout. -/
def State.awaitsForeign (s : State) : Action → Bool
  | .udp _ => s.udp == .inRecv (some .foreign)
  | .reply σ _ => s.reply σ == .inRecv (some .foreign)
  | _ => false

/-- A thread is in such a call. -/
def Lost (s : State) : Prop :=
  s.udp = .inRecv (some .foreign) ∨ ∃ σ, s.reply σ = .inRecv (some .foreign)

/-- The steps of the forwarder's threads that come in time. -/
def Prompt (s : State) (action : Action) : Prop :=
  action.ofThread = true ∧ s.awaitsForeign action = false

/-! ### What is left to do -/

def CleanupPc.remaining : CleanupPc → Nat
  | .second .. => 8
  | .decide .. => 7
  | .evict .. => 6
  | .close _ => 3
  | .setInvalid _ => 2
  | .scan | .join _ => 1
  | .shutdown => 0

/-- An entry costs at most eight steps, and a session already removed four. -/
def Cleanup.remaining (c : Cleanup) : Nat :=
  8 * c.todo.length + 4 * c.closing.length + c.pc.remaining

/-- The UDP thread with `entries` sessions in the table and `endpoints` targets. A thread
with a datagram in hand may still enter a session and start its loop. -/
def UdpPc.remaining (entries endpoints : Nat) : UdpPc → Nat
  | .exited => 0
  | .cleaning c => c.remaining + 1 + if c.forceAll then 0 else 8 * entries + 4
  | .enterCleanup true => 8 * entries + 3
  | .enterCleanup false => 16 * entries + 7
  | .test | .retest => 8 * entries + 4
  | .start => 8 * entries + 5
  | .maybeCleanup => 16 * entries + 8
  | .sendTo _ _ => 16 * entries + 9
  | .storeActive _ _ _ => 16 * entries + 10
  | .readClock _ _ => 16 * entries + 11
  | .startThread _ _ => 16 * entries + 14
  | .emplace _ _ => 16 * entries + 39
  | .initActive _ _ => 16 * entries + 40
  | .createSocket _ left => 16 * entries + left.length + 41
  | .snapshot _ => 16 * entries + endpoints + 42
  | .lookup _ => 16 * entries + endpoints + 43
  | .inRecv _ => 16 * entries + endpoints + 44
  | .callRecv _ => 16 * entries + endpoints + 45
  | .readListen => 16 * entries + endpoints + 46

def ReplyPc.remaining : ReplyPc → Nat
  | .notStarted | .exited | .joined => 0
  | .leaving => 1
  | .testRunning => 2
  | .storeActive _ => 3
  | .readClock => 4
  | .callSend _ _ _ => 5
  | .readListen _ _ => 6
  | .inRecv _ => 7
  | .callRecv _ => 8
  | .readSocket => 9
  | .testMarked => 10

def StopPc.remaining (entries : Nat) : StopPc → Nat
  | .done => 0
  | .cleaning c => c.remaining + 1
  | .enterCleanup => 8 * entries + 3
  | .joinResolver => 8 * entries + 4
  | .joinUdp => 8 * entries + 5
  | .setListenInvalid => 8 * entries + 6
  | .closeListen => 8 * entries + 7
  | .shutdownListen => 8 * entries + 8
  | .idle => 8 * entries + 9

/-- What the reply loops have left. -/
def State.loopsRemaining (s : State) : Nat :=
  (Finset.range s.nextSession).sum fun σ => (s.reply σ).remaining

/-- What all threads but the resolver have left. -/
def State.remaining (s : State) : Nat :=
  s.udp.remaining s.udpSessions.length s.targetEndpoints.length +
    s.stop.remaining s.udpSessions.length + s.loopsRemaining

/-- The resolver's steps count more than any number of the others. -/
def State.rank (s : State) : Nat ×ₗ Nat := toLex (s.resolver.remaining, s.remaining)

/-! ### Reply loops -/

/-- One loop moves. -/
theorem State.loopsRemaining_lt (next : t.nextSession = s.nextSession) (made : σ < s.nextSession)
    (others : ∀ τ, τ ≠ σ → t.reply τ = s.reply τ)
    (lower : (t.reply σ).remaining < (s.reply σ).remaining) :
    t.loopsRemaining < s.loopsRemaining := by
  rw [State.loopsRemaining, State.loopsRemaining, next]
  refine Finset.sum_lt_sum (fun τ _ => ?_) ⟨σ, Finset.mem_range.mpr made, lower⟩
  by_cases own : τ = σ
  · exact own ▸ Nat.le_of_lt lower
  · rw [others τ own]

/-- No loop moves on by more than a join. -/
theorem State.loopsRemaining_eq (next : t.nextSession = s.nextSession)
    (same : ∀ τ, (t.reply τ).remaining = (s.reply τ).remaining) :
    t.loopsRemaining = s.loopsRemaining := by
  rw [State.loopsRemaining, State.loopsRemaining, next]
  exact Finset.sum_congr rfl fun τ _ => same τ

/-- A loop starts. -/
theorem State.loopsRemaining_start (made : σ < s.nextSession) (absent : s.reply σ = .notStarted) :
    (s.gotoReply σ .testRunning).loopsRemaining = s.loopsRemaining + 2 := by
  have member := Finset.mem_range.mpr made
  simp only [State.loopsRemaining, State.gotoReply]
  rw [← Finset.add_sum_erase _ _ member, ← Finset.add_sum_erase _ _ member]
  have rest : ((Finset.range s.nextSession).erase σ).sum
      (fun τ => (Function.update s.reply σ .testRunning τ).remaining) =
      ((Finset.range s.nextSession).erase σ).sum fun τ => (s.reply τ).remaining := by
    refine Finset.sum_congr rfl fun τ within => ?_
    rw [Function.update_of_ne (Finset.ne_of_mem_erase within)]
  rw [rest, Function.update_self, absent]
  simp only [ReplyPc.remaining]
  omega

theorem ReplyMove.spends (move : ReplyMove p s σ a t) (stopped : s.running = false) :
    (t.reply σ).remaining < (s.reply σ).remaining := by
  cases move with
  | testRunning pc => simp [pc, stopped, ReplyPc.remaining]
  | testMarked pc | recvFailed pc | sent pc =>
    simp only [State.gotoReply, State.log, Function.update_self, pc]
    split <;> simp [ReplyPc.remaining]
  | _ pc => simp [pc, ReplyPc.remaining]

/-! ### Cleanups, the UDP thread and `Stop` -/

theorem CleanMove.spends (move : CleanMove p s c t c') : c'.remaining < c.remaining := by
  cases move with
  | scanned pc todo => simp [Cleanup.remaining, pc, CleanupPc.remaining]
  | older pc todo | recent pc todo =>
    simp only [Cleanup.remaining, pc, todo, CleanupPc.remaining, List.length_cons]
    omega
  | evict pc =>
    simp only [Cleanup.remaining, pc, CleanupPc.remaining, List.length_append,
      List.length_singleton]
    omega
  | shutdown pc closing =>
    simp only [Cleanup.remaining, pc, closing, CleanupPc.remaining, List.length_cons]
    omega
  | _ pc => simp [Cleanup.remaining, pc, CleanupPc.remaining]

/-- A cleanup starts no loop, and a join costs a loop nothing. -/
theorem CleanMove.loops (move : CleanMove p s c t c') : t.loopsRemaining = s.loopsRemaining := by
  refine State.loopsRemaining_eq move.quiet.nextSession fun τ => ?_
  rcases move.frame.reply τ with same | ⟨ended, joined⟩
  · rw [same]
  · rw [ended, joined]
    rfl

theorem Cleanup.remaining_enter {forceAll : Bool} {now : UInt64}
    {entries : List (String × SessionId)} (order : entries.Perm s.udpSessions) :
    Cleanup.remaining ⟨forceAll, now, entries, [], .scan⟩ = 8 * s.udpSessions.length + 1 := by
  simp [Cleanup.remaining, CleanupPc.remaining, order.length_eq]

/-- Before its own cleanup `Stop` has eight steps more to take for each entry of the table. -/
theorem StopPc.remaining_le {stop : StopPc} {n m k : Nat} (unjoined : stop.udpJoined = false)
    (entries : n ≤ m + k) : stop.remaining n ≤ stop.remaining m + 8 * k := by
  cases stop with
  | cleaning | done | enterCleanup | joinResolver => simp [StopPc.udpJoined] at unjoined
  | _ =>
    simp only [StopPc.remaining]
    omega

theorem UdpMove.spends (move : UdpMove p s a t) (stopped : s.running = false)
    (indexed : Indexed p s) (threads : Threads s) :
    t.terminated = true ∨ t.remaining < s.remaining := by
  cases move with
  | noThread => exact .inl rfl
  | @clean _ c c' u pc unfinished move =>
    have spent := move.spends
    have table := move.quiet.table.length_le
    have loops : (u.goto (.cleaning c')).loopsRemaining = s.loopsRemaining := move.loops
    refine .inr ?_
    rw [State.remaining, State.remaining, loops]
    -- `Stop` waits for this thread, so its own cleanup has not begun
    have waits := StopPc.remaining_le (k := 0) (threads.unjoined (by simp [pc])) table
    simp only [State.goto, pc, UdpPc.remaining, move.frame.stop, move.forceAll]
    split <;> omega
  | @socketMade fd d endpoint rest pc free =>
    -- the new session has no loop yet
    have fresh := threads.unborn _ (Nat.le_refl s.nextSession)
    have loops : (Finset.range (s.nextSession + 1)).sum (fun σ => (s.reply σ).remaining) =
        s.loopsRemaining := by
      rw [Finset.sum_range_succ, fresh]
      rfl
    refine .inr ?_
    simp only [State.remaining, State.goto, State.log, State.newSession, State.openFd, pc,
      UdpPc.remaining, List.length_cons]
    rw [State.loopsRemaining, loops]
    omega
  | @startThread d σ pc =>
    obtain ⟨made, absent, -⟩ := threads.prepared σ (by rw [pc]; rfl)
    have loops := State.loopsRemaining_start made absent
    refine .inr ?_
    have same : State.loopsRemaining ((s.gotoReply σ .testRunning).returnSession d σ) =
      s.loopsRemaining + 2 := loops
    rw [State.remaining, State.remaining, same]
    simp only [State.returnSession, State.goto, State.log, State.gotoReply, pc, UdpPc.remaining]
    omega
  | @emplace _ d σ pc absent =>
    refine .inr ?_
    have waits := StopPc.remaining_le (threads.unjoined (by simp [pc]))
      (Nat.le_refl (s.udpSessions.length + 1))
    simp only [State.remaining, State.loopsRemaining, State.goto, pc, UdpPc.remaining,
      List.length_cons]
    omega
  | emplaced pc found => exact absurd found (indexed.not_emplaced pc)
  | @enterCleanup forceAll entries pc order =>
    refine .inr ?_
    simp only [State.remaining, State.loopsRemaining, State.goto, pc, UdpPc.remaining,
      Cleanup.remaining_enter order]
    cases forceAll <;> simp only [if_true, Bool.false_eq_true, if_false] <;> omega
  | @cleaned _ c pc finished =>
    refine .inr ?_
    simp only [State.remaining, State.loopsRemaining, State.goto, pc, UdpPc.remaining]
    cases c.forceAll <;> simp
  | test pc | retest pc =>
    refine .inr ?_
    simp [State.remaining, State.loopsRemaining, pc, stopped, UdpPc.remaining]
  | _ pc =>
    refine .inr ?_
    simp only [State.remaining, State.loopsRemaining, State.goto, State.log, State.returnSession,
      State.storeActive, State.modify, State.mark, pc, UdpPc.remaining, List.length_cons,
      List.length_nil]
    omega

theorem StopMove.spends (move : StopMove p s a t) (threads : Threads s) :
    t.stop = .done ∨ t.remaining < s.remaining := by
  cases move with
  | cleaned => exact .inl rfl
  | @clean _ c c' u pc unfinished move =>
    have spent := move.spends
    have ended := threads.exclusive (by rw [pc]; rfl)
    have loops : State.loopsRemaining { u with stop := .cleaning c' } = s.loopsRemaining :=
      move.loops
    refine .inr ?_
    rw [State.remaining, State.remaining, loops]
    simp only [pc, move.quiet.udp, ended, UdpPc.remaining, StopPc.remaining]
    omega
  | enterCleanup pc order =>
    refine .inr ?_
    simp only [State.remaining, State.loopsRemaining, pc, StopPc.remaining,
      Cleanup.remaining_enter order]
    omega
  | _ pc =>
    refine .inr ?_
    simp only [State.remaining, State.loopsRemaining, State.shutdownBoth, State.closeSocket, pc,
      StopPc.remaining]
    omega

theorem resolverStep_spends (moved : resolverStep p s a = some t) (stopped : s.running = false) :
    t.resolver.remaining < s.resolver.remaining := by
  rcases (resolverStep_resolves moved).2 with next | ⟨resolving, done⟩
  · exact ResolverPc.next_remaining (stopped ▸ next)
  · rw [resolving, done]
    exact Nat.lt_succ_self 1

/-- `Stop` has been called and has not returned. -/
structure Stopping (s : State) : Prop where
  called : s.stop ≠ .idle
  busy : s.stop ≠ .done
  alive : s.terminated = false

/-- A thread of the forwarder that moves after the call has less to do afterwards. -/
theorem Move.spends (move : Move p s action t) (reached : (forwarder p).Reach Machine.anyStep s)
    (moved : (forwarder p).step s action = some t) (stopped : s.running = false)
    (busy : t.stop ≠ .done) (alive : t.terminated = false) (own : action.ofThread = true) :
    t.rank < s.rank := by
  have threads := threads_reached reached
  by_cases resolving : ∃ a, action = .resolver a
  · obtain ⟨a, rfl⟩ := resolving
    have less := resolverStep_spends (step_resolver moved) stopped
    exact Prod.Lex.toLex_lt_toLex.mpr (.inl less)
  · -- nobody else touches the resolver's control point
    have resolver := (move.unresolved fun a same => resolving ⟨a, same⟩).2
    suffices less : t.remaining < s.remaining by
      rw [State.rank, State.rank, resolver]
      exact Prod.Lex.toLex_lt_toLex.mpr (.inr ⟨rfl, less⟩)
    cases move with
    | udp move =>
      have spent := move.spends stopped (indexed_reached reached) threads
      exact spent.resolve_left (by simp [alive])
    | @reply σ a t move =>
      have loops := State.loopsRemaining_lt move.quiet.nextSession (move.allocated threads)
        move.frame.reply (move.spends stopped)
      simp only [State.remaining, move.quiet.udp, move.frame.stop, move.frame.udpSessions,
        move.frame.targetEndpoints]
      omega
    | stop move => exact (move.spends threads).resolve_left busy
    | resolver => exact absurd ⟨_, rfl⟩ resolving
    | callStop | tick | foreignOpen | foreignClose => cases own

/-- Every thread that moves has less to do afterwards, and nobody else gives it more. -/
theorem step_spends (reached : (forwarder p).Reach Machine.anyStep s) (stopping : Stopping s)
    (moved : (forwarder p).step s action = some t) :
    (t.stop = .done ∨ t.terminated = true) ∨
      (Stopping t ∧ t.rank ≤ s.rank ∧ (action.ofThread = true → t.rank < s.rank)) := by
  have stopped : s.running = false := by
    rw [← Bool.not_eq_true, (shutdown_reached reached).running]
    exact stopping.called
  by_cases ended : t.stop = .done ∨ t.terminated = true
  · exact .inl ended
  · rw [not_or, Bool.not_eq_true] at ended
    obtain ⟨busy, alive⟩ := ended
    have move := step_move moved
    have called : t.stop ≠ .idle := by
      intro idle
      by_cases call : action = .callStop
      · subst call
        cases move
        cases idle
      · exact stopping.called ((move.stops call).1.mp idle)
    have strict := move.spends reached moved stopped busy alive
    refine .inr ⟨⟨called, busy, alive⟩, ?_, strict⟩
    cases action with
    | udp | reply | resolver | stop => exact le_of_lt (strict rfl)
    | callStop =>
      cases move with
      | callStop pc => exact absurd pc stopping.called
    | tick | foreignOpen | foreignClose =>
      cases move
      exact le_refl _

/-! ### Nobody waits for ever -/

/-- A receive on a socket of the forwarder comes back, since it has a timeout, and one on a
number that is closed with an error. -/
theorem recvfrom_returns (s : State) {socket : Option Owner} (own : socket ≠ some .foreign) :
    ∃ a r, recvfrom s socket a = some r := by
  cases socket with
  | none => exact ⟨.error .badDescriptor, _, rfl⟩
  | some owner =>
    cases owner with
    | foreign => exact absurd rfl own
    | listen | upstream => exact ⟨.error .wouldBlock, _, rfl⟩

/-- A reply loop that runs can take a step. -/
theorem replyStep_ready (started : s.reply σ ≠ .notStarted) (running : s.reply σ ≠ .exited)
    (unjoined : s.reply σ ≠ .joined) (own : s.reply σ ≠ .inRecv (some .foreign)) :
    ∃ a, replyStep p s σ a ≠ none := by
  unfold replyStep
  cases pc : s.reply σ with
  | notStarted => exact absurd pc started
  | exited => exact absurd pc running
  | joined => exact absurd pc unjoined
  | inRecv socket =>
    obtain ⟨a, r, answer⟩ := recvfrom_returns s
      fun (foreign : socket = some .foreign) => own (foreign ▸ pc)
    refine ⟨a, ?_⟩
    simp only [answer]
    split <;> simp_all
  | callSend => exact ⟨.error .timedOut, by simp⟩
  | callRecv socket => cases socket <;> exact ⟨.none, by simp⟩
  | _ => exact ⟨.none, by simp⟩

/-- The session whose loop the UDP thread waits for. -/
def UdpPc.joining : UdpPc → Option SessionId
  | .cleaning c =>
    match c.pc with
    | .join σ => some σ
    | _ => none
  | _ => none

theorem UdpPc.joining_eq_some {pc : UdpPc} :
    pc.joining = some σ ↔ ∃ c, pc = .cleaning c ∧ c.pc = .join σ := by
  cases pc with
  | cleaning c => cases here : c.pc <;> simp [joining, here]
  | _ => simp [joining]

/-- A cleanup can go on, or it waits for a reply loop that can or that is in a call that need
not return. -/
theorem cleanStep_ready (unfinished : c.finished = false) :
    cleanStep p s c ≠ none ∨ ∃ σ, c.pc = .join σ ∧
      (s.reply σ = .inRecv (some .foreign) ∨ ∃ a, replyStep p s σ a ≠ none) := by
  unfold cleanStep
  cases pc : c.pc with
  | scan =>
    refine .inl ?_
    cases todo : c.todo with
    | nil => simp
    | cons entry rest =>
      simp only
      split <;> simp
  | shutdown =>
    refine .inl ?_
    cases closing : c.closing with
    | nil => simp [Cleanup.finished, pc, closing] at unfinished
    | cons σ rest => simp
  | join σ =>
    simp only
    by_cases waits : s.reply σ ≠ .notStarted ∧ s.reply σ ≠ .exited ∧ s.reply σ ≠ .joined
    · obtain ⟨started, running, unjoined⟩ := waits
      refine .inr ⟨σ, rfl, ?_⟩
      by_cases lost : s.reply σ = .inRecv (some .foreign)
      · exact .inl lost
      · exact .inr (replyStep_ready started running unjoined lost)
    · refine .inl ?_
      split <;> simp_all
  | decide =>
    refine .inl ?_
    simp only
    split <;> simp
  | _ => exact .inl (by simp)

/-- The UDP thread can go on until it has ended, or it waits for a reply loop. -/
theorem udpStep_ready (alive : s.udp ≠ .exited) (own : s.udp ≠ .inRecv (some .foreign)) :
    (∃ a, udpStep p s a ≠ none) ∨ ∃ σ, s.udp.joining = some σ ∧
      (s.reply σ = .inRecv (some .foreign) ∨ ∃ a, replyStep p s σ a ≠ none) := by
  unfold udpStep
  cases pc : s.udp with
  | exited => exact absurd pc alive
  | inRecv socket =>
    obtain ⟨a, r, answer⟩ := recvfrom_returns s
      fun (foreign : socket = some .foreign) => own (foreign ▸ pc)
    refine .inl ⟨a, ?_⟩
    simp only [answer]
    split <;> simp_all
  | lookup =>
    refine .inl ⟨.none, ?_⟩
    simp only
    split <;> simp
  | createSocket d endpoints =>
    refine .inl ⟨.error .timedOut, ?_⟩
    cases endpoints with
    | nil => simp [createStep]
    | cons endpoint rest =>
      simp only [createStep]
      split <;> simp
  | emplace =>
    refine .inl ⟨.none, ?_⟩
    simp only
    split <;> simp
  | startThread => exact .inl ⟨.started true, by simp⟩
  | sendTo => exact .inl ⟨.error .timedOut, by simp [sendStep]⟩
  | maybeCleanup =>
    refine .inl ⟨.none, ?_⟩
    simp only
    split <;> simp
  | enterCleanup => exact .inl ⟨.order s.udpSessions, by simp [List.isPerm_iff]⟩
  | cleaning c =>
    by_cases finished : c.finished = true
    · exact .inl ⟨.none, by simp [finished]⟩
    · refine (cleanStep_ready (p := p) (s := s) (by simpa using finished)).imp (fun ready => ?_)
        fun ⟨σ, joins, ready⟩ => ⟨σ, UdpPc.joining_eq_some.mpr ⟨c, rfl, joins⟩, ready⟩
      exact ⟨.none, by simpa [finished] using ready⟩
  | _ => exact .inl ⟨.none, by simp⟩

theorem resolverStep_ready (alive : s.resolver ≠ .exited) : ∃ a, resolverStep p s a ≠ none := by
  unfold resolverStep
  cases pc : s.resolver with
  | exited => exact absurd pc alive
  | refresh =>
    refine ⟨.resolved (.failed ""), ?_⟩
    simp only
    split <;> simp
  | test => exact ⟨.none, by simp [ResolverPc.next]⟩
  | sleep elapsed =>
    refine ⟨.none, ?_⟩
    simp only [ResolverPc.next, ne_eq, Option.map_eq_none_iff]
    split
    next => split <;> simp
    next => simp

/-- The `Stop` call can go on, or the thread it waits for can, or a loop that one waits for,
unless one of them is in a call that need not return. -/
theorem stop_ready (stopping : Stopping s) :
    Lost s ∨ ∃ action, Prompt s action ∧ (forwarder p).step s action ≠ none := by
  by_cases lost : Lost s
  · exact .inl lost
  rw [Lost, not_or, not_exists] at lost
  obtain ⟨awake, loops⟩ := lost
  refine .inr ?_
  have alive := stopping.alive
  have loop : (∃ σ, s.reply σ = .inRecv (some .foreign) ∨ ∃ a, replyStep p s σ a ≠ none) →
      ∃ action : Action, Prompt s action ∧ (forwarder p).step s action ≠ none := by
    rintro ⟨σ, lost | ⟨a, ready⟩⟩
    · exact absurd lost (loops σ)
    · exact ⟨.reply σ a, ⟨rfl, by simpa [State.awaitsForeign] using loops σ⟩,
        by simpa [forwarder, step, alive] using ready⟩
  have own : (∃ a, stopStep p s a ≠ none) →
      ∃ action : Action, Prompt s action ∧ (forwarder p).step s action ≠ none := by
    rintro ⟨a, ready⟩
    exact ⟨.stop a, ⟨rfl, rfl⟩, by simpa [forwarder, step, alive] using ready⟩
  cases pc : s.stop with
  | idle => exact absurd pc stopping.called
  | done => exact absurd pc stopping.busy
  | joinUdp =>
    by_cases ended : s.udp = .exited
    · exact own ⟨.none, by simp [stopStep, pc, ended]⟩
    · rcases udpStep_ready (p := p) ended awake with ⟨a, ready⟩ | ⟨σ, -, ready⟩
      · exact ⟨.udp a, ⟨rfl, by simpa [State.awaitsForeign] using awake⟩,
          by simpa [forwarder, step, alive] using ready⟩
      · exact loop ⟨σ, ready⟩
  | joinResolver =>
    by_cases ended : s.resolver = .exited
    · exact own ⟨.none, by simp [stopStep, pc, ended]⟩
    · obtain ⟨a, ready⟩ := resolverStep_ready (p := p) ended
      exact ⟨.resolver a, ⟨rfl, rfl⟩, by simpa [forwarder, step, alive] using ready⟩
  | enterCleanup => exact own ⟨.order s.udpSessions, by simp [stopStep, pc, List.isPerm_iff]⟩
  | cleaning c =>
    by_cases finished : c.finished = true
    · exact own ⟨.none, by simp [stopStep, pc, finished]⟩
    · rcases cleanStep_ready (p := p) (s := s) (by simpa using finished) with
        ready | ⟨σ, -, ready⟩
      · exact own ⟨.none, by simpa [stopStep, pc, finished] using ready⟩
      · exact loop ⟨σ, ready⟩
  | _ => exact own ⟨.none, by simp [stopStep, pc]⟩

/-- A thread that is in such a call comes out of it by a step of its own. -/
theorem lost_kept (lost : Lost s) (moved : (forwarder p).step s action = some t) :
    Lost t ∨ action.ofThread = true := by
  cases step_move moved with
  | udp | reply | resolver | stop => exact .inr rfl
  | callStop | tick | foreignOpen | foreignClose => exact .inl lost

/-! ### The end -/

/-- Nothing of the forwarder runs or is open. -/
structure Over (p : Setup) (s : State) : Prop where
  stop : s.stop = .done
  udp : s.udp = .exited
  resolver : s.resolver = .exited
  loops : ∀ σ, s.reply σ = if σ < s.nextSession then .joined else .notStarted
  table : s.udpSessions = []
  sockets : ∀ fd owner, s.fds fd = some owner → owner = .foreign
  still : ∀ action, action.ofThread = true → (forwarder p).step s action = none

/-- An answer that no call asks for is not looked at. -/
theorem udpStep_unasked (moved : udpStep p s (.started false) = some t)
    (alive : t.terminated = false) : udpStep p s .none = some t := by
  unfold udpStep at moved ⊢
  cases pc : s.udp with
  | startThread =>
    simp only [pc, Option.some.injEq] at moved
    simp [← moved] at alive
  | inRecv socket => cases socket <;> simp [pc, recvfrom] at moved
  | createSocket d endpoints =>
    simp only [pc] at moved ⊢
    cases endpoints with
    | nil => exact moved
    | cons endpoint rest =>
      simp only [createStep] at moved ⊢
      split at moved
      next long => rwa [if_pos long]
      · cases moved
  | sendTo | enterCleanup => simp [pc, sendStep] at moved
  | _ => simpa only [pc] using moved

/-- A process that is alive has been able to start its threads. -/
theorem starting_of_alive (reached : (forwarder p).Reach Machine.anyStep s)
    (alive : s.terminated = false) :
    (forwarder p).Reach (fun _ action => action ≠ .udp (.started false)) s := by
  induction reached with
  | start init => exact .start init
  | @next s t action _ _ moved ih =>
    have before := ih (step_alive moved)
    by_cases throws : action = .udp (.started false)
    · subst throws
      refine .next (a := .udp .none) before (by simp) ?_
      have own : udpStep p s (.started false) = some t := by
        simpa [forwarder, step, step_alive moved] using moved
      simpa [forwarder, step, step_alive moved] using udpStep_unasked own alive
    · exact .next before throws moved

theorem over_of_done (reached : (forwarder p).Reach Machine.anyStep s)
    (alive : s.terminated = false) (done : s.stop = .done) : Over p s := by
  have threads := threads_reached reached
  obtain ⟨-, listening, udp, resolver⟩ := (shutdown_reached reached).gone done
  obtain ⟨n, watched⟩ : ∃ n, WatchedStarting p (s, n) :=
    (starting_of_alive reached alive).observe fun _ _ => ⟨{}, rfl⟩
  have conserving : Conserving s n := conserving_reached watched
  obtain ⟨table, closed, loops⟩ := conserving.stopped threads done
  refine ⟨done, udp, resolver, loops, table, fun fd owner named => ?_, fun action own => ?_⟩
  · cases owner with
    | foreign => rfl
    | listen =>
      have held := (listening_reached reached fd named).1
      rw [listening] at held
      cases held
    | upstream σ => exact absurd named (closed fd σ)
  · rw [Option.eq_none_iff_forall_ne_some]
    intro t moved
    have move := step_move moved
    cases move with
    | udp move => exact move.alive udp
    | @reply σ a t move =>
      have looping := loops σ
      rw [if_pos (move.allocated threads)] at looping
      have moved : replyStep p s σ a = some t := by
        simpa [forwarder, step, alive] using moved
      simp [replyStep, looping] at moved
    | resolver => exact (resolverStep_frame (step_resolver moved)).1 resolver
    | stop move => cases move <;> simp_all
    | _ => cases own

/-- `Stop` does its work once, and no thread is started after it. -/
theorem step_done (reached : (forwarder p).Reach Machine.anyStep s)
    (moved : (forwarder p).step s action = some t) (done : s.stop = .done)
    (alive : s.terminated = false) : t.stop = .done ∧ t.terminated = false := by
  have move := step_move moved
  constructor
  · by_cases call : action = .callStop
    · subst call
      cases move with
      | callStop pc => simp [pc] at done
    · exact (move.stops call).2.1 done
  · by_contra ended
    have throws := (move.terminates alive).mp (by simpa using ended)
    have exited := ((shutdown_reached reached).gone done).2.2.1
    simp [threadThrows, exited, UdpPc.starting] at throws

/-- The process has ended by moment `j`, since a thread could not be started. -/
structure Killed {ok : State → Action → Prop} (e : (forwarder p).Execution ok) (j : Nat) : Prop where
  ended : (e.state j).terminated = true
  cause : ∃ k < j, ∃ a, e.action k = some a ∧ threadThrows (e.state k) a = true

theorem killed {ok : State → Action → Prop} (e : (forwarder p).Execution ok) {j : Nat}
    (ended : (e.state j).terminated = true) : Killed e j := by
  refine ⟨ended, ?_⟩
  rcases e.violated_or_reach (fun s a => threadThrows s a = false) j with
    ⟨k, earlier, a, acted, throws⟩ | starts
  · exact ⟨k, earlier, a, acted, by simpa using throws⟩
  · rw [unterminated_reached starts] at ended
    cases ended

/-- Once `Stop` has been called it returns, and then every thread of the forwarder has been
joined and every socket of it is closed, for good. There are two exceptions, where nothing
outside the forwarder ends the process. It may end because a thread cannot be started. And a
thread may stay for ever in `recvfrom` on a number that was closed under it and stands for a
socket of another part of the process, for only the forwarder's own sockets have a timeout. This
takes no more than that the other steps of the forwarder's threads are not all held up for ever
while one of them is possible: a name resolution comes back, and so does a `sendto`, which raises
no signal. -/
theorem udp_stop_returns (p : Setup) (e : (forwarder p).Execution Machine.anyStep)
    (fair : e.Fair Prompt) (i : Nat) (called : (e.state i).stop ≠ .idle) :
    ∃ j, i ≤ j ∧ (Killed e j ∨ (∀ k, j ≤ k → Over p (e.state k)) ∨
      ∀ k, j ≤ k → Lost (e.state k)) := by
  have returns : ∃ j, i ≤ j ∧ (((e.state j).stop = .done ∨ (e.state j).terminated = true) ∨
      ∀ k, j ≤ k → Lost (e.state k)) := by
    by_cases isOver : (e.state i).stop = .done ∨ (e.state i).terminated = true
    · exact ⟨i, Nat.le_refl i, .inl isOver⟩
    · rw [not_or, Bool.not_eq_true] at isOver
      -- the rank of the threads' remaining work, until `Stop` has returned
      refine e.eventually_or_stuck Stopping (fun s => s.stop = .done ∨ s.terminated = true)
        State.rank Lost fair ?_ ?_ (fun _ _ stopping => stop_ready stopping)
        ⟨called, isOver.1, isOver.2⟩
      · exact fun s t a reached stopping _ moved =>
          (step_spends reached stopping moved).imp_right
            fun ⟨still, le, lt⟩ => ⟨still, le, fun prompt => lt prompt.1⟩
      · intro s t a reached stopping _ moved lost
        rcases step_spends reached stopping moved with done | ⟨-, -, lt⟩
        · exact .inl done
        · exact .inr ((lost_kept lost moved).imp_right lt)
  obtain ⟨j, later, (done | ended) | lost⟩ := returns
  · refine ⟨j, later, ?_⟩
    by_cases ended : (e.state j).terminated = true
    · exact .inl (killed e ended)
    · refine .inr (.inl fun k after => ?_)
      -- a forwarder that has stopped neither stops again nor starts a thread
      have still : (e.state k).stop = .done ∧ (e.state k).terminated = false :=
        e.stable (P := fun s => s.stop = .done ∧ s.terminated = false)
          (fun _ _ _ reached moved now => step_done reached moved now.1 now.2) after
          ⟨done, Bool.eq_false_iff.mpr ended⟩
      exact over_of_done (e.reach k) still.2 still.1
  · exact ⟨j, later, .inl (killed e ended)⟩
  · exact ⟨j, later, .inr (.inr lost)⟩

/-- A client with a session, and then `Stop`, which finds the UDP thread in its loop. -/
def stopWithSession : List Action :=
  Sample.oneClient ++
    [.callStop, .stop .none, .stop .none, .stop .none, .udp .none, .reply 0 .none,
      .reply 0 .none] ++
    .udp (.order [("192.0.2.1:40000", 0)]) :: List.replicate 9 (.udp .none) ++
    [.resolver .none, .stop .none, .stop .none, .stop (.order []), .stop .none, .stop .none]

/-- The session's loop is told, waited for and joined. -/
theorem udp_stop_returns_session :
    ∃ e : (forwarder Sample.setup).Execution Machine.anyStep,
      e.Fair Prompt ∧ (e.state 16).stop = .shutdownListen ∧ (e.state 16).listed = [0] ∧
        ∃ j, 16 ≤ j ∧ (Killed e j ∨ (∀ k, j ≤ k → Over Sample.setup (e.state k)) ∨
          ∀ k, j ≤ k → Lost (e.state k)) := by
  have result : ((forwarder Sample.setup).runIf Machine.anyStep Sample.initial
      stopWithSession).map (fun s => decide (s.stop = .done ∧ s.terminated = false)) =
        some true := by
    decide +kernel
  obtain ⟨s, run, seen⟩ := Option.map_eq_some_iff.mp result
  obtain ⟨done, alive⟩ := of_decide_eq_true seen
  have isOver : Over Sample.setup s :=
    over_of_done (Machine.Reach.runIf (.start Sample.initial_init) run) alive done
  have fair : (Machine.Execution.ofRun Sample.initial_init run).Fair Prompt :=
    Machine.Execution.fair_ofRun _ _ fun action prompt => isOver.still action prompt.1
  -- the moment after the call
  have early : ((forwarder Sample.setup).run Sample.initial (stopWithSession.take 16)).map
      (fun s => decide (s.stop = .shutdownListen ∧ s.listed = [0])) = some true := by
    decide +kernel
  rw [Machine.Execution.ofRun_take Sample.initial_init run (by decide), Option.map_some,
    Option.some.injEq, decide_eq_true_eq] at early
  obtain ⟨called, listed⟩ := early
  refine ⟨_, fair, called, listed, udp_stop_returns _ _ fair 16 ?_⟩
  rw [called]
  exact StopPc.noConfusion

end PortForwardX.Udp
