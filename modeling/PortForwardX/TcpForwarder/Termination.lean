import PortForwardX.Transition.Fairness
import PortForwardX.TcpForwarder.Waiting
import Mathlib.Algebra.BigOperators.Group.Finset.Basic
import Mathlib.Data.Prod.Lex

/-!
# What is left to do

After `running_` is clear the accept thread finishes what it is at, at most one connection
more. The peers of the sessions may go on sending for as long as they like: nothing of the
forwarder waits for a relay before `Stop` has shut its sockets down. Four counts fall, in
this order: resolutions that may still lengthen the target list, steps of the accept thread,
sessions that are not torn down yet, and what is then left to do.
-/
namespace PortForwardX.TcpForwarder

open Transition Net

variable {p : Setup} {s t : State} {c c' : Cleanup} {a : Answer} {action : Action}
  {ref r : SessionRef}

/-- Fewer than `2 ^ 64` connections, and nothing more arrives on a socket of a session after
`ShutdownBoth`. -/
def Ruled (s : State) (action : Action) : Prop :=
  FewConnections s action ∧
    match action with
    | .session ref a => Tcp.SilentWhenShut (s.heap ref).state a
    | _ => True

instance decidableRuled (s : State) : ∀ action, Decidable (Ruled s action)
  | .session ref a =>
    inferInstanceAs (Decidable (_ ∧ Tcp.SilentWhenShut (s.heap ref).state a))
  | .accept _ | .workerThrows _ | .resolver _ | .callStop | .stop _ =>
    inferInstanceAs (Decidable (_ ∧ True))

/-- The steps that `Stop` depends on. The relays of a live session are not among them. -/
def Urgent (s : State) : Action → Prop
  | .accept _ | .resolver _ | .stop _ => True
  | .session ref a => Tcp.Pending (s.heap ref).state a
  | _ => False

/-! ### What is left to do -/

/-- A cleanup with `entries` sessions in the map: five steps for an entry, three for a session
it has taken out. -/
def Cleanup.remaining (entries : Nat) (c : Cleanup) : Nat :=
  match c.pc with
  | .lock => 5 * entries + 3 * c.finishedSessions.length + 6
  | .scan => 5 * c.todo.length + 3 * c.finishedSessions.length + 5
  | .erase _ _ => 5 * c.todo.length + 3 * c.finishedSessions.length + 9
  | .unlock => 3 * c.finishedSessions.length + 4
  | .join rest => rest.length + 2 * c.finishedSessions.length + 3
  | .destroy rest => 2 * rest.length + 1
  | .inDestructor _ rest => 2 * rest.length + 2

/-- One if the accept thread may still resolve the target itself. -/
def AcceptPc.resolutions : AcceptPc → Nat
  | .callAccept | .snapshot _ _ | .refresh _ _ => 1
  | .cleanup c => if c.afterLoop then 0 else 1
  | _ => 0

/-- The accept thread with `entries` sessions in the map and `endpoints` targets. -/
def AcceptPc.remaining (entries endpoints : Nat) : AcceptPc → Nat
  | .exited => 0
  | .cleanup c =>
    if c.afterLoop then c.remaining entries + 1
    else c.remaining entries + 5 * entries + 3 * endpoints + 27
  | .test | .retest => 5 * entries + 8
  | .start _ | .closeClient _ => 5 * entries + 9
  | .unlock _ => 5 * entries + 10
  | .insertPeer _ _ _ => 5 * entries + 11
  | .insertSession _ _ _ => 5 * entries + 17
  | .make _ _ _ _ => 5 * entries + 18
  | .count _ _ _ => 5 * entries + 19
  | .lock _ _ _ => 5 * entries + 20
  | .makeSocket _ _ left => 5 * entries + 3 * left.length + 22
  | .closeCandidate _ _ _ left => 5 * entries + 3 * left.length + 23
  | .connect _ _ _ left => 5 * entries + 3 * left.length + 24
  | .snapshotAgain _ _ => 5 * entries + 3 * endpoints + 23
  | .refresh _ _ => 5 * entries + 3 * endpoints + 24
  | .snapshot _ _ => 5 * entries + 3 * endpoints + 25
  | .callAccept => 5 * entries + 3 * endpoints + 26

def StopPc.remaining (entries : Nat) : StopPc → Nat
  | .done => 0
  | .destroy rest => 2 * rest.length + 1
  | .inDestructor _ rest => 2 * rest.length + 2
  | .unlockAgain sessions => 2 * sessions.length + 2
  | .clearPeers sessions => 2 * sessions.length + 3
  | .clearSessions sessions => 2 * sessions.length + 4
  | .lockAgain sessions => 2 * sessions.length + 5
  | .joinEach sessions rest => 2 * sessions.length + rest.length + 6
  | .stopEach sessions rest => 3 * sessions.length + 2 * rest.length + 7
  | .inStop sessions _ rest => 3 * sessions.length + 2 * rest.length + 8
  | .unlock sessions => 5 * sessions.length + 8
  | .copy => 5 * entries + 9
  | .lock => 5 * entries + 10
  | .joinResolver => 5 * entries + 11
  | .joinAccept => 5 * entries + 12
  | .setListenInvalid => 5 * entries + 13
  | .closeListen => 5 * entries + 14
  | .shutdownListen => 5 * entries + 15
  | .idle => 5 * entries + 16

/-- A count over the sessions made so far. -/
def State.total (f : Tcp.State → Nat) (s : State) : Nat :=
  (Finset.range s.nextRef).sum fun ref => f (s.heap ref).state

def State.resolutions (s : State) : Nat := s.resolver.remaining + s.accept.resolutions

def State.accepting (s : State) : Nat :=
  s.accept.remaining s.sessions.length s.targetEndpoints.length

def State.pending (s : State) : Nat :=
  s.stop.remaining s.sessions.length + s.total Tcp.State.pending

def State.rank (s : State) : Nat ×ₗ Nat ×ₗ Nat ×ₗ Nat :=
  toLex (s.resolutions, toLex (s.accepting, toLex (s.total Tcp.State.live, s.pending)))

/-- A step that settles one of the first two counts, or leaves them and does the rest. -/
theorem rank_lt_of_accepting (first : t.resolutions ≤ s.resolutions)
    (second : t.resolutions = s.resolutions → t.accepting < s.accepting) : t.rank < s.rank := by
  refine Prod.Lex.toLex_lt_toLex.mpr ?_
  rcases Nat.lt_or_eq_of_le first with less | same
  · exact .inl less
  · exact .inr ⟨same, Prod.Lex.toLex_lt_toLex.mpr (.inl (second same))⟩

theorem rank_of_sessions (first : t.resolutions = s.resolutions)
    (second : t.accepting = s.accepting)
    (sessions : t.total Tcp.State.live < s.total Tcp.State.live ∨
      (t.total Tcp.State.live = s.total Tcp.State.live ∧ t.pending ≤ s.pending ∧
        (Urgent s action → t.pending < s.pending))) :
    t.rank ≤ s.rank ∧ (Urgent s action → t.rank < s.rank) := by
  simp only [State.rank, first, second, Prod.Lex.toLex_le_toLex, Prod.Lex.toLex_lt_toLex,
    lt_irrefl, false_or, true_and]
  rcases sessions with less | ⟨same, lower, strict⟩
  · exact ⟨.inl less, fun _ => .inl less⟩
  · exact ⟨.inr ⟨same, lower⟩, fun urgent => .inr ⟨same, strict urgent⟩⟩

/-! ### Sessions -/

theorem State.total_eq (f : Tcp.State → Nat) (made : t.nextRef = s.nextRef)
    (state : ∀ r, (t.heap r).state = (s.heap r).state) : t.total f = s.total f := by
  rw [State.total, State.total, made]
  exact Finset.sum_congr rfl fun r _ => by rw [state]

/-- One session goes on. -/
theorem State.total_one (f : Tcp.State → Nat) (made : t.nextRef = s.nextRef)
    (old : ref < s.nextRef) (others : ∀ r, r ≠ ref → (t.heap r).state = (s.heap r).state) :
    t.total f + f (s.heap ref).state = s.total f + f (t.heap ref).state := by
  have member := Finset.mem_range.mpr old
  have rest : ((Finset.range s.nextRef).erase ref).sum (fun r => f (t.heap r).state) =
      ((Finset.range s.nextRef).erase ref).sum fun r => f (s.heap r).state :=
    Finset.sum_congr rfl fun r within => by rw [others r (Finset.ne_of_mem_erase within)]
  rw [State.total, State.total, made, ← Finset.add_sum_erase _ _ member,
    ← Finset.add_sum_erase _ _ member, rest]
  omega

/-- What one step of a session does to the counts. -/
theorem State.total_spends {b : Tcp.Action} (made : t.nextRef = s.nextRef)
    (old : ref < s.nextRef) (others : ∀ r, r ≠ ref → (t.heap r).state = (s.heap r).state)
    (severed : Tcp.Severed (s.heap ref).state) (silent : Tcp.SilentWhenShut (s.heap ref).state b)
    (moved : Tcp.step (s.heap ref).state b = some (t.heap ref).state) :
    t.total Tcp.State.live < s.total Tcp.State.live ∨
      (t.total Tcp.State.live = s.total Tcp.State.live ∧
        t.total Tcp.State.pending ≤ s.total Tcp.State.pending ∧
        (Tcp.Pending (s.heap ref).state b →
          t.total Tcp.State.pending < s.total Tcp.State.pending)) := by
  have live := State.total_one Tcp.State.live made old others
  have pending := State.total_one Tcp.State.pending made old others
  rcases Tcp.step_pending severed silent moved with less | ⟨same, lower, strict⟩
  · exact .inl (by omega)
  · refine .inr ⟨by omega, by omega, fun chosen => ?_⟩
    have less := strict chosen
    omega

/-! ### The accept thread -/

theorem CleanupMove.spends (move : CleanupMove s c a t c') :
    c'.remaining t.sessions.length < c.remaining s.sessions.length ∧
      t.sessions.length ≤ s.sessions.length ∧ t.targetEndpoints = s.targetEndpoints ∧
      t.resolver = s.resolver := by
  cases move with
  | lock pc free order =>
    refine ⟨?_, Nat.le_refl _, rfl, rfl⟩
    simp only [Cleanup.remaining, pc, order.length_eq]
    omega
  | scanned pc todo | joined pc =>
    refine ⟨?_, Nat.le_refl _, rfl, rfl⟩
    simp only [Cleanup.remaining, pc, List.length_nil]
    omega
  | spare pc todo | condemn pc todo =>
    refine ⟨?_, Nat.le_refl _, rfl, rfl⟩
    simp only [Cleanup.remaining, pc, todo, List.length_cons]
    omega
  | erase pc =>
    refine ⟨?_, List.length_filter_le _ _, rfl, rfl⟩
    simp only [Cleanup.remaining, pc, List.length_append, List.length_singleton]
    omega
  | unlock pc | destroy pc =>
    refine ⟨?_, Nat.le_refl _, rfl, rfl⟩
    simp only [Cleanup.remaining, pc, List.length_cons]
    omega
  | join pc moved | destructor pc _ moved =>
    obtain ⟨heap, joins, rfl⟩ := State.join_frame moved
    refine ⟨?_, Nat.le_refl _, rfl, rfl⟩
    simp only [Cleanup.remaining, pc, List.length_cons]
    omega

/-- A step of the accept thread, once it is to leave its loop. -/
theorem AcceptMove.spends (move : AcceptMove p s a t) (stopped : s.running = false) :
    t.terminated = true ∨ (t.resolver = s.resolver ∧
      (t.accept.resolutions < s.accept.resolutions ∨
        (t.accept.resolutions = s.accept.resolutions ∧ t.accepting < s.accepting))) := by
  cases move with
  | throws => exact .inl rfl
  | clean pc unfinished move =>
    obtain ⟨spent, fewer, endpoints, resolver⟩ := move.spends
    refine .inr ⟨resolver, .inr ⟨?_, ?_⟩⟩
    · simp [AcceptPc.resolutions, pc, move.serving.2.2]
    · simp only [State.accepting, State.goto, pc, AcceptPc.remaining, move.serving.2.2, endpoints]
      split <;> omega
  | @cleaned _ c pc finished =>
    refine .inr ⟨rfl, ?_⟩
    cases inside : c.afterLoop with
    | true => exact .inr ⟨by simp [AcceptPc.resolutions, pc, inside], by
        simp [State.accepting, AcceptPc.remaining, pc, inside]⟩
    | false =>
      refine .inr ⟨by simp [AcceptPc.resolutions, pc, inside], ?_⟩
      simp only [State.accepting, State.goto, pc, inside, AcceptPc.remaining, Bool.false_eq_true,
        if_false]
      omega
  | @insertSession _ ref peer id pc =>
    refine .inr ⟨rfl, .inr ⟨by simp [AcceptPc.resolutions, pc], ?_⟩⟩
    -- one entry more at most
    have entries := List.length_filter_le (fun entry : UInt64 × SessionRef => entry.1 != id)
      s.sessions
    simp only [State.accepting, State.goto, State.insertSession, pc, AcceptPc.remaining,
      List.length_cons]
    omega
  | test pc | retest pc =>
    refine .inr ⟨rfl, .inr ⟨by simp [AcceptPc.resolutions, pc, stopped], ?_⟩⟩
    simp [State.accepting, AcceptPc.remaining, Cleanup.remaining, pc, stopped]
  | refreshed pc | notRefreshed pc | snapshot pc | notAccepted pc =>
    exact .inr ⟨rfl, .inl (by simp [AcceptPc.resolutions, pc])⟩
  | _ pc =>
    refine .inr ⟨rfl, .inr ⟨by simp [AcceptPc.resolutions, pc], ?_⟩⟩
    simp only [State.accepting, State.goto, State.openSocket, State.closeSocket, State.makeSession,
      State.insertPeer, State.startWorker, pc, AcceptPc.remaining, List.length_cons,
      List.length_nil]
    omega

/-! ### `Stop`, the resolver thread and the sessions -/

/-- `Stop` touches what the accept thread works on only when that thread has ended. -/
theorem StopMove.keeps (move : StopMove s a t) (locks : Locks s) :
    t.resolutions = s.resolutions ∧ t.accepting = s.accepting := by
  cases move with
  | join _ moved | destructor _ _ moved =>
    obtain ⟨heap, joins, rfl⟩ := State.join_frame moved
    exact ⟨rfl, rfl⟩
  | clearSessions pc =>
    have exited := locks.exited (by rw [pc]; rfl)
    exact ⟨rfl, by simp [State.accepting, exited, AcceptPc.remaining]⟩
  | _ => exact ⟨rfl, rfl⟩

/-- What a call of `ForwardSession::Stop` does to the counts. -/
theorem State.total_callStop (old : ref < s.nextRef)
    (severed : Tcp.Severed (s.heap ref).state) :
    (s.callStop ref).total Tcp.State.live < s.total Tcp.State.live ∨
      ((s.callStop ref).total Tcp.State.live = s.total Tcp.State.live ∧
        (s.callStop ref).total Tcp.State.pending ≤ s.total Tcp.State.pending) := by
  have moved : Tcp.step (s.heap ref).state .callStop = some ((s.callStop ref).heap ref).state := by
    simp [State.callStop, Tcp.step]
  have others (r : SessionRef) (other : r ≠ ref) :
      ((s.callStop ref).heap r).state = (s.heap r).state := by
    rw [State.callStop_other other]
  have silent : Tcp.SilentWhenShut (s.heap ref).state .callStop := trivial
  have spent := State.total_spends (s := s) (t := s.callStop ref) rfl old others severed silent
    moved
  rcases spent with less | ⟨live, pending, -⟩
  · exact .inl less
  · exact .inr ⟨live, pending⟩

theorem State.total_join (f : Tcp.State → Nat) (joined : s.join ref = some t) :
    t.total f = s.total f := by
  have state := State.join_state joined
  obtain ⟨heap, joins, rfl⟩ := State.join_frame joined
  exact State.total_eq f (t := { s with heap := heap, joins := joins }) rfl state

theorem StopMove.spends (move : StopMove s a t) (made : ∀ ref ∈ s.stop.visits, ref < s.nextRef)
    (severed : ∀ ref < s.nextRef, Tcp.Severed (s.heap ref).state) :
    t.total Tcp.State.live < s.total Tcp.State.live ∨
      (t.total Tcp.State.live = s.total Tcp.State.live ∧ t.pending < s.pending) := by
  have calls (ref : SessionRef) (member : ref ∈ s.stop.visits) :=
    State.total_callStop (made ref member) (severed ref (made ref member))
  cases move with
  | @callStop _ sessions rest ref pc =>
    refine (calls ref (by simp [pc, StopPc.visits])).imp_right fun ⟨live, pending⟩ => ⟨live, ?_⟩
    rw [State.pending, State.pending, pc]
    simp only [StopPc.remaining, List.length_cons]
    exact Nat.add_lt_add_of_lt_of_le (by omega) pending
  | @destroy _ rest ref pc =>
    refine (calls ref (by simp [pc, StopPc.visits])).imp_right fun ⟨live, pending⟩ => ⟨live, ?_⟩
    rw [State.pending, State.pending, pc]
    simp only [StopPc.remaining, List.length_cons]
    exact Nat.add_lt_add_of_lt_of_le (by omega) pending
  | @join _ sessions rest ref u pc moved =>
    have same (f : Tcp.State → Nat) := State.total_join f moved
    obtain ⟨heap, joins, rfl⟩ := State.join_frame moved
    refine .inr ⟨same _, ?_⟩
    rw [State.pending, State.pending, pc]
    refine Nat.add_lt_add_of_lt_of_le ?_ (same _).le
    simp [StopPc.remaining]
  | @destructor _ rest ref u pc _ moved =>
    have same (f : Tcp.State → Nat) := State.total_join f moved
    obtain ⟨heap, joins, rfl⟩ := State.join_frame moved
    refine .inr ⟨same _, ?_⟩
    rw [State.pending, State.pending, pc]
    refine Nat.add_lt_add_of_lt_of_le ?_ (same _).le
    simp [StopPc.remaining]
  | copy pc order =>
    refine .inr ⟨rfl, ?_⟩
    rw [State.pending, State.pending, pc]
    refine Nat.add_lt_add_of_lt_of_le ?_ (Nat.le_refl _)
    simp [StopPc.remaining, order.length_eq]
  | _ pc =>
    refine .inr ⟨rfl, ?_⟩
    rw [State.pending, State.pending, pc]
    refine Nat.add_lt_add_of_lt_of_le ?_ (Nat.le_refl _)
    simp only [StopPc.remaining, List.length_nil]
    omega

theorem resolverStep_spends (moved : resolverStep p s a = some t) (stopped : s.running = false) :
    t.resolver.remaining < s.resolver.remaining := by
  rcases (resolverStep_resolves moved).2 with next | ⟨resolving, done⟩
  · exact ResolverPc.next_remaining (stopped ▸ next)
  · rw [resolving, done]
    exact Nat.lt_succ_self 1

/-- `Stop` has been called and has not returned. -/
structure Stopping (s : State) : Prop where
  called : s.stop ≠ .idle
  busy : s.stop ≠ .done
  alive : s.terminated = false

theorem few_of_ruled (reached : (forwarder p).Reach Ruled s) :
    (forwarder p).Reach FewConnections s :=
  reached.mono fun _ _ ruled => ruled.1

/-- An urgent step leaves less to do, and no other step more. -/
theorem step_spends (reached : (forwarder p).Reach Ruled s) (stopping : Stopping s)
    (ruled : Ruled s action) (moved : (forwarder p).step s action = some t) :
    (t.stop = .done ∨ t.terminated = true) ∨
      (Stopping t ∧ t.rank ≤ s.rank ∧ (Urgent s action → t.rank < s.rank)) := by
  have locks := locks_reached reached
  have stopped : s.running = false := by
    rw [← Bool.not_eq_true, (shutdown_reached reached).running]
    exact stopping.called
  have severed := fun ref (made : ref < s.nextRef) =>
    Tcp.severed_reached (session_reached reached made)
  by_cases ended : t.stop = .done ∨ t.terminated = true
  · exact .inl ended
  rw [not_or, Bool.not_eq_true] at ended
  obtain ⟨busy, alive⟩ := ended
  have move := step_move moved
  have other : action ≠ .callStop := by
    rintro rfl
    cases move with
    | callStop pc => exact stopping.called pc
  have called : t.stop ≠ .idle := fun idle => stopping.called ((move.stops other).1.mp idle)
  refine .inr ⟨⟨called, busy, alive⟩, ?_⟩
  cases move with
  | callStop => exact absurd rfl other
  | signal | workerThrows => cases alive
  | accept move =>
    obtain ⟨resolver, falls⟩ := (move.spends stopped).resolve_left (by simp [alive])
    have lower : t.rank < s.rank := by
      refine rank_lt_of_accepting ?_ fun same => ?_
      · rw [State.resolutions, State.resolutions, resolver]
        omega
      · rw [State.resolutions, State.resolutions, resolver] at same
        exact (falls.resolve_left (by omega)).2
    exact ⟨le_of_lt lower, fun _ => lower⟩
  | @resolver a pc endpoints source =>
    have less := resolverStep_spends (step_resolver moved) stopped
    have lower : State.rank { s with resolver := pc, targetEndpoints := endpoints } < s.rank :=
      Prod.Lex.toLex_lt_toLex.mpr (.inl (Nat.add_lt_add_right less _))
    exact ⟨le_of_lt lower, fun _ => lower⟩
  | stop move =>
    obtain ⟨first, second⟩ := move.keeps locks
    have lists := (waiting_reached (few_of_ruled reached)).2
    refine rank_of_sessions first second ?_
    exact (move.spends lists.made severed).imp_right fun ⟨live, pending⟩ =>
      ⟨live, Nat.le_of_lt pending, fun _ => pending⟩
  | @session ref b u made _ exists_ stepped =>
    have heap : ((s.advance ref u).heap ref).state = u := by simp [State.advance]
    have others (r : SessionRef) (other : r ≠ ref) :
        ((s.advance ref u).heap r).state = (s.heap r).state := by
      simp [State.advance, other]
    have moved : Tcp.step (s.heap ref).state b = some ((s.advance ref u).heap ref).state := by
      rw [heap, stepped]
    have spent := State.total_spends (s := s) (t := s.advance ref u) rfl made others
      (severed ref made) ruled.2 moved
    refine rank_of_sessions rfl rfl ?_
    rcases spent with less | ⟨live, pending, strict⟩
    · exact .inl less
    · exact .inr ⟨live, Nat.add_le_add_left pending _, fun urgent =>
        Nat.add_lt_add_left (strict urgent) _⟩

end PortForwardX.TcpForwarder
