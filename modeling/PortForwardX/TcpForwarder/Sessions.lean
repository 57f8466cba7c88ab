import PortForwardX.TcpForwarder.Table
import PortForwardX.Tcp.Lifetime

/-!
# Session objects and their workers

A session keeps its two sockets for good, its threads take the steps of one TCP session,
and its worker is started once and joined at most once.
-/
namespace PortForwardX.TcpForwarder

open Transition Net

variable {p : Setup} {s t : State} {c c' : Cleanup} {a : Answer} {action : Action}
  {ref r : SessionRef}

/-! ### What becomes of a session -/

/-- A session object keeps its sockets, and its state takes a step of its own at most. -/
def ForwardSession.Advances (x y : ForwardSession) : Prop :=
  y.socket = x.socket ∧ (y.state = x.state ∨ ∃ a, Tcp.step x.state a = some y.state)

theorem ForwardSession.Advances.rfl {x : ForwardSession} : x.Advances x :=
  ⟨.refl _, .inl (.refl _)⟩

/-- Assigning an object that advances from the old one advances every session. -/
theorem ForwardSession.Advances.update (heap : SessionRef → ForwardSession) (ref : SessionRef)
    {x : ForwardSession} (advances : (heap ref).Advances x) (r : SessionRef) :
    (heap r).Advances (Function.update heap ref x r) := by
  by_cases same : r = ref
  · subst same
    rwa [Function.update_self]
  · rw [Function.update_of_ne same]
    exact .rfl

theorem State.join_advances (joined : s.join ref = some t) (r : SessionRef) :
    (s.heap r).Advances (t.heap r) := by
  rcases State.join_cases joined with ⟨-, -, rfl⟩ | ⟨-, rfl⟩
  · refine ForwardSession.Advances.update _ _ ?_ r
    exact ⟨rfl, .inl rfl⟩
  · exact .rfl

theorem State.callStop_advances (r : SessionRef) :
    (s.heap r).Advances ((s.callStop ref).heap r) := by
  refine ForwardSession.Advances.update _ _ ?_ r
  exact ⟨rfl, .inr ⟨.callStop, rfl⟩⟩

theorem CleanupMove.advances (move : CleanupMove s c a t c') (r : SessionRef) :
    (s.heap r).Advances (t.heap r) := by
  cases move with
  | join _ moved | destructor _ _ moved => exact State.join_advances moved r
  | destroy => exact State.callStop_advances r
  | _ => exact .rfl

theorem AcceptMove.advances (move : AcceptMove p s a t) (made : r < s.nextRef) :
    (s.heap r).Advances (t.heap r) := by
  cases move with
  | clean pc unfinished move => exact move.advances r
  | make pc =>
    -- the new object is none of the old ones
    change (s.heap r).Advances (Function.update s.heap s.nextRef _ r)
    rw [Function.update_of_ne (Nat.ne_of_lt made)]
    exact .rfl
  | started pc =>
    refine ForwardSession.Advances.update _ _ ?_ r
    exact ⟨rfl, .inl rfl⟩
  | _ => exact .rfl

theorem StopMove.advances (move : StopMove s a t) (r : SessionRef) :
    (s.heap r).Advances (t.heap r) := by
  cases move with
  | join _ moved | destructor _ _ moved => exact State.join_advances moved r
  | callStop | destroy => exact State.callStop_advances r
  | _ => exact .rfl

theorem Move.advances (move : Move p s action t) (made : r < s.nextRef) :
    (s.heap r).Advances (t.heap r) := by
  cases move with
  | accept move => exact move.advances made
  | session _ _ _ moved =>
    refine ForwardSession.Advances.update _ _ ?_ r
    exact ⟨rfl, .inr ⟨_, moved⟩⟩
  | stop move => exact move.advances r
  | _ => exact .rfl

/-- A session that is there after a step and was not before has just been made. -/
theorem Move.madeSession (move : Move p s action t) (made : ref < t.nextRef)
    (new : ¬ ref < s.nextRef) :
    ∃ client upstream, ref = s.nextRef ∧ t.heap ref = .new client upstream := by
  cases move with
  | accept move =>
    cases move with
    | clean pc unfinished move =>
      rw [State.goto, move.frame.2.2.2.1] at made
      exact absurd made new
    | @make a client upstream peer id pc =>
      have last : ref = s.nextRef := Nat.le_antisymm (Nat.le_of_lt_succ made) (Nat.not_lt.mp new)
      exact ⟨client, upstream, last, by simp [last]⟩
    | _ => exact absurd made new
  | stop move =>
    cases move with
    | join _ moved | destructor _ _ moved =>
      obtain ⟨heap, joins, rfl⟩ := State.join_frame moved
      exact absurd made new
    | _ => exact absurd made new
  | _ => exact absurd made new

/-- A worker that is done and a session that is finished stay so. -/
theorem ForwardSession.Advances.stays {x y : ForwardSession} (advances : x.Advances y) :
    (x.state.worker = .done → y.state.worker = .done) ∧
      (x.state.finished = true → y.state.finished = true) := by
  rcases advances.2 with same | ⟨a, moved⟩
  · simp [same]
  · exact Tcp.step_staysDone moved

/-- The runs of the forwarder are runs of each of its sessions. -/
theorem session_reached {ok : State → Action → Prop} (reached : (forwarder p).Reach ok s)
    (made : ref < s.nextRef) : Tcp.session.Reach Machine.anyStep (s.heap ref).state := by
  induction reached with
  | start init =>
    obtain ⟨fd, outcome, endpoints, -, rfl⟩ := init
    exact absurd made (Nat.not_lt_zero _)
  | @next s t action before _ moved ih =>
    have move := step_move moved
    by_cases old : ref < s.nextRef
    · rcases (move.advances old).2 with same | ⟨a, stepped⟩
      · exact same ▸ ih old
      · exact .next (ih old) trivial stepped
    · -- a session has just been made
      obtain ⟨client, upstream, rfl, heap⟩ := move.madeSession made old
      rw [heap]
      exact .start rfl

/-! ### What a step does to workers -/

/-- The session that `AcceptLoop` has made and not started. -/
def AcceptPc.unstarted : AcceptPc → Option SessionRef
  | .insertSession ref _ _ | .insertPeer ref _ _ | .unlock ref | .start ref => some ref
  | _ => none

/-- What a step does to the members `worker_`. -/
inductive Work (s t : State) : Prop
  | idle (worker : ∀ r, (t.heap r).worker = (s.heap r).worker) (joins : t.joins = s.joins)
      (next : t.nextRef = s.nextRef) (starting : t.accept.unstarted = s.accept.unstarted)
  | made (worker : ∀ r ≠ s.nextRef, (t.heap r).worker = (s.heap r).worker)
      (new : (t.heap s.nextRef).worker = .notStarted) (joins : t.joins = s.joins)
      (next : t.nextRef = s.nextRef + 1) (before : s.accept.unstarted = none)
      (starting : t.accept.unstarted = some s.nextRef)
  | started (ref : SessionRef) (worker : ∀ r ≠ ref, (t.heap r).worker = (s.heap r).worker)
      (new : (t.heap ref).worker = .joinable) (joins : t.joins = s.joins)
      (next : t.nextRef = s.nextRef) (before : s.accept.unstarted = some ref)
      (starting : t.accept.unstarted = none)
  | joined (ref : SessionRef) (joinable : (s.heap ref).worker = .joinable)
      (done : (s.heap ref).state.worker = .done)
      (worker : ∀ r ≠ ref, (t.heap r).worker = (s.heap r).worker)
      (new : (t.heap ref).worker = .joined) (joins : t.joins = s.joins ++ [ref])
      (next : t.nextRef = s.nextRef) (starting : t.accept.unstarted = s.accept.unstarted)

theorem State.join_work (moved : s.join ref = some t) : Work s t := by
  rcases State.join_cases moved with ⟨joinable, done, rfl⟩ | ⟨-, rfl⟩
  · exact .joined ref joinable done (fun r other => by simp [other]) (by simp) rfl rfl rfl
  · exact .idle (fun _ => rfl) rfl rfl rfl

/-- Calling `Stop` on a session does not touch its worker. -/
theorem State.callStop_worker : ((s.callStop ref).heap r).worker = (s.heap r).worker := by
  by_cases same : r = ref
  · subst same
    simp [State.callStop]
  · simp [State.callStop, same]

/-- The accept thread's control point plays no part in `Work` if it starts nothing. -/
theorem Work.goto {pc : AcceptPc} (work : Work s t) (same : t.accept = s.accept)
    (before : s.accept.unstarted = none) (after : pc.unstarted = none) : Work s (t.goto pc) := by
  cases work with
  | idle worker joins next starting => exact .idle worker joins next (after.trans before.symm)
  | made worker new joins next _ starting =>
    rw [same, before] at starting
    cases starting
  | started ref worker new joins next unstarted =>
    rw [before] at unstarted
    cases unstarted
  | joined ref joinable done worker new joins next starting =>
    exact .joined ref joinable done worker new joins next (after.trans before.symm)

theorem CleanupMove.work (move : CleanupMove s c a t c') : Work s t := by
  cases move with
  | join _ moved | destructor _ _ moved => exact State.join_work moved
  | destroy => exact .idle (fun _ => State.callStop_worker) rfl rfl rfl
  | _ => exact .idle (fun _ => rfl) rfl rfl rfl

theorem AcceptMove.work (move : AcceptMove p s a t) : Work s t := by
  cases move with
  | clean pc unfinished move =>
    exact move.work.goto move.frame.2.1 (by rw [pc]; rfl) rfl
  | make pc => exact .made (fun r other => by simp [other]) (by simp; rfl) rfl rfl (by rw [pc]; rfl) rfl
  | @started ref pc =>
    exact .started ref (fun r other => by simp [other]) (by simp) rfl rfl (by rw [pc]; rfl) rfl
  | cleaned pc | retest pc =>
    refine .idle (fun _ => rfl) rfl rfl ?_
    rw [pc]
    dsimp only [State.goto]
    split <;> rfl
  | throws => exact .idle (fun _ => rfl) rfl rfl rfl
  | test pc | accepted pc | notAccepted pc | snapshotEmpty pc | snapshot pc | refreshed pc
  | notRefreshed pc | noTarget pc | snapshotAgain pc | unconnected pc | made pc | notMade pc
  | connected pc | notConnected pc | closeCandidate pc | closeClient pc | lock pc | count pc
  | insertSession pc | insertPeer pc | unlock pc =>
    exact .idle (fun _ => rfl) rfl rfl (by rw [pc]; rfl)

theorem StopMove.work (move : StopMove s a t) : Work s t := by
  cases move with
  | join _ moved | destructor _ _ moved =>
    cases State.join_work moved with
    | idle worker joins next starting => exact .idle worker joins next starting
    | made worker new joins next before starting => exact .made worker new joins next before starting
    | started ref worker new joins next before starting =>
      exact .started ref worker new joins next before starting
    | joined ref joinable done worker new joins next starting =>
      exact .joined ref joinable done worker new joins next starting
  | callStop | destroy => exact .idle (fun _ => State.callStop_worker) rfl rfl rfl
  | _ => exact .idle (fun _ => rfl) rfl rfl rfl

theorem Move.work (move : Move p s action t) : Work s t := by
  cases move with
  | accept move => exact move.work
  | stop move => exact move.work
  | @session ref =>
    refine .idle (fun r => ?_) rfl rfl rfl
    by_cases same : r = ref
    · subst same
      simp [State.advance]
    · simp [State.advance, same]
  | _ => exact .idle (fun _ => rfl) rfl rfl rfl

/-! ### The invariant -/

/-- Which workers run, and what joining has left. -/
structure Workers (s : State) : Prop where
  unstarted : ∀ ref, (s.heap ref).worker = .notStarted ↔
    s.nextRef ≤ ref ∨ s.accept.unstarted = some ref
  starting : ∀ ref, s.accept.unstarted = some ref → ref < s.nextRef
  joins : ∀ ref, s.joins.count ref = if (s.heap ref).worker = .joined then 1 else 0
  done : ∀ ref, (s.heap ref).worker = .joined → (s.heap ref).state.worker = .done

/-- Only a session that has been made is joined. -/
theorem Workers.made (workers : Workers s) (joined : (s.heap ref).worker = .joined) :
    ref < s.nextRef := by
  by_contra fresh
  have := (workers.unstarted ref).mpr (.inl (Nat.le_of_not_lt fresh))
  rw [joined] at this
  cases this

theorem Move.workers (move : Move p s action t) (before : Workers s) : Workers t := by
  obtain ⟨unstarted, starting, joins, done⟩ := id before
  -- a worker joined before is done and stays so
  have stays : ∀ r, (s.heap r).worker = .joined → (t.heap r).state.worker = .done :=
    fun r joined => (move.advances (before.made joined)).stays.1 (done r joined)
  cases move.work with
  | idle worker joins' next starting' =>
    refine ⟨fun r => ?_, fun r => ?_, fun r => ?_, fun r joined => ?_⟩
    · rw [worker, next, starting']
      exact unstarted r
    · rw [next, starting']
      exact starting r
    · rw [worker, joins']
      exact joins r
    · rw [worker] at joined
      exact stays r joined
  | made worker new joins' next none_ starting' =>
    have fresh := (unstarted s.nextRef).mpr (.inl (Nat.le_refl _))
    refine ⟨fun r => ?_, fun r => ?_, fun r => ?_, fun r joined => ?_⟩
    · by_cases same : r = s.nextRef
      · simp [same, new, starting']
      · rw [worker r same, unstarted, next, starting', none_]
        simp only [Option.some.injEq, Ne.symm same, or_false, reduceCtorEq]
        exact ⟨fun old => Nat.lt_of_le_of_ne old (Ne.symm same), Nat.le_of_succ_le⟩
    · rw [next, starting', Option.some.injEq]
      rintro rfl
      exact Nat.lt_succ_self _
    · rw [joins']
      by_cases same : r = s.nextRef
      · rw [same, new, joins, fresh]
      · rw [worker r same]
        exact joins r
    · have other : r ≠ s.nextRef := by
        rintro rfl
        rw [new] at joined
        cases joined
      exact stays r (worker r other ▸ joined)
  | started ref worker new joins' next before_ starting' =>
    refine ⟨fun r => ?_, by simp [starting'], fun r => ?_, fun r joined => ?_⟩
    · by_cases same : r = ref
      · subst same
        simpa [new, next, starting'] using starting r before_
      · rw [worker r same, unstarted, next, starting', before_]
        simp [Ne.symm same]
    · rw [joins']
      by_cases same : r = ref
      · rw [same, new, joins, (unstarted ref).mpr (.inr before_)]
        rfl
      · rw [worker r same]
        exact joins r
    · have other : r ≠ ref := by
        rintro rfl
        rw [new] at joined
        cases joined
      exact stays r (worker r other ▸ joined)
  | joined ref joinable done' worker new joins' next starting' =>
    have made : ref < s.nextRef := by
      by_contra fresh
      have := (unstarted ref).mpr (.inl (Nat.le_of_not_lt fresh))
      rw [joinable] at this
      cases this
    refine ⟨fun r => ?_, ?_, fun r => ?_, fun r joined => ?_⟩
    · rw [next, starting', ← unstarted]
      by_cases same : r = ref
      · simp [same, new, joinable]
      · rw [worker r same]
    · rw [next, starting']
      exact starting
    · rw [joins', List.count_append]
      by_cases same : r = ref
      · rw [same, new, joins, joinable]
        simp
      · rw [worker r same, joins, List.count_singleton]
        simp [Ne.symm same]
    · by_cases same : r = ref
      · rw [same]
        exact (move.advances made).stays.1 done'
      · exact stays r (worker r same ▸ joined)

theorem workers_reached {ok : State → Action → Prop} (reached : (forwarder p).Reach ok s) :
    Workers s := by
  refine reached.invariant (P := Workers) ?_ fun _ _ _ _ before _ moved =>
    (step_move moved).workers before
  rintro _ ⟨fd, outcome, endpoints, -, rfl⟩
  exact ⟨by simp [started, AcceptPc.unstarted], by simp [started, AcceptPc.unstarted],
    by simp [started], by simp [started]⟩

end PortForwardX.TcpForwarder
