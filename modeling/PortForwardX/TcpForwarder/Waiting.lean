import PortForwardX.TcpForwarder.Conservation
import PortForwardX.TcpForwarder.Shutdown
import PortForwardX.Tcp.Pending

/-!
# Who waits for which session

A cleanup and the `Stop` call go through lists of sessions, calling `Stop` on each, joining
it and destroying it. What they wait for is a session that has been made, and a call of
`ForwardSession::Stop` that is under way has a caller that waits for it.
-/
namespace PortForwardX.TcpForwarder

open Transition Net

variable {p : Setup} {s t : State} {c c' : Cleanup} {a : Answer} {action : Action}
  {ref r : SessionRef}

/-- The sessions a cleanup is still to join or to destroy. -/
def CleanupPc.visits : CleanupPc → List SessionRef
  | .join rest | .destroy rest => rest
  | .inDestructor ref rest => ref :: rest
  | _ => []

/-- The sessions in the lists of the `Stop` call. -/
def StopPc.visits : StopPc → List SessionRef
  | .unlock sessions | .lockAgain sessions | .clearSessions sessions | .clearPeers sessions
  | .unlockAgain sessions | .destroy sessions => sessions
  | .stopEach sessions rest | .joinEach sessions rest => sessions ++ rest
  | .inStop sessions ref rest => sessions ++ ref :: rest
  | .inDestructor ref rest => ref :: rest
  | _ => []

/-- The sessions that the `Stop` call has not stopped yet. -/
def StopPc.unstopped : StopPc → List SessionRef
  | .unlock sessions => sessions
  | .stopEach _ rest => rest
  | .inStop _ ref rest => ref :: rest
  | _ => []

/-- The session whose `Stop` the `Stop` call is in. -/
def StopPc.callee : StopPc → Option SessionRef
  | .inStop _ ref _ | .inDestructor ref _ => some ref
  | _ => none

/-- The session whose `Stop` a cleanup is in. -/
def CleanupPc.callee : CleanupPc → Option SessionRef
  | .inDestructor ref _ => some ref
  | _ => none

def AcceptPc.callee : AcceptPc → Option SessionRef
  | .cleanup c => c.pc.callee
  | _ => none

/-- The accept thread or the `Stop` call is in `Stop` of this session. -/
def State.Awaited (s : State) (ref : SessionRef) : Prop :=
  s.accept.callee = some ref ∨ s.stop.callee = some ref

/-! ### Calls of `ForwardSession::Stop` -/

/-- What a step of a session makes of its `Stop` call. -/
theorem step_stopCall {u v : Tcp.State} {b : Tcp.Action} (exclusive : Tcp.Exclusive u)
    (moved : Tcp.step u b = some v) :
    (u.stopPc = .done → v.stopPc = .done) ∧ (u.stopPc ≠ .idle → v.stopPc ≠ .idle) ∧
      (b ≠ .callStop → v.stopPc ≠ .idle → u.stopPc ≠ .idle) := by
  by_cases own : b = .stop
  · subst own
    cases Tcp.stopStep_move moved <;> simp_all
  · by_cases call : b = .callStop
    · subst call
      rcases Tcp.callStop_move moved with ⟨-, rfl⟩ | ⟨fresh, rfl⟩
      · simp
      · simp [exclusive.stopping fresh]
    · have same : v.stopPc = u.stopPc := by
        cases b with
        | relay d result => exact (Tcp.relayStep_move moved).frame.2.1
        | worker =>
          have moved := Tcp.workerStep_move moved
          cases moved <;> rfl
        | arrive side bytes =>
          obtain ⟨-, rfl⟩ := Tcp.arrive_move moved
          rfl
        | finishStream side | peerReset side =>
          cases moved
          rfl
        | stop => exact absurd rfl own
        | callStop => exact absurd rfl call
      simp [same]

theorem ForwardSession.Advances.stopDone {x y : ForwardSession} (advances : x.Advances y)
    (exclusive : Tcp.Exclusive x.state) (done : x.state.stopPc = .done) :
    y.state.stopPc = .done := by
  rcases advances.2 with same | ⟨b, moved⟩
  · rwa [same]
  · exact (step_stopCall exclusive moved).1 done

/-- A `Stop` call leaves its mark on the flag and never goes back to the start. -/
theorem stopping_called {u : Tcp.State} (reached : Tcp.session.Reach Machine.anyStep u) :
    u.stopping = true → u.stopPc ≠ .idle := by
  induction reached with
  | start init =>
    obtain rfl := init
    simp [Tcp.initial]
  | @next u v b before _ moved ih =>
    by_cases call : b = .callStop
    · subst call
      rcases Tcp.callStop_move moved with ⟨-, rfl⟩ | ⟨-, rfl⟩
      · exact ih
      · simp
    · have same : v.stopping = u.stopping := by
        cases b with
        | relay d result => exact (Tcp.relayStep_move moved).frame.2.2.1
        | worker =>
          have moved := Tcp.workerStep_move moved
          cases moved <;> rfl
        | stop =>
          have moved := Tcp.stopStep_move moved
          cases moved <;> simp only [Tcp.shutdownMember] <;> (try split) <;> rfl
        | arrive side bytes =>
          obtain ⟨-, rfl⟩ := Tcp.arrive_move moved
          rfl
        | finishStream side | peerReset side =>
          cases moved
          rfl
        | callStop => exact absurd rfl call
      rw [same]
      exact fun stopping => (step_stopCall (Tcp.exclusive_reached before) moved).2.1 (ih stopping)

/-- After a call of `Stop` there has been one. -/
theorem State.callStop_called
    (reached : Tcp.session.Reach Machine.anyStep (s.heap ref).state) :
    ((s.callStop ref).heap ref).state.stopPc ≠ .idle := by
  simp only [State.callStop, Function.update_self, Tcp.callStopStep]
  split
  next called => exact stopping_called reached called
  next => simp

theorem State.callStop_other (other : r ≠ ref) : (s.callStop ref).heap r = s.heap r := by
  simp [State.callStop, other]

/-- `Join` leaves the states of sessions alone. -/
theorem State.join_state (joined : s.join ref = some t) (r : SessionRef) :
    (t.heap r).state = (s.heap r).state := by
  rcases State.join_cases joined with ⟨-, -, rfl⟩ | ⟨-, rfl⟩
  · by_cases same : r = ref
    · subst same
      simp
    · simp [same]
  · rfl

/-- Every call under way has somebody in it, and whoever is in a call has made it. -/
structure Calls (s : State) : Prop where
  called : ∀ ref < s.nextRef, s.Awaited ref → (s.heap ref).state.stopPc ≠ .idle
  awaited : ∀ ref < s.nextRef, (s.heap ref).state.stopPc ≠ .idle →
    (s.heap ref).state.stopPc ≠ .done → s.Awaited ref

/-- The rule for a step that makes no call and returns from none. -/
theorem Calls.keep (before : Calls s) (made : t.nextRef = s.nextRef)
    (state : ∀ r, (t.heap r).state = (s.heap r).state)
    (accept : t.accept.callee = s.accept.callee) (stop : t.stop.callee = s.stop.callee) :
    Calls t where
  called r old awaits := by
    rw [State.Awaited, accept, stop] at awaits
    rw [state]
    exact before.called r (made ▸ old) awaits
  awaited r old := by
    rw [State.Awaited, accept, stop, state]
    exact before.awaited r (made ▸ old)

/-- The rule for a step that calls `Stop` of a session. -/
theorem Calls.call (before : Calls s) (made : t.nextRef = s.nextRef)
    (heap : t.heap = (s.callStop ref).heap)
    (reached : Tcp.session.Reach Machine.anyStep (s.heap ref).state)
    (awaits : ∀ r, t.Awaited r ↔ r = ref ∨ s.Awaited r) : Calls t where
  called r old awaiting := by
    rw [heap]
    by_cases own : r = ref
    · subst own
      exact State.callStop_called reached
    · rw [State.callStop_other own]
      exact before.called r (made ▸ old) (((awaits r).mp awaiting).resolve_left own)
  awaited r old idle busy := by
    rw [awaits]
    by_cases own : r = ref
    · exact .inl own
    · rw [heap, State.callStop_other own] at idle busy
      exact .inr (before.awaited r (made ▸ old) idle busy)

/-- The rule for a step that returns from such a call. -/
theorem Calls.return (before : Calls s) (made : t.nextRef = s.nextRef)
    (state : ∀ r, (t.heap r).state = (s.heap r).state) (returned : s.stopReturned ref = true)
    (awaits : ∀ r, s.Awaited r ↔ r = ref ∨ t.Awaited r) : Calls t where
  called r old awaiting := by
    rw [state]
    exact before.called r (made ▸ old) ((awaits r).mpr (.inr awaiting))
  awaited r old idle busy := by
    rw [state] at idle busy
    rcases (awaits r).mp (before.awaited r (made ▸ old) idle busy) with rfl | still
    · -- the call has returned
      simp only [State.stopReturned, Bool.or_eq_true, beq_iff_eq] at returned
      exact absurd returned (by simp [idle, busy])
    · exact still

theorem CleanupMove.calls (move : CleanupMove s c a t c') (pc : s.accept = .cleanup c)
    (reached : ∀ ref ∈ c.pc.visits, Tcp.session.Reach Machine.anyStep (s.heap ref).state)
    (before : Calls s) : Calls (t.goto (.cleanup c')) := by
  have callee : s.accept.callee = c.pc.callee := by rw [pc]; rfl
  cases move with
  | @destroy _ ref rest here =>
    refine before.call rfl rfl (reached ref (by simp [here, CleanupPc.visits])) fun r => ?_
    simp [State.Awaited, pc, here, AcceptPc.callee, CleanupPc.callee, State.callStop, eq_comm]
  | @destructor _ ref rest t here returned moved =>
    obtain ⟨heap, joins, rfl⟩ := State.join_frame moved
    refine before.return rfl (fun r => State.join_state moved r) returned fun r => ?_
    simp [State.Awaited, pc, here, AcceptPc.callee, CleanupPc.callee, eq_comm]
  | join here moved =>
    obtain ⟨heap, joins, rfl⟩ := State.join_frame moved
    refine before.keep rfl (fun r => State.join_state moved r) ?_ rfl
    rw [callee, here]
    rfl
  | lock here | scanned here | spare here | condemn here | erase here | unlock here
  | joined here =>
    refine before.keep rfl (fun _ => rfl) ?_ rfl
    rw [callee, here]
    rfl

theorem AcceptMove.calls (move : AcceptMove p s a t) (waiting : s.stop.pastAccept = false)
    (reached : ∀ c, s.accept = .cleanup c → ∀ ref ∈ c.pc.visits,
      Tcp.session.Reach Machine.anyStep (s.heap ref).state) (before : Calls s) : Calls t := by
  cases move with
  | clean pc unfinished move => exact move.calls pc (reached _ pc) before
  | make pc =>
    -- nobody has called anything on the new session
    have idle : s.stop.callee = none := by
      cases stop : s.stop <;> simp_all [StopPc.pastAccept, StopPc.callee]
    constructor
    · intro r _ awaits
      simp [State.Awaited, AcceptPc.callee, idle] at awaits
    · intro r made called busy
      by_cases own : r = s.nextRef
      · subst own
        simp [ForwardSession.new, Tcp.initial] at called
      · simp only [State.goto, State.makeSession, Function.update_of_ne own] at called busy
        have old : r < s.nextRef := Nat.lt_of_le_of_ne (Nat.le_of_lt_succ made) own
        have awaits := before.awaited r old called busy
        simp [State.Awaited, pc, AcceptPc.callee, idle] at awaits
  | @started ref pc =>
    refine before.keep rfl (fun r => ?_) (by rw [pc]; rfl) rfl
    by_cases own : r = ref
    · subst own
      simp
    · simp [own]
  | @cleaned _ c pc finished =>
    refine before.keep rfl (fun _ => rfl) ?_ rfl
    have idle : s.accept.callee = none := by
      rw [pc, AcceptPc.callee, Cleanup.pc_of_finished finished]
      rfl
    rw [idle]
    dsimp only [State.goto]
    split <;> rfl
  | retest pc =>
    refine before.keep rfl (fun _ => rfl) ?_ rfl
    rw [pc]
    dsimp only [State.goto]
    split <;> rfl
  | throws => exact before.keep rfl (fun _ => rfl) rfl rfl
  | test pc | accepted pc | notAccepted pc | snapshotEmpty pc | snapshot pc | refreshed pc
  | notRefreshed pc | noTarget pc | snapshotAgain pc | unconnected pc | made pc | notMade pc
  | connected pc | notConnected pc | closeCandidate pc | closeClient pc | lock pc | count pc
  | insertSession pc | insertPeer pc | unlock pc =>
    exact before.keep rfl (fun _ => rfl) (by rw [pc]; rfl) rfl

theorem StopMove.calls (move : StopMove s a t)
    (reached : ∀ ref ∈ s.stop.visits, Tcp.session.Reach Machine.anyStep (s.heap ref).state)
    (before : Calls s) : Calls t := by
  cases move with
  | @callStop _ sessions rest ref pc =>
    refine before.call rfl rfl (reached ref (by simp [pc, StopPc.visits])) fun r => ?_
    simp [State.Awaited, pc, StopPc.callee, State.callStop, eq_comm, or_comm]
  | @destroy _ rest ref pc =>
    refine before.call rfl rfl (reached ref (by simp [pc, StopPc.visits])) fun r => ?_
    simp [State.Awaited, pc, StopPc.callee, State.callStop, eq_comm, or_comm]
  | @stopReturned _ sessions rest ref pc returned =>
    refine before.return rfl (fun _ => rfl) returned fun r => ?_
    simp [State.Awaited, pc, StopPc.callee, eq_comm, or_comm]
  | @destructor _ rest ref t pc returned moved =>
    obtain ⟨heap, joins, rfl⟩ := State.join_frame moved
    refine before.return rfl (fun r => State.join_state moved r) returned fun r => ?_
    simp [State.Awaited, pc, StopPc.callee, eq_comm, or_comm]
  | join pc moved =>
    obtain ⟨heap, joins, rfl⟩ := State.join_frame moved
    exact before.keep rfl (fun r => State.join_state moved r) rfl (by rw [pc]; rfl)
  | shutdownListen pc | closeListen pc | setListenInvalid pc | joinAccept pc | joinResolver pc
  | lock pc | copy pc | unlock pc | stopped pc | joined pc | lockAgain pc | clearSessions pc
  | clearPeers pc | unlockAgain pc | destroyed pc =>
    exact before.keep rfl (fun _ => rfl) rfl (by rw [pc]; rfl)

theorem Move.calls (move : Move p s action t) (locks : Locks s)
    (sessions : ∀ ref < s.nextRef, Tcp.session.Reach Machine.anyStep (s.heap ref).state)
    (cleaning : ∀ c, s.accept = .cleanup c → ∀ ref ∈ c.pc.visits, ref < s.nextRef)
    (stopping : ∀ ref ∈ s.stop.visits, ref < s.nextRef) (before : Calls s) : Calls t := by
  cases move with
  | accept move =>
    exact move.calls (locks.waiting move)
      (fun c pc ref member => sessions ref (cleaning c pc ref member)) before
  | stop move => exact move.calls (fun ref member => sessions ref (stopping ref member)) before
  | @session ref b u made other exists_ moved =>
    have kept := step_stopCall (Tcp.exclusive_reached (sessions ref made)) moved
    constructor
    · intro r old awaits
      have called := before.called r old awaits
      by_cases own : r = ref
      · subst own
        simpa [State.advance] using kept.2.1 called
      · simpa [State.advance, own] using called
    · intro r old called busy
      by_cases own : r = ref
      · subst own
        simp only [State.advance, Function.update_self] at called busy
        refine before.awaited r old (kept.2.2 other called) fun done => ?_
        exact busy (kept.1 done)
      · simp only [State.advance, Function.update_of_ne own] at called busy
        exact before.awaited r old called busy
  | callStop pc => exact before.keep rfl (fun _ => rfl) rfl (by rw [pc]; rfl)
  | signal | workerThrows | resolver => exact before.keep rfl (fun _ => rfl) rfl rfl

/-! ### The lists -/

/-- The lists name sessions that have been made, and those of `Stop` from the second loop on
sessions that it has stopped. -/
structure Lists (s : State) : Prop where
  visited : ∀ c, s.accept = .cleanup c → ∀ ref ∈ c.pc.visits, ref ∈ c.finishedSessions
  made : ∀ ref ∈ s.stop.visits, ref < s.nextRef
  stopped : ∀ ref ∈ s.stop.visits, ref ∈ s.stop.unstopped ∨ (s.heap ref).state.stopPc = .done

theorem CleanupMove.visited (move : CleanupMove s c a t c')
    (before : ∀ ref ∈ c.pc.visits, ref ∈ c.finishedSessions) :
    ∀ ref ∈ c'.pc.visits, ref ∈ c'.finishedSessions := by
  cases move with
  | unlock | joined => exact fun ref => id
  | join pc | destroy pc | destructor pc =>
    rw [pc] at before
    intro ref member
    exact before ref (by simp_all [CleanupPc.visits])
  | lock | scanned | spare | condemn | erase => simp [CleanupPc.visits]

theorem AcceptMove.visited (move : AcceptMove p s a t)
    (before : ∀ c, s.accept = .cleanup c → ∀ ref ∈ c.pc.visits, ref ∈ c.finishedSessions) :
    ∀ c, t.accept = .cleanup c → ∀ ref ∈ c.pc.visits, ref ∈ c.finishedSessions := by
  cases move with
  | clean pc unfinished move =>
    rintro _ ⟨⟩
    exact move.visited (before _ pc)
  | test pc =>
    rintro _ ⟨⟩
    simp [CleanupPc.visits]
  | cleaned pc finished =>
    intro c at_
    dsimp only [State.goto] at at_
    split at at_ <;> cases at_
  | retest pc =>
    intro c at_
    dsimp only [State.goto] at at_
    split at at_
    · cases at_
    · cases at_
      simp [CleanupPc.visits]
  | throws => exact before
  | accepted | notAccepted | snapshotEmpty | snapshot | refreshed | notRefreshed | noTarget
  | snapshotAgain | unconnected | made | notMade | connected | notConnected | closeCandidate
  | closeClient | lock | count | make | insertSession | insertPeer | unlock | started =>
    intro c at_
    cases at_

/-- `Stop` makes its list from the map, and takes a session off the first loop's list when
the call on it has returned. -/
theorem StopMove.lists (move : StopMove s a t) (table : Table s) (calls : Calls s)
    (exclusive : ∀ ref < s.nextRef, Tcp.Exclusive (s.heap ref).state) (before : Lists s) :
    Lists t := by
  obtain ⟨visited, made, stopped⟩ := before
  have accept := move.frame.1
  have next : t.nextRef = s.nextRef := by
    cases move with
    | join _ moved | destructor _ _ moved =>
      obtain ⟨heap, joins, rfl⟩ := State.join_frame moved
      rfl
    | _ => rfl
  -- what has been stopped stays so
  have stays : ∀ ref ∈ s.stop.visits, (s.heap ref).state.stopPc = .done →
      (t.heap ref).state.stopPc = .done := fun ref member done =>
    (move.advances ref).stopDone (exclusive ref (made ref member)) done
  refine ⟨accept ▸ visited, ?_, ?_⟩
  · rw [next]
    cases move with
    | copy pc order =>
      intro ref member
      obtain ⟨entry, within, rfl⟩ := List.mem_map.mp member
      exact (table.entered entry (order.mem_iff.mp within)).1
    | unlock pc | stopped pc | callStop pc | stopReturned pc | joined pc | join pc | lockAgain pc
    | clearSessions pc | clearPeers pc | unlockAgain pc | destroy pc | destructor pc =>
      intro ref member
      refine made ref ?_
      rw [pc]
      simp only [StopPc.visits, List.mem_append, List.mem_cons] at member ⊢
      tauto
    | shutdownListen | closeListen | setListenInvalid | joinAccept | joinResolver | lock
    | destroyed => simp [StopPc.visits]
  · cases move with
    | copy pc order => exact fun ref member => .inl member
    | unlock pc =>
      intro ref member
      exact .inl (by simpa [StopPc.visits, StopPc.unstopped] using member)
    | @stopReturned _ sessions rest ref pc returned =>
      intro r member
      have old : r ∈ s.stop.visits := by
        rw [pc]
        simp only [StopPc.visits, List.mem_append, List.mem_cons] at member ⊢
        tauto
      rcases stopped r old with waits | done
      · rw [pc] at waits
        rcases List.mem_cons.mp waits with rfl | later
        · -- the call was made and has returned
          have called := calls.called r (made r old) (.inr (by rw [pc]; rfl))
          simp only [State.stopReturned, Bool.or_eq_true, beq_iff_eq] at returned
          exact .inr (returned.resolve_left called)
        · exact .inl later
      · exact .inr done
    | stopped pc | callStop pc | joined pc | join pc | lockAgain pc | clearSessions pc
    | clearPeers pc | unlockAgain pc | destroy pc | destructor pc =>
      intro r member
      have old : r ∈ s.stop.visits := by
        rw [pc]
        simp only [StopPc.visits, List.mem_append, List.mem_cons] at member ⊢
        tauto
      refine (stopped r old).imp (fun waits => ?_) (stays r old)
      rw [pc] at waits
      exact waits
    | shutdownListen | closeListen | setListenInvalid | joinAccept | joinResolver | lock
    | destroyed => simp [StopPc.visits]

theorem Lists.keep (before : Lists s)
    (visited : ∀ c, t.accept = .cleanup c → ∀ ref ∈ c.pc.visits, ref ∈ c.finishedSessions)
    (next : s.nextRef ≤ t.nextRef) (stop : t.stop.visits = s.stop.visits)
    (unstopped : t.stop.unstopped = s.stop.unstopped)
    (stays : ∀ ref < s.nextRef, (s.heap ref).state.stopPc = .done →
      (t.heap ref).state.stopPc = .done) : Lists t where
  visited := visited
  made ref member := Nat.lt_of_lt_of_le (before.made ref (stop ▸ member)) next
  stopped ref member := by
    rw [stop] at member
    rw [unstopped]
    exact (before.stopped ref member).imp_right (stays ref (before.made ref member))

theorem Move.nextRef_le (move : Move p s action t) : s.nextRef ≤ t.nextRef := by
  cases move.work with
  | idle _ _ next | started _ _ _ _ next | joined _ _ _ _ _ _ next => exact next.ge
  | made _ _ _ next => exact next ▸ Nat.le_succ _

theorem Move.lists (move : Move p s action t) (table : Table s) (calls : Calls s)
    (exclusive : ∀ ref < s.nextRef, Tcp.Exclusive (s.heap ref).state) (before : Lists s) :
    Lists t := by
  have next := move.nextRef_le
  have stays : ∀ ref < s.nextRef, (s.heap ref).state.stopPc = .done →
      (t.heap ref).state.stopPc = .done := fun ref made done =>
    (move.advances made).stopDone (exclusive ref made) done
  cases move with
  | accept move =>
    exact before.keep (move.visited before.visited) next (by rw [move.frame.1])
      (by rw [move.frame.1]) stays
  | stop move => exact move.lists table calls exclusive before
  | callStop pc =>
    exact before.keep before.visited next (by rw [pc]; rfl) (by rw [pc]; rfl) stays
  | session | signal | workerThrows | resolver =>
    exact before.keep before.visited next rfl rfl stays

/-- What a cleanup is still to join or to destroy is finished. -/
theorem Lists.cleaning (lists : Lists s) (reaping : Reaping s) (pc : s.accept = .cleanup c)
    (member : ref ∈ c.pc.visits) : ref < s.nextRef ∧ (s.heap ref).state.finished = true := by
  have past : c.pc ≠ .lock := by
    intro here
    simp [here, CleanupPc.visits] at member
  have account := reaping.account c pc past
  have removed := lists.visited c pc ref member
  have condemned : ref ∈ s.condemned.map Prod.snd := by
    rw [account.condemned]
    exact List.mem_append_left _ removed
  obtain ⟨entry, within, rfl⟩ := List.mem_map.mp condemned
  exact account.finished entry within

/-- In every run with fewer than `2 ^ 64` connections whoever waits for a session waits for
one that is there. -/
theorem waiting_reached (reached : (forwarder p).Reach FewConnections s) : Calls s ∧ Lists s := by
  induction reached with
  | start init =>
    obtain ⟨fd, outcome, endpoints, -, rfl⟩ := init
    exact ⟨⟨by simp [started], by simp [started]⟩,
      ⟨by simp [started], by simp [started, StopPc.visits], by simp [started, StopPc.visits]⟩⟩
  | @next s t action before few moved ih =>
    obtain ⟨calls, lists⟩ := ih
    have move := step_move moved
    have reaping := reaping_reached before
    have sessions := fun ref (made : ref < s.nextRef) => session_reached before made
    exact ⟨move.calls (locks_reached before) sessions
        (fun c pc ref member => (lists.cleaning reaping pc member).1) lists.made calls,
      move.lists (table_reached before) calls
        (fun ref made => Tcp.exclusive_reached (sessions ref made)) lists⟩

end PortForwardX.TcpForwarder
