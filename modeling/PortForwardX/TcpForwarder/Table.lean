import PortForwardX.TcpForwarder.Move
import Mathlib.Data.List.Nodup

/-!
# The two session maps

Who holds `session_mutex_`, and what `sessions_` and `session_peers_` have in common. Ids
are given out in the order in which sessions are made, so the id of an entry is one more
than the number of sessions made before its own.
-/
namespace PortForwardX.TcpForwarder

open Transition Net

variable {p : Setup} {s t : State} {c c' : Cleanup} {a : Answer} {action : Action}

/-- A cleanup is between locking and unlocking the mutex. -/
def CleanupPc.locked : CleanupPc → Bool
  | .scan | .erase _ _ | .unlock => true
  | _ => false

/-- The accept thread is between locking and unlocking the mutex. -/
def AcceptPc.locked : AcceptPc → Bool
  | .cleanup c => c.pc.locked
  | .count _ _ _ | .make _ _ _ _ | .insertSession _ _ _ | .insertPeer _ _ _ | .unlock _ => true
  | _ => false

/-- `Stop` is between locking and unlocking the mutex. -/
def StopPc.locked : StopPc → Bool
  | .copy | .unlock _ | .clearSessions _ | .clearPeers _ | .unlockAgain _ => true
  | _ => false

/-- `Stop` has joined the accept thread. -/
def StopPc.pastAccept : StopPc → Bool
  | .idle | .shutdownListen | .closeListen | .setListenInvalid | .joinAccept => false
  | _ => true

theorem Cleanup.pc_of_finished (finished : c.finished = true) : c.pc = .destroy [] := by
  simpa [Cleanup.finished] using finished

/-- `Join` changes the session's worker at most. -/
theorem State.join_frame {ref : SessionRef} (joined : s.join ref = some t) :
    ∃ heap joins, t = { s with heap := heap, joins := joins } := by
  rcases State.join_cases joined with ⟨-, -, rfl⟩ | ⟨-, rfl⟩
  · exact ⟨_, _, rfl⟩
  · exact ⟨_, _, rfl⟩

/-- A cleanup leaves the other threads and the counters alone. -/
theorem CleanupMove.frame (move : CleanupMove s c a t c') :
    t.stop = s.stop ∧ t.accept = s.accept ∧ t.nextSessionId = s.nextSessionId ∧
      t.nextRef = s.nextRef ∧ t.terminated = s.terminated := by
  cases move with
  | join _ moved | destructor _ _ moved =>
    obtain ⟨heap, joins, rfl⟩ := State.join_frame moved
    exact ⟨rfl, rfl, rfl, rfl, rfl⟩
  | _ => exact ⟨rfl, rfl, rfl, rfl, rfl⟩

/-- The accept thread leaves `Stop` alone, and once it has exited it takes no step. -/
theorem AcceptMove.frame (move : AcceptMove p s a t) :
    t.stop = s.stop ∧ s.accept ≠ .exited := by
  cases move with
  | clean pc unfinished move => exact ⟨move.frame.1, by simp [pc]⟩
  | test pc | cleaned pc | accepted pc | notAccepted pc | retest pc | snapshotEmpty pc
  | snapshot pc | refreshed pc | notRefreshed pc | noTarget pc | snapshotAgain pc
  | unconnected pc | made pc | notMade pc | connected pc | notConnected pc | closeCandidate pc
  | closeClient pc | lock pc | count pc | make pc | insertSession pc | insertPeer pc | unlock pc
  | started pc | throws pc => exact ⟨rfl, by simp [pc]⟩

/-! ### The mutex -/

/-- Who holds `session_mutex_`. Once `Stop` has joined the accept thread, that thread is
over. -/
structure Locks (s : State) : Prop where
  acceptor : s.sessionMutex = some .acceptor ↔ s.accept.locked = true
  stopper : s.sessionMutex = some .stopper ↔ s.stop.locked = true
  exited : s.stop.pastAccept = true → s.accept = .exited

/-- A thread that still runs has not been joined. -/
theorem Locks.waiting (locks : Locks s) (move : AcceptMove p s a t) :
    s.stop.pastAccept = false := by
  by_contra past
  exact move.frame.2 (locks.exited (by simpa using past))

/-- What a step of the accept thread does to the mutex. -/
theorem CleanupMove.mutex (move : CleanupMove s c a t c') :
    (t.sessionMutex = s.sessionMutex ∧ c'.pc.locked = c.pc.locked) ∨
      (s.sessionMutex = none ∧ t.sessionMutex = some .acceptor ∧ c'.pc.locked = true) ∨
      (c.pc.locked = true ∧ t.sessionMutex = none ∧ c'.pc.locked = false) := by
  cases move with
  | lock pc free => exact .inr (.inl ⟨free, rfl, rfl⟩)
  | unlock pc => exact .inr (.inr ⟨by rw [pc]; rfl, rfl, rfl⟩)
  | join pc moved | destructor pc _ moved =>
    obtain ⟨heap, joins, rfl⟩ := State.join_frame moved
    exact .inl ⟨rfl, by rw [pc]; rfl⟩
  | scanned pc | spare pc | condemn pc | erase pc | joined pc | destroy pc =>
    exact .inl ⟨rfl, by simp [pc, CleanupPc.locked]⟩

theorem AcceptMove.mutex (move : AcceptMove p s a t) :
    (t.sessionMutex = s.sessionMutex ∧ t.accept.locked = s.accept.locked) ∨
      (s.sessionMutex = none ∧ t.sessionMutex = some .acceptor ∧ t.accept.locked = true) ∨
      (s.accept.locked = true ∧ t.sessionMutex = none ∧ t.accept.locked = false) := by
  cases move with
  | clean pc unfinished move =>
    rw [pc]
    exact move.mutex
  | cleaned pc finished =>
    have ended : s.accept.locked = false := by
      rw [pc, AcceptPc.locked, Cleanup.pc_of_finished finished]
      rfl
    refine .inl ⟨rfl, ?_⟩
    rw [ended]
    dsimp only [State.goto]
    split <;> rfl
  | retest pc =>
    refine .inl ⟨rfl, ?_⟩
    rw [pc]
    dsimp only [State.goto]
    split <;> rfl
  | lock pc free => exact .inr (.inl ⟨free, rfl, rfl⟩)
  | unlock pc => exact .inr (.inr ⟨by rw [pc]; rfl, rfl, rfl⟩)
  | throws => exact .inl ⟨rfl, rfl⟩
  | test pc | accepted pc | notAccepted pc | snapshotEmpty pc | snapshot pc | refreshed pc
  | notRefreshed pc | noTarget pc | snapshotAgain pc | unconnected pc | made pc | notMade pc
  | connected pc | notConnected pc | closeCandidate pc | closeClient pc | count pc | make pc
  | insertSession pc | insertPeer pc | started pc => exact .inl ⟨rfl, by rw [pc]; rfl⟩

/-- What a step of `Stop` does to the mutex. -/
theorem StopMove.mutex (move : StopMove s a t) :
    (t.sessionMutex = s.sessionMutex ∧ t.stop.locked = s.stop.locked) ∨
      (s.sessionMutex = none ∧ t.sessionMutex = some .stopper ∧ t.stop.locked = true) ∨
      (s.stop.locked = true ∧ t.sessionMutex = none ∧ t.stop.locked = false) := by
  cases move with
  | lock pc free | lockAgain pc free => exact .inr (.inl ⟨free, rfl, rfl⟩)
  | unlock pc | unlockAgain pc => exact .inr (.inr ⟨by rw [pc]; rfl, rfl, rfl⟩)
  | join pc moved | destructor pc _ moved =>
    obtain ⟨heap, joins, rfl⟩ := State.join_frame moved
    exact .inl ⟨rfl, by rw [pc]; rfl⟩
  | shutdownListen pc | closeListen pc | setListenInvalid pc | joinAccept pc | joinResolver pc
  | copy pc | stopped pc | callStop pc | stopReturned pc | joined pc | clearSessions pc
  | clearPeers pc | destroyed pc | destroy pc => exact .inl ⟨rfl, by rw [pc]; rfl⟩

/-- `Stop` leaves the accept thread alone and gets past it only when it has exited. -/
theorem StopMove.frame (move : StopMove s a t) :
    t.accept = s.accept ∧
      (t.stop.pastAccept = true → s.stop.pastAccept = true ∨ s.accept = .exited) := by
  cases move with
  | joinAccept pc ended => exact ⟨rfl, fun _ => .inr ended⟩
  | join pc moved | destructor pc _ moved =>
    obtain ⟨heap, joins, rfl⟩ := State.join_frame moved
    exact ⟨rfl, fun _ => .inl (by rw [pc]; rfl)⟩
  | shutdownListen pc | closeListen pc | setListenInvalid pc =>
    exact ⟨rfl, by simp [StopPc.pastAccept]⟩
  | joinResolver pc | lock pc | copy pc | unlock pc | stopped pc | callStop pc | stopReturned pc
  | joined pc | lockAgain pc | clearSessions pc | clearPeers pc | unlockAgain pc | destroyed pc
  | destroy pc => exact ⟨rfl, fun _ => .inl (by rw [pc]; rfl)⟩

theorem Move.locks (move : Move p s action t) (before : Locks s) : Locks t := by
  obtain ⟨acceptor, stopper, exited⟩ := id before
  cases move with
  | accept move =>
    have stop := move.frame.1
    have waiting : t.stop.pastAccept = false := by
      rw [stop]
      exact before.waiting move
    refine ⟨?_, ?_, by simp [waiting]⟩
    · rcases move.mutex with ⟨same, locked⟩ | ⟨-, taken, locked⟩ | ⟨-, left, locked⟩
      · rw [same, locked]
        exact acceptor
      · simp [taken, locked]
      · simp [left, locked]
    · rw [stop, ← stopper]
      rcases move.mutex with ⟨same, -⟩ | ⟨free, taken, -⟩ | ⟨held, left, -⟩
      · rw [same]
      · simp [free, taken]
      · simp [acceptor.mpr held, left]
  | stop move =>
    obtain ⟨accept, past⟩ := move.frame
    refine ⟨?_, ?_, fun ended => ?_⟩
    · rw [accept, ← acceptor]
      rcases move.mutex with ⟨same, -⟩ | ⟨free, taken, -⟩ | ⟨held, left, -⟩
      · rw [same]
      · simp [free, taken]
      · simp [stopper.mpr held, left]
    · rcases move.mutex with ⟨same, locked⟩ | ⟨-, taken, locked⟩ | ⟨-, left, locked⟩
      · rw [same, locked]
        exact stopper
      · simp [taken, locked]
      · simp [left, locked]
    · rw [accept]
      exact (past ended).elim exited id
  | callStop pc =>
    have unlocked : s.sessionMutex ≠ some .stopper := by
      rw [ne_eq, stopper, pc]
      simp [StopPc.locked]
    exact ⟨acceptor, by simpa [StopPc.locked] using unlocked, by simp [StopPc.pastAccept]⟩
  | _ => exact ⟨acceptor, stopper, exited⟩

theorem locks_reached {ok : State → Action → Prop} (reached : (forwarder p).Reach ok s) :
    Locks s := by
  refine reached.invariant (P := Locks) ?_ fun _ _ _ _ before _ moved => (step_move moved).locks before
  rintro _ ⟨fd, outcome, endpoints, -, rfl⟩
  exact ⟨by simp [started, AcceptPc.locked], by simp [started, StopPc.locked],
    by simp [started, StopPc.pastAccept]⟩

/-! ### Ids -/

/-- A connection is about to get an id. -/
def AcceptPc.counts : AcceptPc → Bool
  | .count _ _ _ => true
  | _ => false

/-- Fewer than `2 ^ 64` connections get a session. -/
def FewConnections (s : State) (_ : Action) : Prop :=
  s.accept.counts = true → s.nextRef + 1 < UInt64.size

instance (s : State) (action : Action) : Decidable (FewConnections s action) :=
  inferInstanceAs (Decidable (s.accept.counts = true → s.nextRef + 1 < UInt64.size))

/-- The counter and the id in use, at a control point of the accept thread. -/
def AcceptPc.Numbered (s : State) : AcceptPc → Prop
  | .make _ _ _ id => id = s.nextSessionId ∧ id.toNat = s.nextRef + 1
  | .insertSession ref _ id =>
    id.toNat = ref + 1 ∧ ref + 1 = s.nextRef ∧ s.nextSessionId.toNat = s.nextRef
  | _ => s.nextSessionId.toNat = s.nextRef

/-- The session that has been made and not yet entered. -/
def AcceptPc.making : AcceptPc → Option SessionRef
  | .insertSession ref _ _ => some ref
  | _ => none

/-- The key that `sessions_` has already and `session_peers_` does not. -/
def AcceptPc.unpaired : AcceptPc → List UInt64
  | .insertPeer _ _ id => [id]
  | _ => []

/-- `Stop` has cleared one of the maps and not yet the other. -/
def StopPc.clearing : StopPc → Bool
  | .clearPeers _ => true
  | _ => false

/-- `Stop` has cleared `sessions_`. -/
def StopPc.cleared : StopPc → Bool
  | .clearPeers _ | .unlockAgain _ | .destroy _ | .inDestructor _ _ | .done => true
  | _ => false

theorem StopPc.pastAccept_of_cleared {pc : StopPc} (cleared : pc.cleared = true) :
    pc.pastAccept = true := by
  cases pc <;> first | rfl | cases cleared

def State.keys (s : State) : List UInt64 := s.sessions.map Prod.fst

def State.peerKeys (s : State) : List UInt64 := s.sessionPeers.map Prod.fst

/-- The two maps and the counter fit together. -/
structure Table (s : State) : Prop where
  numbering : s.accept.Numbered s
  numbered : ∀ entry ∈ s.sessions, entry.1.toNat = entry.2 + 1
  entered : ∀ entry ∈ s.sessions, entry.2 < s.nextRef ∧ s.accept.making ≠ some entry.2
  unique : (s.sessions.map Prod.snd).Nodup
  paired : s.stop.clearing = false → s.keys = s.accept.unpaired ++ s.peerKeys
  cleared : s.stop.cleared = true → s.sessions = []

/-- Entries under one id are for one session. -/
theorem Table.session_eq (table : Table s) {e e' : UInt64 × SessionRef} (member : e ∈ s.sessions)
    (member' : e' ∈ s.sessions) (same : e.1 = e'.1) : e = e' := by
  have first := table.numbered e member
  have second := table.numbered e' member'
  rw [same, second] at first
  exact Prod.ext same (Nat.succ.inj first).symm

/-- No id is used twice. -/
theorem Table.keys_nodup (table : Table s) : s.keys.Nodup :=
  List.Nodup.map_on (fun _ member _ member' same => table.session_eq member member' same)
    (List.Nodup.of_map _ table.unique)

/-- Where the accept thread makes no session, the counter is the number of sessions made. -/
theorem Table.counted (table : Table s)
    (elsewhere : ∀ client upstream peer id, s.accept ≠ .make client upstream peer id) :
    s.nextSessionId.toNat = s.nextRef := by
  have numbering := table.numbering
  unfold AcceptPc.Numbered at numbering
  split at numbering
  next pc => exact absurd pc (elsewhere _ _ _ _)
  next => exact numbering.2.2
  next => exact numbering

/-- The counter is never behind the number of sessions made. -/
theorem Table.counter (table : Table s) : s.nextRef ≤ s.nextSessionId.toNat := by
  by_cases making : ∃ client upstream peer id, s.accept = .make client upstream peer id
  · obtain ⟨client, upstream, peer, id, pc⟩ := making
    have numbering := table.numbering
    rw [pc] at numbering
    obtain ⟨rfl, number⟩ := numbering
    exact number ▸ Nat.le_succ _
  · have elsewhere : ∀ client upstream peer id, s.accept ≠ .make client upstream peer id :=
      fun client upstream peer id pc => making ⟨client, upstream, peer, id, pc⟩
    exact (table.counted elsewhere).ge

/-- The session that is about to be entered and its id are not in the map. -/
theorem Table.fresh (table : Table s) {ref : SessionRef} {peer : SockAddr} {id : UInt64}
    (pc : s.accept = .insertSession ref peer id) :
    ∀ entry ∈ s.sessions, entry.2 ≠ ref ∧ entry.1 ≠ id := by
  have numbering := table.numbering
  rw [pc] at numbering
  intro entry member
  have other : ref ≠ entry.2 := by
    simpa [pc, AcceptPc.making] using (table.entered entry member).2
  refine ⟨other.symm, fun same => other ?_⟩
  have numbered := table.numbered entry member
  rw [same, numbering.1] at numbered
  exact Nat.succ.inj numbered

/-- So the insertion overwrites nothing. -/
theorem Table.insert_fresh (table : Table s) {ref : SessionRef} {peer : SockAddr} {id : UInt64}
    (pc : s.accept = .insertSession ref peer id) :
    s.sessions.filter (fun entry => entry.1 != id) = s.sessions :=
  List.filter_eq_self.mpr fun entry member => by simpa using (table.fresh pc entry member).2

/-- A step that leaves the maps and the number of sessions alone. -/
theorem Table.keep (before : Table s) (sessions : t.sessions = s.sessions)
    (peers : t.sessionPeers = s.sessionPeers) (made : t.nextRef = s.nextRef)
    (numbering : t.accept.Numbered t)
    (making : t.accept.making = s.accept.making ∨ t.accept.making = none)
    (unpaired : t.accept.unpaired = s.accept.unpaired)
    (clearing : t.stop.clearing = s.stop.clearing) (cleared : t.stop.cleared = s.stop.cleared) :
    Table t where
  numbering := numbering
  numbered := sessions ▸ before.numbered
  entered entry member := by
    obtain ⟨old, other⟩ := before.entered entry (sessions ▸ member)
    refine ⟨made ▸ old, ?_⟩
    rcases making with same | none_
    · exact same ▸ other
    · simp [none_]
  unique := sessions ▸ before.unique
  paired := by
    unfold State.keys State.peerKeys
    rw [clearing, unpaired, sessions, peers]
    exact before.paired
  cleared := by
    rw [cleared, sessions]
    exact before.cleared

/-- An erasure takes the same key out of both maps. -/
theorem Table.erase (before : Table s) (id : UInt64) (unpaired : s.accept.unpaired = []) :
    Table (s.eraseEntry id) where
  numbering := before.numbering
  numbered entry member := before.numbered entry (List.mem_of_mem_filter member)
  entered entry member := before.entered entry (List.mem_of_mem_filter member)
  unique := before.unique.sublist (List.filter_sublist.map Prod.snd)
  paired running := by
    have same := before.paired running
    simp only [State.keys, State.peerKeys, unpaired, List.nil_append, State.eraseEntry] at same ⊢
    -- both maps are filtered by their keys
    have filtered := congrArg (List.filter fun key => key != id) same
    simpa only [List.filter_map, Function.comp_def] using filtered
  cleared ended := by simp [State.eraseEntry, before.cleared ended]

theorem CleanupMove.table (move : CleanupMove s c a t c') (before : Table s)
    (pc : s.accept = .cleanup c) : Table (t.goto (.cleanup c')) := by
  have numbering : s.nextSessionId.toNat = s.nextRef := before.counted (by simp [pc])
  have unpaired : s.accept.unpaired = [] := by rw [pc]; rfl
  cases move with
  | erase =>
    exact (before.erase _ unpaired).keep rfl rfl rfl numbering (.inr rfl) unpaired.symm rfl rfl
  | join _ moved | destructor _ _ moved =>
    obtain ⟨heap, joins, rfl⟩ := State.join_frame moved
    exact before.keep rfl rfl rfl numbering (.inr rfl) unpaired.symm rfl rfl
  | _ => exact before.keep rfl rfl rfl numbering (.inr rfl) unpaired.symm rfl rfl

theorem AcceptMove.table (move : AcceptMove p s a t) (before : Table s)
    (waiting : s.stop.pastAccept = false) (few : FewConnections s (.accept a)) : Table t := by
  have numbering := before.numbering
  cases move with
  | clean pc unfinished move => exact move.table before pc
  | count pc =>
    rw [pc] at numbering
    have few := few (by rw [pc]; rfl)
    have next : (s.nextSessionId + 1).toNat = s.nextRef + 1 := by
      rw [UInt64.toNat_add, numbering]
      exact Nat.mod_eq_of_lt few
    exact before.keep rfl rfl rfl ⟨rfl, next⟩ (.inr rfl) (by rw [pc]; rfl) rfl rfl
  | make pc =>
    rw [pc] at numbering
    obtain ⟨rfl, number⟩ := numbering
    refine ⟨⟨number, rfl, number⟩, before.numbered, fun entry member => ?_, before.unique,
      fun running => ?_, before.cleared⟩
    · -- the new session is none of those in the table
      have old := (before.entered entry member).1
      exact ⟨Nat.lt_succ_of_lt old, by simpa [AcceptPc.making] using Nat.ne_of_gt old⟩
    · have same := before.paired running
      rw [pc] at same
      exact same
  | @insertSession a ref peer id pc =>
    rw [pc] at numbering
    obtain ⟨number, made, counted⟩ := numbering
    have fresh := before.fresh pc
    have kept := before.insert_fresh pc
    have paired := before.paired
    rw [pc] at paired
    refine ⟨counted, ?_, ?_, ?_, fun running => ?_, fun cleared => ?_⟩
    · simpa [kept, number] using before.numbered
    · intro entry member
      rw [State.goto, State.insertSession, kept] at member
      rcases List.mem_cons.mp member with rfl | old
      · exact ⟨made ▸ Nat.lt_succ_self ref, by simp [AcceptPc.making]⟩
      · exact ⟨(before.entered entry old).1, by simp [AcceptPc.making]⟩
    · simp only [State.goto, State.insertSession, kept, List.map_cons, List.nodup_cons]
      refine ⟨fun member => ?_, before.unique⟩
      obtain ⟨entry, within, same⟩ := List.mem_map.mp member
      exact (fresh entry within).1 same
    · have same := paired running
      simp only [State.keys, State.peerKeys, AcceptPc.unpaired, List.nil_append] at same
      simp [State.keys, State.peerKeys, AcceptPc.unpaired, kept, same]
    · exact absurd (StopPc.pastAccept_of_cleared cleared) (by simp [waiting])
  | @insertPeer a ref peer id pc =>
    rw [pc] at numbering
    have nodup := before.keys_nodup
    refine ⟨numbering, before.numbered, fun entry member => ?_, before.unique, fun running => ?_,
      before.cleared⟩
    · exact ⟨(before.entered entry member).1, by simp [AcceptPc.making]⟩
    · have same := before.paired running
      rw [pc] at same
      -- the key has no label yet, so nothing is overwritten
      rw [same] at nodup
      have absent : id ∉ s.peerKeys := (List.nodup_cons.mp nodup).1
      have kept : s.sessionPeers.filter (fun entry => entry.1 != id) = s.sessionPeers :=
        List.filter_eq_self.mpr fun entry member => by
          refine bne_iff_ne.mpr fun same => absent ?_
          exact same ▸ List.mem_map_of_mem member
      simpa [State.keys, State.peerKeys, AcceptPc.unpaired, kept] using same
  | cleaned pc | retest pc =>
    rw [pc] at numbering
    refine before.keep rfl rfl rfl ?_ (.inr ?_) ?_ rfl rfl
    · dsimp only [State.goto]
      split <;> exact numbering
    · dsimp only [State.goto]
      split <;> rfl
    · rw [pc]
      dsimp only [State.goto]
      split <;> rfl
  | throws => exact before.keep rfl rfl rfl numbering (.inl rfl) rfl rfl rfl
  | test pc | accepted pc | notAccepted pc | snapshotEmpty pc | snapshot pc | refreshed pc
  | notRefreshed pc | noTarget pc | snapshotAgain pc | unconnected pc | made pc | notMade pc
  | connected pc | notConnected pc | closeCandidate pc | closeClient pc | lock pc | unlock pc
  | started pc =>
    rw [pc] at numbering
    exact before.keep rfl rfl rfl numbering (.inr rfl) (by rw [pc]; rfl) rfl rfl

theorem StopMove.table (move : StopMove s a t) (before : Table s) (locks : Locks s) : Table t := by
  cases move with
  | clearSessions pc =>
    exact ⟨before.numbering, by simp, by simp, by simp, by simp [StopPc.clearing], fun _ => rfl⟩
  | clearPeers pc =>
    -- the accept thread is over, so it has no key pending
    have ended := locks.exited (by rw [pc]; rfl)
    have empty := before.cleared (by rw [pc]; rfl)
    refine ⟨before.numbering, before.numbered, before.entered, before.unique, fun _ => ?_,
      fun _ => empty⟩
    simp [State.keys, State.peerKeys, ended, AcceptPc.unpaired, empty]
  | join pc moved | destructor pc _ moved =>
    obtain ⟨heap, joins, rfl⟩ := State.join_frame moved
    exact before.keep rfl rfl rfl before.numbering (.inl rfl) rfl (by rw [pc]; rfl) (by rw [pc]; rfl)
  | shutdownListen pc | closeListen pc | setListenInvalid pc | joinAccept pc | joinResolver pc
  | lock pc | copy pc | unlock pc | stopped pc | callStop pc | stopReturned pc | joined pc
  | lockAgain pc | unlockAgain pc | destroyed pc | destroy pc =>
    exact before.keep rfl rfl rfl before.numbering (.inl rfl) rfl (by rw [pc]; rfl) (by rw [pc]; rfl)

theorem Move.table (move : Move p s action t) (before : Table s) (locks : Locks s)
    (few : FewConnections s action) : Table t := by
  cases move with
  | accept move => exact move.table before (locks.waiting move) few
  | stop move => exact move.table before locks
  | callStop pc =>
    exact before.keep rfl rfl rfl before.numbering (.inl rfl) rfl (by rw [pc]; rfl) (by rw [pc]; rfl)
  | _ => exact before.keep rfl rfl rfl before.numbering (.inl rfl) rfl rfl rfl

theorem table_reached (reached : (forwarder p).Reach FewConnections s) : Table s := by
  induction reached with
  | start init =>
    obtain ⟨fd, outcome, endpoints, -, rfl⟩ := init
    exact ⟨rfl, by simp [started], by simp [started], by simp [started], fun _ => rfl, fun _ => rfl⟩
  | next before few moved ih => exact (step_move moved).table ih (locks_reached before) few

end PortForwardX.TcpForwarder
