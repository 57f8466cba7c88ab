import PortForwardX.TcpForwarder.Sessions
import Mathlib.Data.List.Perm.Basic

/-!
# What a cleanup removes

`CleanupFinishedSessions` tests every entry it finds once, takes out those that are
finished and joins them. A session that is in neither map any more is finished, and joined
or about to be.
-/
namespace PortForwardX.TcpForwarder

open Transition Net

variable {p : Setup} {s t : State} {c c' : Cleanup} {a : Answer} {action : Action}
  {ref r : SessionRef}

/-- The entry that has been found finished and is still in the map. -/
def CleanupPc.erasing : CleanupPc → List (UInt64 × SessionRef)
  | .erase id ref => [(id, ref)]
  | _ => []

/-- The cleanup is in its first loop. -/
def CleanupPc.scanning : CleanupPc → Bool
  | .scan | .erase _ _ => true
  | _ => false

/-- Sessions taken out of the map and not joined yet. -/
def Cleanup.unjoined (c : Cleanup) : List SessionRef :=
  match c.pc with
  | .join rest => rest
  | .destroy _ | .inDestructor _ _ => []
  | _ => c.finishedSessions

def AcceptPc.unjoined : AcceptPc → List SessionRef
  | .cleanup c => c.unjoined
  | _ => []

/-- The sessions `Stop` has still to join, once it has a list of them. -/
def StopPc.unjoined : StopPc → Option (List SessionRef)
  | .unlock sessions | .stopEach sessions _ | .inStop sessions _ _ => some sessions
  | .joinEach _ rest => some rest
  | .lockAgain _ | .clearSessions _ | .clearPeers _ | .unlockAgain _ | .destroy _
  | .inDestructor _ _ | .done => some []
  | _ => none

theorem StopPc.pastAccept_of_unjoined {pc : StopPc} {rest : List SessionRef}
    (listed : pc.unjoined = some rest) : pc.pastAccept = true := by
  cases pc <;> first | rfl | cases listed

/-- The entries the last cleanup has found unfinished. -/
def State.spared (s : State) : List (UInt64 × SessionRef) :=
  (s.tests.filter fun test => !test.2).map Prod.fst

/-- The entries the last cleanup has found finished. -/
def State.condemned (s : State) : List (UInt64 × SessionRef) :=
  (s.tests.filter fun test => test.2).map Prod.fst

/-- The account of a cleanup that has taken the mutex. -/
structure Accounted (s : State) (c : Cleanup) : Prop where
  examined : s.tests.map Prod.fst ++ c.todo = s.found
  distinct : (s.found.map Prod.fst).Nodup
  spared : s.sessions.Perm (s.spared ++ c.pc.erasing ++ c.todo)
  condemned : s.condemned.map Prod.snd = c.finishedSessions ++ c.pc.erasing.map Prod.snd
  scanned : c.pc.scanning = false → c.todo = []
  finished : ∀ e ∈ s.condemned, e.2 < s.nextRef ∧ (s.heap e.2).state.finished = true
  joined : ∀ ref ∈ c.finishedSessions, (s.heap ref).worker = .joined ∨ ref ∈ c.unjoined

/-! ### The account of one cleanup -/

/-- What is recorded stays recorded while workers and sessions go on. -/
theorem Accounted.keep (before : Accounted s c) (tests : t.tests = s.tests)
    (found : t.found = s.found) (sessions : t.sessions = s.sessions) (made : s.nextRef ≤ t.nextRef)
    (finished : ∀ r < s.nextRef, (s.heap r).state.finished = true →
      (t.heap r).state.finished = true)
    (joined : ∀ r, (s.heap r).worker = .joined → (t.heap r).worker = .joined) : Accounted t c where
  examined := by
    rw [tests, found]
    exact before.examined
  distinct := found ▸ before.distinct
  spared := by
    unfold State.spared
    rw [tests, sessions]
    exact before.spared
  condemned := by
    unfold State.condemned
    rw [tests]
    exact before.condemned
  scanned := before.scanned
  finished e member := by
    unfold State.condemned at member
    rw [tests] at member
    obtain ⟨old, ended⟩ := before.finished e member
    exact ⟨Nat.lt_of_lt_of_le old made, finished e.2 old ended⟩
  joined ref member := (before.joined ref member).imp_left (joined ref)

/-- What a cleanup has taken out of the map has been made. -/
theorem Accounted.made (account : Accounted s c) : ∀ ref ∈ c.finishedSessions, ref < s.nextRef := by
  intro ref member
  have condemned : ref ∈ s.condemned.map Prod.snd := by
    rw [account.condemned]
    exact List.mem_append_left _ member
  obtain ⟨e, within, rfl⟩ := List.mem_map.mp condemned
  exact (account.finished e within).1

/-- A cleanup that goes on to its second loop has the same account. -/
theorem Accounted.goto {pc : CleanupPc} (before : Accounted s c) (erasing : c.pc.erasing = [])
    (after : pc.erasing = []) (scanned : c.todo = [])
    (unjoined : ∀ ref < s.nextRef, ref ∈ c.unjoined → (s.heap ref).worker = .joined ∨
      ref ∈ { c with pc := pc }.unjoined) : Accounted s { c with pc := pc } where
  examined := before.examined
  distinct := before.distinct
  spared := by
    rw [after, ← erasing]
    exact before.spared
  condemned := by
    rw [after, ← erasing]
    exact before.condemned
  scanned _ := scanned
  finished := before.finished
  joined ref member := (before.joined ref member).elim .inl (unjoined ref (before.made ref member))

/-- The loop passes over an unfinished session. -/
theorem Accounted.spare {id : UInt64} {rest : List (UInt64 × SessionRef)} (before : Accounted s c)
    (pc : c.pc = .scan) (todo : c.todo = (id, ref) :: rest) :
    Accounted { s with tests := s.tests ++ [((id, ref), false)] }
      { c with todo := rest, pc := .scan } := by
  obtain ⟨examined, distinct, spared, condemned, -, finished, joined⟩ := before
  rw [todo] at examined spared
  rw [pc] at spared condemned
  refine ⟨?_, distinct, ?_, ?_, by simp [CleanupPc.scanning], ?_, ?_⟩
  · simpa using examined
  · simpa [State.spared, CleanupPc.erasing] using spared
  · simpa [State.condemned, CleanupPc.erasing] using condemned
  · simpa [State.condemned] using finished
  · simpa [Cleanup.unjoined, pc] using joined

/-- The loop has found a session finished. -/
theorem Accounted.condemn {id : UInt64} {rest : List (UInt64 × SessionRef)} (before : Accounted s c)
    (pc : c.pc = .scan) (todo : c.todo = (id, ref) :: rest) (made : ref < s.nextRef)
    (ended : (s.heap ref).state.finished = true) :
    Accounted { s with tests := s.tests ++ [((id, ref), true)] }
      { c with todo := rest, pc := .erase id ref } := by
  obtain ⟨examined, distinct, spared, condemned, -, finished, joined⟩ := before
  rw [todo] at examined spared
  rw [pc] at spared condemned
  refine ⟨?_, distinct, ?_, ?_, by simp [CleanupPc.scanning], ?_, ?_⟩
  · simpa using examined
  · simpa [State.spared, CleanupPc.erasing] using spared
  · simpa [State.condemned, CleanupPc.erasing] using condemned
  · intro e member
    simp only [State.condemned, List.filter_append, List.map_append, List.mem_append] at member
    rcases member with old | new
    · exact finished e old
    · obtain rfl : e = (id, ref) := by simpa using new
      exact ⟨made, ended⟩
  · simpa [Cleanup.unjoined, pc] using joined

/-- The finished session leaves the map. No other entry has its id. -/
theorem Accounted.erase {id : UInt64} {peers : List String} (before : Accounted s c)
    (table : Table s) (pc : c.pc = .erase id ref) :
    Accounted (s.eraseEntry id)
      { c with finishedSessions := c.finishedSessions ++ [ref], finishedPeers := peers
               pc := .scan } := by
  obtain ⟨examined, distinct, spared, condemned, -, finished, joined⟩ := before
  rw [pc] at spared condemned
  have order : s.sessions.Perm ((id, ref) :: (s.spared ++ c.todo)) := by
    simp only [CleanupPc.erasing, List.append_assoc, List.singleton_append] at spared
    exact spared.trans List.perm_middle
  have keys : (id :: (s.spared ++ c.todo).map Prod.fst).Nodup :=
    (order.map Prod.fst).nodup_iff.mp table.keys_nodup
  have others : (s.spared ++ c.todo).filter (fun entry => entry.1 != id) = s.spared ++ c.todo := by
    refine List.filter_eq_self.mpr fun entry member => bne_iff_ne.mpr fun same => ?_
    exact (List.nodup_cons.mp keys).1 (same ▸ List.mem_map_of_mem member)
  refine ⟨examined, distinct, ?_, ?_, by simp [CleanupPc.scanning], finished, ?_⟩
  · have filtered := order.filter fun entry => entry.1 != id
    rw [List.filter_cons_of_neg (by simp), others] at filtered
    simpa [State.spared, State.eraseEntry, CleanupPc.erasing] using filtered
  · simpa [State.condemned, State.eraseEntry, CleanupPc.erasing] using condemned
  · intro r member
    exact .inr (by simpa [Cleanup.unjoined] using member)

/-! ### The invariant -/

/-- The account of the cleanup under way, and where each session is that has been made. -/
structure Reaping (s : State) : Prop where
  fresh : ∀ c, s.accept = .cleanup c → c.pc = .lock → c.todo = [] ∧ c.finishedSessions = []
  account : ∀ c, s.accept = .cleanup c → c.pc ≠ .lock → Accounted s c
  placed : ∀ ref < s.nextRef, ref ∈ s.sessions.map Prod.snd ∨ s.accept.making = some ref ∨
    ((s.heap ref).state.finished = true ∧
      ((s.heap ref).worker = .joined ∨ ref ∈ s.accept.unjoined))
  stopping : ∀ rest, s.stop.unjoined = some rest → ∀ ref < s.nextRef,
    (s.heap ref).worker = .joined ∨ ref ∈ rest

/-- A joined worker stays joined. -/
theorem Work.stays (work : Work s t) (workers : Workers s) (joined : (s.heap r).worker = .joined) :
    (t.heap r).worker = .joined := by
  cases work with
  | idle worker => rwa [worker]
  | made worker =>
    rwa [worker r]
    exact Nat.ne_of_lt (workers.made joined)
  | started ref worker new _ _ before =>
    rwa [worker r]
    rintro rfl
    rw [(workers.unstarted r).mpr (.inr before)] at joined
    cases joined
  | joined ref _ _ worker new =>
    by_cases same : r = ref
    · rwa [same]
    · rwa [worker r same]

/-- A step that leaves the map, the cleanup and the making of sessions alone. -/
theorem Reaping.keep (before : Reaping s) (workers : Workers s) (work : Work s t)
    (advances : ∀ r < s.nextRef, (s.heap r).Advances (t.heap r)) (tests : t.tests = s.tests)
    (found : t.found = s.found) (sessions : t.sessions = s.sessions) (made : t.nextRef = s.nextRef)
    (accept : t.accept = s.accept ∨ (∀ c, t.accept = .cleanup c →
      c.pc = .lock ∧ c.todo = [] ∧ c.finishedSessions = []) ∧ s.accept.making = none ∧
      s.accept.unjoined = []) (stop : t.stop.unjoined = s.stop.unjoined) : Reaping t := by
  have finished : ∀ r < s.nextRef, (s.heap r).state.finished = true →
      (t.heap r).state.finished = true := fun r old => (advances r old).stays.2
  have joined : ∀ r, (s.heap r).worker = .joined → (t.heap r).worker = .joined :=
    fun r => work.stays workers
  refine ⟨fun c pc => ?_, fun c pc past => ?_, fun ref old => ?_, fun rest listed ref old => ?_⟩
  · rcases accept with same | ⟨new, -⟩
    · exact before.fresh c (same ▸ pc)
    · exact fun _ => (new c pc).2
  · rcases accept with same | ⟨new, -⟩
    · exact (before.account c (same ▸ pc) past).keep tests found sessions made.ge finished joined
    · exact absurd (new c pc).1 past
  · rw [made] at old
    rw [sessions]
    rcases before.placed ref old with listed | making | ⟨ended, rest⟩
    · exact .inl listed
    · rcases accept with same | ⟨-, none_, -⟩
      · exact .inr (.inl (same ▸ making))
      · rw [none_] at making
        cases making
    · refine .inr (.inr ⟨finished ref old ended, ?_⟩)
      rcases accept with same | ⟨-, -, none_⟩
      · exact rest.imp (joined ref) fun member => same ▸ member
      · exact .inl (joined ref (rest.resolve_right (by simp [none_])))
  · exact (before.stopping rest (stop ▸ listed) ref (made ▸ old)).imp_left (joined ref)

/-- `Join` on a session that has been started leaves it joined. -/
theorem State.join_joined (moved : s.join ref = some t)
    (started : (s.heap ref).worker ≠ .notStarted) : (t.heap ref).worker = .joined := by
  rcases State.join_cases moved with ⟨-, -, rfl⟩ | ⟨other, rfl⟩
  · simp
  · cases worker : (t.heap ref).worker with
    | notStarted => exact absurd worker started
    | joinable => exact absurd worker other
    | joined => rfl

/-- A step of the cleanup under way. -/
theorem Reaping.clean (before : Reaping s) (pc : s.accept = .cleanup c) (past : c'.pc ≠ .lock)
    (account : Accounted t c') (made : t.nextRef = s.nextRef) (stop : t.stop = s.stop)
    (joined : ∀ r, (s.heap r).worker = .joined → (t.heap r).worker = .joined)
    (placed : ∀ ref < s.nextRef, ref ∈ s.sessions.map Prod.snd ∨
        (s.heap ref).state.finished = true ∧ ((s.heap ref).worker = .joined ∨ ref ∈ c.unjoined) →
      ref ∈ t.sessions.map Prod.snd ∨
        (t.heap ref).state.finished = true ∧ ((t.heap ref).worker = .joined ∨ ref ∈ c'.unjoined)) :
    Reaping (t.goto (.cleanup c')) := by
  refine ⟨?_, ?_, fun ref old => ?_, fun rest listed ref old => ?_⟩
  · rintro _ ⟨⟩ lock
    exact absurd lock past
  · rintro _ ⟨⟩ -
    exact account.keep rfl rfl rfl (Nat.le_refl _) (fun _ _ => id) fun _ => id
  · have somewhere := before.placed ref (made ▸ old)
    simp only [pc, AcceptPc.making, reduceCtorEq, false_or] at somewhere
    exact (placed ref (made ▸ old) somewhere).imp_right .inr
  · exact (before.stopping rest (stop ▸ listed) ref (made ▸ old)).imp_left (joined ref)

theorem CleanupMove.reaping (move : CleanupMove s c a t c') (before : Reaping s) (table : Table s)
    (workers : Workers s) (pc : s.accept = .cleanup c) : Reaping (t.goto (.cleanup c')) := by
  have fresh := before.fresh c pc
  have account := before.account c pc
  have started : ∀ ref < s.nextRef, (s.heap ref).worker ≠ .notStarted := by
    intro ref made unstarted
    have := (workers.unstarted ref).mp unstarted
    simp only [pc, AcceptPc.unstarted, reduceCtorEq, or_false] at this
    exact Nat.not_le_of_lt made this
  have finished : ∀ r < s.nextRef, (s.heap r).state.finished = true →
      (t.heap r).state.finished = true := fun r _ => (move.advances r).stays.2
  have joined : ∀ r, (s.heap r).worker = .joined → (t.heap r).worker = .joined :=
    fun r => move.work.stays workers
  cases move with
  | lock here free order =>
    obtain ⟨-, none_⟩ := fresh here
    refine before.clean pc (by simp) ?_ rfl rfl joined fun ref old => ?_
    · refine ⟨rfl, (order.map Prod.fst).nodup_iff.mpr table.keys_nodup, ?_, ?_,
        by simp [CleanupPc.scanning], by simp [State.condemned], by simp [none_]⟩
      · simpa [State.spared, CleanupPc.erasing] using order.symm
      · simp [State.condemned, CleanupPc.erasing, none_]
    · simp [Cleanup.unjoined, here]
  | scanned here todo =>
    have account := account (by simp [here])
    refine before.clean pc (by simp) ?_ rfl rfl joined fun ref old => ?_
    · exact account.goto (by rw [here]; rfl) rfl todo fun ref _ member => .inr (by
        simpa [Cleanup.unjoined, here] using member)
    · simp [Cleanup.unjoined, here]
  | spare here todo =>
    have account := account (by simp [here])
    refine before.clean pc (by simp) (account.spare here todo) rfl rfl joined fun ref old => ?_
    simp [Cleanup.unjoined, here]
  | condemn here todo ended =>
    have account := account (by simp [here])
    have listed := account.spared.mem_iff.mpr (List.mem_append_right _ (todo ▸ List.mem_cons_self))
    refine before.clean pc (by simp) ?_ rfl rfl joined fun ref old => ?_
    · exact account.condemn here todo (table.entered _ listed).1 ended
    · simp [Cleanup.unjoined, here]
  | @erase a id ref here =>
    have account := account (by simp [here])
    have listed : (id, ref) ∈ s.sessions := by
      refine account.spared.mem_iff.mpr (List.mem_append_left _ (List.mem_append_right _ ?_))
      simp [here, CleanupPc.erasing]
    have ended : (s.heap ref).state.finished = true := by
      have member : ref ∈ s.condemned.map Prod.snd := by
        rw [account.condemned]
        simp [here, CleanupPc.erasing]
      obtain ⟨e, within, rfl⟩ := List.mem_map.mp member
      exact (account.finished e within).2
    refine before.clean pc (by simp) (account.erase table here) rfl rfl joined fun r old place => ?_
    rcases place with member | ⟨done, rest⟩
    · obtain ⟨e, within, rfl⟩ := List.mem_map.mp member
      by_cases same : e.1 = id
      · -- the entry erased is the one that was found finished
        obtain rfl := table.session_eq within listed same
        exact .inr ⟨ended, .inr (by simp [Cleanup.unjoined])⟩
      · refine .inl (List.mem_map_of_mem (List.mem_filter.mpr ⟨within, ?_⟩))
        exact bne_iff_ne.mpr same
    · refine .inr ⟨done, rest.imp_right fun member => ?_⟩
      simp only [Cleanup.unjoined, here] at member ⊢
      exact List.mem_append_left _ member
  | unlock here =>
    have account := account (by simp [here])
    have kept := account.keep (t := { s with sessionMutex := none }) rfl rfl rfl (Nat.le_refl _)
      finished joined
    refine before.clean pc (by simp) ?_ rfl rfl joined fun ref old => ?_
    · exact kept.goto (by rw [here]; rfl) rfl (account.scanned (by rw [here]; rfl)) fun ref _ member =>
        .inr (by simpa [Cleanup.unjoined, here] using member)
    · simp [Cleanup.unjoined, here]
  | joined here =>
    have account := account (by simp [here])
    refine before.clean pc (by simp) ?_ rfl rfl joined fun ref old => ?_
    · exact account.goto (by rw [here]; rfl) rfl (account.scanned (by rw [here]; rfl)) fun ref _ member =>
        by simp [Cleanup.unjoined, here] at member
    · simp [Cleanup.unjoined, here]
  | @join a ref rest t here moved =>
    have account := account (by simp [here])
    have reap : ∀ r < s.nextRef, r ∈ c.unjoined → (t.heap r).worker = .joined ∨ r ∈ rest := by
      intro r old member
      simp only [Cleanup.unjoined, here] at member
      rcases List.mem_cons.mp member with rfl | later
      · exact .inl (State.join_joined moved (started r old))
      · exact .inr later
    obtain ⟨heap, joins, rfl⟩ := State.join_frame moved
    have kept := account.keep (t := { s with heap := heap, joins := joins }) rfl rfl rfl
      (Nat.le_refl _) finished joined
    refine before.clean pc (by simp) ?_ rfl rfl joined fun r old => ?_
    · exact kept.goto (by rw [here]; rfl) rfl (account.scanned (by rw [here]; rfl)) reap
    · rintro (listed | ⟨ended, rest⟩)
      · exact .inl listed
      · exact .inr ⟨finished r old ended, rest.elim (fun same => .inl (joined r same)) (reap r old)⟩
  | destroy here =>
    have account := account (by simp [here])
    have kept := account.keep (t := s.callStop _) rfl rfl rfl (Nat.le_refl _) finished joined
    refine before.clean pc (by simp) ?_ rfl rfl joined fun ref old => ?_
    · exact kept.goto (by rw [here]; rfl) rfl (account.scanned (by rw [here]; rfl)) fun ref _ member =>
        by simp [Cleanup.unjoined, here] at member
    · rintro (listed | ⟨ended, rest⟩)
      · exact .inl listed
      · exact .inr ⟨finished ref old ended, .inl (joined ref (rest.resolve_right
          (by simp [Cleanup.unjoined, here])))⟩
  | @destructor a ref rest t here returned moved =>
    have account := account (by simp [here])
    have none_ : c.unjoined = [] := by simp [Cleanup.unjoined, here]
    obtain ⟨heap, joins, rfl⟩ := State.join_frame moved
    have kept := account.keep (t := { s with heap := heap, joins := joins }) rfl rfl rfl
      (Nat.le_refl _) finished joined
    refine before.clean pc (by simp) ?_ rfl rfl joined fun r old => ?_
    · exact kept.goto (by rw [here]; rfl) rfl (account.scanned (by rw [here]; rfl)) fun ref _ member =>
        by simp [none_] at member
    · rintro (listed | ⟨ended, rest⟩)
      · exact .inl listed
      · exact .inr ⟨finished r old ended, .inl (joined r (rest.resolve_right (by simp [none_])))⟩

theorem AcceptMove.reaping (move : AcceptMove p s a t) (before : Reaping s) (table : Table s)
    (workers : Workers s) (locks : Locks s) : Reaping t := by
  have advances : ∀ r < s.nextRef, (s.heap r).Advances (t.heap r) := fun r old => move.advances old
  have work := move.work
  have joined : ∀ r, (s.heap r).worker = .joined → (t.heap r).worker = .joined :=
    fun r => work.stays workers
  have waiting : ∀ rest, s.stop.unjoined ≠ some rest := by
    intro rest listed
    have past := StopPc.pastAccept_of_unjoined listed
    rw [locks.waiting move] at past
    cases past
  cases move with
  | clean pc unfinished move => exact move.reaping before table workers pc
  | make pc =>
    refine ⟨by simp, by simp, fun r old => ?_, fun rest listed => absurd listed (waiting rest)⟩
    by_cases new : r = s.nextRef
    · exact .inr (.inl (congrArg some new.symm))
    · have old : r < s.nextRef := Nat.lt_of_le_of_ne (Nat.le_of_lt_succ old) new
      rcases before.placed r old with listed | making | ⟨ended, rest⟩
      · exact .inl listed
      · simp [pc, AcceptPc.making] at making
      · refine .inr (.inr ⟨(advances r old).stays.2 ended, .inl (joined r (rest.resolve_right ?_))⟩)
        simp [pc, AcceptPc.unjoined]
  | @insertSession a ref peer id pc =>
    refine ⟨by simp, by simp, fun r old => ?_, fun rest listed => absurd listed (waiting rest)⟩
    simp only [State.goto, State.insertSession, table.insert_fresh pc, List.map_cons,
      List.mem_cons]
    rcases before.placed r old with listed | making | ⟨ended, rest⟩
    · exact .inl (.inr listed)
    · refine .inl (.inl ?_)
      simpa [pc, AcceptPc.making, eq_comm] using making
    · refine .inr (.inr ⟨ended, .inl (rest.resolve_right ?_)⟩)
      simp [pc, AcceptPc.unjoined]
  | test pc =>
    refine before.keep workers work advances rfl rfl rfl rfl (.inr ⟨?_, by rw [pc]; rfl,
      by rw [pc]; rfl⟩) rfl
    rintro c ⟨⟩
    exact ⟨rfl, rfl, rfl⟩
  | retest pc =>
    refine before.keep workers work advances rfl rfl rfl rfl (.inr ⟨?_, by rw [pc]; rfl,
      by rw [pc]; rfl⟩) rfl
    dsimp only [State.goto]
    split
    · simp
    · rintro c ⟨⟩
      exact ⟨rfl, rfl, rfl⟩
  | cleaned pc finished =>
    refine before.keep workers work advances rfl rfl rfl rfl (.inr ⟨?_, by rw [pc]; rfl, ?_⟩) rfl
    · dsimp only [State.goto]
      split <;> simp
    · simp [pc, AcceptPc.unjoined, Cleanup.unjoined, Cleanup.pc_of_finished finished]
  | throws => exact before.keep workers work advances rfl rfl rfl rfl (.inl rfl) rfl
  | accepted pc | notAccepted pc | snapshotEmpty pc | snapshot pc | refreshed pc
  | notRefreshed pc | noTarget pc | snapshotAgain pc | unconnected pc | made pc | notMade pc
  | connected pc | notConnected pc | closeCandidate pc | closeClient pc | lock pc | count pc
  | insertPeer pc | unlock pc | started pc =>
    exact before.keep workers work advances rfl rfl rfl rfl
      (.inr ⟨by simp, by rw [pc]; rfl, by rw [pc]; rfl⟩) rfl

theorem StopMove.reaping (move : StopMove s a t) (before : Reaping s) (workers : Workers s)
    (locks : Locks s)
    (control : ∀ ref < s.nextRef, Tcp.Control (s.heap ref).state) : Reaping t := by
  have advances : ∀ r < s.nextRef, (s.heap r).Advances (t.heap r) := fun r _ => move.advances r
  have work := move.work
  have exited : s.stop.pastAccept = true → s.accept = .exited := locks.exited
  cases move with
  | @copy entries pc order =>
    -- with the accept thread gone, a session that is not listed has been joined
    have ended := exited (by rw [pc]; rfl)
    refine ⟨before.fresh, fun c here past => ?_, before.placed, ?_⟩
    · rw [ended] at here
      cases here
    · rintro _ ⟨⟩ r old
      rcases before.placed r old with listed | making | ⟨-, rest⟩
      · exact .inr ((order.map Prod.snd).mem_iff.mpr listed)
      · simp [ended, AcceptPc.making] at making
      · exact .inl (rest.resolve_right (by simp [ended, AcceptPc.unjoined]))
  | @join a sessions rest ref t pc moved =>
    have ended := exited (by rw [pc]; rfl)
    have reap : ∀ r < s.nextRef, (s.heap r).worker = .joined ∨ r ∈ ref :: rest →
        (t.heap r).worker = .joined ∨ r ∈ rest := by
      rintro r old (same | member)
      · exact .inl (work.stays workers same)
      · rcases List.mem_cons.mp member with rfl | later
        · refine .inl (State.join_joined moved fun unstarted => ?_)
          have := (workers.unstarted r).mp unstarted
          simp only [ended, AcceptPc.unstarted, reduceCtorEq, or_false] at this
          exact Nat.not_le_of_lt old this
        · exact .inr later
    have joining := before.stopping (ref :: rest) (by rw [pc]; rfl)
    have work := State.join_work moved
    obtain ⟨heap, joins, rfl⟩ := State.join_frame moved
    have kept : Reaping { s with heap := heap, joins := joins } :=
      before.keep workers work advances rfl rfl rfl rfl (.inl rfl) rfl
    refine ⟨kept.fresh, fun c here past => ?_, kept.placed, ?_⟩
    · rw [ended] at here
      cases here
    · rintro _ ⟨⟩ r old
      exact reap r old (joining r old)
  | clearSessions pc =>
    have joined := before.stopping [] (by rw [pc]; rfl)
    have ended := exited (by rw [pc]; rfl)
    refine ⟨before.fresh, fun c here past => ?_, fun r old => ?_, ?_⟩
    · rw [ended] at here
      cases here
    · have same := (joined r old).resolve_right (by simp)
      exact .inr (.inr ⟨(control r old).finished.mpr (workers.done r same), .inl same⟩)
    · rintro _ ⟨⟩ r old
      exact joined r old
  | destructor pc _ moved =>
    obtain ⟨heap, joins, rfl⟩ := State.join_frame moved
    exact before.keep workers work advances rfl rfl rfl rfl (.inl rfl) (by rw [pc]; rfl)
  | shutdownListen pc | closeListen pc | setListenInvalid pc | joinAccept pc | joinResolver pc
  | lock pc | unlock pc | stopped pc | callStop pc | stopReturned pc | joined pc | lockAgain pc
  | clearPeers pc | unlockAgain pc | destroyed pc | destroy pc =>
    exact before.keep workers work advances rfl rfl rfl rfl (.inl rfl) (by rw [pc]; rfl)

theorem Move.reaping (move : Move p s action t) (before : Reaping s) (table : Table s)
    (workers : Workers s) (locks : Locks s)
    (control : ∀ ref < s.nextRef, Tcp.Control (s.heap ref).state) : Reaping t := by
  have advances : ∀ r < s.nextRef, (s.heap r).Advances (t.heap r) := fun r old => move.advances old
  have work := move.work
  cases move with
  | accept move => exact move.reaping before table workers locks
  | stop move => exact move.reaping before workers locks control
  | callStop pc =>
    exact before.keep workers work advances rfl rfl rfl rfl (.inl rfl) (by rw [pc]; rfl)
  | _ => exact before.keep workers work advances rfl rfl rfl rfl (.inl rfl) rfl

theorem reaping_reached (reached : (forwarder p).Reach FewConnections s) : Reaping s := by
  induction reached with
  | start init =>
    obtain ⟨fd, outcome, endpoints, -, rfl⟩ := init
    refine ⟨by simp [started], by simp [started], fun ref old => ?_, by simp [started, StopPc.unjoined]⟩
    exact absurd old (Nat.not_lt_zero _)
  | next before _ moved ih =>
    exact (step_move moved).reaping ih (table_reached before) (workers_reached before)
      (locks_reached before) fun ref made => Tcp.control_reached (session_reached before made)

end PortForwardX.TcpForwarder
