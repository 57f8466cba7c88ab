import PortForwardX.TcpForwarder.Sockets

/-!
# No connection is lost

Between the critical sections every open socket has exactly one holder, a cleanup removes
what it has found finished and nothing else, and `Stop` leaves nothing behind.
-/
namespace PortForwardX.TcpForwarder

open Transition Net

variable {p : Setup} {s : State} {c : Cleanup}

/-- Who an open socket can belong to. -/
inductive Keeper where
  | settingUp
  | session (id : UInt64) (ref : SessionRef)
  deriving DecidableEq, Repr

/-- The connection that is set up holds its sockets, an entry of `sessions_` those of its
session. -/
def State.Keeps (s : State) (k : SocketId) : Keeper → Prop
  | .settingUp => k ∈ s.accept.sockets
  | .session id ref => (id, ref) ∈ s.sessions ∧ ∃ d, (s.heap ref).socket d = k

/-- Only the holder of the mutex has a session that is not entered, or not with both keys. -/
theorem AcceptPc.settled {pc : AcceptPc} (unlocked : pc.locked = false) :
    pc.making = none ∧ pc.unpaired = [] := by
  cases pc <;> first | exact ⟨rfl, rfl⟩ | cases unlocked

theorem StopPc.clearing_of_locked {pc : StopPc} (unlocked : pc.locked = false) :
    pc.clearing = false := by
  cases pc <;> first | rfl | cases unlocked

theorem Locks.unlocked (locks : Locks s) (free : s.sessionMutex = none) :
    s.accept.locked = false ∧ s.stop.locked = false := by
  constructor
  · by_contra locked
    rw [locks.acceptor.mpr (by simpa using locked)] at free
    cases free
  · by_contra locked
    rw [locks.stopper.mpr (by simpa using locked)] at free
    cases free

/-- Outside the critical sections the sockets of a session that is not in `sessions_` are
closed. -/
theorem Reaping.listed (reaping : Reaping s) (owned : Owned s) (locks : Locks s)
    (control : ∀ ref < s.nextRef, Tcp.Control (s.heap ref).state) (free : s.sessionMutex = none)
    {ref : SessionRef} (made : ref < s.nextRef) {d : Tcp.Side}
    (opened : s.isOpen ((s.heap ref).socket d) = true) : ref ∈ s.sessions.map Prod.snd := by
  rcases reaping.placed ref made with listed | making | ⟨ended, -⟩
  · exact listed
  · rw [(AcceptPc.settled (locks.unlocked free).1).1] at making
    cases making
  · have done := (control ref made).finished.mp ended
    rw [owned.session ref made, ((control ref made).closed_of_done done d).2] at opened
    cases opened

/-- An open socket has exactly one keeper. -/
theorem Owned.keeper (owned : Owned s) (reaping : Reaping s) (table : Table s) (locks : Locks s)
    (control : ∀ ref < s.nextRef, Tcp.Control (s.heap ref).state) (free : s.sessionMutex = none)
    {k : SocketId} (opened : s.isOpen k = true) : ∃! keeper, s.Keeps k keeper := by
  rcases owned.covered k opened with member | ⟨ref, made, d, rfl⟩
  · refine ⟨.settingUp, member, fun keeper keeps => ?_⟩
    cases keeper with
    | settingUp => rfl
    | session id ref =>
      obtain ⟨listed, d, rfl⟩ := keeps
      exact absurd member (owned.apart ref (table.entered _ listed).1 d)
  · obtain ⟨entry, listed, rfl⟩ :=
      List.mem_map.mp (reaping.listed owned locks control free made opened)
    refine ⟨.session entry.1 entry.2, ⟨listed, d, rfl⟩, fun keeper keeps => ?_⟩
    cases keeper with
    | settingUp => exact absurd keeps (owned.apart entry.2 made d)
    | session id ref =>
      obtain ⟨listed', e, same⟩ := keeps
      obtain ⟨rfl, -⟩ := owned.injective ref (table.entered _ listed').1 entry.2 made e d same
      have first := table.numbered entry listed
      have second := table.numbered _ listed'
      rw [show id = entry.1 from UInt64.toNat_inj.mp (second.trans first.symm)]

/-- What a cleanup has tested and found finished is in the map no more. -/
theorem Accounted.removed (account : Accounted s c) (ended : c.finished = true) :
    s.tests.map Prod.fst = s.found ∧ s.sessions.Perm s.spared ∧
      ∀ e ∈ s.condemned, e ∉ s.sessions ∧ (s.heap e.2).worker = .joined := by
  have pc := Cleanup.pc_of_finished ended
  have done := account.scanned (by rw [pc]; rfl)
  have examined : s.tests.map Prod.fst = s.found := by simpa [done] using account.examined
  have spared : s.sessions.Perm s.spared := by
    simpa [done, pc, CleanupPc.erasing] using account.spared
  refine ⟨examined, spared, fun e member => ⟨fun listed => ?_, ?_⟩⟩
  · -- an entry is tested once
    have distinct : (s.tests.map Prod.fst).Nodup := by
      rw [examined]
      exact List.Nodup.of_map _ account.distinct
    obtain ⟨⟨_, first⟩, tested, rfl⟩ := List.mem_map.mp member
    obtain ⟨⟨_, second⟩, tested', same⟩ := List.mem_map.mp (spared.mem_iff.mp listed)
    simp only [List.mem_filter] at tested tested'
    have equal := List.inj_on_of_nodup_map distinct tested.1 tested'.1 same.symm
    simp_all
  · have removed : e.2 ∈ c.finishedSessions := by
      have mapped := List.mem_map_of_mem (f := Prod.snd) member
      simpa [account.condemned, pc, CleanupPc.erasing] using mapped
    exact (account.joined e.2 removed).resolve_right (by simp [Cleanup.unjoined, pc])

/-- When `Stop` has returned, nothing is left open, unjoined or entered. -/
theorem Owned.stopped (owned : Owned s) (reaping : Reaping s) (table : Table s)
    (workers : Workers s) (locks : Locks s)
    (control : ∀ ref < s.nextRef, Tcp.Control (s.heap ref).state) (done : s.stop = .done) :
    s.sessions = [] ∧ s.sessionPeers = [] ∧
      (∀ k < s.nextSocket, s.isOpen k = false) ∧
      ∀ ref < s.nextRef, (s.heap ref).worker = .joined := by
  have ended := locks.exited (by rw [done]; rfl)
  have empty := table.cleared (by rw [done]; rfl)
  have joined : ∀ ref < s.nextRef, (s.heap ref).worker = .joined := fun ref made =>
    (reaping.stopping [] (by rw [done]; rfl) ref made).resolve_right (by simp)
  refine ⟨empty, ?_, fun k given => ?_, joined⟩
  · have same := table.paired (by rw [done]; rfl)
    simpa [State.keys, State.peerKeys, empty, ended, AcceptPc.unpaired] using same
  · by_contra opened
    rcases owned.covered k (by simpa using opened) with member | ⟨ref, made, d, rfl⟩
    · simp [ended, AcceptPc.sockets] at member
    · have closed := ((control ref made).closed_of_done (workers.done ref (joined ref made)) d).2
      rw [← owned.session ref made] at closed
      exact opened closed

/-- Conservation of connections, in every run from `Start` on with fewer than `2 ^ 64`
connections. Outside the critical sections of `session_mutex_` the two maps have the same
keys, none of them twice and none beyond the counter, and every socket that is open belongs
to exactly one entry of `sessions_` or to the connection that is being set up. A cleanup
that returns has tested each entry it found once, has left those that were not finished and
has removed and joined, once, each of the others. When `Stop` has returned, every socket has
been closed once, every session joined once, and both maps are empty. -/
theorem tcp_conservation (reached : (forwarder p).Reach FewConnections s) :
    (s.sessionMutex = none →
      s.keys = s.peerKeys ∧ s.keys.Nodup ∧ (∀ id ∈ s.keys, id ≤ s.nextSessionId) ∧
      ∀ k, s.isOpen k = true → ∃! keeper, s.Keeps k keeper) ∧
    (∀ c, s.accept = .cleanup c → c.finished = true →
      s.tests.map Prod.fst = s.found ∧ s.sessions.Perm s.spared ∧
      ∀ e ∈ s.condemned, e ∉ s.sessions ∧ s.joins.count e.2 = 1) ∧
    (s.stop = .done →
      s.sessions = [] ∧ s.sessionPeers = [] ∧ (∀ k < s.nextSocket, s.closes.count k = 1) ∧
      ∀ ref < s.nextRef, s.joins.count ref = 1) := by
  have locks := locks_reached reached
  have table := table_reached reached
  have workers := workers_reached reached
  have reaping := reaping_reached reached
  have owned := owned_reached reached
  have control := fun ref (made : ref < _) => Tcp.control_reached (session_reached reached made)
  refine ⟨fun free => ⟨?_, table.keys_nodup, fun id member => ?_, fun k opened =>
    owned.keeper reaping table locks control free opened⟩, fun c pc ended => ?_, fun done => ?_⟩
  · obtain ⟨settled, idle⟩ := locks.unlocked free
    have paired := table.paired (StopPc.clearing_of_locked idle)
    rwa [(AcceptPc.settled settled).2] at paired
  · obtain ⟨entry, listed, rfl⟩ := List.mem_map.mp member
    rw [UInt64.le_iff_toNat_le, table.numbered entry listed]
    exact Nat.le_trans (table.entered entry listed).1 table.counter
  · have account := reaping.account c pc (by simp [Cleanup.pc_of_finished ended])
    obtain ⟨examined, spared, removed⟩ := account.removed ended
    refine ⟨examined, spared, fun e member => ⟨(removed e member).1, ?_⟩⟩
    rw [workers.joins, (removed e member).2]
    rfl
  · obtain ⟨sessions, peers, closed, joined⟩ :=
      owned.stopped reaping table workers locks control done
    refine ⟨sessions, peers, fun k given => owned.balanced.closed_once given (closed k given),
      fun ref made => ?_⟩
    rw [workers.joins, joined ref made]
    rfl

/-- The first session ends and is cleaned up, the second is still there when `Stop` is
called, and the target refuses a third connection. -/
def threeConnections : List Action :=
  Sample.cleanup [] 4 ++ Sample.connection ++ Sample.sessionEnds 0 ++ Sample.cleanup [(1, 0)] 7 ++
    Sample.stopCall 0 ++ [.accept .none, .accept .none] ++ Sample.connection ++
    Sample.cleanup [(2, 1)] 5 ++ [.callStop] ++ Sample.refusedConnection ++
    Sample.cleanup [(2, 1)] 5 ++ [.resolver .none] ++
    ([.none, .none, .none, .none, .none, .none, .order [(2, 1)], .none, .none] : List Answer).map
      .stop ++
    Sample.stopCall 1 ++ [.stop .none, .stop .none] ++ Sample.sessionEnds 1 ++
    (List.replicate 9 Answer.none).map .stop

theorem tcp_conservation_three_connections :
    ∃ s, (forwarder Sample.setup).Reach FewConnections s ∧ s.stop = .done ∧ s.nextSocket = 6 ∧
      s.nextRef = 2 ∧ s.sessions = [] ∧ (∀ k < 6, s.closes.count k = 1) ∧
      ∀ ref < 2, s.joins.count ref = 1 := by
  have result : ((forwarder Sample.setup).runIf FewConnections Sample.initial threeConnections).map
      (fun s => (s.stop, s.nextSocket, s.nextRef)) = some (.done, 6, 2) := by decide +kernel
  obtain ⟨s, run, seen⟩ := Option.map_eq_some_iff.mp result
  simp only [Prod.mk.injEq] at seen
  have reached := Machine.Reach.runIf (.start Sample.initial_init) run
  obtain ⟨sessions, -, closed, joined⟩ := (tcp_conservation reached).2.2 seen.1
  exact ⟨s, reached, seen.1, seen.2.1, seen.2.2, sessions, seen.2.1 ▸ closed, seen.2.2 ▸ joined⟩

end PortForwardX.TcpForwarder
