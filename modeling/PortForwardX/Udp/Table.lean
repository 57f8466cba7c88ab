import PortForwardX.Udp.Frame

/-!
# The session table

`udp_sessions_` holds at most one session for each key, and each session sits under the
key of its own client address. Only the UDP thread adds entries; a session's addresses
never change.
-/
namespace PortForwardX.Udp

open Transition Net

variable {p : Setup} {s t : State} {a : Answer} {σ : SessionId}

/-! ### Keys -/

theorem State.find_eq_none {key : String} :
    s.find key = none ↔ key ∉ s.udpSessions.map Prod.fst := by
  rw [State.find, List.lookup_eq_none_iff]
  constructor
  · intro missing member
    obtain ⟨entry, within, rfl⟩ := List.mem_map.mp member
    simpa using missing entry within
  · intro missing entry within
    have other : key ≠ entry.1 := fun same => missing (same ▸ List.mem_map_of_mem within)
    simpa using other

theorem State.mem_of_find {key : String} (found : s.find key = some σ) :
    (key, σ) ∈ s.udpSessions := by
  obtain ⟨before, after, split, -⟩ := List.lookup_eq_some_iff.mp found
  simp [split]

/-- The table and the work in progress on it fit together. -/
structure Indexed (p : Setup) (s : State) : Prop where
  unique : (s.udpSessions.map Prod.fst).Nodup
  allocated : ∀ entry ∈ s.udpSessions, entry.2 < s.nextSession
  keyed : ∀ entry ∈ s.udpSessions, entry.1 = p.key (s.heap entry.2).clientAddr
  absent : s.udp.creating = true → ∀ d, s.udp.datagram = some d → s.find (p.key d.client) = none
  served : ∀ d σ, s.udp.datagram = some d → s.udp.session = some σ →
    σ < s.nextSession ∧ p.key d.client = p.key (s.heap σ).clientAddr

/-- No session is in the table twice. -/
theorem Indexed.sessions (indexed : Indexed p s) : (s.udpSessions.map Prod.snd).Nodup := by
  refine List.Nodup.map_on ?_ (List.Nodup.of_map _ indexed.unique)
  intro e member e' member' same
  -- both are under the key of the session's client
  exact Prod.ext (by rw [indexed.keyed e member, indexed.keyed e' member', same]) same

theorem indexed_started (fd : Nat) (clock : UInt64) (endpoints : List ResolvedEndpoint) :
    Indexed p (started fd clock endpoints) where
  unique := List.nodup_nil
  allocated := by simp [started]
  keyed := by simp [started]
  absent := by simp [started, UdpPc.creating]
  served := by simp [started, UdpPc.datagram]

theorem Indexed.quiet (before : Indexed p s) (quiet : Quiet s t) : Indexed p t where
  unique := before.unique.sublist (quiet.table.map Prod.fst)
  allocated entry member := quiet.nextSession ▸ before.allocated entry (quiet.table.subset member)
  keyed entry member := by
    rw [quiet.client]
    exact before.keyed entry (quiet.table.subset member)
  absent creating d held := by
    rw [quiet.udp] at creating held
    -- a shorter table has fewer keys
    rw [State.find_eq_none]
    exact fun member => State.find_eq_none.mp (before.absent creating d held)
      ((quiet.table.map Prod.fst).subset member)
  served d σ held session := by
    rw [quiet.udp] at held session
    rw [quiet.client, quiet.nextSession]
    exact before.served d σ held session

/-- A step of the UDP thread that changes neither the table nor any address. -/
theorem Indexed.advance (before : Indexed p s) (table : t.udpSessions = s.udpSessions)
    (next : t.nextSession = s.nextSession)
    (client : ∀ τ, (t.heap τ).clientAddr = (s.heap τ).clientAddr)
    (absent : t.udp.creating = true → ∀ d, t.udp.datagram = some d →
      s.find (p.key d.client) = none)
    (served : ∀ d σ, t.udp.datagram = some d → t.udp.session = some σ →
      σ < s.nextSession ∧ p.key d.client = p.key (s.heap σ).clientAddr) : Indexed p t where
  unique := table ▸ before.unique
  allocated := by rw [table, next]; exact before.allocated
  keyed := by
    intro entry member
    rw [client]
    exact before.keyed entry (table ▸ member)
  absent := by simpa only [State.find, table] using absent
  served := by simpa only [next, client] using served

/-- Nobody else enters sessions, so `emplace` always finds its key missing. -/
theorem Indexed.not_emplaced (indexed : Indexed p s) {d : Datagram} {τ : SessionId}
    (pc : s.udp = .emplace d σ) : s.find (p.key d.client) ≠ some τ := by
  rw [indexed.absent (by simp [pc, UdpPc.creating]) d (by simp [pc, UdpPc.datagram])]
  exact (Option.some_ne_none τ).symm

theorem UdpMove.indexed (move : UdpMove p s a t) (before : Indexed p s) : Indexed p t := by
  have absent := before.absent
  have served := before.served
  cases move with
  | clean pc unfinished move =>
    refine (before.quiet move.quiet).advance rfl rfl (fun _ => rfl) ?_ ?_ <;>
      simp [UdpPc.creating, UdpPc.datagram]
  | hit pc found =>
    -- the entry was found under the key of the datagram's sender
    refine before.advance rfl rfl (fun _ => rfl) (by simp [UdpPc.creating]) ?_
    rintro d σ ⟨⟩ ⟨⟩
    have entry := State.mem_of_find found
    exact ⟨before.allocated _ entry, before.keyed _ entry⟩
  | miss pc missing =>
    refine before.advance rfl rfl (fun _ => rfl) ?_ (by simp [UdpPc.session])
    rintro - d ⟨⟩
    exact missing
  | @socketMade fd d endpoint rest pc free =>
    have missing := absent (by simp [pc, UdpPc.creating]) d (by simp [pc, UdpPc.datagram])
    refine ⟨before.unique, fun entry member => ?_, fun entry member => ?_, ?_, ?_⟩
    · exact Nat.lt_succ_of_lt (before.allocated entry member)
    · -- the new object is none of those in the table
      have old : entry.2 ≠ s.nextSession := Nat.ne_of_lt (before.allocated entry member)
      simpa [Function.update_of_ne old] using before.keyed entry member
    · rintro - d' ⟨⟩
      exact missing
    · rintro d' σ ⟨⟩ ⟨⟩
      exact ⟨Nat.lt_succ_self _, by simp⟩
  | @emplace _ d σ pc missing =>
    -- one new entry, under a key the table does not have
    have own := served d σ (by simp [pc, UdpPc.datagram]) (by simp [pc, UdpPc.session])
    refine ⟨List.nodup_cons.mpr ⟨State.find_eq_none.mp missing, before.unique⟩,
      List.forall_mem_cons.mpr ⟨own.1, before.allocated⟩,
      List.forall_mem_cons.mpr ⟨own.2, before.keyed⟩, by simp [UdpPc.creating], ?_⟩
    rintro d' τ ⟨⟩ ⟨⟩
    exact own
  | emplaced pc found => exact absurd found (before.not_emplaced pc)
  | start | readListen | callRecv | recvEmpty | recvNothing | noTarget | noSocket | sent
  | sentEmpty | sendFailed | tooEarly | cleanupDue | enterCleanup | recvDatagram =>
    -- no datagram in hand, or one that has not been looked up
    refine before.advance rfl rfl (fun τ => by simp) ?_ ?_ <;>
      simp [UdpPc.creating, UdpPc.datagram, UdpPc.session]
  | test | retest | cleaned =>
    refine before.advance rfl rfl (fun τ => by simp) ?_ ?_ <;> dsimp only [State.goto] <;> split <;>
      simp [UdpPc.creating, UdpPc.datagram]
  | noThread pc => exact before.advance rfl rfl (fun _ => rfl) absent served
  | _ pc =>
    refine before.advance rfl rfl (fun τ => by simp) ?_ ?_ <;>
      simp_all [UdpPc.creating, UdpPc.datagram, UdpPc.session]

/-- The table is well formed in every state of every run. -/
theorem indexed_reached {ok : State → Action → Prop} (reached : (forwarder p).Reach ok s) :
    Indexed p s := by
  induction reached with
  | start init =>
    obtain ⟨fd, clock, outcome, endpoints, -, rfl⟩ := init
    exact indexed_started fd clock endpoints
  | @next _ _ action _ _ step ih =>
    cases action with
    | udp a =>
      cases step_move step with
      | udp move => exact move.indexed ih
    | _ => exact ih.quiet ((step_move step).quiet (by simp))

end PortForwardX.Udp
