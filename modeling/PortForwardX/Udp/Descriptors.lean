import PortForwardX.Udp.Threads

/-!
# Descriptors of the sessions

A session's member `upstream_socket` holds the number of its own open socket, except
while a cleanup is between the close and the overwriting of that member. A reply loop that
reads the member then, or has read it before the close, calls `recvfrom` on a number that
may belong to somebody else by now.
-/
namespace PortForwardX.Udp

open Transition

/-- The cleanup in progress. The UDP thread's comes first; the one of `Stop` begins when
the UDP thread has ended. -/
def State.cleaner (s : State) : Option Cleanup :=
  match s.udp, s.stop with
  | .cleaning c, _ => some c
  | _, .cleaning c => some c
  | _, _ => none

/-- A cleanup has closed the socket of `σ` and not overwritten the member yet. -/
def State.Invalidating (s : State) (σ : SessionId) : Prop :=
  ∃ c, s.cleaner = some c ∧ c.pc = .setInvalid σ

/-- The members that hold a number hold that of their own socket. -/
structure Descriptors (s : State) : Prop where
  upstream : ∀ σ fd, (s.heap σ).upstreamSocket = some fd →
    s.fds fd = some (.upstream σ) ∨ s.Invalidating σ
  listen : ∀ fd, s.listenSocket = some fd → s.fds fd = some .listen ∨ s.stop = .setListenInvalid

variable {p : Setup} {s t : State} {c c' : Cleanup} {a : Answer} {action : Action}
  {σ : SessionId} {fd : Nat}

theorem State.cleaner_udp (pc : s.udp = .cleaning c) : s.cleaner = some c := by
  simp [State.cleaner, pc]

theorem State.cleaner_stop (ended : s.udp = .exited) (pc : s.stop = .cleaning c) :
    s.cleaner = some c := by
  simp [State.cleaner, ended, pc]

theorem State.cleaner_cases (cleaner : s.cleaner = some c) :
    s.udp = .cleaning c ∨ s.stop = .cleaning c := by
  unfold State.cleaner at cleaner
  split at cleaner
  next pc => exact .inl (Option.some.inj cleaner ▸ pc)
  next pc _ => exact .inr (Option.some.inj cleaner ▸ pc)
  · cases cleaner

/-- While the UDP thread is busy with something else nobody cleans up. -/
theorem Threads.no_cleaner (threads : Threads s) (alive : s.udp ≠ .exited)
    (other : ∀ c, s.udp ≠ .cleaning c) : s.cleaner = none := by
  have unjoined := threads.unjoined alive
  rw [Option.eq_none_iff_forall_ne_some]
  intro c cleaner
  rcases State.cleaner_cases cleaner with pc | stopping
  · exact other c pc
  · simp [stopping, StopPc.udpJoined] at unjoined

theorem descriptors_started {clock : UInt64} {endpoints : List Net.ResolvedEndpoint} :
    Descriptors (started fd clock endpoints) where
  upstream σ n held := by simp [started, kInvalidSocket] at held
  listen n held := by
    obtain rfl : fd = n := Option.some.inj held
    exact .inl (by simp [started])

/-- While `c` cleans up, every member holds the number of its own socket, but for the one
`c` has to overwrite. -/
def Cleanup.Holds (c : Cleanup) (s : State) : Prop :=
  ∀ σ fd, (s.heap σ).upstreamSocket = some fd →
    s.fds fd = some (.upstream σ) ∨ c.pc = .setInvalid σ

theorem Descriptors.holds (before : Descriptors s) (cleaner : s.cleaner = some c) : c.Holds s := by
  intro σ fd held
  rcases before.upstream σ fd held with named | ⟨c', same, pc⟩
  · exact .inl named
  · rw [cleaner] at same
    exact .inr (Option.some.inj same ▸ pc)

/-- Opening a free number leaves the open ones open. -/
theorem State.openFd_stays {owner owner' : Owner} {fd' : Nat} (free : s.fds fd' = none)
    (named : s.fds fd = some owner) : (s.openFd fd' owner').fds fd = some owner := by
  have different : fd ≠ fd' := fun same => by simp [← same, named] at free
  simpa [different] using named

/-- Closing the number of one owner leaves those of the others open. -/
theorem State.closeSocket_stays {socket : SocketHandle} {owner o : Owner}
    (closed : ∀ fd, socket = some fd → s.fds fd = some o) (other : owner ≠ o)
    (named : s.fds fd = some owner) : (s.closeSocket socket).fds fd = some owner := by
  have different : socket ≠ some fd := fun same =>
    other (Option.some.inj (named.symm.trans (closed fd same)))
  simpa [different] using named

/-- The owner whose number a cleanup closes next. -/
def Cleanup.closes (c : Cleanup) : Option Owner :=
  match c.pc with
  | .close σ => some (.upstream σ)
  | _ => none

theorem Cleanup.closes_eq_some {owner : Owner} (closes : c.closes = some owner) :
    ∃ σ, c.pc = .close σ ∧ owner = .upstream σ := by
  unfold Cleanup.closes at closes
  split at closes
  next σ pc => exact ⟨σ, pc, (Option.some.inj closes).symm⟩
  · cases closes

theorem Cleanup.closes_ne_listen : c.closes ≠ some .listen := fun closes => by
  obtain ⟨σ, -, same⟩ := Cleanup.closes_eq_some closes
  cases same

/-- The owner whose number a step may close. -/
def State.closes (s : State) : Action → Option Owner
  | .udp _ =>
    match s.udp with
    | .cleaning c => c.closes
    | _ => none
  | .stop _ =>
    match s.stop with
    | .cleaning c => c.closes
    | .closeListen => some .listen
    | _ => none
  | .foreignClose _ => some .foreign
  | _ => none

/-- A cleanup closes nothing but the socket of the session it is at. -/
theorem CleanMove.stays (move : CleanMove p s c t c') (holds : c.Holds s) {owner : Owner}
    (other : c.closes ≠ some owner) (named : s.fds fd = some owner) : t.fds fd = some owner := by
  cases move with
  | @close σ pc =>
    refine State.closeSocket_stays (o := .upstream σ) (fun n held => ?_) ?_ named
    · exact (holds σ n held).resolve_right (by simp [pc])
    · simpa [Cleanup.closes, pc, eq_comm] using other
  | _ => exact named

/-- Every step leaves the open numbers of all owners but one open. -/
theorem Move.stays (move : Move p s action t) (before : Descriptors s) (indexed : Indexed p s)
    (threads : Threads s) {owner : Owner} (other : s.closes action ≠ some owner)
    (named : s.fds fd = some owner) : t.fds fd = some owner := by
  cases move with
  | udp move =>
    cases move with
    | clean pc unfinished move =>
      refine move.stays (before.holds (State.cleaner_udp pc)) ?_ named
      simpa [State.closes, pc] using other
    | socketMade pc free => exact State.openFd_stays free named
    | emplaced pc found => exact absurd found (indexed.not_emplaced pc)
    | _ => exact named
  | reply move => exact move.frame.fds ▸ named
  | stop move =>
    cases move with
    | clean pc unfinished move =>
      have ended := threads.exclusive (by rw [pc]; rfl)
      refine move.stays (before.holds (State.cleaner_stop ended pc)) ?_ named
      simpa [State.closes, pc] using other
    | closeListen pc =>
      refine State.closeSocket_stays (o := .listen) (fun n held => ?_) ?_ named
      · exact (before.listen n held).resolve_right (by simp [pc])
      · simpa [State.closes, pc, eq_comm] using other
    | _ => exact named
  | foreignOpen free => exact State.openFd_stays free named
  | @foreignClose n foreign =>
    refine State.closeSocket_stays (o := .foreign) (fun m held => ?_) ?_ named
    · exact Option.some.inj held ▸ foreign
    · simpa [State.closes, eq_comm] using other
  | _ => exact named

theorem CleanMove.holds (move : CleanMove p s c t c') (holds : c.Holds s) : c'.Holds t := by
  intro τ fd held
  have before := move.frame.upstreamSocket τ fd held
  -- before and after the close of `τ`, and anywhere else
  by_cases closing : c.pc = .close τ
  · cases move <;> simp_all
  · by_cases overwriting : c.pc = .setInvalid τ
    · cases move <;> simp_all [kInvalidSocket]
    · have own := (holds τ fd before).resolve_right overwriting
      refine .inl (move.stays holds (fun same => closing ?_) own)
      obtain ⟨σ, pc, own⟩ := Cleanup.closes_eq_some same
      rw [pc, Owner.upstream.inj own]

theorem Descriptors.own (before : Descriptors s) (none_ : s.cleaner = none)
    (held : (s.heap σ).upstreamSocket = some fd) : s.fds fd = some (.upstream σ) := by
  apply (before.upstream σ fd held).resolve_right
  rintro ⟨c, cleaner, -⟩
  simp [none_] at cleaner

/-- The `Stop` call does not touch a cleanup of the UDP thread. -/
theorem State.Invalidating.udp (same : t.udp = s.udp) (idle : ∀ c, s.stop ≠ .cleaning c)
    (invalidating : s.Invalidating σ) : t.Invalidating σ := by
  obtain ⟨c, cleaner, overwriting⟩ := invalidating
  refine ⟨c, ?_, overwriting⟩
  unfold State.cleaner at cleaner ⊢
  rw [same]
  split at cleaner
  next pc => simpa [pc] using cleaner
  next stopping _ => exact absurd stopping (idle _)
  next => cases cleaner

/-- The rule for a step that changes neither numbers nor members. -/
theorem Descriptors.keep (before : Descriptors s) (fds : t.fds = s.fds)
    (upstream : ∀ τ, (t.heap τ).upstreamSocket = (s.heap τ).upstreamSocket)
    (listenSocket : t.listenSocket = s.listenSocket)
    (stop : s.stop = .setListenInvalid → t.stop = .setListenInvalid)
    (invalidating : ∀ τ, s.Invalidating τ → t.Invalidating τ) : Descriptors t where
  upstream τ n held := by
    rw [upstream] at held
    rw [fds]
    exact (before.upstream τ n held).imp_right (invalidating τ)
  listen n held := by
    rw [listenSocket] at held
    rw [fds]
    exact (before.listen n held).imp_right stop

theorem UdpMove.descriptors (move : UdpMove p s a t) (before : Descriptors s)
    (indexed : Indexed p s) (threads : Threads s) : Descriptors t := by
  have alive := move.alive
  cases move with
  | clean pc unfinished move =>
    -- the cleanup itself is the one that may be overwriting
    have holds := before.holds (State.cleaner_udp pc)
    constructor
    · intro τ n held
      exact (move.holds holds τ n held).imp_right fun overwriting => ⟨_, rfl, overwriting⟩
    · intro n held
      simp only [State.goto, move.frame.listenSocket, move.frame.stop] at held ⊢
      exact (before.listen n held).imp_left fun named =>
        move.stays holds Cleanup.closes_ne_listen named
  | @cleaned _ c pc finished =>
    refine before.keep rfl (fun _ => rfl) rfl id ?_
    -- a finished cleanup is not overwriting a member
    rintro τ ⟨c', same, overwriting⟩
    rw [State.cleaner_udp pc] at same
    obtain rfl := Option.some.inj same
    simp [Cleanup.finished, overwriting] at finished
  | @socketMade n d endpoint rest pc free =>
    -- nobody cleans up while a socket is made
    have none_ := threads.no_cleaner alive (by simp [pc])
    constructor
    · intro τ m held
      by_cases new : τ = s.nextSession
      · subst new
        obtain rfl : n = m := by simpa using held
        exact .inl (by simp)
      · have held : (s.heap τ).upstreamSocket = some m := by simpa [new] using held
        exact .inl (State.openFd_stays free (before.own none_ held))
    · intro m held
      exact (before.listen m held).imp_left (State.openFd_stays free)
  | emplaced pc found => exact absurd found (indexed.not_emplaced pc)
  | _ pc =>
    have none_ := threads.no_cleaner alive (by simp [pc])
    refine before.keep rfl (fun τ => by simp) rfl id ?_
    rintro τ ⟨c, cleaner, -⟩
    simp [none_] at cleaner

theorem ReplyMove.descriptors (move : ReplyMove p s σ a t) (before : Descriptors s) :
    Descriptors t := by
  have frame := move.frame
  apply before.keep frame.fds frame.upstreamSocket frame.listenSocket (frame.stop ▸ id)
  intro τ ⟨c, cleaner, overwriting⟩
  exact ⟨c, by simpa only [State.cleaner, move.quiet.udp, frame.stop] using cleaner, overwriting⟩

theorem StopMove.descriptors (move : StopMove p s a t) (before : Descriptors s)
    (threads : Threads s) : Descriptors t := by
  cases move with
  | @clean a c c' t pc unfinished move =>
    have ended := threads.exclusive (by rw [pc]; rfl)
    have holds := before.holds (State.cleaner_stop ended pc)
    constructor
    · intro τ n held
      refine (move.holds holds τ n held).imp_right fun overwriting => ⟨c', ?_, overwriting⟩
      exact State.cleaner_stop (move.quiet.udp.trans ended) rfl
    · intro n held
      simp only [move.frame.listenSocket] at held
      have named := (before.listen n held).resolve_right (by simp [pc])
      exact .inl (move.stays holds Cleanup.closes_ne_listen named)
  | closeListen pc =>
    -- the listen socket's number is none of the sessions'
    refine ⟨fun τ n held => ?_, fun n held => .inr rfl⟩
    refine (before.upstream τ n held).imp (fun own => ?_)
      (State.Invalidating.udp (s := s) rfl (by simp [pc]))
    refine State.closeSocket_stays (o := .listen) (fun m listening => ?_) (by simp) own
    exact (before.listen m listening).resolve_right (by simp [pc])
  | setListenInvalid pc =>
    refine ⟨fun τ n held => ?_, fun n held => by simp [kInvalidSocket] at held⟩
    exact (before.upstream τ n held).imp_right (State.Invalidating.udp (s := s) rfl (by simp [pc]))
  | @cleaned a c pc finished =>
    have ended := threads.exclusive (by rw [pc]; rfl)
    refine before.keep rfl (fun _ => rfl) rfl (by simp [pc]) ?_
    rintro τ ⟨c', same, overwriting⟩
    rw [State.cleaner_stop ended pc] at same
    obtain rfl := Option.some.inj same
    simp [Cleanup.finished, overwriting] at finished
  | _ pc =>
    exact before.keep rfl (fun _ => rfl) rfl (by simp [pc])
      fun τ => State.Invalidating.udp (s := s) rfl (by simp [pc])

theorem Move.descriptors (move : Move p s action t) (before : Descriptors s)
    (indexed : Indexed p s) (threads : Threads s) : Descriptors t := by
  cases move with
  | udp move => exact move.descriptors before indexed threads
  | reply move => exact move.descriptors before
  | stop move => exact move.descriptors before threads
  | callStop pc =>
    exact before.keep rfl (fun _ => rfl) rfl (by simp [pc])
      fun τ => State.Invalidating.udp (s := s) rfl (by simp [pc])
  | foreignOpen free =>
    exact ⟨fun τ m held => (before.upstream τ m held).imp_left (State.openFd_stays free),
      fun m held => (before.listen m held).imp_left (State.openFd_stays free)⟩
  | foreignClose foreign =>
    have stays {m : Nat} {o : Owner} (other : o ≠ .foreign) (named : s.fds m = some o) :
        (s.closeSocket (some _)).fds m = some o :=
      State.closeSocket_stays (fun _ held => Option.some.inj held ▸ foreign) other named
    exact ⟨fun τ m held => (before.upstream τ m held).imp_left (stays (by simp)),
      fun m held => (before.listen m held).imp_left (stays (by simp))⟩
  | _ => exact before.keep rfl (fun _ => rfl) rfl id fun τ => id

/-- In every run the members hold the numbers of their own sockets. -/
theorem descriptors_reached {ok : State → Action → Prop} (reached : (forwarder p).Reach ok s) :
    Descriptors s := by
  induction reached with
  | start init =>
    obtain ⟨fd, clock, outcome, endpoints, -, rfl⟩ := init
    exact descriptors_started
  | next before _ step ih =>
    exact (step_move step).descriptors ih (indexed_reached before) (threads_reached before)

end PortForwardX.Udp
