import PortForwardX.Udp.Custody

/-!
# Conservation of sessions

Every upstream socket belongs to one session and is closed once, after its session has left
the table. Every reply thread is joined once. When `Stop` returns nothing is left.
-/
namespace PortForwardX.Udp

open Transition Net

variable {p : Setup} {s t : State} {c c' : Cleanup} {a : Answer} {action : Action}
  {σ : SessionId} {n n' : Notes} {fd : Nat}

/-! ### Sockets -/

/-- The sessions in `live` have open sockets whose numbers their members hold, nobody else
has one, and the sockets of all other sessions have been closed. -/
structure Sockets (live : List SessionId) (s : State) : Prop where
  held : ∀ σ ∈ live, ∃ fd, (s.heap σ).upstreamSocket = some fd ∧ s.fds fd = some (.upstream σ)
  owned : ∀ fd σ, s.fds fd = some (.upstream σ) →
    σ ∈ live ∧ (s.heap σ).upstreamSocket = some fd
  opened : ∀ fd σ, .opened fd (.upstream σ) ∈ s.trace →
    σ < s.nextSession ∧ (σ ∈ live → s.fds fd = some (.upstream σ)) ∧
      (σ ∉ live → (σ, some fd) ∈ s.closings)

/-- The rule for a step that opens and closes no upstream socket. -/
theorem Sockets.keep {live live' : List SessionId} (before : Sockets live s)
    (same : ∀ σ, σ ∈ live' ↔ σ ∈ live)
    (fds : ∀ fd σ, t.fds fd = some (.upstream σ) ↔ s.fds fd = some (.upstream σ))
    (upstream : ∀ σ ∈ live, (t.heap σ).upstreamSocket = (s.heap σ).upstreamSocket)
    (next : t.nextSession = s.nextSession)
    (opened : ∀ fd σ, .opened fd (.upstream σ) ∈ t.trace → .opened fd (.upstream σ) ∈ s.trace)
    (closings : s.closings ⊆ t.closings) : Sockets live' t where
  held σ member := by
    have member := (same σ).mp member
    obtain ⟨fd, holds, open_⟩ := before.held σ member
    exact ⟨fd, (upstream σ member).trans holds, (fds fd σ).mpr open_⟩
  owned fd σ open_ := by
    obtain ⟨member, holds⟩ := before.owned fd σ ((fds fd σ).mp open_)
    exact ⟨(same σ).mpr member, (upstream σ member).trans holds⟩
  opened fd σ made := by
    obtain ⟨old, open_, gone⟩ := before.opened fd σ (opened fd σ made)
    exact ⟨next ▸ old, fun member => (fds fd σ).mpr (open_ ((same σ).mp member)),
      fun absent => closings (gone fun member => absent ((same σ).mpr member))⟩

theorem CleanMove.sockets (move : CleanMove p s c t c')
    (before : Sockets (s.listed ++ c.removed) s) (examines : Examines p c s n)
    (unique : (s.udpSessions.map Prod.fst).Nodup)
    (distinct : (s.listed ++ c.removed ++ c.closed).Nodup) :
    Sockets (t.listed ++ c'.removed) t := by
  cases move with
  | @evict key τ reason pc =>
    have shrunk := examines.removes unique pc
    simp only [Cleanup.removed, pc] at before ⊢
    refine before.keep (fun σ => ?_) (fun _ _ => .rfl) (by simp) rfl (by simp)
      (by simp [State.closings])
    have moved := shrunk.mem_iff (a := σ)
    simp only [List.mem_append, List.mem_singleton, State.listed, State.log] at moved ⊢
    rw [← moved]
    tauto
  | @close τ pc =>
    simp only [Cleanup.removed, Cleanup.closed, pc, List.append_nil] at before distinct ⊢
    obtain ⟨fd, holds, open_⟩ := before.held τ (by simp)
    have gone : τ ∉ s.listed ++ c.closing := fun member =>
      (List.nodup_cons.mp (List.perm_middle.nodup_iff.mp distinct)).1 member
    have live {σ : SessionId} (member : σ ∈ s.listed ++ c.closing) :
        σ ≠ τ ∧ σ ∈ s.listed ++ τ :: c.closing :=
      ⟨fun same => gone (same ▸ member), List.perm_middle.mem_iff.mpr (.tail _ member)⟩
    -- the number that is closed is that of `τ`
    have others {m : Nat} {σ : SessionId} (other : σ ≠ τ) (named : s.fds m = some (.upstream σ)) :
        (s.closeSocket (s.heap τ).upstreamSocket).fds m = some (.upstream σ) := by
      refine State.closeSocket_stays (o := .upstream τ) (fun l same => ?_) (by simpa using other) named
      rw [holds] at same
      exact Option.some.inj same ▸ open_
    have closings : State.closings ((s.closeSocket (s.heap τ).upstreamSocket).log
        (.closed τ (s.heap τ).upstreamSocket)) = s.closings ++ [(τ, some fd)] := by
      rw [State.closings_append (s := s) rfl, holds]
      rfl
    refine ⟨fun σ member => ?_, fun m σ named => ?_, fun m σ made => ?_⟩
    · obtain ⟨other, member⟩ := live member
      obtain ⟨m, held, named⟩ := before.held σ member
      exact ⟨m, held, others other named⟩
    · have named' := State.fds_of_closeSocket named
      obtain ⟨member, held⟩ := before.owned m σ named'
      have other : σ ≠ τ := by
        rintro rfl
        simp [held] at named
      refine ⟨?_, held⟩
      exact (List.mem_cons.mp (List.perm_middle.mem_iff.mp member)).resolve_left other
    · obtain ⟨old, named, closed⟩ := before.opened m σ (by simpa using made)
      refine ⟨old, fun member => ?_, fun absent => ?_⟩
      · obtain ⟨other, member⟩ := live member
        exact others other (named member)
      · rw [closings]
        by_cases own : σ = τ
        · -- it had one open number, the one that is closed
          subst own
          have held := (before.owned m σ (named (by simp))).2
          rw [holds] at held
          simp [Option.some.inj held]
        · refine List.mem_append_left _ (closed fun member => absent ?_)
          exact (List.mem_cons.mp (List.perm_middle.mem_iff.mp member)).resolve_left own
  | @setInvalid τ pc =>
    simp only [Cleanup.removed, Cleanup.closed, pc] at before distinct ⊢
    refine before.keep (fun _ => .rfl) (fun _ _ => .rfl) (fun σ member => ?_) rfl (by simp)
      (by simp [State.closings])
    -- the member that is overwritten is that of a session already closed
    have other : σ ≠ τ := (List.nodup_append.mp distinct).2.2 σ member τ (by simp)
    simp [other]
  | @shutdown τ rest pc closing =>
    simp only [Cleanup.removed, pc, closing] at before ⊢
    exact before.keep (fun _ => .rfl) (fun _ _ => .rfl) (fun _ _ => rfl) rfl (fun _ _ => id)
      fun _ => id
  | idleTest pc =>
    simp only [Cleanup.removed, pc] at before ⊢
    exact before.keep (fun _ => .rfl) (fun _ _ => .rfl) (fun _ _ => rfl) rfl (by simp)
      (by simp [State.closings])
  | _ pc =>
    simp only [Cleanup.removed, pc] at before ⊢
    exact before.keep (fun _ => .rfl) (fun _ _ => .rfl) (fun _ _ => rfl) rfl (fun _ _ => id)
      fun _ => id

theorem State.mem_open_of_eq (unlisted : t.udp.unlisted = s.udp.unlisted) (listed : t.listed = s.listed)
    (removed : t.removed = s.removed) (σ : SessionId) : σ ∈ t.open ↔ σ ∈ s.open := by
  rw [State.open, State.open, unlisted, listed, removed]

/-- A step of a cleanup, seen from the state it is part of. -/
theorem CleanMove.stateSockets {udp : UdpPc} {stop : StopPc} (move : CleanMove p s c t c')
    (cleaner : s.cleaner = some c) (after : State.cleaner { t with udp := udp, stop := stop } = some c')
    (unlisted : s.udp.unlisted = []) (unlisted' : udp.unlisted = []) (indexed : Indexed p s)
    (examines : Examines p c s n) (custody : s.Custody n) (before : Sockets s.open s) :
    Sockets (State.open { t with udp := udp, stop := stop }) { t with udp := udp, stop := stop } := by
  obtain ⟨removed, closed⟩ := State.places_of_cleaner cleaner
  obtain ⟨removed', -⟩ := State.places_of_cleaner after
  have distinct := custody.distinct
  rw [unlisted, removed, closed] at distinct
  rw [State.open, unlisted, removed] at before
  have after := move.sockets before examines indexed.unique (List.nodup_append.mp distinct).1
  refine after.keep (fun σ => ?_) (fun _ _ => .rfl) (fun _ _ => rfl) rfl (fun _ _ => id) fun _ => id
  rw [State.open, removed', unlisted']
  exact .rfl

theorem UdpMove.sockets (move : UdpMove p s a t) (indexed : Indexed p s) (threads : Threads s)
    (examines : ∀ c, s.cleaner = some c → Examines p c s n) (custody : s.Custody n)
    (before : Sockets s.open s) : Sockets t.open t := by
  have places := (move.sweep (n := n) threads).places
  cases move with
  | @clean a c c' u pc unfinished move =>
    exact move.stateSockets (State.cleaner_udp pc) (State.cleaner_udp rfl) (by rw [pc]; rfl) rfl
      indexed (examines c (State.cleaner_udp pc)) custody before
  | @socketMade m d endpoint rest pc free =>
    obtain ⟨removed, -, -⟩ := places (by simp [State.turn, pc])
    generalize (⟨endpoint.sockaddrBytes⟩ : SockAddr) = target at removed ⊢
    have live : ∀ τ, τ ∈ State.open (((s.newSession m target d.client).log
        (.created s.nextSession d.client target)).goto (.initActive d s.nextSession)) ↔
        τ = s.nextSession ∨ τ ∈ s.open := by
      intro τ
      rw [State.open, removed, State.open, pc]
      simp [UdpPc.unlisted, State.listed]
    -- the sessions that are open are older than the new one
    have old : ∀ τ ∈ s.open, τ ≠ s.nextSession := by
      intro τ member
      have placed := custody.places.subset
        (List.mem_append_left _ (List.mem_append_left _ member))
      exact Nat.ne_of_lt (List.mem_range.mp placed)
    refine ⟨fun τ member => ?_, fun l τ named => ?_, fun l τ made => ?_⟩
    · rcases (live τ).mp member with rfl | member
      · exact ⟨m, by simp⟩
      · obtain ⟨l, held, named⟩ := before.held τ member
        exact ⟨l, by simpa [old τ member] using held, State.openFd_stays free named⟩
    · by_cases new : l = m
      · subst new
        obtain rfl : s.nextSession = τ := by simpa using named
        exact ⟨(live _).mpr (.inl rfl), by simp⟩
      · obtain ⟨member, held⟩ := before.owned l τ (by simpa [new] using named)
        exact ⟨(live τ).mpr (.inr member), by simpa [old τ member] using held⟩
    · have made : .opened l (.upstream τ) ∈ s.trace ∨ (l = m ∧ τ = s.nextSession) := by
        simpa using made
      rcases made with made | ⟨rfl, rfl⟩
      · obtain ⟨younger, named, closed⟩ := before.opened l τ made
        refine ⟨Nat.lt_succ_of_lt younger, fun member => ?_, fun absent => ?_⟩
        · have member := ((live τ).mp member).resolve_left (Nat.ne_of_lt younger)
          exact State.openFd_stays free (named member)
        · have closed := closed fun member => absent ((live τ).mpr (.inr member))
          simpa [State.closings, Event.closes, List.filterMap_cons] using closed
      · exact ⟨Nat.lt_succ_self _, by simp, fun absent => absurd ((live _).mpr (.inl rfl)) absent⟩
  | @emplace _ d σ pc absent =>
    obtain ⟨removed, -, -⟩ := places (by simp [State.turn, pc])
    refine before.keep (fun τ => ?_) (fun _ _ => .rfl) (fun _ _ => rfl) rfl (fun _ _ => id) fun _ => id
    rw [State.open, removed, State.open, pc]
    exact .rfl
  | emplaced pc found => exact absurd found (indexed.not_emplaced pc)
  | cleaned pc finished =>
    obtain ⟨removed, -, -⟩ := places (by simp [State.turn, pc, finished])
    refine before.keep (State.mem_open_of_eq ?_ rfl removed) (fun _ _ => .rfl) (fun _ _ => rfl) rfl
      (fun _ _ => id) fun _ => id
    dsimp only [State.goto]
    split <;> simp [UdpPc.unlisted, pc]
  | test pc | retest pc =>
    obtain ⟨removed, -, -⟩ := places (by simp [State.turn, pc])
    refine before.keep (State.mem_open_of_eq ?_ rfl removed) (fun _ _ => .rfl) (fun _ _ => rfl) rfl
      (fun _ _ => id) fun _ => id
    dsimp only [State.goto]
    split <;> simp [UdpPc.unlisted, pc]
  | _ pc =>
    obtain ⟨removed, -, -⟩ := places (by simp [State.turn, pc])
    refine before.keep (State.mem_open_of_eq (by simp [UdpPc.unlisted, pc]) rfl removed)
      (fun _ _ => .rfl) (fun _ _ => by simp) rfl (by simp) (by simp [State.closings])

theorem StopMove.sockets (move : StopMove p s a t) (indexed : Indexed p s) (threads : Threads s)
    (descriptors : Descriptors s) (examines : ∀ c, s.cleaner = some c → Examines p c s n)
    (custody : s.Custody n) (before : Sockets s.open s) : Sockets t.open t := by
  have places := (move.sweep (n := n) threads).places
  cases move with
  | @clean a c c' u pc unfinished move =>
    have ended := threads.exclusive (by rw [pc]; rfl)
    have cleaner := State.cleaner_stop ended pc
    have none_ : s.udp.unlisted = [] := by rw [ended]; rfl
    exact move.stateSockets cleaner (State.cleaner_stop (move.quiet.udp.trans ended) rfl) none_
      (move.quiet.udp ▸ none_) indexed (examines c cleaner) custody before
  | closeListen pc =>
    obtain ⟨removed, -, -⟩ := places (by simp [State.turn, pc])
    refine before.keep (State.mem_open_of_eq rfl rfl removed) (fun m σ => ⟨?_, fun named => ?_⟩)
      (fun _ _ => rfl) rfl (fun _ _ => id) fun _ => id
    · exact State.fds_of_closeSocket
    · -- the listen socket's number is nobody else's
      refine State.closeSocket_stays (o := .listen) (fun l same => ?_) (by simp) named
      exact (descriptors.listen l same).resolve_right (by simp [pc])
  | cleaned pc finished =>
    obtain ⟨removed, -, -⟩ := places (by simp [State.turn, pc, finished])
    exact before.keep (State.mem_open_of_eq rfl rfl removed) (fun _ _ => .rfl) (fun _ _ => rfl) rfl
      (fun _ _ => id) fun _ => id
  | _ pc =>
    obtain ⟨removed, -, -⟩ := places (by simp [State.turn, pc])
    exact before.keep (State.mem_open_of_eq rfl rfl removed) (fun _ _ => .rfl) (fun _ _ => rfl) rfl
      (fun _ _ => id) fun _ => id

theorem Move.sockets (move : Move p s action t) (indexed : Indexed p s) (threads : Threads s)
    (descriptors : Descriptors s) (examines : ∀ c, s.cleaner = some c → Examines p c s n)
    (custody : s.Custody n) (before : Sockets s.open s) : Sockets t.open t := by
  have places := (move.sweep (n := n) threads).places
  cases move with
  | udp move => exact move.sockets indexed threads examines custody before
  | stop move => exact move.sockets indexed threads descriptors examines custody before
  | reply move =>
    have history := (Move.reply move).history
    obtain ⟨removed, -, -⟩ := places (by simp [State.turn])
    refine before.keep (State.mem_open_of_eq (by rw [move.quiet.udp]) ?_ removed)
      (fun _ _ => by rw [move.frame.fds]) (fun _ _ => move.frame.upstreamSocket _)
      move.quiet.nextSession (fun l τ => (move.frame.opened l (.upstream τ)).mp) ?_
    · rw [State.listed, move.frame.udpSessions, State.listed]
    · exact (history.filterMap _).subset
  | @foreignOpen m free =>
    obtain ⟨removed, -, -⟩ := places (by simp [State.turn])
    refine before.keep (State.mem_open_of_eq rfl rfl removed) (fun l τ => ⟨fun named => ?_,
      State.openFd_stays free⟩) (fun _ _ => rfl) rfl (by simp) (by simp [State.closings])
    have other : l ≠ m := by
      rintro rfl
      simp at named
    simpa [other] using named
  | @foreignClose m foreign =>
    obtain ⟨removed, -, -⟩ := places (by simp [State.turn])
    refine before.keep (State.mem_open_of_eq rfl rfl removed) (fun l τ =>
      ⟨State.fds_of_closeSocket, State.closeSocket_stays (o := .foreign) (fun _ same => ?_)
        (by simp)⟩) (fun _ _ => rfl) rfl (fun _ _ => id) fun _ => id
    exact Option.some.inj same ▸ foreign
  | _ =>
    obtain ⟨removed, -, -⟩ := places (by simp [State.turn])
    exact before.keep (State.mem_open_of_eq rfl rfl removed) (fun _ _ => .rfl) (fun _ _ => rfl) rfl
      (fun _ _ => id) fun _ => id

/-! ### Ended loops -/

/-- The sessions whose reply loops have returned are marked, and so they were in the tests of
a cleanup that found them so. -/
structure Ended (s : State) (n : Notes) : Prop where
  exited : ∀ σ, s.reply σ = .exited → σ < s.nextSession ∧ (s.heap σ).markedForClose = true
  found : ∀ σ ∈ n.ended, σ < s.nextSession ∧ (s.heap σ).markedForClose = true
  tested : ∀ g ∈ n.sightings, g.entry.2 ∈ n.ended → g.marked = true

theorem CleanMove.endedTested (move : CleanMove p s c t c')
    (found : ∀ σ ∈ n.ended, (s.heap σ).markedForClose = true)
    (before : ∀ g ∈ n.sightings, g.entry.2 ∈ n.ended → g.marked = true) :
    (n.clean s c).ended = n.ended ∧
      ∀ g ∈ (n.clean s c).sightings, g.entry.2 ∈ n.ended → g.marked = true := by
  cases move with
  | spare pc | condemn pc =>
    simp only [Notes.clean, pc]
    refine ⟨trivial, fun g member => ?_⟩
    rcases List.mem_append.mp member with old | new
    · exact before g old
    · obtain rfl := List.mem_singleton.mp new
      exact found _
  | scanned pc todo | older pc todo | recent pc todo =>
    simp only [Notes.clean, pc, todo]
    exact ⟨trivial, before⟩
  | join pc ended =>
    simp only [Notes.clean, pc, ended, if_true]
    exact ⟨trivial, before⟩
  | @unjoinable τ pc absent =>
    have running : s.reply τ ≠ .exited := by rcases absent with pc' | pc' <;> simp [pc']
    simp only [Notes.clean, pc, running, if_false]
    exact ⟨trivial, before⟩
  | _ pc =>
    simp only [Notes.clean, pc]
    exact ⟨trivial, before⟩

/-- A reply thread returns by its own last step, which marks the session. -/
theorem Move.exited (move : Move p s action t) (threads : Threads s)
    (before : s.reply σ = .exited → σ < s.nextSession ∧ (s.heap σ).markedForClose = true)
    (ended : t.reply σ = .exited) : σ < t.nextSession ∧ (t.heap σ).markedForClose = true := by
  have still (same : s.reply σ = .exited) :
      σ < t.nextSession ∧ (t.heap σ).markedForClose = true := by
    obtain ⟨old, marked⟩ := before same
    exact ⟨Nat.lt_of_lt_of_le old move.fixed.next, move.staysMarked old marked⟩
  by_cases own : ∃ a, action = .reply σ a
  · obtain ⟨a, rfl⟩ := own
    cases move with
    | reply move =>
      have allocated := move.allocated threads
      cases move with
      | leaving pc => exact ⟨allocated, by simp⟩
      | testRunning pc | testMarked pc | recvFailed pc | sent pc =>
        simp only [State.gotoReply, State.log, Function.update_self] at ended
        split at ended <;> cases ended
      | _ pc => simp at ended
  · rcases move.others fun a same => own ⟨a, same⟩ with same | ⟨-, started⟩ | ⟨-, joined⟩
    · exact still (same.symm.trans ended)
    · simp [started] at ended
    · simp [joined] at ended

theorem Move.ended (move : Move p s action t) (threads : Threads s) (before : Ended s n) :
    Ended t (note s action n) := by
  have marked {σ : SessionId} (known : σ < s.nextSession ∧ (s.heap σ).markedForClose = true) :
      σ < t.nextSession ∧ (t.heap σ).markedForClose = true :=
    ⟨Nat.lt_of_lt_of_le known.1 move.fixed.next, move.staysMarked known.1 known.2⟩
  have exited := fun σ => move.exited (σ := σ) threads (before.exited σ)
  cases move.sweep (n := n) threads with
  | clean _ cleaner unfinished clean after state noted =>
    obtain ⟨same, tested⟩ := clean.endedTested (fun σ member => (before.found σ member).2) before.tested
    rw [noted]
    exact ⟨exited, fun σ member => marked (before.found σ (same ▸ member)), same ▸ tested⟩
  | enter idle order after state noted =>
    rw [noted]
    refine ⟨exited, fun σ member => ?_, by simp [Notes.enter]⟩
    have ended := (List.mem_filter.mp member).2
    exact marked (before.exited σ (by simpa using ended))
  | leave cleaner finished after state noted | during cleaner after table noted =>
    rw [noted]
    exact ⟨exited, fun σ member => marked (before.found σ member), before.tested⟩
  | apart idle after noted =>
    obtain ⟨-, ended, sightings, -⟩ := noted
    refine ⟨exited, fun σ member => marked (before.found σ (ended ▸ member)), ?_⟩
    rw [ended, sightings]
    exact before.tested

/-- The cleanup of `Stop` is forced, and nothing is left in the table when it is over. -/
structure Finishing (s : State) : Prop where
  forced : ∀ c, s.stop = .cleaning c → c.forceAll = true
  done : s.stop = .done → s.udpSessions = []

theorem Examines.forced (examines : Examines p c s n) (finished : c.finished = true)
    (forceAll : c.forceAll = true) : s.udpSessions = [] := by
  have table := (examines.scanned (Cleanup.scanning_of_finished finished)).2
  have spared : n.spared p = [] := by
    rw [Notes.spared, List.map_eq_nil_iff, List.filter_eq_nil_iff]
    intro g member
    simp [Sighting.shouldClose, (examines.uniform g member).1, forceAll]
  simpa [spared] using table

theorem Move.finishing (move : Move p s action t) (threads : Threads s)
    (examines : ∀ c, s.cleaner = some c → Examines p c s n) (before : Finishing s) :
    Finishing t := by
  cases move with
  | udp move =>
    have unjoined := threads.unjoined move.alive
    constructor
    · intro c stopping
      rw [move.controls.2.1] at stopping
      simp [stopping, StopPc.udpJoined] at unjoined
    · intro done
      rw [move.controls.2.1] at done
      simp [done, StopPc.udpJoined] at unjoined
  | reply move =>
    have frame := move.frame
    exact ⟨frame.stop ▸ before.forced, frame.stop ▸ frame.udpSessions ▸ before.done⟩
  | stop move =>
    cases move with
    | clean pc unfinished move =>
      refine ⟨?_, by simp⟩
      rintro c' ⟨⟩
      exact move.forceAll.trans (before.forced _ pc)
    | cleaned pc finished =>
      have ended := threads.exclusive (by rw [pc]; rfl)
      refine ⟨by simp, fun _ => ?_⟩
      exact (examines _ (State.cleaner_stop ended pc)).forced finished (before.forced _ pc)
    | enterCleanup pc order =>
      refine ⟨?_, by simp⟩
      rintro c ⟨⟩
      rfl
    | _ => exact ⟨by simp, by simp⟩
  | callStop => exact ⟨by simp, by simp⟩
  | _ => exact ⟨before.forced, before.done⟩

/-! ### Runs -/

/-- Observed runs in which every thread can be started. -/
abbrev WatchedStarting (p : Setup) : State × Notes → Prop :=
  (watched p).Reach fun _ action => action ≠ .udp (.started false)

/-- A session comes with a socket. -/
theorem Move.opened (move : Move p s action t)
    (before : ∀ σ < s.nextSession, ∃ fd, .opened fd (.upstream σ) ∈ s.trace) :
    ∀ σ < t.nextSession, ∃ fd, .opened fd (.upstream σ) ∈ t.trace := by
  intro σ made
  by_cases old : σ < s.nextSession
  · obtain ⟨fd, opened⟩ := before σ old
    exact ⟨fd, move.history.subset opened⟩
  · by_cases own : ∃ a, action = .udp a
    · obtain ⟨a, rfl⟩ := own
      cases move with
      | udp move =>
        cases move with
        | @socketMade fd d endpoint rest pc free =>
          obtain rfl : σ = s.nextSession :=
            Nat.le_antisymm (Nat.le_of_lt_succ made) (Nat.le_of_not_lt old)
          exact ⟨fd, by simp⟩
        | clean pc unfinished move => exact absurd (move.quiet.nextSession ▸ made) old
        | _ => exact absurd made old
    · exact absurd ((move.quiet fun a same => own ⟨a, same⟩).nextSession ▸ made) old

/-- What the conservation of sessions rests on. -/
structure Conserving (s : State) (n : Notes) : Prop where
  made : ∀ σ < s.nextSession, ∃ fd, .opened fd (.upstream σ) ∈ s.trace
  custody : s.Custody n
  loops : Loops s n
  sockets : Sockets s.open s
  ended : Ended s n
  finishing : Finishing s

theorem conserving_reached {x : State × Notes} (reached : WatchedStarting p x) :
    Conserving x.1 x.2 := by
  induction reached with
  | start init =>
    obtain ⟨⟨fd, clock, outcome, endpoints, -, same⟩, none_⟩ := init
    rw [same, none_]
    refine ⟨by simp [started], ⟨.refl _, .refl _, .refl _⟩,
      ⟨by simp [started], by simp [started]⟩,
      ⟨by simp [started, State.open, State.listed, State.removed, State.cleaner, UdpPc.unlisted],
        fun m σ named => ?_, by simp [started]⟩,
      ⟨by simp [started], by simp, by simp⟩, ⟨by simp [started], by simp [started]⟩⟩
    by_cases own : m = fd <;> simp [started, own] at named
  | @next x y action before admitted moved ih =>
    obtain ⟨step, noted⟩ := Machine.observed_step.mp moved
    have plain := before.unobserved Machine.anyStep fun _ _ _ => trivial
    have move := step_move step
    have threads := threads_reached plain
    have indexed := indexed_reached plain
    have examines := examines_reached before
    rw [noted]
    exact ⟨move.opened ih.made, move.custody admitted indexed threads examines ih.loops ih.custody,
      move.loops indexed threads ih.loops,
      move.sockets indexed threads (descriptors_reached plain) examines ih.custody ih.sockets,
      move.ended threads ih.ended, move.finishing threads examines ih.finishing⟩

/-- The handles with which cleanups have closed the socket of `σ`. -/
def State.closesOf (s : State) (σ : SessionId) : List SocketHandle :=
  (s.closings.filter fun entry => entry.1 = σ).map Prod.snd

/-- What becomes of sessions, their sockets and their reply threads. -/
structure Conserved (p : Setup) (s : State) (n : Notes) : Prop where
  /-- At the end of an iteration a socket is open and owned by one entry, or has been closed
  once. -/
  iteration : s.udp = .test ∨ s.udp = .enterCleanup true →
    ∀ fd σ, .opened fd (.upstream σ) ∈ s.trace →
      (s.listed.count σ = 1 ∧ (s.heap σ).upstreamSocket = some fd ∧
        s.fds fd = some (.upstream σ) ∧ s.closesOf σ = []) ∨
      (σ ∉ s.listed ∧ (∀ fd', s.fds fd' ≠ some (.upstream σ)) ∧ s.closesOf σ = [some fd])
  /-- A session has left the table once if it is not in it any more. -/
  leaves : ∀ σ < s.nextSession,
    s.evicted.count σ = if σ ∈ s.udp.unlisted ++ s.listed then 0 else 1
  /-- A scan tests each entry once and keeps those whose test came out false. -/
  scanned : ∀ c, s.cleaner = some c → c.scanning = false →
    (n.sightings.map Sighting.entry).Perm n.found ∧ (n.spared p).Perm s.udpSessions
  /-- A cleanup closes and joins what it has removed. -/
  cleaned : ∀ c, s.cleaner = some c → c.finished = true → ∀ g ∈ n.sightings,
    g.shouldClose p = true → (∃ fd, s.closesOf g.entry.2 = [some fd] ∧
      .opened fd (.upstream g.entry.2) ∈ s.trace) ∧
      n.joins.count g.entry.2 = 1 ∧ s.reply g.entry.2 = .joined
  /-- Ended loops are marked, and the next cleanup removes their sessions. -/
  exited : ∀ σ ∈ s.listed, s.reply σ = .exited → (s.heap σ).markedForClose = true
  next : ∀ c, s.cleaner = some c → c.scanning = false → ∀ σ ∈ n.ended, σ ∉ s.listed
  /-- Nothing is left when `Stop` returns. -/
  stopped : s.stop = .done → s.udpSessions = [] ∧ (∀ fd σ, s.fds fd ≠ some (.upstream σ)) ∧
    ∀ σ, s.reply σ = if σ < s.nextSession then .joined else .notStarted

theorem State.closesOf_eq_nil (absent : σ ∉ s.closings.map Prod.fst) : s.closesOf σ = [] := by
  rw [State.closesOf, List.map_eq_nil_iff, List.filter_eq_nil_iff]
  intro entry member same
  exact absent (List.mem_map.mpr ⟨entry, member, by simpa using same⟩)

theorem State.closesOf_eq_singleton {socket : SocketHandle} (member : (σ, socket) ∈ s.closings)
    (once : (s.closings.map Prod.fst).Nodup) : s.closesOf σ = [socket] := by
  obtain ⟨before, after, split⟩ := List.append_of_mem member
  rw [split, List.map_append, List.map_cons, List.nodup_append, List.nodup_cons] at once
  have apart (l : List (SessionId × SocketHandle)) (absent : σ ∉ l.map Prod.fst) :
      l.filter (fun entry => entry.1 = σ) = [] := by
    rw [List.filter_eq_nil_iff]
    intro entry within same
    exact absent (List.mem_map.mpr ⟨entry, within, by simpa using same⟩)
  have first := apart before fun within => once.2.2 σ within σ (by simp) rfl
  have last := apart after once.2.1.1
  rw [State.closesOf, split, List.filter_append, List.filter_cons, first, last]
  simp

section consequences

variable (conserving : Conserving s n)

include conserving

theorem Conserving.closings_nodup : (s.closings.map Prod.fst).Nodup := by
  have distinct := conserving.custody.distinct
  rw [List.append_assoc, List.nodup_append] at distinct
  exact conserving.custody.closings.nodup_iff.mpr distinct.2.1

/-- Outside the set-up and the cleanups a session is in the table or has been joined. -/
theorem Conserving.settled (setup : s.udp.unlisted = []) (removed : s.removed = [])
    (closed : s.closed = []) (made : σ < s.nextSession) : σ ∈ s.listed ∨ σ ∈ n.joins := by
  have placed := conserving.custody.places.mem_iff.mpr (List.mem_range.mpr made)
  simpa [setup, removed, closed] using placed

/-- A session that has been joined has been closed once, and its number is not its own. -/
theorem Conserving.gone (joined : σ ∈ n.joins) {fd : Nat}
    (opened : .opened fd (.upstream σ) ∈ s.trace) :
    σ ∉ s.open ∧ s.closesOf σ = [some fd] := by
  have distinct := conserving.custody.distinct
  rw [List.append_assoc, List.nodup_append] at distinct
  have absent : σ ∉ s.open := fun member =>
    distinct.2.2 σ member σ (List.mem_append_right _ joined) rfl
  have closed := (conserving.sockets.opened fd σ opened).2.2 absent
  exact ⟨absent, State.closesOf_eq_singleton closed conserving.closings_nodup⟩

theorem Conserving.iteration (setup : s.udp.unlisted = []) (idle : s.cleaner = none)
    (opened : .opened fd (.upstream σ) ∈ s.trace) :
    (s.listed.count σ = 1 ∧ (s.heap σ).upstreamSocket = some fd ∧
        s.fds fd = some (.upstream σ) ∧ s.closesOf σ = []) ∨
      (σ ∉ s.listed ∧ (∀ fd', s.fds fd' ≠ some (.upstream σ)) ∧ s.closesOf σ = [some fd]) := by
  obtain ⟨removed, closed⟩ := State.no_places idle
  obtain ⟨made, live, -⟩ := conserving.sockets.opened fd σ opened
  have all : s.open = s.listed := by simp [State.open, setup, removed]
  have distinct := conserving.custody.distinct
  rw [setup, removed, closed, List.append_nil, List.append_nil, List.nil_append,
    List.nodup_append] at distinct
  by_cases member : σ ∈ s.listed
  · have named := live (all ▸ member)
    refine .inl ⟨List.count_eq_one_of_mem distinct.1 member,
      (conserving.sockets.owned fd σ named).2, named, State.closesOf_eq_nil fun within => ?_⟩
    have joined := conserving.custody.closings.subset within
    rw [closed, List.nil_append] at joined
    exact distinct.2.2 σ member σ joined rfl
  · have joined := (conserving.settled setup removed closed made).resolve_left member
    obtain ⟨absent, once⟩ := conserving.gone joined opened
    exact .inr ⟨member, fun fd' named => absent (conserving.sockets.owned fd' σ named).1, once⟩

theorem Conserving.leaves (made : σ < s.nextSession) :
    s.evicted.count σ = if σ ∈ s.udp.unlisted ++ s.listed then 0 else 1 := by
  have placed := conserving.custody.places.count_eq σ
  have gone := conserving.custody.evicted.count_eq σ
  have distinct := conserving.custody.distinct
  rw [List.count_eq_one_of_mem List.nodup_range (List.mem_range.mpr made)] at placed
  simp only [List.count_append] at placed gone ⊢
  split
  next member =>
    have := List.count_pos_iff.mpr member
    rw [List.count_append] at this
    omega
  next absent =>
    have := List.count_eq_zero.mpr absent
    rw [List.count_append] at this
    omega

end consequences

/-- A session whose test came out true is not in the table the scan leaves. -/
theorem Examines.absent (examines : Examines p c s n) (scanned : c.scanning = false) {g : Sighting}
    (sighted : g ∈ n.sightings) (closes : g.shouldClose p = true) : g.entry.2 ∉ s.listed := by
  intro member
  obtain ⟨entry, within, same⟩ := List.mem_map.mp member
  have table := (examines.scanned scanned).2
  obtain ⟨g', sparing, rfl⟩ := List.mem_map.mp (table.mem_iff.mpr within)
  obtain ⟨sighted', spared⟩ := List.mem_filter.mp sparing
  obtain rfl := examines.once sighted' sighted same
  simp [closes] at spared

/-- A cleanup that has finished holds no session: what it removed is joined. -/
theorem Conserving.cleaned (conserving : Conserving s n) (examines : Examines p c s n)
    (threads : Threads s) (cleaner : s.cleaner = some c) (finished : c.finished = true)
    {g : Sighting} (sighted : g ∈ n.sightings) (made : g.entry.2 < s.nextSession)
    (closes : g.shouldClose p = true) : g.entry.2 ∈ n.joins := by
  obtain ⟨removed, closed⟩ := State.places_of_cleaner cleaner
  obtain ⟨none_, none_'⟩ := Cleanup.places_of_finished finished
  have setup : s.udp.unlisted = [] := by
    rcases State.cleaner_cases cleaner with pc | pc
    · rw [pc]
      rfl
    · rw [threads.exclusive (by rw [pc]; rfl)]
      rfl
  have absent := examines.absent (Cleanup.scanning_of_finished finished) sighted closes
  exact (conserving.settled setup (removed.trans none_) (closed.trans none_') made).resolve_left
    absent

theorem Conserving.joins_once (conserving : Conserving s n) (joined : σ ∈ n.joins) :
    n.joins.count σ = 1 ∧ s.reply σ = .joined := by
  have distinct := conserving.custody.distinct
  exact ⟨List.count_eq_one_of_mem (List.nodup_append.mp distinct).2.1 joined,
    (conserving.loops.joined σ).mpr joined⟩

/-- When `Stop` returns every session has been joined. -/
theorem Conserving.stopped (conserving : Conserving s n) (threads : Threads s)
    (done : s.stop = .done) : s.udpSessions = [] ∧ (∀ fd σ, s.fds fd ≠ some (.upstream σ)) ∧
      ∀ σ, s.reply σ = if σ < s.nextSession then .joined else .notStarted := by
  have ended := threads.exclusive (by rw [done]; rfl)
  have table := conserving.finishing.done done
  obtain ⟨removed, closed⟩ := State.no_places (State.cleaner_eq_none (s := s) (by simp [ended])
    (by simp [done]))
  have setup : s.udp.unlisted = [] := by rw [ended]; rfl
  refine ⟨table, fun fd σ named => ?_, fun σ => ?_⟩
  · simpa [State.open, setup, removed, State.listed, table] using
      (conserving.sockets.owned fd σ named).1
  · split
    next made =>
      have joined := (conserving.settled setup removed closed made).resolve_left
        (by simp [State.listed, table])
      exact (conserving.loops.joined σ).mpr joined
    next new => exact threads.unborn σ (Nat.le_of_not_lt new)

theorem CleanMove.evicts (move : CleanMove p s c t c') {entry : String × SessionId}
    (examines : Examines p c s n) (unique : (s.udpSessions.map Prod.fst).Nodup)
    (before : entry ∈ s.udpSessions) (after : entry ∉ t.udpSessions) :
    ∃ reason, c.pc = .evict entry.1 entry.2 reason ∧
      t.trace = s.trace ++ [.evicted entry.2 reason] := by
  cases move with
  | @evict key τ reason pc =>
    have same : entry.1 = key := by simpa [before] using after
    -- no other entry has that key
    have within : (key, τ) ∈ s.udpSessions :=
      examines.table.subset (by simp [Cleanup.condemned, pc])
    obtain rfl : entry = (key, τ) := List.inj_on_of_nodup_map unique before within same
    exact ⟨reason, pc, rfl⟩
  | _ => exact absurd before after

/-- An entry leaves the table in one way: a cleanup evicts its session. -/
theorem Move.evicts (move : Move p s action t) {entry : String × SessionId}
    (indexed : Indexed p s) (threads : Threads s) (examines : ∀ c, s.cleaner = some c → Examines p c s n)
    (before : entry ∈ s.udpSessions) (after : entry ∉ t.udpSessions) :
    ∃ c reason, s.cleaner = some c ∧ c.pc = .evict entry.1 entry.2 reason ∧
      t.trace = s.trace ++ [.evicted entry.2 reason] := by
  cases move with
  | udp move =>
    cases move with
    | clean pc unfinished move =>
      have cleaner := State.cleaner_udp pc
      obtain ⟨reason, at_, trace⟩ := move.evicts (examines _ cleaner) indexed.unique before after
      exact ⟨_, reason, cleaner, at_, trace⟩
    | emplace pc absent => exact absurd (List.mem_cons_of_mem _ before) after
    | _ => exact absurd before after
  | stop move =>
    cases move with
    | clean pc unfinished move =>
      have cleaner := State.cleaner_stop (threads.exclusive (by rw [pc]; rfl)) pc
      obtain ⟨reason, at_, trace⟩ := move.evicts (examines _ cleaner) indexed.unique before after
      exact ⟨_, reason, cleaner, at_, trace⟩
    | _ => exact absurd before after
  | reply move => exact absurd (move.frame.udpSessions ▸ before) after
  | _ => exact absurd before after

/-- In every run in which threads can be started, sessions are conserved: none is lost and
none is disposed of twice, and they leave the table through cleanups only. -/
theorem udp_conservation {x : State × Notes} (reached : WatchedStarting p x) :
    Conserved p x.1 x.2 ∧
      ∀ action t, (forwarder p).step x.1 action = some t →
        ∀ entry ∈ x.1.udpSessions, entry ∉ t.udpSessions →
          ∃ c reason, x.1.cleaner = some c ∧ c.pc = .evict entry.1 entry.2 reason ∧
            t.trace = x.1.trace ++ [.evicted entry.2 reason] := by
  have plain := reached.unobserved Machine.anyStep fun _ _ _ => trivial
  have threads := threads_reached plain
  have indexed := indexed_reached plain
  have examines := examines_reached reached
  have conserving := conserving_reached reached
  have found := found_reached reached
  refine ⟨⟨?_, ?_, ?_, ?_, ?_, ?_, ?_⟩, fun action t moved entry before after => ?_⟩
  · intro atEnd fd σ opened
    have idle : x.1.cleaner = none := by
      apply threads.no_cleaner <;> rcases atEnd with pc | pc <;> simp [pc]
    have setup : x.1.udp.unlisted = [] := by rcases atEnd with pc | pc <;> rw [pc] <;> rfl
    exact conserving.iteration setup idle opened
  · exact fun σ made => conserving.leaves made
  · exact fun c cleaner scanned => (examines c cleaner).scanned scanned
  · intro c cleaner finished g sighted closes
    have examined := examines c cleaner
    have made : g.entry.2 < x.1.nextSession := found.1 g.entry
      (examined.tested.subset (List.mem_append_left _ (List.mem_map_of_mem sighted)))
    have joined := conserving.cleaned examined threads cleaner finished sighted made closes
    obtain ⟨fd, opened⟩ := conserving.made _ made
    exact ⟨⟨fd, (conserving.gone joined opened).2, opened⟩, conserving.joins_once joined⟩
  · exact fun σ member ended => (conserving.ended.exited σ ended).2
  · intro c cleaner scanned σ ended
    have examined := examines c cleaner
    -- the session was found, and its test saw the mark
    obtain ⟨entry, within, rfl⟩ := List.mem_map.mp (found.2 ended)
    obtain ⟨g, sighted, rfl⟩ := List.mem_map.mp
      ((examined.scanned scanned).1.mem_iff.mpr within)
    have marked := conserving.ended.tested g sighted ended
    exact examined.absent scanned sighted (by simp [Sighting.shouldClose, marked])
  · exact conserving.stopped threads
  · exact (step_move moved).evicts indexed threads examines before after

/-- Two clients, a reply loop that ends at an empty reply, and the cleanup after that. -/
def endedLoop : List Action :=
  Sample.oneClient ++ Sample.newClient 5 Sample.bob (Sample.payload [3]) ++
    Sample.awaitReply 0 ++
    [.reply 0 (.datagram Sample.server (Sample.payload [])), .reply 0 .none, .tick 1500] ++
    Sample.cleanup [("192.0.2.1:40000", 0), ("192.0.2.2:40000", 1)] 13

/-- `Stop`, with every thread run to its end. -/
def stopAll : List Action :=
  [.callStop, .stop .none, .stop .none, .stop .none, .udp .none,
    .udp (.order [("192.0.2.2:40000", 1)]), .reply 1 .none, .reply 1 .none] ++
    List.replicate 10 (.udp .none) ++
    [.resolver .none, .stop .none, .stop .none, .stop (.order []), .stop .none, .stop .none]

/-- The cleanup removes the session whose loop has ended and keeps the other one, which
leaves with `Stop`. -/
theorem udp_conservation_two_sessions :
    (∃ x, WatchedStarting Sample.setup x ∧ x.1.udp = .test ∧ x.1.listed = [1] ∧
      x.2.ended = [0] ∧ x.2.joins = [0] ∧ Conserved Sample.setup x.1 x.2) ∧
    ∃ x, WatchedStarting Sample.setup x ∧ x.1.stop = .done ∧ x.1.evicted = [0, 1] ∧
      x.1.closesOf 0 = [some 4] ∧ x.1.closesOf 1 = [some 5] ∧ x.2.joins = [0, 1] ∧
      Conserved Sample.setup x.1 x.2 := by
  have start : (watched Sample.setup).Init (Sample.initial, {}) := ⟨Sample.initial_init, rfl⟩
  constructor
  · have result : ((watched Sample.setup).runIf (fun _ action => action ≠ .udp (.started false))
        (Sample.initial, {}) endedLoop).map (fun x => decide (x.1.udp = .test ∧
          x.1.listed = [1] ∧ x.2.ended = [0] ∧ x.2.joins = [0])) = some true := by
      decide +kernel
    obtain ⟨x, run, seen⟩ := Option.map_eq_some_iff.mp result
    obtain ⟨atEnd, listed, ended, joins⟩ := of_decide_eq_true seen
    have reached : WatchedStarting Sample.setup x := Machine.Reach.runIf (.start start) run
    exact ⟨x, reached, atEnd, listed, ended, joins, (udp_conservation reached).1⟩
  · have result : ((watched Sample.setup).runIf (fun _ action => action ≠ .udp (.started false))
        (Sample.initial, {}) (endedLoop ++ stopAll)).map (fun x => decide (x.1.stop = .done ∧
          x.1.evicted = [0, 1] ∧ x.1.closesOf 0 = [some 4] ∧ x.1.closesOf 1 = [some 5] ∧
          x.2.joins = [0, 1])) = some true := by
      decide +kernel
    obtain ⟨x, run, seen⟩ := Option.map_eq_some_iff.mp result
    obtain ⟨done, evicted, first, second, joins⟩ := of_decide_eq_true seen
    have reached : WatchedStarting Sample.setup x := Machine.Reach.runIf (.start start) run
    exact ⟨x, reached, done, evicted, first, second, joins, (udp_conservation reached).1⟩

end PortForwardX.Udp
