import PortForwardX.Udp.Descriptors
import PortForwardX.Udp.Relay

/-!
# Survival of a session

As long as nobody stops the forwarder, the session is not evicted for idleness and no call
made for it fails other than transiently, a session has nothing to fear but its own loops:
the reply loop takes a result of zero for an end, and either thread gives a session up when
a `sendto` fails.
-/
namespace PortForwardX.Udp

open Transition Net Conduit

/-- Nobody calls `Stop`, `σ` is not evicted for idleness and no call made for `σ` reports an
error that is not transient. -/
def calm (p : Setup) (σ : SessionId) (s : State) : Action → Bool
  | .callStop => false
  | .reply τ (.error e) => τ != σ || isTransientRecvError p.platform e
  | .udp a =>
    match s.udp, a with
    | .sendTo _ τ, .error e => τ != σ || isTransientRecvError p.platform e
    | .cleaning c, _ =>
      match c.pc with
      | .evict _ τ .idleTimeout => τ != σ
      | _ => true
    | _, _ => true
  | _ => true

/-- `σ` has relayed to its client every reply its loop received, except for the one in
hand, once each and in order; the loop goes on and nobody has marked the session. -/
structure State.Serves (s : State) (σ : SessionId) : Prop where
  relayed : (s.downward σ).sent ++ (s.downward σ).hand.toList = (s.downward σ).received
  addressed : ∀ socket dest remote payload, .sendClient σ socket dest remote payload ∈ s.trace →
    socket = .listen ∧ dest = (s.heap σ).clientAddr
  inLoop : (s.reply σ).left = false
  unmarked : (s.heap σ).markedForClose = false

/-- The loop of `σ` received no empty reply, and no `sendto` made for `σ` failed. -/
structure State.Undisturbed (s : State) (σ : SessionId) : Prop where
  nonEmpty : ∀ reply ∈ (s.downward σ).received, reply.2 ≠ []
  replied : .sendClientFailed σ ∉ s.trace
  forwarded : .sendUpstreamFailed σ ∉ s.trace

variable {p : Setup} {s t : State} {c c' : Cleanup} {a : Answer} {action : Action}
  {σ : SessionId}

/-! ### A forwarder that nobody stops -/

/-- A cleanup that closes everything is about to run, runs or has run. -/
def UdpPc.forced : UdpPc → Bool
  | .enterCleanup forceAll => forceAll
  | .cleaning c => c.forceAll
  | .exited => true
  | _ => false

/-- `Stop` has not been called, and what goes to clients goes out on the listen socket. -/
structure Unstopped (s : State) : Prop where
  running : s.running = true
  idle : s.stop = .idle
  unforced : s.udp.forced = false
  listening : ∀ σ fd remote buffer, s.reply σ = .callSend (some fd) remote buffer →
    s.fds fd = some .listen
  addressed : ∀ σ socket dest remote payload, .sendClient σ socket dest remote payload ∈ s.trace →
    σ < s.nextSession ∧ socket = .listen ∧ dest = (s.heap σ).clientAddr

theorem UdpMove.unforced (move : UdpMove p s a t) (running : s.running = true)
    (before : s.udp.forced = false) : t.udp.forced = false := by
  cases move with
  | clean pc unfinished move => simpa [UdpPc.forced, pc, move.forceAll] using before
  | enterCleanup pc order => simpa [UdpPc.forced, pc] using before
  | @cleaned _ c pc finished =>
    have unforced : c.forceAll = false := by simpa only [UdpPc.forced, pc] using before
    simp [unforced, UdpPc.forced]
  | test | retest => simp [running, UdpPc.forced]
  | noThread pc => exact before
  | _ => rfl

/-- Without `Stop` nobody closes the listen socket. -/
theorem Unstopped.closes (before : Unstopped s) : s.closes action ≠ some .listen := by
  have idle := before.idle
  cases action with
  | udp a =>
    dsimp only [State.closes]
    split
    · exact Cleanup.closes_ne_listen
    · simp
  | stop a => simp [State.closes, idle]
  | _ => simp [State.closes]

theorem ReplyMove.listening (move : ReplyMove p s σ a t) (before : Unstopped s)
    (descriptors : Descriptors s) {fd : Nat} {remote : SockAddr} {buffer : List UInt8}
    (sending : t.reply σ = .callSend (some fd) remote buffer) : s.fds fd = some .listen := by
  cases move with
  | readListen pc =>
    have held : s.listenSocket = some fd := by
      simp only [State.gotoReply, Function.update_self, ReplyPc.callSend.injEq] at sending
      exact sending.1
    exact (descriptors.listen fd held).resolve_right (by simp [before.idle])
  | testRunning | testMarked | recvFailed | sent =>
    -- neither branch is the `sendto`
    simp only [State.gotoReply, State.log, Function.update_self] at sending
    split at sending <;> cases sending
  | _ => simp at sending

/-- Something that a step sends to a client is what the client's loop was about to send. -/
theorem Move.newReply {socket : Owner} {dest remote : SockAddr} {payload : List UInt8}
    (move : Move p s action t) (after : .sendClient σ socket dest remote payload ∈ t.trace) :
    .sendClient σ socket dest remote payload ∈ s.trace ∨
      ∃ a fd, action = .reply σ a ∧ s.reply σ = .callSend (some fd) remote payload ∧
        s.fds fd = some socket ∧ dest = (s.heap σ).clientAddr := by
  rcases move.ownEvent σ (by simp [Event.ofReply]) after with old | ⟨a, rfl⟩
  · exact .inl old
  · cases move with
    | reply move =>
      cases move with
      | @sent held owner remote buffer pc open_ =>
        rcases List.mem_append.mp after with old | new
        · exact .inl old
        · simp only [List.mem_singleton, Event.sendClient.injEq] at new
          obtain ⟨-, rfl, rfl, rfl, rfl⟩ := new
          obtain ⟨fd, rfl, named⟩ := Option.bind_eq_some_iff.mp open_
          exact .inr ⟨_, fd, rfl, pc, named, rfl⟩
      | _ => simp_all

theorem Move.unstopped (move : Move p s action t) (before : Unstopped s) (indexed : Indexed p s)
    (threads : Threads s) (descriptors : Descriptors s) (asked : action ≠ .callStop) :
    Unstopped t := by
  have stays : ∀ fd, s.fds fd = some .listen → t.fds fd = some .listen := fun fd =>
    move.stays descriptors indexed threads before.closes
  have fixed := move.fixed
  have addressed : ∀ σ socket dest remote payload,
      .sendClient σ socket dest remote payload ∈ t.trace →
        σ < t.nextSession ∧ socket = .listen ∧ dest = (t.heap σ).clientAddr := by
    intro σ socket dest remote payload sent
    have known : σ < s.nextSession ∧ socket = .listen ∧ dest = (s.heap σ).clientAddr := by
      rcases move.newReply sent with old | ⟨a, fd, rfl, sending, named, same⟩
      · exact before.addressed σ socket dest remote payload old
      · refine ⟨?_, ?_, same⟩
        · cases move with
          | reply move => exact move.allocated threads
        · exact Option.some.inj (named.symm.trans (before.listening σ fd remote payload sending))
    exact ⟨known.1.trans_le fixed.next, known.2.1, known.2.2.trans (fixed.client σ known.1).symm⟩
  -- another thread leaves a loop that sends alone
  have others {τ : SessionId} {fd : Nat} {remote : SockAddr} {buffer : List UInt8}
      (other : ∀ a, action ≠ .reply τ a) (sending : t.reply τ = .callSend (some fd) remote buffer) :
      t.fds fd = some .listen := by
    rcases move.others other with same | ⟨-, begun⟩ | ⟨-, joined⟩
    · exact stays fd (before.listening τ fd remote buffer (same ▸ sending))
    · simp [begun] at sending
    · simp [joined] at sending
  cases move with
  | udp move =>
    obtain ⟨running, stop, -⟩ := move.controls
    exact ⟨running ▸ before.running, stop ▸ before.idle,
      move.unforced before.running before.unforced, fun τ fd remote buffer => others (by simp), addressed⟩
  | @reply τ a t move =>
    refine ⟨move.frame.running ▸ before.running, move.frame.stop ▸ before.idle,
      move.quiet.udp ▸ before.unforced, fun τ' fd remote buffer sending => ?_, addressed⟩
    by_cases own : τ' = τ
    · exact stays fd (move.listening before descriptors (own ▸ sending))
    · exact others (fun a same => own (by cases same; rfl)) sending
  | callStop => exact absurd rfl asked
  | stop move => cases move <;> simp_all [before.idle]
  | _ =>
    exact ⟨before.running, before.idle, before.unforced,
      fun τ fd remote buffer => others (by simp), addressed⟩

theorem unstopped_reached {ok : State → Action → Prop} (never : ∀ s, ¬ ok s .callStop)
    (reached : (forwarder p).Reach ok s) : Unstopped s := by
  induction reached with
  | start init =>
    obtain ⟨fd, clock, outcome, endpoints, -, rfl⟩ := init
    exact ⟨rfl, rfl, rfl, by simp [started], by simp [started]⟩
  | next before admitted step ih =>
    refine (step_move step).unstopped ih (indexed_reached before) (threads_reached before)
      (descriptors_reached before) ?_
    rintro rfl
    exact never _ admitted

/-! ### A session that nothing ends -/

/-- A cleanup has no hold on `σ`, unless it found it idle. -/
structure Cleanup.Spares (c : Cleanup) (σ : SessionId) : Prop where
  closing : σ ∉ c.closing
  shut : c.pc ≠ .close σ
  closed : c.pc ≠ .setInvalid σ
  evicts : ∀ key reason, c.pc = .evict key σ reason → reason = .idleTimeout

/-- What the loop of `σ` is about to receive from is its own socket. -/
def ReplyPc.ReadsOwn (s : State) (σ : SessionId) : ReplyPc → Prop
  | .callRecv (some fd) => s.fds fd = some (.upstream σ)
  | .inRecv (some owner) => owner = .upstream σ
  | _ => True

/-- Nothing and nobody is about to end `σ`. -/
structure Alive (s : State) (σ : SessionId) : Prop where
  inLoop : (s.reply σ).left = false
  unmarked : (s.heap σ).markedForClose = false
  spared : ∀ c, s.udp = .cleaning c → c.Spares σ
  unshut : s.shut (.upstream σ) = false
  reads : (s.reply σ).ReadsOwn s σ

/-- What is evicted, where nothing is evicted for idleness, is another session. -/
theorem Cleanup.Spares.ne_evicted (spares : c.Spares σ)
    (patient : ∀ key, c.pc ≠ .evict key σ .idleTimeout) {key : String} {τ : SessionId}
    {reason : CloseReason} (pc : c.pc = .evict key τ reason) : σ ≠ τ := by
  rintro rfl
  obtain rfl := spares.evicts key reason pc
  exact patient key pc

theorem CleanMove.spares (move : CleanMove p s c t c') (unforced : c.forceAll = false)
    (unmarked : (s.heap σ).markedForClose = false) (spares : c.Spares σ)
    (patient : ∀ key, c.pc ≠ .evict key σ .idleTimeout) : c'.Spares σ := by
  cases move with
  | @condemn key τ idle pc cause =>
    refine ⟨spares.closing, by simp, by simp, ?_⟩
    rintro _ _ ⟨⟩
    -- not marked and not forced: the cause is idleness
    have idle : idle = true := by simpa [unforced, unmarked] using cause
    simp [Cleanup.reason, unforced, idle]
  | evict pc =>
    refine ⟨?_, by simp, by simp, by simp⟩
    simpa [spares.ne_evicted patient pc] using spares.closing
  | @shutdown τ rest pc closing =>
    -- the next session to be closed comes from the list
    have kept : σ ≠ τ ∧ σ ∉ rest := by simpa [closing] using spares.closing
    exact ⟨kept.2, by simp [Ne.symm kept.1], by simp, by simp⟩
  | @close τ pc =>
    have other : τ ≠ σ := fun same => spares.shut (same ▸ pc)
    exact ⟨spares.closing, by simp, by simp [other], by simp⟩
  | _ => exact ⟨spares.closing, by simp, by simp, by simp⟩

theorem CleanMove.unmarked (move : CleanMove p s c t c')
    (unmarked : (s.heap σ).markedForClose = false) (spares : c.Spares σ)
    (patient : ∀ key, c.pc ≠ .evict key σ .idleTimeout) :
    (t.heap σ).markedForClose = false := by
  cases move with
  | evict pc => simpa [spares.ne_evicted patient pc] using unmarked
  | setInvalid => simpa using unmarked
  | _ => exact unmarked

/-- What a cleanup shuts down belongs to the session it is at. -/
theorem CleanMove.unshut (move : CleanMove p s c t c') (holds : c.Holds s)
    (unshut : s.shut (.upstream σ) = false) (spares : c.Spares σ) :
    t.shut (.upstream σ) = false := by
  cases move with
  | @shutdown τ rest pc closing =>
    have other : τ ≠ σ := fun same => spares.closing (by simp [closing, same])
    have elsewhere : s.resolve (s.heap τ).upstreamSocket ≠ some (.upstream σ) := by
      intro open_
      obtain ⟨fd, held, named⟩ := Option.bind_eq_some_iff.mp open_
      have own := (holds τ fd held).resolve_right (by simp [pc])
      exact other (Owner.upstream.inj (Option.some.inj (own.symm.trans named)))
    simp [unshut, elsewhere]
  | _ => exact unshut

theorem ReplyPc.ReadsOwn.mono {pc : ReplyPc}
    (stays : ∀ fd, s.fds fd = some (.upstream σ) → t.fds fd = some (.upstream σ))
    (reads : pc.ReadsOwn s σ) : pc.ReadsOwn t σ := by
  unfold ReplyPc.ReadsOwn at reads ⊢
  split
  · exact stays _ reads
  · exact reads
  · trivial

/-- In a forwarder that nobody stops, the member of a living session is its own. -/
theorem Alive.own (alive : Alive s σ) (unstopped : Unstopped s) (descriptors : Descriptors s)
    {fd : Nat} (held : (s.heap σ).upstreamSocket = some fd) : s.fds fd = some (.upstream σ) := by
  apply (descriptors.upstream σ fd held).resolve_right
  rintro ⟨c, cleaner, pc⟩
  rcases State.cleaner_cases cleaner with cleaning | stopping
  · exact (alive.spared c cleaning).closed pc
  · simp [unstopped.idle] at stopping

/-- The loop of a living session goes on. -/
theorem ReplyMove.alive (move : ReplyMove p s σ a t) (before : Alive s σ) (unstopped : Unstopped s)
    (descriptors : Descriptors s) (wanted : (s.downward σ).Wanted NonEmpty)
    (admitted : calm p σ s (.reply σ a) = true) (undisturbed : t.Undisturbed σ) :
    (t.reply σ).left = false ∧ (t.reply σ).ReadsOwn s σ ∧ (t.heap σ).markedForClose = false := by
  have reads := before.reads
  have unmarked := before.unmarked
  cases move with
  | testRunning pc => simp [unstopped.running, ReplyPc.left, ReplyPc.ReadsOwn, unmarked]
  | testMarked pc => simp [unmarked, ReplyPc.left, ReplyPc.ReadsOwn]
  | readSocket pc =>
    refine ⟨by simp [ReplyPc.left], ?_, unmarked⟩
    cases held : (s.heap σ).upstreamSocket with
    | none => simp [ReplyPc.ReadsOwn]
    | some fd => simpa [held, ReplyPc.ReadsOwn] using before.own unstopped descriptors held
  | @callRecv _ fd pc =>
    have own : s.fds fd = some (.upstream σ) := by simpa only [pc, ReplyPc.ReadsOwn] using reads
    simp [own, ReplyPc.left, ReplyPc.ReadsOwn, unmarked]
  | @recvEmpty _ socket owner remote pc answer =>
    -- the one reply that ends the loop
    refine absurd rfl (undisturbed.nonEmpty (remote, []) ?_)
    exact State.mem_downward_received.mpr ⟨owner, by simp⟩
  | recvZero pc answer =>
    -- only a socket that has been shut down returns zero
    obtain ⟨-, owner, rfl, shut⟩ := recvfrom_nothing answer
    have own : owner = .upstream σ := by simpa only [pc, ReplyPc.ReadsOwn] using reads
    simp [own, before.unshut] at shut
  | @recvFailed _ socket e pc answer =>
    obtain rfl := recvfrom_failed answer
    have transient : isTransientRecvError p.platform e = true := by simpa [calm] using admitted
    simp [transient, ReplyPc.left, ReplyPc.ReadsOwn, unmarked]
  | @sent socket owner remote buffer pc open_ =>
    -- what is sent has contents, so `sent <= 0` does not hold
    have some_ : buffer ≠ [] := wanted (remote, buffer) (by simp [pc, ReplyPc.parcel])
    simp [some_, ReplyPc.left, ReplyPc.ReadsOwn, unmarked]
  | sendFailed pc =>
    exact absurd (List.mem_append_right _ (List.mem_singleton.mpr rfl)) undisturbed.replied
  | leaving pc =>
    have inLoop := before.inLoop
    simp [pc, ReplyPc.left] at inLoop
  | _ => simp [ReplyPc.left, ReplyPc.ReadsOwn, unmarked]

/-- `UdpLoop` does not mark a session whose datagrams it can send. -/
theorem UdpMove.unmarked (move : UdpMove p s a t) (alive : Alive s σ)
    (wanted : s.upward.Wanted NonEmpty) (patient : ∀ c key, s.udp = .cleaning c →
      c.pc ≠ .evict key σ .idleTimeout) (forwarded : .sendUpstreamFailed σ ∉ t.trace) :
    (t.heap σ).markedForClose = false := by
  have unmarked := alive.unmarked
  cases move with
  | clean pc unfinished move =>
    exact move.unmarked unmarked (alive.spared _ pc) fun key => patient _ key pc
  | @socketMade fd d endpoint rest pc free =>
    by_cases new : σ = s.nextSession
    · simp [new]
    · simpa [new] using unmarked
  | @sentEmpty d τ owner pc open_ none_ =>
    -- `UdpLoop` holds nothing empty
    exact absurd none_ (wanted (d.client, d.buffer) (by simp [pc, UdpPc.datagram]))
  | @sendFailed e d τ pc =>
    -- the failure of another session
    have other : σ ≠ τ := by
      rintro rfl
      exact forwarded (List.mem_append_right _ (List.mem_singleton.mpr rfl))
    simpa [other] using unmarked
  | initActive | storeActive => simpa using unmarked
  | _ => exact unmarked

theorem UdpMove.spared (move : UdpMove p s a t) (alive : Alive s σ) (unstopped : Unstopped s)
    (patient : ∀ c key, s.udp = .cleaning c → c.pc ≠ .evict key σ .idleTimeout)
    (cleaning : t.udp = .cleaning c) : c.Spares σ := by
  cases move with
  | clean pc unfinished move =>
    obtain rfl := UdpPc.cleaning.inj cleaning
    have unforced := unstopped.unforced
    rw [pc] at unforced
    exact move.spares unforced alive.unmarked (alive.spared _ pc) fun key => patient _ key pc
  | enterCleanup pc order =>
    obtain rfl := UdpPc.cleaning.inj cleaning
    exact ⟨by simp, by simp, by simp, by simp⟩
  | test | retest | cleaned =>
    dsimp only [State.goto] at cleaning
    split at cleaning <;> cases cleaning
  | noThread pc => exact alive.spared c cleaning
  | _ => simp at cleaning

theorem UdpMove.unshut (move : UdpMove p s a t) (alive : Alive s σ) (descriptors : Descriptors s) :
    t.shut (.upstream σ) = false := by
  cases move with
  | clean pc unfinished move =>
    exact move.unshut (descriptors.holds (State.cleaner_udp pc)) alive.unshut (alive.spared _ pc)
  | _ => exact alive.unshut

/-- Nobody but a cleanup at work on `σ` closes its number. -/
theorem Alive.closes (alive : Alive s σ) (unstopped : Unstopped s) :
    s.closes action ≠ some (.upstream σ) := by
  have idle := unstopped.idle
  cases action with
  | udp a =>
    dsimp only [State.closes]
    split
    next c cleaning =>
      intro closes
      obtain ⟨τ, pc, same⟩ := Cleanup.closes_eq_some closes
      exact (alive.spared c cleaning).shut (Owner.upstream.inj same ▸ pc)
    · simp
  | stop a => simp [State.closes, idle]
  | _ => simp [State.closes]

theorem patient_of_calm {key : String} (admitted : calm p σ s (.udp a) = true)
    (cleaning : s.udp = .cleaning c) : c.pc ≠ .evict key σ .idleTimeout := by
  intro pc
  simp [calm, cleaning, pc] at admitted

/-- A calm step that disturbs nothing leaves a living session alive. -/
theorem Move.alive (move : Move p s action t) (before : Alive s σ) (unstopped : Unstopped s)
    (indexed : Indexed p s) (threads : Threads s) (descriptors : Descriptors s)
    (upward : s.upward.Wanted NonEmpty) (downward : (s.downward σ).Wanted NonEmpty)
    (admitted : calm p σ s action = true) (undisturbed : t.Undisturbed σ) : Alive t σ := by
  have stays : ∀ fd, s.fds fd = some (.upstream σ) → t.fds fd = some (.upstream σ) := fun fd =>
    move.stays descriptors indexed threads (before.closes unstopped)
  by_cases own : ∃ a, action = .reply σ a
  · obtain ⟨a, rfl⟩ := own
    cases move with
    | reply move =>
      obtain ⟨inLoop, reads, unmarked⟩ :=
        move.alive before unstopped descriptors downward admitted undisturbed
      exact ⟨inLoop, unmarked, move.quiet.udp ▸ before.spared,
        by rw [move.frame.shut]; exact before.unshut, reads.mono stays⟩
  · have other : ∀ a, action ≠ .reply σ a := fun a same => own ⟨a, same⟩
    -- the loop stays where it is, unless it is started
    obtain ⟨inLoop, reads⟩ : (t.reply σ).left = false ∧ (t.reply σ).ReadsOwn t σ := by
      rcases move.others other with same | ⟨-, begun⟩ | ⟨ended, -⟩
      · rw [same]
        exact ⟨before.inLoop, before.reads.mono stays⟩
      · simp [begun, ReplyPc.left, ReplyPc.ReadsOwn]
      · have inLoop := before.inLoop
        simp [ended, ReplyPc.left] at inLoop
    cases move with
    | udp move =>
      have patient : ∀ c key, s.udp = .cleaning c → c.pc ≠ .evict key σ .idleTimeout :=
        fun c key => patient_of_calm admitted
      exact ⟨inLoop, move.unmarked before upward patient undisturbed.forwarded,
        fun c => move.spared before unstopped patient, move.unshut before descriptors, reads⟩
    | @reply τ a t move =>
      have different : σ ≠ τ := fun same => other a (same ▸ rfl)
      exact ⟨inLoop, by rw [move.frame.heap σ different]; exact before.unmarked,
        move.quiet.udp ▸ before.spared, by rw [move.frame.shut]; exact before.unshut, reads⟩
    | stop move => cases move <;> simp_all [unstopped.idle]
    | _ => exact ⟨inLoop, before.unmarked, before.spared, before.unshut, reads⟩

/-- What has not been disturbed yet had not been before. -/
theorem State.Undisturbed.of_history (history : s.trace <+: t.trace) (after : t.Undisturbed σ) :
    s.Undisturbed σ where
  nonEmpty reply received := by
    obtain ⟨socket, receipt⟩ := State.mem_downward_received.mp received
    exact after.nonEmpty reply (State.mem_downward_received.mpr ⟨socket, history.subset receipt⟩)
  replied failed := after.replied (history.subset failed)
  forwarded failed := after.forwarded (history.subset failed)

theorem alive_reached (reached : (forwarder p).Reach (fun s action => calm p σ s action = true) s)
    (undisturbed : s.Undisturbed σ) : Alive s σ := by
  induction reached with
  | start init =>
    obtain ⟨fd, clock, outcome, endpoints, -, rfl⟩ := init
    exact ⟨rfl, rfl, by simp [started], rfl, trivial⟩
  | next before admitted step ih =>
    have move := step_move step
    have unstopped := unstopped_reached (by simp [calm]) before
    -- earlier states are undisturbed as well
    exact move.alive (ih (undisturbed.of_history move.history)) unstopped (indexed_reached before)
      (threads_reached before) (descriptors_reached before) (upward_wanted before)
      (downward_wanted before) admitted undisturbed

/-! ### What ends a session -/

/-- A `sendto` to the client that fails ends the loop. -/
theorem Move.replyFailed (move : Move p s action t) (after : .sendClientFailed σ ∈ t.trace) :
    .sendClientFailed σ ∈ s.trace ∨ (t.reply σ).left = true := by
  rcases move.ownEvent σ (by simp [Event.ofReply]) after with old | ⟨a, rfl⟩
  · exact .inl old
  · cases move with
    | reply move =>
      cases move with
      | sendFailed => exact .inr (by simp [ReplyPc.left])
      | _ => exact .inl (by simpa using after)

/-- A `sendto` to the target that fails marks the session. -/
theorem Move.forwardFailed (move : Move p s action t) (indexed : Indexed p s)
    (after : .sendUpstreamFailed σ ∈ t.trace) :
    .sendUpstreamFailed σ ∈ s.trace ∨
      (σ < s.nextSession ∧ (t.heap σ).markedForClose = true) := by
  rcases move.loopEvent rfl after with old | ⟨a, rfl⟩
  · exact .inl old
  · cases move with
    | udp move =>
      cases move with
      | @sendFailed e d τ pc =>
        rcases List.mem_append.mp after with old | new
        · exact .inl old
        · obtain rfl : σ = τ := by simpa using new
          have served := indexed.served d σ (by simp [pc, UdpPc.datagram])
            (by simp [pc, UdpPc.session])
          exact .inr ⟨served.1, by simp⟩
      | clean pc unfinished move => cases move <;> exact .inl (by simpa using after)
      | _ => exact .inl (by simpa using after)

theorem failures_final {ok : State → Action → Prop} (reached : (forwarder p).Reach ok s) :
    (.sendClientFailed σ ∈ s.trace → (s.reply σ).left = true) ∧
      (.sendUpstreamFailed σ ∈ s.trace →
        σ < s.nextSession ∧ (s.heap σ).markedForClose = true) := by
  induction reached with
  | start init =>
    obtain ⟨fd, clock, outcome, endpoints, -, rfl⟩ := init
    simp [started]
  | next before _ step ih =>
    have move := step_move step
    constructor
    · intro failed
      rcases move.replyFailed failed with old | left
      · exact move.staysOut (threads_reached before) (ih.1 old)
      · exact left
    · intro failed
      rcases move.forwardFailed (indexed_reached before) failed with old | ⟨allocated, marked⟩
      · obtain ⟨allocated, marked⟩ := ih.2 old
        exact ⟨allocated.trans_le move.fixed.next, move.staysMarked allocated marked⟩
      · exact ⟨allocated.trans_le move.fixed.next, marked⟩

/-- Without failures the reply loop loses no reply. -/
theorem downward_exact
    (reached : (forwarder p).Reach (fun s action => calm p σ s action = true) s)
    (undisturbed : s.Undisturbed σ) : (s.downward σ).Exact NonEmpty := by
  induction reached with
  | start init =>
    obtain ⟨fd, clock, outcome, endpoints, -, rfl⟩ := init
    rfl
  | @next s t action before admitted step ih =>
    have move := step_move step
    refine ((move.downward (threads_reached before)).mono ?_).exact
      (ih (undisturbed.of_history move.history))
    rintro ⟨a, rfl, loss⟩
    -- only a failed `sendto` loses a reply
    unfold losesReply at loss
    split at loss
    next socket remote buffer e pc =>
      cases move with
      | reply move =>
        cases move with
        | sendFailed => exact undisturbed.replied (by simp)
        | _ pc' => simp [pc] at pc'
    next => cases loss

/-- Reply transparency and survival. In every run in which nobody calls `Stop`, the session
is not evicted for idleness and no call made for it fails other than transiently, the
session serves its client if and only if no empty reply has reached its loop and no
`sendto` made for it has failed. -/
theorem serves_iff (reached : (forwarder p).Reach (fun s action => calm p σ s action = true) s) :
    s.Serves σ ↔ s.Undisturbed σ := by
  constructor
  · intro serves
    have final : (.sendClientFailed σ ∈ s.trace → _) ∧ (.sendUpstreamFailed σ ∈ s.trace → _) :=
      failures_final reached
    refine ⟨?_, ?_, ?_⟩
    · intro reply received
      -- nothing empty is relayed
      exact downward_wanted reached reply (serves.relayed ▸ received)
    · intro failed
      simp [serves.inLoop] at final
      exact final.1 failed
    · intro failed
      simp [serves.unmarked] at final
      exact final.2 failed
  · intro undisturbed
    have alive := alive_reached reached undisturbed
    have unstopped := unstopped_reached (by simp [calm]) reached
    have exact_ := downward_exact reached undisturbed
    refine ⟨exact_.lossless_iff.mpr undisturbed.nonEmpty, fun socket dest remote payload sent => ?_,
      alive.inLoop, alive.unmarked⟩
    exact (unstopped.addressed σ socket dest remote payload sent).2

/-- A client whose session sees a timeout, a reply and a cleanup, and then a reply `last`. -/
def twoReplies (last : Payload) : List Action :=
  Sample.oneClient ++
    Sample.awaitReply 0 ++ [.reply 0 (.error .wouldBlock)] ++
    Sample.awaitReply 0 ++ Sample.relayReply 0 Sample.server (Sample.payload [9]) ++
    .tick 1500 :: Sample.cleanup [("192.0.2.1:40000", 0)] 5 ++
    Sample.awaitReply 0 ++ [.reply 0 (.datagram Sample.server last), .reply 0 .none]

theorem serves_iff_two_replies :
    ∃ s, (forwarder Sample.setup).Reach
        (fun s action => calm Sample.setup 0 s action = true) s ∧
      (s.downward 0).received = [(Sample.server, [9]), (Sample.server, [8, 7])] ∧ s.Serves 0 := by
  have result : ((forwarder Sample.setup).runIf
      (fun s action => calm Sample.setup 0 s action = true) Sample.initial
      (twoReplies (Sample.payload [8, 7]))).map (fun s =>
        decide ((s.downward 0).received = [(Sample.server, [9]), (Sample.server, [8, 7])] ∧
          .sendClientFailed 0 ∉ s.trace ∧ .sendUpstreamFailed 0 ∉ s.trace)) = some true := by
    decide +kernel
  obtain ⟨s, run, seen⟩ := Option.map_eq_some_iff.mp result
  obtain ⟨received, replied, forwarded⟩ := of_decide_eq_true seen
  have reached := Machine.Reach.runIf (.start Sample.initial_init) run
  refine ⟨s, reached, received, (serves_iff reached).mpr ⟨?_, replied, forwarded⟩⟩
  rw [received]
  decide

/-- An empty reply ends the session: its loop leaves and marks it. -/
theorem empty_reply_ends :
    ∃ s, (forwarder Sample.setup).Reach
        (fun s action => calm Sample.setup 0 s action = true) s ∧
      (s.downward 0).received = [(Sample.server, [9]), (Sample.server, [])] ∧
      (s.downward 0).sent = [(Sample.server, [9])] ∧ s.reply 0 = .exited ∧
      (s.heap 0).markedForClose = true ∧ ¬ s.Serves 0 := by
  have result : ((forwarder Sample.setup).runIf
      (fun s action => calm Sample.setup 0 s action = true) Sample.initial
      (twoReplies (Sample.payload []))).map (fun s =>
        decide ((s.downward 0).received = [(Sample.server, [9]), (Sample.server, [])] ∧
          (s.downward 0).sent = [(Sample.server, [9])] ∧ s.reply 0 = .exited ∧
          (s.heap 0).markedForClose = true)) = some true := by
    decide +kernel
  obtain ⟨s, run, seen⟩ := Option.map_eq_some_iff.mp result
  obtain ⟨received, sent, left, marked⟩ := of_decide_eq_true seen
  refine ⟨s, Machine.Reach.runIf (.start Sample.initial_init) run, received, sent, left, marked,
    fun serves => ?_⟩
  simp [serves.unmarked] at marked

end PortForwardX.Udp
