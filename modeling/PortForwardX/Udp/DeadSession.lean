import PortForwardX.Udp.Relay

/-!
# Datagrams through dead sessions

A session whose reply loop has left, or whose flag is set, stays in the table until the
next cleanup, and the lookup does not look at the flag. What decides is whether its client
sends in the meantime, or the loop ends while `UdpLoop` is busy with a datagram of its
client.
-/
namespace PortForwardX.Udp

open Transition Net Conduit

/-- The session is marked, or its reply loop has left. -/
def State.dead (s : State) (σ : SessionId) : Bool :=
  (s.heap σ).markedForClose || (s.reply σ).left

/-- While the forwarder runs, the sessions that `GetOrCreateUdpSession` returns and those
that `UdpLoop` sends through are not dead. -/
structure State.AvoidsDead (s : State) : Prop where
  returned : ∀ σ marked left, .returned σ true marked left ∈ s.trace →
    marked = false ∧ left = false
  sending : ∀ d σ, s.udp = .sendTo d σ → s.running = true → s.dead σ = false

/-- The session through which the datagram in hand will go, if the table knows it. -/
def State.serving (p : Setup) (s : State) : Option SessionId :=
  match s.udp with
  | .lookup d => s.find (p.key d.client)
  | .readClock _ σ | .storeActive _ σ _ | .sendTo _ σ => some σ
  | _ => none

/-- What the environment answers takes the reply loop of `σ` out of its loop. -/
def ends (p : Setup) (s : State) (σ : SessionId) (a : Answer) : Bool :=
  match s.reply σ, a with
  | .inRecv _, .datagram _ payload => payload.bytes.isEmpty
  | .inRecv _, .zero => true
  | .inRecv _, .error e => !isTransientRecvError p.platform e
  | .callSend .., .error _ => true
  | _, _ => false

/-- No client sends between the death of its session and the eviction, and no reply loop
ends while `UdpLoop` is busy with a datagram of its client. -/
def prompt (p : Setup) (s : State) : Action → Bool
  | .udp (.datagram client payload) =>
    match s.udp with
    | .inRecv _ => payload.bytes.isEmpty || !(s.find (p.key client)).any s.dead
    | _ => true
  | .reply σ a => s.serving p != some σ || !ends p s σ a
  | _ => true

variable {p : Setup} {s t : State} {c c' : Cleanup} {a : Answer} {action : Action}
  {σ : SessionId}

/-- The session at work is not dead. -/
def ServingAlive (p : Setup) (s : State) : Prop :=
  ∀ σ, s.serving p = some σ → s.running = true → s.dead σ = false

theorem State.dead_eq_false :
    s.dead σ = false ↔ (s.heap σ).markedForClose = false ∧ (s.reply σ).left = false := by
  simp [State.dead]

/-- The session a `GetOrCreateUdpSession` in progress has made is not dead. -/
theorem Threads.fresh (threads : Threads s) (preparing : s.udp.preparing = some σ) :
    s.dead σ = false := by
  obtain ⟨-, absent, unmarked⟩ := threads.prepared σ preparing
  simp [State.dead, absent, unmarked, ReplyPc.left]

theorem UdpMove.servingAlive (move : UdpMove p s a t) (before : ServingAlive p s)
    (indexed : Indexed p s) (threads : Threads s) (admitted : prompt p s (.udp a) = true) :
    ServingAlive p t := by
  intro σ serving running
  cases move with
  | @recvDatagram _ socket owner client bytes pc answer some_ =>
    -- the client's session, if it has one, has been looked at when the datagram came
    obtain ⟨-, payload, rfl, rfl⟩ := recvfrom_data answer
    have found : s.find (p.key client) = some σ := serving
    have alive : s.dead σ = false := by simpa [prompt, pc, found, some_] using admitted
    exact alive
  | @hit _ d τ pc found =>
    obtain rfl : τ = σ := Option.some.inj serving
    exact before τ (by simp [State.serving, pc, found]) running
  | @startThread d τ pc =>
    obtain rfl : τ = σ := Option.some.inj serving
    have fresh := State.dead_eq_false.mp (threads.fresh (by rw [pc]; rfl))
    simp [State.dead, ReplyPc.left, fresh.1]
  | emplaced pc found => exact absurd found (indexed.not_emplaced pc)
  | @readClock _ d τ pc =>
    obtain rfl : τ = σ := Option.some.inj serving
    exact before τ (by simp [State.serving, pc]) running
  | @storeActive _ d τ ms pc =>
    obtain rfl : τ = σ := Option.some.inj serving
    have alive := before τ (by simp [State.serving, pc]) running
    simpa [State.dead] using alive
  | noThread pc => simp [State.serving, pc] at serving
  | test | retest =>
    have running : s.running = true := running
    simp [State.serving, running] at serving
  | @cleaned _ c =>
    cases forced : c.forceAll <;> simp [State.serving, forced] at serving
  | _ => simp [State.serving] at serving

/-- A loop that the environment lets go on in a running forwarder does not leave. -/
theorem ReplyMove.goesOn (move : ReplyMove p s σ a t) (running : s.running = true)
    (alive : s.dead σ = false) (wanted : (s.downward σ).Wanted NonEmpty)
    (kept : ends p s σ a = false) : t.dead σ = false := by
  obtain ⟨unmarked, inLoop⟩ := State.dead_eq_false.mp alive
  cases move with
  | testRunning => simp [State.dead, ReplyPc.left, unmarked, running]
  | testMarked => simp [State.dead, ReplyPc.left, unmarked]
  | recvEmpty pc answer =>
    obtain ⟨-, payload, rfl, empty⟩ := recvfrom_data answer
    simp [ends, pc, empty] at kept
  | recvZero pc answer =>
    obtain ⟨rfl, -⟩ := recvfrom_nothing answer
    simp [ends, pc] at kept
  | @recvFailed _ socket e pc answer =>
    obtain rfl := recvfrom_failed answer
    have transient : isTransientRecvError p.platform e = true := by simpa [ends, pc] using kept
    simp [State.dead, ReplyPc.left, unmarked, transient]
  | @sent socket owner remote buffer pc =>
    have some_ : buffer ≠ [] := wanted (remote, buffer) (by simp [pc, ReplyPc.parcel])
    simp [State.dead, ReplyPc.left, unmarked, some_]
  | sendFailed pc => simp [ends, pc] at kept
  | leaving pc => simp [pc, ReplyPc.left] at inLoop
  | _ => simp [State.dead, ReplyPc.left, unmarked]

theorem Move.servingAlive (move : Move p s action t) (before : ServingAlive p s)
    (indexed : Indexed p s) (threads : Threads s) (wanted : ∀ σ, (s.downward σ).Wanted NonEmpty)
    (admitted : prompt p s action = true) : ServingAlive p t := by
  cases move with
  | udp move => exact move.servingAlive before indexed threads admitted
  | @reply τ a t move =>
    intro σ serving running
    have same : t.serving p = s.serving p := by
      simp only [State.serving, State.find, move.quiet.udp, move.frame.udpSessions]
    rw [same] at serving
    have running : s.running = true := move.frame.running ▸ running
    have alive := before σ serving running
    -- only its own loop can end the session at work
    by_cases own : σ = τ
    · subst own
      apply move.goesOn running alive (wanted σ)
      simpa [prompt, serving] using admitted
    · rw [State.dead, move.frame.reply σ own, move.frame.heap σ own]
      exact alive
  | stop move =>
    cases move with
    | clean pc unfinished move =>
      -- the UDP thread has ended
      have ended := threads.exclusive (by rw [pc]; rfl)
      intro σ serving
      simp [State.serving, move.quiet.udp, ended] at serving
    | _ => exact before
  | callStop => exact fun σ serving running => by cases running
  | _ => exact before

/-- What `GetOrCreateUdpSession` returns in a step is the session at work or a new one. -/
theorem Move.newReturn {marked left : Bool} (move : Move p s action t) (before : ServingAlive p s)
    (indexed : Indexed p s) (threads : Threads s)
    (after : .returned σ true marked left ∈ t.trace) :
    .returned σ true marked left ∈ s.trace ∨ (marked = false ∧ left = false) := by
  rcases move.loopEvent rfl after with old | ⟨a, rfl⟩
  · exact .inl old
  · cases move with
    | udp move =>
      cases move with
      | clean pc unfinished move => cases move <;> exact .inl (by simpa using after)
      | @hit _ d τ pc found =>
        rcases List.mem_append.mp after with old | new
        · exact .inl old
        · simp only [List.mem_singleton, Event.returned.injEq] at new
          obtain ⟨rfl, running, rfl, rfl⟩ := new
          have alive := before σ (by simp [State.serving, pc, found]) running.symm
          exact .inr (State.dead_eq_false.mp alive)
      | emplaced pc found => exact absurd found (indexed.not_emplaced pc)
      | @startThread d τ pc =>
        rcases List.mem_append.mp after with old | new
        · exact .inl old
        · have fresh := State.dead_eq_false.mp (threads.fresh (by rw [pc]; rfl))
          simp only [List.mem_singleton, Event.returned.injEq] at new
          obtain ⟨rfl, -, rfl, rfl⟩ := new
          exact .inr ⟨fresh.1, by simp [ReplyPc.left]⟩
      | _ => exact .inl (by simpa using after)

theorem avoidsDead_reached
    (reached : (forwarder p).Reach (fun s action => prompt p s action = true) s) :
    ServingAlive p s ∧ s.AvoidsDead := by
  induction reached with
  | start init =>
    obtain ⟨fd, clock, outcome, endpoints, -, rfl⟩ := init
    refine ⟨?_, ?_, ?_⟩
    · intro σ serving
      simp [started, State.serving] at serving
    · intro σ marked left member
      simp [started] at member
    · intro d σ pc
      simp [started] at pc
  | next before admitted step ih =>
    have move := step_move step
    have indexed := indexed_reached before
    have threads := threads_reached before
    have serving :=
      move.servingAlive ih.1 indexed threads (fun σ => downward_wanted before) admitted
    refine ⟨serving, fun σ marked left returned => ?_, fun d σ pc => ?_⟩
    · exact (move.newReturn ih.1 indexed threads returned).elim (ih.2.returned σ marked left) id
    · exact serving σ (by simp [State.serving, pc])

/-! ### What goes wrong otherwise -/

/-- An answer that ends a loop makes it leave. -/
theorem ReplyMove.leaves (move : ReplyMove p s σ a t) (ended : ends p s σ a = true) :
    t.reply σ = .leaving := by
  cases move with
  | recvDatagram pc answer some_ =>
    obtain ⟨-, payload, rfl, rfl⟩ := recvfrom_data answer
    simp [ends, pc, some_] at ended
  | @recvFailed _ socket e pc answer =>
    obtain rfl := recvfrom_failed answer
    have persistent : isTransientRecvError p.platform e = false := by simpa [ends, pc] using ended
    simp [persistent]
  | recvEmpty | recvZero | sendFailed => simp
  | _ pc => simp [ends, pc] at ended

/-- A step that is not prompt leaves `UdpLoop` with a dead session at work. -/
theorem Move.late (move : Move p s action t) (late : prompt p s action = false) :
    ∃ σ, t.serving p = some σ ∧ t.dead σ = true := by
  cases move with
  | @udp a t move =>
    cases a with
    | datagram client payload =>
      cases move with
      | @recvDatagram _ socket owner client bytes pc answer some_ =>
        obtain ⟨-, payload, same, rfl⟩ := recvfrom_data answer
        obtain ⟨rfl, rfl⟩ := Answer.datagram.inj same
        simp only [prompt, pc, Bool.or_eq_false_iff, Bool.not_eq_false', Option.any_eq_true] at late
        exact late.2
      | recvEmpty pc answer =>
        obtain ⟨-, payload, same, empty⟩ := recvfrom_data answer
        obtain ⟨rfl, rfl⟩ := Answer.datagram.inj same
        simp [prompt, pc, empty] at late
      | recvNothing pc answer none_ =>
        obtain ⟨owner, same⟩ := recvfrom_datagram answer
        exact absurd same (none_ owner client payload.bytes)
      | _ pc => simp [prompt, pc] at late
    | _ => simp [prompt] at late
  | @reply τ a t move =>
    simp only [prompt, Bool.or_eq_false_iff, bne_eq_false_iff_eq, Bool.not_eq_false'] at late
    refine ⟨τ, ?_, by simp [State.dead, move.leaves late.2, ReplyPc.left]⟩
    simpa only [State.serving, State.find, move.quiet.udp, move.frame.udpSessions] using late.1
  | _ => simp [prompt] at late

theorem State.AvoidsDead.not_sending {d : Datagram} (pc : s.udp = .sendTo d σ)
    (running : s.running = true) (dead : s.dead σ = true) : ¬ s.AvoidsDead := fun avoids => by
  simp [avoids.sending d σ pc running] at dead

/-- `UdpLoop` goes on to return the dead session at work, or to send through it. -/
theorem reaches_dead (alive : s.terminated = false) (running : s.running = true)
    (serving : s.serving p = some σ) (dead : s.dead σ = true) :
    ∃ n u, (forwarder p).run s (List.replicate n (.udp .none)) = some u ∧ ¬ u.AvoidsDead := by
  unfold State.serving at serving
  split at serving
  next d pc =>
    -- the lookup returns it
    refine ⟨1, s.returnSession d σ, by simp [forwarder, step, udpStep, alive, pc, serving], ?_⟩
    intro avoids
    have returned := avoids.returned σ (s.heap σ).markedForClose (s.reply σ).left
      (by simp [running])
    simp [State.dead, returned] at dead
  next d τ pc =>
    -- over the store of the time to the `sendto`
    obtain rfl := Option.some.inj serving
    refine ⟨2, (s.storeActive τ s.clock).goto (.sendTo d τ),
      by simp [forwarder, step, udpStep, alive, pc, List.replicate], ?_⟩
    exact State.AvoidsDead.not_sending rfl running (by simpa [State.dead] using dead)
  next d τ ms pc =>
    obtain rfl := Option.some.inj serving
    refine ⟨1, (s.storeActive τ ms).goto (.sendTo d τ),
      by simp [forwarder, step, udpStep, alive, pc], ?_⟩
    exact State.AvoidsDead.not_sending rfl running (by simpa [State.dead] using dead)
  next d τ pc =>
    obtain rfl := Option.some.inj serving
    exact ⟨0, s, rfl, State.AvoidsDead.not_sending pc running dead⟩
  · cases serving

/-- No forwarding through dead sessions. In every run in which no client sends between the
death of its session and the eviction, and no reply loop ends while `UdpLoop` is busy with
a datagram of its client, the sessions returned and sent through are not dead. And from
every step of the other kind `UdpLoop` goes on to return or use a dead session, unless the
forwarder is stopped. -/
theorem avoids_dead_of_prompt (p : Setup) :
    (∀ s, (forwarder p).Reach (fun s action => prompt p s action = true) s → s.AvoidsDead) ∧
      ∀ s action t, (forwarder p).step s action = some t → prompt p s action = false →
        t.terminated = false → t.running = true →
          ∃ n u, (forwarder p).run t (List.replicate n (.udp .none)) = some u ∧ ¬ u.AvoidsDead := by
  refine ⟨fun s reached => (avoidsDead_reached reached).2, ?_⟩
  intro s action t moved late alive running
  obtain ⟨σ, serving, dead⟩ := (step_move moved).late late
  exact reaches_dead alive running serving dead

/-- The client of session 0 sends again. -/
def sendsAgain : List Action :=
  ([.none, .none, .none, .datagram Sample.alice (Sample.payload [3]), .none, .none, .none, .sent] :
    List Answer).map .udp

/-- One client, and the first receive of its reply loop. -/
def firstReceive (a : Answer) : List Action :=
  Sample.oneClient ++ Sample.awaitReply 0 ++ [.reply 0 a]

theorem avoids_dead_of_prompt_timeout :
    (∃ s, (forwarder Sample.setup).Reach
        (fun s action => prompt Sample.setup s action = true) s ∧
      .returned 0 true false false ∈ s.trace ∧
      .sendUpstream 0 Sample.alice (.upstream 0) Sample.server [3] false ∈ s.trace ∧
      s.AvoidsDead) ∧
    ∃ s t n u, (forwarder Sample.setup).step s
        (.udp (.datagram Sample.alice (Sample.payload [3]))) = some t ∧
      (forwarder Sample.setup).run t (List.replicate n (.udp .none)) = some u ∧
      ¬ u.AvoidsDead := by
  constructor
  · have result : ((forwarder Sample.setup).runIf
        (fun s action => prompt Sample.setup s action = true) Sample.initial
        (firstReceive (.error .wouldBlock) ++ sendsAgain)).map (fun s =>
          decide (.returned 0 true false false ∈ s.trace ∧
            .sendUpstream 0 Sample.alice (.upstream 0) Sample.server [3] false ∈ s.trace)) =
        some true := by
      decide +kernel
    obtain ⟨s, run, seen⟩ := Option.map_eq_some_iff.mp result
    obtain ⟨returned, sent⟩ := of_decide_eq_true seen
    have reached := Machine.Reach.runIf (.start Sample.initial_init) run
    exact ⟨s, reached, returned, sent, (avoids_dead_of_prompt _).1 s reached⟩
  · have result : ((forwarder Sample.setup).run Sample.initial
        (firstReceive (.datagram Sample.server (Sample.payload [])) ++ sendsAgain.take 3)).bind (fun s =>
          ((forwarder Sample.setup).step s (.udp (.datagram Sample.alice (Sample.payload [3])))).map
            fun t => (prompt Sample.setup s (.udp (.datagram Sample.alice (Sample.payload [3]))),
              t.terminated, t.running)) = some (false, false, true) := by
      decide +kernel
    obtain ⟨s, -, next⟩ := Option.bind_eq_some_iff.mp result
    obtain ⟨t, moved, seen⟩ := Option.map_eq_some_iff.mp next
    simp only [Prod.mk.injEq] at seen
    obtain ⟨late, alive, running⟩ := seen
    obtain ⟨n, u, run, through⟩ := (avoids_dead_of_prompt _).2 s _ t moved late alive running
    exact ⟨s, t, n, u, moved, run, through⟩

/-- The reply loop gives up at an empty reply, and its client's next datagram is sent through
the socket that nobody reads any more. -/
theorem sent_through_dead :
    ∃ s, (forwarder Sample.setup).Reach Machine.anyStep s ∧ s.running = true ∧
      s.reply 0 = .exited ∧ .returned 0 true true true ∈ s.trace ∧
      .sendUpstream 0 Sample.alice (.upstream 0) Sample.server [3] false ∈ s.trace ∧
      ¬ s.AvoidsDead := by
  have result : ((forwarder Sample.setup).run Sample.initial
      (firstReceive (.datagram Sample.server (Sample.payload [])) ++ [.reply 0 .none] ++
        sendsAgain)).map (fun s =>
        decide (s.running = true ∧ s.reply 0 = .exited ∧ .returned 0 true true true ∈ s.trace ∧
          .sendUpstream 0 Sample.alice (.upstream 0) Sample.server [3] false ∈ s.trace)) =
      some true := by
    decide +kernel
  obtain ⟨s, run, seen⟩ := Option.map_eq_some_iff.mp result
  obtain ⟨running, exited, returned, sent⟩ := of_decide_eq_true seen
  refine ⟨s, Machine.Reach.run (.start Sample.initial_init) run, running, exited, returned, sent,
    fun avoids => ?_⟩
  exact absurd (avoids.returned 0 true true returned).1 (by decide)

end PortForwardX.Udp
