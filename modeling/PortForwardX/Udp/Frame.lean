import PortForwardX.Udp.Move

/-!
# What the threads leave alone

A cleanup, a reply loop, the `Stop` call and the environment each change a small part of
the state. Only the UDP thread makes sessions, enters them into the table and handles
clients' datagrams.
-/
namespace PortForwardX.Udp

open Net

/-- The datagram `UdpLoop` holds, from the return of `recvfrom` to the `sendto`. -/
def UdpPc.datagram : UdpPc → Option Datagram
  | .lookup d | .snapshot d | .createSocket d _ | .initActive d _ | .emplace d _
  | .startThread d _ | .readClock d _ | .storeActive d _ _ | .sendTo d _ => some d
  | _ => none

/-- The session `UdpLoop` works on. -/
def UdpPc.session : UdpPc → Option SessionId
  | .initActive _ σ | .emplace _ σ | .startThread _ σ | .readClock _ σ | .storeActive _ σ _
  | .sendTo _ σ => some σ
  | _ => none

/-- `GetOrCreateUdpSession` has found no entry and has not inserted one yet. -/
def UdpPc.creating : UdpPc → Bool
  | .snapshot _ | .createSocket _ _ | .initActive _ _ | .emplace _ _ => true
  | _ => false

/-- Events of the UDP thread outside its cleanups. -/
def Event.ofUdpLoop : Event → Bool
  | .recvListen .. | .created .. | .returned .. | .sendUpstream .. | .sendUpstreamFailed _ => true
  | _ => false

/-- Events of the reply loop of `σ`. -/
def Event.ofReply (σ : SessionId) : Event → Bool
  | .callRecv τ .. | .recvUpstream τ .. | .sendClient τ .. | .sendClientFailed τ => τ == σ
  | _ => false

variable {p : Setup} {s t : State} {c c' : Cleanup} {a : Answer} {action : Action}
  {σ : SessionId}

/-- What every thread but the UDP thread leaves alone. -/
structure Quiet (s t : State) : Prop where
  udp : t.udp = s.udp
  nextSession : t.nextSession = s.nextSession
  table : t.udpSessions.Sublist s.udpSessions
  client : ∀ τ, (t.heap τ).clientAddr = (s.heap τ).clientAddr
  target : ∀ τ, (t.heap τ).targetAddr = (s.heap τ).targetAddr
  events : t.trace.filter Event.ofUdpLoop = s.trace.filter Event.ofUdpLoop

theorem Quiet.rfl : Quiet s s :=
  ⟨.refl _, .refl _, .refl _, fun _ => .refl _, fun _ => .refl _, .refl _⟩

/-- What a cleanup leaves alone, whoever runs it. -/
structure CleanFrame (s t : State) : Prop where
  clock : t.clock = s.clock
  running : t.running = s.running
  listenSocket : t.listenSocket = s.listenSocket
  targetEndpoints : t.targetEndpoints = s.targetEndpoints
  resolver : t.resolver = s.resolver
  stop : t.stop = s.stop
  terminated : t.terminated = s.terminated
  lastActiveMs : ∀ τ, (t.heap τ).lastActiveMs = (s.heap τ).lastActiveMs
  marked : ∀ τ, (s.heap τ).markedForClose = true → (t.heap τ).markedForClose = true
  upstreamSocket : ∀ τ fd, (t.heap τ).upstreamSocket = some fd →
    (s.heap τ).upstreamSocket = some fd
  fds : ∀ fd owner, t.fds fd = some owner → s.fds fd = some owner
  reply : ∀ τ, t.reply τ = s.reply τ ∨ (s.reply τ = .exited ∧ t.reply τ = .joined)
  events : ∀ τ, t.trace.filter (Event.ofReply τ) = s.trace.filter (Event.ofReply τ)
  opened : ∀ fd owner, .opened fd owner ∈ t.trace ↔ .opened fd owner ∈ s.trace

theorem CleanFrame.rfl : CleanFrame s s :=
  ⟨.refl _, .refl _, .refl _, .refl _, .refl _, .refl _, .refl _, fun _ => .refl _,
    fun _ => id, fun _ _ => id, fun _ _ => id, fun _ => .inl (.refl _), fun _ => .refl _,
    fun _ _ => .refl _⟩

/-- What the reply loop of `σ` leaves alone. -/
structure ReplyFrame (σ : SessionId) (s t : State) : Prop where
  clock : t.clock = s.clock
  running : t.running = s.running
  fds : t.fds = s.fds
  shut : t.shut = s.shut
  listenSocket : t.listenSocket = s.listenSocket
  targetEndpoints : t.targetEndpoints = s.targetEndpoints
  udpSessions : t.udpSessions = s.udpSessions
  stop : t.stop = s.stop
  upstreamSocket : ∀ τ, (t.heap τ).upstreamSocket = (s.heap τ).upstreamSocket
  reply : ∀ τ, τ ≠ σ → t.reply τ = s.reply τ
  heap : ∀ τ, τ ≠ σ → t.heap τ = s.heap τ
  events : ∀ τ, τ ≠ σ → t.trace.filter (Event.ofReply τ) = s.trace.filter (Event.ofReply τ)
  opened : ∀ fd owner, .opened fd owner ∈ t.trace ↔ .opened fd owner ∈ s.trace

theorem State.fds_of_closeSocket {socket : SocketHandle} {fd : Nat} {owner : Owner}
    (named : (s.closeSocket socket).fds fd = some owner) : s.fds fd = some owner := by
  dsimp only [State.closeSocket] at named
  split at named
  · cases named
  · exact named

theorem CleanMove.quiet (move : CleanMove p s c t c') : Quiet s t := by
  cases move with
  | scanned | older | recent | spare | condemn | unjoinable => exact .rfl
  | idleTest | join | shutdown | close =>
    exact ⟨rfl, rfl, .refl _, fun _ => rfl, fun _ => rfl, by simp [Event.ofUdpLoop]⟩
  | evict =>
    -- the mark leaves the addresses alone, and the table shrinks
    exact ⟨rfl, rfl, List.filter_sublist, fun τ => by simp, fun τ => by simp,
      by simp [Event.ofUdpLoop]⟩
  | setInvalid => exact ⟨rfl, rfl, .refl _, fun τ => by simp, fun τ => by simp, rfl⟩

theorem CleanMove.frame (move : CleanMove p s c t c') : CleanFrame s t := by
  have same := CleanFrame.rfl (s := s)
  cases move with
  | scanned | older | recent | spare | condemn | unjoinable => exact same
  | idleTest => exact { same with events := by simp [Event.ofReply], opened := by simp }
  | shutdown => exact { same with }
  | @evict key σ =>
    refine { same with lastActiveMs := ?_, marked := ?_, upstreamSocket := ?_, events := ?_,
                       opened := by simp }
    · simp
    · intro τ marked
      by_cases own : τ = σ <;> simp [own, marked]
    · simp
    · simp [Event.ofReply]
  | close =>
    exact { same with fds := fun _ _ => State.fds_of_closeSocket,
                      events := by simp [Event.ofReply], opened := by simp }
  | @setInvalid σ =>
    refine { same with lastActiveMs := by simp, marked := by simp, upstreamSocket := ?_ }
    intro τ fd held
    by_cases own : τ = σ
    · simp [own, kInvalidSocket] at held
    · simpa [own] using held
  | @join σ pc ended =>
    refine { same with reply := fun τ => ?_ }
    by_cases own : τ = σ
    · exact .inr ⟨own ▸ ended, by simp [own]⟩
    · exact .inl (by simp [own])

theorem CleanMove.forceAll (move : CleanMove p s c t c') : c'.forceAll = c.forceAll := by
  cases move <;> rfl

/-- The UDP thread neither stops the forwarder nor moves `Stop` nor resolves anything. -/
theorem UdpMove.controls (move : UdpMove p s a t) :
    t.running = s.running ∧ t.stop = s.stop ∧ t.targetEndpoints = s.targetEndpoints := by
  cases move with
  | clean pc unfinished move =>
    exact ⟨move.frame.running, move.frame.stop, move.frame.targetEndpoints⟩
  | _ => exact ⟨rfl, rfl, rfl⟩

theorem ReplyMove.quiet (move : ReplyMove p s σ a t) : Quiet s t := by
  cases move with
  | storeActive | leaving => exact ⟨rfl, rfl, .refl _, fun τ => by simp, fun τ => by simp, rfl⟩
  | _ => exact ⟨rfl, rfl, .refl _, fun _ => rfl, fun _ => rfl, by simp [Event.ofUdpLoop]⟩

theorem ReplyMove.frame (move : ReplyMove p s σ a t) : ReplyFrame σ s t := by
  cases move with
  | storeActive | leaving =>
    exact ⟨rfl, rfl, rfl, rfl, rfl, rfl, rfl, rfl, fun τ => by simp,
      fun τ other => by simp [other], fun τ other => by simp [other], fun _ _ => rfl,
      fun _ _ => .rfl⟩
  | _ =>
    exact ⟨rfl, rfl, rfl, rfl, rfl, rfl, rfl, rfl, fun _ => rfl, fun τ other => by simp [other],
      fun _ _ => rfl, fun τ other => by simp [Event.ofReply, Ne.symm other], by simp⟩

theorem StopMove.quiet (move : StopMove p s a t) : Quiet s t := by
  cases move with
  | clean pc unfinished move =>
    have cleaned := move.quiet
    exact ⟨cleaned.udp, cleaned.nextSession, cleaned.table, cleaned.client, cleaned.target,
      cleaned.events⟩
  | _ => exact ⟨rfl, rfl, .refl _, fun _ => rfl, fun _ => rfl, rfl⟩

/-- Only the UDP thread is not quiet. -/
theorem Move.quiet (move : Move p s action t) (other : ∀ a, action ≠ .udp a) : Quiet s t := by
  cases move with
  | udp => exact absurd rfl (other _)
  | reply move => exact move.quiet
  | stop move => exact move.quiet
  | foreignOpen => exact ⟨rfl, rfl, .refl _, fun _ => rfl, fun _ => rfl, by simp [Event.ofUdpLoop]⟩
  | _ => exact ⟨rfl, rfl, .refl _, fun _ => rfl, fun _ => rfl, rfl⟩

/-- The addresses of the sessions made so far are fixed. -/
structure Fixed (s t : State) : Prop where
  next : s.nextSession ≤ t.nextSession
  client : ∀ σ < s.nextSession, (t.heap σ).clientAddr = (s.heap σ).clientAddr
  target : ∀ σ < s.nextSession, (t.heap σ).targetAddr = (s.heap σ).targetAddr

theorem Quiet.fixed (quiet : Quiet s t) : Fixed s t :=
  ⟨quiet.nextSession.ge, fun σ _ => quiet.client σ, fun σ _ => quiet.target σ⟩

theorem UdpMove.fixed (move : UdpMove p s a t) : Fixed s t := by
  cases move with
  | clean pc unfinished move => exact ⟨move.quiet.fixed.1, move.quiet.fixed.2, move.quiet.fixed.3⟩
  | socketMade pc free =>
    -- the new object is none of the old ones
    refine ⟨Nat.le_succ _, fun τ old => ?_, fun τ old => ?_⟩ <;> simp [Nat.ne_of_lt old]
  | initActive | storeActive | sentEmpty | sendFailed =>
    exact ⟨Nat.le_refl _, fun τ _ => by simp, fun τ _ => by simp⟩
  | _ => exact ⟨Nat.le_refl _, fun _ _ => rfl, fun _ _ => rfl⟩

theorem Move.fixed (move : Move p s action t) : Fixed s t := by
  by_cases own : ∃ a, action = .udp a
  · obtain ⟨a, rfl⟩ := own
    cases move with
    | udp move => exact move.fixed
  · exact (move.quiet fun a same => own ⟨a, same⟩).fixed

/-- Only the reply loop of `σ` makes events of that loop. -/
theorem Move.replyEvents (move : Move p s action t) (other : ∀ a, action ≠ .reply σ a) :
    t.trace.filter (Event.ofReply σ) = s.trace.filter (Event.ofReply σ) := by
  cases move with
  | udp move =>
    cases move with
    | clean pc unfinished move => exact move.frame.events σ
    | _ => simp [Event.ofReply]
  | @reply τ a t move =>
    refine move.frame.events σ fun same => ?_
    exact other a (same ▸ rfl)
  | stop move =>
    cases move with
    | clean pc unfinished move => exact move.frame.events σ
    | _ => rfl
  | _ => simp [Event.ofReply]

/-- An event of the reply loop of `σ` that a step adds is added by that loop. -/
theorem Move.ownEvent (move : Move p s action t) (σ : SessionId) {e : Event}
    (own : e.ofReply σ = true) (after : e ∈ t.trace) : e ∈ s.trace ∨ ∃ a, action = .reply σ a := by
  by_cases loop : ∃ a, action = .reply σ a
  · exact .inr loop
  · -- the filtered histories agree
    have seen := List.mem_filter.mpr ⟨after, own⟩
    rw [move.replyEvents fun a same => loop ⟨a, same⟩] at seen
    exact .inl (List.mem_filter.mp seen).1

/-- An event of `UdpLoop` that a step adds is added by the UDP thread. -/
theorem Move.loopEvent (move : Move p s action t) {e : Event} (own : e.ofUdpLoop = true)
    (after : e ∈ t.trace) : e ∈ s.trace ∨ ∃ a, action = .udp a := by
  by_cases loop : ∃ a, action = .udp a
  · exact .inr loop
  · have seen := List.mem_filter.mpr ⟨after, own⟩
    rw [(move.quiet fun a same => loop ⟨a, same⟩).events] at seen
    exact .inl (List.mem_filter.mp seen).1

/-! ### The history only grows -/

theorem CleanMove.history (move : CleanMove p s c t c') : s.trace <+: t.trace := by
  cases move <;> simp

/-- No step rewrites what has happened. -/
theorem Move.history (move : Move p s action t) : s.trace <+: t.trace := by
  cases move with
  | udp move =>
    cases move with
    | clean pc unfinished move => exact move.history
    | socketMade => simp [List.append_assoc]
    | _ => simp
  | reply move => cases move <;> simp
  | stop move =>
    cases move with
    | clean pc unfinished move => exact move.history
    | _ => simp
  | _ => simp

end PortForwardX.Udp
