import PortForwardX.Udp.Threads

/-!
# Descriptor numbers as identities

In a run in which the system gives out no descriptor number twice, a number names one
socket for good: whoever holds the number of a session's upstream socket, or of the listen
socket, can reach no other socket with it.
-/
namespace PortForwardX.Udp

open Transition

/-- The number a step asks the system to give out. -/
def Action.opens : Action → Option Nat
  | .udp (.socket fd) | .foreignOpen fd => some fd
  | _ => none

/-- The number was given to a socket of `owner` at some time. -/
def State.Granted (s : State) (fd : Nat) (owner : Owner) : Prop := .opened fd owner ∈ s.trace

def Event.opens (fd : Nat) : Event → Bool
  | .opened n _ => n == fd
  | _ => false

/-- The number a step opens has not been given out before. -/
def fresh (s : State) (action : Action) : Bool :=
  match action.opens with
  | some fd => !s.trace.any (Event.opens fd)
  | none => true

/-- What `UdpLoop` holds of a descriptor belongs to the listen socket. -/
def UdpPc.Named (s : State) : UdpPc → Prop
  | .callRecv socket => ∀ fd, socket = some fd → s.Granted fd .listen
  | .inRecv socket => ∀ owner, socket = some owner → owner = .listen
  | _ => True

/-- What the reply loop of `σ` holds of a descriptor belongs to its upstream socket when
it receives and to the listen socket when it sends. -/
def ReplyPc.Named (s : State) (σ : SessionId) : ReplyPc → Prop
  | .callRecv socket => ∀ fd, socket = some fd → s.Granted fd (.upstream σ)
  | .inRecv socket => ∀ owner, socket = some owner → owner = .upstream σ
  | .callSend socket _ _ => ∀ fd, socket = some fd → s.Granted fd .listen
  | _ => True

/-- Every number in use names the socket it was given to. -/
structure Named (s : State) : Prop where
  unique : ∀ fd owner owner', s.Granted fd owner → s.Granted fd owner' → owner = owner'
  fds : ∀ fd owner, s.fds fd = some owner → s.Granted fd owner
  listen : ∀ fd, s.listenSocket = some fd → s.Granted fd .listen
  upstream : ∀ σ fd, (s.heap σ).upstreamSocket = some fd → s.Granted fd (.upstream σ)
  udp : s.udp.Named s
  reply : ∀ σ, (s.reply σ).Named s σ

variable {p : Setup} {s t : State} {c c' : Cleanup} {a : Answer} {action : Action}
  {σ : SessionId} {fd : Nat} {owner : Owner}

theorem granted_started {clock : UInt64} {endpoints : List Net.ResolvedEndpoint} {fd' : Nat} :
    (started fd clock endpoints).Granted fd' owner ↔ fd' = fd ∧ owner = .listen := by
  simp [State.Granted, started]

theorem not_granted_of_fresh (unused : fresh s action = true) (opens : action.opens = some fd) :
    ¬ s.Granted fd owner := by
  intro granted
  simp only [fresh, opens, Bool.not_eq_true', List.any_eq_false] at unused
  exact unused _ granted (by simp [Event.opens])

/-- A held number resolves to the socket it was given to or to none. -/
theorem Named.resolve (named : Named s) {socket : SocketHandle} {owner' : Owner}
    (held : ∀ fd, socket = some fd → s.Granted fd owner) (open_ : s.resolve socket = some owner') :
    owner' = owner := by
  cases socket with
  | none => cases open_
  | some fd => exact named.unique fd _ _ (named.fds fd _ open_) (held fd rfl)

theorem UdpPc.Named.mono {pc : UdpPc}
    (granted : ∀ fd owner, s.Granted fd owner → t.Granted fd owner) (named : pc.Named s) : pc.Named t := by
  cases pc with
  | callRecv => exact fun fd held => granted _ _ (named fd held)
  | _ => exact named

theorem ReplyPc.Named.mono {pc : ReplyPc}
    (granted : ∀ fd owner, s.Granted fd owner → t.Granted fd owner) (named : pc.Named s σ) :
    pc.Named t σ := by
  cases pc with
  | callRecv => exact fun fd held => granted _ _ (named fd held)
  | callSend => exact fun fd held => granted _ _ (named fd held)
  | _ => exact named

/-- The rule for a step that opens nothing: whatever is held after it was granted before. -/
theorem Named.keep (before : Named s)
    (granted : ∀ fd owner, t.Granted fd owner ↔ s.Granted fd owner)
    (fds : ∀ fd owner, t.fds fd = some owner → s.Granted fd owner)
    (listen : ∀ fd, t.listenSocket = some fd → s.Granted fd .listen)
    (upstream : ∀ σ fd, (t.heap σ).upstreamSocket = some fd → s.Granted fd (.upstream σ))
    (udp : t.udp.Named s) (reply : ∀ σ, (t.reply σ).Named s σ) : Named t where
  unique fd o o' one two :=
    before.unique fd o o' ((granted fd o).mp one) ((granted fd o').mp two)
  fds fd o named := (granted fd o).mpr (fds fd o named)
  listen fd held := (granted fd _).mpr (listen fd held)
  upstream σ fd held := (granted fd _).mpr (upstream σ fd held)
  udp := udp.mono fun fd o => (granted fd o).mpr
  reply σ := (reply σ).mono fun fd o => (granted fd o).mpr

/-- The rule for a step that does nothing but open a number given out for the first time. -/
theorem Named.openFd (before : Named s) (unused : ∀ owner, ¬ s.Granted fd owner) :
    Named (s.openFd fd owner) := by
  have granted : ∀ n o, (s.openFd fd owner).Granted n o ↔ s.Granted n o ∨ (n = fd ∧ o = owner) := by
    simp [State.Granted]
  have kept : ∀ n o, s.Granted n o → (s.openFd fd owner).Granted n o :=
    fun n o old => (granted n o).mpr (.inl old)
  refine ⟨?_, ?_, fun n held => kept _ _ (before.listen n held),
    fun σ n held => kept _ _ (before.upstream σ n held), before.udp.mono kept,
    fun σ => (before.reply σ).mono kept⟩
  · intro n o o' one two
    rcases (granted n o).mp one with old | ⟨rfl, rfl⟩
    · rcases (granted n o').mp two with old' | ⟨rfl, rfl⟩
      · exact before.unique n o o' old old'
      · exact absurd old (unused o)
    · rcases (granted _ o').mp two with old' | ⟨-, rfl⟩
      · exact absurd old' (unused o')
      · rfl
  · intro n o named
    by_cases same : n = fd
    · subst same
      refine (granted _ o).mpr (.inr ⟨rfl, ?_⟩)
      simpa [eq_comm] using named
    · exact kept n o (before.fds n o (by simpa [same] using named))

theorem CleanMove.named (move : CleanMove p s c t c') (before : Named s) : Named t := by
  have frame := move.frame
  refine before.keep frame.opened (fun n o named => before.fds n o (frame.fds n o named))
    (fun n held => before.listen n (frame.listenSocket ▸ held))
    (fun τ n held => before.upstream τ n (frame.upstreamSocket τ n held))
    (move.quiet.udp ▸ before.udp) fun τ => ?_
  rcases frame.reply τ with same | ⟨-, joined⟩
  · exact same ▸ before.reply τ
  · rw [joined]
    trivial

theorem UdpMove.named (move : UdpMove p s a t) (before : Named s)
    (unused : fresh s (.udp a) = true) : Named t := by
  have udp := before.udp
  cases move with
  | clean pc unfinished move =>
    have cleaned := move.named before
    exact { cleaned with udp := trivial }
  | readListen pc => exact { before with udp := before.listen }
  | callRecv pc =>
    rw [pc] at udp
    exact { before with udp := fun owner open_ => before.resolve udp open_ }
  | @socketMade fd d endpoint rest pc free =>
    have made : Named (s.openFd fd (.upstream s.nextSession)) :=
      before.openFd fun owner => not_granted_of_fresh unused rfl
    refine made.keep (fun n o => by simp [State.Granted]) made.fds made.listen (fun τ n held => ?_)
      trivial made.reply
    by_cases new : τ = s.nextSession
    · subst new
      obtain rfl : fd = n := by simpa using held
      simp [State.Granted]
    · exact made.upstream τ n (by simpa [new] using held)
  | emplaced pc found =>
    exact before.keep (fun n o => by simp [State.Granted])
      (fun n o named => before.fds n o (State.fds_of_closeSocket named)) before.listen
      before.upstream trivial before.reply
  | @startThread d σ pc =>
    refine before.keep (fun n o => by simp [State.Granted]) before.fds before.listen
      before.upstream trivial fun τ => ?_
    by_cases own : τ = σ
    · simp [own, ReplyPc.Named]
    · simpa [own] using before.reply τ
  | test pc | retest pc | cleaned pc =>
    refine before.keep (fun _ _ => .rfl) before.fds before.listen before.upstream ?_ before.reply
    dsimp only [State.goto]
    split <;> trivial
  | noThread pc => exact { before with }
  | _ =>
    exact before.keep (fun n o => by simp [State.Granted]) before.fds before.listen
      (fun τ n held => before.upstream τ n (by simpa using held)) trivial before.reply

theorem ReplyMove.named (move : ReplyMove p s σ a t) (before : Named s) : Named t := by
  have frame := move.frame
  have own : (t.reply σ).Named s σ := by
    have reply := before.reply σ
    cases move with
    | readSocket pc => simpa [ReplyPc.Named] using before.upstream σ
    | callInvalid pc => simp [ReplyPc.Named]
    | callRecv pc =>
      rw [pc] at reply
      simpa [ReplyPc.Named] using fun owner open_ => before.unique _ _ _ (before.fds _ owner open_)
        (reply _ rfl)
    | readListen pc => simpa [ReplyPc.Named] using before.listen
    | testRunning | testMarked | recvFailed | sent =>
      simp only [State.gotoReply, State.log, Function.update_self]
      split <;> trivial
    | _ => simp [ReplyPc.Named]
  refine before.keep frame.opened (frame.fds ▸ before.fds) (frame.listenSocket ▸ before.listen)
    (fun τ n held => before.upstream τ n (frame.upstreamSocket τ ▸ held))
    (move.quiet.udp ▸ before.udp) fun τ => ?_
  by_cases same : τ = σ
  · exact same ▸ own
  · rw [frame.reply τ same]
    exact before.reply τ

theorem StopMove.named (move : StopMove p s a t) (before : Named s) : Named t := by
  cases move with
  | clean pc unfinished move =>
    have cleaned := move.named before
    exact { cleaned with }
  | closeListen pc =>
    exact before.keep (fun _ _ => .rfl)
      (fun n o named => before.fds n o (State.fds_of_closeSocket named)) before.listen
      before.upstream before.udp before.reply
  | setListenInvalid pc =>
    exact { before with listen := fun n held => by simp [kInvalidSocket] at held }
  | _ => exact { before with }

theorem Move.named (move : Move p s action t) (before : Named s)
    (unused : fresh s action = true) : Named t := by
  cases move with
  | udp move => exact move.named before unused
  | reply move => exact move.named before
  | stop move => exact move.named before
  | foreignOpen free => exact before.openFd fun owner => not_granted_of_fresh unused rfl
  | foreignClose foreign =>
    exact before.keep (fun _ _ => .rfl)
      (fun n o named => before.fds n o (State.fds_of_closeSocket named)) before.listen
      before.upstream before.udp before.reply
  | _ => exact { before with }

theorem named_started {clock : UInt64} {endpoints : List Net.ResolvedEndpoint} :
    Named (started fd clock endpoints) where
  unique n o o' one two := by simp_all [granted_started]
  fds n o named := by
    by_cases same : n = fd
    · subst same
      exact granted_started.mpr ⟨rfl, by simpa [started, eq_comm] using named⟩
    · simp [started, same] at named
  listen n held := granted_started.mpr ⟨(Option.some.inj held).symm, rfl⟩
  upstream σ n held := by simp [started, kInvalidSocket] at held
  udp := trivial
  reply _ := trivial

theorem named_reached {ok : State → Action → Prop}
    (single : ∀ s action, ok s action → fresh s action = true)
    (reached : (forwarder p).Reach ok s) : Named s := by
  induction reached with
  | start init =>
    obtain ⟨fd, clock, outcome, endpoints, -, rfl⟩ := init
    exact named_started
  | next _ admitted step ih => exact (step_move step).named ih (single _ _ admitted)

end PortForwardX.Udp
