import PortForwardX.TcpForwarder.Sockets

/-!
# Setting up a connection, and giving up

What an iteration of `AcceptLoop` leaves behind when it makes no session. It closes every
socket it has been given before it gives up, and it enters nothing before it has both. The
failures behind that point are those to start a thread, and they end the process, as does a
`Send` on a broken connection that some session makes meanwhile.
-/
namespace PortForwardX.TcpForwarder

open Transition Net

variable {p : Setup} {s t u : State} {a : Answer} {action : Action} {ref : SessionRef}

/-- `AcceptLoop` has no socket to the target yet, or gives up. -/
def AcceptPc.trying : AcceptPc → Bool
  | .snapshot _ _ | .refresh _ _ | .snapshotAgain _ _ | .makeSocket _ _ _ | .connect _ _ _ _
  | .closeCandidate _ _ _ _ | .closeClient _ => true
  | _ => false

/-- `AcceptLoop` is about to start the session. -/
def AcceptPc.starting : AcceptPc → Bool
  | .start _ => true
  | _ => false

/-- `AcceptLoop` sets up a connection. -/
def AcceptPc.settingUp : AcceptPc → Bool
  | .lock _ _ _ | .count _ _ _ | .make _ _ _ _ | .insertSession _ _ _ | .insertPeer _ _ _
  | .unlock _ | .start _ => true
  | pc => pc.trying

/-- The constructor of `std::thread` throws, in `Start` of a session or in its `Run`. -/
def threadThrows (s : State) : Action → Bool
  | .accept a => s.accept.starting && a == .started false
  | .workerThrows _ => true
  | _ => false

/-- Nothing of an attempt begun in `s` is left, and the loop goes on. -/
structure RolledBack (s u : State) : Prop where
  sessions : u.sessions = s.sessions
  sessionPeers : u.sessionPeers = s.sessionPeers
  sockets : ∀ k, u.isOpen k = true → s.isOpen k = true
  goesOn : u.accept = .test ∧ u.terminated = false

/-! ### What holds over any stretch -/

/-- Sockets are new or were open before, and the old sessions have the sockets they had. -/
structure Later (s t : State) : Prop where
  sockets : ∀ k, t.isOpen k = true → s.isOpen k = true ∨ s.nextSocket ≤ k
  nextSocket : s.nextSocket ≤ t.nextSocket
  nextRef : s.nextRef ≤ t.nextRef
  old : ∀ ref < s.nextRef, (t.heap ref).socket = (s.heap ref).socket

theorem Later.rfl : Later s s :=
  ⟨fun _ => .inl, Nat.le_refl _, Nat.le_refl _, fun _ _ => .refl _⟩

theorem Later.trans (first : Later s t) (second : Later t u) : Later s u where
  sockets k opened := by
    rcases second.sockets k opened with earlier | new
    · exact first.sockets k earlier
    · exact .inr (Nat.le_trans first.nextSocket new)
  nextSocket := Nat.le_trans first.nextSocket second.nextSocket
  nextRef := Nat.le_trans first.nextRef second.nextRef
  old ref made :=
    (second.old ref (Nat.lt_of_lt_of_le made first.nextRef)).trans (first.old ref made)

theorem Move.later (move : Move p s action t)
    (control : ∀ ref < s.nextRef, Tcp.Control (s.heap ref).state) : Later s t := by
  have old := fun ref made => (move.advances (r := ref) made).1
  cases move.holding control with
  | kept ledger _ next =>
    obtain ⟨isOpen, nextSocket, -⟩ := Conduit.Ledger.mk.inj ledger
    exact ⟨fun k => by rw [isOpen]; exact .inl, nextSocket.ge, next.ge, old⟩
  | opened ledger _ next =>
    obtain ⟨isOpen, nextSocket, -⟩ := Conduit.Ledger.mk.inj ledger
    refine ⟨fun k opened => ?_, nextSocket ▸ Nat.le_succ _, next.ge, old⟩
    by_cases new : k = s.nextSocket
    · exact .inr new.ge
    · rw [isOpen, State.ledger, Function.update_of_ne new] at opened
      exact .inl opened
  | closed k ledger _ next =>
    obtain ⟨isOpen, nextSocket, -⟩ := Conduit.Ledger.mk.inj ledger
    refine ⟨fun j opened => .inl ?_, nextSocket.ge, next.ge, old⟩
    by_cases same : j = k
    · simp [isOpen, same] at opened
    · rwa [isOpen, State.ledger, Function.update_of_ne same] at opened
  | handed client upstream ledger _ _ next =>
    obtain ⟨isOpen, nextSocket, -⟩ := Conduit.Ledger.mk.inj ledger
    exact ⟨fun k => by rw [isOpen]; exact .inl, nextSocket.ge, next ▸ Nat.le_succ _, old⟩
  | sessionClosed ref d _ _ _ ledger _ next =>
    obtain ⟨isOpen, nextSocket, -⟩ := Conduit.Ledger.mk.inj ledger
    refine ⟨fun j opened => .inl ?_, nextSocket.ge, next.ge, old⟩
    by_cases same : j = (s.heap ref).socket d
    · simp [isOpen, same] at opened
    · rwa [isOpen, State.ledger, Function.update_of_ne same] at opened

theorem later_step (reached : (forwarder p).Reach Machine.anyStep s)
    (moved : (forwarder p).step s action = some t) : Later s t :=
  (step_move moved).later fun _ made => Tcp.control_reached (session_reached reached made)

/-! ### The two maps during a set-up -/

/-- Both maps are those of `s`, and no session has been made. -/
def Untouched (s t : State) : Prop :=
  t.sessions = s.sessions ∧ t.sessionPeers = s.sessionPeers ∧ t.nextRef = s.nextRef

theorem Untouched.trans (first : Untouched s t) (second : Untouched t u) : Untouched s u :=
  ⟨second.1.trans first.1, second.2.1.trans first.2.1, second.2.2.trans first.2.2⟩

/-- As long as the accept thread is there, the others leave the maps alone. -/
theorem Move.background (move : Move p s action t) (other : ∀ a, action ≠ .accept a)
    (waiting : s.stop.pastAccept = false) : t.accept = s.accept ∧ Untouched s t := by
  cases move with
  | accept => exact absurd rfl (other _)
  | stop move =>
    cases move with
    | clearSessions pc | clearPeers pc => simp [pc, StopPc.pastAccept] at waiting
    | join _ moved | destructor _ _ moved =>
      obtain ⟨heap, joins, rfl⟩ := State.join_frame moved
      exact ⟨rfl, rfl, rfl, rfl⟩
    | _ => exact ⟨rfl, rfl, rfl, rfl⟩
  | _ => exact ⟨rfl, rfl, rfl, rfl⟩

/-- A step of the set-up that ends without a session has left the maps alone. -/
theorem AcceptMove.givesUp (move : AcceptMove p s a t) (inside : s.accept.settingUp = true)
    (unstarted : s.accept.starting = false)
    (after : t.accept.trying = true ∨ t.accept = .test) :
    s.accept.trying = true ∧ Untouched s t := by
  cases move with
  | snapshotEmpty pc | snapshot pc | refreshed pc | notRefreshed pc | noTarget pc
  | snapshotAgain pc | unconnected pc | made pc | notMade pc | notConnected pc
  | closeCandidate pc | closeClient pc => exact ⟨by rw [pc]; rfl, rfl, rfl, rfl⟩
  | connected | lock | count | make | insertSession | insertPeer | unlock =>
    simp [AcceptPc.trying] at after
  | started pc | throws pc => simp [pc, AcceptPc.starting] at unstarted
  | test pc | clean pc | cleaned pc | accepted pc | notAccepted pc | retest pc =>
    simp [pc, AcceptPc.settingUp, AcceptPc.trying] at inside

/-- A stretch of a set-up is a later part of the run, and while there is no socket to the
target the maps are as they were. -/
theorem untouched_during (reached : (forwarder p).Reach Machine.anyStep s)
    (stretch : (forwarder p).During (fun t => t.accept.settingUp = true) s t) :
    Later s t ∧ (t.accept.trying = true → Untouched s t) := by
  induction stretch with
  | here => exact ⟨.rfl, fun _ => ⟨rfl, rfl, rfl⟩⟩
  | @next t u action before inside moved ih =>
    have here := reached.during before
    refine ⟨ih.1.trans (later_step here moved), fun trying => ?_⟩
    have move := step_move moved
    by_cases own : ∃ a, action = .accept a
    · obtain ⟨a, rfl⟩ := own
      cases move with
      | accept move =>
        have unstarted : t.accept.starting = false := by
          by_contra starting
          cases move <;> simp_all [AcceptPc.starting, AcceptPc.trying]
        obtain ⟨earlier, untouched⟩ := move.givesUp inside unstarted (.inl trying)
        exact (ih.2 earlier).trans untouched
    · have waiting : t.stop.pastAccept = false := by
        by_contra past
        rw [(locks_reached here).exited (by simpa using past)] at inside
        cases inside
      obtain ⟨same, untouched⟩ := move.background (fun a same => own ⟨a, same⟩) waiting
      exact (ih.2 (same ▸ trying)).trans untouched

/-! ### When a failure leaves nothing behind -/

/-- An ended process takes no step. -/
theorem step_alive (moved : (forwarder p).step s action = some t) : s.terminated = false := by
  change step p s action = some t at moved
  unfold step at moved
  split at moved
  · cases moved
  next alive => simpa using alive

theorem AcceptMove.terminates (move : AcceptMove p s a t) (alive : s.terminated = false) :
    t.terminated = true ↔ threadThrows s (.accept a) = true := by
  cases move with
  | clean pc unfinished move =>
    simp [threadThrows, pc, AcceptPc.starting, move.frame.2.2.2.2, alive]
  | throws pc => simp [threadThrows, pc, AcceptPc.starting]
  | started => simp [threadThrows, alive]
  | test pc | cleaned pc | accepted pc | notAccepted pc | retest pc | snapshotEmpty pc
  | snapshot pc | refreshed pc | notRefreshed pc | noTarget pc | snapshotAgain pc
  | unconnected pc | made pc | notMade pc | connected pc | notConnected pc | closeCandidate pc
  | closeClient pc | lock pc | count pc | make pc | insertSession pc | insertPeer pc | unlock pc =>
    simp [threadThrows, pc, AcceptPc.starting, alive]

/-- The process ends when a thread cannot be started or a `Send` raises the signal, and in no
other step. -/
theorem Move.terminates (move : Move p s action t) (alive : s.terminated = false) :
    t.terminated = true ↔ threadThrows s action = true ∨ signalled p s action = true := by
  cases move with
  | accept move => simpa [signalled] using move.terminates alive
  | workerThrows => simp [threadThrows]
  | signal _ kills => simp [kills]
  | session _ _ _ _ quiet => simp [threadThrows, quiet, State.advance, alive]
  | stop move =>
    have same : t.terminated = s.terminated := by
      cases move with
      | join _ moved | destructor _ _ moved =>
        obtain ⟨heap, joins, rfl⟩ := State.join_frame moved
        rfl
      | _ => rfl
    simp [threadThrows, signalled, same, alive]
  | _ => simp [threadThrows, signalled, alive]

/-- A failure to set up a connection leaves nothing behind if and only if it is neither a
failure to start a thread nor the end of the process by a signal. -/
theorem rolledBack_iff {peer : SockAddr} {s₁ : State}
    (reached : (forwarder p).Reach Machine.anyStep s) (pc : s.accept = .callAccept)
    (accepted : (forwarder p).step s (.accept (.accepted peer)) = some s₁)
    (stretch : (forwarder p).During (fun t => t.accept.settingUp = true) s₁ t)
    (inside : t.accept.settingUp = true) (moved : (forwarder p).step t action = some u)
    (failed : (t.accept.starting = false ∧ u.accept = .test) ∨ u.terminated = true) :
    RolledBack s u ↔ threadThrows t action = false ∧ signalled p t action = false := by
  have before : (forwarder p).Reach Machine.anyStep s₁ := .next reached trivial accepted
  have here := before.during stretch
  have move := step_move moved
  have terminates := move.terminates (step_alive moved)
  rw [← Bool.not_eq_true, ← Bool.not_eq_true (signalled p t action), ← not_or, ← terminates,
    Bool.not_eq_true]
  constructor
  · exact fun back => back.goesOn.2
  · intro goesOn
    obtain ⟨unstarted, test⟩ := failed.resolve_right (by simp [goesOn])
    obtain ⟨later, tables⟩ := untouched_during before stretch
    obtain ⟨trying, untouched⟩ : t.accept.trying = true ∧ Untouched t u := by
      by_cases own : ∃ a, action = .accept a
      · obtain ⟨a, rfl⟩ := own
        cases move with
        | accept move => exact move.givesUp inside unstarted (.inr test)
      · -- nobody else moves the accept thread
        have waiting : t.stop.pastAccept = false := by
          by_contra past
          rw [(locks_reached here).exited (by simpa using past)] at inside
          cases inside
        rw [← (move.background (fun a same => own ⟨a, same⟩) waiting).1, test] at inside
        cases inside
    have since := ((later_step reached accepted).trans later).trans (later_step here moved)
    obtain ⟨sessions, peers, made⟩ := (tables trying).trans untouched
    have first : Untouched s s₁ := by
      cases step_move accepted with
      | accept move =>
        cases move with
        | accepted => exact ⟨rfl, rfl, rfl⟩
        | _ => simp_all
    refine ⟨sessions.trans first.1, peers.trans first.2.1, fun k opened => ?_, test, goesOn⟩
    refine (since.sockets k opened).resolve_right fun new => ?_
    -- what is open now belongs to a session, and all of them are older
    rcases (owned_reached (here.next trivial moved)).covered k opened with
      member | ⟨ref, later, d, same⟩
    · simp [test, AcceptPc.sockets] at member
    · have old : ref < s.nextRef := by
        rw [made, first.2.2] at later
        exact later
      rw [since.old ref old] at same
      exact Nat.not_lt.mpr new (same ▸ (owned_reached reached).made ref old d)

end PortForwardX.TcpForwarder
