import PortForwardX.TcpForwarder.Reaping
import PortForwardX.Conduit.Ledger

/-!
# Who a socket belongs to

Every socket that `accept` or `socket` has returned and that is still open belongs to the
connection `AcceptLoop` is setting up or to one side of one session.
-/
namespace PortForwardX.TcpForwarder

open Transition Net Conduit

variable {p : Setup} {s t : State} {c c' : Cleanup} {a : Answer} {action : Action}
  {ref r : SessionRef}

/-- The sockets of the connection that is being set up. -/
def AcceptPc.sockets : AcceptPc → List SocketId
  | .snapshot client _ | .refresh client _ | .snapshotAgain client _ | .makeSocket client _ _
  | .closeClient client => [client]
  | .connect client _ candidate _ | .closeCandidate client _ candidate _ => [client, candidate]
  | .lock client upstream _ | .count client upstream _ | .make client upstream _ _ =>
    [client, upstream]
  | _ => []

/-- The sockets of the forwarder as numbered resources. -/
def State.ledger (s : State) : Ledger := ⟨s.isOpen, s.nextSocket, s.closes⟩

/-- A session's step closes nothing or one side that was open. -/
theorem closedSides_step {u v : Tcp.State} {b : Tcp.Action} (control : Tcp.Control u)
    (moved : Tcp.step u b = some v) :
    (closedSides u v = [] ∧ ∀ d, (v.socket d).isOpen = (u.socket d).isOpen) ∨
      ∃ d, closedSides u v = [d] ∧ (u.socket d).isOpen = true ∧ (v.socket d).isOpen = false ∧
        ∀ e ≠ d, (v.socket e).isOpen = (u.socket e).isOpen := by
  by_cases own : b = .worker
  · subst own
    rcases (Tcp.workerStep_move moved).calls with ⟨trace, same⟩ | ⟨d, -, pc, trace, closed, others⟩
    · exact .inl ⟨by simp [closedSides, trace], same⟩
    · refine .inr ⟨d, by simp [closedSides, trace, closes], ?_, closed, others⟩
      rw [control.isOpen, pc]
      cases d <;> rfl
  · refine .inl ⟨?_, fun d => (Tcp.step_handles moved own d).1⟩
    cases b with
    | relay d result =>
      obtain ⟨call, trace, other⟩ := (Tcp.relayStep_move moved).calls
      have keeps : closes call = none := by
        cases call with
        | close side => exact absurd rfl (other side)
        | _ => rfl
      simp [closedSides, trace, keeps]
    | worker => exact absurd rfl own
    | stop =>
      rcases (Tcp.stopStep_move moved).calls with trace | ⟨d, -, -, trace⟩ <;>
        simp [closedSides, trace, closes]
    | callStop => rcases Tcp.callStop_move moved with ⟨-, rfl⟩ | ⟨-, rfl⟩ <;> simp [closedSides]
    | arrive side bytes =>
      obtain ⟨-, rfl⟩ := Tcp.arrive_move moved
      simp [closedSides]
    | finishStream side | peerReset side =>
      cases moved
      simp [closedSides]

/-! ### What a step does to sockets -/

/-- Both sides of a session are the sockets they were, and as open as they were. -/
def ForwardSession.SameSockets (x y : ForwardSession) : Prop :=
  y.socket = x.socket ∧ ∀ d, (y.state.socket d).isOpen = (x.state.socket d).isOpen

theorem ForwardSession.SameSockets.rfl {x : ForwardSession} : x.SameSockets x :=
  ⟨.refl _, fun _ => .refl _⟩

/-- What a step does to sockets and to those who hold them. -/
inductive Holding (s t : State) : Prop
  | kept (ledger : t.ledger = s.ledger) (sockets : t.accept.sockets = s.accept.sockets)
      (next : t.nextRef = s.nextRef) (sessions : ∀ r, (s.heap r).SameSockets (t.heap r))
  | opened (ledger : t.ledger = s.ledger.give)
      (sockets : t.accept.sockets = s.accept.sockets ++ [s.nextSocket])
      (next : t.nextRef = s.nextRef) (sessions : t.heap = s.heap)
  | closed (k : SocketId) (ledger : t.ledger = s.ledger.close k)
      (sockets : s.accept.sockets = t.accept.sockets ++ [k]) (next : t.nextRef = s.nextRef)
      (sessions : t.heap = s.heap)
  | handed (client upstream : SocketId) (ledger : t.ledger = s.ledger)
      (before : s.accept.sockets = [client, upstream]) (after : t.accept.sockets = [])
      (next : t.nextRef = s.nextRef + 1)
      (sessions : t.heap = Function.update s.heap s.nextRef (.new client upstream))
  | sessionClosed (ref : SessionRef) (d : Tcp.Side) (made : ref < s.nextRef)
      (was : ((s.heap ref).state.socket d).isOpen = true)
      (now : ((t.heap ref).state.socket d).isOpen = false)
      (ledger : t.ledger = s.ledger.close ((s.heap ref).socket d))
      (sockets : t.accept.sockets = s.accept.sockets) (next : t.nextRef = s.nextRef)
      (same : ∀ r, (t.heap r).socket = (s.heap r).socket)
      (others : ∀ r e, r ≠ ref ∨ e ≠ d →
        ((t.heap r).state.socket e).isOpen = ((s.heap r).state.socket e).isOpen)

theorem ForwardSession.SameSockets.update (heap : SessionRef → ForwardSession) (ref : SessionRef)
    {x : ForwardSession} (same : (heap ref).SameSockets x) (r : SessionRef) :
    (heap r).SameSockets (Function.update heap ref x r) := by
  by_cases own : r = ref
  · subst own
    rwa [Function.update_self]
  · rw [Function.update_of_ne own]
    exact .rfl

theorem State.callStop_sameSockets (r : SessionRef) :
    (s.heap r).SameSockets ((s.callStop ref).heap r) := by
  refine ForwardSession.SameSockets.update _ _ ?_ r
  exact ⟨rfl, fun d => by rw [(Tcp.callStopStep_frame _).1]⟩

theorem State.join_sameSockets (moved : s.join ref = some t) (r : SessionRef) :
    (s.heap r).SameSockets (t.heap r) := by
  rcases State.join_cases moved with ⟨-, -, rfl⟩ | ⟨-, rfl⟩
  · refine ForwardSession.SameSockets.update _ _ ?_ r
    exact .rfl
  · exact .rfl

/-- A cleanup neither opens nor closes a socket. -/
theorem CleanupMove.holding (move : CleanupMove s c a t c') :
    t.ledger = s.ledger ∧ ∀ r, (s.heap r).SameSockets (t.heap r) := by
  cases move with
  | join _ moved | destructor _ _ moved =>
    have sessions := State.join_sameSockets moved
    obtain ⟨heap, joins, rfl⟩ := State.join_frame moved
    exact ⟨rfl, sessions⟩
  | destroy => exact ⟨rfl, State.callStop_sameSockets⟩
  | _ => exact ⟨rfl, fun _ => .rfl⟩

theorem AcceptMove.holding (move : AcceptMove p s a t) : Holding s t := by
  cases move with
  | clean pc unfinished move =>
    obtain ⟨ledger, sessions⟩ := move.holding
    exact .kept ledger (by rw [pc]; rfl) move.frame.2.2.2.1 sessions
  | accepted pc | made pc => exact .opened rfl (by rw [pc]; rfl) rfl rfl
  | closeCandidate pc | closeClient pc => exact .closed _ rfl (by rw [pc]; rfl) rfl rfl
  | make pc => exact .handed _ _ rfl (by rw [pc]; rfl) rfl rfl rfl
  | started pc =>
    refine .kept rfl (by rw [pc]; rfl) rfl fun r => ?_
    refine ForwardSession.SameSockets.update _ _ ?_ r
    exact .rfl
  | cleaned pc | retest pc =>
    refine .kept rfl ?_ rfl fun _ => .rfl
    rw [pc]
    dsimp only [State.goto]
    split <;> rfl
  | throws => exact .kept rfl rfl rfl fun _ => .rfl
  | test pc | notAccepted pc | snapshotEmpty pc | snapshot pc | refreshed pc | notRefreshed pc
  | noTarget pc | snapshotAgain pc | unconnected pc | notMade pc | connected pc | notConnected pc
  | lock pc | count pc | insertSession pc | insertPeer pc | unlock pc =>
    exact .kept rfl (by rw [pc]; rfl) rfl fun _ => .rfl

theorem StopMove.holding (move : StopMove s a t) : Holding s t := by
  cases move with
  | join _ moved | destructor _ _ moved =>
    have sessions := State.join_sameSockets moved
    obtain ⟨heap, joins, rfl⟩ := State.join_frame moved
    exact .kept rfl rfl rfl sessions
  | callStop | destroy => exact .kept rfl rfl rfl State.callStop_sameSockets
  | _ => exact .kept rfl rfl rfl fun _ => .rfl

theorem Move.holding (move : Move p s action t)
    (control : ∀ ref < s.nextRef, Tcp.Control (s.heap ref).state) : Holding s t := by
  cases move with
  | accept move => exact move.holding
  | stop move => exact move.holding
  | @session ref b t made _ _ moved =>
    rcases closedSides_step (control ref made) moved with
      ⟨none_, same⟩ | ⟨d, one, was, now, others⟩
    · refine .kept (by simp [State.ledger, State.advance, none_]) rfl rfl fun r => ?_
      refine ForwardSession.SameSockets.update _ _ ?_ r
      exact ⟨rfl, same⟩
    · refine .sessionClosed ref d made was (by simpa [State.advance] using now) ?_ rfl rfl
        (fun r => ?_) fun r e other => ?_
      · simp only [State.ledger, State.advance, one, Ledger.close, List.map_cons, List.map_nil,
          Ledger.mk.injEq, and_self, and_true]
        funext k
        by_cases own : k = (s.heap ref).socket d <;> simp [own]
      · by_cases own : r = ref <;> simp [State.advance, own]
      · by_cases own : r = ref
        · subst own
          simpa [State.advance] using others e (other.resolve_left (by simp))
        · simp [State.advance, own]
  | _ => exact .kept rfl rfl rfl fun _ => .rfl

/-! ### The invariant -/

/-- Every open socket has one holder, and a session's sockets are as open as the session
says. -/
structure Owned (s : State) : Prop where
  balanced : s.ledger.Balanced
  setup : s.accept.sockets.Nodup
  settingUp : ∀ k ∈ s.accept.sockets, s.isOpen k = true
  made : ∀ ref < s.nextRef, ∀ d, (s.heap ref).socket d < s.nextSocket
  session : ∀ ref < s.nextRef, ∀ d,
    s.isOpen ((s.heap ref).socket d) = ((s.heap ref).state.socket d).isOpen
  apart : ∀ ref < s.nextRef, ∀ d, (s.heap ref).socket d ∉ s.accept.sockets
  injective : ∀ ref < s.nextRef, ∀ r < s.nextRef, ∀ d e,
    (s.heap ref).socket d = (s.heap r).socket e → ref = r ∧ d = e
  covered : ∀ k, s.isOpen k = true → k ∈ s.accept.sockets ∨
    ∃ ref < s.nextRef, ∃ d, (s.heap ref).socket d = k

/-- A socket that is not open yet is new to everybody. -/
theorem Owned.fresh (owned : Owned s) : s.isOpen s.nextSocket = false ∧
    s.nextSocket ∉ s.accept.sockets ∧
    ∀ ref < s.nextRef, ∀ d, (s.heap ref).socket d ≠ s.nextSocket := by
  have closed : s.isOpen s.nextSocket = false := by
    by_contra opened
    exact Nat.lt_irrefl _ (owned.balanced.given s.nextSocket (by simpa [State.ledger] using opened))
  refine ⟨closed, fun member => ?_, fun ref old d => Nat.ne_of_lt (owned.made ref old d)⟩
  rw [owned.settingUp _ member] at closed
  cases closed

theorem Holding.owned (holding : Holding s t) (before : Owned s) : Owned t := by
  obtain ⟨balanced, setup, settingUp, made, session, apart, injective, covered⟩ := id before
  cases holding with
  | kept ledger sockets next sessions =>
    obtain ⟨isOpen, nextSocket, -⟩ := Ledger.mk.inj ledger
    refine ⟨ledger ▸ balanced, sockets ▸ setup, ?_, ?_, ?_, ?_, ?_, ?_⟩
    · rw [sockets, isOpen]
      exact settingUp
    · intro r old d
      rw [(sessions r).1, nextSocket]
      exact made r (next ▸ old) d
    · intro r old d
      rw [(sessions r).1, isOpen, (sessions r).2]
      exact session r (next ▸ old) d
    · intro r old d
      rw [(sessions r).1, sockets]
      exact apart r (next ▸ old) d
    · intro r old r' old' d e same
      rw [(sessions r).1, (sessions r').1] at same
      exact injective r (next ▸ old) r' (next ▸ old') d e same
    · intro k opened
      rw [sockets, next]
      simpa only [(sessions _).1] using covered k (isOpen ▸ opened)
  | opened ledger sockets next sessions =>
    obtain ⟨isOpen, nextSocket, -⟩ := Ledger.mk.inj ledger
    obtain ⟨closed, new, other⟩ := before.fresh
    have still : ∀ k, k ≠ s.nextSocket → t.isOpen k = s.isOpen k := by
      intro k old
      rw [isOpen]
      exact Function.update_of_ne old _ _
    have now : t.isOpen s.nextSocket = true := by
      rw [isOpen]
      exact Function.update_self _ _ _
    refine ⟨ledger ▸ balanced.give, ?_, ?_, ?_, ?_, ?_, ?_, ?_⟩
    · rw [sockets]
      exact List.Nodup.append setup (List.nodup_singleton _) (by simpa using new)
    · intro k member
      rw [sockets] at member
      by_cases same : k = s.nextSocket
      · rwa [same]
      · rw [still k same]
        exact settingUp k ((List.mem_append.mp member).resolve_right (by simpa using same))
    · intro r old d
      rw [sessions, nextSocket]
      exact Nat.lt_succ_of_lt (made r (next ▸ old) d)
    · intro r old d
      rw [sessions, still _ (other r (next ▸ old) d)]
      exact session r (next ▸ old) d
    · intro r old d
      rw [sessions, sockets]
      exact fun member => (List.mem_append.mp member).elim (apart r (next ▸ old) d)
        (by simpa using other r (next ▸ old) d)
    · rw [sessions, next]
      exact injective
    · intro k opened
      rw [sockets, sessions, next]
      by_cases same : k = s.nextSocket
      · exact .inl (by simp [same])
      · exact (covered k (still k same ▸ opened)).imp_left (List.mem_append_left _)
  | closed k ledger sockets next sessions =>
    obtain ⟨isOpen, nextSocket, -⟩ := Ledger.mk.inj ledger
    have held : k ∈ s.accept.sockets := by simp [sockets]
    have still : ∀ j, j ≠ k → t.isOpen j = s.isOpen j := by
      intro j other
      rw [isOpen]
      exact Function.update_of_ne other _ _
    have gone : t.isOpen k = false := by
      rw [isOpen]
      exact Function.update_self _ _ _
    have foreign : ∀ r < s.nextRef, ∀ d, (s.heap r).socket d ≠ k :=
      fun r old d same => apart r old d (same ▸ held)
    have absent : k ∉ t.accept.sockets := by
      rw [sockets] at setup
      exact fun member => (List.nodup_append.mp setup).2.2 k member k (by simp) rfl
    have fewer : ∀ j ∈ t.accept.sockets, j ∈ s.accept.sockets := by
      intro j member
      rw [sockets]
      exact List.mem_append_left _ member
    refine ⟨ledger ▸ balanced.close (settingUp k held), ?_, ?_, ?_, ?_, ?_, ?_, ?_⟩
    · rw [sockets] at setup
      exact (List.nodup_append.mp setup).1
    · intro j member
      rw [still j fun same => absent (same ▸ member)]
      exact settingUp j (fewer j member)
    · rw [sessions, next, nextSocket]
      exact made
    · intro r old d
      rw [sessions, still _ (foreign r (next ▸ old) d)]
      exact session r (next ▸ old) d
    · intro r old d member
      rw [sessions] at member
      exact apart r (next ▸ old) d (fewer _ member)
    · rw [sessions, next]
      exact injective
    · intro j opened
      have other : j ≠ k := by
        rintro rfl
        rw [gone] at opened
        cases opened
      rw [sessions, next]
      refine (covered j (still j other ▸ opened)).imp_left fun member => ?_
      rw [sockets] at member
      exact (List.mem_append.mp member).resolve_right (by simpa using other)
  | handed client upstream ledger held after next sessions =>
    obtain ⟨isOpen, nextSocket, -⟩ := Ledger.mk.inj ledger
    rw [held] at setup settingUp
    have distinct : client ≠ upstream := by simpa using setup
    have new : (t.heap s.nextRef) = .new client upstream := by rw [sessions, Function.update_self]
    have old : ∀ r < s.nextRef, t.heap r = s.heap r := by
      intro r before
      rw [sessions, Function.update_of_ne (Nat.ne_of_lt before)]
    have which : ∀ r < t.nextRef, r ≠ s.nextRef → r < s.nextRef := by
      intro r made other
      rw [next] at made
      exact Nat.lt_of_le_of_ne (Nat.le_of_lt_succ made) other
    have mine : ∀ d, (ForwardSession.new client upstream).socket d ∈ s.accept.sockets := by
      intro d
      rw [held]
      cases d <;> simp [ForwardSession.new]
    have opened : ∀ d, s.isOpen ((ForwardSession.new client upstream).socket d) = true :=
      fun d => settingUp _ (held ▸ mine d)
    refine ⟨ledger ▸ balanced, by simp [after], by simp [after], ?_, ?_, by simp [after], ?_, ?_⟩
    · intro r made' d
      rw [nextSocket]
      by_cases same : r = s.nextRef
      · rw [same, new]
        exact balanced.given _ (opened d)
      · rw [old r (which r made' same)]
        exact made r (which r made' same) d
    · intro r made' d
      rw [isOpen]
      by_cases same : r = s.nextRef
      · rw [same, new, opened d]
        rfl
      · rw [old r (which r made' same)]
        exact session r (which r made' same) d
    · intro r made' r' made'' d e same
      by_cases first : r = s.nextRef <;> by_cases second : r' = s.nextRef
      · rw [first, second, new] at same
        refine ⟨first.trans second.symm, ?_⟩
        cases d with
        | client =>
          cases e with
          | client => rfl
          | upstream => exact absurd same distinct
        | upstream =>
          cases e with
          | client => exact absurd same.symm distinct
          | upstream => rfl
      · rw [first, new, old r' (which r' made'' second)] at same
        exact absurd (same ▸ mine d) (apart r' (which r' made'' second) e)
      · rw [second, new, old r (which r made' first)] at same
        exact absurd (same ▸ mine e) (apart r (which r made' first) d)
      · rw [old r (which r made' first), old r' (which r' made'' second)] at same
        exact injective r (which r made' first) r' (which r' made'' second) d e same
    · intro k still
      refine .inr ?_
      rcases covered k (isOpen ▸ still) with member | ⟨r, before, d, same⟩
      · refine ⟨s.nextRef, by rw [next]; exact Nat.lt_succ_self _, ?_⟩
        rw [new]
        rw [held] at member
        rcases List.mem_pair.mp member with rfl | rfl
        · exact ⟨.client, rfl⟩
        · exact ⟨.upstream, rfl⟩
      · exact ⟨r, by rw [next]; exact Nat.lt_succ_of_lt before, d, by rw [old r before, same]⟩
  | sessionClosed ref d old was now ledger sockets next same others =>
    obtain ⟨isOpen, nextSocket, -⟩ := Ledger.mk.inj ledger
    have opened : s.isOpen ((s.heap ref).socket d) = true := (session ref old d).trans was
    have still : ∀ j, j ≠ (s.heap ref).socket d → t.isOpen j = s.isOpen j := by
      intro j other
      rw [isOpen]
      exact Function.update_of_ne other _ _
    have gone : t.isOpen ((s.heap ref).socket d) = false := by
      rw [isOpen]
      exact Function.update_self _ _ _
    refine ⟨ledger ▸ balanced.close opened, sockets ▸ setup, ?_, ?_, ?_, ?_, ?_, ?_⟩
    · intro k member
      rw [sockets] at member
      rw [still k fun own => apart ref old d (own ▸ member)]
      exact settingUp k member
    · intro r made' e
      rw [same, nextSocket]
      exact made r (next ▸ made') e
    · intro r made' e
      rw [same]
      by_cases own : r = ref ∧ e = d
      · rw [own.1, own.2, gone, now]
      · have other : r ≠ ref ∨ e ≠ d := by
          by_contra both
          exact own (by simpa only [not_or, not_not] using both)
        rw [others r e other, still _ fun equal => own (injective r (next ▸ made') ref old e d equal)]
        exact session r (next ▸ made') e
    · intro r made' e
      rw [same, sockets]
      exact apart r (next ▸ made') e
    · intro r made' r' made'' e e' equal
      rw [same, same] at equal
      exact injective r (next ▸ made') r' (next ▸ made'') e e' equal
    · intro k yes
      rw [sockets, next]
      have other : k ≠ (s.heap ref).socket d := by
        rintro rfl
        rw [gone] at yes
        cases yes
      simpa only [same] using covered k (still k other ▸ yes)

theorem owned_reached {ok : State → Action → Prop} (reached : (forwarder p).Reach ok s) :
    Owned s := by
  induction reached with
  | start init =>
    obtain ⟨fd, outcome, endpoints, -, rfl⟩ := init
    have none_ : ∀ ref, ¬ ref < (started (some fd) endpoints).nextRef :=
      fun _ => Nat.not_lt_zero _
    exact ⟨Ledger.balanced_empty, List.nodup_nil, by simp [started, AcceptPc.sockets],
      fun ref old => absurd old (none_ ref), fun ref old => absurd old (none_ ref),
      fun ref old => absurd old (none_ ref), fun ref old => absurd old (none_ ref),
      by simp [started]⟩
  | next before _ moved ih =>
    have control := fun ref (made : ref < _) => Tcp.control_reached (session_reached before made)
    exact ((step_move moved).holding control).owned ih

end PortForwardX.TcpForwarder
