import PortForwardX.Net.Targets
import PortForwardX.Net.Refresh
import PortForwardX.TcpForwarder.Table

/-!
# Resolutions in the TCP forwarder

The resolver thread runs `ResolverLoop`, and `AcceptLoop` resolves the target itself where it
finds the list empty. It never does.
-/
namespace PortForwardX.TcpForwarder

open Transition Net

variable {p : Setup} {s t : State} {a : Answer} {action : Action} {c c' : Cleanup}

/-- `AcceptLoop` has found no target for a connection. -/
def AcceptPc.targetless : AcceptPc → Bool
  | .refresh _ _ | .snapshotAgain _ _ => true
  | _ => false

/-- The resolution that a step consists in. -/
def resolution (s : State) : Action → Option GetAddrInfo
  | .resolver (.resolved outcome) => if s.resolver = .refresh then some outcome else none
  | .accept (.resolved outcome) =>
    match s.accept with
    | .refresh _ _ => some outcome
    | _ => none
  | _ => none

theorem step_resolver (moved : (forwarder p).step s (.resolver a) = some t) :
    resolverStep p s a = some t := by
  change step p s (.resolver a) = some t at moved
  unfold step at moved
  split at moved
  · cases moved
  · exact moved

theorem resolverStep_resolves (moved : resolverStep p s a = some t) :
    t.targetEndpoints =
      ((resolution s (.resolver a)).bind (usableTargets p.config)).getD s.targetEndpoints ∧
    (s.resolver.next p.config s.running = some t.resolver ∨
      (s.resolver = .refresh ∧ t.resolver = .test 0)) := by
  unfold resolverStep at moved
  split at moved
  next pc =>
    split at moved
    next outcome =>
      simp only [resolution, pc, if_true, Option.bind_some, usableTargets]
      split at moved <;> obtain rfl := Option.some.inj moved
      next endpoints resolved => simp [resolved, Except.toOption]
      next resolved => simp [resolved, Except.toOption]
    · cases moved
  next other =>
    obtain ⟨pc, next, rfl⟩ := Option.map_eq_some_iff.mp moved
    refine ⟨?_, .inl next⟩
    cases a with
    | resolved outcome =>
      rw [resolution, if_neg other]
      rfl
    | _ => rfl

theorem CleanupMove.unresolved (move : CleanupMove s c a t c') :
    t.targetEndpoints = s.targetEndpoints ∧ t.resolver = s.resolver := by
  cases move with
  | join _ moved | destructor _ _ moved =>
    obtain ⟨heap, joins, rfl⟩ := State.join_frame moved
    exact ⟨rfl, rfl⟩
  | _ => exact ⟨rfl, rfl⟩

theorem resolution_eq_none (other : ∀ client peer, s.accept ≠ .refresh client peer) :
    resolution s (.accept a) = none := by
  cases a with
  | resolved outcome =>
    cases pc : s.accept with
    | refresh client peer => exact absurd pc (other client peer)
    | _ => simp [resolution, pc]
  | _ => rfl

theorem AcceptMove.resolves (move : AcceptMove p s a t) :
    t.targetEndpoints =
      ((resolution s (.accept a)).bind (usableTargets p.config)).getD s.targetEndpoints ∧
    t.resolver = s.resolver := by
  cases move with
  | clean pc unfinished move =>
    rw [resolution_eq_none (by simp [pc])]
    exact move.unresolved
  | refreshed pc resolved => simp [resolution, pc, usableTargets, resolved, Except.toOption]
  | notRefreshed pc failed => simp [resolution, pc, usableTargets, failed, Except.toOption]
  | test pc | cleaned pc | accepted pc | notAccepted pc | retest pc | snapshotEmpty pc
  | snapshot pc | noTarget pc | snapshotAgain pc | unconnected pc | made pc | notMade pc
  | connected pc | notConnected pc | closeCandidate pc | closeClient pc | lock pc | count pc
  | make pc | insertSession pc | insertPeer pc | unlock pc | started pc | throws pc =>
    rw [resolution_eq_none (by simp [pc])]
    exact ⟨rfl, rfl⟩

/-- The threads of the sessions and of `Stop` leave the list and the resolver thread alone. -/
theorem Move.unresolved (move : Move p s action t) (resolver : ∀ a, action ≠ .resolver a)
    (accept : ∀ a, action ≠ .accept a) :
    t.targetEndpoints = s.targetEndpoints ∧ t.resolver = s.resolver ∧ t.accept = s.accept := by
  cases move with
  | resolver => exact absurd rfl (resolver _)
  | accept => exact absurd rfl (accept _)
  | stop move =>
    cases move with
    | join _ moved | destructor _ _ moved =>
      obtain ⟨heap, joins, rfl⟩ := State.join_frame moved
      exact ⟨rfl, rfl, rfl⟩
    | _ => exact ⟨rfl, rfl, rfl⟩
  | _ => exact ⟨rfl, rfl, rfl⟩

theorem refreshes : (forwarder p).Refreshes (usableTargets p.config) State.targetEndpoints
    resolution where
  start s init := by
    obtain ⟨fd, outcome, endpoints, resolved, rfl⟩ := init
    exact ⟨outcome, by rw [usableTargets, resolved]; rfl⟩
  step s action t moved := by
    cases action with
    | resolver a => exact (resolverStep_resolves (step_resolver moved)).1
    | accept a =>
      cases step_move moved with
      | accept move => exact move.resolves.1
    | _ => exact ((step_move moved).unresolved (by simp) (by simp)).1

/-- The resolver thread of a forwarder runs `ResolverLoop`. -/
theorem resolverLoop_reached {ok : State → Action → Prop} (reached : (forwarder p).Reach ok s) :
    ∃ r, (resolverLoop p.config).Reach Machine.anyStep r ∧ r.pc = s.resolver := by
  induction reached with
  | start init =>
    obtain ⟨fd, outcome, endpoints, -, rfl⟩ := init
    exact ⟨{}, .start rfl, rfl⟩
  | @next s t action before _ moved ih =>
    obtain ⟨r, loop, pc⟩ := ih
    by_cases own : ∃ a, action = .resolver a
    · obtain ⟨a, rfl⟩ := own
      have follows := (resolverStep_resolves (step_resolver moved)).2
      rw [← pc] at follows
      obtain ⟨r', step, pc'⟩ := ResolverRun.step_follows follows
      exact ⟨r', .next loop trivial step, pc'⟩
    · have same : t.resolver = s.resolver := by
        cases step_move moved with
        | resolver => exact absurd ⟨_, rfl⟩ own
        | accept move => exact move.resolves.2
        | session | signal | workerThrows | callStop => rfl
        | stop move => exact ((Move.stop move : Move p _ _ _).unresolved (by simp) (by simp)).2.1
      exact ⟨r, loop, pc.trans same.symm⟩

theorem targets_reached {ok : State → Action → Prop} (reached : (forwarder p).Reach ok s) :
    s.targetEndpoints ≠ [] := by
  obtain ⟨history, recorded⟩ := refreshes.recorded reached
  exact (TargetsKept.of_latest (refreshes.latest recorded)).nonempty

/-- `AcceptLoop` never gets to resolve a target. -/
theorem targeted_reached {ok : State → Action → Prop} (reached : (forwarder p).Reach ok s) :
    s.accept.targetless = false := by
  induction reached with
  | start init =>
    obtain ⟨fd, outcome, endpoints, -, rfl⟩ := init
    rfl
  | @next s t action before _ moved ih =>
    cases step_move moved with
    | accept move =>
      cases move with
      | snapshotEmpty pc empty => exact absurd empty (targets_reached before)
      | refreshed pc | notRefreshed pc => simp [pc, AcceptPc.targetless] at ih
      | retest | cleaned =>
        dsimp only [State.goto]
        split <;> rfl
      | throws => exact ih
      | _ => rfl
    | stop move => rwa [((Move.stop move : Move p _ _ _).unresolved (by simp) (by simp)).2.2]
    | _ => exact ih

/-- `AcceptLoop` goes on with the list as it is. -/
theorem snapshot_taken {client : SocketId} {peer : SockAddr} (nonempty : s.targetEndpoints ≠ [])
    (pc : s.accept = .snapshot client peer)
    (moved : (forwarder p).step s (.accept a) = some t) :
    t.accept = .makeSocket client peer s.targetEndpoints := by
  change step p s (.accept a) = some t at moved
  unfold step at moved
  split at moved
  · cases moved
  simp only [acceptStep, pc] at moved
  obtain rfl := Option.some.inj moved
  simp [nonempty]

/-- The forwarder with the resolutions it has made. -/
def resolving (p : Setup) : Machine (State × List GetAddrInfo) Action :=
  (forwarder p).answered (usableTargets p.config) State.targetEndpoints resolution

theorem resolving_init {fd : Nat} {outcome : GetAddrInfo} {endpoints : List ResolvedEndpoint}
    (resolved : resolveTargetEndpoints p.config outcome = .ok endpoints) :
    (resolving p).Init (started (some fd) endpoints, [outcome]) :=
  ⟨⟨fd, outcome, endpoints, resolved, rfl⟩, outcome, rfl,
    by rw [usableTargets, resolved]; rfl⟩

end PortForwardX.TcpForwarder
