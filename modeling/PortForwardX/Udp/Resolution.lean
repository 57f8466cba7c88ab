import PortForwardX.Net.Targets
import PortForwardX.Net.Refresh
import PortForwardX.Udp.Frame

/-!
# Resolutions in the UDP forwarder

Only the resolver thread touches the target list of a running forwarder, and it runs
`ResolverLoop`.
-/
namespace PortForwardX.Udp

open Transition Net

variable {p : Setup} {s t : State} {a : Answer} {action : Action}

/-- The resolution that a step consists in. -/
def resolution (s : State) : Action → Option GetAddrInfo
  | .resolver (.resolved outcome) => if s.resolver = .refresh then some outcome else none
  | _ => none

theorem step_resolver (moved : (forwarder p).step s (.resolver a) = some t) :
    resolverStep p s a = some t := by
  change step p s (.resolver a) = some t at moved
  unfold step at moved
  split at moved
  · cases moved
  · exact moved

theorem resolverStep_resolves (moved : resolverStep p s a = some t) :
    t.targetEndpoints =
      ((resolution s (.resolver a)).bind (usableTargets p.config)).getD s.targetEndpoints ∧
    (s.resolver.next p.config s.running = some t.resolver ∨
      (s.resolver = .refresh ∧ t.resolver = .test 0)) := by
  unfold resolverStep at moved
  split at moved
  next pc =>
    split at moved
    next outcome =>
      simp only [resolution, pc, if_true, Option.bind_some, usableTargets]
      split at moved <;> obtain rfl := Option.some.inj moved
      next endpoints resolved => simp [resolved, Except.toOption]
      next resolved => simp [resolved, Except.toOption]
    · cases moved
  next other =>
    obtain ⟨pc, next, rfl⟩ := Option.map_eq_some_iff.mp moved
    refine ⟨?_, .inl next⟩
    cases a with
    | resolved outcome =>
      rw [resolution, if_neg other]
      rfl
    | _ => rfl

/-- The other threads leave the list and the resolver thread alone. -/
theorem Move.unresolved (move : Move p s action t) (other : ∀ a, action ≠ .resolver a) :
    t.targetEndpoints = s.targetEndpoints ∧ t.resolver = s.resolver := by
  cases move with
  | resolver => exact absurd rfl (other _)
  | udp move =>
    refine ⟨move.controls.2.2, ?_⟩
    cases move with
    | clean pc unfinished move => exact move.frame.resolver
    | _ => rfl
  | reply move =>
    refine ⟨move.frame.targetEndpoints, ?_⟩
    cases move <;> rfl
  | stop move =>
    cases move with
    | clean pc unfinished move => exact ⟨move.frame.targetEndpoints, move.frame.resolver⟩
    | _ => exact ⟨rfl, rfl⟩
  | _ => exact ⟨rfl, rfl⟩

theorem refreshes : (forwarder p).Refreshes (usableTargets p.config) State.targetEndpoints
    resolution where
  start s init := by
    obtain ⟨fd, clock, outcome, endpoints, resolved, rfl⟩ := init
    exact ⟨outcome, by rw [usableTargets, resolved]; rfl⟩
  step s action t moved := by
    cases action with
    | resolver a => exact (resolverStep_resolves (step_resolver moved)).1
    | _ => exact ((step_move moved).unresolved (by simp)).1

/-- A resolution never leaves the forwarder without a target. -/
theorem targets_reached {ok : State → Action → Prop} (reached : (forwarder p).Reach ok s) :
    s.targetEndpoints ≠ [] := by
  obtain ⟨history, recorded⟩ := refreshes.recorded reached
  exact (TargetsKept.of_latest (refreshes.latest recorded)).nonempty

/-- `GetOrCreateUdpSession` goes on with the list as it is. -/
theorem snapshot_taken {d : Datagram} (nonempty : s.targetEndpoints ≠ [])
    (pc : s.udp = .snapshot d) (moved : (forwarder p).step s (.udp a) = some t) :
    t.udp = .createSocket d s.targetEndpoints := by
  change step p s (.udp a) = some t at moved
  unfold step at moved
  split at moved
  · cases moved
  simp only [udpStep, pc] at moved
  obtain rfl := Option.some.inj moved
  simp [nonempty]

/-- The forwarder with the resolutions it has made. -/
def resolving (p : Setup) : Machine (State × List GetAddrInfo) Action :=
  (forwarder p).answered (usableTargets p.config) State.targetEndpoints resolution

theorem resolving_init {fd : Nat} {clock : UInt64} {outcome : GetAddrInfo}
    {endpoints : List ResolvedEndpoint}
    (resolved : resolveTargetEndpoints p.config outcome = .ok endpoints) :
    (resolving p).Init (started fd clock endpoints, [outcome]) :=
  ⟨⟨fd, clock, outcome, endpoints, resolved, rfl⟩, outcome, rfl,
    by rw [usableTargets, resolved]; rfl⟩

/-- The resolver thread of a forwarder runs `ResolverLoop`. -/
theorem resolverLoop_reached {ok : State → Action → Prop} (reached : (forwarder p).Reach ok s) :
    ∃ r, (resolverLoop p.config).Reach Machine.anyStep r ∧ r.pc = s.resolver := by
  induction reached with
  | start init =>
    obtain ⟨fd, clock, outcome, endpoints, -, rfl⟩ := init
    exact ⟨{}, .start rfl, rfl⟩
  | @next s t action before _ moved ih =>
    obtain ⟨r, loop, pc⟩ := ih
    by_cases own : ∃ a, action = .resolver a
    · obtain ⟨a, rfl⟩ := own
      have follows := (resolverStep_resolves (step_resolver moved)).2
      rw [← pc] at follows
      obtain ⟨r', step, pc'⟩ := ResolverRun.step_follows follows
      exact ⟨r', .next loop trivial step, pc'⟩
    · have same := ((step_move moved).unresolved fun a yes => own ⟨a, yes⟩).2
      exact ⟨r, loop, pc.trans same.symm⟩

end PortForwardX.Udp
