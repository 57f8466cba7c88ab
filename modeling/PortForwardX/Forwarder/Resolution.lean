import PortForwardX.Udp.Resolution
import PortForwardX.TcpForwarder.Resolution

/-!
# The target list of a running forwarder

`Start` leaves a list that is not empty, and `ResolveTargetEndpoints` replaces it by another
one that is not empty or not at all. So neither loop ever finds it empty, and the branches of
`AcceptLoop` and of `GetOrCreateUdpSession` for that case are dead.
-/
namespace PortForwardX.Forwarder

open Transition Net

/-- In every run of either forwarder, whatever the resolutions of `Start`, of `ResolverLoop`
and of `AcceptLoop` answer and however the sessions come and go, the target list is the
latest that was not empty after filtering, no other step touches it, and both loops find
targets for every new client. -/
theorem targets_survive (p : Udp.Setup) (q : TcpForwarder.Setup) :
    (∀ s history, (Udp.resolving p).Reach Machine.anyStep (s, history) →
      TargetsKept p.config history s.targetEndpoints ∧
      (∀ action t, (Udp.forwarder p).step s action = some t →
        (∀ outcome, Udp.resolution s action = some outcome →
          targetCandidates p.config outcome = []) →
        t.targetEndpoints = s.targetEndpoints) ∧
      ∀ d a t, s.udp = .snapshot d → (Udp.forwarder p).step s (.udp a) = some t →
        t.udp = .createSocket d s.targetEndpoints) ∧
    ∀ s history, (TcpForwarder.resolving q).Reach Machine.anyStep (s, history) →
      TargetsKept q.config history s.targetEndpoints ∧
      (∀ action t, (TcpForwarder.forwarder q).step s action = some t →
        (∀ outcome, TcpForwarder.resolution s action = some outcome →
          targetCandidates q.config outcome = []) →
        t.targetEndpoints = s.targetEndpoints) ∧
      s.accept.targetless = false ∧
      ∀ client peer a t, s.accept = .snapshot client peer →
        (TcpForwarder.forwarder q).step s (.accept a) = some t →
        t.accept = .makeSocket client peer s.targetEndpoints := by
  constructor
  · intro s history reached
    have kept := TargetsKept.of_latest (Udp.refreshes.latest reached)
    refine ⟨kept, fun action t moved useless => ?_, fun d a t pc moved =>
      Udp.snapshot_taken kept.nonempty pc moved⟩
    exact Udp.refreshes.kept moved fun outcome made =>
      usableTargets_eq_none.mpr (useless outcome made)
  · intro s history reached
    have kept := TargetsKept.of_latest (TcpForwarder.refreshes.latest reached)
    have plain := Machine.Reach.unanswered Machine.anyStep (fun _ _ _ => trivial) reached
    refine ⟨kept, fun action t moved useless => ?_, TcpForwarder.targeted_reached plain,
      fun client peer a t pc moved => TcpForwarder.snapshot_taken kept.nonempty pc moved⟩
    exact TcpForwarder.refreshes.kept moved fun outcome made =>
      usableTargets_eq_none.mpr (useless outcome made)

/-- IPv4 only, and an interval that wraps to 0 ms. -/
def impatient : ForwardConfig :=
  { targetHost := "198.51.100.7", family := .ipv4Only, dnsRefreshIntervalMinutes := 134217728 }

/-- The resolution of `Start`, and two that are of no use. -/
def outage (server : SockAddr) : List GetAddrInfo :=
  [.found [⟨.inet, some server.bytes⟩], .failed "try again", .found [⟨.inet6, some server.bytes⟩]]

/-- Two refreshes of the target are of no use, and the first client finds the old target. -/
theorem targets_survive_outage :
    (∃ s, (Udp.resolving { Udp.Sample.setup with config := impatient }).Reach Machine.anyStep
        (s, outage Udp.Sample.server) ∧
      s.udp = .snapshot ⟨Udp.Sample.alice, [1, 2]⟩ ∧
      TargetsKept impatient (outage Udp.Sample.server) s.targetEndpoints) ∧
    ∃ s, (TcpForwarder.resolving { TcpForwarder.Sample.setup with config := impatient }).Reach
        Machine.anyStep (s, outage TcpForwarder.Sample.server) ∧
      s.accept = .snapshot 0 TcpForwarder.Sample.peer ∧
      TargetsKept impatient (outage TcpForwarder.Sample.server) s.targetEndpoints := by
  constructor
  · have result : ((Udp.resolving { Udp.Sample.setup with config := impatient }).run
        (Udp.Sample.initial, (outage Udp.Sample.server).take 1)
        ([.resolver .none, .resolver .none, .resolver (.resolved (.failed "try again")),
          .resolver .none, .resolver .none,
          .resolver (.resolved (.found [⟨.inet6, some Udp.Sample.server.bytes⟩]))] ++
          Udp.Sample.oneClient.take 6)).map
        (fun x => x.2 == outage Udp.Sample.server &&
          x.1.udp == .snapshot ⟨Udp.Sample.alice, [1, 2]⟩) = some true := by decide +kernel
    obtain ⟨⟨s, history⟩, run, seen⟩ := Option.map_eq_some_iff.mp result
    simp only [Bool.and_eq_true, beq_iff_eq] at seen
    obtain ⟨rfl, pc⟩ := seen
    have reached := Machine.Reach.run (.start (Udp.resolving_init rfl)) run
    exact ⟨s, reached, pc, ((targets_survive _ TcpForwarder.Sample.setup).1 s _ reached).1⟩
  · have result : ((TcpForwarder.resolving
          { TcpForwarder.Sample.setup with config := impatient }).run
        (TcpForwarder.Sample.initial, (outage TcpForwarder.Sample.server).take 1)
        ([.resolver .none, .resolver .none, .resolver (.resolved (.failed "try again")),
          .resolver .none, .resolver .none,
          .resolver (.resolved (.found [⟨.inet6, some TcpForwarder.Sample.server.bytes⟩]))] ++
          TcpForwarder.Sample.cleanup [] 4 ++
          [.accept (.accepted TcpForwarder.Sample.peer)])).map
        (fun x => x.2 == outage TcpForwarder.Sample.server &&
          x.1.accept == .snapshot 0 TcpForwarder.Sample.peer) = some true := by decide +kernel
    obtain ⟨⟨s, history⟩, run, seen⟩ := Option.map_eq_some_iff.mp result
    simp only [Bool.and_eq_true, beq_iff_eq] at seen
    obtain ⟨rfl, pc⟩ := seen
    have reached := Machine.Reach.run (.start (TcpForwarder.resolving_init rfl)) run
    exact ⟨s, reached, pc, ((targets_survive Udp.Sample.setup _).2 s _ reached).1⟩

end PortForwardX.Forwarder
