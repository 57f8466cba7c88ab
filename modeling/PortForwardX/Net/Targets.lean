import PortForwardX.Transition.Latest
import PortForwardX.Net.Candidates

/-!
# The target list

`ResolveTargetEndpoints` replaces the list by the endpoints of a resolution that it may use,
if there are any, and leaves it as it is otherwise.
-/
namespace PortForwardX.Net

open Transition

variable {config : ForwardConfig} {outcome : GetAddrInfo} {endpoints : List ResolvedEndpoint}

/-- What a resolution contributes to the target list. -/
def usableTargets (config : ForwardConfig) (outcome : GetAddrInfo) :
    Option (List ResolvedEndpoint) :=
  (resolveTargetEndpoints config outcome).toOption

theorem usableTargets_eq_some :
    usableTargets config outcome = some endpoints ↔
      targetCandidates config outcome = endpoints ∧ endpoints ≠ [] := by
  rw [← resolveTargetEndpoints_eq_ok, usableTargets]
  cases resolveTargetEndpoints config outcome <;> simp [Except.toOption]

theorem usableTargets_eq_none :
    usableTargets config outcome = none ↔ targetCandidates config outcome = [] := by
  rw [Option.eq_none_iff_forall_ne_some]
  constructor
  · intro unused
    by_contra some_
    exact unused _ (usableTargets_eq_some.mpr ⟨rfl, some_⟩)
  · intro none_ endpoints used
    obtain ⟨same, nonempty⟩ := usableTargets_eq_some.mp used
    exact nonempty (same.symm.trans none_)

/-- What the target list of a forwarder is, given the resolutions that `Start` and the loops
have made so far. -/
structure TargetsKept (config : ForwardConfig) (history : List GetAddrInfo)
    (targets : List ResolvedEndpoint) : Prop where
  nonempty : targets ≠ []
  family : effectiveTargetFamily config ≠ .auto →
    ∀ endpoint ∈ targets, endpoint.family = toNativeFamily (effectiveTargetFamily config)
  latest : ∃ before outcome after, history = before ++ outcome :: after ∧
    targetCandidates config outcome = targets ∧
      ∀ later ∈ after, targetCandidates config later = []

theorem TargetsKept.of_latest {history : List GetAddrInfo} {targets : List ResolvedEndpoint}
    (latest : Latest (usableTargets config) history targets) :
    TargetsKept config history targets := by
  obtain ⟨before, outcome, after, split, used, useless⟩ := latest
  obtain ⟨rfl, nonempty⟩ := usableTargets_eq_some.mp used
  refine ⟨nonempty, fun explicit endpoint member => ?_, before, outcome, after, split, rfl,
    fun later member => ?_⟩
  · exact (mem_sortEndpoints member).2 explicit
  · exact usableTargets_eq_none.mp (useless later member)

end PortForwardX.Net
