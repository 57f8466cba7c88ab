import Mathlib.Data.List.Sort

/-!
# Target resolution

`DnsResolver::Resolve` over the outcome of `getaddrinfo`, the order in which the
forwarder tries the endpoints, and the target list that a resolution leaves behind.
-/
namespace PortForwardX.Net

inductive AddressFamilyPreference where
  | auto
  | ipv4Only
  | ipv6Only
  deriving DecidableEq, Repr

/-- Values of `ai_family`. -/
inductive NativeFamily where
  | unspec
  | inet
  | inet6
  | other (value : Int)
  deriving DecidableEq, Repr

/-- The part of `ForwardConfig` that the forwarding of datagrams depends on. -/
structure ForwardConfig where
  targetHost : String := ""
  family : AddressFamilyPreference := .auto
  listenFamily : AddressFamilyPreference := .auto
  targetFamily : AddressFamilyPreference := .auto
  dnsRefreshIntervalMinutes : UInt32 := 10
  udpSessionIdleTimeoutSeconds : UInt32 := 300
  deriving DecidableEq, Repr

structure ResolvedEndpoint where
  family : NativeFamily
  sockaddrBytes : List UInt8
  sockaddrLen : Nat
  sized : sockaddrBytes.length = sockaddrLen
  deriving DecidableEq, Repr

/-- `ToNativeFamily`. -/
def toNativeFamily : AddressFamilyPreference → NativeFamily
  | .ipv4Only => .inet
  | .ipv6Only => .inet6
  | .auto => .unspec

/-- `SortEndpoints`: IPv6 before IPv4 and otherwise in resolver order, or only the
endpoints of the family asked for. -/
def sortEndpoints (endpoints : List ResolvedEndpoint) (family : AddressFamilyPreference) :
    List ResolvedEndpoint :=
  if family = .auto then
    -- a stable sort by the strict order "left is IPv6 and right is IPv4"
    endpoints.insertionSort fun lhs rhs => ¬ (rhs.family = .inet6 ∧ lhs.family = .inet)
  else
    endpoints.filter fun endpoint => endpoint.family = toNativeFamily family

/-- `EffectiveTargetFamily`. -/
def effectiveTargetFamily (config : ForwardConfig) : AddressFamilyPreference :=
  if config.targetFamily ≠ .auto then config.targetFamily
  else if config.listenFamily = .auto ∧ config.family ≠ .auto then config.family
  else .auto

/-- `EffectiveListenFamily`. -/
def effectiveListenFamily (config : ForwardConfig) : AddressFamilyPreference :=
  if config.listenFamily ≠ .auto then config.listenFamily
  else if config.targetFamily = .auto ∧ config.family ≠ .auto then config.family
  else .auto

/-- One `addrinfo`. The address is absent where `ai_addr` is null. -/
structure AddrInfo where
  family : NativeFamily
  addr : Option (List UInt8)
  deriving DecidableEq, Repr

/-- Outcome of `getaddrinfo`. -/
inductive GetAddrInfo where
  | failed (reason : String)
  | found (infos : List AddrInfo)
  deriving DecidableEq, Repr

/-- `DnsResolver::Resolve`: the endpoints and the error message it leaves. -/
def resolve (host : String) : GetAddrInfo → List ResolvedEndpoint × String
  | .failed reason => ([], "getaddrinfo failed: " ++ reason)
  | .found infos =>
    let endpoints := infos.filterMap fun info =>
      match info.addr with
      | some bytes => if 0 < bytes.length then some ⟨info.family, bytes, _, rfl⟩ else none
      | none => none
    (endpoints, if endpoints.isEmpty then "No endpoint resolved for host: " ++ host else "")

/-- `ResolveTargetEndpoints`: the new target list, or the error that keeps the old one. -/
def resolveTargetEndpoints (config : ForwardConfig) (outcome : GetAddrInfo) :
    Except String (List ResolvedEndpoint) :=
  let (resolved, localError) := resolve config.targetHost outcome
  let endpoints := sortEndpoints resolved (effectiveTargetFamily config)
  if endpoints.isEmpty then
    .error (if localError.isEmpty then "No target endpoint available." else localError)
  else .ok endpoints

/-- The endpoints of a resolution that `ResolveTargetEndpoints` may use. -/
def targetCandidates (config : ForwardConfig) (outcome : GetAddrInfo) : List ResolvedEndpoint :=
  sortEndpoints (resolve config.targetHost outcome).1 (effectiveTargetFamily config)

theorem resolveTargetEndpoints_eq_ok {config : ForwardConfig} {outcome : GetAddrInfo}
    {endpoints : List ResolvedEndpoint} :
    resolveTargetEndpoints config outcome = .ok endpoints ↔
      targetCandidates config outcome = endpoints ∧ endpoints ≠ [] := by
  change (if (targetCandidates config outcome).isEmpty then _ else _) = _ ↔ _
  split
  next empty =>
    have none_ := List.isEmpty_iff.mp empty
    constructor
    · intro resolved
      cases resolved
    · rintro ⟨rfl, nonempty⟩
      exact absurd none_ nonempty
  next nonempty =>
    rw [Except.ok.injEq]
    constructor
    · rintro rfl
      exact ⟨rfl, fun none_ => nonempty (List.isEmpty_iff.mpr none_)⟩
    · exact And.left

/-- The interval `ResolverLoop` compares its sleep with, in milliseconds. The product is
taken in the unsigned 32-bit type of the configured value. -/
def refreshIntervalMs (config : ForwardConfig) : Nat :=
  ((if config.dnsRefreshIntervalMinutes = 0 then 10 else config.dnsRefreshIntervalMinutes)
    * 60 * 1000).toNat

/-- Control points of `ResolverLoop` with its local `elapsed`. -/
inductive ResolverPc where
  | test (elapsed : Nat)
  | sleep (elapsed : Nat)
  | refresh
  | exited
  deriving DecidableEq, Repr

/-- One iteration of `ResolverLoop` up to the point where it resolves. -/
def ResolverPc.next (config : ForwardConfig) (running : Bool) : ResolverPc → Option ResolverPc
  | .test elapsed => some (if running then .sleep elapsed else .exited)
  | .sleep elapsed =>
    if running then
      if elapsed + 200 < refreshIntervalMs config then some (.test (elapsed + 200))
      else some .refresh
    else some .exited
  | .refresh | .exited => none

/-- Steps `ResolverLoop` can still take once `running_` is clear. -/
def ResolverPc.remaining : ResolverPc → Nat
  | .refresh => 2
  | .test _ | .sleep _ => 1
  | .exited => 0

theorem ResolverPc.next_remaining {config : ForwardConfig} {pc pc' : ResolverPc}
    (next : pc.next config false = some pc') : pc'.remaining < pc.remaining := by
  cases pc with
  | test | sleep =>
    obtain rfl := Option.some.inj next
    exact Nat.one_pos
  | refresh | exited => cases next

end PortForwardX.Net
