import PortForwardX.Net.Candidates

/-!
# The command line

What `main` makes of its options: the configuration of the forwarders and the protocols they
serve, or a notice.
-/
namespace PortForwardX.Program

open Net

/-- A string with `std::tolower` of each of its characters. -/
def lowered (input : String) : String := String.ofList (input.toList.map Char.toLower)

def parseAddressFamily (input : String) : AddressFamilyPreference :=
  if lowered input = "ipv4" ∨ lowered input = "v4" then .ipv4Only
  else if lowered input = "ipv6" ∨ lowered input = "v6" then .ipv6Only
  else .auto

def addressFamilyToString : AddressFamilyPreference → String
  | .ipv4Only => "ipv4"
  | .ipv6Only => "ipv6"
  | .auto => "auto"

def transportProtocolToString : TransportProtocol → String
  | .udp => "udp"
  | .tcp => "tcp"

/-- A family is read back as it is printed, in upper case or lower. -/
theorem parse_addressFamilyToString (family : AddressFamilyPreference) {input : String}
    (same : lowered input = addressFamilyToString family) : parseAddressFamily input = family := by
  cases family <;> simp [parseAddressFamily, same, addressFamilyToString]

/-- The options of `main`, with their defaults. A port or a host without a default may be
missing. -/
structure Options where
  help : Bool := false
  mode : String := "custom"
  protocol : String := "tcp"
  family : String := "auto"
  dnsRefreshMin : UInt32 := 10
  udpIdleTimeoutSec : UInt32 := 300
  udpDebug : Bool := false
  listenHost : String := "::"
  listenPort : Option UInt32 := none
  targetHost : Option String := none
  targetPort : Option UInt32 := none
  publicListenHost : String := "::"
  publicListenPort : Option UInt32 := none
  lanTargetHost : String := "127.0.0.1"
  lanTargetPort : Option UInt32 := none
  localListenHost : String := "127.0.0.1"
  localListenPort : Option UInt32 := none
  serverIpv6Host : Option String := none
  serverPort : Option UInt32 := none

/-- What `main` writes to `std::cerr`: a text, and perhaps the list of options after it. -/
structure Notice where
  text : String
  options : Bool
  deriving DecidableEq, Repr

/-- A `ForwardConfig` with the members that only `main` and the log lines look at. -/
structure ForwardConfig extends Net.ForwardConfig where
  listenHost : String := "::"
  listenPort : UInt16 := 0
  targetPort : UInt16 := 0
  protocol : TransportProtocol := .tcp
  udpDebug : Bool := false
  deriving DecidableEq, Repr

/-- What `main` sets out to do. -/
structure Job where
  config : ForwardConfig
  runMode : String
  protocolInput : String
  deriving DecidableEq, Repr

def Job.enableTcp (job : Job) : Bool := job.protocolInput == "tcp" || job.protocolInput == "both"

def Job.enableUdp (job : Job) : Bool := job.protocolInput == "udp" || job.protocolInput == "both"

/-- The protocols to serve, in the order in which their forwarders are started. -/
def Job.protocols (job : Job) : List TransportProtocol :=
  (if job.enableTcp then [.tcp] else []) ++ if job.enableUdp then [.udp] else []

def missing (key : String) : Notice := ⟨"Missing required argument: --" ++ key, true⟩

/-- `parse_port`. -/
def parsePort (key : String) : Option UInt32 → Except Notice UInt32
  | none => .error (missing key)
  | some raw =>
    if raw > 65535 then
      .error ⟨"Invalid value for --" ++ key ++ ": " ++ toString raw ++
        " (must be within [0, 65535]).", false⟩
    else .ok raw

/-- A host that has no default. -/
def required (key : String) : Option String → Except Notice String
  | none => .error (missing key)
  | some host => .ok host

/-- An explicit family, or IPv6. -/
def orIpv6 (family : AddressFamilyPreference) : AddressFamilyPreference :=
  if family = .auto then .ipv6Only else family

/-- The part of `main` that a mode decides. -/
def Options.sides (o : Options) (config : ForwardConfig) : Except Notice ForwardConfig :=
  if o.mode = "custom" then do
    let listenPortRaw ← parsePort "listen-port" o.listenPort
    let targetPortRaw ← parsePort "target-port" o.targetPort
    let targetHost ← required "target-host" o.targetHost
    return { config with
      listenHost := o.listenHost
      listenPort := listenPortRaw.toUInt16
      targetHost := targetHost
      targetPort := targetPortRaw.toUInt16
      listenFamily := config.family
      targetFamily := config.family }
  else if o.mode = "server" then do
    let listenPortRaw ← parsePort "public-listen-port" o.publicListenPort
    let targetPortRaw ← parsePort "lan-target-port" o.lanTargetPort
    return { config with
      listenHost := o.publicListenHost
      listenPort := listenPortRaw.toUInt16
      targetHost := o.lanTargetHost
      targetPort := targetPortRaw.toUInt16
      listenFamily := orIpv6 config.family
      targetFamily := .auto }
  else if o.mode = "client" then do
    let listenPortRaw ← parsePort "local-listen-port" o.localListenPort
    let targetPortRaw ← parsePort "server-port" o.serverPort
    let targetHost ← required "server-ipv6-host" o.serverIpv6Host
    return { config with
      listenHost := o.localListenHost
      listenPort := listenPortRaw.toUInt16
      targetHost := targetHost
      targetPort := targetPortRaw.toUInt16
      listenFamily := .ipv4Only
      targetFamily := orIpv6 config.family }
  else
    .error ⟨"Invalid run mode: " ++ o.mode ++ " (expected one of: custom|server|client)", true⟩

/-- `main`, from the parsed options to the point where it has a configuration. -/
def Options.configure (o : Options) : Except Notice Job := do
  let config ← o.sides { family := parseAddressFamily o.family }
  let job : Job :=
    { config := { config with
        dnsRefreshIntervalMinutes := o.dnsRefreshMin
        udpSessionIdleTimeoutSeconds := o.udpIdleTimeoutSec
        udpDebug := o.udpDebug }
      runMode := o.mode
      protocolInput := lowered o.protocol }
  if !job.enableTcp && !job.enableUdp then
    .error ⟨"Invalid value for --protocol: " ++ job.protocolInput ++
      " (expected one of: tcp|udp|both)", false⟩
  else return job

/-! ### What is accepted -/

/-- The option was given, and it is a port. -/
def IsPort (given : Option UInt32) : Prop := ∃ raw, given = some raw ∧ raw ≤ 65535

/-- The options that the mode needs are there, and the ports are ports. -/
def Options.Complete (o : Options) : Prop :=
  (o.mode = "custom" ∧ IsPort o.listenPort ∧ IsPort o.targetPort ∧ o.targetHost ≠ none) ∨
  (o.mode = "server" ∧ IsPort o.publicListenPort ∧ IsPort o.lanTargetPort) ∨
  (o.mode = "client" ∧ IsPort o.localListenPort ∧ IsPort o.serverPort ∧ o.serverIpv6Host ≠ none)

/-- The two sides of a configuration, as the forwarder uses them. -/
structure Sides (config : ForwardConfig) (listenHost : String) (listenPort : Option UInt32)
    (targetHost : String) (targetPort : Option UInt32)
    (listenFamily targetFamily : AddressFamilyPreference) : Prop where
  listenHost : config.listenHost = listenHost
  listenPort : listenPort = some config.listenPort.toUInt32
  targetHost : config.targetHost = targetHost
  targetPort : targetPort = some config.targetPort.toUInt32
  listenFamily : effectiveListenFamily config.toForwardConfig = listenFamily
  targetFamily : effectiveTargetFamily config.toForwardConfig = targetFamily

/-- The configuration carries out what the options ask for. The family is that of both sides in
the custom mode, that of the public side in the server mode and that of the remote side in the
client mode, where no family means IPv6. -/
structure Options.Asks (o : Options) (config : ForwardConfig) : Prop where
  custom : o.mode = "custom" → ∃ host, o.targetHost = some host ∧
    Sides config o.listenHost o.listenPort host o.targetPort
      (parseAddressFamily o.family) (parseAddressFamily o.family)
  server : o.mode = "server" →
    Sides config o.publicListenHost o.publicListenPort o.lanTargetHost o.lanTargetPort
      (orIpv6 (parseAddressFamily o.family)) .auto
  client : o.mode = "client" → ∃ host, o.serverIpv6Host = some host ∧
    Sides config o.localListenHost o.localListenPort host o.serverPort
      .ipv4Only (orIpv6 (parseAddressFamily o.family))

variable {o : Options} {key : String} {given : Option UInt32} {raw : UInt32}

theorem parsePort_eq_ok : parsePort key given = .ok raw ↔ given = some raw ∧ raw ≤ 65535 := by
  cases given with
  | none => simp [parsePort]
  | some given =>
    unfold parsePort
    dsimp only
    split
    next above =>
      constructor
      · rintro ⟨⟩
      · rintro ⟨same, within⟩
        rw [Option.some.inj same] at above
        exact absurd within (UInt32.not_le.mpr above)
    next within =>
      constructor
      · rintro ⟨⟩
        exact ⟨rfl, UInt32.not_lt.mp within⟩
      · rintro ⟨same, -⟩
        rw [Option.some.inj same]

/-- A port loses nothing on its way into sixteen bits. -/
theorem toUInt16_toUInt32 (within : raw ≤ 65535) : raw.toUInt16.toUInt32 = raw := by
  apply UInt32.toNat_inj.mp
  have bound := UInt32.le_iff_toNat_le.mp within
  simp only [UInt32.toNat_ofNat] at bound
  simp
  omega

theorem required_eq_ok {given : Option String} {host : String} :
    required key given = .ok host ↔ given = some host := by
  cases given <;> simp [required]

theorem orIpv6_explicit (family : AddressFamilyPreference) : orIpv6 family ≠ .auto := by
  cases family <;> simp [orIpv6]

theorem bind_eq_ok {ε α β : Type} {x : Except ε α} {f : α → Except ε β} {b : β} :
    (x >>= f) = .ok b ↔ ∃ a, x = .ok a ∧ f a = .ok b := by
  cases x with
  | error e => exact ⟨nofun, fun ⟨_, same, _⟩ => nomatch same⟩
  | ok a => exact ⟨fun ok => ⟨a, rfl, ok⟩, fun ⟨_, same, ok⟩ => (Except.ok.inj same) ▸ ok⟩

/-- A configuration is made where everything the mode needs is there, and it is the one asked
for. -/
theorem sides_spec (o : Options) (config : ForwardConfig)
    (family : config.family = parseAddressFamily o.family) :
    ((∃ made, o.sides config = .ok made) ↔ o.Complete) ∧
      ∀ made, o.sides config = .ok made → o.Asks made ∧ made.protocol = config.protocol := by
  unfold Options.sides Options.Complete IsPort
  split
  next mode =>
    simp only [bind_eq_ok, parsePort_eq_ok, required_eq_ok, pure, Except.pure, Except.ok.injEq]
    refine ⟨by simp [mode, Option.ne_none_iff_exists'], ?_⟩
    rintro made ⟨listen, ⟨listenPort, within⟩, target, ⟨targetPort, within'⟩, host, targetHost, rfl⟩
    refine ⟨⟨fun _ => ⟨host, targetHost, ?_⟩, by simp [mode], by simp [mode]⟩, rfl⟩
    -- the one family reaches both sides through the common field
    constructor <;> cases chosen : parseAddressFamily o.family <;>
      simp [listenPort, targetPort, toUInt16_toUInt32 within, toUInt16_toUInt32 within',
        effectiveListenFamily, effectiveTargetFamily, family, chosen]
  · split
    next mode =>
      simp only [bind_eq_ok, parsePort_eq_ok, pure, Except.pure, Except.ok.injEq]
      refine ⟨by simp [mode], ?_⟩
      rintro made ⟨listen, ⟨listenPort, within⟩, target, ⟨targetPort, within'⟩, rfl⟩
      refine ⟨⟨by simp [mode], fun _ => ?_, by simp [mode]⟩, rfl⟩
      constructor <;> simp [listenPort, targetPort, toUInt16_toUInt32 within,
        toUInt16_toUInt32 within', effectiveListenFamily, effectiveTargetFamily, family,
        orIpv6_explicit]
    · split
      next mode =>
        simp only [bind_eq_ok, parsePort_eq_ok, required_eq_ok, pure, Except.pure,
          Except.ok.injEq]
        refine ⟨by simp [mode, Option.ne_none_iff_exists'], ?_⟩
        rintro made
          ⟨listen, ⟨listenPort, within⟩, target, ⟨targetPort, within'⟩, host, targetHost, rfl⟩
        refine ⟨⟨by simp [mode], by simp [mode], fun _ => ⟨host, targetHost, ?_⟩⟩, rfl⟩
        constructor <;> simp [listenPort, targetPort, toUInt16_toUInt32 within,
          toUInt16_toUInt32 within', effectiveListenFamily, effectiveTargetFamily, family,
          orIpv6_explicit]
      next custom server client => simp [custom, server, client]

/-- The remaining options say nothing about the two sides. -/
theorem Options.Asks.remaining {config : ForwardConfig} (asks : o.Asks config)
    (protocol : TransportProtocol) (refresh timeout : UInt32) (debug : Bool) :
    o.Asks { config with
      protocol := protocol
      dnsRefreshIntervalMinutes := refresh
      udpSessionIdleTimeoutSeconds := timeout
      udpDebug := debug } := by
  refine ⟨fun mode => ?_, fun mode => ?_, fun mode => ?_⟩
  · obtain ⟨host, given, sides⟩ := asks.custom mode
    exact ⟨host, given, { sides with }⟩
  · exact { asks.server mode with }
  · obtain ⟨host, given, sides⟩ := asks.client mode
    exact ⟨host, given, { sides with }⟩

theorem Job.mem_protocols (job : Job) (protocol : TransportProtocol) :
    protocol ∈ job.protocols ↔
      job.protocolInput ∈ [transportProtocolToString protocol, "both"] := by
  unfold protocols enableTcp enableUdp
  cases protocol <;> split <;> split <;> simp_all [transportProtocolToString]

theorem Job.protocols_ne_nil (job : Job) :
    job.protocols ≠ [] ↔ job.protocolInput ∈ ["tcp", "udp", "both"] := by
  unfold protocols enableTcp enableUdp
  split <;> split <;> simp_all

/-- `configure` where a mode has made a configuration. -/
theorem configure_of_sides {config : ForwardConfig} {job : Job}
    (sides : o.sides { family := parseAddressFamily o.family } = .ok config) :
    o.configure = .ok job ↔ job.protocols ≠ [] ∧ job =
      { config := { config with
          dnsRefreshIntervalMinutes := o.dnsRefreshMin
          udpSessionIdleTimeoutSeconds := o.udpIdleTimeoutSec
          udpDebug := o.udpDebug }
        runMode := o.mode
        protocolInput := lowered o.protocol } := by
  have unserved (job : Job) : (!job.enableTcp && !job.enableUdp) = true ↔ job.protocols = [] := by
    cases tcp : job.enableTcp <;> cases udp : job.enableUdp <;> simp [Job.protocols, tcp, udp]
  simp only [Options.configure, sides, bind, Except.bind, unserved]
  split
  next none_ =>
    constructor
    · rintro ⟨⟩
    · rintro ⟨served, rfl⟩
      exact absurd none_ served
  next served =>
    constructor
    · rintro ⟨⟩
      exact ⟨served, rfl⟩
    · rintro ⟨-, rfl⟩
      rfl

/-- The options are accepted where the mode is known, everything it needs is there and a known
protocol is asked for, and what is made of them is what they ask for. -/
theorem configure_spec (o : Options) :
    ((∃ job, o.configure = .ok job) ↔
      o.Complete ∧ lowered o.protocol ∈ ["tcp", "udp", "both"]) ∧
    ∀ job, o.configure = .ok job → job.protocols ≠ [] ∧ o.Asks job.config ∧
      job.protocolInput = lowered o.protocol := by
  obtain ⟨complete, asked⟩ := sides_spec o { family := parseAddressFamily o.family } rfl
  rw [← complete]
  cases sides : o.sides { family := parseAddressFamily o.family } with
  | error notice => simp [Options.configure, sides, bind, Except.bind]
  | ok config =>
    refine ⟨?_, fun job made => ?_⟩
    · simp only [configure_of_sides sides, exists_eq_right, Except.ok.injEq, exists_eq', true_and,
        Job.protocols_ne_nil]
    · obtain ⟨served, rfl⟩ := (configure_of_sides sides).mp made
      exact ⟨served, (asked config sides).1.remaining _ _ _ _, rfl⟩

end PortForwardX.Program
