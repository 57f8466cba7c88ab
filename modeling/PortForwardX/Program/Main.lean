import PortForwardX.Forwarder.Outcomes
import PortForwardX.Program.Options

/-!
# `main`

The whole process: the main thread starts a forwarder for each protocol asked for, waits for a
signal and stops them in turn, while the threads of the forwarders it has started run.
-/
namespace PortForwardX.Program

open Transition Net

/-- How the process is invoked. `arguments` is what `parse_command_line` makes of the command
line. -/
structure Invocation where
  arguments : Except String Options
  version : String
  platform : Platform
  getnameinfo : SockAddr → Option (String × String)

def Invocation.setup (inv : Invocation) (config : ForwardConfig) : Forwarder.Setup where
  protocol := config.protocol
  platform := inv.platform
  config := config.toForwardConfig
  listenHost := config.listenHost
  getnameinfo := inv.getnameinfo

/-- A `Forwarder` that has been started, with its `config_`. -/
structure RunningForwarder where
  config : ForwardConfig
  forwarder : Forwarder.State

/-- Control points of `main`. In `inStop` it waits for the `Stop` of a forwarder to return. -/
inductive Pc where
  | parse
  | startTcp (job : Job)
  | startUdp (job : Job)
  | announce (job : Job)
  | wait (job : Job)
  | stop (i code : Nat)
  | inStop (i code : Nat)
  | returned (code : Nat)
  deriving DecidableEq, Repr

structure State where
  pc : Pc := .parse
  forwarders : List RunningForwarder := []
  stopRequested : Bool := false
  cout : List Notice := []
  cerr : List Notice := []

inductive Action where
  | main
  | start (calls : Forwarder.StartCalls)
  | thread (i : Nat) (a : Forwarder.Action)
  | signal

/-- A thread of a forwarder has ended the process. -/
def State.aborted (s : State) : Bool := s.forwarders.any fun r => r.forwarder.terminated

/-- `main` has returned. -/
def Pc.isReturned : Pc → Bool
  | .returned _ => true
  | _ => false

/-- `return`, after a last line on `std::cerr`. -/
def State.refuse (s : State) (code : Nat) (notice : Notice) : State :=
  { s with pc := .returned code, cerr := s.cerr ++ [notice] }

/-- From the command line to the first forwarder. -/
def State.parse (inv : Invocation) (s : State) : State :=
  match inv.arguments with
  | .error what => s.refuse 1 ⟨"Argument parse error: " ++ what, true⟩
  | .ok o =>
    if o.help then
      { s with pc := .returned 0, cout := s.cout ++ [⟨"PortForwardX " ++ inv.version, true⟩] }
    else
      match o.configure with
      | .error notice => s.refuse 1 notice
      | .ok job => { s with pc := .startTcp job }

/-- `per_protocol_config`. -/
def Job.configFor (job : Job) (protocol : TransportProtocol) : ForwardConfig :=
  { job.config with protocol := protocol }

/-- `start_forwarder`, and whether it returns true. -/
def State.startForwarder (inv : Invocation) (s : State) (job : Job)
    (protocol : TransportProtocol) (calls : Forwarder.StartCalls) : State × Bool :=
  let config := job.configFor protocol
  match ({} : Forwarder.State).start (inv.setup config) (some "") calls with
  -- without a result the process has ended in there
  | (forwarder, some .started) | (forwarder, none) =>
    ({ s with forwarders := s.forwarders ++ [⟨config, forwarder⟩] }, true)
  | (forwarder, some _) =>
    ({ s with cerr := s.cerr ++ [⟨"Failed to start " ++ transportProtocolToString protocol ++
      " forwarder: " ++ forwarder.message.getD "", false⟩] }, false)

/-- What `main` prints when all forwarders have been started. -/
def announcement (job : Job) (forwarders : List RunningForwarder) : List String :=
  ["Forwarding started.",
    "  mode: " ++ job.runMode,
    "  target: " ++ job.config.targetHost ++ ":" ++ toString job.config.targetPort,
    "  protocol: " ++ job.protocolInput,
    "  family: " ++ addressFamilyToString job.config.family ++
      " (listen=" ++ addressFamilyToString job.config.listenFamily ++
      ", target=" ++ addressFamilyToString job.config.targetFamily ++ ")",
    "  dns refresh: " ++ toString job.config.dnsRefreshIntervalMinutes ++ "min",
    "  udp idle timeout: " ++ toString job.config.udpSessionIdleTimeoutSeconds ++
      "s (0=disabled)",
    "  udp debug: " ++ if job.config.udpDebug then "on" else "off"] ++
  forwarders.map (fun r =>
    "  listen(" ++ transportProtocolToString r.config.protocol ++ "): " ++
      r.forwarder.listening.2 ++ ":" ++ toString r.forwarder.listening.1) ++
  ["Press Ctrl+C to stop."]

/-- A step of the main thread that starts no forwarder. -/
def State.main (inv : Invocation) (s : State) : Option State :=
  match s.pc with
  | .parse => some (s.parse inv)
  | .startTcp job => if job.enableTcp then none else some { s with pc := .startUdp job }
  | .startUdp job => if job.enableUdp then none else some { s with pc := .announce job }
  | .announce job =>
    some { s with
      pc := .wait job
      cout := s.cout ++ (announcement job s.forwarders).map fun line => ⟨line, false⟩ }
  -- `sleep_for` between two looks at the flag
  | .wait _ => some (if s.stopRequested then { s with pc := .stop 0 0 } else s)
  | .stop i code =>
    match s.forwarders[i]? with
    | none =>
      some { s with
        pc := .returned code
        cout := s.cout ++ if code = 0 then [⟨"Forwarding stopped.", false⟩] else [] }
    | some r =>
      (Forwarder.call (inv.setup r.config) r.forwarder .stop).map fun (forwarder, how) =>
        { s with
          pc := if how.isSome then .stop (i + 1) code else .inStop i code
          forwarders := s.forwarders.set i { r with forwarder := forwarder } }
  | .inStop _ _ | .returned _ => none

/-- A step of the main thread that starts a forwarder. -/
def State.start (inv : Invocation) (s : State) (calls : Forwarder.StartCalls) : Option State :=
  match s.pc with
  | .startTcp job =>
    if job.enableTcp then
      let (t, ok) := s.startForwarder inv job .tcp calls
      some { t with pc := if ok then .startUdp job else .returned 2 }
    else none
  | .startUdp job =>
    if job.enableUdp then
      let (t, ok) := s.startForwarder inv job .udp calls
      some { t with pc := if ok then .announce job else .stop 0 2 }
    else none
  | _ => none

/-- The control point of `main` after a step of the threads of a forwarder, in which a call may
have returned. -/
def Pc.afterThread (i : Nat) (how : Option Forwarder.Return) : Pc → Pc
  | .inStop j code => if i = j ∧ how.isSome then .stop (j + 1) code else .inStop j code
  | pc => pc

/-- A step of the threads of a forwarder. -/
def State.thread (inv : Invocation) (s : State) (i : Nat) (a : Forwarder.Action) : Option State :=
  match s.forwarders[i]? with
  | none => none
  | some r =>
    (Forwarder.call (inv.setup r.config) r.forwarder a).map fun (forwarder, how) =>
      { s with
        pc := s.pc.afterThread i how
        forwarders := s.forwarders.set i { r with forwarder := forwarder } }

/-- The signal handlers have been installed. -/
def Pc.handlesSignals : Pc → Bool
  | .parse => false
  | _ => true

def step (inv : Invocation) (s : State) (action : Action) : Option State :=
  if s.aborted || s.pc.isReturned then none
  else
    match action with
    | .main => s.main inv
    | .start calls => s.start inv calls
    | .thread i a => if a.ofThreads then s.thread inv i a else none
    | .signal => if s.pc.handlesSignals then some { s with stopRequested := true } else none

/-- The process, from the call of `main` on. -/
def process (inv : Invocation) : Machine State Action where
  Init s := s = {}
  step := step inv

theorem process_init (inv : Invocation) : (process inv).Init {} := rfl

end PortForwardX.Program
