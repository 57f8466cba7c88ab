import PortForwardX.Transition.Latest
import PortForwardX.Net.Candidates
import PortForwardX.Udp.Step
import PortForwardX.TcpForwarder.Step

/-!
# `Start` and `Stop`

A `Forwarder` over its whole life. The calls of `Start` and `Stop` take turns, as
`state_mutex_` makes them do. Between the return of a successful `Start` and that of the
next `Stop` the threads of the UDP or of the TCP forwarder run.
-/
namespace PortForwardX.Forwarder

open Transition Net Selection

/-- A `Forwarder` and what its environment looks like. -/
structure Setup where
  protocol : TransportProtocol
  platform : Platform
  config : ForwardConfig
  listenHost : String
  getnameinfo : SockAddr → Option (String × String)

def Setup.udp (p : Setup) : Udp.Setup :=
  { platform := p.platform, config := p.config, getnameinfo := p.getnameinfo }

def Setup.tcp (p : Setup) : TcpForwarder.Setup :=
  { platform := p.platform, config := p.config, getnameinfo := p.getnameinfo }

/-- What the system answers to the calls that one `Start` makes. The `i`-th listen endpoint
tried gets the descriptor `fd i`. -/
structure StartCalls where
  wsaStartup : Except String Unit
  target : GetAddrInfo
  listen : GetAddrInfo
  candidates : Nat → ListenCalls
  fd : Nat → Nat
  clock : UInt64

/-- `EnsureSocketApiInitialized`. -/
def ensureSocketApiInitialized (platform : Platform) (wsaStartup : Except String Unit) :
    Except String Unit :=
  match platform with
  | .windows => wsaStartup
  | .posix => .ok ()

/-! ### `Forwarder::Impl::Start` -/

/-- The caller's string, if there is one, gets a text. -/
def assign (message : Option String) (text : String) : Option String := message.map fun _ => text

/-- The caller's string, if there is one and it is empty, gets a text. -/
def assignIfEmpty (message : Option String) (text : String) : Option String :=
  message.map fun old => if old.isEmpty then text else old

/-- What `Impl::Start` leaves: the candidate it keeps, if it succeeds, what it did to
candidates, the target list and the caller's string. -/
structure StartResult where
  kept : Option Nat
  uses : List Use
  targetEndpoints : List ResolvedEndpoint
  message : Option String

/-- `Impl::Start` up to the point where it has a listen socket. -/
def implStart (p : Setup) (calls : StartCalls) (targetEndpoints : List ResolvedEndpoint)
    (message : Option String) : StartResult :=
  match ensureSocketApiInitialized p.platform calls.wsaStartup with
  | .error e => ⟨none, [], targetEndpoints, assign message e⟩
  | .ok () =>
    match resolveTargetEndpoints p.config calls.target with
    | .error e => ⟨none, [], targetEndpoints, assign message e⟩
    | .ok targets =>
      -- the new target list stays, whatever becomes of the call
      let listenFamily := effectiveListenFamily p.config
      let (resolved, e) := resolve p.listenHost calls.listen
      let message := if e.isEmpty then message else assign message e
      let listenEndpoints := sortEndpoints resolved listenFamily
      if listenEndpoints.isEmpty then
        ⟨none, [], targets, assignIfEmpty message "No listen endpoint available."⟩
      else
        match listenLoop p.protocol calls.candidates listenEndpoints 0 [] with
        | (some i, uses) => ⟨some i, uses, targets, message⟩
        | (none, uses) =>
          ⟨none, uses, targets,
            assignIfEmpty message "Failed to bind/listen on any resolved endpoint."⟩

/-- `listening_port_` and `listening_host_` after `getsockname`. -/
def named (listening : UInt16 × String) : Option SockName → UInt16 × String
  | some ⟨.inet, port, ip⟩ | some ⟨.inet6, port, ip⟩ => (port, ip.getD listening.2)
  | _ => listening

/-! ### The object -/

/-- What `Impl` has beside its thread objects: the members a constructor leaves, or those of
the UDP or TCP forwarder that the latest successful `Start` made of them. -/
inductive Impl where
  | constructed (targetEndpoints : List ResolvedEndpoint)
  | udp (u : Udp.State)
  | tcp (t : TcpForwarder.State)

namespace Impl

/-- `Impl::running_`. -/
def running : Impl → Bool
  | .constructed _ => false
  | .udp u => u.running
  | .tcp t => t.running

def listenSocket : Impl → SocketHandle
  | .constructed _ => kInvalidSocket
  | .udp u => u.listenSocket
  | .tcp t => t.listenSocket

def targetEndpoints : Impl → List ResolvedEndpoint
  | .constructed targets => targets
  | .udp u => u.targetEndpoints
  | .tcp t => t.targetEndpoints

def setTargets (targets : List ResolvedEndpoint) : Impl → Impl
  | .constructed _ => .constructed targets
  | .udp u => .udp { u with targetEndpoints := targets }
  | .tcp t => .tcp { t with targetEndpoints := targets }

/-- There is a thread in `ResolverLoop`. -/
def resolverLive : Impl → Bool
  | .constructed _ => false
  | .udp u => u.resolver != .exited
  | .tcp t => t.resolver != .exited

/-- There is a thread in `AcceptLoop`. -/
def acceptLive : Impl → Bool
  | .tcp t => t.accept != .exited
  | _ => false

/-- There is a thread in `UdpLoop`. -/
def udpLive : Impl → Bool
  | .udp u => u.udp != .exited
  | _ => false

end Impl

/-- The fields of a `Forwarder`. `resolverThread`, `acceptThread` and `udpThread` tell whether
the thread objects are joinable, `stopping` whether a call of `Stop` holds `state_mutex_`. -/
structure State where
  running : Bool := false
  impl : Impl := .constructed []
  resolverThread : Bool := false
  acceptThread : Bool := false
  udpThread : Bool := false
  implListening : UInt16 × String := (0, "")
  listening : UInt16 × String := (0, "")
  stopping : Bool := false
  message : Option String := none
  terminated : Bool := false

/-- How a call returns. The constructor counts as the first call. -/
inductive Return where
  | constructed
  | started
  | alreadyRunning
  | startFailed
  | stopped
  | notRunning
  deriving DecidableEq, Repr

/-- What a call that returns so has made of `running_`, if it has changed anything. -/
def Return.running : Return → Option Bool
  | .started => some true
  | .constructed | .stopped => some false
  | _ => none

inductive Action where
  | start (message : Option String) (calls : StartCalls)
  | stop
  | udp (a : Udp.Action)
  | tcp (a : TcpForwarder.Action)

/-- `listen_socket_`, `running_` and the threads, after a candidate has been kept. A thread
object that is joinable must not be assigned to. -/
def State.serve (p : Setup) (s : State) (calls : StartCalls) (i : Nat) (result : StartResult) :
    State × Option Return :=
  let worker := match p.protocol with
    | .tcp => s.acceptThread
    | .udp => s.udpThread
  if s.resolverThread || worker then ({ s with terminated := true }, none)
  else
    let listening := named s.implListening (calls.candidates i).getsockname
    ({ s with
      running := true
      impl := match p.protocol with
        -- the ids of the sessions go on from where they were; nothing here depends on them
        | .tcp => .tcp (TcpForwarder.started (some (calls.fd i)) result.targetEndpoints)
        | .udp => .udp (Udp.started (calls.fd i) calls.clock result.targetEndpoints)
      resolverThread := true
      acceptThread := s.acceptThread || p.protocol == .tcp
      udpThread := s.udpThread || p.protocol == .udp
      implListening := listening
      listening := listening
      message := result.message }, some .started)

/-- `Forwarder::Start`. -/
def State.start (p : Setup) (s : State) (message : Option String) (calls : StartCalls) :
    State × Option Return :=
  if s.running then
    ({ s with message := assign message "Forwarder already running." }, some .alreadyRunning)
  else
    let result := implStart p calls s.impl.targetEndpoints message
    match result.kept with
    | none =>
      ({ s with impl := s.impl.setTargets result.targetEndpoints, message := result.message },
        some .startFailed)
    | some i => s.serve p calls i result

/-- `Forwarder::Stop`, up to the point where `Impl::Stop` has found `running_` set. -/
def State.callStop (p : Setup) (s : State) : Option (State × Option Return) :=
  if !s.running then some (s, some .notRunning)
  else if !s.impl.running then some ({ s with running := false }, some .stopped)
  else
    match s.impl with
    | .constructed _ => none
    | .udp u =>
      ((Udp.forwarder p.udp).step u .callStop).map fun u =>
        ({ s with impl := .udp u, stopping := true }, none)
    | .tcp t =>
      ((TcpForwarder.forwarder p.tcp).step t .callStop).map fun t =>
        ({ s with impl := .tcp t, stopping := true }, none)

/-- A step of the threads. Where it is a `join`, a thread object ceases to be joinable. -/
def State.advance (s : State) (impl : Impl) (terminated : Bool)
    (joinedAccept joinedUdp joinedResolver : Bool) : State :=
  { s with
    impl := impl
    acceptThread := s.acceptThread && !joinedAccept
    udpThread := s.udpThread && !joinedUdp
    resolverThread := s.resolverThread && !joinedResolver
    terminated := terminated }

/-- The end of `Forwarder::Stop`, when `Impl::Stop` is done. -/
def State.finish (s : State) (done : Bool) : State × Option Return :=
  if s.stopping && done then ({ s with running := false, stopping := false }, some .stopped)
  else (s, none)

/-- A step of the threads of a UDP forwarder. -/
def State.udpStep (s : State) (u v : Udp.State) : State × Option Return :=
  (s.advance (.udp v) v.terminated false (u.stop == .joinUdp && v.stop != .joinUdp)
    (u.stop == .joinResolver && v.stop != .joinResolver)).finish (v.stop == .done)

/-- A step of the threads of a TCP forwarder. -/
def State.tcpStep (s : State) (t v : TcpForwarder.State) : State × Option Return :=
  (s.advance (.tcp v) v.terminated (t.stop == .joinAccept && v.stop != .joinAccept) false
    (t.stop == .joinResolver && v.stop != .joinResolver)).finish (v.stop == .done)

/-- A step of the threads, and how a call returns in it. -/
def call (p : Setup) (s : State) (action : Action) : Option (State × Option Return) :=
  if s.terminated then none
  else
    match action with
    -- `state_mutex_`
    | .start message calls => if s.stopping then none else some (s.start p message calls)
    | .stop => if s.stopping then none else s.callStop p
    | .udp a =>
      match s.impl with
      | .udp u =>
        if a = .callStop then none
        else ((Udp.forwarder p.udp).step u a).map (s.udpStep u)
      | _ => none
    | .tcp a =>
      match s.impl with
      | .tcp t =>
        if a = .callStop then none
        else ((TcpForwarder.forwarder p.tcp).step t a).map (s.tcpStep t)
      | _ => none

/-- The `Forwarder` from its construction on. -/
def object (p : Setup) : Machine State Action where
  Init s := s = {}
  step s action := (call p s action).map Prod.fst

/-- How a call returns in a step, if one does. -/
def returned (p : Setup) (s : State) (action : Action) : Option Return :=
  (call p s action).bind Prod.snd

/-- The `Forwarder` with the calls that have returned. -/
def called (p : Setup) : Machine (State × List Return) Action :=
  (object p).answered Return.running State.running (returned p)

theorem called_init (p : Setup) : (called p).Init ({}, [.constructed]) := ⟨rfl, _, rfl, rfl⟩

end PortForwardX.Forwarder
