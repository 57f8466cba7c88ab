import PortForwardX.Forwarder.Resolution
import PortForwardX.Program.Lifecycle

/-!
# What is asked for is what is served

The families that a mode chooses decide which addresses the sockets of a running forwarder have,
at its start and after every later resolution.
-/
namespace PortForwardX.Program

open Transition Net Selection

variable {inv : Invocation} {s t : State} {action : Action} {ok : State → Action → Prop}

/-- Targets that a forwarder with a configuration may have. -/
structure Targeted (config : Net.ForwardConfig) (targets : List ResolvedEndpoint) : Prop where
  nonempty : targets ≠ []
  family : effectiveTargetFamily config ≠ .auto →
    ∀ endpoint ∈ targets, endpoint.family = toNativeFamily (effectiveTargetFamily config)

theorem Targeted.of_usable {config : Net.ForwardConfig} {targets : List ResolvedEndpoint}
    {outcome : GetAddrInfo} (usable : usableTargets config outcome = some targets) :
    Targeted config targets := by
  obtain ⟨rfl, nonempty⟩ := usableTargets_eq_some.mp usable
  exact ⟨nonempty, fun explicit endpoint member => (mem_sortEndpoints member).2 explicit⟩

/-- A socket that a forwarder with a configuration may listen on: the descriptor of a candidate
for which every call of `Start` has succeeded. -/
def ListensOn (config : ForwardConfig) (calls : Forwarder.StartCalls) (socket : SocketHandle) :
    Prop :=
  ∃ i endpoint, socket = some (calls.fd i) ∧
    (sortEndpoints (resolve config.listenHost calls.listen).1
      (effectiveListenFamily config.toForwardConfig))[i]? = some endpoint ∧
    (calls.candidates i).trial config.protocol = .accepted ∧
    (effectiveListenFamily config.toForwardConfig ≠ .auto →
      endpoint.family = toNativeFamily (effectiveListenFamily config.toForwardConfig))

theorem startForwarder_opens (inv : Invocation) (s : State) (job : Job)
    (protocol : TransportProtocol) (calls : Forwarder.StartCalls) :
    (s.startForwarder inv job protocol calls).1.forwarders = s.forwarders ∨
    ∃ f, (s.startForwarder inv job protocol calls).1.forwarders =
        s.forwarders ++ [⟨job.configFor protocol, f⟩] ∧
      Targeted (job.configFor protocol).toForwardConfig f.impl.targetEndpoints ∧
      ListensOn (job.configFor protocol) calls f.impl.listenSocket := by
  rcases startForwarder_spec inv s job protocol calls with
    ⟨ok, f, same, result, -⟩ | ⟨failed, text, same⟩
  · have started := Forwarder.start_started (congrArg Prod.snd result)
    rw [result] at started
    obtain ⟨i, kept, socket, targets⟩ := started
    obtain ⟨usable, endpoint, here, accepted⟩ := Forwarder.implStart_kept kept
    rw [← targets] at usable
    exact .inr ⟨f, by rw [same], .of_usable usable, i, endpoint, socket, here, accepted,
      (mem_sortEndpoints (List.mem_of_getElem? here)).2⟩
  · exact .inl (by rw [same])

/-- The targets of every forwarder are such as its configuration allows. -/
theorem targeted_reached (reached : (process inv).Reach ok s) :
    ∀ r ∈ s.forwarders, Targeted r.config.toForwardConfig r.forwarder.impl.targetEndpoints := by
  induction reached with
  | start init =>
    obtain rfl : _ = ({} : State) := init
    simp
  | @next s t a _ _ moved ih =>
    have unmoved (same : t.forwarders = s.forwarders) : ∀ r ∈ t.forwarders,
        Targeted r.config.toForwardConfig r.forwarder.impl.targetEndpoints := by
      rw [same]
      exact ih
    -- a forwarder that has just been started comes last
    have pushed {job : Job} {protocol : TransportProtocol} {calls : Forwarder.StartCalls}
        (same : t.forwarders = (s.startForwarder inv job protocol calls).1.forwarders) :
        ∀ r ∈ t.forwarders,
          Targeted r.config.toForwardConfig r.forwarder.impl.targetEndpoints := by
      rcases startForwarder_opens inv s job protocol calls with still | ⟨f, new, targeted, -⟩
      · exact unmoved (same.trans still)
      · rw [same, new]
        intro r member
        rcases List.mem_append.mp member with old | last
        · exact ih r old
        · rw [List.mem_singleton.mp last]
          exact targeted
    -- a forwarder that takes a step keeps its targets or takes those of a resolution
    have advanced {i : Nat} {r : RunningForwarder} {f : Forwarder.State} {b : Forwarder.Action}
        {how : Option Forwarder.Return} (here : s.forwarders[i]? = some r)
        (called : Forwarder.call (inv.setup r.config) r.forwarder b = some (f, how))
        (other : ∀ message calls, b ≠ .start message calls)
        (same : t.forwarders = s.forwarders.set i { r with forwarder := f }) :
        ∀ r ∈ t.forwarders,
          Targeted r.config.toForwardConfig r.forwarder.impl.targetEndpoints := by
      rw [same]
      intro q member
      rcases List.mem_or_eq_of_mem_set member with old | rfl
      · exact ih q old
      · rcases (Forwarder.call_inside other called).targets with kept | ⟨outcome, usable⟩
        · have before := ih r (List.mem_of_getElem? here)
          rw [← kept] at before
          exact before
        · exact .of_usable usable
    cases step_move moved with
    | parse => exact unmoved parse_forwarders
    | skipTcp | skipUdp | announce | sleep | wake | leave | signal => exact unmoved rfl
    | startTcp | startUdp => exact pushed rfl
    | callStop pc here called => exact advanced here called (by simp) rfl
    | thread threads here called =>
      refine advanced here called (fun message calls start => ?_) rfl
      rw [start] at threads
      cases threads

theorem story_reached (reached : (process inv).Reach ok s) : s.pc.Story inv s := by
  induction reached with
  | start init =>
    obtain rfl : _ = ({} : State) := init
    exact ⟨rfl, rfl⟩
  | next _ _ moved ih => exact step_story ih moved

/-- Every forwarder has been made for the job, for one of its protocols. -/
theorem Pc.Story.made (story : s.pc.Story inv s) {r : RunningForwarder}
    (member : r ∈ s.forwarders) :
    ∃ job, inv.Makes job ∧ ∃ protocol ∈ job.protocols, r.config = job.configFor protocol := by
  have config : r.config ∈ s.configs := List.mem_map_of_mem member
  have all {job : Job} {protocols : List TransportProtocol} (made : inv.Makes job)
      (some_ : ∀ protocol ∈ protocols, protocol ∈ job.protocols)
      (configs : s.configs = protocols.map job.configFor) :
      ∃ job, inv.Makes job ∧ ∃ protocol ∈ job.protocols, r.config = job.configFor protocol := by
    rw [configs] at config
    obtain ⟨protocol, member, same⟩ := List.mem_map.mp config
    exact ⟨job, made, protocol, some_ protocol member, same.symm⟩
  have ended {code : Nat} (ending : Ending inv s code) :
      ∃ job, inv.Makes job ∧ ∃ protocol ∈ job.protocols, r.config = job.configFor protocol := by
    cases ending with
    | help arguments help idle => simp [idle] at config
    | refused unhelpful unmade idle => simp [idle] at config
    | failed protocol text made asked before =>
      exact all made (fun _ member => (List.takeWhile_prefix _).subset member) before
    | stopped made same => exact all made (fun _ => id) same
  cases pc : s.pc with
  | parse => rw [pc] at story; simp [story.1] at config
  | startTcp job => rw [pc] at story; simp [story.2.1] at config
  | startUdp job =>
    rw [pc] at story
    by_cases on : job.enableTcp = true
    · refine all story.1 (fun protocol (member : protocol ∈ [.tcp]) => ?_) ?_
      · simp [Job.protocols, on, List.mem_singleton.mp member]
      · rw [story.2.1, if_pos on]
        rfl
    · simp [story.2.1, on] at config
  | announce job | wait job =>
    rw [pc] at story
    exact all story.1 (fun _ => id) story.2.1
  | stop | inStop | returned =>
    rw [pc] at story
    exact ended story

/-- The forwarder is one that the command line asks for. -/
def Asked (inv : Invocation) (config : ForwardConfig) : Prop :=
  ∃ o, inv.arguments = .ok o ∧ o.Asks config ∧
    lowered o.protocol ∈ [transportProtocolToString config.protocol, "both"]

theorem asked_of_made {job : Job} {protocol : TransportProtocol} (made : inv.Makes job)
    (served : protocol ∈ job.protocols) : Asked inv (job.configFor protocol) := by
  obtain ⟨o, arguments, -, configured⟩ := made
  obtain ⟨-, asks, input⟩ := (configure_spec o).2 job configured
  exact ⟨o, arguments, asks.remaining protocol _ _ _, input ▸ (job.mem_protocols protocol).mp served⟩

/-- In every run of the process, whatever the resolutions answer, every forwarder is one that the
command line asks for, and its targets are of the family that the mode asks for on that side. A
`Start` that succeeds listens on an address of the family asked for on the other side. So a
server that is given no family listens on an IPv6 address, and such a client listens on an IPv4
address and has IPv6 targets only. -/
theorem forwards_as_asked (reached : (process inv).Reach ok s) :
    (∀ r ∈ s.forwarders, Asked inv r.config ∧
      Targeted r.config.toForwardConfig r.forwarder.impl.targetEndpoints) ∧
    ∀ calls t, (process inv).step s (.start calls) = some t → t.forwarders = s.forwarders ∨
      ∃ r, t.forwarders = s.forwarders ++ [r] ∧ Asked inv r.config ∧
        ListensOn r.config calls r.forwarder.impl.listenSocket := by
  have story := story_reached reached
  refine ⟨fun r member => ⟨?_, targeted_reached reached r member⟩, fun calls t moved => ?_⟩
  · obtain ⟨job, made, protocol, served, config⟩ := story.made member
    exact config ▸ asked_of_made made served
  · cases step_move moved with
    | @startTcp job _ pc on =>
      rw [pc] at story
      rcases startForwarder_opens inv s job .tcp calls with still | ⟨f, new, -, listens⟩
      · exact .inl still
      · exact .inr ⟨_, new, asked_of_made story.1 (by simp [Job.protocols, on]), listens⟩
    | @startUdp job _ pc on =>
      rw [pc] at story
      rcases startForwarder_opens inv s job .udp calls with still | ⟨f, new, -, listens⟩
      · exact .inl still
      · exact .inr ⟨_, new, asked_of_made story.1 (by simp [Job.protocols, on]), listens⟩

/-- A UDP server, in the mode of that name and without a family. -/
def server : Invocation where
  arguments := .ok
    { mode := "server"
      protocol := "UDP"
      publicListenPort := some 5300
      lanTargetPort := some 53 }
  version := "1.0.0"
  platform := .posix
  getnameinfo := Udp.Sample.setup.getnameinfo

/-- The listen host has an address of either family. -/
def bothFamilies : Forwarder.StartCalls :=
  { Forwarder.answers true with
    listen := .found [⟨.inet, some Udp.Sample.alice.bytes⟩, ⟨.inet6, some [10, 0, 0, 53]⟩] }

theorem forwards_as_asked_server :
    ∃ s t, (process server).Reach Machine.anyStep s ∧
      (process server).step s (.start bothFamilies) = some t ∧ t.forwarders.length = 1 ∧
      ∃ r, t.forwarders = s.forwarders ++ [r] ∧ Asked server r.config ∧
        ListensOn r.config bothFamilies r.forwarder.impl.listenSocket := by
  have result : ((process server).run {} [.main, .main]).map (fun s =>
      s.forwarders.isEmpty && (((process server).step s (.start bothFamilies)).map
        fun t => t.forwarders.length) == some 1) = some true := by
    decide +kernel
  obtain ⟨s, run, seen⟩ := Option.map_eq_some_iff.mp result
  rw [Bool.and_eq_true, beq_iff_eq, List.isEmpty_iff] at seen
  obtain ⟨none_, seen⟩ := seen
  obtain ⟨t, moved, one⟩ := Option.map_eq_some_iff.mp seen
  have reached : (process server).Reach Machine.anyStep s := Machine.Reach.run (.start rfl) run
  refine ⟨s, t, reached, moved, one, ?_⟩
  rcases (forwards_as_asked reached).2 bothFamilies t moved with still | started
  · rw [still, none_] at one
    cases one
  · exact started

end PortForwardX.Program
