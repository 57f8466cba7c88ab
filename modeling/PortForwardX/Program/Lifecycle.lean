import PortForwardX.Program.Main

/-!
# From `main` to its return

Which forwarders there are, which of them run and which have been stopped is settled by where
the main thread is. Whatever it returns, nothing is left running when it does.
-/
namespace PortForwardX.Program

open Transition Net
open Forwarder (Phase Consistent start_returns start_stopping thread_returns stop_waits)

/-- Threads can be started. -/
def startsThreads (s : State) : Action → Prop
  | .thread i a => ∀ r ∈ s.forwarders[i]?, Forwarder.startsThreads r.forwarder a
  | _ => True

instance decidableStartsThreads (s : State) : ∀ action, Decidable (startsThreads s action)
  | .thread i a =>
    inferInstanceAs (Decidable (∀ r ∈ s.forwarders[i]?, Forwarder.startsThreads r.forwarder a))
  | .main | .start _ | .signal => .isTrue trivial

variable {inv : Invocation} {s t : State} {action : Action}

/-! ### The steps of the process -/

/-- What a step can be. -/
inductive Move (inv : Invocation) (s : State) : Action → State → Prop
  | parse (pc : s.pc = .parse) : Move inv s .main (s.parse inv)
  | skipTcp {job : Job} (pc : s.pc = .startTcp job) (off : job.enableTcp = false) :
      Move inv s .main { s with pc := .startUdp job }
  | skipUdp {job : Job} (pc : s.pc = .startUdp job) (off : job.enableUdp = false) :
      Move inv s .main { s with pc := .announce job }
  | announce {job : Job} (pc : s.pc = .announce job) :
      Move inv s .main { s with
        pc := .wait job
        cout := s.cout ++ (announcement job s.forwarders).map fun line => ⟨line, false⟩ }
  | sleep {job : Job} (pc : s.pc = .wait job) (unasked : s.stopRequested = false) :
      Move inv s .main s
  | wake {job : Job} (pc : s.pc = .wait job) (asked : s.stopRequested = true) :
      Move inv s .main { s with pc := .stop 0 0 }
  | callStop {i code : Nat} {r : RunningForwarder} {f : Forwarder.State}
      {how : Option Forwarder.Return} (pc : s.pc = .stop i code) (here : s.forwarders[i]? = some r)
      (called : Forwarder.call (inv.setup r.config) r.forwarder .stop = some (f, how)) :
      Move inv s .main { s with
        pc := if how.isSome then .stop (i + 1) code else .inStop i code
        forwarders := s.forwarders.set i { r with forwarder := f } }
  | leave {i code : Nat} (pc : s.pc = .stop i code) (last : s.forwarders[i]? = none) :
      Move inv s .main { s with
        pc := .returned code
        cout := s.cout ++ if code = 0 then [⟨"Forwarding stopped.", false⟩] else [] }
  | startTcp {job : Job} {calls : Forwarder.StartCalls} (pc : s.pc = .startTcp job)
      (on : job.enableTcp = true) :
      Move inv s (.start calls) { (s.startForwarder inv job .tcp calls).1 with
        pc := if (s.startForwarder inv job .tcp calls).2 then .startUdp job else .returned 2 }
  | startUdp {job : Job} {calls : Forwarder.StartCalls} (pc : s.pc = .startUdp job)
      (on : job.enableUdp = true) :
      Move inv s (.start calls) { (s.startForwarder inv job .udp calls).1 with
        pc := if (s.startForwarder inv job .udp calls).2 then .announce job else .stop 0 2 }
  | thread {i : Nat} {a : Forwarder.Action} {r : RunningForwarder} {f : Forwarder.State}
      {how : Option Forwarder.Return} (isThread : a.ofThreads = true)
      (here : s.forwarders[i]? = some r)
      (called : Forwarder.call (inv.setup r.config) r.forwarder a = some (f, how)) :
      Move inv s (.thread i a) { s with
        pc := s.pc.afterThread i how
        forwarders := s.forwarders.set i { r with forwarder := f } }
  | signal : Move inv s .signal { s with stopRequested := true }

theorem step_move (moved : (process inv).step s action = some t) : Move inv s action t := by
  change step inv s action = some t at moved
  unfold step at moved
  split at moved
  · cases moved
  cases action with
  | main =>
    change s.main inv = some t at moved
    unfold State.main at moved
    split at moved
    next pc =>
      obtain rfl := Option.some.inj moved
      exact .parse pc
    next pc =>
      simp only [Option.ite_none_left_eq_some, Option.some.injEq] at moved
      obtain ⟨off, rfl⟩ := moved
      exact .skipTcp pc (by simpa using off)
    next pc =>
      simp only [Option.ite_none_left_eq_some, Option.some.injEq] at moved
      obtain ⟨off, rfl⟩ := moved
      exact .skipUdp pc (by simpa using off)
    next pc =>
      obtain rfl := Option.some.inj moved
      exact .announce pc
    next pc =>
      obtain rfl := Option.some.inj moved
      split
      next asked => exact .wake pc asked
      next unasked => exact .sleep pc (by simpa using unasked)
    next pc =>
      split at moved
      next last =>
        obtain rfl := Option.some.inj moved
        exact .leave pc last
      next here =>
        obtain ⟨⟨f, how⟩, called, rfl⟩ := Option.map_eq_some_iff.mp moved
        exact .callStop pc here called
    · cases moved
    · cases moved
  | start calls =>
    change s.start inv calls = some t at moved
    unfold State.start at moved
    split at moved
    next pc =>
      simp only [Option.ite_none_right_eq_some, Option.some.injEq] at moved
      obtain ⟨on, rfl⟩ := moved
      exact .startTcp pc on
    next pc =>
      simp only [Option.ite_none_right_eq_some, Option.some.injEq] at moved
      obtain ⟨on, rfl⟩ := moved
      exact .startUdp pc on
    · cases moved
  | thread i a =>
    simp only [Option.ite_none_right_eq_some] at moved
    obtain ⟨threads, moved⟩ := moved
    unfold State.thread at moved
    split at moved
    · cases moved
    next here =>
      obtain ⟨⟨f, how⟩, called, rfl⟩ := Option.map_eq_some_iff.mp moved
      exact .thread threads here called
  | signal =>
    simp only [Option.ite_none_right_eq_some, Option.some.injEq] at moved
    obtain ⟨-, rfl⟩ := moved
    exact .signal

/-! ### A forwarder of the process -/

/-- `start_forwarder` adds a forwarder that runs, or says which one could not be started. -/
theorem startForwarder_spec (inv : Invocation) (s : State) (job : Job)
    (protocol : TransportProtocol) (calls : Forwarder.StartCalls) :
    ((s.startForwarder inv job protocol calls).2 = true ∧ ∃ f : Forwarder.State,
      (s.startForwarder inv job protocol calls).1 =
        { s with forwarders := s.forwarders ++ [⟨job.configFor protocol, f⟩] } ∧
      ({} : Forwarder.State).start (inv.setup (job.configFor protocol)) (some "") calls =
        (f, some .started) ∧
      Phase (inv.setup (job.configFor protocol)) f ∧ f.terminated = f.impl.terminated ∧
      f.running = true ∧ f.stopping = false) ∨
    ((s.startForwarder inv job protocol calls).2 = false ∧ ∃ text,
      (s.startForwarder inv job protocol calls).1 = { s with
        cerr := s.cerr ++ [⟨"Failed to start " ++ transportProtocolToString protocol ++
          " forwarder: " ++ text, false⟩] }) := by
  -- the `Forwarder` is new, so nothing of it runs
  have fresh : Phase (inv.setup (job.configFor protocol)) ({} : Forwarder.State) :=
    .ended trivial rfl rfl rfl rfl rfl
  obtain ⟨phase, alive, inner⟩ := Forwarder.start_phase (some "") calls fresh rfl rfl
  have returns := start_returns alive
  have running :=
    @Forwarder.start_running (inv.setup (job.configFor protocol)) {} (some "") calls
  have stopping := @start_stopping (inv.setup (job.configFor protocol)) {} (some "") calls
  unfold State.startForwarder
  dsimp only
  generalize Forwarder.State.start _ _ _ _ = result at *
  obtain ⟨f, how⟩ := result
  cases how with
  | none => exact absurd rfl returns
  | some how =>
    cases how with
    | started =>
      exact .inl ⟨rfl, f, rfl, rfl, phase, alive.trans inner.symm, running, stopping⟩
    | _ => exact .inr ⟨rfl, _, rfl⟩

/-! ### What `main` knows -/

/-- What has become of a forwarder that `main` has started. -/
inductive Use where
  | on
  | inStop
  | off

def Use.Fits (f : Forwarder.State) : Use → Prop
  | .on => f.running = true ∧ f.stopping = false
  | .inStop => f.running = true ∧ f.stopping = true
  | .off => f.running = false

/-- What has become of the `k`-th forwarder when `main` is at a control point. -/
def Pc.use (k : Nat) : Pc → Use
  | .stop i _ => if k < i then .off else .on
  | .inStop i _ => if k < i then .off else if k = i then .inStop else .on
  | .returned _ => .off
  | _ => .on

theorem Use.Fits.congr {f f' : Forwarder.State} {use : Use} (fits : use.Fits f)
    (running : f'.running = f.running) (stopping : f'.stopping = f.stopping) : use.Fits f' := by
  cases use <;> simpa [Use.Fits, running, stopping] using fits

theorem Pc.afterThread_none (i : Nat) (pc : Pc) : pc.afterThread i none = pc := by
  cases pc <;> simp [afterThread]

theorem Pc.use_eq_inStop {pc : Pc} {i : Nat} :
    pc.use i = .inStop ↔ ∃ code, pc = .inStop i code := by
  cases pc with
  | inStop j code =>
    rcases lt_trichotomy i j with less | rfl | more
    · simp [use, less, Nat.ne_of_gt less]
    · simp [use]
    · simp [use, Nat.not_lt_of_gt more, Nat.ne_of_lt more, Nat.ne_of_gt more]
  | stop j code => by_cases before : i < j <;> simp [use, before]
  | _ => simp [use]

theorem Pc.use_afterThread {pc : Pc} {i k : Nat} {how : Option Forwarder.Return} (other : k ≠ i) :
    (pc.afterThread i how).use k = pc.use k := by
  cases pc with
  | inStop j code =>
    unfold afterThread
    dsimp only
    split
    next returned =>
      obtain ⟨rfl, -⟩ := returned
      have same : k < i + 1 ↔ k < i := by omega
      simp only [use, same, other, if_false]
    · rfl
  | _ => rfl

/-- Every forwarder is in the state in which `main` believes it to be. -/
def Supervised (inv : Invocation) (s : State) : Prop :=
  ∀ k r, s.forwarders[k]? = some r → Phase (inv.setup r.config) r.forwarder ∧
    r.forwarder.terminated = r.forwarder.impl.terminated ∧ (s.pc.use k).Fits r.forwarder

/-- A TCP session of some forwarder is at a `Send` on a broken connection, on a platform where
that ends the process. -/
def Signalled (inv : Invocation) (s : State) : Prop :=
  ∃ r ∈ s.forwarders, Forwarder.Signalled (inv.setup r.config) r.forwarder

/-- Where threads can be started only a signal ends the process. -/
theorem Supervised.signalled (supervised : Supervised inv s) (ended : s.aborted = true) :
    Signalled inv s := by
  obtain ⟨r, member, ended⟩ := List.any_eq_true.mp ended
  obtain ⟨k, here⟩ := List.mem_iff_getElem?.mp member
  obtain ⟨phase, agrees, -⟩ := supervised k r here
  exact ⟨r, member, phase.signalled (agrees.symm.trans ended)⟩

/-- One forwarder has moved, and with it perhaps `main`. -/
theorem Supervised.set {i : Nat} {r : RunningForwarder} {f : Forwarder.State} {pc : Pc}
    (supervised : Supervised inv s) (here : s.forwarders[i]? = some r)
    (phase : Phase (inv.setup r.config) f) (agrees : f.terminated = f.impl.terminated)
    (fits : (pc.use i).Fits f) (others : ∀ k, k ≠ i → pc.use k = s.pc.use k) :
    Supervised inv { s with
      pc := pc
      forwarders := s.forwarders.set i { r with forwarder := f } } := by
  intro k q found
  dsimp only at found ⊢
  by_cases same : k = i
  · subst same
    rw [List.getElem?_set_self (List.getElem?_eq_some_iff.mp here).1] at found
    obtain rfl := Option.some.inj found
    exact ⟨phase, agrees, fits⟩
  · rw [List.getElem?_set_ne (Ne.symm same)] at found
    obtain ⟨phase, agrees, fits⟩ := supervised k q found
    exact ⟨phase, agrees, others k same ▸ fits⟩

theorem Supervised.congr (supervised : Supervised inv s) (same : t.forwarders = s.forwarders)
    (uses : ∀ k < s.forwarders.length, t.pc.use k = s.pc.use k) : Supervised inv t := by
  intro k r found
  rw [same] at found
  obtain ⟨phase, agrees, fits⟩ := supervised k r found
  exact ⟨phase, agrees, uses k (List.getElem?_eq_some_iff.mp found).1 ▸ fits⟩

theorem Supervised.push {r : RunningForwarder} (supervised : Supervised inv s)
    (same : t.forwarders = s.forwarders ++ [r]) (phase : Phase (inv.setup r.config) r.forwarder)
    (agrees : r.forwarder.terminated = r.forwarder.impl.terminated)
    (fits : (t.pc.use s.forwarders.length).Fits r.forwarder)
    (uses : ∀ k < s.forwarders.length, t.pc.use k = s.pc.use k) : Supervised inv t := by
  intro k q found
  rw [same] at found
  rcases Nat.lt_or_ge k s.forwarders.length with old | new
  · rw [List.getElem?_append_left old] at found
    obtain ⟨phase, agrees, fits⟩ := supervised k q found
    exact ⟨phase, agrees, uses k old ▸ fits⟩
  · have bound := (List.getElem?_eq_some_iff.mp found).1
    rw [List.length_append, List.length_singleton] at bound
    obtain rfl : k = s.forwarders.length := by omega
    rw [List.getElem?_concat_length] at found
    obtain rfl := Option.some.inj found
    exact ⟨phase, agrees, fits⟩

theorem parse_forwarders : (s.parse inv).forwarders = s.forwarders := by
  unfold State.parse
  split
  · rfl
  · split
    · rfl
    · split <;> rfl

theorem step_supervised (supervised : Supervised inv s) (starts : startsThreads s action)
    (unstarted : s.pc = .parse ∨ (∃ job, s.pc = .startTcp job) → s.forwarders = [])
    (moved : (process inv).step s action = some t) : Supervised inv t := by
  cases step_move moved with
  | parse pc =>
    -- nothing has been started yet
    refine supervised.congr parse_forwarders ?_
    simp [unstarted (.inl pc)]
  | skipTcp pc | skipUdp pc | announce pc | wake pc =>
    exact supervised.congr rfl fun k _ => by simp [Pc.use, pc]
  | sleep => exact supervised
  | signal => exact supervised.congr rfl fun _ _ => rfl
  | leave pc last =>
    refine supervised.congr rfl fun k within => ?_
    have before := List.getElem?_eq_none_iff.mp last
    simp [Pc.use, pc, lt_of_lt_of_le within before]
  | @callStop i code r f how pc here called =>
    obtain ⟨phase, agrees, fits⟩ := supervised i r here
    have on : r.forwarder.running = true ∧ r.forwarder.stopping = false := by
      simpa [Pc.use, pc, Use.Fits] using fits
    -- the call cannot return at once: it has threads to wait for
    obtain ⟨rfl, running, stopping⟩ := stop_waits phase on.1 on.2 called
    have unasked : Forwarder.startsThreads r.forwarder .stop := by
      unfold Forwarder.startsThreads
      split <;> trivial
    obtain ⟨phase, agrees⟩ := Forwarder.call_phase phase agrees unasked called
    refine supervised.set here phase agrees (by simp [Pc.use, Use.Fits, running, stopping]) ?_
    intro k other
    simp [Pc.use, pc, other]
  | @startTcp job calls pc on =>
    have none_ := unstarted (.inr ⟨job, pc⟩)
    rcases startForwarder_spec inv s job .tcp calls with
      ⟨ok, f, same, -, phase, agrees, flags⟩ | ⟨failed, text, same⟩
    · exact supervised.push (by rw [same]) phase agrees (by simpa [ok, Pc.use, Use.Fits] using flags)
        (by simp [none_])
    · -- `main` returns, and there is nothing to stop
      exact supervised.congr (by rw [same]) (by simp [none_])
  | @startUdp job calls pc on =>
    rcases startForwarder_spec inv s job .udp calls with
      ⟨ok, f, same, -, phase, agrees, flags⟩ | ⟨failed, text, same⟩
    · exact supervised.push (by rw [same]) phase agrees (by simpa [ok, Pc.use, Use.Fits] using flags)
        fun k _ => by simp [ok, Pc.use, pc]
    · -- the TCP forwarder, if there is one, runs on until the last loop stops it
      exact supervised.congr (by rw [same]) fun k _ => by simp [failed, Pc.use, pc]
  | @thread i a r f how threads here called =>
    obtain ⟨before, agrees, fits⟩ := supervised i r here
    obtain ⟨phase, agrees⟩ := Forwarder.call_phase before agrees (starts r here) called
    refine supervised.set here phase agrees ?_ fun k other => Pc.use_afterThread other
    rcases thread_returns threads called with
      ⟨rfl, running, stopping⟩ | ⟨rfl, called, running, stopping⟩
    · rw [Pc.afterThread_none]
      exact fits.congr running stopping
    · -- only a `Stop` that `main` waits for can return
      cases use : s.pc.use i with
      | inStop =>
        obtain ⟨code, pc⟩ := Pc.use_eq_inStop.mp use
        simpa [pc, Pc.afterThread, Pc.use, Use.Fits] using running
      | on =>
        rw [use] at fits
        exact absurd (fits.2.symm.trans called) Bool.false_ne_true
      | off =>
        rw [use] at fits
        exact absurd ((before.free fits).symm.trans called) Bool.false_ne_true

/-! ### What `main` has done -/

/-- The command line asks for a job. -/
def Invocation.Makes (inv : Invocation) (job : Job) : Prop :=
  ∃ o, inv.arguments = .ok o ∧ o.help = false ∧ o.configure = .ok job

def State.configs (s : State) : List ForwardConfig := s.forwarders.map RunningForwarder.config

/-- Why `main` returns a code: it was asked for help, it refuses the command line, a forwarder
could not be started, or a signal has come. -/
inductive Ending (inv : Invocation) (s : State) : Nat → Prop
  | help {o : Options} (arguments : inv.arguments = .ok o) (help : o.help = true)
      (idle : s.configs = []) (silent : s.cerr = []) : Ending inv s 0
  | refused (unhelpful : ∀ o, inv.arguments = .ok o → o.help = false)
      (unmade : ∀ job, ¬ inv.Makes job) (idle : s.configs = [])
      (said : ∃ notice, s.cerr = [notice]) : Ending inv s 1
  | failed {job : Job} (protocol : TransportProtocol) (text : String) (made : inv.Makes job)
      (asked : protocol ∈ job.protocols)
      (before : s.configs = (job.protocols.takeWhile (· ≠ protocol)).map job.configFor)
      (said : s.cerr = [⟨"Failed to start " ++ transportProtocolToString protocol ++
        " forwarder: " ++ text, false⟩]) : Ending inv s 2
  | stopped {job : Job} (made : inv.Makes job) (all : s.configs = job.protocols.map job.configFor)
      (requested : s.stopRequested = true) (silent : s.cerr = []) : Ending inv s 0

/-- What `main` has done when it is at a control point. -/
def Pc.Story (inv : Invocation) (s : State) : Pc → Prop
  | .parse => s.configs = [] ∧ s.cerr = []
  | .startTcp job => inv.Makes job ∧ s.configs = [] ∧ s.cerr = []
  | .startUdp job => inv.Makes job ∧
      s.configs = (if job.enableTcp then [job.configFor .tcp] else []) ∧ s.cerr = []
  | .announce job | .wait job => inv.Makes job ∧
      s.configs = job.protocols.map job.configFor ∧ s.cerr = []
  | .stop _ code | .inStop _ code | .returned code => Ending inv s code

theorem Ending.congr {code : Nat} (ending : Ending inv s code) (configs : t.configs = s.configs)
    (cerr : t.cerr = s.cerr) (requested : s.stopRequested = true → t.stopRequested = true) :
    Ending inv t code := by
  cases ending with
  | help arguments help idle silent =>
    exact .help arguments help (configs.trans idle) (cerr.trans silent)
  | refused unhelpful unmade idle said =>
    exact .refused unhelpful unmade (configs.trans idle) (cerr ▸ said)
  | failed protocol text made asked before said =>
    exact .failed protocol text made asked (configs.trans before) (cerr.trans said)
  | stopped made all asked silent =>
    exact .stopped made (configs.trans all) (requested asked) (cerr.trans silent)

theorem Pc.Story.congr {pc : Pc} (story : pc.Story inv s) (configs : t.configs = s.configs)
    (cerr : t.cerr = s.cerr) (requested : s.stopRequested = true → t.stopRequested = true) :
    pc.Story inv t := by
  cases pc with
  | stop | inStop | returned => exact Ending.congr story configs cerr requested
  | _ => simpa only [Story, configs, cerr] using story

theorem Pc.Story.afterThread {pc : Pc} (story : pc.Story inv s) (i : Nat)
    (how : Option Forwarder.Return) : (pc.afterThread i how).Story inv s := by
  cases pc with
  | inStop j code =>
    unfold Pc.afterThread
    dsimp only
    split <;> exact story
  | _ => exact story

theorem configs_set {i : Nat} {r : RunningForwarder} {f : Forwarder.State}
    (here : s.forwarders[i]? = some r) :
    (s.forwarders.set i { r with forwarder := f }).map RunningForwarder.config = s.configs := by
  obtain ⟨within, rfl⟩ := List.getElem?_eq_some_iff.mp here
  rw [List.map_set, State.configs]
  apply List.ext_getElem (by simp)
  simp only [List.getElem_set, List.getElem_map]
  intro k _ _
  split
  next same => subst same; rfl
  · rfl

theorem parse_story (story : Pc.Story inv s .parse) : (s.parse inv).pc.Story inv (s.parse inv) := by
  obtain ⟨idle, silent⟩ := story
  unfold State.parse
  split
  next what unread =>
    exact .refused (by simp [unread]) (by simp [Invocation.Makes, unread]) idle
      ⟨_, by rw [State.refuse, silent]; rfl⟩
  next o read =>
    split
    next help => exact .help read help idle silent
    next unhelpful =>
      split
      next notice refused =>
        exact .refused (by simpa [read] using unhelpful)
          (by simp [Invocation.Makes, read, refused]) idle ⟨_, by rw [State.refuse, silent]; rfl⟩
      next job made => exact ⟨⟨o, read, by simpa using unhelpful, made⟩, idle, silent⟩

theorem step_story (story : s.pc.Story inv s)
    (moved : (process inv).step s action = some t) : t.pc.Story inv t := by
  cases step_move moved with
  | parse pc =>
    rw [pc] at story
    exact parse_story story
  | skipTcp pc off =>
    rw [pc] at story
    obtain ⟨made, idle, silent⟩ := story
    exact ⟨made, by rw [off]; exact idle, silent⟩
  | skipUdp pc off =>
    rw [pc] at story
    obtain ⟨made, configs, silent⟩ := story
    refine ⟨made, ?_, silent⟩
    rw [Job.protocols, off]
    change s.configs = _
    rw [configs]
    split <;> rfl
  | announce pc =>
    rw [pc] at story
    exact story
  | sleep => exact story
  | wake pc asked =>
    rw [pc] at story
    obtain ⟨made, configs, silent⟩ := story
    exact .stopped made configs asked silent
  | @callStop i code r f how pc here called =>
    rw [pc] at story
    dsimp only
    split <;> exact Ending.congr story (configs_set here) rfl id
  | leave pc last =>
    rw [pc] at story
    exact Ending.congr story rfl rfl id
  | signal => exact story.congr rfl rfl fun _ => rfl
  | @thread i a r f how threads here called =>
    exact (story.afterThread i how).congr (configs_set here) rfl id
  | @startTcp job calls pc on =>
    rw [pc] at story
    obtain ⟨made, idle, silent⟩ := story
    rcases startForwarder_spec inv s job .tcp calls with
      ⟨ok, f, same, -⟩ | ⟨failed, text, same⟩
    · rw [same, ok]
      refine ⟨made, ?_, silent⟩
      rw [if_pos on, State.configs, List.map_append]
      exact congrArg (· ++ [job.configFor .tcp]) idle
    · rw [same, failed]
      refine Ending.failed .tcp text made (by simp [Job.protocols, on]) ?_ ?_
      · rw [Job.protocols, if_pos on]
        exact idle
      · dsimp only
        rw [silent]
        rfl
  | @startUdp job calls pc on =>
    rw [pc] at story
    obtain ⟨made, configs, silent⟩ := story
    rcases startForwarder_spec inv s job .udp calls with
      ⟨ok, f, same, -⟩ | ⟨failed, text, same⟩
    · rw [same, ok]
      refine ⟨made, ?_, silent⟩
      rw [Job.protocols, if_pos on, State.configs, List.map_append]
      change s.configs ++ _ = _
      rw [configs]
      split <;> rfl
    · rw [same, failed]
      refine Ending.failed .udp text made (by simp [Job.protocols, on]) ?_ ?_
      · rw [Job.protocols, if_pos on]
        change s.configs = _
        rw [configs]
        split <;> rfl
      · dsimp only
        rw [silent]
        rfl

/-! ### Runs -/

theorem Pc.Story.unstarted (story : s.pc.Story inv s)
    (early : s.pc = .parse ∨ ∃ job, s.pc = .startTcp job) : s.forwarders = [] := by
  rw [← List.map_eq_nil_iff]
  rcases early with pc | ⟨job, pc⟩
  · rw [pc] at story
    exact story.1
  · rw [pc] at story
    exact story.2.1

theorem main_reached (reached : (process inv).Reach startsThreads s) :
    Supervised inv s ∧ s.pc.Story inv s := by
  induction reached with
  | start init =>
    obtain rfl : _ = ({} : State) := init
    exact ⟨fun k r found => by simp at found, rfl, rfl⟩
  | next _ starts moved ih =>
    exact ⟨step_supervised ih.1 starts ih.2.unstarted moved, step_story ih.2 moved⟩

/-- Both protocols, in the custom mode. -/
def sample : Invocation where
  arguments := .ok
    { protocol := "Both"
      listenPort := some 5300
      targetPort := some 53
      targetHost := some "198.51.100.7" }
  version := "1.0.0"
  platform := .posix
  getnameinfo := Udp.Sample.setup.getnameinfo

/-- The threads of a TCP forwarder that has no session, when it is told to stop. -/
def tcpStops : List Forwarder.Action :=
  ((([.none, .order [], .none, .none, .none, .none] : List TcpForwarder.Answer).map .accept ++
    .resolver .none ::
    ([.none, .none, .none, .none, .none, .none, .order [], .none, .none, .none, .none, .none, .none,
      .none, .none] : List TcpForwarder.Answer).map .stop) : List TcpForwarder.Action).map .tcp

/-- The threads of a UDP forwarder that has no session, when it is told to stop. -/
def udpStops : List Forwarder.Action :=
  ([.udp .none, .udp .none, .udp (.order []), .udp .none, .udp .none, .resolver .none,
    .stop .none, .stop .none, .stop .none, .stop .none, .stop .none, .stop (.order []),
    .stop .none, .stop .none] : List Udp.Action).map .udp

/-- Both forwarders are started, a signal comes and both are stopped. -/
def serveBoth : List Action :=
  [.main, .start (Forwarder.answers true), .start (Forwarder.answers true), .main, .signal, .main,
    .main] ++ tcpStops.map (.thread 0) ++ .main :: udpStops.map (.thread 1) ++ [.main]

end PortForwardX.Program
