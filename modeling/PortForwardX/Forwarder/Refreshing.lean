import PortForwardX.Forwarder.Termination

/-!
# The target is resolved again and again

`ResolverLoop` runs for as long as the forwarder does: short of the end of the process nothing but
`Stop` ends it, neither an answer that is of no use nor anything that happens to clients.
-/
namespace PortForwardX.Forwarder

open Transition Net

variable {p : Setup} {f f' : State} {how : Option Return} {a : Action}

/-- Where the resolver thread of the forwarder inside is in `ResolverLoop`. -/
def Impl.resolver : Impl → ResolverPc
  | .constructed _ => .exited
  | .udp u => u.resolver
  | .tcp t => t.resolver

/-- The action is a step of the resolver thread. -/
def Action.ofResolver : Action → Bool
  | .udp (.resolver _) | .tcp (.resolver _) => true
  | _ => false

/-- What the resolver thread is told about its target. -/
def Action.answer : Action → Option GetAddrInfo
  | .udp (.resolver (.resolved outcome)) | .tcp (.resolver (.resolved outcome)) => some outcome
  | _ => none

/-- The forwarder takes an answer: it serves from the endpoints that are usable, or if there are
none from those it had. -/
def Takes (p : Setup) (f f' : State) (a : Action) : Prop :=
  ∃ outcome, a.answer = some outcome ∧ f'.impl.targetEndpoints =
    (usableTargets p.config outcome).getD f.impl.targetEndpoints

/-! ### A step of the resolver thread -/

/-- A step of `ResolverLoop` while the forwarder runs, from `pc` to `pc'`. -/
def Loops (p : Setup) (f f' : State) (a : Action) (pc pc' : ResolverPc) : Prop :=
  pc.next p.config true = some pc' ∨ (pc = .refresh ∧ Takes p f f' a)

theorem udp_loops {u v : Udp.State} {b : Udp.Answer} (impl : f.impl = .udp u)
    (impl' : f'.impl = .udp v) (on : u.running = true)
    (moved : (Udp.forwarder p.udp).step u (.resolver b) = some v) :
    Loops p f f' (.udp (.resolver b)) u.resolver v.resolver := by
  have stepped := Udp.step_resolver moved
  obtain ⟨targets, next | ⟨pc, -⟩⟩ := Udp.resolverStep_resolves stepped
  · rw [on] at next
    exact .inl next
  · right
    refine ⟨pc, ?_⟩
    cases b with
    | resolved outcome =>
      refine ⟨outcome, rfl, ?_⟩
      rw [Udp.resolution, if_pos pc, Option.bind_some] at targets
      rw [impl, impl']
      exact targets
    | _ => simp [Udp.resolverStep, pc] at stepped

theorem tcp_loops {u v : TcpForwarder.State} {b : TcpForwarder.Answer} (impl : f.impl = .tcp u)
    (impl' : f'.impl = .tcp v) (on : u.running = true)
    (moved : (TcpForwarder.forwarder p.tcp).step u (.resolver b) = some v) :
    Loops p f f' (.tcp (.resolver b)) u.resolver v.resolver := by
  have stepped := TcpForwarder.step_resolver moved
  obtain ⟨targets, next | ⟨pc, -⟩⟩ := TcpForwarder.resolverStep_resolves stepped
  · rw [on] at next
    exact .inl next
  · right
    refine ⟨pc, ?_⟩
    cases b with
    | resolved outcome =>
      refine ⟨outcome, rfl, ?_⟩
      simp only [TcpForwarder.resolution, pc, if_true, Option.bind_some] at targets
      rw [impl, impl']
      exact targets
    | _ => simp [TcpForwarder.resolverStep, pc] at stepped

/-- The other threads leave the resolver thread alone. -/
theorem udp_unresolved {u v : Udp.State} {b : Udp.Action} (other : ∀ c, b ≠ .resolver c)
    (moved : (Udp.forwarder p.udp).step u b = some v) : v.resolver = u.resolver :=
  ((Udp.step_move moved).unresolved other).2

theorem tcp_unresolved {u v : TcpForwarder.State} {b : TcpForwarder.Action}
    (other : ∀ c, b ≠ .resolver c)
    (moved : (TcpForwarder.forwarder p.tcp).step u b = some v) : v.resolver = u.resolver := by
  have move := TcpForwarder.step_move moved
  by_cases accepts : ∃ c, b = .accept c
  · obtain ⟨c, rfl⟩ := accepts
    cases move with
    | accept move => exact move.resolves.2
  · exact (move.unresolved other fun c same => accepts ⟨c, same⟩).2.1

/-- A forwarder whose inside runs has been started. -/
theorem Phase.on (phase : Phase p f) (serving : f.impl.running = true) : f.running = true := by
  cases phase with
  | ended impl =>
    cases inside : f.impl with
    | constructed targets =>
      rw [inside] at serving
      cases serving
    | udp u =>
      rw [inside] at impl serving
      have off : u.running = false := (impl.1.gone impl.2.1).1
      exact absurd (serving.symm.trans off) (by simp)
    | tcp t =>
      rw [inside] at impl serving
      have off : t.running = false := (impl.1.gone impl.2.1).1
      exact absurd (serving.symm.trans off) (by simp)
  | udp _ _ _ _ running | tcp _ _ _ _ running => exact running

/-- What a call or a step of the threads does to the resolver thread of a forwarder that runs. -/
theorem call_resolver (phase : Phase p f) (serving : f.impl.running = true)
    (called : call p f a = some (f', how)) :
    f'.impl.running = false ∨
      (a.ofResolver = false ∧ f'.impl.resolver = f.impl.resolver) ∨
      (a.ofResolver = true ∧ Loops p f f' a f.impl.resolver f'.impl.resolver) := by
  by_cases starts : ∃ message calls, a = .start message calls
  · -- a second `Start` has no effect inside
    obtain ⟨message, calls, rfl⟩ := starts
    right
    left
    unfold call at called
    split at called
    · cases called
    rw [Option.ite_none_left_eq_some] at called
    obtain ⟨-, called⟩ := called
    rw [State.start, if_pos (phase.on serving)] at called
    obtain ⟨rfl, -⟩ := Prod.mk.inj (Option.some.inj called)
    exact ⟨rfl, rfl⟩
  · have inside := call_inside (fun message calls same => starts ⟨message, calls, same⟩) called
    cases inside with
    | untouched same => exact .inr (.inl ⟨rfl, by rw [same]⟩)
    | stopUdp impl moved impl' =>
      refine .inr (.inl ⟨rfl, ?_⟩)
      rw [impl, impl']
      exact udp_unresolved (p := p) (fun c => by simp) moved
    | stopTcp impl moved impl' =>
      refine .inr (.inl ⟨rfl, ?_⟩)
      rw [impl, impl']
      exact tcp_unresolved (p := p) (fun c => by simp) moved
    | @udp u v b impl _ moved impl' =>
      right
      by_cases own : ∃ c, b = .resolver c
      · obtain ⟨c, rfl⟩ := own
        refine .inr ⟨rfl, ?_⟩
        have on : u.running = true := by
          rw [impl] at serving
          exact serving
        have loops := udp_loops impl impl' on moved
        rw [impl, impl']
        exact loops
      · left
        rw [impl, impl']
        refine ⟨?_, udp_unresolved (p := p) (fun c same => own ⟨c, same⟩) moved⟩
        cases b with
        | resolver c => exact absurd ⟨c, rfl⟩ own
        | _ => rfl
    | @tcp u v b impl _ moved impl' =>
      right
      by_cases own : ∃ c, b = .resolver c
      · obtain ⟨c, rfl⟩ := own
        refine .inr ⟨rfl, ?_⟩
        have on : u.running = true := by
          rw [impl] at serving
          exact serving
        have loops := tcp_loops impl impl' on moved
        rw [impl, impl']
        exact loops
      · left
        rw [impl, impl']
        refine ⟨?_, tcp_unresolved (p := p) (fun c same => own ⟨c, same⟩) moved⟩
        cases b with
        | resolver c => exact absurd ⟨c, rfl⟩ own
        | _ => rfl

/-- The resolver thread of a forwarder that runs can always go on. -/
theorem resolver_ready (phase : Phase p f) (alive : f.terminated = false)
    (inner : f.impl.terminated = false) (serving : f.impl.running = true) :
    ∃ a, a.ofResolver = true ∧ call p f a ≠ none := by
  have on := phase.on serving
  cases phase with
  | ended impl running => exact absurd (on.symm.trans running) (by simp)
  | @udp u impl protocol reached =>
    rw [impl] at serving inner
    have inner : u.terminated = false := inner
    have going := ((Udp.shutdown_reached reached).serving serving).2
    obtain ⟨b, ready⟩ := Udp.resolverStep_ready (p := p.udp) going
    refine ⟨.udp (.resolver b), rfl, ?_⟩
    simpa [call, alive, impl, Udp.forwarder, Udp.step, inner] using ready
  | @tcp t impl protocol reached =>
    rw [impl] at serving inner
    have inner : t.terminated = false := inner
    have going := ((TcpForwarder.shutdown_reached reached).serving serving).2
    obtain ⟨b, ready⟩ := TcpForwarder.resolverStep_ready (p := p.tcp) going
    refine ⟨.tcp (.resolver b), rfl, ?_⟩
    simpa [call, alive, impl, TcpForwarder.forwarder, TcpForwarder.step, inner] using ready

/-! ### For as long as the forwarder runs -/

/-- Nobody resolves any more: `Stop` has been called, or a signal has ended the process. -/
def Gone (p : Setup) (f : State) : Prop :=
  f.impl.running = false ∨ (f.terminated = true ∧ Signalled p f)

/-- On its way to the next resolution. -/
structure Between (f : State) : Prop where
  serving : f.impl.running = true
  alive : f.terminated = false
  early : f.impl.resolver ≠ .refresh

/-- About to resolve. -/
structure Due (f : State) : Prop where
  serving : f.impl.running = true
  alive : f.terminated = false
  due : f.impl.resolver = .refresh

theorem gone_or (reached : (object p).Reach startsThreads f) :
    Gone p f ∨ (f.impl.running = true ∧ f.terminated = false) := by
  obtain ⟨phase, agrees⟩ := phase_reached reached
  cases on : f.impl.running with
  | false => exact .inl (.inl on)
  | true =>
    cases ended : f.terminated with
    | false => exact .inr ⟨rfl, rfl⟩
    | true => exact .inl (.inr ⟨ended, phase.signalled (agrees.symm.trans ended)⟩)

theorem step_call (moved : (object p).step f a = some f') : ∃ how, call p f a = some (f', how) := by
  obtain ⟨⟨f', how⟩, called, rfl⟩ := Option.map_eq_some_iff.mp moved
  exact ⟨how, called⟩

theorem step_ready (reached : (object p).Reach startsThreads f) (serving : f.impl.running = true)
    (alive : f.terminated = false) : ∃ a, a.ofResolver = true ∧ (object p).step f a ≠ none := by
  obtain ⟨phase, agrees⟩ := phase_reached reached
  obtain ⟨a, own, ready⟩ := resolver_ready phase alive (agrees.symm.trans alive) serving
  exact ⟨a, own, mt Option.map_eq_none_iff.mp ready⟩

/-- The resolver thread comes to its next resolution. -/
theorem eventually_due (e : (object p).Execution startsThreads)
    (fair : e.Fair fun _ a => a.ofResolver = true) {i : Nat}
    (serving : (e.state i).impl.running = true) (alive : (e.state i).terminated = false) :
    ∃ j, i ≤ j ∧ (Gone p (e.state j) ∨ Due (e.state j)) := by
  by_cases due : (e.state i).impl.resolver = .refresh
  · exact ⟨i, Nat.le_refl i, .inr ⟨serving, alive, due⟩⟩
  · apply e.eventually Between (fun f => Gone p f ∨ Due f)
      (fun f => f.impl.resolver.untilRefresh p.config) fair _ _ ⟨serving, alive, due⟩
    · intro f f' a reached between starts moved
      obtain ⟨how, called⟩ := step_call moved
      rcases gone_or (reached.next starts moved) with gone | ⟨on, alive⟩
      · exact .inl (.inl gone)
      by_cases due : f'.impl.resolver = .refresh
      · exact .inl (.inr ⟨on, alive, due⟩)
      · refine .inr ⟨⟨on, alive, due⟩, ?_⟩
        rcases call_resolver (phase_reached reached).1 between.serving called with
          off | ⟨other, same⟩ | ⟨-, next | ⟨pc, -⟩⟩
        · exact absurd (on.symm.trans off) (by simp)
        · rw [same, other]
          exact ⟨Nat.le_refl _, fun own => absurd own (by simp)⟩
        · have sooner := ResolverPc.next_sooner next
          exact ⟨Nat.le_of_lt sooner, fun _ => sooner⟩
        · exact absurd pc between.early
    · intro f reached between
      exact step_ready reached between.serving between.alive

/-- A forwarder that runs asks for its target again and again, and serves from what it is told:
from whatever moment on, in every execution of the object through any number of `Start`s and
`Stop`s in which threads can be started, `Stop` is called, or a `Send` of a TCP session on a
broken connection ends the process, or the resolver thread takes another answer. A usable answer
replaces the list of targets, any other leaves it as it is. This takes no more than that the
resolver thread is not held up for ever: `getaddrinfo` comes back. -/
theorem refreshes_again (p : Setup) (e : (object p).Execution startsThreads)
    (fair : e.Fair fun _ a => a.ofResolver = true) (i : Nat) :
    ∃ j, i ≤ j ∧ ((e.state j).impl.running = false ∨
      ((e.state j).terminated = true ∧ Signalled p (e.state j)) ∨
      ∃ a, e.action j = some a ∧ Takes p (e.state j) (e.state (j + 1)) a) := by
  suffices taken : ∃ j, i ≤ j ∧ (Gone p (e.state j) ∨
      ∃ a, e.action j = some a ∧ Takes p (e.state j) (e.state (j + 1)) a) by
    obtain ⟨j, later, (stopped | ended) | takes⟩ := taken
    · exact ⟨j, later, .inl stopped⟩
    · exact ⟨j, later, .inr (.inl ended)⟩
    · exact ⟨j, later, .inr (.inr takes)⟩
  rcases gone_or (e.reach i) with gone | ⟨on, alive⟩
  · exact ⟨i, Nat.le_refl i, .inl gone⟩
  obtain ⟨j, later, gone | due⟩ := eventually_due e fair on alive
  · exact ⟨j, later, .inl gone⟩
  -- it stays there until its next step, or until nobody resolves any more
  obtain ⟨k, after, gone | ⟨due, a, acted, own⟩⟩ :=
    e.taken (P := Due) (Q := Gone p) fair
      (fun f f' a reached due starts moved => by
        obtain ⟨how, called⟩ := step_call moved
        rcases gone_or (reached.next starts moved) with gone | ⟨on, alive⟩
        · exact .inr (.inr gone)
        · rcases call_resolver (phase_reached reached).1 due.serving called with
            off | ⟨-, same⟩ | ⟨own, -⟩
          · exact .inr (.inr (.inl off))
          · exact .inr (.inl ⟨on, alive, same.trans due.due⟩)
          · exact .inl own)
      (fun f reached due => step_ready reached due.serving due.alive) due
  · exact ⟨k, later.trans after, .inl gone⟩
  rcases e.moves k with ⟨rested, -⟩ | ⟨b, acted', -, moved⟩
  · rw [acted] at rested
    cases rested
  · obtain rfl : a = b := Option.some.inj (acted.symm.trans acted')
    obtain ⟨how, called⟩ := step_call moved
    rcases call_resolver (phase_reached (e.reach k)).1 due.serving called with
      stopped | ⟨other, -⟩ | ⟨-, next | ⟨-, takes⟩⟩
    · exact ⟨k + 1, (later.trans after).trans (Nat.le_succ k), .inl (.inl stopped)⟩
    · exact absurd (own.symm.trans other) (by simp)
    · rw [due.due] at next
      cases next
    · exact ⟨k, later.trans after, .inr ⟨a, acted, takes⟩⟩

/-- A forwarder whose interval wraps to nothing is told of a new address, and then stopped. -/
def movedTarget : List Action :=
  [.start none (answers true), .udp (.resolver .none), .udp (.resolver .none),
    .udp (.resolver (.resolved (.found [⟨.inet, some Udp.Sample.bob.bytes⟩]))), .stop] ++
  ([.udp .none, .udp .none, .udp (.order []), .udp .none, .udp .none, .resolver .none,
    .stop .none, .stop .none, .stop .none, .stop .none, .stop .none, .stop (.order []),
    .stop .none, .stop .none] : List Udp.Action).map .udp

/-- A resolver thread that has ended takes no step. -/
theorem resolver_quiet (ended : f.impl.resolver = .exited) (own : a.ofResolver = true) :
    (object p).step f a = none := by
  refine Option.map_eq_none_iff.mpr ?_
  unfold call
  split
  · rfl
  · cases inside : f.impl with
    | constructed targets => cases a <;> first | rfl | cases own
    | udp u =>
      rw [inside] at ended
      cases a with
      | udp b =>
        cases b with
        | resolver c =>
          have exited : u.resolver = .exited := ended
          simp [Udp.forwarder, Udp.step, Udp.resolverStep, exited, ResolverPc.next]
        | _ => cases own
      | tcp b => rfl
      | start | stop => cases own
    | tcp t =>
      rw [inside] at ended
      cases a with
      | tcp b =>
        cases b with
        | resolver c =>
          have exited : t.resolver = .exited := ended
          simp [TcpForwarder.forwarder, TcpForwarder.step, TcpForwarder.resolverStep, exited,
            ResolverPc.next]
        | _ => cases own
      | udp b => rfl
      | start | stop => cases own

theorem refreshes_again_moved :
    ∃ e : (object { sample with config := impatient }).Execution startsThreads,
      (e.Fair fun _ a => a.ofResolver = true) ∧ (e.state 1).impl.running = true ∧
      ∃ j, 1 ≤ j ∧ ((e.state j).impl.running = false ∨
        ((e.state j).terminated = true ∧
          Signalled { sample with config := impatient } (e.state j)) ∨
        ∃ a, e.action j = some a ∧
          Takes { sample with config := impatient } (e.state j) (e.state (j + 1)) a) := by
  have result : ((object { sample with config := impatient }).runIf startsThreads {}
      movedTarget).map (fun f => decide (f.impl.resolver = .exited)) = some true := by
    decide +kernel
  obtain ⟨f, run, seen⟩ := Option.map_eq_some_iff.mp result
  have ended := of_decide_eq_true seen
  have fair : (Machine.Execution.ofRun (m := object _) rfl run).Fair
      fun _ a => a.ofResolver = true :=
    Machine.Execution.fair_ofRun _ _ fun a own => resolver_quiet ended own
  have early : ((object { sample with config := impatient }).run {} (movedTarget.take 1)).map
      (fun f => f.impl.running) = some true := by
    decide +kernel
  rw [Machine.Execution.ofRun_take (m := object _) rfl run (by decide), Option.map_some,
    Option.some.injEq] at early
  exact ⟨_, fair, early, refreshes_again _ _ fair 1⟩

end PortForwardX.Forwarder
