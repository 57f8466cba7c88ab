import PortForwardX.Forwarder.Lifecycle
import PortForwardX.Forwarder.Resolution

/-!
# What a call comes to

The outcomes of `Start`, of `Stop` and of a step of the threads, as somebody sees them who owns
a `Forwarder`.
-/
namespace PortForwardX.Forwarder

open Transition Net Selection

/-- The action is a step of the threads, not a call. -/
def Action.ofThreads : Action → Bool
  | .udp _ | .tcp _ => true
  | .start _ _ | .stop => false

variable {p : Setup} {f f' : State} {how : Option Return} {message : Option String}
  {calls : StartCalls} {i : Nat}

/-! ### `Start` -/

theorem start_stopping : (f.start p message calls).1.stopping = f.stopping := by
  unfold State.start
  split
  · rfl
  · dsimp only
    split
    · rfl
    · unfold State.serve
      dsimp only
      split <;> split <;> rfl

/-- A `Start` that does not return has ended the process. -/
theorem start_returns (alive : (f.start p message calls).1.terminated = false) :
    (f.start p message calls).2 ≠ none := by
  unfold State.start at alive ⊢
  split
  · simp
  next off =>
    rw [if_neg off] at alive
    dsimp only at alive ⊢
    split
    · simp
    next i kept =>
      rw [kept] at alive
      unfold State.serve at alive ⊢
      dsimp only at alive ⊢
      split at alive <;> split <;> simp_all

/-- The candidate that `Impl::Start` keeps is one of those it may try. -/
theorem implStart_kept {targets : List ResolvedEndpoint}
    (kept : (implStart p calls targets message).kept = some i) :
    usableTargets p.config calls.target =
        some (implStart p calls targets message).targetEndpoints ∧
      ∃ endpoint, (sortEndpoints (resolve p.listenHost calls.listen).1
          (effectiveListenFamily p.config))[i]? = some endpoint ∧
        (calls.candidates i).trial p.protocol = .accepted := by
  have resolved := (implStart_spec p calls targets message).2 i kept
  refine ⟨by rw [usableTargets, resolved]; rfl, ?_⟩
  unfold implStart at kept
  dsimp only at kept
  split at kept
  · cases kept
  split at kept
  · cases kept
  split at kept
  · cases kept
  rw [listenLoop_eq] at kept
  split at kept
  next j uses searched =>
    obtain rfl := Option.some.inj kept
    obtain ⟨found, -⟩ := Prod.mk.inj searched
    -- the candidate kept is the first for which every call succeeds
    rw [tryInOrder_kept, Option.map_eq_some_iff] at found
    obtain ⟨⟨endpoint, j⟩, found, rfl⟩ := found
    exact ⟨endpoint, List.mem_zipIdx_iff_getElem?.mp (List.mem_of_find?_eq_some found),
      by simpa using List.find?_some found⟩
  · cases kept

/-- A `Start` that succeeds listens on a candidate it has kept, with the targets it has
resolved. -/
theorem start_started (started : (f.start p message calls).2 = some .started) :
    ∃ i, (implStart p calls f.impl.targetEndpoints message).kept = some i ∧
      (f.start p message calls).1.impl.listenSocket = some (calls.fd i) ∧
      (f.start p message calls).1.impl.targetEndpoints =
        (implStart p calls f.impl.targetEndpoints message).targetEndpoints := by
  unfold State.start at started ⊢
  split at started
  · cases started
  next off =>
    rw [if_neg off]
    dsimp only at started ⊢
    split at started
    · cases started
    next i kept =>
      refine ⟨i, kept, ?_⟩
      unfold State.serve at started ⊢
      dsimp only at started ⊢
      cases protocol : p.protocol <;> simp only [protocol] at started ⊢ <;> split at started
      · cases started
      next free =>
        rw [if_neg free]
        exact ⟨rfl, rfl⟩
      · cases started
      next free =>
        rw [if_neg free]
        exact ⟨rfl, rfl⟩

/-! ### `Stop` and the threads -/

/-- A step of the threads lets a `Stop` return or leaves both flags as they are. -/
theorem thread_returns {a : Action} (threads : a.ofThreads = true)
    (called : call p f a = some (f', how)) :
    (how = none ∧ f'.running = f.running ∧ f'.stopping = f.stopping) ∨
      (how = some .stopped ∧ f.stopping = true ∧ f'.running = false ∧ f'.stopping = false) := by
  -- both flags are touched where a step ends and nowhere else
  have finished (g : State) (done : Bool) (running : g.running = f.running)
      (stopping : g.stopping = f.stopping) (same : g.finish done = (f', how)) :
      (how = none ∧ f'.running = f.running ∧ f'.stopping = f.stopping) ∨
        (how = some .stopped ∧ f.stopping = true ∧ f'.running = false ∧ f'.stopping = false) := by
    unfold State.finish at same
    split at same
    next both =>
      rw [Bool.and_eq_true] at both
      obtain ⟨rfl, rfl⟩ := Prod.mk.inj same
      exact .inr ⟨rfl, stopping.symm.trans both.1, rfl, rfl⟩
    · obtain ⟨rfl, rfl⟩ := Prod.mk.inj same
      exact .inl ⟨rfl, running, stopping⟩
  unfold call at called
  split at called
  · cases called
  cases a with
  | start | stop => cases threads
  | udp a =>
    dsimp only at called
    split at called
    · split at called
      · cases called
      · obtain ⟨v, -, same⟩ := Option.map_eq_some_iff.mp called
        exact finished (f.advance _ _ _ _ _) _ rfl rfl same
    · cases called
  | tcp a =>
    dsimp only at called
    split at called
    · split at called
      · cases called
      · obtain ⟨v, -, same⟩ := Option.map_eq_some_iff.mp called
        exact finished (f.advance _ _ _ _ _) _ rfl rfl same
    · cases called

/-- A `Stop` of a forwarder that runs has something to wait for. -/
theorem stop_waits (phase : Phase p f) (on : f.running = true) (free : f.stopping = false)
    (called : call p f .stop = some (f', how)) :
    how = none ∧ f'.running = true ∧ f'.stopping = true := by
  unfold call at called
  rw [Option.ite_none_left_eq_some] at called
  obtain ⟨-, called⟩ := called
  dsimp only at called
  rw [if_neg (by simp [free]), State.callStop, if_neg (by simp [on]),
    if_neg (by simp [(phase.consistent free).impl, on])] at called
  split at called
  · cases called
  · obtain ⟨u, -, same⟩ := Option.map_eq_some_iff.mp called
    obtain ⟨rfl, rfl⟩ := Prod.mk.inj same
    exact ⟨rfl, on, rfl⟩
  · obtain ⟨u, -, same⟩ := Option.map_eq_some_iff.mp called
    obtain ⟨rfl, rfl⟩ := Prod.mk.inj same
    exact ⟨rfl, on, rfl⟩

/-- What a call or a step of the threads does to the UDP or TCP forwarder inside. -/
inductive Inside (p : Setup) (f f' : State) : Action → Prop
  | untouched (same : f'.impl = f.impl) : Inside p f f' .stop
  | stopUdp {u v : Udp.State} (impl : f.impl = .udp u)
      (moved : (Udp.forwarder p.udp).step u .callStop = some v) (impl' : f'.impl = .udp v) :
      Inside p f f' .stop
  | stopTcp {u v : TcpForwarder.State} (impl : f.impl = .tcp u)
      (moved : (TcpForwarder.forwarder p.tcp).step u .callStop = some v)
      (impl' : f'.impl = .tcp v) : Inside p f f' .stop
  | udp {u v : Udp.State} {a : Udp.Action} (impl : f.impl = .udp u) (other : a ≠ .callStop)
      (moved : (Udp.forwarder p.udp).step u a = some v) (impl' : f'.impl = .udp v)
      (terminated : f'.terminated = v.terminated) : Inside p f f' (.udp a)
  | tcp {u v : TcpForwarder.State} {a : TcpForwarder.Action} (impl : f.impl = .tcp u)
      (other : a ≠ .callStop) (moved : (TcpForwarder.forwarder p.tcp).step u a = some v)
      (impl' : f'.impl = .tcp v) (terminated : f'.terminated = v.terminated) :
      Inside p f f' (.tcp a)

theorem finish_kept {done : Bool} : (f.finish done).1.impl = f.impl ∧
    (f.finish done).1.terminated = f.terminated := by
  unfold State.finish
  split <;> exact ⟨rfl, rfl⟩

theorem call_inside {a : Action} (other : ∀ message calls, a ≠ .start message calls)
    (called : call p f a = some (f', how)) : Inside p f f' a := by
  unfold call at called
  split at called
  · cases called
  cases a with
  | start message calls => exact absurd rfl (other message calls)
  | stop =>
    dsimp only at called
    split at called
    · cases called
    unfold State.callStop at called
    split at called
    · obtain ⟨rfl, rfl⟩ := Prod.mk.inj (Option.some.inj called)
      exact .untouched rfl
    · split at called
      · obtain ⟨rfl, rfl⟩ := Prod.mk.inj (Option.some.inj called)
        exact .untouched rfl
      · split at called
        · cases called
        next impl =>
          obtain ⟨v, moved, same⟩ := Option.map_eq_some_iff.mp called
          obtain ⟨rfl, rfl⟩ := Prod.mk.inj same
          exact .stopUdp impl moved rfl
        next impl =>
          obtain ⟨v, moved, same⟩ := Option.map_eq_some_iff.mp called
          obtain ⟨rfl, rfl⟩ := Prod.mk.inj same
          exact .stopTcp impl moved rfl
  | udp a =>
    dsimp only at called
    split at called
    next impl =>
      rw [Option.ite_none_left_eq_some] at called
      obtain ⟨other, called⟩ := called
      obtain ⟨v, moved, same⟩ := Option.map_eq_some_iff.mp called
      obtain ⟨rfl, -⟩ := Prod.mk.inj same
      exact .udp impl other moved finish_kept.1 finish_kept.2
    · cases called
  | tcp a =>
    dsimp only at called
    split at called
    next impl =>
      rw [Option.ite_none_left_eq_some] at called
      obtain ⟨other, called⟩ := called
      obtain ⟨v, moved, same⟩ := Option.map_eq_some_iff.mp called
      obtain ⟨rfl, -⟩ := Prod.mk.inj same
      exact .tcp impl other moved finish_kept.1 finish_kept.2
    · cases called

/-- A step of the threads or a `Stop` leaves the targets as they are or takes those of another
resolution. -/
theorem Inside.targets {a : Action} (inside : Inside p f f' a) :
    f'.impl.targetEndpoints = f.impl.targetEndpoints ∨
      ∃ outcome, usableTargets p.config outcome = some f'.impl.targetEndpoints := by
  have replaced {answer : Option GetAddrInfo}
      (kept : f'.impl.targetEndpoints =
        (answer.bind (usableTargets p.config)).getD f.impl.targetEndpoints) :
      f'.impl.targetEndpoints = f.impl.targetEndpoints ∨
        ∃ outcome, usableTargets p.config outcome = some f'.impl.targetEndpoints := by
    rw [kept]
    cases use : answer.bind (usableTargets p.config) with
    | none => exact .inl rfl
    | some targets =>
      obtain ⟨outcome, -, usable⟩ := Option.bind_eq_some_iff.mp use
      exact .inr ⟨outcome, usable⟩
  have udp {u v : Udp.State} {a : Udp.Action} (impl : f.impl = .udp u)
      (moved : (Udp.forwarder p.udp).step u a = some v) (impl' : f'.impl = .udp v) :
      f'.impl.targetEndpoints =
        ((Udp.resolution u a).bind (usableTargets p.config)).getD f.impl.targetEndpoints := by
    have kept := (Udp.refreshes (p := p.udp)).step u a v moved
    rw [impl, impl']
    exact kept
  have tcp {u v : TcpForwarder.State} {a : TcpForwarder.Action} (impl : f.impl = .tcp u)
      (moved : (TcpForwarder.forwarder p.tcp).step u a = some v) (impl' : f'.impl = .tcp v) :
      f'.impl.targetEndpoints =
        ((TcpForwarder.resolution u a).bind (usableTargets p.config)).getD
          f.impl.targetEndpoints := by
    have kept := (TcpForwarder.refreshes (p := p.tcp)).step u a v moved
    rw [impl, impl']
    exact kept
  cases inside with
  | untouched same => exact .inl (by rw [same])
  | stopUdp impl moved impl' | udp impl _ moved impl' => exact replaced (udp impl moved impl')
  | stopTcp impl moved impl' | tcp impl _ moved impl' => exact replaced (tcp impl moved impl')

end PortForwardX.Forwarder
