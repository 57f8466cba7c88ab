import PortForwardX.Forwarder.Outcomes
import PortForwardX.Udp.Termination
import PortForwardX.TcpForwarder.Stop

/-!
# A `Stop` of a forwarder gets done

Whichever forwarder is inside, `Stop` has a rank and somebody who can go on.
-/
namespace PortForwardX.Forwarder

open Transition Net

/-- What is asked of a TCP forwarder: fewer than 2 ^ 64 connections, and that nothing more arrives
on a socket of a session after `ShutdownBoth`. -/
def Ruled (f : State) (a : Action) : Prop :=
  match f.impl, a with
  | .tcp t, .tcp a => TcpForwarder.Ruled t a
  | .tcp t, _ => TcpForwarder.Ruled t .callStop
  | _, _ => True

instance decidableRuled : ∀ (f : State) (a : Action), Decidable (Ruled f a)
  | { impl := .tcp t, .. }, .tcp a => inferInstanceAs (Decidable (TcpForwarder.Ruled t a))
  | { impl := .tcp t, .. }, .start _ _ | { impl := .tcp t, .. }, .stop
  | { impl := .tcp t, .. }, .udp _ => inferInstanceAs (Decidable (TcpForwarder.Ruled t .callStop))
  | { impl := .udp _, .. }, _ | { impl := .constructed _, .. }, _ =>
    inferInstanceAs (Decidable True)

/-- The steps that a `Stop` depends on. -/
def Urgent (f : State) (a : Action) : Prop :=
  match f.impl, a with
  | .udp _, .udp a => a.ofThread = true
  | .tcp t, .tcp a => TcpForwarder.Urgent t a
  | _, _ => False

/-- Those of them that come in time. -/
def Prompt (f : State) (a : Action) : Prop :=
  match f.impl, a with
  | .udp u, .udp a => Udp.Prompt u a
  | .tcp t, .tcp a => TcpForwarder.Urgent t a
  | _, _ => False

/-- A thread of a UDP forwarder is in a call that need not return. -/
def Lost (f : State) : Prop :=
  match f.impl with
  | .udp u => Udp.Lost u
  | _ => False

/-- The UDP or TCP forwarder inside is in a state that a run of it reaches. -/
def Impl.Reached (p : Setup) : Impl → Prop
  | .constructed _ => True
  | .udp u => (Udp.forwarder p.udp).Reach Machine.anyStep u
  | .tcp t => (TcpForwarder.forwarder p.tcp).Reach TcpForwarder.Ruled t

/-- What a `Stop` still has to do. -/
def Impl.rank : Impl → Nat ×ₗ Nat ×ₗ Nat ×ₗ Nat
  | .constructed _ => toLex (0, toLex (0, toLex (0, 0)))
  | .udp u => toLex (u.resolver.remaining, toLex (u.remaining, toLex (0, 0)))
  | .tcp t => t.rank

variable {p : Setup} {f f' : State} {how : Option Return} {a : Action}

theorem start_reached {message : Option String} {calls : StartCalls}
    (started : (f.start p message calls).2 = some .started) :
    (f.start p message calls).1.impl.Reached p := by
  unfold State.start at started ⊢
  split at started
  · cases started
  next off =>
    rw [if_neg off]
    dsimp only at started ⊢
    split at started
    · cases started
    next i kept =>
      have resolved := (implStart_spec p calls f.impl.targetEndpoints message).2 i kept
      unfold State.serve at started ⊢
      cases protocol : p.protocol <;> simp only [protocol] at started ⊢ <;> split at started
      · cases started
      next free =>
        rw [if_neg free]
        exact Machine.Reach.start ⟨_, _, _, resolved, rfl⟩
      · cases started
      next free =>
        rw [if_neg free]
        exact Machine.Reach.start ⟨_, _, _, _, resolved, rfl⟩

theorem Impl.rank_lt_udp {u v : Udp.State} (lt : v.rank < u.rank) :
    (Impl.udp v).rank < (Impl.udp u).rank := by
  rw [Udp.State.rank, Udp.State.rank, Prod.Lex.toLex_lt_toLex] at lt
  simpa only [Impl.rank, Prod.Lex.toLex_lt_toLex, lt_irrefl, and_false, or_false] using lt

theorem Impl.rank_le_udp {u v : Udp.State} (le : v.rank ≤ u.rank) :
    (Impl.udp v).rank ≤ (Impl.udp u).rank := by
  rcases le.lt_or_eq with lt | same
  · exact le_of_lt (rank_lt_udp lt)
  · obtain ⟨resolver, remaining⟩ := Prod.mk.inj (toLex.injective same)
    rw [Impl.rank, Impl.rank, resolver, remaining]

theorem Inside.reached (inside : Inside p f f' a) (ruled : Ruled f a)
    (reached : f.impl.Reached p) : f'.impl.Reached p := by
  cases inside with
  | untouched same => rwa [same]
  | stopUdp impl moved impl' | udp impl _ moved impl' =>
    rw [impl] at reached
    rw [impl']
    exact Machine.Reach.next reached trivial moved
  | stopTcp impl moved impl' | tcp impl _ moved impl' =>
    rw [impl] at reached
    rw [impl']
    simp only [Ruled, impl] at ruled
    exact Machine.Reach.next reached ruled moved

theorem Prompt.urgent (prompt : Prompt f a) : Urgent f a := by
  unfold Prompt at prompt
  unfold Urgent
  split at prompt
  · exact prompt.1
  · exact prompt
  · exact prompt.elim

/-- A call of `Stop` is at work in the forwarder inside. -/
theorem Phase.atWork (phase : Phase p f) (alive : f.impl.terminated = false)
    (busy : f.stopping = true) :
    (∃ u, f.impl = .udp u ∧ Udp.Stopping u) ∨ ∃ t, f.impl = .tcp t ∧ TcpForwarder.Stopping t := by
  cases phase with
  | ended impl running stopping =>
    rw [busy] at stopping
    cases stopping
  | @udp u impl protocol reached undone running stopping =>
    rw [impl] at alive
    exact .inl ⟨u, impl, stopping.mp busy, undone, alive⟩
  | @tcp t impl protocol reached undone running stopping =>
    rw [impl] at alive
    exact .inr ⟨t, impl, stopping.mp busy, undone, alive⟩

/-- A thread that cannot be started ends the process. -/
theorem Inside.starts (inside : Inside p f f' a) (alive : f'.terminated = false) :
    startsThreads f a := by
  unfold startsThreads
  cases inside with
  | untouched | stopUdp | stopTcp => split <;> simp_all
  | udp impl other moved impl' terminated =>
    rw [terminated] at alive
    rw [impl]
    by_contra throws
    have ended := ((Udp.step_move moved).terminates (Udp.step_alive moved)).mpr
      (by simpa using throws)
    exact absurd (alive.symm.trans ended) Bool.false_ne_true
  | tcp impl other moved impl' terminated =>
    rw [terminated] at alive
    rw [impl]
    by_contra throws
    have ended := ((TcpForwarder.step_move moved).terminates (TcpForwarder.step_alive moved)).mpr
      (.inl (by simpa using throws))
    exact absurd (alive.symm.trans ended) Bool.false_ne_true

/-- A step of the threads while a `Stop` is under way: it returns, or the process ends, or there
is no more to do than before, and less after an urgent step. -/
theorem stop_spends (phase : Phase p f) (agrees : f.terminated = f.impl.terminated)
    (reached : f.impl.Reached p) (busy : f.stopping = true) (ruled : Ruled f a)
    (threads : a.ofThreads = true) (called : call p f a = some (f', how)) :
    how = some .stopped ∨ f'.terminated = true ∨
      (how = none ∧ f'.stopping = true ∧ f'.impl.rank ≤ f.impl.rank ∧
        (Urgent f a → f'.impl.rank < f.impl.rank)) := by
  have other : ∀ message calls, a ≠ .start message calls := by
    rintro message calls rfl
    cases threads
  have inside := call_inside other called
  by_cases ended : f'.terminated = true
  · exact .inr (.inl ended)
  rw [Bool.not_eq_true] at ended
  rcases thread_returns threads called with ⟨rfl, -, stopping⟩ | ⟨rfl, -⟩
  · have alive := agrees.symm.trans (call_alive called)
    obtain ⟨later, agrees'⟩ := call_phase phase agrees (inside.starts ended) called
    have alive' := agrees'.symm.trans ended
    rw [busy] at stopping
    refine .inr (.inr ⟨rfl, stopping, ?_⟩)
    cases inside with
    | untouched | stopUdp | stopTcp => cases threads
    -- in either case the `Stop` inside is under way before the step and after it
    | @udp u v b impl other moved impl' =>
      rcases phase.atWork alive busy with ⟨_, impl₁, stops⟩ | ⟨_, impl₁, -⟩
      swap
      · cases impl.symm.trans impl₁
      obtain rfl := Impl.udp.inj (impl.symm.trans impl₁)
      rcases later.atWork alive' stopping with ⟨_, impl₂, stops'⟩ | ⟨_, impl₂, -⟩
      swap
      · cases impl'.symm.trans impl₂
      obtain rfl := Impl.udp.inj (impl'.symm.trans impl₂)
      rw [impl] at reached
      rcases Udp.step_spends reached stops moved with (done | dead) | ⟨-, le, lt⟩
      · exact absurd done stops'.busy
      · exact absurd (stops'.alive.symm.trans dead) Bool.false_ne_true
      · rw [impl, impl']
        refine ⟨Impl.rank_le_udp le, fun urgent => Impl.rank_lt_udp (lt ?_)⟩
        simpa only [Urgent, impl] using urgent
    | @tcp u v b impl other moved impl' =>
      rcases phase.atWork alive busy with ⟨_, impl₁, -⟩ | ⟨_, impl₁, stops⟩
      · cases impl.symm.trans impl₁
      obtain rfl := Impl.tcp.inj (impl.symm.trans impl₁)
      rcases later.atWork alive' stopping with ⟨_, impl₂, -⟩ | ⟨_, impl₂, stops'⟩
      · cases impl'.symm.trans impl₂
      obtain rfl := Impl.tcp.inj (impl'.symm.trans impl₂)
      rw [impl] at reached
      rcases TcpForwarder.step_spends reached stops (by simpa only [Ruled, impl] using ruled) moved
        with (done | dead) | ⟨-, le, lt⟩
      · exact absurd done stops'.busy
      · exact absurd (stops'.alive.symm.trans dead) Bool.false_ne_true
      · rw [impl, impl']
        exact ⟨le, fun urgent => lt (by simpa only [Urgent, impl] using urgent)⟩
  · exact .inl rfl

/-- A thread that is in a call that need not return comes out of it by an urgent step. -/
theorem lost_kept (lost : Lost f) (threads : a.ofThreads = true)
    (called : call p f a = some (f', how)) : Lost f' ∨ Urgent f a := by
  unfold Lost at lost ⊢
  unfold Urgent
  cases call_inside (by rintro message calls rfl; cases threads) called with
  | untouched | stopUdp | stopTcp => cases threads
  | udp impl _ moved impl' =>
    rw [impl] at lost ⊢
    rw [impl']
    exact Udp.lost_kept lost moved
  | tcp impl =>
    rw [impl] at lost
    exact lost.elim

/-- While a `Stop` is under way an urgent step is possible, unless a thread is in a call that
need not return. -/
theorem stop_ready (phase : Phase p f) (agrees : f.terminated = f.impl.terminated)
    (alive : f.terminated = false) (reached : f.impl.Reached p) (busy : f.stopping = true) :
    Lost f ∨ ∃ a, a.ofThreads = true ∧ Prompt f a ∧ call p f a ≠ none := by
  rcases phase.atWork (agrees.symm.trans alive) busy with ⟨u, impl, stops⟩ | ⟨t, impl, stops⟩
  · rcases Udp.stop_ready (p := p.udp) stops with lost | ⟨b, prompt, ready⟩
    · exact .inl (by simpa only [Lost, impl] using lost)
    · have other : b ≠ .callStop := by
        rintro rfl
        cases prompt.1
      exact .inr ⟨.udp b, rfl, by simpa only [Prompt, impl] using prompt,
        by simpa [call, alive, impl, other] using ready⟩
  · rw [impl] at reached
    obtain ⟨b, urgent, ready⟩ :=
      TcpForwarder.urgent_ready (TcpForwarder.few_of_ruled reached) stops
    have other : b ≠ .callStop := by
      rintro rfl
      cases urgent
    exact .inr ⟨.tcp b, rfl, by simpa only [Prompt, impl] using urgent,
      by simpa [call, alive, impl, other] using ready⟩

/-- A `Stop` of a forwarder that runs can be called. -/
theorem stop_enabled (phase : Phase p f) (agrees : f.terminated = f.impl.terminated)
    (alive : f.terminated = false) (on : f.running = true) (free : f.stopping = false) :
    call p f .stop ≠ none := by
  have serves := (phase.consistent free).impl
  have inner := agrees.symm.trans alive
  rw [on] at serves
  cases phase with
  | ended impl running => exact absurd (on.symm.trans running) (by simp)
  | @udp u impl protocol reached undone running stopping =>
    have idle : u.stop = .idle := by
      by_contra called
      rw [stopping.mpr called] at free
      cases free
    rw [impl] at serves inner
    have inner : u.terminated = false := inner
    simp [call, State.callStop, alive, free, on, impl, serves, Udp.forwarder, Udp.step, idle,
      inner]
  | @tcp t impl protocol reached undone running stopping =>
    have idle : t.stop = .idle := by
      by_contra called
      rw [stopping.mpr called] at free
      cases free
    rw [impl] at serves inner
    have inner : t.terminated = false := inner
    simp [call, State.callStop, alive, free, on, impl, serves, TcpForwarder.forwarder,
      TcpForwarder.step, idle, inner]

end PortForwardX.Forwarder
