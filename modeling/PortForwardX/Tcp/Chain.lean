import PortForwardX.Conduit.Path
import PortForwardX.Tcp.HalfClose
import PortForwardX.Transition.Component
import Mathlib.Data.Nat.SuccPred
import Mathlib.Order.SuccPred.Relation

/-!
# Sessions in a row

A forwarder's target may be another forwarder, as in the two modes for crossing a network of
the other family: the upstream socket of one session is then connected to the client socket of
the next. On the connections between them bytes are under way for a while, and the end of a
stream comes behind them.
-/
namespace PortForwardX.Tcp.Chain

open Transition Conduit Relation

/-- The hop whose relay of direction `side` sends what arrives on socket `side` of hop `i`. -/
def feeder (n : Nat) (side : Side) (i : Nat) : Option Nat :=
  match side, i with
  | .client, 0 => none
  | .client, i + 1 => some i
  | .upstream, i => if i + 1 < n then some (i + 1) else none

/-- What the connections between `n` hops deliver: the beginning of what was sent, and the end
once the sending side is shut down or closed and everything has come. The two outer peers are
free. -/
def Carried (n : Nat) (s : Nat → State) (i : Nat) : Action → Prop
  | .arrive side bytes =>
    ∀ j ∈ feeder n side i, ((s i).socket side).arrived ++ bytes <+: delivered side (s j).trace
  | .finishStream side =>
    ∀ j ∈ feeder n side i,
      (((s j).socket side.other).writeShut = true ∨ ((s j).socket side.other).isOpen = false) ∧
        ((s i).socket side).arrived = delivered side (s j).trace
  | _ => True

instance decidableCarried (n : Nat) (s : Nat → State) (i : Nat) :
    ∀ a, Decidable (Carried n s i a)
  | .arrive _ _ | .finishStream _ => inferInstanceAs (Decidable (∀ _ ∈ _, _))
  | .relay _ _ | .worker | .callStop | .stop | .peerReset _ => inferInstanceAs (Decidable True)

def step (n : Nat) (s : Nat → State) (action : Nat × Action) : Option (Nat → State) :=
  if action.1 < n ∧ Carried n s action.1 action.2 then
    (Tcp.step (s action.1) action.2).map (Function.update s action.1)
  else none

/-- `n` sessions, from the one that a client has connected to on. -/
def machine (n : Nat) : Machine (Nat → State) (Nat × Action) where
  Init s := s = fun _ => initial
  step := step n

/-- No hop's call fails and none is stopped. -/
def AllUnfailing (s : Nat → State) (action : Nat × Action) : Prop :=
  Unfailing (s action.1) action.2

instance decidableAllUnfailing (s : Nat → State) (action : Nat × Action) :
    Decidable (AllUnfailing s action) :=
  inferInstanceAs (Decidable (_ = true))

variable {n : Nat} {s t : Nat → State} {action : Nat × Action} {i j : Nat} {d : Side}

theorem step_cases (moved : (machine n).step s action = some t) :
    action.1 < n ∧ Carried n s action.1 action.2 ∧
      ∃ u, Tcp.step (s action.1) action.2 = some u ∧ t = Function.update s action.1 u := by
  change step n s action = some t at moved
  unfold step at moved
  split at moved
  next allowed =>
    obtain ⟨u, stepped, rfl⟩ := Option.map_eq_some_iff.mp moved
    exact ⟨allowed.1, allowed.2, u, stepped, rfl⟩
  · cases moved

/-- Each hop of a chain runs as a session of its own. -/
def hop {ok : (Nat → State) → Nat × Action → Prop} {ok' : State → Action → Prop}
    (admits : ∀ s action, ok s action → ok' (s action.1) action.2) (i : Nat) :
    (machine n).Component ok session ok' where
  view s := s i
  share action := if action.1 = i then some action.2 else none
  init s init := by
    rw [show s = _ from init]
    rfl
  rests s t action moved apart := by
    obtain ⟨-, -, u, -, rfl⟩ := step_cases moved
    rw [ite_eq_right_iff] at apart
    exact Function.update_of_ne (fun same => Option.some_ne_none _ (apart same.symm)) _ _
  moves s t action a admitted moved shared := by
    obtain ⟨-, -, u, stepped, rfl⟩ := step_cases moved
    obtain ⟨rfl, same⟩ := Option.ite_none_right_eq_some.mp shared
    obtain rfl := Option.some.inj same
    exact ⟨admits s action admitted, by rwa [Function.update_self]⟩

theorem hop_reached {ok : (Nat → State) → Nat × Action → Prop} {ok' : State → Action → Prop}
    (admits : ∀ s action, ok s action → ok' (s action.1) action.2)
    (reached : (machine n).Reach ok s) (i : Nat) : session.Reach ok' (s i) :=
  (hop admits i).reach reached

/-- What a session has sent it has sent. -/
theorem step_delivered {u v : State} {a : Action} (moved : Tcp.step u a = some v) :
    delivered d u.trace <+: delivered d v.trace := by
  by_cases own : ∃ result, a = .relay d result
  · obtain ⟨result, rfl⟩ := own
    obtain ⟨c, calls, -⟩ := (relayStep_move moved).calls
    rw [calls, delivered_append]
    exact List.prefix_append _ _
  · rw [step_silent moved fun result same => own ⟨result, same⟩]

theorem feeder_ne (feeds : feeder n d j = some i) : i ≠ j := by
  cases d with
  | client =>
    cases j with
    | zero => cases feeds
    | succ j =>
      obtain rfl : j = i := Option.some.inj feeds
      exact (Nat.succ_ne_self _).symm
  | upstream =>
    simp only [feeder, Option.ite_none_right_eq_some, Option.some.injEq] at feeds
    omega

/-- What has arrived at a hop is the beginning of what the hop before has sent. -/
theorem linked_reached {ok : (Nat → State) → Nat × Action → Prop}
    (reached : (machine n).Reach ok s) :
    ∀ d i j, feeder n d j = some i → ((s j).socket d).arrived <+: delivered d (s i).trace := by
  induction reached with
  | start init =>
    intro d i j _
    rw [show _ = _ from init]
    exact List.nil_prefix
  | @next s t action _ _ moved ih =>
    obtain ⟨-, carried, u, stepped, rfl⟩ := step_cases moved
    intro d i j feeds
    have sent : delivered d (s i).trace <+: delivered d (Function.update s action.1 u i).trace := by
      by_cases own : i = action.1
      · subst own
        rw [Function.update_self]
        exact step_delivered stepped
      · rw [Function.update_of_ne own]
    refine List.IsPrefix.trans ?_ sent
    -- the hop itself can be told no more than the hop before has sent
    by_cases own : j = action.1
    · subst own
      rw [Function.update_self]
      rcases step_arrives (d := d) stepped with same | ⟨more, arrives, -, longer⟩
      · rw [same]
        exact ih d i _ feeds
      · rw [arrives] at carried
        rw [longer]
        exact carried i feeds
    · rw [Function.update_of_ne own]
      exact ih d i j feeds

/-! ### The end of a stream -/

/-- Without failures the write side of a socket is shut down by the relay that sends on it,
which then has ended. -/
theorem step_halfCloses {u v : State} {a : Action} (inv : Undisrupted u)
    (admitted : Unfailing u a) (moved : Tcp.step u a = some v)
    (shut : (v.socket d.other).writeShut = true) :
    (u.socket d.other).writeShut = true ∨ (v.relay d).pc.hasEnded = true := by
  cases a with
  | relay e result =>
    have orderly := inv.orderly e
    cases relayStep_move moved with
    | shutdownWrite pc =>
      rcases Side.eq_or_other e d with rfl | rfl
      · exact .inr (by simp [RelayPc.hasEnded])
      · exact .inl (by simpa using shut)
    -- a relay gives up its sockets only after a failure
    | abandonDestination pc | abandonSource pc | abandonBoth pc =>
      rw [pc] at orderly
      exact orderly.elim
    | recvEnd | sendPart | sendRest => exact .inl shut
    | recvError | recvChunk | sendError =>
      left
      rcases Side.eq_or_other e d with rfl | rfl <;> simpa using shut
  | worker =>
    left
    cases workerStep_move moved with
    | @close side _ _ =>
      rcases Side.eq_or_other side d.other with same | same <;> simpa [same] using shut
    | invalidateClient | invalidateUpstream => cases d <;> simpa [Side.other] using shut
    | _ => exact shut
  | callStop => exact absurd admitted Bool.false_ne_true
  | stop => simp [Tcp.step, stopStep, inv.noStop] at moved
  | arrive side bytes =>
    obtain ⟨-, rfl⟩ := arrive_move moved
    left
    rcases Side.eq_or_other side d.other with same | same <;> simpa [same] using shut
  | finishStream side | peerReset side =>
    cases moved
    left
    rcases Side.eq_or_other side d.other with same | same <;> simpa [same] using shut

theorem halfClosed_reached {u : State} (reached : session.Reach Unfailing u) :
    ∀ d, (u.socket d.other).writeShut = true → (u.relay d).pc.hasEnded = true := by
  induction reached with
  | start init =>
    intro d shut
    rw [show _ = _ from init] at shut
    cases shut
  | @next u v a before admitted moved ih =>
    intro d shut
    rcases step_halfCloses (undisrupted_reached before) admitted moved shut with already | ended
    · exact step_staysEnded (control_reached before) moved (ih d already)
    · exact ended

/-- What a hop has been told of the end of a stream: the relay that sends it is over, and
everything it has sent has come. -/
theorem ended_reached (reached : (machine n).Reach AllUnfailing s) :
    ∀ d i j, feeder n d j = some i → ((s j).socket d).ended = true →
      ((s i).relay d).pc.hasEnded = true ∧ ((s j).socket d).arrived = delivered d (s i).trace := by
  induction reached with
  | start init =>
    intro d i j _ ended
    rw [show _ = _ from init] at ended
    cases ended
  | @next s t action before admitted moved ih =>
    have single (k : Nat) : session.Reach Unfailing (s k) := hop_reached (fun _ _ => id) before k
    obtain ⟨-, carried, u, stepped, rfl⟩ := step_cases moved
    intro d i j feeds ended
    have apart := feeder_ne feeds
    by_cases own : j = action.1
    · -- the hop itself moves
      subst own
      rw [Function.update_self] at ended ⊢
      rw [Function.update_of_ne apart]
      rcases step_ends (d := d) stepped ended with already | finishes
      · obtain ⟨isOver, all⟩ := ih d i _ feeds already
        refine ⟨isOver, ?_⟩
        rcases step_arrives (d := d) stepped with same | ⟨more, -, going, -⟩
        · rw [same, all]
        · rw [already] at going
          cases going
      · rw [finishes] at carried
        obtain ⟨closed, all⟩ := carried i feeds
        refine ⟨?_, ?_⟩
        · rcases closed with shut | closed
          · exact halfClosed_reached (single i) d shut
          · exact ended_of_closed (control_reached (single i)) closed d
        · rcases step_arrives (d := d) stepped with same | ⟨more, arrives, -⟩
          · rw [same, all]
          · rw [finishes] at arrives
            cases arrives
    · rw [Function.update_of_ne own] at ended ⊢
      obtain ⟨isOver, all⟩ := ih d i j feeds ended
      by_cases sends : i = action.1
      · -- the hop before moves: its relay has ended
        subst sends
        rw [Function.update_self]
        exact ⟨step_staysEnded (control_reached (single _)) stepped isOver,
          by rw [all, step_silent_of_ended stepped isOver]⟩
      · rw [Function.update_of_ne sends]
        exact ⟨isOver, all⟩

/-! ### From end to end -/

/-- The hop at which the stream of direction `d` enters a chain whose last hop is `n`. -/
def entry (n : Nat) : Side → Nat
  | .client => 0
  | .upstream => n

/-- Either stream gets to every hop, by way of hops of the chain. -/
theorem path (d : Side) {k : Nat} (inside : k ≤ n) :
    ReflTransGen (fun i j => feeder (n + 1) d j = some i ∧ i ≤ n ∧ j ≤ n) (entry n d) k := by
  cases d with
  | client =>
    refine reflTransGen_of_succ_of_le _ (fun i within => ?_) (Nat.zero_le k)
    obtain ⟨-, less⟩ := Set.mem_Ico.mp within
    exact ⟨rfl, (Nat.le_of_lt less).trans inside, Nat.le_trans less inside⟩
  | upstream =>
    refine reflTransGen_of_succ_of_ge _ (fun i within => ?_) inside
    obtain ⟨-, less⟩ := Set.mem_Ico.mp within
    exact ⟨if_pos (Nat.succ_lt_succ less), less, Nat.le_of_lt less⟩

theorem entry_le (n : Nat) (d : Side) : entry n d ≤ n := by
  cases d with
  | client => exact Nat.zero_le n
  | upstream => exact Nat.le_refl n

/-- What a hop has sent is the beginning of what has come in at the first. -/
theorem delivered_entry {ok : (Nat → State) → Nat × Action → Prop}
    (reached : (machine (n + 1)).Reach ok s) {k : Nat} (inside : k ≤ n) :
    delivered d (s k).trace <+: ((s (entry n d)).socket d).arrived := by
  have single (k : Nat) : session.Reach Machine.anyStep (s k) :=
    hop_reached (fun _ _ _ => trivial) reached k
  exact prefix_of_path (fun k => ((s k).socket d).arrived) (fun k => delivered d (s k).trace)
    (fun k => delivered_arrived (single k)) (fun i j feeds => linked_reached reached d i j feeds.1)
    (path d inside)

/-- A hop whose relay is over has sent all that has come in at the first. -/
theorem complete_entry (reached : (machine (n + 1)).Reach AllUnfailing s) {k : Nat}
    (inside : k ≤ n) (isOver : ((s k).relay d).pc.hasEnded = true) :
    ((s (entry n d)).socket d).ended = true ∧
      delivered d (s k).trace = ((s (entry n d)).socket d).arrived := by
  have single (k : Nat) : session.Reach Unfailing (s k) := hop_reached (fun _ _ => id) reached k
  refine complete_of_path (fun k => ((s k).socket d).arrived)
    (fun k => delivered d (s k).trace) (fun k => ((s k).relay d).pc.hasEnded = true)
    (fun k => ((s k).socket d).ended = true) (fun k isOver => ?_)
    (fun i j feeds ended => ended_reached reached d i j feeds.1 ended) (path d inside) isOver
  obtain ⟨p, carries⟩ := carries_reached (single k) d
  exact carries.complete (undisrupted_reached (single k)) isOver

/-- End-to-end fidelity of a chain of any number of sessions, under every interleaving of the
threads of all hops with the connections between them. In each direction what the last hop has
sent is the beginning of what has arrived at the first; and if no call fails and no session is
stopped, the last hop ends its direction only after the far peer has finished, and then it has
sent all of the stream. -/
theorem chain_fidelity (n : Nat) (s : Nat → State) (d : Side) :
    ((machine (n + 1)).Reach Machine.anyStep s →
      delivered d (s (entry n d.other)).trace <+: ((s (entry n d)).socket d).arrived) ∧
    ((machine (n + 1)).Reach AllUnfailing s →
      ((s (entry n d.other)).relay d).pc.hasEnded = true →
        ((s (entry n d)).socket d).ended = true ∧
          delivered d (s (entry n d.other)).trace = ((s (entry n d)).socket d).arrived) := by
  constructor
  · intro reached
    exact delivered_entry reached (entry_le n d.other)
  · intro reached isOver
    exact complete_entry reached (entry_le n d.other) isOver

/-- Two bytes and the end of the stream through one hop, and then through the next, which takes
the bytes one at a time. -/
def twoHops : List (Nat × Action) :=
  ([.worker, .worker, .arrive .client [7, 8], .finishStream .client, .relay .client 2,
    .relay .client 2, .relay .client 0, .relay .client 0] : List Action).map (Prod.mk 0) ++
  ([.worker, .arrive .client [7], .relay .client 1, .arrive .client [8], .relay .client 1,
    .relay .client 1, .finishStream .client, .relay .client 1, .relay .client 0,
    .relay .client 0] : List Action).map (Prod.mk 1)

theorem chain_fidelity_two :
    ∃ s, (machine 2).Reach AllUnfailing s ∧ ((s 1).relay .client).pc.hasEnded = true ∧
      ((s 0).socket .client).ended = true ∧ ((s 0).socket .client).arrived = [7, 8] ∧
      delivered .client (s 1).trace = ((s 0).socket .client).arrived := by
  have result : ((machine 2).runIf AllUnfailing (fun _ => initial) twoHops).map (fun s =>
      (((s 1).relay .client).pc.hasEnded, ((s 0).socket .client).arrived)) =
        some (true, [7, 8]) := by
    decide +kernel
  obtain ⟨s, run, seen⟩ := Option.map_eq_some_iff.mp result
  obtain ⟨done, sent⟩ := Prod.mk.inj seen
  have reached : (machine 2).Reach AllUnfailing s := Machine.Reach.runIf (.start rfl) run
  obtain ⟨ended, whole⟩ := (chain_fidelity 1 s .client).2 reached done
  exact ⟨s, reached, done, ended, sent, whole⟩

end PortForwardX.Tcp.Chain
