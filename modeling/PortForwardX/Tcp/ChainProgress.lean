import PortForwardX.Tcp.Chain
import Mathlib.Order.Filter.AtTopBot.Finite

/-!
# A chain gets on

What has come in at one end of a chain gets out at the other, hop by hop and connection by
connection, and when both streams have ended all sessions of the chain end.
-/
namespace PortForwardX.Tcp.Chain

open Transition Conduit Relation

variable {n : Nat} {s t : Nat → State} {action : Nat × Action} {i k m u : Nat} {d : Side}

/-- The steps of hop `k` on which direction `d` depends. -/
def Turn (d : Side) (k : Nat) (s : Nat → State) (action : Nat × Action) : Prop :=
  action.1 = k ∧ Drives d (s k) action.2

/-- The connection into hop `k` brings bytes, or the end that the hop has not been told of. -/
def Delivery (d : Side) (k : Nat) (s : Nat → State) (action : Nat × Action) : Prop :=
  action.1 = k ∧ ((∃ b bytes, action.2 = .arrive d (b :: bytes)) ∨
    (action.2 = .finishStream d ∧ ((s k).socket d).ended = false))

/-- In direction `d` neither a hop nor a connection between hops is held up for ever. Of the peer
at the entry nothing is asked, of the one at the far end that it reads: a relay whose `Send`
waits for it is held up. -/
structure FairTo (d : Side) (e : (machine (n + 1)).Execution AllUnfailing) : Prop where
  turns : ∀ k ≤ n, e.Fair (Turn d k)
  deliveries : ∀ k ≤ n, ∀ i, feeder (n + 1) d k = some i → e.Fair (Delivery d k)

/-! ### Hops -/

/-- A hop of a chain in which nothing fails. -/
def single (n k : Nat) : (machine n).Component AllUnfailing session Unfailing :=
  hop (fun _ _ admitted => admitted) k

/-- A chain does not hold a hop's threads up. -/
theorem single_fair {e : (machine (n + 1)).Execution AllUnfailing} (inside : k ≤ n)
    (fair : e.Fair (Turn d k)) : ((single (n + 1) k).execution e).Fair (Drives d) := by
  refine (single (n + 1) k).fair (fun _ => True) ?_ ?_ (fun i (_ : 0 ≤ i) => trivial) fair
  · rintro s action ⟨own, drives⟩
    exact ⟨action.2, if_pos own, drives⟩
  · intro s a _ drives possible
    refine ⟨(k, a), ⟨rfl, drives⟩, ?_⟩
    have carried : Carried (n + 1) s k a := by
      obtain ⟨rfl | ⟨r, rfl⟩, -⟩ := drives <;> exact trivial
    change step (n + 1) s (k, a) ≠ none
    rw [step, if_pos ⟨Nat.lt_succ_of_le inside, carried⟩, Ne, Option.map_eq_none_iff]
    exact possible

/-- What every step of a session does to it, every step of a chain does to each hop. -/
theorem step_hop {R : State → State → Prop} (refl : ∀ v, R v v)
    (steps : ∀ v w a, Tcp.step v a = some w → R v w) (moved : (machine n).step s action = some t)
    (k : Nat) : R (s k) (t k) := by
  obtain ⟨-, -, v, stepped, rfl⟩ := step_cases moved
  by_cases own : k = action.1
  · subst own
    rw [Function.update_self]
    exact steps _ _ _ stepped
  · rw [Function.update_of_ne own]
    exact refl _

theorem sent_grows (moved : (machine n).step s action = some t) (k : Nat) :
    delivered d (s k).trace <+: delivered d (t k).trace :=
  step_hop (R := fun v w => delivered d v.trace <+: delivered d w.trace)
    (fun _ => List.prefix_refl _) (fun _ _ _ stepped => step_delivered stepped) moved k

theorem arrived_grows (moved : (machine n).step s action = some t) (k : Nat) :
    ((s k).socket d).arrived <+: ((t k).socket d).arrived :=
  step_hop (R := fun v w => (v.socket d).arrived <+: (w.socket d).arrived)
    (fun _ => List.prefix_refl _)
    (fun _ _ _ stepped => step_arrived stepped (List.prefix_refl _)) moved k

/-- A relay that is over stays so and sends no more. -/
theorem isOver_stays (reached : (machine n).Reach AllUnfailing s)
    (moved : (machine n).step s action = some t) (isOver : ((s k).relay d).pc.hasEnded = true) :
    ((t k).relay d).pc.hasEnded = true ∧ delivered d (t k).trace = delivered d (s k).trace := by
  obtain ⟨-, -, v, stepped, rfl⟩ := step_cases moved
  by_cases own : k = action.1
  · subst own
    rw [Function.update_self]
    have control := control_reached ((single n action.1).reach reached)
    exact ⟨step_staysEnded control stepped isOver, step_silent_of_ended stepped isOver⟩
  · rw [Function.update_of_ne own]
    exact ⟨isOver, rfl⟩

/-! ### Connections -/

/-- A delivery makes what has arrived longer, or it ends the stream. -/
theorem delivery_adds (delivery : Delivery d k s action)
    (moved : (machine n).step s action = some t) :
    ((s k).socket d).arrived.length < ((t k).socket d).arrived.length ∨
      ((t k).socket d).ended = true := by
  obtain ⟨-, -, v, stepped, rfl⟩ := step_cases moved
  obtain ⟨rfl, ⟨b, bytes, arrives⟩ | ⟨finishes, -⟩⟩ := delivery
  · rw [arrives] at stepped
    obtain ⟨-, rfl⟩ := arrive_move stepped
    left
    simp
  · rw [finishes] at stepped
    cases stepped
    right
    simp

/-- A connection brings whatever is under way, or else the end once there is one. -/
theorem delivery_ready (reached : (machine (n + 1)).Reach AllUnfailing s) (inside : k ≤ n)
    (feeds : feeder (n + 1) d k = some i) (going : ((s k).socket d).ended = false)
    (waits : ((s k).socket d).arrived.length < (delivered d (s i).trace).length ∨
      ((s i).relay d).pc.hasEnded = true) :
    ∃ action, Delivery d k s action ∧ (machine (n + 1)).step s action ≠ none := by
  obtain ⟨rest, all⟩ := linked_reached reached d i k feeds
  cases rest with
  | nil =>
    rw [List.append_nil] at all
    have isOver := waits.resolve_left (by simp [all])
    have shut := writeShut_reached ((single (n + 1) i).reach reached) d isOver
    refine ⟨(k, .finishStream d), ⟨rfl, .inr ⟨rfl, going⟩⟩, ?_⟩
    have carried : Carried (n + 1) s k (.finishStream d) := by
      intro j feeds'
      obtain rfl : i = j := Option.some.inj (feeds.symm.trans feeds')
      exact ⟨.inl shut, all⟩
    change step (n + 1) s _ ≠ none
    rw [step, if_pos ⟨Nat.lt_succ_of_le inside, carried⟩]
    simp [Tcp.step]
  | cons b bytes =>
    refine ⟨(k, .arrive d (b :: bytes)), ⟨rfl, .inl ⟨b, bytes, rfl⟩⟩, ?_⟩
    have carried : Carried (n + 1) s k (.arrive d (b :: bytes)) := by
      intro j feeds'
      obtain rfl : i = j := Option.some.inj (feeds.symm.trans feeds')
      rw [all]
    change step (n + 1) s _ ≠ none
    rw [step, if_pos ⟨Nat.lt_succ_of_le inside, carried⟩]
    simp [Tcp.step, going]

/-- Of the first `m` bytes of a stream, all of which hop `i` has sent, some have not arrived at
hop `k`. -/
structure Underway (d : Side) (i k m : Nat) (s : Nat → State) : Prop where
  sent : m ≤ (delivered d (s i).trace).length
  missing : ((s k).socket d).arrived.length < m

/-- What one hop has sent comes to the next. -/
theorem eventually_arrived {e : (machine (n + 1)).Execution AllUnfailing} (fair : FairTo d e)
    (inside : k ≤ n) (feeds : feeder (n + 1) d k = some i)
    (sent : m ≤ (delivered d (e.state u i).trace).length) :
    ∃ v, u ≤ v ∧ m ≤ ((e.state v k).socket d).arrived.length := by
  by_cases already : m ≤ ((e.state u k).socket d).arrived.length
  · exact ⟨u, Nat.le_refl u, already⟩
  · apply e.eventually (Underway d i k m) (fun s => m ≤ ((s k).socket d).arrived.length)
      (fun s => m - ((s k).socket d).arrived.length) (fair.deliveries k inside i feeds) _ _
      ⟨sent, Nat.lt_of_not_le already⟩
    · intro s t action reached underway admitted moved
      have more := (arrived_grows (d := d) moved k).length_le
      by_cases through : m ≤ ((t k).socket d).arrived.length
      · exact .inl through
      · have sent := underway.sent.trans (sent_grows moved i).length_le
        refine .inr ⟨⟨sent, Nat.lt_of_not_le through⟩, by omega, fun delivery => ?_⟩
        rcases delivery_adds delivery moved with longer | ended
        · omega
        · -- the end comes behind everything that was sent
          have all := (ended_reached (.next reached admitted moved) d i k feeds ended).2
          rw [all] at through
          exact absurd sent through
    · intro s reached underway
      apply delivery_ready reached inside feeds _ (.inl (underway.missing.trans_le underway.sent))
      rw [← Bool.not_eq_true]
      intro ended
      have missing := underway.missing
      rw [(ended_reached reached d i k feeds ended).2] at missing
      exact absurd underway.sent (Nat.not_le_of_lt missing)

/-- One hop's relay is over, and the next hop has not been told of the end of the stream. -/
structure Untold (d : Side) (i k : Nat) (s : Nat → State) : Prop where
  isOver : ((s i).relay d).pc.hasEnded = true
  going : ((s k).socket d).ended = false

/-- When a relay is over the next hop is told of the end. -/
theorem eventually_told {e : (machine (n + 1)).Execution AllUnfailing} (fair : FairTo d e)
    (inside : k ≤ n) (feeds : feeder (n + 1) d k = some i)
    (isOver : ((e.state u i).relay d).pc.hasEnded = true) :
    ∃ v, u ≤ v ∧ ((e.state v k).socket d).ended = true := by
  by_cases already : ((e.state u k).socket d).ended = true
  · exact ⟨u, Nat.le_refl u, already⟩
  · apply e.eventually (Untold d i k) (fun s => ((s k).socket d).ended = true)
      (fun s => (delivered d (s i).trace).length - ((s k).socket d).arrived.length)
      (fair.deliveries k inside i feeds) _ _ ⟨isOver, Bool.eq_false_iff.mpr already⟩
    · intro s t action reached untold admitted moved
      by_cases ended : ((t k).socket d).ended = true
      · exact .inl ended
      · obtain ⟨isOver, silent⟩ := isOver_stays reached moved untold.isOver
        have more := (arrived_grows (d := d) moved k).length_le
        have bound :=
          (linked_reached (.next reached admitted moved) d i k feeds).length_le
        refine .inr ⟨⟨isOver, Bool.eq_false_iff.mpr ended⟩, ?_, fun delivery => ?_⟩
        · rw [silent]
          omega
        · rcases delivery_adds delivery moved with longer | told
          · rw [silent] at bound ⊢
            omega
          · exact absurd told ended
    · intro s reached untold
      exact delivery_ready reached inside feeds untold.going (.inr untold.isOver)

/-! ### From end to end -/

/-- Everything comes through a chain. As long as no call fails, every byte that has arrived at
one end is eventually sent at the other end, in order: through every number of hops, however
the hops and the connections between them cut the stream up, and whatever becomes of the
opposite direction. The peer at the other end has to read. -/
theorem chain_delivers (n : Nat) (d : Side) (e : (machine (n + 1)).Execution AllUnfailing)
    (fair : FairTo d e) (i : Nat) :
    ∃ j, i ≤ j ∧ ((e.state i (entry n d)).socket d).arrived <+:
      delivered d (e.state j (entry n d.other)).trace := by
  have through : ∃ j, i ≤ j ∧ entry n d.other ≤ n ∧
      ((e.state i (entry n d)).socket d).arrived.length ≤
        (delivered d (e.state j (entry n d.other)).trace).length := by
    apply eventually_of_path
      (fun k u => k ≤ n ∧ ((e.state i (entry n d)).socket d).arrived.length ≤
        ((e.state u k).socket d).arrived.length)
      (fun k u => k ≤ n ∧ ((e.state i (entry n d)).socket d).arrived.length ≤
        (delivered d (e.state u k).trace).length)
      _ _ (path d (entry_le n d.other)) ⟨entry_le n d, Nat.le_refl _⟩
    · rintro k u ⟨inside, arrived⟩
      obtain ⟨v, later, sent⟩ :=
        eventually_delivered _ (single_fair inside (fair.turns k inside)) arrived
      exact ⟨v, later, inside, sent⟩
    · rintro k k' u ⟨feeds, -, inside⟩ ⟨-, sent⟩
      obtain ⟨v, later, arrived⟩ := eventually_arrived fair inside feeds sent
      exact ⟨v, later, inside, arrived⟩
  obtain ⟨j, later, -, long⟩ := through
  refine ⟨j, later, ?_⟩
  -- both are beginnings of what has come in by then
  have source : ((e.state i (entry n d)).socket d).arrived <+:
      ((e.state j (entry n d)).socket d).arrived :=
    e.stable (P := fun s => ((e.state i (entry n d)).socket d).arrived <+:
        ((s (entry n d)).socket d).arrived)
      (fun _ _ _ _ moved before => before.trans (arrived_grows moved _)) later
      (List.prefix_refl _)
  exact List.prefix_of_prefix_length_le source
    (delivered_entry (e.reach j) (entry_le n d.other)) long

/-- A finite run is fair if it leaves nothing for a hop to do and no hop untold. -/
theorem fairTo_ofRun {as : List (Nat × Action)}
    (run : (machine (n + 1)).runIf AllUnfailing (fun _ => initial) as = some s)
    (rest : ∀ k ≤ n, ((s k).socket d).ended = true ∧
      ∀ a, Drives d (s k) a → Tcp.step (s k) a = none) :
    FairTo d (Machine.Execution.ofRun (m := machine (n + 1)) rfl run) := by
  constructor
  · intro k inside
    apply Machine.Execution.fair_ofRun
    rintro ⟨k', a⟩ ⟨rfl, drives⟩
    change step (n + 1) s _ = none
    rw [step, ite_eq_right_iff, (rest _ inside).2 a drives]
    exact fun _ => rfl
  · intro k inside i feeds
    apply Machine.Execution.fair_ofRun
    rintro ⟨k', a⟩ ⟨rfl, ⟨b, bytes, rfl⟩ | ⟨-, going⟩⟩
    · change step (n + 1) s _ = none
      rw [step, ite_eq_right_iff]
      simp [Tcp.step, (rest _ inside).1]
    · exact absurd going (by simp [(rest _ inside).1])

/-- Two bytes and the end of the stream through two hops. The workers then wait for the relays of
the opposite direction, which has nothing to carry. -/
def towardsUpstream : List (Nat × Action) :=
  twoHops ++ [(0, .worker), (1, .worker), (1, .worker)]

theorem chain_delivers_two :
    ∃ e : (machine 2).Execution AllUnfailing, FairTo .client e ∧
      ((e.state 3 0).socket .client).arrived = [7, 8] ∧ delivered .client (e.state 3 1).trace = [] ∧
      ∃ j, 3 ≤ j ∧ ((e.state 3 0).socket .client).arrived <+:
        delivered .client (e.state j 1).trace := by
  have result : ((machine 2).runIf AllUnfailing (fun _ => initial) towardsUpstream).map (fun s =>
      (List.range 2).all fun k => decide ((s k).worker = .joinDownstream ∧
        ((s k).relay .client).pc = .ended .endOfStream ∧ ((s k).relay .upstream).pc = .recv ∧
        ((s k).socket .client).ended = true)) = some true := by
    decide +kernel
  obtain ⟨s, run, seen⟩ := Option.map_eq_some_iff.mp result
  rw [List.all_eq_true] at seen
  have fair : FairTo .client (Machine.Execution.ofRun (m := machine 2) rfl run) := by
    refine fairTo_ofRun run fun k inside => ?_
    obtain ⟨worker, pc, waits, ended⟩ :=
      of_decide_eq_true (seen k (List.mem_range.mpr (Nat.lt_succ_of_le inside)))
    refine ⟨ended, ?_⟩
    rintro a ⟨rfl | ⟨r, rfl⟩, -⟩
    · simp [Tcp.step, workerStep, worker, waits, RelayPc.hasEnded]
    · simp [Tcp.step, relayStep, pc]
  have early : ((machine 2).run (fun _ => initial) (towardsUpstream.take 3)).map (fun s =>
      decide (((s 0).socket .client).arrived = [7, 8] ∧ delivered .client (s 1).trace = [])) =
        some true := by
    decide +kernel
  rw [Machine.Execution.ofRun_take (m := machine 2) rfl run (by decide), Option.map_some,
    Option.some.injEq, decide_eq_true_eq] at early
  exact ⟨_, fair, early.1, early.2, chain_delivers 1 .client _ fair 3⟩

/-- The whole chain comes to its end. As long as no call fails and the two outer peers read, once
both have finished sending, in whichever order, every session of the chain ends with its sockets
closed, and each of the two peers has been sent exactly what the other one sent. -/
theorem chain_completes (n : Nat) (e : (machine (n + 1)).Execution AllUnfailing)
    (fair : ∀ d, FairTo d e) (i : Nat)
    (ended : ∀ d, ((e.state i (entry n d)).socket d).ended = true) :
    ∃ j, i ≤ j ∧ ∀ u, j ≤ u →
      (∀ k ≤ n, (e.state u k).finished = true ∧ ∀ d, ((e.state u k).socket d).isOpen = false) ∧
      ∀ d, delivered d (e.state u (entry n d.other)).trace =
        ((e.state u (entry n d)).socket d).arrived := by
  -- the end of each stream gets to every hop
  have relays (d : Side) (k : Nat) (inside : k ≤ n) :
      ∃ j, i ≤ j ∧ k ≤ n ∧ ((e.state j k).relay d).pc.hasEnded = true := by
    apply eventually_of_path (fun k u => k ≤ n ∧ ((e.state u k).socket d).ended = true)
      (fun k u => k ≤ n ∧ ((e.state u k).relay d).pc.hasEnded = true)
      _ _ (path d inside) ⟨entry_le n d, ended d⟩
    · rintro k u ⟨inside, ended⟩
      obtain ⟨v, later, isOver⟩ :=
        eventually_ended _ (single_fair inside ((fair d).turns k inside)) ended
      exact ⟨v, later, inside, isOver⟩
    · rintro k k' u ⟨feeds, -, inside⟩ ⟨-, isOver⟩
      obtain ⟨v, later, told⟩ := eventually_told (fair d) inside feeds isOver
      exact ⟨v, later, inside, told⟩
  -- so every session ends
  have settled (k : Nat) (inside : k ≤ n) :
      ∀ᶠ u in Filter.atTop, (e.state u k).worker = .done := by
    have still (d : Side) {u v : Nat} (later : u ≤ v)
        (isOver : ((e.state u k).relay d).pc.hasEnded = true) :
        ((e.state v k).relay d).pc.hasEnded = true :=
      e.stable (P := fun s => ((s k).relay d).pc.hasEnded = true)
        (fun _ _ _ reached moved now => (isOver_stays reached moved now).1) later isOver
    obtain ⟨u, -, -, client⟩ := relays .client k inside
    obtain ⟨v, -, -, upstream⟩ := relays .upstream k inside
    have both (d : Side) : ((e.state (max u v) k).relay d).pc.hasEnded = true := by
      cases d with
      | client => exact still _ (Nat.le_max_left u v) client
      | upstream => exact still _ (Nat.le_max_right u v) upstream
    obtain ⟨w, -, done⟩ :=
      eventually_done _ (single_fair inside ((fair .client).turns k inside)) both
    refine Filter.eventually_atTop.mpr ⟨w, fun x later => ?_⟩
    exact e.stable (P := fun s => (s k).worker = .done)
      (fun _ _ _ _ moved now => step_hop (R := fun v w => v.worker = .done → w.worker = .done)
        (fun _ => id) (fun _ _ _ stepped => (step_staysDone stepped).1) moved k now) later done
  obtain ⟨j, all⟩ := Filter.eventually_atTop.mp ((Set.finite_le_nat n).eventually_all.mpr settled)
  refine ⟨max i j, Nat.le_max_left i j, fun u later => ?_⟩
  have closed (k : Nat) (inside : k ≤ n) : (e.state u k).finished = true ∧
      ∀ d, ((e.state u k).socket d).isOpen = false ∧
        ((e.state u k).relay d).pc.hasEnded = true := by
    have control := control_reached ((single (n + 1) k).reach (e.reach u))
    have finished := control.finished.mpr (all u ((Nat.le_max_right i j).trans later) k inside)
    exact ⟨finished, control.closed_of_finished finished⟩
  refine ⟨fun k inside => ⟨(closed k inside).1, fun d => ((closed k inside).2 d).1⟩, fun d => ?_⟩
  have last := entry_le n d.other
  exact (complete_entry (e.reach u) last ((closed _ last).2 d).2).2

/-- One byte one way and two the other through two hops. Both peers finish before a relay has
begun. -/
def bothWays : List (Nat × Action) :=
  ([.worker, .worker, .arrive .client [7], .finishStream .client] : List Action).map (Prod.mk 0) ++
  ([.worker, .worker, .arrive .upstream [8, 9], .finishStream .upstream] :
    List Action).map (Prod.mk 1) ++
  ([.relay .client 1, .relay .client 1, .relay .client 0, .relay .client 0] :
    List Action).map (Prod.mk 0) ++
  ([.arrive .client [7], .finishStream .client, .relay .client 1, .relay .client 1,
    .relay .client 0, .relay .client 0, .relay .upstream 2, .relay .upstream 2,
    .relay .upstream 0, .relay .upstream 0] ++ List.replicate 9 .worker :
    List Action).map (Prod.mk 1) ++
  ([.arrive .upstream [8, 9], .finishStream .upstream, .relay .upstream 2, .relay .upstream 2,
    .relay .upstream 0, .relay .upstream 0] ++ List.replicate 9 .worker :
    List Action).map (Prod.mk 0)

theorem chain_completes_both :
    ∃ e : (machine 2).Execution AllUnfailing, (∀ d, FairTo d e) ∧
      (∀ d, ((e.state 8 (entry 1 d)).socket d).ended = true) ∧
      (∀ d, delivered d (e.state 8 (entry 1 d.other)).trace = []) ∧
      ∃ j, 8 ≤ j ∧ ∀ u, j ≤ u →
        (∀ k ≤ 1, (e.state u k).finished = true ∧ ∀ d, ((e.state u k).socket d).isOpen = false) ∧
        ∀ d, delivered d (e.state u (entry 1 d.other)).trace =
          ((e.state u (entry 1 d)).socket d).arrived := by
  have result : ((machine 2).runIf AllUnfailing (fun _ => initial) bothWays).map (fun s =>
      (List.range 2).all fun k => decide ((s k).worker = .done ∧
        ((s k).socket .client).ended = true ∧ ((s k).socket .upstream).ended = true)) =
        some true := by
    decide +kernel
  obtain ⟨s, run, seen⟩ := Option.map_eq_some_iff.mp result
  rw [List.all_eq_true] at seen
  have reached : (machine 2).Reach AllUnfailing s := Machine.Reach.runIf (.start rfl) run
  have fair (d : Side) : FairTo d (Machine.Execution.ofRun (m := machine 2) rfl run) := by
    refine fairTo_ofRun run fun k inside => ?_
    obtain ⟨done, ended⟩ :=
      of_decide_eq_true (seen k (List.mem_range.mpr (Nat.lt_succ_of_le inside)))
    have control := control_reached ((single 2 k).reach reached)
    refine ⟨(Side.forall (P := fun d => ((s k).socket d).ended = true)).mpr ended d, ?_⟩
    rintro a ⟨rfl | ⟨r, rfl⟩, -⟩
    · exact (control.isOver done d 0).1
    · exact (control.isOver done d r).2
  have early : ((machine 2).run (fun _ => initial) (bothWays.take 8)).map (fun s =>
      decide ((((s 0).socket .client).ended = true ∧ ((s 1).socket .upstream).ended = true) ∧
        delivered .client (s 1).trace = [] ∧ delivered .upstream (s 0).trace = [])) =
        some true := by
    decide +kernel
  rw [Machine.Execution.ofRun_take (m := machine 2) rfl run (by decide), Option.map_some,
    Option.some.injEq, decide_eq_true_eq] at early
  obtain ⟨ended, idle⟩ := early
  have ended' (d : Side) : (((Machine.Execution.ofRun (m := machine 2) rfl run).state 8
      (entry 1 d)).socket d).ended = true := by
    cases d with
    | client => exact ended.1
    | upstream => exact ended.2
  refine ⟨_, fair, ended', fun d => ?_, chain_completes 1 _ fair 8 ended'⟩
  cases d with
  | client => exact idle.1
  | upstream => exact idle.2

end PortForwardX.Tcp.Chain
