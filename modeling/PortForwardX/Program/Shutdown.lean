import PortForwardX.Forwarder.Termination
import PortForwardX.Program.Lifecycle
import PortForwardX.Transition.Fairness

/-!
# The way out

Once a signal has come, or a forwarder could not be started, `main` returns. It waits for the
`Stop` of one forwarder after the other, and the others may go on serving meanwhile.
-/
namespace PortForwardX.Program

open Transition Net
open Forwarder (Phase Consistent)

/-- What is asked of every TCP forwarder. -/
def Ruled (s : State) (action : Action) : Prop :=
  (∀ r ∈ s.forwarders, Forwarder.Ruled r.forwarder .stop) ∧
    match action with
    | .thread i a => ∀ r ∈ s.forwarders[i]?, Forwarder.Ruled r.forwarder a
    | _ => True

instance decidableRuled (s : State) : ∀ action, Decidable (Ruled s action)
  | .thread i a =>
    inferInstanceAs (Decidable (_ ∧ ∀ r ∈ s.forwarders[i]?, Forwarder.Ruled r.forwarder a))
  | .main | .start _ | .signal => inferInstanceAs (Decidable (_ ∧ True))

/-- `main` waits for the `Stop` of the `i`-th forwarder. -/
def Pc.waitsFor (i : Nat) : Pc → Bool
  | .inStop j _ => i == j
  | _ => false

theorem Pc.waitsFor_iff {pc : Pc} {i : Nat} :
    pc.waitsFor i = true ↔ ∃ code, pc = .inStop i code := by
  cases pc with
  | inStop j code =>
    simp only [waitsFor, beq_iff_eq, inStop.injEq]
    exact ⟨fun same => ⟨code, same.symm, rfl⟩, fun ⟨_, same, _⟩ => same.symm⟩
  | _ => simp [waitsFor]

/-- The steps that the way out depends on: those of `main`, and those that the `Stop` which
`main` waits for depends on. -/
def Urgent (s : State) : Action → Prop
  | .main | .start _ => True
  | .thread i a => s.pc.waitsFor i = true ∧ ∀ r ∈ s.forwarders[i]?, Forwarder.Urgent r.forwarder a
  | .signal => False

/-- Those of them that come in time. -/
def Prompt (s : State) : Action → Prop
  | .main | .start _ => True
  | .thread i a => s.pc.waitsFor i = true ∧ ∀ r ∈ s.forwarders[i]?, Forwarder.Prompt r.forwarder a
  | .signal => False

/-- A thread of the forwarder that `main` waits for is in a call that need not return. -/
def Lost (s : State) : Prop :=
  ∃ i r, s.pc.waitsFor i = true ∧ s.forwarders[i]? = some r ∧ Forwarder.Lost r.forwarder

/-! ### What is left to do -/

/-- `main` is in its last loop, or behind it. -/
def Pc.stops : Pc → Bool
  | .stop _ _ | .inStop _ _ | .returned _ => true
  | _ => false

/-- `main` is on its way out. -/
structure Leaving (s : State) : Prop where
  unaborted : s.aborted = false
  unreturned : s.pc.isReturned = false
  reason : s.stopRequested = true ∨ s.pc.stops = true

/-- How far `main` is from its last loop. -/
def Pc.stage : Pc → Nat
  | .parse => 5
  | .startTcp _ => 4
  | .startUdp _ => 3
  | .announce _ => 2
  | .wait _ => 1
  | .stop _ _ | .inStop _ _ | .returned _ => 0

/-- How many forwarders out of `n` `main` has still to stop in that loop, counted twice. -/
def Pc.left (n : Nat) : Pc → Nat
  | .stop i _ => 2 * (n - i) + 1
  | .inStop i _ => 2 * (n - i)
  | _ => 0

/-- What the `Stop` that `main` waits for has still to do. -/
def State.waited (s : State) : Nat ×ₗ Nat ×ₗ Nat ×ₗ Nat :=
  match s.pc with
  | .inStop i _ =>
    match s.forwarders[i]? with
    | some r => r.forwarder.impl.rank
    | none => ⊥
  | _ => ⊥

def State.rank (s : State) : Nat ×ₗ Nat ×ₗ Nat ×ₗ Nat ×ₗ Nat ×ₗ Nat :=
  toLex (s.pc.stage, toLex (s.pc.left s.forwarders.length, s.waited))

variable {inv : Invocation} {s t : State} {action : Action}

theorem Prompt.urgent (prompt : Prompt s action) : Urgent s action := by
  cases action with
  | thread i a => exact ⟨prompt.1, fun r here => (prompt.2 r here).urgent⟩
  | _ => exact prompt

/-! ### What holds unless the process has been ended -/

theorem step_unended (moved : (process inv).step s action = some t) :
    s.aborted = false ∧ s.pc.isReturned = false := by
  change step inv s action = some t at moved
  unfold step at moved
  rw [Option.ite_none_left_eq_some, Bool.or_eq_true, not_or, Bool.not_eq_true,
    Bool.not_eq_true] at moved
  exact moved.1

theorem aborted_eq_false :
    s.aborted = false ↔ ∀ r ∈ s.forwarders, r.forwarder.terminated = false := by
  simp [State.aborted]

theorem not_start {a : Forwarder.Action} (threads : a.ofThreads = true) (message : Option String)
    (calls : Forwarder.StartCalls) : a ≠ .start message calls := by
  rintro rfl
  cases threads

theorem step_starts (moved : (process inv).step s action = some t) (alive : t.aborted = false) :
    startsThreads s action := by
  cases step_move moved with
  | @thread i a r f how threads here called =>
    intro q found
    obtain rfl : r = q := Option.some.inj (here.symm.trans found)
    refine (Forwarder.call_inside (not_start threads) called).starts ?_
    refine aborted_eq_false.mp alive { r with forwarder := f } (List.mem_set ?_ _)
    exact (List.getElem?_eq_some_iff.mp here).1
  | _ => trivial

theorem step_reached (reached : ∀ r ∈ s.forwarders, r.forwarder.impl.Reached (inv.setup r.config))
    (ruled : Ruled s action) (moved : (process inv).step s action = some t) :
    ∀ r ∈ t.forwarders, r.forwarder.impl.Reached (inv.setup r.config) := by
  have pushed {job : Job} {protocol : TransportProtocol} {calls : Forwarder.StartCalls}
      (same : t.forwarders = (s.startForwarder inv job protocol calls).1.forwarders) :
      ∀ r ∈ t.forwarders, r.forwarder.impl.Reached (inv.setup r.config) := by
    rw [same]
    rcases startForwarder_spec inv s job protocol calls with
      ⟨-, f, new, result, -⟩ | ⟨-, text, new⟩
    · rw [new]
      intro r member
      rcases List.mem_append.mp member with old | last
      · exact reached r old
      · rw [List.mem_singleton.mp last]
        have started := Forwarder.start_reached (congrArg Prod.snd result)
        rwa [result] at started
    · rw [new]
      exact reached
  have advanced {i : Nat} {r : RunningForwarder} {f : Forwarder.State} {b : Forwarder.Action}
      {how : Option Forwarder.Return} (here : s.forwarders[i]? = some r)
      (called : Forwarder.call (inv.setup r.config) r.forwarder b = some (f, how))
      (other : ∀ message calls, b ≠ .start message calls)
      (ruled : Forwarder.Ruled r.forwarder b)
      (same : t.forwarders = s.forwarders.set i { r with forwarder := f }) :
      ∀ r ∈ t.forwarders, r.forwarder.impl.Reached (inv.setup r.config) := by
    rw [same]
    intro q member
    rcases List.mem_or_eq_of_mem_set member with old | rfl
    · exact reached q old
    · exact (Forwarder.call_inside other called).reached ruled
        (reached r (List.mem_of_getElem? here))
  cases step_move moved with
  | parse =>
    rw [parse_forwarders]
    exact reached
  | skipTcp | skipUdp | announce | sleep | wake | leave | signal => exact reached
  | startTcp | startUdp => exact pushed rfl
  | callStop pc here called =>
    exact advanced here called (by simp) (ruled.1 _ (List.mem_of_getElem? here)) rfl
  | thread threads here called =>
    exact advanced here called (not_start threads) (ruled.2 _ here) rfl

/-- As long as the process has not been ended, its forwarders are as `main` believes them to be. -/
theorem ruled_reached (reached : (process inv).Reach Ruled s) (alive : s.aborted = false) :
    (Supervised inv s ∧ s.pc.Story inv s) ∧
      ∀ r ∈ s.forwarders, r.forwarder.impl.Reached (inv.setup r.config) := by
  induction reached with
  | start init =>
    obtain rfl : _ = ({} : State) := init
    exact ⟨main_reached (.start rfl), by simp⟩
  | next _ ruled moved ih =>
    obtain ⟨⟨supervised, story⟩, within⟩ := ih (step_unended moved).1
    exact ⟨⟨step_supervised supervised (step_starts moved alive) story.unstarted moved,
      step_story story moved⟩, step_reached within ruled moved⟩

theorem parse_spec : (s.parse inv).stopRequested = s.stopRequested ∧
    ((s.parse inv).pc.isReturned = true ∨ ∃ job, (s.parse inv).pc = .startTcp job) := by
  unfold State.parse
  split
  · exact ⟨rfl, .inl rfl⟩
  · split
    · exact ⟨rfl, .inl rfl⟩
    · split
      · exact ⟨rfl, .inl rfl⟩
      next job made => exact ⟨rfl, .inr ⟨job, rfl⟩⟩

/-- The forwarder that `main` waits for is there. -/
theorem awaited_reached {ok : State → Action → Prop} {i code : Nat}
    (reached : (process inv).Reach ok s) (pc : s.pc = .inStop i code) :
    i < s.forwarders.length := by
  induction reached generalizing i code with
  | start init =>
    obtain rfl : _ = ({} : State) := init
    cases pc
  | @next s t a _ _ moved ih =>
    cases step_move moved with
    | parse =>
      rcases (@parse_spec inv s).2 with returned | ⟨job, started⟩
      · simp [pc, Pc.isReturned] at returned
      · rw [pc] at started
        cases started
    | skipTcp | skipUdp | announce | wake | leave => cases pc
    | sleep | signal => exact ih pc
    | @callStop j code' r f how before here called =>
      have there := (List.getElem?_eq_some_iff.mp here).1
      dsimp only at pc ⊢
      split at pc
      · cases pc
      · obtain ⟨rfl, -⟩ := Pc.inStop.inj pc
        simpa using there
    | startTcp | startUdp =>
      dsimp only at pc
      split at pc <;> cases pc
    | @thread j a r f how threads here called =>
      rw [List.length_set]
      cases before : s.pc with
      | inStop k code' =>
        rw [before, Pc.afterThread] at pc
        split at pc
        · cases pc
        · obtain ⟨rfl, -⟩ := Pc.inStop.inj pc
          exact ih before
      | _ =>
        rw [before] at pc
        cases pc

/-! ### A way out that gets shorter -/

theorem rank_lt_of_stage (earlier : t.pc.stage < s.pc.stage) : t.rank < s.rank :=
  Prod.Lex.toLex_lt_toLex.mpr (.inl earlier)

theorem rank_lt_of_left (same : t.pc.stage = s.pc.stage)
    (fewer : t.pc.left t.forwarders.length < s.pc.left s.forwarders.length) : t.rank < s.rank :=
  Prod.Lex.toLex_lt_toLex.mpr (.inr ⟨same, Prod.Lex.toLex_lt_toLex.mpr (.inl fewer)⟩)

/-- `main` stays where it is, and the forwarder it waits for may have moved. -/
theorem rank_of_waited (pc : t.pc = s.pc) (length : t.forwarders.length = s.forwarders.length) :
    (t.rank ≤ s.rank ↔ t.waited ≤ s.waited) ∧ (t.rank < s.rank ↔ t.waited < s.waited) := by
  simp [State.rank, pc, length, Prod.Lex.toLex_le_toLex, Prod.Lex.toLex_lt_toLex]

/-- A step of the threads of a forwarder while `main` waits for it. -/
theorem awaited_spends {i code : Nat} {a : Forwarder.Action} {r : RunningForwarder}
    {f : Forwarder.State} {how : Option Forwarder.Return} (supervised : Supervised inv s)
    (reached : ∀ r ∈ s.forwarders, r.forwarder.impl.Reached (inv.setup r.config))
    (ruled : Forwarder.Ruled r.forwarder a) (pc : s.pc = .inStop i code)
    (threads : a.ofThreads = true) (here : s.forwarders[i]? = some r)
    (called : Forwarder.call (inv.setup r.config) r.forwarder a = some (f, how))
    (same : t = { s with
      pc := s.pc.afterThread i how
      forwarders := s.forwarders.set i { r with forwarder := f } })
    (alive : f.terminated = false) :
    t.rank ≤ s.rank ∧ (Forwarder.Urgent r.forwarder a ∨ t.pc ≠ s.pc → t.rank < s.rank) := by
  obtain ⟨phase, agrees, fits⟩ := supervised i r here
  have within := (List.getElem?_eq_some_iff.mp here).1
  have length : t.forwarders.length = s.forwarders.length := by simp [same]
  rw [Pc.use_eq_inStop.mpr ⟨code, pc⟩] at fits
  rcases Forwarder.stop_spends phase agrees (reached r (List.mem_of_getElem? here)) fits.2 ruled
    threads called with rfl | ended | ⟨rfl, stopping, le, lt⟩
  · have lower : t.rank < s.rank := by
      refine rank_lt_of_left (by simp [same, pc, Pc.afterThread, Pc.stage]) ?_
      rw [length]
      simp only [same, pc, Pc.afterThread, Pc.left, Option.isSome_some, and_self, if_true]
      omega
    exact ⟨le_of_lt lower, fun _ => lower⟩
  · exact absurd (alive.symm.trans ended) Bool.false_ne_true
  · have stays : t.pc = s.pc := by simp [same, Pc.afterThread_none]
    obtain ⟨le_iff, lt_iff⟩ := rank_of_waited stays length
    have before : s.waited = r.forwarder.impl.rank := by simp [State.waited, pc, here]
    have after : t.waited = f.impl.rank := by
      simp [State.waited, same, pc, Pc.afterThread, within]
    rw [le_iff, lt_iff, before, after]
    exact ⟨le, fun urgent => lt (urgent.resolve_right (by simp [stays]))⟩

/-- A step of the threads of a forwarder that `main` does not wait for. -/
theorem unawaited_keeps {i : Nat} {r : RunningForwarder} {f : Forwarder.State}
    {how : Option Forwarder.Return} (elsewhere : s.pc.waitsFor i = false)
    (same : t = { s with
      pc := s.pc.afterThread i how
      forwarders := s.forwarders.set i { r with forwarder := f } }) :
    t.rank = s.rank ∧ t.pc = s.pc := by
  have stays : s.pc.afterThread i how = s.pc := by
    cases pc : s.pc with
    | inStop j code =>
      rw [pc] at elsewhere
      have other : i ≠ j := by simpa [Pc.waitsFor] using elsewhere
      simp [Pc.afterThread, other]
    | _ => rfl
  subst same
  refine ⟨?_, stays⟩
  simp only [State.rank, State.waited, stays, List.length_set]
  cases pc : s.pc with
  | inStop j code =>
    rw [pc] at elsewhere
    have other : i ≠ j := by simpa [Pc.waitsFor] using elsewhere
    simp [List.getElem?_set_ne other]
  | _ => rfl

/-- Nothing that happens on the way out makes it longer, and every urgent step shortens it, as
does every step by which `main` gets on. -/
theorem step_spends (reached : (process inv).Reach Ruled s) (leaving : Leaving s)
    (ruled : Ruled s action) (moved : (process inv).step s action = some t) :
    (t.aborted = true ∨ t.pc.isReturned = true) ∨
      (Leaving t ∧ t.rank ≤ s.rank ∧ (Urgent s action ∨ t.pc ≠ s.pc → t.rank < s.rank)) := by
  obtain ⟨⟨supervised, story⟩, within⟩ := ruled_reached reached leaving.unaborted
  by_cases ended : t.aborted = true ∨ t.pc.isReturned = true
  · exact .inl ended
  rw [not_or, Bool.not_eq_true, Bool.not_eq_true] at ended
  obtain ⟨alive, unreturned⟩ := ended
  have shorter (reason : t.stopRequested = true ∨ t.pc.stops = true) (lower : t.rank < s.rank) :
      Leaving t ∧ t.rank ≤ s.rank ∧ (Urgent s action ∨ t.pc ≠ s.pc → t.rank < s.rank) :=
    ⟨⟨alive, unreturned, reason⟩, le_of_lt lower, fun _ => lower⟩
  refine .inr ?_
  cases step_move moved with
  | parse pc =>
    obtain ⟨asked, returned | ⟨job, pc'⟩⟩ := @parse_spec inv s
    · exact absurd (unreturned.symm.trans returned) Bool.false_ne_true
    · refine shorter (.inl ?_) (rank_lt_of_stage (by simp [pc, pc', Pc.stage]))
      have reason := leaving.reason
      simpa [pc, Pc.stops, asked] using reason
  | skipTcp pc | skipUdp pc | announce pc | wake pc =>
    refine shorter (leaving.reason.imp_right fun stops => ?_) (rank_lt_of_stage ?_)
    · simp [pc, Pc.stops] at stops
    · simp [pc, Pc.stage]
  | sleep pc unasked =>
    -- asleep without a signal `main` is not on its way out
    have reason := leaving.reason
    simp [pc, Pc.stops, unasked] at reason
  | @callStop i code r f how pc here called =>
    obtain ⟨phase, -, fits⟩ := supervised i r here
    have on : r.forwarder.running = true ∧ r.forwarder.stopping = false := by
      simpa [Pc.use, pc, Use.Fits] using fits
    obtain ⟨rfl, -⟩ := Forwarder.stop_waits phase on.1 on.2 called
    refine shorter (.inr rfl) (rank_lt_of_left (by simp [pc, Pc.stage]) ?_)
    simp [pc, Pc.left]
  | leave => simp [Pc.isReturned] at unreturned
  | @startTcp job calls pc on =>
    rcases startForwarder_spec inv s job .tcp calls with ⟨ok, f, same, -⟩ | ⟨failed, -⟩
    · refine shorter ?_ (rank_lt_of_stage (by simp [ok, pc, Pc.stage]))
      have reason := leaving.reason
      simpa [same, ok, pc, Pc.stops] using reason
    · -- the TCP forwarder comes first, so `main` returns at once
      simp [failed, Pc.isReturned] at unreturned
  | @startUdp job calls pc on =>
    rcases startForwarder_spec inv s job .udp calls with ⟨ok, f, same, -⟩ | ⟨failed, text, same⟩
    · refine shorter ?_ (rank_lt_of_stage (by simp [ok, pc, Pc.stage]))
      have reason := leaving.reason
      simpa [same, ok, pc, Pc.stops] using reason
    · -- the last loop stops what has been started before
      refine shorter ?_ (rank_lt_of_stage (by simp [failed, pc, Pc.stage]))
      simp [failed, Pc.stops]
  | signal =>
    exact ⟨⟨alive, unreturned, .inl rfl⟩, le_refl _, fun moves => by simp [Urgent] at moves⟩
  | @thread i a r f how threads here called =>
    by_cases awaited : s.pc.waitsFor i = true
    · obtain ⟨code, pc⟩ := Pc.waitsFor_iff.mp awaited
      have alive' : f.terminated = false := by
        refine aborted_eq_false.mp alive { r with forwarder := f } (List.mem_set ?_ _)
        exact (List.getElem?_eq_some_iff.mp here).1
      obtain ⟨le, lt⟩ := awaited_spends supervised within (ruled.2 r here) pc threads here
        called rfl alive'
      refine ⟨⟨alive, unreturned, .inr ?_⟩, le,
        fun moves => lt (moves.imp_left fun urgent => urgent.2 r here)⟩
      rw [pc]
      unfold Pc.afterThread
      dsimp only
      split <;> rfl
    · -- another forwarder may go on serving
      rw [Bool.not_eq_true] at awaited
      obtain ⟨same, pc⟩ := @unawaited_keeps s _ i r f how awaited rfl
      refine ⟨⟨alive, unreturned, ?_⟩, le_of_eq same, fun moves => ?_⟩
      · rw [pc]
        exact leaving.reason
      · have urgent := moves.resolve_right (not_not.mpr pc)
        exact absurd (awaited.symm.trans urgent.1) Bool.false_ne_true

/-- A thread that is in a call that need not return comes out of it by an urgent step, as long
as `main` waits for it. -/
theorem lost_kept (lost : Lost s) (moved : (process inv).step s action = some t) :
    Lost t ∨ Urgent s action ∨ t.pc ≠ s.pc := by
  by_cases pc : t.pc = s.pc
  swap
  · exact .inr (.inr pc)
  obtain ⟨i, r, awaited, here, within⟩ := lost
  have awaited' : t.pc.waitsFor i = true := by rw [pc, awaited]
  cases step_move moved with
  | parse | skipTcp | skipUdp | announce | sleep | wake | callStop | leave | startTcp | startUdp =>
    exact .inr (.inl trivial)
  | signal => exact .inl ⟨i, r, awaited, here, within⟩
  | @thread j a q f how threads there called =>
    by_cases same : j = i
    · subst same
      obtain rfl : q = r := Option.some.inj (there.symm.trans here)
      rcases Forwarder.lost_kept within threads called with still | urgent
      · have bound := (List.getElem?_eq_some_iff.mp here).1
        exact .inl ⟨j, { q with forwarder := f }, awaited', by simp [bound], still⟩
      · refine .inr (.inl ⟨awaited, fun r' found => ?_⟩)
        obtain rfl : q = r' := Option.some.inj (here.symm.trans found)
        exact urgent
    · exact .inl ⟨i, r, awaited', by simpa [List.getElem?_set_ne same] using here, within⟩

/-- Calls of `Start` that come back, if only with errors. -/
def noAnswers : Forwarder.StartCalls where
  wsaStartup := .error ""
  target := .failed ""
  listen := .failed ""
  candidates _ := ⟨false, false, false, false, none⟩
  fd := id
  clock := 0

/-- On the way out an urgent step is always possible, unless `main` waits for a thread that is in
a call that need not return. -/
theorem leaving_ready (reached : (process inv).Reach Ruled s) (leaving : Leaving s) :
    Lost s ∨ ∃ action, Prompt s action ∧ (process inv).step s action ≠ none := by
  obtain ⟨⟨supervised, -⟩, within⟩ := ruled_reached reached leaving.unaborted
  have main (ready : s.main inv ≠ none) :
      Lost s ∨ ∃ action, Prompt s action ∧ (process inv).step s action ≠ none :=
    .inr ⟨.main, trivial, by
      simpa [process, step, leaving.unaborted, leaving.unreturned] using ready⟩
  have start (ready : s.start inv noAnswers ≠ none) :
      Lost s ∨ ∃ action, Prompt s action ∧ (process inv).step s action ≠ none :=
    .inr ⟨.start noAnswers, trivial, by
      simpa [process, step, leaving.unaborted, leaving.unreturned] using ready⟩
  cases pc : s.pc with
  | parse | announce | wait => exact main (by simp [State.main, pc])
  | startTcp job =>
    cases on : job.enableTcp with
    | true => exact start (by simp [State.start, pc, on])
    | false => exact main (by simp [State.main, pc, on])
  | startUdp job =>
    cases on : job.enableUdp with
    | true => exact start (by simp [State.start, pc, on])
    | false => exact main (by simp [State.main, pc, on])
  | stop i code =>
    cases here : s.forwarders[i]? with
    | none => exact main (by simp [State.main, pc, here])
    | some r =>
      obtain ⟨phase, agrees, fits⟩ := supervised i r here
      have alive := aborted_eq_false.mp leaving.unaborted r (List.mem_of_getElem? here)
      have on : r.forwarder.running = true ∧ r.forwarder.stopping = false := by
        simpa [Pc.use, pc, Use.Fits] using fits
      have ready := Forwarder.stop_enabled phase agrees alive on.1 on.2
      exact main (by simpa [State.main, pc, here] using ready)
  | inStop i code =>
    cases here : s.forwarders[i]? with
    | none => exact absurd (awaited_reached reached pc) (by simpa using here)
    | some r =>
      obtain ⟨phase, agrees, fits⟩ := supervised i r here
      have member := List.mem_of_getElem? here
      have alive := aborted_eq_false.mp leaving.unaborted r member
      have awaited : s.pc.waitsFor i = true := Pc.waitsFor_iff.mpr ⟨code, pc⟩
      rw [Pc.use_eq_inStop.mpr ⟨code, pc⟩] at fits
      rcases Forwarder.stop_ready phase agrees alive (within r member) fits.2 with
        lost | ⟨a, threads, prompt, ready⟩
      · exact .inl ⟨i, r, awaited, here, lost⟩
      · refine .inr ⟨.thread i a, ⟨awaited, fun q found => ?_⟩, ?_⟩
        · obtain rfl : r = q := Option.some.inj (here.symm.trans found)
          exact prompt
        · simpa [process, step, leaving.unaborted, leaving.unreturned, threads, State.thread, here]
            using ready
  | returned code => exact absurd leaving.unreturned (by simp [pc, Pc.isReturned])

/-! ### The end -/

/-- No thread of the forwarder runs, no socket of it is open, and none of this changes. -/
def Closed (p : Forwarder.Setup) : Forwarder.Impl → Prop
  | .constructed _ => True
  | .udp u => Udp.Over p.udp u
  | .tcp t => TcpForwarder.Over p.tcp t

/-- What `main` leaves behind. -/
structure Left (inv : Invocation) (s : State) (code : Nat) : Prop where
  pc : s.pc = .returned code
  ending : Ending inv s code
  forwarders : ∀ r ∈ s.forwarders, r.forwarder.running = false ∧
    Consistent (inv.setup r.config) r.forwarder ∧ Closed (inv.setup r.config) r.forwarder.impl

theorem left_of_returned (reached : (process inv).Reach Ruled s) (alive : s.aborted = false)
    (returned : s.pc.isReturned = true) : ∃ code, Left inv s code := by
  obtain ⟨⟨supervised, story⟩, within⟩ := ruled_reached reached alive
  cases pc : s.pc with
  | returned code =>
    rw [pc] at story
    refine ⟨code, pc, story, fun r member => ?_⟩
    obtain ⟨k, here⟩ := List.mem_iff_getElem?.mp member
    obtain ⟨phase, -, off⟩ := supervised k r here
    rw [pc] at off
    refine ⟨off, phase.consistent (phase.free off), ?_⟩
    have reached := within r member
    cases phase with
    | ended isOver =>
      cases impl : r.forwarder.impl with
      | constructed => trivial
      | udp u =>
        rw [impl] at isOver reached
        exact Udp.over_of_done reached isOver.2.2 isOver.2.1
      | tcp t =>
        rw [impl] at isOver reached
        exact TcpForwarder.over_of_done (TcpForwarder.few_of_ruled reached) isOver.2.1
    | udp impl protocol reached undone on | tcp impl protocol reached undone on =>
      exact absurd (on.symm.trans off) (by simp)
  | _ => simp [pc, Pc.isReturned] at returned

/-- The process has ended by moment `j`: a thread could not be started, or some TCP session has
come to a `Send` on a broken connection. -/
structure Killed {ok : State → Action → Prop} (e : (process inv).Execution ok) (j : Nat) : Prop where
  ended : (e.state j).aborted = true
  cause : (∃ k < j, ∃ a, e.action k = some a ∧ ¬startsThreads (e.state k) a) ∨
    Signalled inv (e.state j)

theorem killed {ok : State → Action → Prop} (e : (process inv).Execution ok) {j : Nat}
    (ended : (e.state j).aborted = true) : Killed e j := by
  refine ⟨ended, (e.violated_or_reach startsThreads j).imp_right fun starts => ?_⟩
  exact (main_reached starts).1.signalled ended

/-- Once a signal has come, at whatever moment, or a forwarder could not be started, `main`
returns, and then no thread of any forwarder runs, every socket is closed and every session
joined. There are two exceptions. The process may end first: because a thread cannot be started
or, on POSIX, by a `Send` of a TCP session on a broken connection, which `Stop` may have broken.
And the `Stop` that `main` waits for may never return, where a thread of a UDP forwarder stays in
`recvfrom` on a number that was closed under it and stands for a socket of another part of the
process. This takes no more than that the other steps `main` depends on are not all held up for
ever while one of them is possible, so every other call comes back; the other forwarder may go on
serving all the while. -/
theorem main_returns (e : (process inv).Execution Ruled) (fair : e.Fair Prompt) (i : Nat)
    (reason : (e.state i).stopRequested = true ∨ (e.state i).pc.stops = true) :
    ∃ j, i ≤ j ∧ (Killed e j ∨ (∃ code, Left inv (e.state j) code) ∨
      ∀ k, j ≤ k → Lost (e.state k)) := by
  have returns : ∃ j, i ≤ j ∧ (((e.state j).aborted = true ∨ (e.state j).pc.isReturned = true) ∨
      ∀ k, j ≤ k → Lost (e.state k)) := by
    by_cases isOver : (e.state i).aborted = true ∨ (e.state i).pc.isReturned = true
    · exact ⟨i, Nat.le_refl i, .inl isOver⟩
    · rw [not_or, Bool.not_eq_true, Bool.not_eq_true] at isOver
      refine e.eventually_or_stuck Leaving (fun s => s.aborted = true ∨ s.pc.isReturned = true)
        State.rank Lost fair ?_ ?_ (fun _ reached leaving => leaving_ready reached leaving)
        ⟨isOver.1, isOver.2, reason⟩
      · exact fun s t a reached leaving ruled moved =>
          (step_spends reached leaving ruled moved).imp_right
            fun ⟨still, le, lt⟩ => ⟨still, le, fun prompt => lt (.inl prompt.urgent)⟩
      · intro s t a reached leaving ruled moved lost
        rcases step_spends reached leaving ruled moved with done | ⟨-, -, lt⟩
        · exact .inl done
        · exact .inr ((lost_kept lost moved).imp_right lt)
  obtain ⟨j, later, (ended | returned) | lost⟩ := returns
  · exact ⟨j, later, .inl (killed e ended)⟩
  · refine ⟨j, later, ?_⟩
    by_cases ended : (e.state j).aborted = true
    · exact .inl (killed e ended)
    · rw [Bool.not_eq_true] at ended
      exact .inr (.inl (left_of_returned (e.reach j) ended returned))
  · exact ⟨j, later, .inr (.inr lost)⟩

/-- The run in which both forwarders are stopped, from the moment of the signal. -/
theorem main_returns_both :
    ∃ e : (process sample).Execution Ruled, e.Fair Prompt ∧
      (e.state 5).stopRequested = true ∧ (e.state 5).forwarders.length = 2 ∧
      ∃ j, 5 ≤ j ∧ (Killed e j ∨ (∃ code, Left sample (e.state j) code) ∨
        ∀ k, j ≤ k → Lost (e.state k)) := by
  have result : ((process sample).runIf Ruled {} serveBoth).map
      (fun s => s.pc.isReturned) = some true := by
    decide +kernel
  obtain ⟨s, run, returned⟩ := Option.map_eq_some_iff.mp result
  have fair : (Machine.Execution.ofRun (process_init sample) run).Fair Prompt :=
    Machine.Execution.fair_ofRun _ _ fun action _ => by simp [process, step, returned]
  -- the moment after the signal
  have early : ((process sample).run {} (serveBoth.take 5)).map
      (fun s => s.stopRequested && s.forwarders.length == 2) = some true := by
    decide +kernel
  rw [Machine.Execution.ofRun_take (process_init sample) run (by decide), Option.map_some,
    Option.some.injEq, Bool.and_eq_true, beq_iff_eq] at early
  obtain ⟨asked, two⟩ := early
  exact ⟨_, fair, asked, two, main_returns _ fair 5 (.inl asked)⟩

end PortForwardX.Program
