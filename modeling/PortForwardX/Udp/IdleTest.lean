import PortForwardX.Udp.Descriptors

/-!
# The idle test

`CleanupIdleUdpSessions` loads `last_active_ms` once to see whether `now` is later, and
once more to subtract it from `now`. A reply loop may store a later clock value in between;
nothing else may. The subtraction is right as long as none does.
-/
namespace PortForwardX.Udp

open Transition Net

def Event.isIdleTest : Event → Bool
  | .idleTest .. => true
  | _ => false

/-- The last idle test in a history. -/
def lastIdleTest (trace : List Event) : Option Event := (trace.filter Event.isIdleTest).getLast?

/-- No subtraction of the idle test wraps, and every eviction for idleness follows a test of
that session in which the value loaded last was more than the timeout before `now`. -/
structure State.IdleSound (p : Setup) (s : State) : Prop where
  exact : ∀ σ now first second, .idleTest σ now first second ∈ s.trace → second ≤ now
  evicted : ∀ before after σ, s.trace = before ++ .evicted σ .idleTimeout :: after →
    ∃ now first second, lastIdleTest before = some (.idleTest σ now first second) ∧
      second.toNat + p.config.udpSessionIdleTimeoutSeconds.toNat * 1000 < now.toNat

/-- The cleanup is between its two loads of the `last_active_ms` of `σ`. -/
def Cleanup.testing (c : Cleanup) (σ : SessionId) : Bool :=
  match c.pc with
  | .second _ τ _ => τ == σ
  | _ => false

/-- No reply loop stores a time later than the cleanup's `now` between the two loads. -/
def punctual (s : State) : Action → Bool
  | .reply σ _ =>
    match s.reply σ, s.cleaner with
    | .storeActive ms, some c => !c.testing σ || ms ≤ c.now
    | _, _ => true
  | _ => true

variable {p : Setup} {s t : State} {c c' : Cleanup} {a : Answer} {action : Action}
  {σ : SessionId}

/-! ### Arithmetic -/

theorem Setup.idleTimeoutMs_toNat :
    p.idleTimeoutMs.toNat = p.config.udpSessionIdleTimeoutSeconds.toNat * 1000 := by
  have bound := p.config.udpSessionIdleTimeoutSeconds.toNat_lt
  rw [Setup.idleTimeoutMs, UInt64.toNat_mul, UInt32.toNat_toUInt64]
  exact Nat.mod_eq_of_lt (by simp; omega)

/-- Where it does not wrap, the subtraction measures the time that has passed. -/
theorem passed_of_lt {now last timeout : UInt64} (earlier : last ≤ now)
    (late : timeout < now - last) : last.toNat + timeout.toNat < now.toNat := by
  rw [UInt64.lt_iff_toNat_lt, UInt64.toNat_sub_of_le _ _ earlier] at late
  omega

/-! ### Who tests and who evicts -/

/-- Tests and evictions. -/
def Event.ofVerdict : Event → Bool
  | .idleTest .. | .evicted .. => true
  | _ => false

theorem lastIdleTest_append (trace : List Event) (now first second : UInt64) :
    lastIdleTest (trace ++ [.idleTest σ now first second]) =
      some (.idleTest σ now first second) := by
  simp [lastIdleTest, Event.isIdleTest]

theorem lastIdleTest_of_filter {old new : List Event}
    (same : new.filter Event.ofVerdict = old.filter Event.ofVerdict) :
    lastIdleTest new = lastIdleTest old := by
  have seen : ∀ l : List Event,
      l.filter Event.isIdleTest = (l.filter Event.ofVerdict).filter Event.isIdleTest := by
    intro l
    rw [List.filter_filter]
    congr
    funext e
    cases e <;> rfl
  rw [lastIdleTest, lastIdleTest, seen new, seen old, same]

theorem ReplyMove.verdicts (move : ReplyMove p s σ a t) :
    t.trace.filter Event.ofVerdict = s.trace.filter Event.ofVerdict := by
  cases move <;> simp [Event.ofVerdict]

/-- `UdpLoop` outside its cleanups neither tests nor evicts, and a cleanup it has just
entered has tested nothing. -/
theorem UdpMove.verdicts (move : UdpMove p s a t) (threads : Threads s) :
    (∃ c c' u, s.udp = .cleaning c ∧ CleanMove p s c u c' ∧ t = u.goto (.cleaning c')) ∨
      (t.trace.filter Event.ofVerdict = s.trace.filter Event.ofVerdict ∧
        ∀ c, t.cleaner = some c → c.pc = .scan) := by
  have unjoined := threads.unjoined move.alive
  have stop := move.controls.2.1
  have cleaning : ∀ c, t.cleaner = some c → t.udp = .cleaning c := by
    intro c cleaner
    refine (State.cleaner_cases cleaner).resolve_right fun stopping => ?_
    rw [stop] at stopping
    simp [stopping, StopPc.udpJoined] at unjoined
  cases move with
  | clean pc unfinished move => exact .inl ⟨_, _, _, pc, move, rfl⟩
  | enterCleanup pc order =>
    refine .inr ⟨rfl, fun c cleaner => ?_⟩
    obtain rfl := UdpPc.cleaning.inj (cleaning c cleaner)
    rfl
  | test | retest | cleaned =>
    refine .inr ⟨rfl, fun c cleaner => ?_⟩
    have pc := cleaning c cleaner
    dsimp only [State.goto] at pc
    split at pc <;> cases pc
  | noThread pc =>
    refine .inr ⟨rfl, fun c cleaner => ?_⟩
    have pc' : s.udp = .cleaning c := cleaning c cleaner
    simp [pc] at pc'
  | _ =>
    refine .inr ⟨by simp [Event.ofVerdict], fun c cleaner => ?_⟩
    have pc := cleaning c cleaner
    simp at pc

/-! ### What a cleanup knows -/

/-- The cleanup has found `σ` idle and not evicted it yet. -/
def Cleanup.FoundIdle (c : Cleanup) (σ : SessionId) : Prop :=
  (∃ key, c.pc = .decide key σ true) ∨ ∃ key, c.pc = .evict key σ .idleTimeout

/-- Between its loads a cleanup knows the value to be no later than its `now`, and what it
has found idle has been idle for longer than the timeout. -/
structure Cleanup.Tested (p : Setup) (c : Cleanup) (s : State) : Prop where
  loaded : ∀ key σ first, c.pc = .second key σ first → (s.heap σ).lastActiveMs ≤ c.now
  idle : ∀ σ, c.FoundIdle σ → ∃ first second,
    lastIdleTest s.trace = some (.idleTest σ c.now first second) ∧ second ≤ c.now ∧
      p.idleTimeoutMs < c.now - second

theorem Cleanup.tested_scan (pc : c.pc = .scan) : c.Tested p s where
  loaded := by simp [pc]
  idle := by simp [Cleanup.FoundIdle, pc]

theorem Cleanup.Tested.keep (tested : c.Tested p s)
    (loaded : ∀ key σ first, c.pc = .second key σ first →
      (t.heap σ).lastActiveMs = (s.heap σ).lastActiveMs ∨ (t.heap σ).lastActiveMs ≤ c.now)
    (verdicts : t.trace.filter Event.ofVerdict = s.trace.filter Event.ofVerdict) :
    c.Tested p t where
  loaded key σ first pc := by
    rcases loaded key σ first pc with same | earlier
    · exact same ▸ tested.loaded key σ first pc
    · exact earlier
  idle := by
    rw [lastIdleTest_of_filter verdicts]
    exact tested.idle

theorem CleanMove.tested (move : CleanMove p s c t c') (tested : c.Tested p s) :
    c'.Tested p t := by
  cases move with
  | older pc todo limited older =>
    -- the first load has compared the value with `now`
    refine ⟨?_, by simp [Cleanup.FoundIdle]⟩
    rintro _ _ _ ⟨⟩
    exact UInt64.le_of_lt older
  | @idleTest key τ first pc =>
    -- the value loaded here is the one that decides
    refine ⟨by simp, fun σ found => ?_⟩
    simp only [Cleanup.FoundIdle, CleanupPc.decide.injEq, decide_eq_true_eq, reduceCtorEq,
      exists_false, or_false] at found
    obtain ⟨_, -, rfl, late⟩ := found
    exact ⟨first, _, lastIdleTest_append _ _ _ _, tested.loaded key τ first pc, late⟩
  | @condemn key τ idle pc cause =>
    refine ⟨by simp, fun σ found => ?_⟩
    simp only [Cleanup.FoundIdle, CleanupPc.evict.injEq, reduceCtorEq, exists_false,
      false_or] at found
    obtain ⟨_, -, rfl, reason⟩ := found
    -- only a positive test gives that reason
    have idle : idle = true := by
      unfold Cleanup.reason at reason
      split at reason
      · cases reason
      · simpa using reason
    exact tested.idle τ (.inl ⟨key, idle ▸ pc⟩)
  | _ => exact ⟨by simp, by simp [Cleanup.FoundIdle]⟩

/-- What a step does to the cleanup in progress: the cleanup itself moves, or it keeps what
it knows, apart from a store between its loads. -/
theorem Move.cleaner (move : Move p s action t) (threads : Threads s) :
    (∃ c c' u, s.cleaner = some c ∧ CleanMove p s c u c' ∧ t.cleaner = some c' ∧
      t.heap = u.heap ∧ t.trace = u.trace) ∨
    (t.trace.filter Event.ofVerdict = s.trace.filter Event.ofVerdict ∧
      ∀ c, t.cleaner = some c → c.pc = .scan ∨ (s.cleaner = some c ∧
        ∀ σ, (t.heap σ).lastActiveMs = (s.heap σ).lastActiveMs ∨
          ∃ a ms, action = .reply σ a ∧ s.reply σ = .storeActive ms ∧
            (t.heap σ).lastActiveMs = ms)) := by
  cases move with
  | udp move =>
    rcases move.verdicts threads with ⟨c, c', u, pc, clean, rfl⟩ | ⟨same, entered⟩
    · exact .inl ⟨c, c', u, State.cleaner_udp pc, clean, rfl, rfl, rfl⟩
    · exact .inr ⟨same, fun c cleaner => .inl (entered c cleaner)⟩
  | @reply τ a t move =>
    refine .inr ⟨move.verdicts, fun c cleaner => .inr ⟨?_, fun σ => ?_⟩⟩
    · simpa only [State.cleaner, move.quiet.udp, move.frame.stop] using cleaner
    · by_cases own : σ = τ
      · subst own
        cases move with
        | storeActive pc => exact .inr ⟨a, _, rfl, pc, by simp⟩
        | leaving => exact .inl (by simp)
        | _ => exact .inl rfl
      · exact .inl (by rw [move.frame.heap σ own])
  | stop move =>
    cases move with
    | clean pc unfinished move =>
      have ended := threads.exclusive (by rw [pc]; rfl)
      exact .inl ⟨_, _, _, State.cleaner_stop ended pc, move,
        State.cleaner_stop (move.quiet.udp.trans ended) rfl, rfl, rfl⟩
    | enterCleanup pc order =>
      have ended := threads.exclusive (by rw [pc]; rfl)
      refine .inr ⟨rfl, fun c cleaner => .inl ?_⟩
      rcases State.cleaner_cases cleaner with cleaning | entered
      · have cleaning : s.udp = .cleaning c := cleaning
        simp [ended] at cleaning
      · obtain rfl := StopPc.cleaning.inj entered
        rfl
    | _ =>
      refine .inr ⟨rfl, fun c cleaner => .inr ⟨?_, fun σ => .inl rfl⟩⟩
      exact State.cleaner_udp ((State.cleaner_cases cleaner).resolve_right (by simp))
  | callStop =>
    refine .inr ⟨rfl, fun c cleaner => .inr ⟨?_, fun σ => .inl rfl⟩⟩
    exact State.cleaner_udp ((State.cleaner_cases cleaner).resolve_right (by simp))
  | _ => exact .inr ⟨by simp [Event.ofVerdict], fun c cleaner => .inr ⟨cleaner, fun σ => .inl rfl⟩⟩

theorem Move.tested (move : Move p s action t) (threads : Threads s)
    (before : ∀ c, s.cleaner = some c → c.Tested p s) (admitted : punctual s action = true) :
    ∀ c, t.cleaner = some c → c.Tested p t := by
  intro c after
  rcases move.cleaner threads with ⟨c₀, c', u, cleaner, move, cleaner', heap, trace⟩ | ⟨same, kept⟩
  · rw [cleaner'] at after
    obtain rfl := Option.some.inj after
    have tested := move.tested (before c₀ cleaner)
    exact ⟨heap ▸ tested.loaded, trace ▸ tested.idle⟩
  · rcases kept c after with pc | ⟨cleaner, stores⟩
    · exact Cleanup.tested_scan pc
    · refine (before c cleaner).keep (fun key σ first pc => ?_) same
      -- a store between the loads is no later than `now`
      apply (stores σ).imp_right
      rintro ⟨a, ms, rfl, storing, stored⟩
      rw [stored]
      simpa [punctual, storing, cleaner, Cleanup.testing, pc] using admitted

/-! ### Runs -/

/-- An event in a longer history is an old one or one of those added. -/
theorem split_of_append {old new before after : List Event} {e : Event}
    (split : old ++ new = before ++ e :: after) :
    (∃ rest, old = before ++ e :: rest) ∨
      ∃ mid, before = old ++ mid ∧ new = mid ++ e :: after := by
  rcases List.append_eq_append_iff.mp split with ⟨mid, same, added⟩ | ⟨rest, same, added⟩
  · exact .inr ⟨mid, same, added⟩
  · cases rest with
    | nil => exact .inr ⟨[], by simp [same], by simpa using added.symm⟩
    | cons first rest =>
      obtain ⟨rfl, -⟩ := List.cons.inj added
      exact .inl ⟨rest, same⟩

theorem State.IdleSound.extend (before : s.IdleSound p) {new : List Event}
    (trace : t.trace = s.trace ++ new)
    (tests : ∀ σ now first second, .idleTest σ now first second ∈ new → second ≤ now)
    (evictions : ∀ mid after σ, new = mid ++ .evicted σ .idleTimeout :: after →
      ∃ now first second,
        lastIdleTest (s.trace ++ mid) = some (.idleTest σ now first second) ∧
          second.toNat + p.config.udpSessionIdleTimeoutSeconds.toNat * 1000 < now.toNat) :
    t.IdleSound p where
  exact σ now first second member := by
    rw [trace] at member
    exact (List.mem_append.mp member).elim (before.exact σ now first second)
      (tests σ now first second)
  evicted earlier later σ split := by
    rw [trace] at split
    rcases split_of_append split with ⟨rest, old⟩ | ⟨mid, rfl, added⟩
    · exact before.evicted earlier rest σ old
    · exact evictions mid later σ added

/-- Without tests and evictions there is nothing to show. -/
theorem State.IdleSound.silent (before : s.IdleSound p) (history : s.trace <+: t.trace)
    (same : t.trace.filter Event.ofVerdict = s.trace.filter Event.ofVerdict) : t.IdleSound p := by
  obtain ⟨new, trace⟩ := history
  have none_ : ∀ e ∈ new, e.ofVerdict = false := by simpa [← trace] using same
  refine before.extend trace.symm (fun σ now first second member => ?_)
    fun mid after σ added => ?_
  · simpa [Event.ofVerdict] using none_ _ member
  · simpa [Event.ofVerdict] using none_ (.evicted σ .idleTimeout) (by simp [added])

theorem CleanMove.idleSound (move : CleanMove p s c t c') (tested : c.Tested p s)
    (before : s.IdleSound p) : t.IdleSound p := by
  cases move with
  | @idleTest key σ first pc =>
    refine before.extend rfl (fun τ now first second member => ?_) fun mid after τ added => ?_
    · simp only [List.mem_singleton, Event.idleTest.injEq] at member
      obtain ⟨rfl, rfl, rfl, rfl⟩ := member
      exact tested.loaded key _ first pc
    · simp [List.singleton_eq_append_iff] at added
  | @evict key σ reason pc =>
    -- the verdict goes back to the last test
    refine before.extend rfl (by simp) fun mid after τ added => ?_
    obtain ⟨rfl, rfl, rfl⟩ : mid = [] ∧ τ = σ ∧ reason = .idleTimeout := by
      simp [List.singleton_eq_append_iff] at added
      tauto
    obtain ⟨first, second, last, earlier, late⟩ := tested.idle τ (.inr ⟨key, pc⟩)
    refine ⟨c.now, first, second, by simpa using last, ?_⟩
    simpa [Setup.idleTimeoutMs_toNat] using passed_of_lt earlier late
  | close pc =>
    refine before.extend rfl (by simp) fun mid after τ added => ?_
    simp [List.singleton_eq_append_iff] at added
  | _ => exact before.silent (List.prefix_refl _) rfl

theorem idleSound_reached
    (reached : (forwarder p).Reach (fun s action => punctual s action = true) s) :
    (∀ c, s.cleaner = some c → c.Tested p s) ∧ s.IdleSound p := by
  induction reached with
  | start init =>
    obtain ⟨fd, clock, outcome, endpoints, -, rfl⟩ := init
    refine ⟨fun c cleaner => ?_,
      ⟨fun σ now first second member => ?_, fun before after σ split => ?_⟩⟩
    · simp [started, State.cleaner] at cleaner
    · simp [started] at member
    · have member : .evicted σ .idleTimeout ∈ (started fd clock endpoints).trace := by simp [split]
      simp [started] at member
  | next before admitted step ih =>
    have move := step_move step
    have threads := threads_reached before
    refine ⟨move.tested threads ih.1 admitted, ?_⟩
    rcases move.cleaner threads with ⟨c, c', u, cleaner, clean, -, -, trace⟩ | ⟨same, -⟩
    · have sound := clean.idleSound (ih.1 c cleaner) ih.2
      exact ⟨trace ▸ sound.exact, trace ▸ sound.evicted⟩
    · exact ih.2.silent move.history same

/-! ### The store between the loads -/

theorem Cleanup.testing_eq_true (testing : c.testing σ = true) :
    ∃ key first, c.pc = .second key σ first := by
  unfold Cleanup.testing at testing
  split at testing
  next key τ first pc => exact ⟨key, first, by simpa [pc] using testing⟩
  · cases testing

/-- A later value is subtracted next. -/
theorem wraps_next (alive : s.terminated = false) (cleaner : s.cleaner = some c)
    (testing : c.testing σ = true) (later : c.now < (s.heap σ).lastActiveMs) :
    ∃ action u, (forwarder p).step s action = some u ∧ ¬ u.IdleSound p := by
  obtain ⟨key, first, pc⟩ := Cleanup.testing_eq_true testing
  have unfinished : c.finished = false := by simp [Cleanup.finished, pc]
  obtain ⟨c', cleaned⟩ : ∃ c', cleanStep p s c =
      some (s.log (.idleTest σ c.now first (s.heap σ).lastActiveMs), c') :=
    ⟨_, by rw [cleanStep, pc]⟩
  have unsound {u : State} (tested : .idleTest σ c.now first (s.heap σ).lastActiveMs ∈ u.trace) :
      ¬ u.IdleSound p := fun sound =>
    absurd (sound.exact _ _ _ _ tested) (UInt64.not_le.mpr later)
  rcases State.cleaner_cases cleaner with cleaning | cleaning
  · refine ⟨.udp .none, (s.log (.idleTest σ c.now first (s.heap σ).lastActiveMs)).goto
      (.cleaning c'), ?_, unsound (by simp)⟩
    simp [forwarder, step, udpStep, alive, cleaning, unfinished, cleaned]
  · refine ⟨.stop .none, { s.log (.idleTest σ c.now first (s.heap σ).lastActiveMs) with
      stop := .cleaning c' }, ?_, unsound (by simp)⟩
    simp [forwarder, step, stopStep, alive, cleaning, unfinished, cleaned]

/-- A step that is not punctual stores a value later than `now` between the loads. -/
theorem Move.unpunctual (move : Move p s action t) (late : punctual s action = false) :
    ∃ c σ, t.cleaner = some c ∧ c.testing σ = true ∧ c.now < (t.heap σ).lastActiveMs := by
  cases move with
  | @reply σ a t move =>
    simp only [punctual] at late
    split at late
    next ms c storing cleaner =>
      simp only [Bool.or_eq_false_iff, Bool.not_eq_false', decide_eq_false_iff_not] at late
      refine ⟨c, σ, ?_, late.1, ?_⟩
      · simpa only [State.cleaner, move.quiet.udp, move.frame.stop] using cleaner
      · cases move with
        | storeActive pc =>
          obtain rfl := ReplyPc.storeActive.inj (storing.symm.trans pc)
          simpa using UInt64.not_le.mp late.2
        | _ pc => simp [storing] at pc
    · cases late
  | _ => simp [punctual] at late

/-- An active session is not evicted as idle. In every run in which no reply loop stores a
time later than a cleanup's `now` between the cleanup's two loads of its session, no
subtraction wraps and only sessions idle for longer than the timeout are evicted for
idleness. A store of the other kind makes the cleanup's next subtraction wrap. -/
theorem idle_sound_of_punctual (p : Setup) :
    (∀ s, (forwarder p).Reach (fun s action => punctual s action = true) s → s.IdleSound p) ∧
      ∀ s action t, (forwarder p).step s action = some t → punctual s action = false →
        t.terminated = false →
          ∃ action' u, (forwarder p).step t action' = some u ∧ ¬ u.IdleSound p := by
  refine ⟨fun s reached => (idleSound_reached reached).2, fun s action t moved late alive => ?_⟩
  obtain ⟨c, σ, cleaner, testing, later⟩ := (step_move moved).unpunctual late
  exact wraps_next alive cleaner testing later

/-- One client, a reply at a time of 5 s that has been sent and not been noted yet, a cleanup
up to its first load, and the store at `ms`. -/
def storedAt (ms : UInt64) : List Action :=
  Sample.oneClient ++ Sample.awaitReply 0 ++
    .tick 5000 :: (Sample.relayReply 0 Sample.server (Sample.payload [9])).take 3 ++
      Sample.cleanup [("192.0.2.1:40000", 0)] 1 ++ [.tick ms, .reply 0 .none, .reply 0 .none]

theorem idle_sound_of_punctual_silent :
    (∃ s, (forwarder Sample.setup).Reach (fun s action => punctual s action = true) s ∧
      .evicted 0 .idleTimeout ∈ s.trace ∧ s.IdleSound Sample.setup) ∧
    ∃ s t action' u, (forwarder Sample.setup).step s (.reply 0 .none) = some t ∧
      (forwarder Sample.setup).step t action' = some u ∧ ¬ u.IdleSound Sample.setup := by
  constructor
  · -- nothing is stored between the loads
    have result : ((forwarder Sample.setup).runIf (fun s action => punctual s action = true)
        Sample.initial (Sample.oneClient ++
          .tick 5000 :: Sample.cleanup [("192.0.2.1:40000", 0)] 4)).map (fun s =>
        decide (.evicted 0 .idleTimeout ∈ s.trace)) = some true := by
      decide +kernel
    obtain ⟨s, run, seen⟩ := Option.map_eq_some_iff.mp result
    have reached := Machine.Reach.runIf (.start Sample.initial_init) run
    exact ⟨s, reached, of_decide_eq_true seen, (idle_sound_of_punctual _).1 s reached⟩
  · have result : ((forwarder Sample.setup).run Sample.initial (storedAt 5001).dropLast).bind
        (fun s => ((forwarder Sample.setup).step s (.reply 0 .none)).map fun t =>
          (punctual s (.reply 0 .none), t.terminated)) = some (false, false) := by
      decide +kernel
    obtain ⟨s, -, next⟩ := Option.bind_eq_some_iff.mp result
    obtain ⟨t, moved, seen⟩ := Option.map_eq_some_iff.mp next
    obtain ⟨late, alive⟩ := Prod.mk.inj seen
    obtain ⟨action', u, wraps, unsound⟩ := (idle_sound_of_punctual _).2 s _ t moved late alive
    exact ⟨s, t, action', u, moved, wraps, unsound⟩

/-- A session that has just relayed a reply is evicted as idle for two seconds: the store
comes between the loads, one millisecond after the cleanup's `now`. -/
theorem active_session_evicted :
    ∃ s, (forwarder Sample.setup).Reach Machine.anyStep s ∧
      .sendClient 0 .listen Sample.alice Sample.server [9] ∈ s.trace ∧
      .idleTest 0 5000 0 5001 ∈ s.trace ∧ .evicted 0 .idleTimeout ∈ s.trace ∧
      (s.heap 0).lastActiveMs = 5001 ∧ ¬ s.IdleSound Sample.setup := by
  have result : ((forwarder Sample.setup).run Sample.initial (storedAt 5001 ++
      List.replicate 3 (.udp .none))).map (fun s =>
        decide (.sendClient 0 .listen Sample.alice Sample.server [9] ∈ s.trace ∧
          .idleTest 0 5000 0 5001 ∈ s.trace ∧ .evicted 0 .idleTimeout ∈ s.trace ∧
          (s.heap 0).lastActiveMs = 5001)) = some true := by
    decide +kernel
  obtain ⟨s, run, seen⟩ := Option.map_eq_some_iff.mp result
  obtain ⟨sent, tested, evicted, stored⟩ := of_decide_eq_true seen
  refine ⟨s, Machine.Reach.run (.start Sample.initial_init) run, sent, tested, evicted, stored,
    fun sound => ?_⟩
  exact absurd (sound.exact 0 5000 0 5001 tested) (by decide)

end PortForwardX.Udp
