import PortForwardX.Udp.Cleanups

/-!
# How stale the table can get

Every iteration of `UdpLoop` that goes on reads the clock for the cleanup. A session that
the last cleanup spared had a timestamp recent enough for that cleanup, and one that was
made since has a later one.
-/
namespace PortForwardX.Udp

open Transition Net

/-- A store to `last_active_ms` writes the current value of the clock. -/
def storesNow (s : State) : Action → Bool
  | .udp _ =>
    match s.udp with
    | .storeActive _ _ ms => ms == s.clock
    | _ => true
  | .reply σ _ =>
    match s.reply σ with
    | .storeActive ms => ms == s.clock
    | _ => true
  | _ => true

variable {p : Setup} {s t : State} {c c' : Cleanup} {a : Answer} {action : Action}
  {σ : SessionId} {n n' : Notes}

/-! ### Timestamps -/

/-- Timestamps and the time of the last cleanup are no later than the clock, and a session
that is about to enter the table is no older than the last cleanup. -/
structure Timed (s : State) : Prop where
  past : ∀ σ, (s.heap σ).lastActiveMs ≤ s.clock
  last : s.lastUdpCleanupMs ≤ s.clock
  made : ∀ d σ, s.udp = .emplace d σ → s.lastUdpCleanupMs ≤ (s.heap σ).lastActiveMs

theorem State.stamp_update {u : UdpSession} {τ : SessionId} :
    (Function.update s.heap τ u σ).lastActiveMs = (s.heap σ).lastActiveMs ∨
      (σ = τ ∧ (Function.update s.heap τ u σ).lastActiveMs = u.lastActiveMs) := by
  by_cases own : σ = τ
  · exact .inr ⟨own, by simp [own]⟩
  · exact .inl (by simp [own])

/-- A step leaves a timestamp alone, sets it to the clock or makes it with its session. -/
theorem Move.stamp (move : Move p s action t) (admitted : storesNow s action = true)
    (σ : SessionId) :
    (t.heap σ).lastActiveMs = (s.heap σ).lastActiveMs ∨ (t.heap σ).lastActiveMs = s.clock ∨
      (s.nextSession ≤ σ ∧ (t.heap σ).lastActiveMs = 0) := by
  cases move with
  | udp move =>
    cases move with
    | clean pc unfinished move => exact .inl (move.frame.lastActiveMs σ)
    | socketMade pc free =>
      exact State.stamp_update.imp_right fun own => .inr ⟨own.1.ge, own.2⟩
    | initActive pc => exact State.stamp_update.imp_right fun own => .inl own.2
    | storeActive pc =>
      simp only [storesNow, pc, beq_iff_eq] at admitted
      exact State.stamp_update.imp_right fun own => .inl (own.2.trans admitted)
    | sentEmpty | sendFailed => exact .inl (by simp)
    | _ => exact .inl rfl
  | reply move =>
    cases move with
    | storeActive pc =>
      simp only [storesNow, pc, beq_iff_eq] at admitted
      exact State.stamp_update.imp_right fun own => .inl (own.2.trans admitted)
    | leaving => exact .inl (by simp)
    | _ => exact .inl rfl
  | stop move =>
    cases move with
    | clean pc unfinished move => exact .inl (move.frame.lastActiveMs σ)
    | _ => exact .inl rfl
  | _ => exact .inl rfl

theorem Move.clock (move : Move p s action t) : s.clock ≤ t.clock := by
  cases move with
  | udp move =>
    cases move with
    | clean pc unfinished move => exact UInt64.le_of_eq move.frame.clock.symm
    | _ => exact UInt64.le_refl _
  | reply move => exact UInt64.le_of_eq move.frame.clock.symm
  | stop move =>
    cases move with
    | clean pc unfinished move => exact UInt64.le_of_eq move.frame.clock.symm
    | _ => exact UInt64.le_refl _
  | tick later => exact later
  | _ => exact UInt64.le_refl _

theorem CleanMove.lastUdpCleanupMs (move : CleanMove p s c t c') :
    t.lastUdpCleanupMs = s.lastUdpCleanupMs := by
  cases move <;> rfl

theorem ReplyMove.lastUdpCleanupMs (move : ReplyMove p s σ a t) :
    t.lastUdpCleanupMs = s.lastUdpCleanupMs := by
  cases move <;> rfl

/-- The time of the last cleanup is set to the clock when `UdpLoop` starts and when
`MaybeCleanupIdleUdpSessions` finds a cleanup due. -/
theorem Move.lastCleanup (move : Move p s action t) :
    t.lastUdpCleanupMs = s.lastUdpCleanupMs ∨
      (t.lastUdpCleanupMs = s.clock ∧ (s.udp = .start ∨ t.udp = .enterCleanup false)) := by
  cases move with
  | udp move =>
    cases move with
    | start pc => exact .inr ⟨rfl, .inl pc⟩
    | cleanupDue pc due => exact .inr ⟨rfl, .inr rfl⟩
    | clean pc unfinished move => exact .inl move.lastUdpCleanupMs
    | _ => exact .inl rfl
  | reply move => exact .inl move.lastUdpCleanupMs
  | stop move =>
    cases move with
    | clean pc unfinished move => exact .inl move.lastUdpCleanupMs
    | _ => exact .inl rfl
  | _ => exact .inl rfl

/-- The timestamps of existing sessions only grow. -/
theorem Move.later (move : Move p s action t) (admitted : storesNow s action = true)
    (timed : Timed s) (allocated : σ < s.nextSession) :
    (s.heap σ).lastActiveMs ≤ (t.heap σ).lastActiveMs := by
  rcases move.stamp admitted σ with same | now | ⟨new, -⟩
  · exact UInt64.le_of_eq same.symm
  · exact now ▸ timed.past σ
  · exact absurd allocated (Nat.not_lt.mpr new)

/-- How `UdpLoop` comes to enter a session into the table. -/
theorem Move.emplacing (move : Move p s action t) {d : Datagram} (pc : t.udp = .emplace d σ) :
    (s.udp = .emplace d σ ∧ t.lastUdpCleanupMs = s.lastUdpCleanupMs) ∨
      (s.udp = .initActive d σ ∧ t.lastUdpCleanupMs = s.lastUdpCleanupMs ∧
        (t.heap σ).lastActiveMs = s.clock) := by
  by_cases own : ∃ a, action = .udp a
  · obtain ⟨a, rfl⟩ := own
    cases move with
    | udp move =>
      cases move with
      | initActive pc' =>
        obtain ⟨rfl, rfl⟩ := UdpPc.emplace.inj pc
        exact .inr ⟨pc', rfl, by simp⟩
      | noThread pc' => exact absurd (pc'.symm.trans pc) (by simp)
      | test | retest | cleaned =>
        dsimp only [State.goto] at pc
        split at pc <;> cases pc
      | _ => cases pc
  · have quiet := move.quiet fun a same => own ⟨a, same⟩
    rw [quiet.udp] at pc
    refine .inl ⟨pc, move.lastCleanup.resolve_right ?_⟩
    rintro ⟨-, start | entered⟩
    · simp [pc] at start
    · simp [quiet.udp, pc] at entered

theorem Move.timed (move : Move p s action t) (admitted : storesNow s action = true)
    (indexed : Indexed p s) (timed : Timed s) : Timed t where
  past σ := by
    refine UInt64.le_trans ?_ move.clock
    rcases move.stamp admitted σ with same | now | ⟨-, zero⟩
    · exact same ▸ timed.past σ
    · exact UInt64.le_of_eq now
    · exact zero ▸ UInt64.zero_le
  last := by
    refine UInt64.le_trans ?_ move.clock
    rcases move.lastCleanup with same | ⟨now, -⟩
    · exact same ▸ timed.last
    · exact UInt64.le_of_eq now
  made d σ pc := by
    rcases move.emplacing pc with ⟨waiting, same⟩ | ⟨-, same, now⟩
    · have allocated := (indexed.served d σ (by simp [waiting, UdpPc.datagram])
        (by simp [waiting, UdpPc.session])).1
      exact same ▸ UInt64.le_trans (timed.made d σ waiting) (move.later admitted timed allocated)
    · exact same ▸ now ▸ timed.last

theorem timed_reached (reached : (forwarder p).Reach (fun s action => storesNow s action = true) s) :
    Timed s := by
  induction reached with
  | start init =>
    obtain ⟨fd, clock, outcome, endpoints, -, rfl⟩ := init
    exact ⟨fun σ => UInt64.zero_le, UInt64.zero_le, by simp [started]⟩
  | next before admitted step ih =>
    exact (step_move step).timed admitted (indexed_reached before) ih

/-! ### What the tests have read -/

/-- Both loads returned values that the timestamp of `σ` has not fallen behind. -/
def State.Reads (s : State) (σ : SessionId) (first : UInt64) (second : Option UInt64) : Prop :=
  σ < s.nextSession ∧ first ≤ (s.heap σ).lastActiveMs ∧
    ∀ ms, second = some ms → ms ≤ (s.heap σ).lastActiveMs

/-- The session whose timestamp a cleanup has begun to load. -/
def Cleanup.loading (c : Cleanup) : Option SessionId :=
  match c.pc with
  | .second _ σ _ | .decide _ σ _ => some σ
  | _ => none

/-- The loads of the tests made and of the one in progress. -/
structure Seen (s : State) (n : Notes) : Prop where
  sightings : ∀ g ∈ n.sightings, s.Reads g.entry.2 g.first g.second
  loading : ∀ c σ, s.cleaner = some c → c.loading = some σ → s.Reads σ n.first n.second

theorem State.Reads.later {first : UInt64} {second : Option UInt64}
    (reads : s.Reads σ first second) (next : s.nextSession ≤ t.nextSession)
    (later : (s.heap σ).lastActiveMs ≤ (t.heap σ).lastActiveMs) : t.Reads σ first second :=
  ⟨Nat.lt_of_lt_of_le reads.1 next, UInt64.le_trans reads.2.1 later,
    fun ms loaded => UInt64.le_trans (reads.2.2 ms loaded) later⟩

theorem CleanMove.seen (move : CleanMove p s c t c') (examines : Examines p c s n)
    (indexed : Indexed p s) (seen : ∀ g ∈ n.sightings, s.Reads g.entry.2 g.first g.second)
    (loading : ∀ σ, c.loading = some σ → s.Reads σ n.first n.second) :
    (∀ g ∈ (n.clean s c).sightings, s.Reads g.entry.2 g.first g.second) ∧
      ∀ σ, c'.loading = some σ → s.Reads σ (n.clean s c).first (n.clean s c).second := by
  -- an entry that has not been tested is in the table
  have allocated : ∀ entry ∈ c.untested, entry.2 < s.nextSession := fun entry member =>
    indexed.allocated entry (examines.table.subset (List.mem_append_right _ member))
  cases move with
  | @older key τ rest pc todo | @recent key τ rest pc todo =>
    simp only [Notes.clean, pc, todo]
    refine ⟨seen, fun σ at_ => ?_⟩
    obtain rfl : τ = σ := Option.some.inj at_
    exact ⟨allocated (key, τ) (by simp [Cleanup.untested, pc, todo]), UInt64.le_refl _, by simp⟩
  | @idleTest key τ first pc =>
    simp only [Notes.clean, pc]
    refine ⟨seen, fun σ at_ => ?_⟩
    obtain rfl : τ = σ := Option.some.inj at_
    obtain ⟨old, first, -⟩ := loading τ (by simp [Cleanup.loading, pc])
    refine ⟨old, first, ?_⟩
    rintro ms ⟨⟩
    exact UInt64.le_refl _
  | spare pc | condemn pc =>
    simp only [Notes.clean, pc]
    refine ⟨fun g member => ?_, by simp [Cleanup.loading]⟩
    rcases List.mem_append.mp member with old | new
    · exact seen g old
    · obtain rfl := List.mem_singleton.mp new
      exact loading _ (by simp [Cleanup.loading, pc])
  | scanned pc todo =>
    simp only [Notes.clean, pc, todo]
    exact ⟨seen, by simp [Cleanup.loading]⟩
  | join pc ended =>
    simp only [Notes.clean, pc, ended, if_true]
    exact ⟨seen, by simp [Cleanup.loading]⟩
  | @unjoinable τ pc absent =>
    have running : s.reply τ ≠ .exited := by rcases absent with pc' | pc' <;> simp [pc']
    simp only [Notes.clean, pc, running, if_false]
    exact ⟨seen, by simp [Cleanup.loading]⟩
  | _ pc =>
    simp only [Notes.clean, pc]
    exact ⟨seen, by simp [Cleanup.loading]⟩

theorem Move.seen (move : Move p s action t) (admitted : storesNow s action = true)
    (timed : Timed s) (indexed : Indexed p s) (threads : Threads s)
    (examines : ∀ c, s.cleaner = some c → Examines p c s n) (seen : Seen s n) :
    Seen t (note s action n) := by
  have later {σ : SessionId} {first : UInt64} {second : Option UInt64}
      (reads : s.Reads σ first second) : t.Reads σ first second :=
    reads.later move.fixed.next (move.later admitted timed reads.1)
  have old := fun g member => later (seen.sightings g member)
  cases move.sweep (n := n) threads with
  | clean _ cleaner unfinished clean after state noted =>
    have now := clean.seen (examines _ cleaner) indexed seen.sightings
      fun σ => seen.loading _ σ cleaner
    rw [noted]
    refine ⟨fun g member => later (now.1 g member), fun c σ cleaner' at_ => later (now.2 σ ?_)⟩
    obtain rfl := Option.some.inj (after.symm.trans cleaner')
    exact at_
  | enter idle order after state noted =>
    rw [noted]
    refine ⟨by simp [Notes.enter], fun c σ cleaner' at_ => ?_⟩
    obtain rfl := Option.some.inj (after.symm.trans cleaner')
    simp [Cleanup.loading] at at_
  | leave cleaner finished after state noted =>
    rw [noted]
    exact ⟨old, by simp [after]⟩
  | during cleaner after table noted =>
    rw [noted]
    refine ⟨old, fun c σ cleaner' at_ => later (seen.loading c σ ?_ at_)⟩
    rw [cleaner, ← after, cleaner']
  | apart idle after noted =>
    exact ⟨noted.2.2.1 ▸ old, by simp [after]⟩

/-! ### Spared sessions are recent -/

/-- An entry whose test came out false had a timestamp within the timeout. -/
theorem Sighting.recent {g : Sighting} (limited : 0 < p.idleTimeoutMs)
    (loads : loadsAgain p g.now g.first g.second) (reads : s.Reads g.entry.2 g.first g.second)
    (spared : g.shouldClose p = false) :
    g.now.toNat ≤ (s.heap g.entry.2).lastActiveMs.toNat + p.idleTimeoutMs.toNat := by
  simp only [Sighting.shouldClose, Bool.or_eq_false_iff] at spared
  obtain ⟨-, first, second⟩ := reads
  rw [UInt64.le_iff_toNat_le] at first
  cases loaded : g.second with
  | none =>
    -- the first load was not earlier than `now`
    have recent : ¬ g.first < g.now := fun older => by simp [loadsAgain, loaded, limited, older] at loads
    rw [UInt64.not_lt, UInt64.le_iff_toNat_le] at recent
    omega
  | some ms =>
    have older := loads.mp (by simp [loaded])
    have near : ¬ p.idleTimeoutMs < g.now - ms := by
      simpa [foundIdle, loaded, older] using spared.2
    have current := UInt64.le_iff_toNat_le.mp (second ms loaded)
    rcases UInt64.le_or_lt ms g.now with earlier | later
    · rw [UInt64.not_lt, UInt64.le_iff_toNat_le, UInt64.toNat_sub_of_le _ _ earlier] at near
      omega
    · -- the subtraction wraps, but then the value is later than `now`
      rw [UInt64.lt_iff_toNat_lt] at later
      omega

/-! ### The time of the last cleanup -/

/-- In this iteration `MaybeCleanupIdleUdpSessions` has found a cleanup due. -/
def UdpPc.due : UdpPc → Bool
  | .enterCleanup forceAll => !forceAll
  | .cleaning c => !c.forceAll
  | _ => false

/-- The time read last is less than an interval behind the last cleanup, which is no later
than that cleanup's own `now`. -/
structure Clocked (s : State) (n : Notes) : Prop where
  start : s.udp = .start → s.udpSessions = [] ∧ n = {}
  read : ∀ now, n.read = some now →
    s.lastUdpCleanupMs.toNat ≤ now.toNat ∧ now.toNat < s.lastUdpCleanupMs.toNat + 1000
  test : s.udp = .test → 0 < n.iterations → n.read.isSome = true
  due : s.udp.due = true → n.read.isSome = true
  cleaning : ∀ c, s.udp = .cleaning c → s.lastUdpCleanupMs ≤ c.now

@[simp] theorem Notes.clean_read : (n.clean s c).read = n.read := by
  unfold Notes.clean
  repeat' split
  all_goals rfl

@[simp] theorem Notes.clean_iterations : (n.clean s c).iterations = n.iterations := by
  unfold Notes.clean
  repeat' split
  all_goals rfl

theorem UdpMove.clocked (move : UdpMove p s a t) (timed : Timed s) (before : Clocked s n) :
    Clocked t (note s (.udp a) n) := by
  obtain ⟨start, read, test, due, cleaning⟩ := before
  cases move with
  | start pc =>
    obtain ⟨-, rfl⟩ := start pc
    simp only [note, pc]
    exact ⟨by simp, by simp, by simp, by simp [UdpPc.due], by simp⟩
  | test pc =>
    simp only [note, pc]
    refine ⟨?_, by simp, ?_, ?_, ?_⟩ <;> dsimp only [State.goto] <;> split <;> simp [UdpPc.due]
  | tooEarly pc early =>
    simp only [note, pc]
    refine ⟨by simp, ?_, by simp, by simp, by simp⟩
    rintro now ⟨⟩
    have last := timed.last
    rw [udpCleanupIntervalMs, UInt64.lt_iff_toNat_lt, UInt64.toNat_sub_of_le _ _ last] at early
    rw [UInt64.le_iff_toNat_le] at last
    simp only [UInt64.reduceToNat] at early
    exact ⟨last, by simp only [State.goto]; omega⟩
  | cleanupDue pc late =>
    simp only [note, pc]
    refine ⟨by simp, ?_, by simp, by simp, by simp⟩
    rintro now ⟨⟩
    exact ⟨Nat.le_refl _, by simp⟩
  | enterCleanup pc order =>
    simp only [note, pc]
    refine ⟨by simp, read, by simp, fun due' => due (by simpa [UdpPc.due, pc] using due'), ?_⟩
    rintro c ⟨⟩
    exact timed.last
  | @clean a c c' u pc unfinished move =>
    simp only [note, pc]
    refine ⟨by simp, ?_, by simp, ?_, ?_⟩
    · simpa [move.lastUdpCleanupMs] using read
    · simpa [UdpPc.due, pc, move.forceAll] using due
    · rintro c' ⟨⟩
      have same : c'.now = c.now := by cases move <;> rfl
      simpa [move.lastUdpCleanupMs, same] using cleaning c pc
  | @cleaned a c pc finished =>
    simp only [note, pc]
    refine ⟨?_, by simpa using read, ?_, ?_, ?_⟩ <;> dsimp only [State.goto] <;>
      split <;> simp_all [UdpPc.due]
  | retest pc =>
    simp only [note, pc]
    refine ⟨?_, by simpa using read, ?_, ?_, ?_⟩ <;> dsimp only [State.goto] <;>
      split <;> simp [UdpPc.due]
  | noThread pc =>
    simp only [note, pc]
    exact ⟨by simp, read, by simp, by simp [UdpPc.due], by simp⟩
  | _ pc =>
    simp only [note, pc]
    exact ⟨by simp, read, by simp, by simp [UdpPc.due], by simp⟩

/-- No other thread moves `UdpLoop` or the time of the last cleanup. -/
theorem Clocked.quiet (before : Clocked s n) (udp : t.udp = s.udp)
    (last : t.lastUdpCleanupMs = s.lastUdpCleanupMs) (read : n'.read = n.read)
    (iterations : n'.iterations = n.iterations)
    (start : s.udp = .start → t.udpSessions = s.udpSessions ∧ n' = n) : Clocked t n' where
  start pc := by
    rw [udp] at pc
    rw [(start pc).1, (start pc).2]
    exact before.start pc
  read := by rw [read, last]; exact before.read
  test := by rw [udp, read, iterations]; exact before.test
  due := by rw [udp, read]; exact before.due
  cleaning := by rw [udp, last]; exact before.cleaning

theorem StopMove.clocked (move : StopMove p s a t) (threads : Threads s) (before : Clocked s n) :
    Clocked t (note s (.stop a) n) := by
  cases move with
  | clean pc unfinished move =>
    have ended := threads.exclusive (by rw [pc]; rfl)
    simp only [note, pc]
    exact before.quiet move.quiet.udp move.lastUdpCleanupMs Notes.clean_read Notes.clean_iterations
      (by simp [ended])
  | enterCleanup pc order =>
    have ended := threads.exclusive (by rw [pc]; rfl)
    simp only [note, pc]
    exact before.quiet rfl rfl rfl rfl (by simp [ended])
  | cleaned pc finished =>
    simp only [note, pc, Notes.clean, Cleanup.shutdown_of_finished finished]
    exact before.quiet rfl rfl rfl rfl fun _ => ⟨rfl, rfl⟩
  | _ pc =>
    simp only [note, pc]
    exact before.quiet rfl rfl rfl rfl fun _ => ⟨rfl, rfl⟩

theorem Move.clocked (move : Move p s action t) (timed : Timed s) (threads : Threads s)
    (before : Clocked s n) : Clocked t (note s action n) := by
  cases move with
  | udp move => exact move.clocked timed before
  | reply move =>
    exact before.quiet move.quiet.udp move.lastUdpCleanupMs rfl rfl
      fun _ => ⟨move.frame.udpSessions, rfl⟩
  | stop move => exact move.clocked threads before
  | _ => exact before.quiet rfl rfl rfl rfl fun _ => ⟨rfl, rfl⟩

/-! ### The table outside cleanups -/

/-- `UdpLoop` goes on and is not cleaning up. -/
def UdpPc.outside : UdpPc → Bool
  | .enterCleanup _ | .cleaning _ | .exited => false
  | _ => true

/-- The last cleanup tested what it found, and the sessions in the table are recent and
were not marked in their tests. -/
structure Recent (p : Setup) (s : State) (n : Notes) : Prop where
  tested : (n.sightings.map Sighting.entry).Perm n.found
  bounded : ∀ entry ∈ s.udpSessions, s.lastUdpCleanupMs.toNat ≤
    (s.heap entry.2).lastActiveMs.toNat + p.idleTimeoutMs.toNat
  unmarked : ∀ entry ∈ s.udpSessions, ∀ g ∈ n.sightings, g.entry.2 = entry.2 → g.marked = false

/-- The table a cleanup leaves. -/
theorem Examines.recent (examines : Examines p c s n) (finished : c.finished = true)
    (limited : 0 < p.idleTimeoutMs) (seen : Seen s n)
    (last : s.lastUdpCleanupMs ≤ c.now) : Recent p s n := by
  obtain ⟨tested, table⟩ := examines.scanned (Cleanup.scanning_of_finished finished)
  -- an entry in the table was tested, and the test came out false
  have spared : ∀ entry ∈ s.udpSessions, ∃ g ∈ n.sightings, g.shouldClose p = false ∧
      g.entry = entry := by
    intro entry member
    obtain ⟨g, sparing, rfl⟩ := List.mem_map.mp (table.mem_iff.mpr member)
    exact ⟨g, (List.mem_filter.mp sparing).1, by simpa using (List.mem_filter.mp sparing).2, rfl⟩
  refine ⟨tested, fun entry member => ?_, fun entry member g seen' same => ?_⟩
  · obtain ⟨g, sighted, closes, rfl⟩ := spared entry member
    obtain ⟨-, now, loads⟩ := examines.uniform g sighted
    have recent := g.recent limited loads (seen.sightings g sighted) closes
    rw [UInt64.le_iff_toNat_le, ← now] at last
    omega
  · obtain ⟨g', sighted, closes, rfl⟩ := spared entry member
    obtain rfl := examines.once seen' sighted same
    simp only [Sighting.shouldClose, Bool.or_eq_false_iff] at closes
    exact closes.1.2

theorem Recent.keep (before : Recent p s n) (last : t.lastUdpCleanupMs = s.lastUdpCleanupMs)
    (table : t.udpSessions ⊆ s.udpSessions)
    (later : ∀ entry ∈ s.udpSessions, (s.heap entry.2).lastActiveMs ≤ (t.heap entry.2).lastActiveMs)
    (found : n'.found = n.found) (sightings : n'.sightings = n.sightings) : Recent p t n' where
  tested := by rw [found, sightings]; exact before.tested
  bounded entry member := by
    have bounded := before.bounded entry (table member)
    have later := UInt64.le_iff_toNat_le.mp (later entry (table member))
    rw [last]
    omega
  unmarked entry member := by
    rw [sightings]
    exact before.unmarked entry (table member)

/-- `UdpLoop` sets up no session that the last cleanup has tested. -/
def Unseen (s : State) (n : Notes) : Prop :=
  ∀ σ, s.udp.preparing = some σ → ∀ g ∈ n.sightings, g.entry.2 ≠ σ

theorem UdpMove.unseen (move : UdpMove p s a t) (seen : Seen s n) (before : Unseen s n) :
    Unseen t (note s (.udp a) n) := by
  intro σ preparing g sighted
  cases move with
  | socketMade pc free =>
    -- the session is newer than all those tested
    simp only [note, pc] at sighted
    cases preparing
    exact Nat.ne_of_lt (seen.sightings g sighted).1
  | initActive pc | emplace pc =>
    simp only [note, pc] at sighted
    exact before σ (by simpa [pc, UdpPc.preparing] using preparing) g sighted
  | noThread pc =>
    simp only [note, pc] at sighted
    exact before σ preparing g sighted
  | test | retest | cleaned =>
    dsimp only [State.goto] at preparing
    split at preparing <;> cases preparing
  | _ => cases preparing

theorem Move.unseen (move : Move p s action t) (threads : Threads s) (seen : Seen s n)
    (before : Unseen s n) : Unseen t (note s action n) := by
  cases move with
  | udp move => exact move.unseen seen before
  | reply move =>
    intro σ preparing
    rw [move.quiet.udp] at preparing
    exact before σ preparing
  | stop move =>
    intro σ preparing
    rw [move.quiet.udp] at preparing
    have alive : s.udp ≠ .exited := by
      intro ended
      simp [ended, UdpPc.preparing] at preparing
    have unjoined := threads.unjoined alive
    cases move with
    | clean pc | enterCleanup pc | cleaned pc => simp [pc, StopPc.udpJoined] at unjoined
    | _ pc =>
      simp only [note, pc]
      exact before σ preparing
  | _ => exact before

theorem UdpMove.recent (move : UdpMove p s a t) (admitted : storesNow s (.udp a) = true)
    (limited : 0 < p.idleTimeoutMs) (timed : Timed s) (indexed : Indexed p s)
    (examines : ∀ c, s.cleaner = some c → Examines p c s n) (seen : Seen s n)
    (unseen : Unseen s n) (clocked : Clocked s n) (before : s.udp.outside = true → Recent p s n)
    (outside : t.udp.outside = true) : Recent p t (note s (.udp a) n) := by
  have later : ∀ entry ∈ s.udpSessions,
      (s.heap entry.2).lastActiveMs ≤ (t.heap entry.2).lastActiveMs := fun entry member =>
    (Move.udp move).later admitted timed (indexed.allocated entry member)
  cases move with
  | start pc =>
    obtain ⟨none_, rfl⟩ := clocked.start pc
    simp only [note, pc]
    exact ⟨.nil, by simp [none_], by simp⟩
  | @emplace _ d τ pc absent =>
    have recent := before (by simp [pc, UdpPc.outside])
    have made := UInt64.le_iff_toNat_le.mp (timed.made d τ pc)
    simp only [note, pc]
    refine ⟨recent.tested, ?_, ?_⟩
    · simp only [State.goto, List.forall_mem_cons]
      exact ⟨by omega, recent.bounded⟩
    · simp only [State.goto, List.forall_mem_cons]
      refine ⟨fun g sighted same => ?_, recent.unmarked⟩
      exact absurd same (unseen τ (by simp [pc, UdpPc.preparing]) g sighted)
  | @cleaned _ c pc finished =>
    have recent := (examines c (State.cleaner_udp pc)).recent finished limited seen
      (clocked.cleaning c pc)
    simp only [note, pc, Notes.clean, Cleanup.shutdown_of_finished finished]
    exact recent.keep rfl (fun _ => id) later rfl rfl
  | clean | enterCleanup | cleanupDue => cases outside
  | test pc | retest pc =>
    have recent := before (by simp [pc, UdpPc.outside])
    simp only [note, pc]
    exact recent.keep rfl (fun _ => id) later rfl rfl
  | _ pc =>
    have recent := before (by simp [pc, UdpPc.outside])
    simp only [note, pc]
    exact recent.keep rfl (fun _ => id) later rfl rfl

theorem Move.recent (move : Move p s action t) (admitted : storesNow s action = true)
    (limited : 0 < p.idleTimeoutMs) (timed : Timed s) (indexed : Indexed p s) (threads : Threads s)
    (examines : ∀ c, s.cleaner = some c → Examines p c s n) (seen : Seen s n)
    (unseen : Unseen s n) (clocked : Clocked s n) (before : s.udp.outside = true → Recent p s n)
    (outside : t.udp.outside = true) : Recent p t (note s action n) := by
  have later : ∀ entry ∈ s.udpSessions,
      (s.heap entry.2).lastActiveMs ≤ (t.heap entry.2).lastActiveMs := fun entry member =>
    move.later admitted timed (indexed.allocated entry member)
  cases move with
  | udp move =>
    exact move.recent admitted limited timed indexed examines seen unseen clocked before outside
  | reply move =>
    rw [move.quiet.udp] at outside
    exact (before outside).keep move.lastUdpCleanupMs (move.frame.udpSessions ▸ fun _ => id) later
      rfl rfl
  | stop move =>
    rw [move.quiet.udp] at outside
    -- `Stop` does not clean up before the UDP thread has ended
    have unjoined := threads.unjoined (by rintro ended; simp [ended, UdpPc.outside] at outside)
    cases move with
    | clean pc | enterCleanup pc | cleaned pc => simp [pc, StopPc.udpJoined] at unjoined
    | _ pc =>
      simp only [note, pc]
      exact (before outside).keep rfl (fun _ => id) later rfl rfl
  | foreignOpen | foreignClose | callStop | tick | resolver =>
    exact (before outside).keep rfl (fun _ => id) later rfl rfl

/-! ### Runs -/

/-- Observed runs whose stores to timestamps write the current time. -/
abbrev WatchedNow (p : Setup) : State × Notes → Prop :=
  (watched p).Reach fun x action => storesNow x.1 action = true

theorem watched_reached {x : State × Notes} (reached : WatchedNow p x) :
    Seen x.1 x.2 ∧ Unseen x.1 x.2 ∧ Clocked x.1 x.2 ∧
      (0 < p.idleTimeoutMs → x.1.udp.outside = true → Recent p x.1 x.2) := by
  induction reached with
  | start init =>
    obtain ⟨⟨fd, clock, outcome, endpoints, -, same⟩, none_⟩ := init
    rw [same, none_]
    exact ⟨⟨by simp, by simp [started, State.cleaner]⟩, by simp [Unseen],
      ⟨by simp [started], by simp, by simp, by simp [started, UdpPc.due], by simp [started]⟩,
      fun _ _ => ⟨.nil, by simp [started], by simp⟩⟩
  | @next x y action before admitted moved ih =>
    obtain ⟨step, noted⟩ := Machine.observed_step.mp moved
    have plain := before.unobserved (fun s action => storesNow s action = true) fun _ _ => id
    have move := step_move step
    have threads := threads_reached plain
    have timed := timed_reached plain
    have indexed := indexed_reached plain
    have examines := examines_reached before
    obtain ⟨seen, unseen, clocked, recent⟩ := ih
    rw [noted]
    exact ⟨move.seen admitted timed indexed threads examines seen, move.unseen threads seen unseen,
      move.clocked timed threads clocked, fun limited => move.recent admitted limited timed indexed
        threads examines seen unseen clocked (recent limited)⟩

/-- At the end of every iteration of `UdpLoop` that goes on, `MaybeCleanupIdleUdpSessions` has
read the clock in it. Every session in the table was active less than the timeout and one
interval before that time, and the last cleanup, which tested each entry it found once,
found none of the sessions still there marked. -/
theorem staleness_bounded {x : State × Notes}
    (limited : 0 < p.config.udpSessionIdleTimeoutSeconds) (reached : WatchedNow p x)
    (atEnd : x.1.udp = .test) (iterated : 0 < x.2.iterations) :
    ∃ now, x.2.read = some now ∧ (x.2.sightings.map Sighting.entry).Perm x.2.found ∧
      ∀ entry ∈ x.1.udpSessions,
        now.toNat < (x.1.heap entry.2).lastActiveMs.toNat +
          p.config.udpSessionIdleTimeoutSeconds.toNat * 1000 + 1000 ∧
        ∀ g ∈ x.2.sightings, g.entry.2 = entry.2 → g.marked = false := by
  obtain ⟨-, -, clocked, recent⟩ := watched_reached reached
  have timeout := p.idleTimeoutMs_toNat
  have positive : 0 < p.idleTimeoutMs := by
    rw [UInt32.lt_iff_toNat_lt, UInt32.toNat_zero] at limited
    rw [UInt64.lt_iff_toNat_lt, UInt64.toNat_zero, timeout]
    omega
  obtain ⟨now, read⟩ := Option.isSome_iff_exists.mp (clocked.test atEnd iterated)
  have within := (clocked.read now read).2
  obtain ⟨tested, bounded, unmarked⟩ := recent positive (by rw [atEnd]; rfl)
  refine ⟨now, read, tested, fun entry member => ⟨?_, unmarked entry member⟩⟩
  have bound := bounded entry member
  omega

/-- One client at the time 0, a cleanup at 2000 that spares its session, and a receive that
times out at 2999. -/
def lastSpared : List Action :=
  Sample.oneClient ++ .tick 2000 :: Sample.cleanup [("192.0.2.1:40000", 0)] 5 ++
    .tick 2999 :: ([.none, .none, .none, .error .wouldBlock, .none, .none] : List Answer).map .udp

/-- The bound is reached: no later time than 2999 can be read before the next cleanup. -/
theorem staleness_bounded_tight :
    ∃ x, WatchedNow Sample.setup x ∧ x.1.udpSessions = [("192.0.2.1:40000", 0)] ∧
      (x.1.heap 0).lastActiveMs = 0 ∧ x.2.read = some 2999 ∧ x.2.sightings.length = 1 ∧
      ∃ now, x.2.read = some now ∧ (x.2.sightings.map Sighting.entry).Perm x.2.found ∧
        ∀ entry ∈ x.1.udpSessions, now.toNat < (x.1.heap entry.2).lastActiveMs.toNat + 2000 + 1000 ∧
          ∀ g ∈ x.2.sightings, g.entry.2 = entry.2 → g.marked = false := by
  have result : ((watched Sample.setup).runIf (fun x action => storesNow x.1 action = true)
      (Sample.initial, {}) lastSpared).map (fun x => decide (x.1.udp = .test ∧
        0 < x.2.iterations ∧ x.1.udpSessions = [("192.0.2.1:40000", 0)] ∧
        (x.1.heap 0).lastActiveMs = 0 ∧ x.2.read = some 2999 ∧ x.2.sightings.length = 1)) =
      some true := by
    decide +kernel
  obtain ⟨x, run, seen⟩ := Option.map_eq_some_iff.mp result
  obtain ⟨atEnd, iterated, table, stamp, read, tests⟩ := of_decide_eq_true seen
  have reached : WatchedNow Sample.setup x :=
    Machine.Reach.runIf (.start ⟨Sample.initial_init, rfl⟩) run
  exact ⟨x, reached, table, stamp, read, tests,
    staleness_bounded (by decide) reached atEnd iterated⟩

end PortForwardX.Udp
