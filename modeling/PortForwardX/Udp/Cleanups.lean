import PortForwardX.Transition.Observed
import PortForwardX.Udp.IdleTest

/-!
# What a cleanup looks at

An observer beside the forwarder notes the table a cleanup finds, what the test of each
entry reads and which reply threads are joined. Every entry found is tested once, and the
table a scan leaves holds exactly the entries whose test came out false.
-/
namespace PortForwardX.Udp

open Transition Net

/-- The test of one entry: what its loads returned. The timestamp is loaded again only if
the first load was earlier than `now`. -/
structure Sighting where
  entry : String × SessionId
  forceAll : Bool
  now : UInt64
  first : UInt64
  second : Option UInt64
  marked : Bool
  deriving DecidableEq, Repr

/-- The idle test on the values it has read. -/
def foundIdle (p : Setup) (now first : UInt64) (second : Option UInt64) : Bool :=
  0 < p.idleTimeoutMs && first < now && second.any fun ms => p.idleTimeoutMs < now - ms

/-- `should_close`. -/
def Sighting.shouldClose (p : Setup) (g : Sighting) : Bool :=
  g.forceAll || g.marked || foundIdle p g.now g.first g.second

/-- What the observer has noted: the iterations of `UdpLoop` that have begun, the time that
`MaybeCleanupIdleUdpSessions` read in the current one, the table the last cleanup found
with the sessions in it whose reply loops had returned, the tests it has made so far with
the loads of the one in progress, and the sessions whose threads have been joined. -/
structure Notes where
  iterations : Nat := 0
  read : Option UInt64 := none
  found : List (String × SessionId) := []
  ended : List SessionId := []
  first : UInt64 := 0
  second : Option UInt64 := none
  sightings : List Sighting := []
  joins : List SessionId := []
  deriving DecidableEq, Repr

/-- A cleanup begins. -/
def Notes.enter (s : State) (n : Notes) : Notes :=
  { n with
    found := s.udpSessions
    ended := (s.udpSessions.map Prod.snd).filter fun σ => s.reply σ = .exited
    sightings := [] }

/-- A cleanup takes a step. -/
def Notes.clean (s : State) (c : Cleanup) (n : Notes) : Notes :=
  match c.pc with
  | .scan =>
    match c.todo with
    | [] => n
    | (_, σ) :: _ => { n with first := (s.heap σ).lastActiveMs, second := none }
  | .second _ σ _ => { n with second := some (s.heap σ).lastActiveMs }
  | .decide key σ _ =>
    { n with sightings := n.sightings ++
        [⟨(key, σ), c.forceAll, c.now, n.first, n.second, (s.heap σ).markedForClose⟩] }
  | .join σ => if s.reply σ = .exited then { n with joins := n.joins ++ [σ] } else n
  | _ => n

/-- What the observer notes in a step. -/
def note (s : State) (action : Action) (n : Notes) : Notes :=
  match action with
  | .udp _ =>
    match s.udp with
    | .test => { n with iterations := n.iterations + 1, read := none }
    | .maybeCleanup => { n with read := some s.clock }
    | .enterCleanup _ => n.enter s
    | .cleaning c => n.clean s c
    | _ => n
  | .stop _ =>
    match s.stop with
    | .enterCleanup => n.enter s
    | .cleaning c => n.clean s c
    | _ => n
  | _ => n

/-- The forwarder with its observer. -/
def watched (p : Setup) : Machine (State × Notes) Action :=
  (forwarder p).observed (fun _ n => n = {}) note

variable {p : Setup} {s t : State} {c c' : Cleanup} {a : Answer} {action : Action}
  {σ : SessionId} {n : Notes}

/-! ### Cleanups within the forwarder -/

/-- A cleanup is in its first loop, over the table. -/
def Cleanup.scanning (c : Cleanup) : Bool :=
  match c.pc with
  | .scan | .second .. | .decide .. | .evict .. => true
  | _ => false

/-- The cleanup a thread is in when it takes its next step. -/
def State.turn (s : State) : Action → Option Cleanup
  | .udp _ =>
    match s.udp with
    | .cleaning c => some c
    | _ => none
  | .stop _ =>
    match s.stop with
    | .cleaning c => some c
    | _ => none
  | _ => none

/-- What a step is to the cleanups: a step of the one in progress, the beginning of one, or
something else. -/
inductive Sweep (p : Setup) (s : State) (n : Notes) (action : Action) (t : State) (n' : Notes) :
    Prop
  | clean {c c' : Cleanup} {u : State} {udp : UdpPc} {stop : StopPc}
      (turn : s.turn action = some c) (cleaner : s.cleaner = some c)
      (unfinished : c.finished = false) (move : CleanMove p s c u c')
      (after : t.cleaner = some c') (state : t = { u with udp := udp, stop := stop })
      (noted : n' = n.clean s c)
  | enter {forceAll : Bool} {entries : List (String × SessionId)} {udp : UdpPc} {stop : StopPc}
      (idle : s.cleaner = none) (order : entries.Perm s.udpSessions)
      (after : t.cleaner = some ⟨forceAll, s.clock, entries, [], .scan⟩)
      (state : t = { s with udp := udp, stop := stop }) (noted : n' = n.enter s)
  | leave {c : Cleanup} {udp : UdpPc} {stop : StopPc} (cleaner : s.cleaner = some c)
      (finished : c.finished = true) (after : t.cleaner = none)
      (state : t = { s with udp := udp, stop := stop }) (noted : n' = n)
  | during {c : Cleanup} (cleaner : s.cleaner = some c) (after : t.cleaner = some c)
      (table : t.udpSessions = s.udpSessions) (noted : n' = n)
  | apart (idle : s.cleaner = none) (after : t.cleaner = none)
      (noted : n'.found = n.found ∧ n'.ended = n.ended ∧ n'.sightings = n.sightings ∧
        n'.joins = n.joins)

theorem State.cleaner_eq_none (cleaning : ∀ c, s.udp ≠ .cleaning c)
    (stopping : ∀ c, s.stop ≠ .cleaning c) : s.cleaner = none := by
  rw [Option.eq_none_iff_forall_ne_some]
  intro c cleaner
  exact (State.cleaner_cases cleaner).elim (cleaning c) (stopping c)

/-- Where `Stop` does not clean up, the UDP thread decides. -/
theorem State.cleaner_eq (udp : t.udp = s.udp) (before : ∀ c, s.stop ≠ .cleaning c)
    (after : ∀ c, t.stop ≠ .cleaning c) : t.cleaner = s.cleaner := by
  by_cases cleaning : ∃ c, s.udp = .cleaning c
  · obtain ⟨c, cleaning⟩ := cleaning
    rw [State.cleaner_udp cleaning, State.cleaner_udp (udp.trans cleaning)]
  · rw [not_exists] at cleaning
    rw [State.cleaner_eq_none cleaning before, State.cleaner_eq_none (udp ▸ cleaning) after]

/-- A step that moves no cleanup and notes nothing. -/
theorem Sweep.same (cleaner : t.cleaner = s.cleaner) (table : t.udpSessions = s.udpSessions) :
    Sweep p s n action t n := by
  cases before : s.cleaner with
  | none => exact .apart before (cleaner.trans before) ⟨rfl, rfl, rfl, rfl⟩
  | some c => exact .during before (cleaner.trans before) table rfl

theorem Cleanup.shutdown_of_finished (finished : c.finished = true) : c.pc = .shutdown := by
  simp only [Cleanup.finished, Bool.and_eq_true, beq_iff_eq] at finished
  exact finished.1

theorem UdpMove.sweep (move : UdpMove p s a t) (threads : Threads s) :
    Sweep p s n (.udp a) t (note s (.udp a) n) := by
  have unjoined := threads.unjoined move.alive
  have unstopped : ∀ c, s.stop ≠ .cleaning c := by
    intro c stopping
    simp [stopping, StopPc.udpJoined] at unjoined
  have idle (other : ∀ c, s.udp ≠ .cleaning c) := State.cleaner_eq_none other unstopped
  have stop := move.controls.2.1
  cases move with
  | clean pc unfinished move =>
    exact .clean (by simp only [State.turn, pc]) (State.cleaner_udp pc) unfinished move
      (State.cleaner_udp rfl) rfl (by simp only [note, pc])
  | cleaned pc finished =>
    refine .leave (State.cleaner_udp pc) finished (State.cleaner_eq_none ?_ unstopped) rfl ?_
    · dsimp only [State.goto]
      split <;> simp
    · simp only [note, pc, Notes.clean, Cleanup.shutdown_of_finished finished]
  | enterCleanup pc order =>
    exact .enter (idle (by simp [pc])) order (State.cleaner_udp rfl) rfl (by simp only [note, pc])
  | test pc | retest pc =>
    refine .apart (idle (by simp [pc])) (State.cleaner_eq_none ?_ unstopped) ?_
    · dsimp only [State.goto]
      split <;> simp
    · simp [note, pc]
  | _ pc =>
    exact .apart (idle (by simp [pc])) (State.cleaner_eq_none (by simp [pc]) unstopped)
      (by simp [note, pc])

theorem StopMove.sweep (move : StopMove p s a t) (threads : Threads s) :
    Sweep p s n (.stop a) t (note s (.stop a) n) := by
  cases move with
  | clean pc unfinished move =>
    have ended := threads.exclusive (by rw [pc]; rfl)
    exact .clean (by simp only [State.turn, pc]) (State.cleaner_stop ended pc) unfinished move
      (State.cleaner_stop (move.quiet.udp.trans ended) rfl) rfl (by simp only [note, pc])
  | cleaned pc finished =>
    have ended := threads.exclusive (by rw [pc]; rfl)
    refine .leave (State.cleaner_stop ended pc) finished
      (State.cleaner_eq_none (by simp [ended]) (by simp)) rfl ?_
    simp only [note, pc, Notes.clean, Cleanup.shutdown_of_finished finished]
  | enterCleanup pc order =>
    have ended := threads.exclusive (by rw [pc]; rfl)
    exact .enter (State.cleaner_eq_none (by simp [ended]) (by simp [pc])) order
      (State.cleaner_stop ended rfl) rfl (by simp only [note, pc])
  | _ pc =>
    simp only [note, pc]
    exact .same (State.cleaner_eq rfl (by simp [pc]) (by simp)) rfl

/-- Every step is one of these to the cleanups. -/
theorem Move.sweep (move : Move p s action t) (threads : Threads s) :
    Sweep p s n action t (note s action n) := by
  cases move with
  | udp move => exact move.sweep threads
  | reply move =>
    exact .same (by simp only [State.cleaner, move.quiet.udp, move.frame.stop])
      move.frame.udpSessions
  | stop move => exact move.sweep threads
  | callStop pc => exact .same (State.cleaner_eq rfl (by simp [pc]) (by simp)) rfl
  | _ => exact .same rfl rfl

/-! ### What the tests decide -/

/-- The entries a cleanup has still to test. -/
def Cleanup.untested (c : Cleanup) : List (String × SessionId) :=
  match c.pc with
  | .second key σ _ | .decide key σ _ => (key, σ) :: c.todo
  | _ => c.todo

/-- The entry whose test came out true and that the scan removes next. -/
def Cleanup.condemned (c : Cleanup) : List (String × SessionId) :=
  match c.pc with
  | .evict key σ _ => [(key, σ)]
  | _ => []

/-- The entries whose test came out false. -/
def Notes.spared (p : Setup) (n : Notes) : List (String × SessionId) :=
  (n.sightings.filter fun g => !g.shouldClose p).map Sighting.entry

/-- The second load is made just if the first one showed an earlier time. -/
def loadsAgain (p : Setup) (now first : UInt64) (second : Option UInt64) : Prop :=
  second.isSome = true ↔ 0 < p.idleTimeoutMs ∧ first < now

/-- The loads noted are those of the test in progress. -/
def Cleanup.Loaded (p : Setup) (c : Cleanup) (n : Notes) : Prop :=
  match c.pc with
  | .second _ _ first =>
    n.first = first ∧ n.second = none ∧ 0 < p.idleTimeoutMs ∧ n.first < c.now
  | .decide _ _ idle =>
    idle = foundIdle p c.now n.first n.second ∧ loadsAgain p c.now n.first n.second
  | _ => True

/-- The cleanup in progress tests each entry it found once and has removed exactly those
whose test came out true. -/
structure Examines (p : Setup) (c : Cleanup) (s : State) (n : Notes) : Prop where
  distinct : (n.found.map Prod.snd).Nodup
  tested : (n.sightings.map Sighting.entry ++ c.untested).Perm n.found
  table : (n.spared p ++ c.condemned ++ c.untested).Perm s.udpSessions
  loaded : c.Loaded p n
  uniform : ∀ g ∈ n.sightings,
    g.forceAll = c.forceAll ∧ g.now = c.now ∧ loadsAgain p g.now g.first g.second
  through : c.scanning = false → c.todo = []

theorem filter_key {entries rest : List (String × SessionId)} {key : String}
    (unique : (entries.map Prod.fst).Nodup) (split : (rest ++ [(key, σ)]).Perm entries) :
    rest.Perm (entries.filter fun entry => entry.1 != key) := by
  have keys := (split.map Prod.fst).nodup_iff.mpr unique
  have others : ∀ entry ∈ rest, entry.1 ≠ key := by
    intro entry member same
    rw [List.map_append, List.nodup_append] at keys
    exact keys.2.2 entry.1 (List.mem_map_of_mem member) key (by simp) same
  have kept : (rest ++ [(key, σ)]).filter (fun entry => entry.1 != key) = rest := by
    rw [List.filter_append, List.filter_eq_self.mpr fun entry member => by simp [others entry member]]
    simp
  exact kept ▸ split.filter _

theorem CleanMove.examines (move : CleanMove p s c t c') (before : Examines p c s n)
    (unique : (s.udpSessions.map Prod.fst).Nodup) : Examines p c' t (n.clean s c) := by
  obtain ⟨distinct, tested, table, loaded, uniform, through⟩ := before
  cases move with
  | scanned pc todo =>
    simp only [Cleanup.untested, Cleanup.condemned, pc, todo] at tested table
    simp only [Notes.clean, pc, todo]
    exact ⟨distinct, tested, table, trivial, uniform, fun _ => rfl⟩
  | older pc todo limited older =>
    simp only [Cleanup.untested, Cleanup.condemned, pc, todo] at tested table
    simp only [Notes.clean, pc, todo]
    exact ⟨distinct, tested, table, ⟨rfl, rfl, limited, older⟩, uniform, by simp [Cleanup.scanning]⟩
  | recent pc todo recent =>
    simp only [Cleanup.untested, Cleanup.condemned, pc, todo] at tested table
    simp only [Notes.clean, pc, todo]
    refine ⟨distinct, tested, table, ⟨?_, ?_⟩, uniform, by simp [Cleanup.scanning]⟩
    · simp [foundIdle]
    · simpa [loadsAgain] using recent
  | @idleTest key τ first pc =>
    simp only [Cleanup.Loaded, pc] at loaded
    obtain ⟨-, -, limited, older⟩ := loaded
    simp only [Cleanup.untested, Cleanup.condemned, pc] at tested table
    simp only [Notes.clean, pc]
    refine ⟨distinct, tested, table, ⟨?_, ?_⟩, uniform, by simp [Cleanup.scanning]⟩
    · simp [foundIdle, limited, older]
    · simp [loadsAgain, limited, older]
  | @spare key τ idle pc unforced unmarked active =>
    simp only [Cleanup.Loaded, pc, active] at loaded
    simp only [Cleanup.untested, Cleanup.condemned, pc] at tested table
    simp only [Notes.clean, pc]
    refine ⟨distinct, ?_, ?_, trivial, ?_, by simp [Cleanup.scanning]⟩
    · simpa [Cleanup.untested] using tested
    · simpa [Cleanup.untested, Cleanup.condemned, Notes.spared, Sighting.shouldClose, unforced,
        unmarked, ← loaded.1] using table
    · simpa [or_imp, forall_and, loaded.2] using uniform
  | @condemn key τ idle pc cause =>
    simp only [Cleanup.Loaded, pc] at loaded
    simp only [Cleanup.untested, Cleanup.condemned, pc] at tested table
    simp only [Notes.clean, pc]
    refine ⟨distinct, ?_, ?_, trivial, ?_, by simp [Cleanup.scanning]⟩
    · simpa [Cleanup.untested] using tested
    · have closes : (c.forceAll || (s.heap τ).markedForClose || idle) = true := by
        simpa [or_assoc] using cause
      rw [loaded.1] at closes
      -- the entry tested is not spared
      refine .trans ?_ table
      simp only [Cleanup.untested, Cleanup.condemned, Notes.spared, Sighting.shouldClose,
        List.filter_append, List.filter_singleton, closes]
      simp
    · simpa [or_imp, forall_and, loaded.2] using uniform
  | @evict key τ reason pc =>
    simp only [Cleanup.untested, Cleanup.condemned, pc] at tested table
    simp only [Notes.clean, pc]
    refine ⟨distinct, tested, ?_, trivial, uniform, by simp [Cleanup.scanning]⟩
    -- no other entry has that key
    have last : (n.spared p ++ c.todo ++ [(key, τ)]).Perm s.udpSessions := by
      refine .trans ?_ table
      simp only [List.append_assoc]
      exact List.perm_append_comm.append_left _
    simpa [Cleanup.untested, Cleanup.condemned] using filter_key unique last
  | @join τ pc ended =>
    simp only [Cleanup.untested, Cleanup.condemned, pc] at tested table
    simp only [Notes.clean, pc, ended, if_true]
    exact ⟨distinct, tested, table, trivial, uniform, fun _ => through (by simp [Cleanup.scanning, pc])⟩
  | @unjoinable τ pc absent =>
    simp only [Cleanup.untested, Cleanup.condemned, pc] at tested table
    have running : s.reply τ ≠ .exited := by rcases absent with pc' | pc' <;> simp [pc']
    simp only [Notes.clean, pc, running, if_false]
    exact ⟨distinct, tested, table, trivial, uniform, fun _ => through (by simp [Cleanup.scanning, pc])⟩
  | _ pc =>
    simp only [Cleanup.untested, Cleanup.condemned, pc] at tested table
    simp only [Notes.clean, pc]
    exact ⟨distinct, tested, table, trivial, uniform, fun _ => through (by simp [Cleanup.scanning, pc])⟩

/-- After the scan each entry found has been tested once, and those are left whose test came
out false. -/
theorem Examines.scanned (examines : Examines p c s n) (scanned : c.scanning = false) :
    (n.sightings.map Sighting.entry).Perm n.found ∧ (n.spared p).Perm s.udpSessions := by
  have through := examines.through scanned
  have tested := examines.tested
  have table := examines.table
  have none_ : c.condemned = [] ∧ c.untested = [] := by
    unfold Cleanup.scanning at scanned
    split at scanned <;> simp_all [Cleanup.condemned, Cleanup.untested]
  rw [none_.2, List.append_nil] at tested
  rw [none_.1, none_.2, List.append_nil, List.append_nil] at table
  exact ⟨tested, table⟩

theorem Cleanup.scanning_of_finished (finished : c.finished = true) : c.scanning = false := by
  simp [Cleanup.scanning, Cleanup.shutdown_of_finished finished]

/-- No session is tested twice. -/
theorem Examines.once (examines : Examines p c s n) {g g' : Sighting} (sighted : g ∈ n.sightings)
    (sighted' : g' ∈ n.sightings) (same : g.entry.2 = g'.entry.2) : g = g' := by
  have distinct := (examines.tested.map Prod.snd).nodup_iff.mpr examines.distinct
  rw [List.map_append, List.map_map] at distinct
  exact List.inj_on_of_nodup_map (List.Nodup.of_append_left distinct) sighted sighted' same

/-- A cleanup that has just begun has found the table and tested nothing. -/
theorem examines_enter {forceAll : Bool} {now : UInt64} {entries : List (String × SessionId)}
    (order : entries.Perm s.udpSessions) (same : t.udpSessions = s.udpSessions)
    (distinct : (s.udpSessions.map Prod.snd).Nodup) :
    Examines p ⟨forceAll, now, entries, [], .scan⟩ t (n.enter s) where
  distinct := distinct
  tested := order
  table := by simpa [Notes.enter, Notes.spared, Cleanup.condemned, Cleanup.untested, same] using order
  loaded := trivial
  uniform := by simp [Notes.enter]
  through := by simp [Cleanup.scanning]

/-- In every run the cleanup in progress examines the table. -/
theorem examines_reached {ok : State × Notes → Action → Prop} {x : State × Notes}
    (reached : (watched p).Reach ok x) :
    ∀ c, x.1.cleaner = some c → Examines p c x.1 x.2 := by
  induction reached with
  | start init =>
    obtain ⟨⟨fd, clock, outcome, endpoints, -, same⟩, -⟩ := init
    simp [same, started, State.cleaner]
  | @next x y action before _ moved ih =>
    obtain ⟨step, noted⟩ := Machine.observed_step.mp moved
    have before := before.unobserved Machine.anyStep fun _ _ _ => trivial
    intro c after
    cases (step_move step).sweep (n := x.2) (threads_reached before) with
    | clean _ cleaner unfinished move now state noted' =>
      obtain rfl := Option.some.inj (now.symm.trans after)
      have examined := move.examines (ih _ cleaner) (indexed_reached before).unique
      rw [noted, noted']
      exact ⟨examined.distinct, examined.tested, state ▸ examined.table, examined.loaded,
        examined.uniform, examined.through⟩
    | enter idle order now state noted' =>
      obtain rfl := Option.some.inj (now.symm.trans after)
      rw [noted, noted']
      exact examines_enter order (by rw [state]) (indexed_reached before).sessions
    | during cleaner now table noted' =>
      obtain rfl := Option.some.inj (now.symm.trans after)
      obtain ⟨distinct, tested, sessions, loaded, uniform, through⟩ := ih _ cleaner
      rw [noted, noted']
      exact ⟨distinct, tested, table ▸ sessions, loaded, uniform, through⟩
    | leave _ _ none_ | apart _ none_ => simp [none_] at after

@[simp] theorem Notes.clean_found : (n.clean s c).found = n.found := by
  unfold Notes.clean
  repeat' split
  all_goals rfl

@[simp] theorem Notes.clean_ended : (n.clean s c).ended = n.ended := by
  unfold Notes.clean
  repeat' split
  all_goals rfl

/-- What a cleanup finds are sessions made before, and those ended are among them. -/
theorem found_reached {ok : State × Notes → Action → Prop} {x : State × Notes}
    (reached : (watched p).Reach ok x) :
    (∀ entry ∈ x.2.found, entry.2 < x.1.nextSession) ∧ x.2.ended ⊆ x.2.found.map Prod.snd := by
  induction reached with
  | start init =>
    rw [init.2]
    simp
  | @next x y action before _ moved ih =>
    obtain ⟨step, noted⟩ := Machine.observed_step.mp moved
    have before := before.unobserved Machine.anyStep fun _ _ _ => trivial
    have move := step_move step
    have later (entries : List (String × SessionId))
        (old : ∀ entry ∈ entries, entry.2 < x.1.nextSession) :
        ∀ entry ∈ entries, entry.2 < y.1.nextSession :=
      fun entry member => Nat.lt_of_lt_of_le (old entry member) move.fixed.next
    rw [noted]
    cases move.sweep (n := x.2) (threads_reached before) with
    | clean _ _ _ _ _ _ noted' =>
      rw [noted', Notes.clean_found, Notes.clean_ended]
      exact ⟨later _ ih.1, ih.2⟩
    | enter _ _ _ _ noted' =>
      rw [noted']
      exact ⟨later _ (indexed_reached before).allocated, List.filter_sublist.subset⟩
    | leave _ _ _ _ noted' | during _ _ _ noted' =>
      rw [noted']
      exact ⟨later _ ih.1, ih.2⟩
    | apart _ _ noted' =>
      rw [noted'.1, noted'.2.1]
      exact ⟨later _ ih.1, ih.2⟩

end PortForwardX.Udp
