import PortForwardX.Tcp.Object

/-!
# Descriptor safety of a session object

The arguments of the relays and the members name the session's own sockets whenever a call
is made with them: the relays are joined before the sockets are closed, and the mutex and
the overwritten members keep `Stop` off closed numbers.
-/
namespace PortForwardX.Tcp

open Transition

variable {o o' : Object} {a : ObjectAction} {s t : State} {d : Side}

/-! ### Steps by name -/

/-- The steps of an object by name. -/
inductive Object.Move (o : Object) : ObjectAction → Object → Prop
  | copySource {d : Side} {result : Int} (unread : o.arguments d = .unread)
      (started : (o.session.relay d).pc ≠ .notStarted) :
      Move o (.relay d result)
        { o with arguments := Function.update o.arguments d (.source (o.member d)) }
  | copyDestination {d : Side} {result : Int} {source : SocketHandle}
      (copied : o.arguments d = .source source) :
      Move o (.relay d result)
        { o with arguments := Function.update o.arguments d (.both source (o.member d.other)) }
  | relay {d : Side} {result : Int} {source destination : SocketHandle} {t : State}
      (copied : o.arguments d = .both source destination)
      (moved : Tcp.relayStep o.session d result = some t) :
      Move o (.relay d result) (o.advance t fun side => if side = d then source else destination)
  | worker {t : State} (moved : workerStep o.session = some t) :
      Move o .worker (o.advance t o.member)
  | callStop (alive : o.destructor = .alive) :
      Move o .callStop { o with session := callStopStep o.session }
  | stop {t : State} (moved : stopStep o.session = some t) : Move o .stop (o.advance t o.member)
  | callJoin {byWorker : Bool} (alive : o.destructor = .alive) (idle : o.join = .idle) :
      Move o (.callJoin byWorker) { o with join := .testJoinable byWorker }
  | testJoinable {byWorker : Bool} (pc : o.join = .testJoinable byWorker) :
      Move o .join { o with join := if o.joinable then .testSelf byWorker else .idle }
  | detach (pc : o.join = .testSelf true) :
      Move o .join { o with joinable := false, join := .idle }
  | testSelf (pc : o.join = .testSelf false) : Move o .join { o with join := .join }
  | join (pc : o.join = .join) (ended : o.session.worker = .done) :
      Move o .join { o with joinable := false, join := .idle }
  | isFinished (alive : o.destructor = .alive) :
      Move o .isFinished { o with answers := o.answers ++ [o.session.finished] }
  | destroy (alive : o.destructor = .alive) (unjoined : o.join = .idle)
      (quiet : o.session.stopPc = .idle ∨ o.session.stopPc = .done) :
      Move o .destroy { o with destructor := .callStop }
  | destructorStop (pc : o.destructor = .callStop) :
      Move o .destructor { o with session := callStopStep o.session, destructor := .inStop }
  | stopReturned (pc : o.destructor = .inStop)
      (quiet : o.session.stopPc = .idle ∨ o.session.stopPc = .done) :
      Move o .destructor { o with destructor := .callJoin }
  | destructorJoin (pc : o.destructor = .callJoin) :
      Move o .destructor { o with join := .testJoinable false, destructor := .inJoin }
  | joinReturned (pc : o.destructor = .inJoin) (idle : o.join = .idle) :
      Move o .destructor { o with destructor := .gone }
  | peer {p : Action} {t : State} (moved : Tcp.step o.session p = some t)
      (outer : t.trace = o.session.trace ∧ t.relay = o.session.relay) (other : p ≠ .worker) :
      Move o (.peer p) { o with session := t }
  | foreignOpen {fd : Nat} (free : o.fds fd = none) :
      Move o (.foreignOpen fd) { o with fds := Function.update o.fds fd (some .foreign) }
  | foreignClose {fd : Nat} (foreign : o.fds fd = some .foreign) :
      Move o (.foreignClose fd) { o with fds := Function.update o.fds fd none }

theorem Object.joinStep_move (moved : o.joinStep = some o') : Object.Move o .join o' := by
  unfold Object.joinStep at moved
  split at moved
  · cases moved
  next byWorker pc => exact Option.some.inj moved ▸ .testJoinable pc
  next byWorker pc =>
    cases byWorker
    · exact Option.some.inj moved ▸ .testSelf pc
    · exact Option.some.inj moved ▸ .detach pc
  next pc =>
    split at moved
    next ended => exact Option.some.inj moved ▸ .join pc ended
    · cases moved

theorem Object.destructorStep_move (moved : o.destructorStep = some o') :
    Object.Move o .destructor o' := by
  unfold Object.destructorStep at moved
  split at moved
  · cases moved
  · cases moved
  next pc => exact Option.some.inj moved ▸ .destructorStop pc
  next pc =>
    split at moved
    next quiet => exact Option.some.inj moved ▸ .stopReturned pc quiet
    · cases moved
  next pc => exact Option.some.inj moved ▸ .destructorJoin pc
  next pc =>
    split at moved
    next idle => exact Option.some.inj moved ▸ .joinReturned pc idle
    · cases moved

theorem Object.relayStep_move {result : Int} (moved : o.relayStep d result = some o') :
    Object.Move o (.relay d result) o' := by
  unfold Object.relayStep at moved
  split at moved
  next unread =>
    split at moved
    · cases moved
    next started => exact Option.some.inj moved ▸ .copySource unread started
  next source copied => exact Option.some.inj moved ▸ .copyDestination copied
  next source destination copied =>
    obtain ⟨t, relayed, rfl⟩ := Option.map_eq_some_iff.mp moved
    exact .relay copied relayed

theorem Object.peerStep_move {p : Action} (moved : o.peerStep p = some o') :
    Object.Move o (.peer p) o' := by
  unfold Object.peerStep at moved
  split at moved
  next side bytes =>
    obtain ⟨t, arrived, rfl⟩ := Option.map_eq_some_iff.mp moved
    obtain ⟨-, rfl⟩ := arrive_move arrived
    exact .peer arrived ⟨rfl, rfl⟩ (by simp)
  next side =>
    obtain ⟨t, ended, rfl⟩ := Option.map_eq_some_iff.mp moved
    exact .peer ended (by cases ended; exact ⟨rfl, rfl⟩) (by simp)
  next side =>
    obtain ⟨t, reset, rfl⟩ := Option.map_eq_some_iff.mp moved
    exact .peer reset (by cases reset; exact ⟨rfl, rfl⟩) (by simp)
  · cases moved

/-- Every step of an object is one of the named moves. -/
theorem Object.step_move (moved : o.step a = some o') : Object.Move o a o' := by
  unfold Object.step at moved
  split at moved
  next d result => exact Object.relayStep_move moved
  next =>
    obtain ⟨t, worked, rfl⟩ := Option.map_eq_some_iff.mp moved
    exact .worker worked
  next =>
    split at moved
    next alive => exact Option.some.inj moved ▸ .callStop alive
    · cases moved
  next =>
    obtain ⟨t, stopped, rfl⟩ := Option.map_eq_some_iff.mp moved
    exact .stop stopped
  next byWorker =>
    split at moved
    next ready => exact Option.some.inj moved ▸ .callJoin ready.1 ready.2
    · cases moved
  next => exact Object.joinStep_move moved
  next =>
    split at moved
    next alive => exact Option.some.inj moved ▸ .isFinished alive
    · cases moved
  next =>
    split at moved
    next ready => exact Option.some.inj moved ▸ .destroy ready.1 ready.2.1 ready.2.2
    · cases moved
  next => exact Object.destructorStep_move moved
  next p => exact Object.peerStep_move moved
  next fd =>
    split at moved
    next free => exact Option.some.inj moved ▸ .foreignOpen free
    · cases moved
  next fd =>
    split at moved
    next foreign => exact Option.some.inj moved ▸ .foreignClose foreign
    · cases moved

/-! ### The session inside -/

/-- An object's step is a step of the session or leaves the session alone. -/
theorem Object.Move.session (move : Object.Move o a o') :
    o'.session = o.session ∨ ∃ p, Tcp.step o.session p = some o'.session := by
  cases move with
  | @relay d result _ _ t _ moved => exact .inr ⟨.relay d result, moved⟩
  | worker moved => exact .inr ⟨.worker, moved⟩
  | stop moved => exact .inr ⟨.stop, moved⟩
  | callStop | destructorStop => exact .inr ⟨.callStop, rfl⟩
  | peer moved => exact .inr ⟨_, moved⟩
  | _ => exact .inl rfl

/-- The runs of an object are runs of its session. -/
theorem Object.session_reached {ok : Object → ObjectAction → Prop} (reached : object.Reach ok o) :
    Tcp.session.Reach Machine.anyStep o.session := by
  induction reached with
  | start init =>
    obtain ⟨number, fds, -, -, rfl⟩ := init
    exact .start rfl
  | next _ _ moved ih =>
    rcases (Object.step_move moved).session with same | ⟨p, stepped⟩
    · exact same ▸ ih
    · exact .next ih trivial stepped

/-! ### What the calls are made on -/

/-- A relay's step is one call, and it closes nothing. -/
theorem RelayMove.calls {result : Int} (move : RelayMove s d result t) :
    ∃ c, t.trace = s.trace ++ [c] ∧ ∀ side, c ≠ .close side := by
  cases move <;> exact ⟨_, rfl, by simp⟩

/-- The worker makes no call or closes a socket whose member it has found valid. -/
theorem WorkerMove.calls (move : WorkerMove s t) :
    (t.trace = s.trace ∧ ∀ e, (t.socket e).isOpen = (s.socket e).isOpen) ∨
      ∃ side, (s.socket side).held = true ∧ s.worker = .close side ∧
        t.trace = s.trace ++ [.close side] ∧ (t.socket side).isOpen = false ∧
        ∀ e ≠ side, (t.socket e).isOpen = (s.socket e).isOpen := by
  cases move with
  | @close side pc held =>
    exact .inr ⟨side, held, pc, rfl, by simp, fun e other => by simp [other]⟩
  | invalidateClient | invalidateUpstream =>
    exact .inl ⟨rfl, fun e => by cases e <;> simp⟩
  | _ => exact .inl ⟨rfl, fun _ => rfl⟩

/-- `Stop` makes no call or shuts down a socket whose member it has found valid, with the
mutex in hand. -/
theorem StopMove.calls (move : StopMove s t) :
    t.trace = s.trace ∨ ∃ side, (s.socket side).held = true ∧ s.stopPc.locked = true ∧
      t.trace = s.trace ++ [.shutdownBoth side] := by
  cases move with
  | shutdownClient pc | shutdownUpstream pc =>
    unfold shutdownMember
    split
    next held => exact .inr ⟨_, held, by simp [pc, StopPc.locked], rfl⟩
    · exact .inl rfl
  | _ => exact .inl rfl

/-- As long as a relay has not ended, nothing is closed. -/
theorem Control.open_of_running (control : Control s) (running : (s.relay d).pc.hasEnded = false)
    (e : Side) : (s.socket e).isOpen = true ∧ (s.socket e).held = true := by
  have unjoined : s.worker.joined d = false := by
    by_contra joined
    simp [control.joined d (by simpa using joined)] at running
  rw [control.isOpen, control.held]
  cases pc : s.worker <;> cases d <;> cases e <;>
    simp_all [WorkerPc.joined, WorkerPc.closed, WorkerPc.dropped]

/-- Outside the worker's critical section a valid member is open. -/
theorem Control.open_of_held (control : Control s) (unlocked : s.worker.locked = false)
    (held : (s.socket d).held = true) : (s.socket d).isOpen = true := by
  rw [control.held] at held
  rw [control.isOpen]
  cases pc : s.worker <;> cases d <;>
    simp_all [WorkerPc.locked, WorkerPc.closed, WorkerPc.dropped]

/-! ### The invariant -/

/-- What `d`'s thread has copied are the session's own numbers. -/
def Arguments.Own (number : Side → Nat) (d : Side) : Arguments → Prop
  | .unread => True
  | .source handle => handle = some (number d)
  | .both handle destination => handle = some (number d) ∧ destination = some (number d.other)

/-- A call was made on the open socket it was meant for. -/
def NumberedCall.Own (number : Side → Nat) (c : NumberedCall) : Prop :=
  c.handle = some (number c.call.side) ∧ c.owner = some (.session c.call.side)

/-- Numbers, arguments and calls of an object. -/
structure Object.Numbered (o : Object) : Prop where
  distinct : o.number .client ≠ o.number .upstream
  named : ∀ d, (o.session.socket d).isOpen = true → o.fds (o.number d) = some (.session d)
  arguments : ∀ d, (o.arguments d).Own o.number d
  copying : ∀ d, (∀ source destination, o.arguments d ≠ .both source destination) →
    (o.session.relay d).pc = .notStarted ∨ (o.session.relay d).pc = .recv
  own : ∀ c ∈ o.calls, c.Own o.number
  closes : ∀ d, o.session.trace.count (.close d) = if (o.session.socket d).isOpen then 0 else 1
  last : o.calls.Pairwise fun c later => c.call = .close c.call.side → later.call.side ≠ c.call.side
  history : o.calls.map NumberedCall.call = o.session.trace

theorem Object.Numbered.injective (numbered : o.Numbered) {e : Side}
    (same : o.number d = o.number e) : d = e := by
  have distinct := numbered.distinct
  cases d <;> cases e <;> first | rfl | exact absurd same distinct | exact absurd same.symm distinct

/-- The rule for a step that makes no call. -/
theorem Object.Numbered.silent (before : o.Numbered) (number : o'.number = o.number)
    (fds : ∀ d, o.fds (o.number d) = some (.session d) → o'.fds (o.number d) = some (.session d))
    (isOpen : ∀ d, (o'.session.socket d).isOpen = (o.session.socket d).isOpen)
    (trace : o'.session.trace = o.session.trace) (calls : o'.calls = o.calls)
    (arguments : ∀ d, (o'.arguments d).Own o.number d)
    (copying : ∀ d, (∀ source destination, o'.arguments d ≠ .both source destination) →
      (o'.session.relay d).pc = .notStarted ∨ (o'.session.relay d).pc = .recv) :
    o'.Numbered where
  distinct := number ▸ before.distinct
  named d open_ := by
    rw [number]
    exact fds d (before.named d (isOpen d ▸ open_))
  arguments := number ▸ arguments
  copying := copying
  own := by
    rw [calls, number]
    exact before.own
  closes d := by rw [trace, isOpen, before.closes]
  last := by
    rw [calls]
    exact before.last
  history := by rw [calls, trace, before.history]

/-- The rule for a step that makes one call `c`, on an open socket and with its number. -/
theorem Object.Numbered.call (before : o.Numbered) {c : Call} {handle : Side → SocketHandle}
    (trace : t.trace = o.session.trace ++ [c])
    (number : handle c.side = some (o.number c.side))
    (open_ : (o.session.socket c.side).isOpen = true)
    (closes : ∀ d, (t.socket d).isOpen =
      ((o.session.socket d).isOpen && !decide (c = .close d)))
    (copying : ∀ d, (∀ source destination, o.arguments d ≠ .both source destination) →
      (t.relay d).pc = .notStarted ∨ (t.relay d).pc = .recv) :
    (o.advance t handle).Numbered where
  distinct := before.distinct
  named d still := by
    change (t.socket d).isOpen = true at still
    rw [closes, Bool.and_eq_true] at still
    have kept : ¬ (c = .close c.side ∧ handle c.side = some (o.number d)) := by
      rintro ⟨close, same⟩
      rw [number] at same
      have side := before.injective (Option.some.inj same)
      rw [side] at close
      simp [← close] at still
    simpa [Object.advance, trace, kept] using before.named d still.1
  arguments := before.arguments
  copying := copying
  own := by
    intro u member
    simp only [Object.advance, trace, List.drop_left, List.map_cons, List.map_nil,
      List.mem_append, List.mem_singleton] at member
    rcases member with old | rfl
    · exact before.own u old
    · exact ⟨number, by rw [number]; exact before.named _ open_⟩
  closes d := by
    change t.trace.count _ = if (t.socket d).isOpen then 0 else 1
    rw [trace, List.count_append, before.closes, closes]
    by_cases closed : c = .close d
    · have side : c.side = d := by rw [closed]; rfl
      rw [side] at open_
      simp [closed, open_]
    · simp [closed]
  last := by
    simp only [Object.advance, trace, List.drop_left, List.map_cons, List.map_nil]
    refine List.pairwise_append.mpr ⟨before.last, List.pairwise_singleton _ _, ?_⟩
    intro earlier member u new close same
    obtain rfl := List.mem_singleton.mp new
    -- a socket that has been closed is not open
    have closed := before.closes c.side
    rw [if_pos open_, List.count_eq_zero, ← before.history] at closed
    exact closed (List.mem_map.mpr ⟨earlier, member, same ▸ close⟩)
  history := by simp [Object.advance, trace, before.history]

/-- Starting a relay is all the worker does to it. -/
theorem WorkerMove.relays (move : WorkerMove s t) (d : Side) :
    (t.relay d).pc = (s.relay d).pc ∨ (t.relay d).pc = .recv := by
  cases move with
  | startUpstream | startDownstream => cases d <;> simp
  | _ => exact .inl rfl

theorem callStopStep_frame (s : State) :
    (callStopStep s).socket = s.socket ∧ (callStopStep s).relay = s.relay ∧
      (callStopStep s).worker = s.worker ∧ (callStopStep s).finished = s.finished ∧
      (callStopStep s).trace = s.trace := by
  unfold callStopStep
  split <;> exact ⟨rfl, rfl, rfl, rfl, rfl⟩

/-- A member that is valid holds the session's number. -/
theorem Object.member_of_held (held : (o.session.socket d).held = true) :
    o.member d = some (o.number d) := by
  simp [Object.member, held]

theorem Object.Move.numbered (move : Object.Move o a o') (control : Control o.session)
    (exclusive : Exclusive o.session) (before : o.Numbered) : o'.Numbered := by
  have copying := before.copying
  cases move with
  | @copySource d result unread started =>
    -- the relay has not begun to relay, so the members are still valid
    have begun := (copying d (by simp [unread])).resolve_left started
    have held := (control.open_of_running (d := d) (by simp [begun, RelayPc.hasEnded]) d).2
    refine before.silent rfl (fun _ => id) (fun _ => rfl) rfl rfl (fun e => ?_) fun e incomplete => ?_
    · by_cases own : e = d
      · subst own
        simpa [Arguments.Own] using Object.member_of_held held
      · simpa [own] using before.arguments e
    · by_cases own : e = d
      · subst own
        exact .inr begun
      · exact copying e (by simpa [own] using incomplete)
  | @copyDestination d result source copied =>
    have early := copying d (by simp [copied])
    have held := (control.open_of_running (d := d)
      (by rcases early with pc | pc <;> simp [pc, RelayPc.hasEnded]) d.other).2
    refine before.silent rfl (fun _ => id) (fun _ => rfl) rfl rfl (fun e => ?_) fun e incomplete => ?_
    · by_cases own : e = d
      · subst own
        have first := before.arguments e
        rw [copied] at first
        simpa [Arguments.Own] using ⟨first, Object.member_of_held held⟩
      · simpa [own] using before.arguments e
    · by_cases own : e = d
      · subst own
        exact early
      · exact copying e (by simpa [own] using incomplete)
  | @relay d result source destination t copied moved =>
    have relayed := Tcp.relayStep_move moved
    obtain ⟨_, _, _, _, _, opposite, _, running, _⟩ := relayed.frame
    obtain ⟨c, trace, keeps⟩ := relayed.calls
    have arguments := before.arguments d
    rw [copied] at arguments
    refine before.call trace ?_ (control.open_of_running running c.side).1 (fun e => ?_) ?_
    · rcases Side.eq_or_other d c.side with same | same <;> simp [same, arguments.1, arguments.2]
    · have handles := step_handles (a := .relay d result) moved (by simp) e
      simp [handles.1, keeps e]
    · intro e incomplete
      have other : e ≠ d := fun same => incomplete _ _ (same ▸ copied)
      rw [(Side.eq_or_other d e).resolve_left other, opposite]
      exact copying d.other ((Side.eq_or_other d e).resolve_left other ▸ incomplete)
  | @worker t moved =>
    have worked := workerStep_move moved
    have relays : ∀ e, (∀ source destination, o.arguments e ≠ .both source destination) →
        (t.relay e).pc = .notStarted ∨ (t.relay e).pc = .recv := by
      intro e incomplete
      rcases worked.relays e with same | begun
      · exact same ▸ copying e incomplete
      · exact .inr begun
    rcases worked.calls with ⟨trace, same⟩ | ⟨side, held, pc, trace, closed, others⟩
    · exact before.silent rfl (fun e named => by simpa [Object.advance, trace] using named) same trace
        (by simp [Object.advance, trace]) before.arguments relays
    · -- what has not been closed is open, and what is closed here is closed for the first time
      have open_ : (o.session.socket side).isOpen = true := by
        rw [control.isOpen, pc]
        cases side <;> rfl
      refine before.call trace (Object.member_of_held held) open_ (fun e => ?_) relays
      by_cases same : e = side
      · simp [same, closed]
      · simp [others e same, Ne.symm same]
  | @stop t moved =>
    have stopped := Tcp.stopStep_move moved
    have other := step_threads (a := .stop) moved (by simp)
    have handles := step_handles (a := .stop) moved (by simp)
    have relays : t.relay = o.session.relay := by cases stopped <;> simp
    rcases stopped.calls with trace | ⟨side, held, locked, trace⟩
    · exact before.silent rfl (fun e named => by simpa [Object.advance, trace] using named)
        (fun e => (handles e).1) trace (by simp [Object.advance, trace]) before.arguments
        (by simpa [Object.advance, relays] using copying)
    · -- the mutex keeps the worker out
      have unlocked : o.session.worker.locked = false := by
        by_contra both
        have mutex := exclusive.stopper.mpr locked
        rw [exclusive.worker.mpr (by simpa using both)] at mutex
        cases mutex
      refine before.call trace (Object.member_of_held held) (control.open_of_held unlocked held)
        (fun e => ?_) (by simpa [relays] using copying)
      simp [(handles e).1]
  | callStop | destructorStop =>
    obtain ⟨socket, relay, -, -, trace⟩ := callStopStep_frame o.session
    exact before.silent rfl (fun _ => id) (fun e => by simp [socket]) trace rfl before.arguments
      (by simpa [relay] using copying)
  | @peer p t moved outer other =>
    exact before.silent rfl (fun _ => id) (fun e => (step_handles moved other e).1) outer.1 rfl
      before.arguments (by simpa [outer.2] using copying)
  | @foreignOpen fd free =>
    refine before.silent rfl (fun e named => ?_) (fun _ => rfl) rfl rfl before.arguments copying
    have different : o.number e ≠ fd := fun same => by simp [same, free] at named
    simpa [different] using named
  | @foreignClose fd foreign =>
    refine before.silent rfl (fun e named => ?_) (fun _ => rfl) rfl rfl before.arguments copying
    have different : o.number e ≠ fd := fun same => by simp [same, foreign] at named
    simpa [different] using named
  | _ => exact before.silent rfl (fun _ => id) (fun _ => rfl) rfl rfl before.arguments copying

theorem Object.numbered_reached {ok : Object → ObjectAction → Prop}
    (reached : object.Reach ok o) : o.Numbered := by
  induction reached with
  | start init =>
    obtain ⟨number, fds, distinct, named, rfl⟩ := init
    refine ⟨distinct, fun d _ => named d, fun _ => trivial, fun _ _ => .inl rfl, ?_, ?_, .nil, rfl⟩ <;>
      simp [initial]
  | next before _ moved ih =>
    have inner := Object.session_reached before
    exact (Object.step_move moved).numbered (control_reached inner) (exclusive_reached inner) ih

/-! ### Joining and finishing -/

/-- What the callers of `Join` and the destructor rely on. -/
structure Object.Joined (o : Object) : Prop where
  outside : o.join ≠ .testJoinable true ∧ o.join ≠ .testSelf true
  ended : o.joinable = false → o.session.worker = .done
  joining : o.destructor = .inJoin → o.join = .idle → o.joinable = false
  gone : o.destructor = .gone → o.joinable = false
  answers : (∃ b ∈ o.answers, b = true) → o.session.finished = true
  monotone : o.answers.Pairwise fun earlier later => earlier = true → later = true

theorem step_staysDone {p : Action} (moved : step s p = some t) :
    (s.worker = .done → t.worker = .done) ∧ (s.finished = true → t.finished = true) := by
  by_cases own : p = .worker
  · subst own
    cases workerStep_move moved <;> simp_all
  · obtain ⟨worker, finished, -⟩ := step_threads moved own
    simp [worker, finished]

/-- What is done stays done, and finished stays finished. -/
theorem Object.Move.staysDone (move : Object.Move o a o') :
    (o.session.worker = .done → o'.session.worker = .done) ∧
      (o.session.finished = true → o'.session.finished = true) := by
  rcases move.session with same | ⟨p, moved⟩
  · simp [same]
  · exact step_staysDone moved

theorem Object.Move.joined (move : Object.Move o a o') (before : o.Joined)
    (other : Tcp.outside o a = true) : o'.Joined := by
  obtain ⟨outside, ended, joining, gone, answers, monotone⟩ := before
  have stays := move.staysDone
  have kept : (∃ b ∈ o.answers, b = true) → o'.session.finished = true :=
    fun seen => stays.2 (answers seen)
  cases move with
  | @callJoin byWorker alive idle =>
    have caller : byWorker = false := by simpa [Tcp.outside] using other
    exact ⟨by simp [caller], ended, by simp [alive], by simp [alive], kept, monotone⟩
  | @testJoinable byWorker pc =>
    have caller : byWorker = false := by
      cases byWorker
      · rfl
      · exact absurd pc outside.1
    refine ⟨by subst caller; split <;> simp, ended, fun inJoin => ?_, gone, kept, monotone⟩
    split
    · simp
    next unjoinable => exact fun _ => by simpa using unjoinable
  | detach pc => exact absurd pc outside.2
  | testSelf pc => exact ⟨by simp, ended, by simp, gone, kept, monotone⟩
  | join pc done => exact ⟨by simp, fun _ => done, by simp, by simp, kept, monotone⟩
  | isFinished alive =>
    refine ⟨outside, ended, joining, gone, fun ⟨b, member, yes⟩ => ?_, ?_⟩
    · rcases List.mem_append.mp member with old | new
      · exact answers ⟨b, old, yes⟩
      · exact (List.mem_singleton.mp new) ▸ yes
    · refine List.pairwise_append.mpr ⟨monotone, List.pairwise_singleton _ _, ?_⟩
      intro b member c new yes
      obtain rfl := List.mem_singleton.mp new
      exact answers ⟨b, member, yes⟩
  | destroy | destructorStop | stopReturned =>
    exact ⟨outside, fun unjoinable => stays.1 (ended unjoinable), by simp, by simp, kept, monotone⟩
  | destructorJoin => exact ⟨by simp, ended, by simp, by simp, kept, monotone⟩
  | joinReturned pc idle => exact ⟨outside, ended, by simp, fun _ => joining pc idle, kept, monotone⟩
  | _ => exact ⟨outside, fun unjoinable => stays.1 (ended unjoinable), joining, gone, kept, monotone⟩

theorem Object.joined_reached
    (reached : object.Reach (fun o a => Tcp.outside o a = true) o) : o.Joined := by
  induction reached with
  | start init =>
    obtain ⟨number, fds, -, -, rfl⟩ := init
    constructor <;> simp
  | next _ admitted moved ih => exact (Object.step_move moved).joined ih admitted

/-- A session that is done has ended both relays and closed both sockets. -/
theorem Control.closed_of_done (control : Control s) (done : s.worker = .done) (d : Side) :
    (s.relay d).pc.hasEnded = true ∧ (s.socket d).isOpen = false :=
  ⟨control.joined d (by rw [done]; rfl), by rw [control.isOpen, done]; rfl⟩

/-- How often the descriptor of `d` has been closed. -/
def Object.closed (o : Object) (d : Side) : Nat := (o.calls.map NumberedCall.call).count (.close d)

/-- Descriptor safety of a started session, in every interleaving of its worker, its relays
and its callers up to the end of its destructor. Neither descriptor is closed twice, and
when the destructor has returned both are closed and no thread of the session is left.
Every call is made with the number of the socket it is meant for while that number still
belongs to it, and none is made on a side that has been closed. `finished_` becomes true
only when both relays have ended and both descriptors are closed, and stays true. -/
theorem session_descriptors (reached : object.Reach (fun o a => outside o a = true) o) :
    ((∀ d, o.closed d ≤ 1) ∧ (o.destructor = .gone → ∀ d, o.closed d = 1 ∧
      (o.session.relay d).pc.hasEnded = true ∧ o.session.worker = .done)) ∧
    ((∀ c ∈ o.calls, c.handle = some (o.number c.call.side) ∧
        c.owner = some (.session c.call.side)) ∧
      o.calls.Pairwise fun c later =>
        c.call = .close c.call.side → later.call.side ≠ c.call.side) ∧
    (o.session.finished = true →
      ∀ d, (o.session.relay d).pc.hasEnded = true ∧ o.closed d = 1) ∧
    (∀ as o', object.run o as = some o' → o.session.finished = true →
      o'.session.finished = true) ∧
    o.answers.Pairwise fun earlier later => earlier = true → later = true := by
  have numbered := Object.numbered_reached reached
  have joined := Object.joined_reached reached
  have control := control_reached (Object.session_reached reached)
  have closes : ∀ d, o.closed d = if (o.session.socket d).isOpen then 0 else 1 := by
    intro d
    rw [Object.closed, numbered.history, numbered.closes]
  have finished : o.session.worker = .done →
      ∀ d, (o.session.relay d).pc.hasEnded = true ∧ o.closed d = 1 := by
    intro done d
    have ended := control.closed_of_done done d
    exact ⟨ended.1, by rw [closes, ended.2]; rfl⟩
  refine ⟨⟨fun d => ?_, fun gone d => ?_⟩, ⟨numbered.own, numbered.last⟩, fun yes => ?_,
    fun as o' result => Machine.run_stable (P := fun o => o.session.finished = true)
      (fun _ _ _ moved => (Object.step_move moved).staysDone.2) result, joined.monotone⟩
  · rw [closes]
    split <;> decide
  · have done := joined.ended (joined.gone gone)
    exact ⟨(finished done d).2, (finished done d).1, done⟩
  · exact finished (control.finished.mp yes)

/-- A session on descriptors 4 and 5. -/
def startedObject : Object where
  number
    | .client => 4
    | .upstream => 5
  fds fd := if fd = 4 then some (.session .client) else if fd = 5 then some (.session .upstream)
    else none

/-- A receive from the client fails, both relays end, and `Stop` is called while the worker
closes the sockets. The numbers go to other sockets before the destructor begins. -/
def failedSession : List ObjectAction :=
  [.worker, .worker, .relay .client 0, .relay .client 0, .relay .upstream 0, .relay .upstream 0,
    .relay .client (-1), .relay .client 0, .relay .upstream 0, .relay .upstream 0, .worker, .worker,
    .isFinished, .worker, .worker, .foreignOpen 4, .callStop, .worker, .worker, .worker,
    .foreignOpen 5, .worker, .stop, .stop, .stop, .stop, .worker, .isFinished, .destroy,
    .destructor, .destructor, .destructor, .join, .join, .join, .destructor]

theorem session_descriptors_failed :
    ∃ o, object.Reach (fun o a => outside o a = true) o ∧ o.destructor = .gone ∧
      o.fds 4 = some .foreign ∧ o.fds 5 = some .foreign ∧ o.answers = [false, true] ∧
      ∀ d, o.closed d = 1 := by
  have init : object.Init startedObject :=
    ⟨_, _, by decide, fun d => by cases d <;> rfl, rfl⟩
  have result : (object.runIf (fun o a => outside o a = true) startedObject failedSession).map
      (fun o => (o.destructor, o.fds 4, o.fds 5, o.answers)) =
      some (.gone, some .foreign, some .foreign, [false, true]) := by decide +kernel
  obtain ⟨o, run, seen⟩ := Option.map_eq_some_iff.mp result
  simp only [Prod.mk.injEq] at seen
  have reached := Machine.Reach.runIf (.start init) run
  exact ⟨o, reached, seen.1, seen.2.1, seen.2.2.1, seen.2.2.2,
    fun d => ((session_descriptors reached).1.2 seen.1 d).1⟩

end PortForwardX.Tcp
