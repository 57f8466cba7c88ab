import PortForwardX.Udp.Cleanups
import Mathlib.Data.List.Range

/-!
# Custody of sessions

At every moment a session is in one place: `GetOrCreateUdpSession` is setting it up, it is
in the table, a cleanup has removed it, a cleanup has closed its socket, or its thread has
been joined. Every step leaves it there or moves it on to the next place.
-/
namespace PortForwardX.Udp

open Transition Net

/-! ### Places -/

/-- A session with a socket that is not in the table yet. -/
def UdpPc.unlisted : UdpPc → List SessionId
  | .initActive _ σ | .emplace _ σ => [σ]
  | _ => []

/-- The sessions in the table. -/
def State.listed (s : State) : List SessionId := s.udpSessions.map Prod.snd

/-- The sessions a cleanup has removed and not closed. -/
def Cleanup.removed (c : Cleanup) : List SessionId :=
  match c.pc with
  | .close σ => σ :: c.closing
  | _ => c.closing

/-- The session whose socket a cleanup has closed and whose thread it has not joined. -/
def Cleanup.closed (c : Cleanup) : List SessionId :=
  match c.pc with
  | .setInvalid σ | .join σ => [σ]
  | _ => []

def State.removed (s : State) : List SessionId := s.cleaner.elim [] Cleanup.removed

def State.closed (s : State) : List SessionId := s.cleaner.elim [] Cleanup.closed

/-- The sessions whose sockets are open. -/
def State.open (s : State) : List SessionId := s.udp.unlisted ++ s.listed ++ s.removed

def Event.evicts : Event → Option SessionId
  | .evicted σ _ => some σ
  | _ => none

def Event.closes : Event → Option (SessionId × SocketHandle)
  | .closed σ socket => some (σ, socket)
  | _ => none

/-- The sessions that have left the table, in order. -/
def State.evicted (s : State) : List SessionId := s.trace.filterMap Event.evicts

/-- The closes that cleanups have made, in order. -/
def State.closings (s : State) : List (SessionId × SocketHandle) := s.trace.filterMap Event.closes

/-- Every session made so far is in one place, and has left the table and been closed just
if that place says so. -/
structure Custody (setup removed closed joined : List SessionId) (s : State) : Prop where
  places : (setup ++ s.listed ++ removed ++ closed ++ joined).Perm (List.range s.nextSession)
  evicted : s.evicted.Perm (removed ++ closed ++ joined)
  closings : (s.closings.map Prod.fst).Perm (closed ++ joined)

/-- The places of the sessions in a state. -/
abbrev State.Custody (s : State) (n : Notes) : Prop :=
  Udp.Custody s.udp.unlisted s.removed s.closed n.joins s

variable {p : Setup} {s t : State} {c c' : Cleanup} {a : Answer} {action : Action}
  {σ : SessionId} {n n' : Notes} {fd : Nat}

theorem State.evicted_append {e : Event} (trace : t.trace = s.trace ++ [e]) :
    t.evicted = s.evicted ++ e.evicts.toList := by
  rw [State.evicted, trace, List.filterMap_append]
  cases h : e.evicts <;> simp [State.evicted, h]

theorem State.closings_append {e : Event} (trace : t.trace = s.trace ++ [e]) :
    t.closings = s.closings ++ e.closes.toList := by
  rw [State.closings, trace, List.filterMap_append]
  cases h : e.closes <;> simp [State.closings, h]

section custody

variable {setup removed closed joined : List SessionId}

theorem Custody.distinct (custody : Custody setup removed closed joined s) :
    (setup ++ s.listed ++ removed ++ closed ++ joined).Nodup :=
  custody.places.nodup_iff.mpr List.nodup_range

/-- The rule for a step that moves no session. -/
theorem Custody.keep (before : Custody setup removed closed joined s) (listed : t.listed = s.listed)
    (next : t.nextSession = s.nextSession) (evicted : t.evicted = s.evicted)
    (closings : t.closings = s.closings) : Custody setup removed closed joined t where
  places := by
    rw [listed, next]
    exact before.places
  evicted := by
    rw [evicted]
    exact before.evicted
  closings := by
    rw [closings]
    exact before.closings

end custody

/-- The scan removes one session from the table. -/
theorem Examines.removes {key : String} {reason : CloseReason} (examines : Examines p c s n)
    (unique : (s.udpSessions.map Prod.fst).Nodup) (pc : c.pc = .evict key σ reason) :
    ((s.udpSessions.filter fun entry => entry.1 != key).map Prod.snd ++ [σ]).Perm s.listed := by
  have table := examines.table
  simp only [Cleanup.untested, Cleanup.condemned, pc] at table
  have last : (n.spared p ++ c.todo ++ [(key, σ)]).Perm s.udpSessions := by
    refine .trans ?_ table
    simp only [List.append_assoc]
    exact List.perm_append_comm.append_left _
  have rest := (filter_key unique last).map Prod.snd
  have whole := last.map Prod.snd
  rw [List.map_append] at whole
  exact (rest.symm.append_right _).trans whole

theorem CleanMove.custody (move : CleanMove p s c t c')
    (before : Custody [] c.removed c.closed n.joins s) (examines : Examines p c s n)
    (unique : (s.udpSessions.map Prod.fst).Nodup)
    (looping : ∀ σ, c.pc = .join σ → s.reply σ ≠ .notStarted)
    (joined : ∀ σ, s.reply σ = .joined → σ ∈ n.joins) :
    Custody [] c'.removed c'.closed (n.clean s c).joins t := by
  cases move with
  | @evict key τ reason pc =>
    have shrunk := examines.removes unique pc
    simp only [Cleanup.removed, Cleanup.closed, pc] at before
    simp only [Notes.clean, pc, Cleanup.removed, Cleanup.closed]
    obtain ⟨places, evicted, closings⟩ := before
    refine ⟨?_, ?_, ?_⟩
    · rw [List.perm_iff_count] at places shrunk ⊢
      intro σ
      have placed := places σ
      have moved := shrunk σ
      simp only [List.count_append, State.listed, State.log, State.mark, State.modify] at *
      omega
    · rw [State.evicted_append (s := s) rfl, List.perm_iff_count]
      intro σ
      have gone := evicted.count_eq σ
      simp only [Event.evicts, Option.toList, List.count_append] at *
      omega
    · rw [State.closings_append (s := s) rfl]
      simpa [Event.closes] using closings
  | @shutdown τ rest pc closing =>
    simp only [Cleanup.removed, Cleanup.closed, pc, closing] at before
    simp only [Notes.clean, pc, Cleanup.removed, Cleanup.closed]
    exact before.keep rfl rfl rfl rfl
  | @close τ pc =>
    simp only [Cleanup.removed, Cleanup.closed, pc] at before
    simp only [Notes.clean, pc, Cleanup.removed, Cleanup.closed]
    obtain ⟨places, evicted, closings⟩ := before
    refine ⟨?_, ?_, ?_⟩
    · rw [List.perm_iff_count] at places ⊢
      intro σ
      have placed := places σ
      simp only [List.count_append, List.count_cons, List.count_nil, State.listed, State.log,
        State.closeSocket] at placed ⊢
      omega
    · rw [State.evicted_append (s := s) rfl]
      refine .trans (by simpa [Event.evicts] using evicted) ?_
      simpa using List.perm_middle.symm
    · rw [State.closings_append (s := s) rfl, List.map_append]
      simpa [Event.closes] using (List.perm_append_singleton _ _).trans (closings.cons τ)
  | @setInvalid τ pc =>
    simp only [Cleanup.removed, Cleanup.closed, pc] at before
    simp only [Notes.clean, pc, Cleanup.removed, Cleanup.closed]
    exact before.keep rfl rfl rfl rfl
  | @join τ pc ended =>
    simp only [Cleanup.removed, Cleanup.closed, pc] at before
    simp only [Notes.clean, pc, ended, if_true, Cleanup.removed, Cleanup.closed]
    obtain ⟨places, evicted, closings⟩ := before
    -- the session goes to the end of the list of those joined
    have moved : ([τ] ++ n.joins).Perm ([] ++ (n.joins ++ [τ])) := List.perm_append_comm
    refine ⟨?_, ?_, ?_⟩
    · refine .trans ?_ places
      simpa [State.listed] using moved.symm.append_left (s.listed ++ c.closing)
    · refine .trans evicted ?_
      simpa using moved.append_left c.closing
    · exact closings.trans moved
  | @unjoinable τ pc absent =>
    -- the thread runs, and nobody has joined it
    rcases absent with absent | absent
    · exact absurd absent (looping τ pc)
    · simp only [Cleanup.removed, Cleanup.closed, pc] at before
      have distinct := before.distinct
      rw [List.append_assoc, List.nodup_append] at distinct
      have twice := (List.nodup_append.mp distinct.2.1).2.2 τ (by simp) τ (joined τ absent)
      exact absurd rfl twice
  | scanned pc todo | older pc todo | recent pc todo =>
    simp only [Cleanup.removed, Cleanup.closed, pc] at before
    simp only [Notes.clean, pc, todo, Cleanup.removed, Cleanup.closed]
    exact before.keep rfl rfl rfl rfl
  | idleTest pc =>
    simp only [Cleanup.removed, Cleanup.closed, pc] at before
    simp only [Notes.clean, pc, Cleanup.removed, Cleanup.closed]
    exact before.keep rfl rfl (by simp [State.evicted, Event.evicts])
      (by simp [State.closings, Event.closes])
  | spare pc | condemn pc =>
    simp only [Cleanup.removed, Cleanup.closed, pc] at before
    simp only [Notes.clean, pc, Cleanup.removed, Cleanup.closed]
    exact before.keep rfl rfl rfl rfl

/-- Where no cleanup moves, the other places count. -/
theorem State.Custody.keep (before : s.Custody n) (unlisted : t.udp.unlisted = s.udp.unlisted)
    (removed : t.removed = s.removed) (closed : t.closed = s.closed) (joins : n'.joins = n.joins)
    (listed : t.listed = s.listed) (next : t.nextSession = s.nextSession)
    (evicted : t.evicted = s.evicted) (closings : t.closings = s.closings) : t.Custody n' := by
  rw [State.Custody, unlisted, removed, closed, joins]
  exact Udp.Custody.keep before listed next evicted closings

theorem State.no_places (idle : s.cleaner = none) : s.removed = [] ∧ s.closed = [] := by
  simp [State.removed, State.closed, idle]

theorem State.places_of_cleaner (cleaner : s.cleaner = some c) :
    s.removed = c.removed ∧ s.closed = c.closed := by
  simp [State.removed, State.closed, cleaner]

/-- A cleanup that begins or has finished holds no session. -/
theorem Cleanup.places_of_finished (finished : c.finished = true) :
    c.removed = [] ∧ c.closed = [] := by
  have pc := Cleanup.shutdown_of_finished finished
  simp only [Cleanup.finished, Bool.and_eq_true, List.isEmpty_iff] at finished
  simp [Cleanup.removed, Cleanup.closed, pc, finished.2]

/-- Apart from the steps of cleanups, sessions are neither removed nor closed nor joined. -/
theorem Sweep.places (sweep : Sweep p s n action t n')
    (still : ∀ c, s.turn action = some c → c.finished = true) :
    t.removed = s.removed ∧ t.closed = s.closed ∧ n'.joins = n.joins := by
  cases sweep with
  | clean turn cleaner unfinished => simp [still _ turn] at unfinished
  | enter idle order after state noted =>
    obtain ⟨removed, closed⟩ := State.no_places idle
    obtain ⟨removed', closed'⟩ := State.places_of_cleaner after
    exact ⟨removed'.trans removed.symm, closed'.trans closed.symm, by rw [noted]; rfl⟩
  | leave cleaner finished after state noted =>
    obtain ⟨removed, closed⟩ := State.no_places after
    obtain ⟨removed', closed'⟩ := State.places_of_cleaner cleaner
    obtain ⟨none_, none_'⟩ := Cleanup.places_of_finished finished
    exact ⟨by rw [removed, removed', none_], by rw [closed, closed', none_'], by rw [noted]⟩
  | during cleaner after table noted =>
    obtain ⟨removed, closed⟩ := State.places_of_cleaner cleaner
    obtain ⟨removed', closed'⟩ := State.places_of_cleaner after
    exact ⟨removed'.trans removed.symm, closed'.trans closed.symm, by rw [noted]⟩
  | apart idle after noted =>
    obtain ⟨removed, closed⟩ := State.no_places idle
    obtain ⟨removed', closed'⟩ := State.no_places after
    exact ⟨removed'.trans removed.symm, closed'.trans closed.symm, noted.2.2.2⟩

/-- The reply loops run from the moment their sessions are set up to their join. -/
structure Loops (s : State) (n : Notes) : Prop where
  started : ∀ σ < s.nextSession, s.udp.preparing ≠ some σ → s.reply σ ≠ .notStarted
  joined : ∀ σ, s.reply σ = .joined ↔ σ ∈ n.joins

/-- A step of a cleanup, seen from the state it is part of. -/
theorem CleanMove.stateCustody {udp : UdpPc} {stop : StopPc} (move : CleanMove p s c t c')
    (cleaner : s.cleaner = some c) (after : State.cleaner { t with udp := udp, stop := stop } = some c')
    (unlisted : s.udp.unlisted = []) (unlisted' : udp.unlisted = []) (indexed : Indexed p s)
    (examines : Examines p c s n) (loops : Loops s n) (preparing : s.udp.preparing = none)
    (before : s.Custody n) :
    State.Custody { t with udp := udp, stop := stop } (n.clean s c) := by
  obtain ⟨removed, closed⟩ := State.places_of_cleaner cleaner
  obtain ⟨removed', closed'⟩ := State.places_of_cleaner after
  rw [State.Custody, unlisted, removed, closed] at before
  rw [State.Custody, removed', closed', unlisted']
  have looping : ∀ σ, c.pc = .join σ → s.reply σ ≠ .notStarted := by
    intro σ pc
    refine loops.started σ ?_ (by simp [preparing])
    -- the session is in a place, so it has been made
    have placed : σ ∈ List.range s.nextSession :=
      before.places.subset (by simp [Cleanup.closed, pc])
    exact List.mem_range.mp placed
  have after := move.custody before examines indexed.unique looping fun σ => (loops.joined σ).mp
  exact after.keep rfl rfl rfl rfl

theorem UdpMove.custody (move : UdpMove p s a t) (admitted : a ≠ .started false)
    (indexed : Indexed p s) (threads : Threads s)
    (examines : ∀ c, s.cleaner = some c → Examines p c s n) (loops : Loops s n)
    (before : s.Custody n) : t.Custody (note s (.udp a) n) := by
  have sweep := move.sweep (n := n) threads
  have places := sweep.places
  cases move with
  | @clean a c c' u pc unfinished move =>
    simp only [note, pc]
    exact move.stateCustody (State.cleaner_udp pc) (State.cleaner_udp rfl) (by rw [pc]; rfl) rfl
      indexed (examines c (State.cleaner_udp pc)) loops (by rw [pc]; rfl) before
  | @socketMade fd d endpoint rest pc free =>
    obtain ⟨removed, closed, joins⟩ := places (by simp [State.turn, pc])
    rw [State.Custody, pc] at before
    rw [State.Custody, removed, closed, joins]
    obtain ⟨placed, evicted, closings⟩ := before
    refine ⟨?_, ?_, ?_⟩
    · change (s.nextSession :: (s.listed ++ s.removed ++ s.closed ++ n.joins)).Perm
        (List.range (s.nextSession + 1))
      rw [List.range_succ]
      exact (List.perm_append_singleton _ _).symm.trans (placed.append_right _)
    · simpa [State.evicted, Event.evicts, List.filterMap_cons] using evicted
    · simpa [State.closings, Event.closes, List.filterMap_cons] using closings
  | @emplace _ d σ pc absent =>
    obtain ⟨removed, closed, joins⟩ := places (by simp [State.turn, pc])
    rw [State.Custody, pc] at before
    rw [State.Custody, removed, closed, joins]
    -- the session moves from one end of a list to the beginning of the next
    exact ⟨before.places, before.evicted, before.closings⟩
  | emplaced pc found => exact absurd found (indexed.not_emplaced pc)
  | noThread pc => exact absurd rfl admitted
  | cleaned pc finished =>
    obtain ⟨removed, closed, joins⟩ := places (by simp [State.turn, pc, finished])
    refine before.keep ?_ removed closed joins rfl rfl rfl rfl
    dsimp only [State.goto]
    split <;> simp [UdpPc.unlisted, pc]
  | test pc | retest pc =>
    obtain ⟨removed, closed, joins⟩ := places (by simp [State.turn, pc])
    refine before.keep ?_ removed closed joins rfl rfl rfl rfl
    dsimp only [State.goto]
    split <;> simp [UdpPc.unlisted, pc]
  | _ pc =>
    obtain ⟨removed, closed, joins⟩ := places (by simp [State.turn, pc])
    refine before.keep (by simp [UdpPc.unlisted, pc]) removed closed joins rfl rfl ?_ ?_ <;>
      simp [State.evicted, State.closings, Event.evicts, Event.closes]

theorem StopMove.custody (move : StopMove p s a t) (indexed : Indexed p s) (threads : Threads s)
    (examines : ∀ c, s.cleaner = some c → Examines p c s n) (loops : Loops s n)
    (before : s.Custody n) : t.Custody (note s (.stop a) n) := by
  have sweep := move.sweep (n := n) threads
  have places := sweep.places
  cases move with
  | @clean a c c' u pc unfinished move =>
    have ended := threads.exclusive (by rw [pc]; rfl)
    have cleaner := State.cleaner_stop ended pc
    have none_ : s.udp.unlisted = [] := by rw [ended]; rfl
    simp only [note, pc]
    exact move.stateCustody cleaner (State.cleaner_stop (move.quiet.udp.trans ended) rfl) none_
      (move.quiet.udp ▸ none_) indexed (examines c cleaner) loops (by rw [ended]; rfl) before
  | cleaned pc finished =>
    obtain ⟨removed, closed, joins⟩ := places (by simp [State.turn, pc, finished])
    exact before.keep rfl removed closed joins rfl rfl rfl rfl
  | _ pc =>
    obtain ⟨removed, closed, joins⟩ := places (by simp [State.turn, pc])
    exact before.keep rfl removed closed joins rfl rfl rfl rfl

theorem Move.custody (move : Move p s action t) (admitted : action ≠ .udp (.started false))
    (indexed : Indexed p s) (threads : Threads s)
    (examines : ∀ c, s.cleaner = some c → Examines p c s n) (loops : Loops s n)
    (before : s.Custody n) : t.Custody (note s action n) := by
  have places := (move.sweep (n := n) threads).places
  cases move with
  | udp move =>
    exact move.custody (fun same => admitted (same ▸ rfl)) indexed threads examines loops before
  | stop move => exact move.custody indexed threads examines loops before
  | reply move =>
    obtain ⟨removed, closed, joins⟩ := places (by simp [State.turn])
    refine before.keep (by rw [move.quiet.udp]) removed closed joins ?_ move.quiet.nextSession ?_ ?_
    · rw [State.listed, move.frame.udpSessions, State.listed]
    · cases move <;> simp [State.evicted, Event.evicts]
    · cases move <;> simp [State.closings, Event.closes]
  | _ =>
    obtain ⟨removed, closed, joins⟩ := places (by simp [State.turn])
    refine before.keep rfl removed closed joins rfl rfl ?_ ?_ <;>
      simp [State.evicted, State.closings, Event.evicts, Event.closes]

/-! ### Reply loops -/

theorem CleanMove.joined (move : CleanMove p s c t c')
    (before : ∀ σ, s.reply σ = .joined ↔ σ ∈ n.joins) (σ : SessionId) :
    t.reply σ = .joined ↔ σ ∈ (n.clean s c).joins := by
  cases move with
  | @join τ pc ended =>
    simp only [Notes.clean, pc, ended, if_true]
    by_cases own : σ = τ
    · simp [own]
    · simpa [own] using before σ
  | @unjoinable τ pc absent =>
    have running : s.reply τ ≠ .exited := by rcases absent with pc' | pc' <;> simp [pc']
    simp only [Notes.clean, pc, running, if_false]
    exact before σ
  | scanned pc todo | older pc todo | recent pc todo =>
    simp only [Notes.clean, pc, todo]
    exact before σ
  | _ pc =>
    simp only [Notes.clean, pc]
    exact before σ

/-- Only a cleanup takes a reply thread to its join. -/
theorem Move.joined (move : Move p s action t) (threads : Threads s)
    (before : ∀ σ, s.reply σ = .joined ↔ σ ∈ n.joins) (σ : SessionId) :
    t.reply σ = .joined ↔ σ ∈ (note s action n).joins := by
  have places := (move.sweep (n := n) threads).places
  cases move with
  | udp move =>
    cases move with
    | clean pc unfinished move =>
      simp only [note, pc]
      exact move.joined before σ
    | @startThread d τ pc =>
      rw [(places (by simp [State.turn, pc])).2.2, ← before σ]
      have absent := (threads.prepared τ (by rw [pc]; rfl)).2.1
      by_cases own : σ = τ
      · simp [own, absent]
      · simp [own]
    | cleaned pc finished =>
      rw [(places (by simp [State.turn, pc, finished])).2.2]
      exact before σ
    | _ pc =>
      rw [(places (by simp [State.turn, pc])).2.2]
      exact before σ
  | @reply τ a t move =>
    rw [(places (by simp [State.turn])).2.2, ← before σ]
    by_cases own : σ = τ
    · -- a joined thread takes no step
      subst own
      cases move with
      | testRunning pc | testMarked pc | recvFailed pc | sent pc =>
        simp only [State.gotoReply, State.log, Function.update_self, pc, reduceCtorEq, iff_false]
        split <;> simp
      | _ pc => simp [pc]
    · rw [move.frame.reply σ own]
  | stop move =>
    cases move with
    | clean pc unfinished move =>
      simp only [note, pc]
      exact move.joined before σ
    | cleaned pc finished =>
      rw [(places (by simp [State.turn, pc, finished])).2.2]
      exact before σ
    | _ pc =>
      rw [(places (by simp [State.turn, pc])).2.2]
      exact before σ
  | _ =>
    rw [(places (by simp [State.turn])).2.2]
    exact before σ

/-- A session is set up until its thread starts, and a new one is being set up. -/
theorem Move.preparing (move : Move p s action t) (indexed : Indexed p s) :
    (s.udp.preparing = some σ → t.udp.preparing = some σ ∨ t.reply σ = .testRunning) ∧
      (s.nextSession ≤ σ → σ < t.nextSession → t.udp.preparing = some σ) := by
  by_cases own : ∃ a, action = .udp a
  · obtain ⟨a, rfl⟩ := own
    cases move with
    | udp move =>
      cases move with
      | socketMade pc free =>
        refine ⟨by simp [pc, UdpPc.preparing], fun new made => ?_⟩
        obtain rfl : σ = s.nextSession := Nat.le_antisymm (Nat.le_of_lt_succ made) new
        rfl
      | clean pc unfinished move =>
        refine ⟨by simp [pc, UdpPc.preparing], fun new made => ?_⟩
        exact absurd (move.quiet.nextSession ▸ made) (Nat.not_lt.mpr new)
      | startThread pc =>
        refine ⟨fun preparing => ?_, fun new made => absurd made (Nat.not_lt.mpr new)⟩
        simp only [pc, UdpPc.preparing, Option.some.injEq] at preparing
        exact .inr (by simp [preparing])
      | emplaced pc found => exact absurd found (indexed.not_emplaced pc)
      | initActive pc | emplace pc | noThread pc =>
        refine ⟨fun preparing => .inl ?_, fun new made => absurd made (Nat.not_lt.mpr new)⟩
        simpa [pc, UdpPc.preparing] using preparing
      | _ pc =>
        refine ⟨?_, fun new made => absurd made (Nat.not_lt.mpr new)⟩
        simp [pc, UdpPc.preparing]
  · have quiet := move.quiet fun a same => own ⟨a, same⟩
    rw [quiet.udp, quiet.nextSession]
    exact ⟨.inl, fun new made => absurd made (Nat.not_lt.mpr new)⟩

/-- No thread goes back to where it has not started. -/
theorem Move.notStarted (move : Move p s action t) (absent : t.reply σ = .notStarted) :
    s.reply σ = .notStarted := by
  by_cases own : ∃ a, action = .reply σ a
  · obtain ⟨a, rfl⟩ := own
    cases move with
    | reply move =>
      cases move with
      | testRunning pc | testMarked pc | recvFailed pc | sent pc =>
        simp only [State.gotoReply, State.log, Function.update_self] at absent
        split at absent <;> cases absent
      | _ pc => simp at absent
  · rcases move.others fun a same => own ⟨a, same⟩ with same | ⟨-, started⟩ | ⟨-, joined⟩
    · exact same.symm.trans absent
    · simp [started] at absent
    · simp [joined] at absent

theorem Move.loops (move : Move p s action t) (indexed : Indexed p s) (threads : Threads s)
    (before : Loops s n) : Loops t (note s action n) where
  started σ made idle absent := by
    obtain ⟨prepared, fresh⟩ := move.preparing indexed (σ := σ)
    have absent' := move.notStarted absent
    by_cases old : σ < s.nextSession
    · by_cases preparing : s.udp.preparing = some σ
      · rcases prepared preparing with still | running
        · exact idle still
        · simp [running] at absent
      · exact before.started σ old preparing absent'
    · exact idle (fresh (Nat.le_of_not_lt old) made)
  joined := move.joined threads before.joined

end PortForwardX.Udp
