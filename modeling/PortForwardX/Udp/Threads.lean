import PortForwardX.Udp.Table

/-!
# Threads and sessions

A session's reply loop starts once, when its session is in the table, and the cleanup of
`Stop` does not begin before the UDP thread has ended.
-/
namespace PortForwardX.Udp

open Transition

/-- The session `GetOrCreateUdpSession` is setting up and whose thread it has not started. -/
def UdpPc.preparing : UdpPc → Option SessionId
  | .initActive _ σ | .emplace _ σ | .startThread _ σ => some σ
  | _ => none

/-- `Stop` has joined the UDP thread. -/
def StopPc.udpJoined : StopPc → Bool
  | .joinResolver | .enterCleanup | .cleaning _ | .done => true
  | _ => false

/-- Where the reply loops are before they start, and who may clean up. -/
structure Threads (s : State) : Prop where
  unborn : ∀ σ, s.nextSession ≤ σ → s.reply σ = .notStarted
  prepared : ∀ σ, s.udp.preparing = some σ →
    σ < s.nextSession ∧ s.reply σ = .notStarted ∧ (s.heap σ).markedForClose = false
  exclusive : s.stop.udpJoined = true → s.udp = .exited

variable {p : Setup} {s t : State} {c c' : Cleanup} {a : Answer} {σ : SessionId}

theorem ReplyMove.startedLoop (move : ReplyMove p s σ a t) : s.reply σ ≠ .notStarted := by
  cases move <;> simp_all

theorem CleanMove.notStarted (move : CleanMove p s c t c') {τ : SessionId}
    (before : s.reply τ = .notStarted) : t.reply τ = .notStarted := by
  rcases move.frame.reply τ with same | ⟨ended, -⟩
  · exact same.trans before
  · simp [before] at ended

theorem threads_started (fd : Nat) (clock : UInt64) (endpoints : List Net.ResolvedEndpoint) :
    Threads (started fd clock endpoints) where
  unborn _ _ := rfl
  prepared := by simp [started, UdpPc.preparing]
  exclusive := by simp [started, StopPc.udpJoined]

/-- The rule for a step that prepares no session and starts no thread. -/
theorem Threads.idle (before : Threads s) (next : t.nextSession = s.nextSession)
    (reply : ∀ τ, s.reply τ = .notStarted → t.reply τ = .notStarted)
    (preparing : t.udp.preparing = none) (exclusive : t.stop.udpJoined = true → t.udp = .exited) :
    Threads t where
  unborn τ fresh := reply τ (before.unborn τ (next ▸ fresh))
  prepared := by simp [preparing]
  exclusive := exclusive

theorem UdpMove.alive (move : UdpMove p s a t) : s.udp ≠ .exited := by
  cases move <;> simp_all

/-- `Stop` has not joined a UDP thread that is still there. -/
theorem Threads.unjoined (threads : Threads s) (alive : s.udp ≠ .exited) :
    s.stop.udpJoined = false := by
  by_contra joined
  exact alive (threads.exclusive (by simpa using joined))

theorem UdpMove.threads (move : UdpMove p s a t) (before : Threads s) : Threads t := by
  have unjoined := before.unjoined move.alive
  cases move with
  | clean pc unfinished move =>
    refine before.idle move.quiet.nextSession (fun τ => move.notStarted) rfl ?_
    simp [move.frame.stop, unjoined]
  | socketMade pc free =>
    refine ⟨fun τ fresh => ?_, ?_, by simp [unjoined]⟩
    · exact before.unborn τ (Nat.le_of_succ_le fresh)
    · rintro _ ⟨⟩
      exact ⟨Nat.lt_succ_self _, before.unborn _ (Nat.le_refl _), by simp⟩
  | initActive pc =>
    refine ⟨before.unborn, ?_, by simp [unjoined]⟩
    rintro _ ⟨⟩
    simpa using before.prepared _ (by rw [pc]; rfl)
  | emplace pc absent =>
    refine ⟨before.unborn, ?_, by simp [unjoined]⟩
    rintro _ ⟨⟩
    exact before.prepared _ (by rw [pc]; rfl)
  | @startThread d σ pc =>
    -- the loop that starts belongs to a session made before
    have own := before.prepared σ (by simp [pc, UdpPc.preparing])
    refine ⟨fun τ fresh => ?_, by simp [UdpPc.preparing], by simp [unjoined]⟩
    have other : τ ≠ σ := fun same => Nat.not_lt.mpr fresh (same ▸ own.1)
    simpa [other] using before.unborn τ fresh
  | noThread pc => exact ⟨before.unborn, before.prepared, before.exclusive⟩
  | test | retest | cleaned =>
    refine before.idle rfl (fun _ => id) ?_ (by simp [unjoined])
    dsimp only [State.goto]
    split <;> rfl
  | _ => exact before.idle rfl (fun _ => id) rfl (by simp [unjoined])

theorem ReplyMove.allocated (move : ReplyMove p s σ a t) (threads : Threads s) :
    σ < s.nextSession := by
  by_contra fresh
  exact move.startedLoop (threads.unborn σ (Nat.le_of_not_lt fresh))

theorem ReplyMove.threads (move : ReplyMove p s σ a t) (before : Threads s) : Threads t where
  unborn τ fresh := by
    have same := before.unborn τ (move.quiet.nextSession ▸ fresh)
    have other : τ ≠ σ := fun equal => move.startedLoop (equal ▸ same)
    exact (move.frame.reply τ other).trans same
  prepared τ preparing := by
    -- a session in preparation has no loop that could move
    rw [move.quiet.udp] at preparing
    obtain ⟨allocated, absent, unmarked⟩ := before.prepared τ preparing
    have other : τ ≠ σ := fun equal => move.startedLoop (equal ▸ absent)
    rw [move.quiet.nextSession, move.frame.reply τ other, move.frame.heap τ other]
    exact ⟨allocated, absent, unmarked⟩
  exclusive joined := by
    rw [move.frame.stop] at joined
    rw [move.quiet.udp]
    exact before.exclusive joined

theorem StopMove.threads (move : StopMove p s a t) (before : Threads s) : Threads t := by
  cases move with
  | clean pc unfinished move =>
    have ended : s.udp = .exited := before.exclusive (by simp [pc, StopPc.udpJoined])
    refine before.idle move.quiet.nextSession (fun τ => move.notStarted) ?_ ?_ <;>
      simp [move.quiet.udp, ended, UdpPc.preparing]
  | joinUdp pc ended => exact ⟨before.unborn, before.prepared, fun _ => ended⟩
  | joinResolver pc | enterCleanup pc | cleaned pc =>
    exact ⟨before.unborn, before.prepared,
      fun _ => before.exclusive (by simp [pc, StopPc.udpJoined])⟩
  | _ => exact ⟨before.unborn, before.prepared, by simp [StopPc.udpJoined]⟩

theorem Move.threads {action : Action} (move : Move p s action t) (before : Threads s) :
    Threads t := by
  cases move with
  | udp move => exact move.threads before
  | reply move => exact move.threads before
  | stop move => exact move.threads before
  | callStop => exact ⟨before.unborn, before.prepared, by simp [StopPc.udpJoined]⟩
  | _ => exact ⟨before.unborn, before.prepared, before.exclusive⟩

theorem threads_reached {ok : State → Action → Prop} (reached : (forwarder p).Reach ok s) :
    Threads s := by
  induction reached with
  | start init =>
    obtain ⟨fd, clock, outcome, endpoints, -, rfl⟩ := init
    exact threads_started fd clock endpoints
  | next _ _ step ih => exact (step_move step).threads ih

/-! ### What other threads do to a reply loop -/

/-- They start it once its session is in the table, or join it once it has ended. -/
theorem Move.others {action : Action} (move : Move p s action t)
    (other : ∀ a, action ≠ .reply σ a) :
    t.reply σ = s.reply σ ∨ (s.udp.preparing = some σ ∧ t.reply σ = .testRunning) ∨
      (s.reply σ = .exited ∧ t.reply σ = .joined) := by
  cases move with
  | udp move =>
    cases move with
    | clean pc unfinished move => exact (move.frame.reply σ).imp_right .inr
    | @startThread d τ pc =>
      by_cases own : σ = τ
      · exact .inr (.inl (by simp [own, pc, UdpPc.preparing]))
      · exact .inl (by simp [own])
    | _ => exact .inl rfl
  | @reply τ a t move =>
    have different : σ ≠ τ := fun same => other a (same ▸ rfl)
    exact .inl (move.frame.reply σ different)
  | stop move =>
    cases move with
    | clean pc unfinished move => exact (move.frame.reply σ).imp_right .inr
    | _ => exact .inl rfl
  | _ => exact .inl rfl

/-! ### Leaving and marking are final -/

theorem ReplyMove.staysOut (move : ReplyMove p s σ a t) (left : (s.reply σ).left = true) :
    (t.reply σ).left = true := by
  cases move with
  | leaving => simp [ReplyPc.left]
  | _ pc => simp [pc, ReplyPc.left] at left

theorem Move.staysOut {action : Action} (move : Move p s action t) (threads : Threads s)
    (left : (s.reply σ).left = true) : (t.reply σ).left = true := by
  by_cases own : ∃ a, action = .reply σ a
  · obtain ⟨a, rfl⟩ := own
    cases move with
    | reply move => exact move.staysOut left
  · rcases move.others fun a same => own ⟨a, same⟩ with same | ⟨preparing, -⟩ | ⟨-, joined⟩
    · rwa [same]
    · simp [(threads.prepared σ preparing).2.1, ReplyPc.left] at left
    · simp [joined, ReplyPc.left]

/-- A flag that is set in one session stays set, whatever is assigned to a member of another. -/
theorem State.marked_mono {τ : SessionId} {u : UdpSession}
    (kept : (s.heap τ).markedForClose = true → u.markedForClose = true)
    (marked : (s.heap σ).markedForClose = true) :
    (Function.update s.heap τ u σ).markedForClose = true := by
  by_cases own : σ = τ
  · subst own
    simpa using kept marked
  · simpa [own] using marked

theorem Move.staysMarked {action : Action} (move : Move p s action t)
    (allocated : σ < s.nextSession) (marked : (s.heap σ).markedForClose = true) :
    (t.heap σ).markedForClose = true := by
  cases move with
  | udp move =>
    cases move with
    | clean pc unfinished move => exact move.frame.marked σ marked
    | socketMade => simpa [Nat.ne_of_lt allocated] using marked
    | initActive | storeActive | sentEmpty | sendFailed =>
      exact State.marked_mono (by simp) marked
    | _ => exact marked
  | reply move =>
    cases move with
    | storeActive | leaving => exact State.marked_mono (by simp) marked
    | _ => exact marked
  | stop move =>
    cases move with
    | clean pc unfinished move => exact move.frame.marked σ marked
    | _ => exact marked
  | _ => exact marked

end PortForwardX.Udp
