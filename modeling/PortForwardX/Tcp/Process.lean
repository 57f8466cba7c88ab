import PortForwardX.Tcp.Control
import PortForwardX.Platform.Socket

/-!
# Many sessions in one process

Sessions share nothing but the process. A failed `Send` concerns one session only,
as long as it does not end the process for all of them.
-/
namespace PortForwardX.Tcp

open Transition

/-- The sessions of the process by number. -/
structure Process where
  running : Bool := true
  sessions : Nat → Option State := fun _ => none

namespace Process

inductive Action where
  | start (i : Nat)
  | session (i : Nat) (a : Tcp.Action)

/-- The step is a `Send` on a socket whose connection has been reset or whose write
side has been shut down. -/
def sendsOnBroken (s : State) : Tcp.Action → Bool
  | .relay d _ =>
    match (s.relay d).pc with
    | .send _ _ => (s.socket d.other).broken
    | _ => false
  | _ => false

/-- Once the worker is done both relays have returned. -/
theorem sendsOnBroken_done {s : State} {a : Tcp.Action} (control : Control s)
    (done : s.worker = .done) : sendsOnBroken s a = false := by
  cases a with
  | relay d result =>
    have ended := control.joined d (by rw [done]; rfl)
    cases pc : (s.relay d).pc <;> simp_all [sendsOnBroken, RelayPc.hasEnded]
  | _ => rfl

def step (platform : Platform) (p : Process) : Action → Option Process
  | .start i =>
    if p.running = true ∧ p.sessions i = none then
      some { p with sessions := Function.update p.sessions i (some initial) }
    else none
  | .session i a =>
    match p.sessions i with
    | none => none
    | some s =>
      if p.running then
        (Tcp.step s a).map fun t =>
          { running := !(brokenSendKills platform && sendsOnBroken s a)
            sessions := Function.update p.sessions i (some t) }
      else none

def initial : Process := {}

def machine (platform : Platform) : Machine Process Action :=
  ⟨fun p => p = initial, step platform⟩

/-- The action is a `Send` on a broken socket of one of the sessions. -/
def BrokenSend (p : Process) : Action → Bool
  | .start _ => false
  | .session i a => (p.sessions i).any (sendsOnBroken · a)

/-- What an action says a relay's call returned. -/
def Action.result : Action → Option Int
  | .session _ (.relay _ result) => some result
  | _ => none

/-- A `Send` on a broken socket fails. -/
abbrev Refused (p : Process) (a : Action) : Prop :=
  BrokenSend p a = true → ∀ result ∈ a.result, result ≤ 0

/-- A `Send` on a broken socket, if the step is one, makes `SendAll` return false,
which ends its relay; the process keeps running and no other session changes. -/
def Contained (p : Process) (a : Action) (q : Process) : Prop :=
  BrokenSend p a → q.running = true ∧
    ∃ i d result t u v, a = .session i (.relay d result) ∧ q.sessions i = some t ∧
      (t.relay d).pc = .afterSendError ∧ Tcp.step t (.relay d 0) = some u ∧
      Tcp.step u (.relay d 0) = some v ∧ (v.relay d).pc = .ended .sendFailed ∧
      ∀ j, j ≠ i → q.sessions j = p.sessions j

theorem step_session {platform : Platform} {p q : Process} {i : Nat} {a : Tcp.Action}
    (moved : step platform p (.session i a) = some q) :
    ∃ s t, p.sessions i = some s ∧ p.running = true ∧ Tcp.step s a = some t ∧
      q = { running := !(brokenSendKills platform && sendsOnBroken s a)
            sessions := Function.update p.sessions i (some t) } := by
  simp only [step] at moved
  split at moved
  · cases moved
  next s present =>
    split at moved
    next running =>
      obtain ⟨t, inner, rfl⟩ := Option.map_eq_some_iff.mp moved
      exact ⟨s, t, present, running, inner, rfl⟩
    · cases moved

/-- A step leaves the process running unless it is a broken `Send` on a platform
where that kills. -/
theorem step_running {platform : Platform} {p q : Process} {a : Action}
    (moved : step platform p a = some q) :
    p.running = true ∧ (q.running = true ↔ platform = .windows ∨ ¬BrokenSend p a) := by
  cases a with
  | start i =>
    simp only [step, Option.ite_none_right_eq_some, Option.some.injEq] at moved
    obtain ⟨⟨running, _⟩, rfl⟩ := moved
    simp [running, BrokenSend]
  | session i a =>
    obtain ⟨s, t, present, running, _, rfl⟩ := step_session moved
    refine ⟨running, ?_⟩
    have kills := brokenSendKills_iff platform
    cases platform <;> simp_all [BrokenSend]

/-- A refused `Send` takes its relay to the exit of `SendAll`, from where it shuts both
sockets down and ends. -/
theorem refused_send {s t : State} {d : Side} {result : Int}
    (broken : sendsOnBroken s (.relay d result)) (refused : result ≤ 0)
    (moved : Tcp.step s (.relay d result) = some t) :
    (t.relay d).pc = .afterSendError ∧ ∃ u v, Tcp.step t (.relay d 0) = some u ∧
      Tcp.step u (.relay d 0) = some v ∧ (v.relay d).pc = .ended .sendFailed := by
  cases relayStep_move moved
  case sendError size sent pc _ =>
    refine ⟨by simp, _, _, by simp [Tcp.step, relayStep]; rfl,
      by simp [Tcp.step, relayStep]; rfl, ?_⟩
    simp
  all_goals simp_all [sendsOnBroken]

theorem contained_iff {platform : Platform} {p q : Process} {a : Action} (refused : Refused p a)
    (moved : step platform p a = some q) :
    Contained p a q ↔ platform = .windows ∨ ¬BrokenSend p a := by
  have running := (step_running moved).2
  constructor
  · intro contained
    by_cases broken : BrokenSend p a
    · exact running.mp (contained broken).1
    · exact .inr broken
  · intro safe broken
    refine ⟨running.mpr safe, ?_⟩
    cases a with
    | start i => simp [BrokenSend] at broken
    | session i a =>
      obtain ⟨s, t, present, _, inner, rfl⟩ := step_session moved
      have sends : sendsOnBroken s a = true := by
        simpa [BrokenSend, present] using broken
      cases a with
      | relay d result =>
        obtain ⟨exits, u, v, first, second, ended⟩ :=
          refused_send sends (refused broken result rfl) inner
        exact ⟨i, d, result, t, u, v, rfl, by simp, exits, first, second, ended,
          fun j other => by simp [other]⟩
      | _ => simp [sendsOnBroken] at sends

/-- The run never calls `Send` on a broken socket. -/
def NoBrokenSend (platform : Platform) (p : Process) (as : List Action) : Prop :=
  (machine platform).Along (fun p a _ => ¬BrokenSend p a) p as

theorem running_iff {platform : Platform} {p q : Process} {as : List Action}
    (running : p.running = true) (result : (machine platform).run p as = some q) :
    q.running = true ↔ platform = .windows ∨ NoBrokenSend platform p as := by
  induction as generalizing p with
  | nil =>
    cases result
    simp [running, NoBrokenSend, Machine.Along]
  | cons a rest ih =>
    obtain ⟨middle, moved, later⟩ := Option.bind_eq_some_iff.mp result
    have first := (step_running moved).2
    have unfolded : NoBrokenSend platform p (a :: rest) ↔
        ¬BrokenSend p a ∧ NoBrokenSend platform middle rest := by
      constructor
      · intro along
        exact along middle moved
      · rintro here t moved'
        rw [moved] at moved'
        cases moved'
        exact here
    rw [unfolded]
    by_cases alive : middle.running = true
    · rw [ih alive later]
      have := first.mp alive
      tauto
    · -- A process that has been killed takes no further step.
      have stuck : rest = [] := by
        cases rest with
        | nil => rfl
        | cons b more =>
          obtain ⟨_, next, _⟩ := Option.bind_eq_some_iff.mp later
          exact absurd (step_running next).1 alive
      subst stuck
      cases later
      rw [first]
      simp [NoBrokenSend, Machine.Along]

/-- Exactly when the failure of a `Send` stays inside its session. Of the runs in
which a `Send` on a broken socket is refused, those with every such `Send` contained
are those on Windows and those in which no such `Send` occurs; and these are the runs
at the end of which the process is still there. -/
theorem sends_contained_iff (platform : Platform) {as : List Action} {q : Process}
    (refused : (machine platform).Along (fun p a _ => Refused p a) initial as)
    (result : (machine platform).run initial as = some q) :
    ((machine platform).Along Contained initial as ↔
      platform = .windows ∨ NoBrokenSend platform initial as) ∧
    (q.running = true ↔ platform = .windows ∨ NoBrokenSend platform initial as) := by
  refine ⟨?_, running_iff rfl result⟩
  constructor
  · intro contained
    cases platform with
    | windows => exact .inl rfl
    | posix =>
      refine .inr ((refused.and contained).imp fun p a q moved here => ?_)
      simpa using (contained_iff here.1 moved).mp here.2
  · rintro (windows | unbroken)
    · exact refused.imp fun p a q moved ok => (contained_iff ok moved).mpr (.inl windows)
    · exact (refused.and unbroken).imp fun p a q moved here =>
        (contained_iff here.1 moved).mpr (.inr here.2)

/-- Two sessions; the peer of the first resets its upstream connection while a byte
is on its way there. The `Recv` of the other relay takes the error, so that the `Send`
after it finds the connection gone. -/
def resetWhileSending : List Action :=
  [.start 0, .start 1, .session 0 .worker, .session 0 .worker, .session 0 (.arrive .client [7]),
    .session 0 (.relay .client 1), .session 0 (.relay .upstream (-1)),
    .session 0 (.peerReset .upstream), .session 0 (.relay .client (-1))]

/-- The failed `Send` of the first session ends the process and with it the second. -/
theorem reset_ends_process :
    ∃ q, (machine .posix).run initial resetWhileSending = some q ∧ q.running = false ∧
      (machine .posix).Along (fun p a _ => Refused p a) initial resetWhileSending ∧
      ¬(machine .posix).Along Contained initial resetWhileSending := by
  have ends : ((machine .posix).runIf Refused initial resetWhileSending).map (·.running) =
      some false := by
    decide +kernel
  obtain ⟨q, run, ends⟩ := Option.map_eq_some_iff.mp ends
  obtain ⟨refused, run⟩ := Machine.along_of_runIf run
  refine ⟨q, run, ends, refused, fun contained => ?_⟩
  have unbroken : NoBrokenSend .posix initial resetWhileSending :=
    (refused.and contained).imp fun p a q moved here => by
      simpa using (contained_iff here.1 moved).mp here.2
  have alive := (running_iff rfl run).mpr (.inr unbroken)
  simp [ends] at alive

/-- Without the reset the byte gets through and both sessions stay. -/
theorem sends_contained_iff_orderly :
    ∃ q, (machine .posix).run initial
        (resetWhileSending.take 6 ++ [.session 0 (.relay .client 1)]) = some q ∧
      ((machine .posix).Along Contained initial
        (resetWhileSending.take 6 ++ [.session 0 (.relay .client 1)]) ↔ q.running = true) := by
  have stays : ((machine .posix).runIf Refused initial
      (resetWhileSending.take 6 ++ [.session 0 (.relay .client 1)])).map (·.running) =
      some true := by
    decide +kernel
  obtain ⟨q, run, stays⟩ := Option.map_eq_some_iff.mp stays
  obtain ⟨refused, run⟩ := Machine.along_of_runIf run
  obtain ⟨contained, running⟩ := sends_contained_iff .posix refused run
  exact ⟨q, run, contained.trans running.symm⟩

end Process
end PortForwardX.Tcp
