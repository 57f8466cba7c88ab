import PortForwardX.Transition.Machine

/-!
# Bounded pipes

What one direction of a stream relay is for: bytes go in at one end and come out
at the other unchanged and in order, at most `capacity` of them are under way,
and the far end is closed only once everything has come out. The bounds are
fields, so a pipe that has lost a byte or was closed too early cannot be built.
-/
namespace Conduit

open Transition

universe u

/-- A first-in first-out pipe that holds at most `capacity` elements. -/
structure Pipe (β : Type u) (capacity : Nat) where
  accepted : List β
  pending : List β
  closed : Bool
  fits : pending.length ≤ capacity
  drained : closed = true → pending = []

namespace Pipe

/-- What a relay does at the two ends of its pipe. -/
inductive Event (β : Type u) where
  | take (chunk : List β)
  | accept (chunk : List β)
  | close

variable {β : Type u} {capacity : Nat}

def empty : Pipe β capacity := ⟨[], [], false, Nat.zero_le _, fun _ => rfl⟩

/-- Everything that went in. -/
def taken (p : Pipe β capacity) : List β := p.accepted ++ p.pending

variable [DecidableEq β]

/-- A closed pipe accepts no further event. -/
def step (p : Pipe β capacity) : Event β → Option (Pipe β capacity)
  | .take chunk =>
    if h : p.closed = false ∧ (p.pending ++ chunk).length ≤ capacity then
      some ⟨p.accepted, p.pending ++ chunk, false, h.2, nofun⟩
    else none
  | .accept chunk =>
    if p.closed = false ∧ chunk <+: p.pending then
      some ⟨p.accepted ++ chunk, p.pending.drop chunk.length, false,
        by rw [List.length_drop]; have := p.fits; omega, nofun⟩
    else none
  | .close =>
    if h : p.closed = false ∧ p.pending = [] then
      some ⟨p.accepted, p.pending, true, p.fits, fun _ => h.2⟩
    else none

def machine : Machine (Pipe β capacity) (Event β) := ⟨fun p => p = empty, step⟩

omit [DecidableEq β]

/-- The bytes that entered, as the history tells it. -/
def takenBy (history : List (Event β)) : List β :=
  history.flatMap fun
    | .take chunk => chunk
    | _ => []

/-- The bytes that left, as the history tells it. -/
def acceptedBy (history : List (Event β)) : List β :=
  history.flatMap fun
    | .accept chunk => chunk
    | _ => []

@[simp] theorem takenBy_append (before after : List (Event β)) :
    takenBy (before ++ after) = takenBy before ++ takenBy after :=
  List.flatMap_append

@[simp] theorem acceptedBy_append (before after : List (Event β)) :
    acceptedBy (before ++ after) = acceptedBy before ++ acceptedBy after :=
  List.flatMap_append

variable [DecidableEq β]

theorem step_contents {p q : Pipe β capacity} {e : Event β} (moved : p.step e = some q) :
    q.taken = p.taken ++ takenBy [e] ∧ q.accepted = p.accepted ++ acceptedBy [e] := by
  cases e with
  | take chunk =>
    simp only [step, Option.dite_none_right_eq_some, Option.some.injEq] at moved
    obtain ⟨_, rfl⟩ := moved
    simp [taken, takenBy, acceptedBy]
  | accept chunk =>
    simp only [step, Option.ite_none_right_eq_some, Option.some.injEq] at moved
    obtain ⟨⟨_, first⟩, rfl⟩ := moved
    have whole : chunk ++ p.pending.drop chunk.length = p.pending := by
      obtain ⟨rest, eq⟩ := first
      simp [← eq]
    simp [taken, takenBy, acceptedBy, whole]
  | close =>
    simp only [step, Option.dite_none_right_eq_some, Option.some.injEq] at moved
    obtain ⟨_, rfl⟩ := moved
    simp [taken, takenBy, acceptedBy]

/-- An open pipe takes any chunk that fits. -/
theorem step_take {p : Pipe β capacity} (chunk : List β) (opened : p.closed = false)
    (room : (p.pending ++ chunk).length ≤ capacity) :
    ∃ q, p.step (.take chunk) = some q ∧ q.closed = false ∧ q.pending = p.pending ++ chunk ∧
      q.taken = p.taken ++ chunk := by
  refine ⟨⟨p.accepted, p.pending ++ chunk, false, room, nofun⟩, ?_, rfl, rfl, ?_⟩
  · simp only [step, opened, room, and_self, dite_true]
  · simp [taken]

/-- An open pipe gives out any beginning of what it holds. -/
theorem step_accept {p : Pipe β capacity} (chunk : List β) (opened : p.closed = false)
    (first : chunk <+: p.pending) :
    ∃ q, p.step (.accept chunk) = some q ∧ q.closed = false ∧
      q.pending = p.pending.drop chunk.length ∧ q.taken = p.taken := by
  have moved : ∃ q, p.step (.accept chunk) = some q := by
    simp [step, opened, first]
  obtain ⟨q, moved⟩ := moved
  have contents := (step_contents moved).1
  simp only [step, opened, first, and_self, if_true, Option.some.injEq] at moved
  refine ⟨q, by simp [step, opened, first, moved], by rw [← moved], by rw [← moved], ?_⟩
  simpa [takenBy] using contents

/-- An open pipe that holds nothing can be closed. -/
theorem step_close {p : Pipe β capacity} (opened : p.closed = false) (dry : p.pending = []) :
    ∃ q, p.step .close = some q ∧ q.closed = true ∧ q.taken = p.taken := by
  refine ⟨⟨p.accepted, p.pending, true, p.fits, fun _ => dry⟩, ?_, rfl, rfl⟩
  simp only [step, opened, dry, and_self, dite_true]

/-- A pipe's contents are what its history says. -/
theorem run_contents {p q : Pipe β capacity} {history : List (Event β)}
    (replayed : machine.run p history = some q) :
    q.taken = p.taken ++ takenBy history ∧ q.accepted = p.accepted ++ acceptedBy history := by
  induction history generalizing p with
  | nil =>
    cases replayed
    simp [takenBy, acceptedBy]
  | cons e rest ih =>
    obtain ⟨middle, moved, later⟩ := Option.bind_eq_some_iff.mp replayed
    obtain ⟨taken_first, accepted_first⟩ := step_contents moved
    obtain ⟨taken_rest, accepted_rest⟩ := ih later
    constructor
    · rw [taken_rest, taken_first]
      simp [takenBy]
    · rw [accepted_rest, accepted_first]
      simp [acceptedBy]

theorem run_empty {q : Pipe β capacity} {history : List (Event β)}
    (replayed : machine.run empty history = some q) :
    takenBy history = q.accepted ++ q.pending ∧ acceptedBy history = q.accepted := by
  obtain ⟨all, out⟩ := run_contents replayed
  simp only [taken, empty, List.append_nil, List.nil_append] at all out
  exact ⟨all.symm, out.symm⟩

/-- Output is the beginning of the input, behind it by at most the capacity. -/
theorem accepted_follows {q : Pipe β capacity} {history : List (Event β)}
    (replayed : machine.run empty history = some q) :
    acceptedBy history <+: takenBy history ∧
      (takenBy history).length ≤ (acceptedBy history).length + capacity := by
  obtain ⟨all, out⟩ := run_empty replayed
  rw [all, out]
  refine ⟨List.prefix_append _ _, ?_⟩
  have := q.fits
  simp only [List.length_append]
  omega

theorem run_closed {p q : Pipe β capacity} {history : List (Event β)} (shut : p.closed = true)
    (replayed : machine.run p history = some q) : history = [] := by
  cases history with
  | nil => rfl
  | cons e rest =>
    obtain ⟨middle, moved, _⟩ := Option.bind_eq_some_iff.mp replayed
    cases e <;> simp [machine, step, shut] at moved

/-- The closing event is the last one and finds the pipe drained. -/
theorem close_last {q : Pipe β capacity} {before after : List (Event β)}
    (replayed : machine.run empty (before ++ .close :: after) = some q) :
    after = [] ∧ acceptedBy before = takenBy before := by
  obtain ⟨p, first, later⟩ := Machine.run_of_append replayed
  obtain ⟨shut, moved, rest⟩ := Option.bind_eq_some_iff.mp later
  simp only [machine, step, Option.dite_none_right_eq_some, Option.some.injEq] at moved
  obtain ⟨⟨_, dry⟩, rfl⟩ := moved
  refine ⟨run_closed rfl rest, ?_⟩
  obtain ⟨all, out⟩ := run_empty first
  rw [all, out, dry, List.append_nil]

end Pipe
end Conduit
