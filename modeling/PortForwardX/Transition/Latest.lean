import PortForwardX.Transition.Observed

/-!
# Values that only usable answers replace

A machine holds what a service answered last. Answers come in while it runs, and one that is
of no use leaves the value as it is. So the value is the latest usable answer, however many
answers after it were of no use.
-/
namespace Transition

universe u v w x
variable {σ : Type u} {α : Type v} {ω : Type w} {β : Type x} {usable : ω → Option β}
  {history : List ω} {answer : ω} {current new : β}

/-- `current` is the latest usable answer in a history. -/
def Latest (usable : ω → Option β) (history : List ω) (current : β) : Prop :=
  ∃ before answer after, history = before ++ answer :: after ∧ usable answer = some current ∧
    ∀ later ∈ after, usable later = none

theorem Latest.renew (use : usable answer = some new) : Latest usable (history ++ [answer]) new :=
  ⟨history, answer, [], rfl, use, by simp⟩

theorem Latest.keep (latest : Latest usable history current) (useless : usable answer = none) :
    Latest usable (history ++ [answer]) current := by
  obtain ⟨before, last, after, rfl, use, later⟩ := latest
  refine ⟨before, last, after ++ [answer], by simp, use, fun o member => ?_⟩
  rcases List.mem_append.mp member with old | here
  · exact later o old
  · rwa [List.mem_singleton.mp here]

namespace Machine

/-- A machine starts with a usable answer, and its value is replaced by usable answers and by
nothing else. -/
structure Refreshes (m : Machine σ α) (usable : ω → Option β) (value : σ → β)
    (answer : σ → α → Option ω) : Prop where
  start : ∀ s, m.Init s → ∃ first, usable first = some (value s)
  step : ∀ s a t, m.step s a = some t → value t = ((answer s a).bind usable).getD (value s)

/-- A machine with the answers it has had. -/
def answered (m : Machine σ α) (usable : ω → Option β) (value : σ → β)
    (answer : σ → α → Option ω) : Machine (σ × List ω) α :=
  m.observed (fun s history => ∃ first, history = [first] ∧ usable first = some (value s))
    fun s a history => history ++ (answer s a).toList

variable {m : Machine σ α} {value : σ → β} {answer : σ → α → Option ω}

/-- In every run the value is the latest usable answer. -/
theorem Refreshes.latest (refreshes : m.Refreshes usable value answer)
    {ok : σ × List ω → α → Prop} {x : σ × List ω}
    (reached : (m.answered usable value answer).Reach ok x) : Latest usable x.2 (value x.1) := by
  induction reached with
  | start init =>
    obtain ⟨first, only, use⟩ := init.2
    rw [only]
    exact @Latest.renew _ _ _ [] _ _ use
  | @next x y a _ _ moved ih =>
    obtain ⟨step, noted⟩ := observed_step.mp moved
    rw [noted, refreshes.step _ _ _ step]
    cases answer x.1 a with
    | none => simpa using ih
    | some o =>
      cases use : usable o with
      | none => simpa [use] using ih.keep use
      | some new => simpa [use] using Latest.renew use

/-- A step without a usable answer leaves the value as it is. -/
theorem Refreshes.kept (refreshes : m.Refreshes usable value answer) {s t : σ} {a : α}
    (moved : m.step s a = some t) (useless : ∀ o, answer s a = some o → usable o = none) :
    value t = value s := by
  rw [refreshes.step _ _ _ moved]
  cases answered : answer s a with
  | none => rfl
  | some o => rw [Option.bind_some, useless o answered, Option.getD_none]

/-- Every run has a history of answers. -/
theorem Refreshes.recorded (refreshes : m.Refreshes usable value answer) {ok : σ → α → Prop}
    {s : σ} (reached : m.Reach ok s) :
    ∃ history, (m.answered usable value answer).Reach (fun x a => ok x.1 a) (s, history) :=
  reached.observe fun s init => by
    obtain ⟨first, use⟩ := refreshes.start s init
    exact ⟨[first], first, rfl, use⟩

theorem Reach.unanswered {ok : σ × List ω → α → Prop} (ok' : σ → α → Prop) {x : σ × List ω}
    (weaker : ∀ x a, ok x a → ok' x.1 a)
    (reached : (m.answered usable value answer).Reach ok x) : m.Reach ok' x.1 :=
  Reach.unobserved ok' weaker reached

end Machine

end Transition
