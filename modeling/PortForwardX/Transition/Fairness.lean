import PortForwardX.Transition.Machine
import Mathlib.Order.WellFounded

/-!
# Fair executions

An execution is a run seen for ever: at each moment it takes a step that meets a guard, or
nothing happens. Fairness asks for very little: the chosen steps, say those of a program's
own threads, are not passed over for ever while one of them is enabled. Which of them is
taken, and how often the others are, is left open.
-/
namespace Transition.Machine

universe u v w
variable {σ : Type u} {α : Type v} {m : Machine σ α} {ok : σ → α → Prop}

/-- A run with no end, which may rest for a while or for good. -/
structure Execution (m : Machine σ α) (ok : σ → α → Prop) where
  state : Nat → σ
  action : Nat → Option α
  init : m.Init (state 0)
  moves : ∀ i, (action i = none ∧ state (i + 1) = state i) ∨
    ∃ a, action i = some a ∧ ok (state i) a ∧ m.step (state i) a = some (state (i + 1))

namespace Execution

/-- Again and again a chosen step is taken, or none is enabled. -/
def Fair (own : σ → α → Prop) (e : m.Execution ok) : Prop :=
  ∀ i, ∃ j, i ≤ j ∧ ((∃ a, e.action j = some a ∧ own (e.state j) a) ∨
    ∀ a, own (e.state j) a → m.step (e.state j) a = none)

/-- The states of an execution whose steps have met a guard so far. -/
theorem reach_of_meets {ok' : σ → α → Prop} (e : m.Execution ok) (i : Nat)
    (meets : ∀ k < i, ∀ a, e.action k = some a → ok' (e.state k) a) : m.Reach ok' (e.state i) := by
  induction i with
  | zero => exact .start e.init
  | succ i ih =>
    have before := ih fun k earlier => meets k (Nat.lt_succ_of_lt earlier)
    rcases e.moves i with ⟨-, same⟩ | ⟨a, acted, -, moved⟩
    · exact same ▸ before
    · exact .next before (meets i (Nat.lt_succ_self i) a acted) moved

theorem reach (e : m.Execution ok) (i : Nat) : m.Reach ok (e.state i) := by
  refine e.reach_of_meets i fun k _ a acted => ?_
  rcases e.moves k with ⟨rested, -⟩ | ⟨b, acted', admitted, -⟩
  · rw [acted] at rested
    cases rested
  · obtain rfl : a = b := Option.some.inj (acted.symm.trans acted')
    exact admitted

/-- A state is reached under a guard unless some earlier step does not meet it. -/
theorem violated_or_reach (e : m.Execution ok) (ok' : σ → α → Prop) (i : Nat) :
    (∃ k < i, ∃ a, e.action k = some a ∧ ¬ok' (e.state k) a) ∨ m.Reach ok' (e.state i) := by
  by_cases meets : ∀ k < i, ∀ a, e.action k = some a → ok' (e.state k) a
  · exact .inr (e.reach_of_meets i meets)
  · push Not at meets
    exact .inl meets

/-- What every step keeps holds from the first moment it holds. -/
theorem stable {P : σ → Prop} (keeps : ∀ s t a, m.Reach ok s → m.step s a = some t → P s → P t)
    (e : m.Execution ok) {i j : Nat} (later : i ≤ j) (now : P (e.state i)) : P (e.state j) := by
  induction later with
  | refl => exact now
  | @step k _ ih =>
    rcases e.moves k with ⟨-, same⟩ | ⟨a, -, -, moved⟩
    · exact same ▸ ih
    · exact keeps _ _ a (e.reach k) moved ih

/-- As long as nothing else happens to a state in which a chosen step is enabled, a fair
execution takes such a step in that state. -/
theorem taken {P Q : σ → Prop} {own : σ → α → Prop} (e : m.Execution ok) (fair : e.Fair own)
    (keeps : ∀ s t a, m.Reach ok s → P s → ok s a → m.step s a = some t → own s a ∨ P t ∨ Q t)
    (enabled : ∀ s, m.Reach ok s → P s → ∃ a, own s a ∧ m.step s a ≠ none) {i : Nat}
    (base : P (e.state i)) : ∃ j, i ≤ j ∧
      (Q (e.state j) ∨ (P (e.state j) ∧ ∃ a, e.action j = some a ∧ own (e.state j) a)) := by
  obtain ⟨j, later, here⟩ := fair i
  -- it has happened before that moment, or the state is still such
  have waits : (∃ k, i ≤ k ∧ (Q (e.state k) ∨
      (P (e.state k) ∧ ∃ a, e.action k = some a ∧ own (e.state k) a))) ∨ P (e.state j) := by
    clear here
    induction later with
    | refl => exact .inr base
    | @step k later ih =>
      rcases ih with earlier | now
      · exact .inl earlier
      · rcases e.moves k with ⟨-, same⟩ | ⟨a, acted, admitted, moved⟩
        · exact .inr (same ▸ now)
        · rcases keeps _ _ a (e.reach k) now admitted moved with chosen | still | out
          · exact .inl ⟨k, later, .inr ⟨now, a, acted, chosen⟩⟩
          · exact .inr still
          · exact .inl ⟨k + 1, Nat.le_succ_of_le later, .inl out⟩
  rcases waits with earlier | now
  · exact earlier
  · rcases here with chosen | stuck
    · exact ⟨j, later, .inr ⟨now, chosen⟩⟩
    · obtain ⟨a, chosen, possible⟩ := enabled _ (e.reach j) now
      exact absurd (stuck a chosen) possible

section progress

variable {β : Type w} [Preorder β] (inside goal : σ → Prop) {own : σ → α → Prop} (rank : σ → β)

/-- Short of the goal an execution stays inside, and its rank does not rise. -/
theorem held (e : m.Execution ok)
    (spends : ∀ s t a, m.Reach ok s → inside s → ok s a → m.step s a = some t →
      goal t ∨ (inside t ∧ rank t ≤ rank s ∧ (own s a → rank t < rank s)))
    {i : Nat} (base : inside (e.state i)) (j : Nat) (later : i ≤ j) :
    (∃ k, i ≤ k ∧ goal (e.state k)) ∨
      (inside (e.state j) ∧ rank (e.state j) ≤ rank (e.state i)) := by
  induction j, later using Nat.le_induction with
  | base => exact .inr ⟨base, le_refl _⟩
  | succ j later ih =>
    rcases ih with reached | ⟨within, bound⟩
    · exact .inl reached
    · rcases e.moves j with ⟨-, same⟩ | ⟨a, -, admitted, moved⟩
      · exact .inr (same ▸ ⟨within, bound⟩)
      · rcases spends _ _ a (e.reach j) within admitted moved with done | ⟨within', lower, -⟩
        · exact .inl ⟨j + 1, Nat.le_succ_of_le later, done⟩
        · exact .inr ⟨within', le_trans lower bound⟩

/-- Ranking rule: while the goal is ahead a chosen step is enabled or the state is stuck. Each
chosen step lowers a well-founded rank, as does a step by which a stuck state comes free, and no
other step raises it. Then a fair execution gets to the goal, unless it is stuck for good. -/
theorem eventually_or_stuck [WellFoundedLT β] (stuck : σ → Prop) (e : m.Execution ok)
    (fair : e.Fair own)
    (spends : ∀ s t a, m.Reach ok s → inside s → ok s a → m.step s a = some t →
      goal t ∨ (inside t ∧ rank t ≤ rank s ∧ (own s a → rank t < rank s)))
    (frees : ∀ s t a, m.Reach ok s → inside s → ok s a → m.step s a = some t → stuck s →
      goal t ∨ stuck t ∨ rank t < rank s)
    (enabled : ∀ s, m.Reach ok s → inside s → stuck s ∨ ∃ a, own s a ∧ m.step s a ≠ none)
    {i : Nat} (base : inside (e.state i)) :
    ∃ j, i ≤ j ∧ (goal (e.state j) ∨ ∀ k, j ≤ k → stuck (e.state k)) := by
  by_contra never
  have ahead (j : Nat) (later : i ≤ j) : ¬goal (e.state j) := fun done =>
    never ⟨j, later, .inl done⟩
  have within (j k : Nat) (first : i ≤ j) (later : j ≤ k) :
      inside (e.state k) ∧ rank (e.state k) ≤ rank (e.state j) := by
    have here : inside (e.state j) :=
      ((e.held inside goal rank spends base j first).resolve_left
        fun ⟨l, after, done⟩ => ahead l after done).1
    exact (e.held inside goal rank spends here k later).resolve_left
      fun ⟨l, after, done⟩ => ahead l (first.trans after) done
  -- the rank stays as it is from where it is least
  obtain ⟨-, ⟨j, later, rfl⟩, least⟩ := wellFounded_lt.has_min
    {r | ∃ j, i ≤ j ∧ rank (e.state j) = r} ⟨_, i, Nat.le_refl i, rfl⟩
  have flat (k : Nat) (after : j ≤ k) : ¬rank (e.state (k + 1)) < rank (e.state k) := fun lower =>
    least _ ⟨k + 1, by omega, rfl⟩ (lt_of_lt_of_le lower (within j k later after).2)
  have stays (k : Nat) (after : j ≤ k) (held : stuck (e.state k)) : stuck (e.state (k + 1)) := by
    rcases e.moves k with ⟨-, same⟩ | ⟨a, -, admitted, moved⟩
    · rwa [same]
    · have here := (within j k later after).1
      rcases frees _ _ a (e.reach k) here admitted moved held with done | still | lower
      · exact absurd done (ahead (k + 1) (by omega))
      · exact still
      · exact absurd lower (flat k after)
  have loose (k : Nat) (after : j ≤ k) : ¬stuck (e.state k) := fun held =>
    never ⟨k, later.trans after, .inr fun l beyond => by
      induction l, beyond using Nat.le_induction with
      | base => exact held
      | succ l beyond ih => exact stays l (after.trans beyond) ih⟩
  obtain ⟨k, after, taken⟩ := fair j
  have here := (within j k later after).1
  rcases taken with ⟨a, acted, chosen⟩ | idle
  · rcases e.moves k with ⟨rested, -⟩ | ⟨b, acted', admitted, moved⟩
    · rw [acted] at rested
      cases rested
    · obtain rfl : a = b := Option.some.inj (acted.symm.trans acted')
      rcases spends _ _ a (e.reach k) here admitted moved with done | ⟨-, -, lower⟩
      · exact ahead (k + 1) (by omega) done
      · exact flat k after (lower chosen)
  · obtain ⟨a, chosen, possible⟩ := (enabled _ (e.reach k) here).resolve_left (loose k after)
    exact possible (idle a chosen)

/-- Ranking rule: while the goal is ahead a chosen step is enabled, each of them lowers a
well-founded rank and no other step raises it. Then a fair execution gets there. -/
theorem eventually [WellFoundedLT β] (e : m.Execution ok) (fair : e.Fair own)
    (spends : ∀ s t a, m.Reach ok s → inside s → ok s a → m.step s a = some t →
      goal t ∨ (inside t ∧ rank t ≤ rank s ∧ (own s a → rank t < rank s)))
    (enabled : ∀ s, m.Reach ok s → inside s → ∃ a, own s a ∧ m.step s a ≠ none)
    {i : Nat} (base : inside (e.state i)) : ∃ j, i ≤ j ∧ goal (e.state j) := by
  obtain ⟨j, later, done | stuck⟩ := e.eventually_or_stuck inside goal rank (fun _ => False) fair
    spends (fun _ _ _ _ _ _ _ => False.elim) (fun s reached here => .inr (enabled s reached here))
    base
  · exact ⟨j, later, done⟩
  · exact (stuck j (Nat.le_refl j)).elim

end progress

/-! ### Finite runs -/

/-- The states along a list of actions, and the last of them for ever. -/
def follow (m : Machine σ α) (s : σ) (as : List α) : Nat → σ
  | 0 => s
  | i + 1 =>
    let t := follow m s as i
    (as[i]?.bind (m.step t)).getD t

theorem follow_take {s t : σ} {as : List α} (result : m.run s as = some t) {i : Nat}
    (within : i ≤ as.length) : m.run s (as.take i) = some (follow m s as i) := by
  induction i with
  | zero => rfl
  | succ i ih =>
    have before := ih (Nat.le_of_succ_le within)
    have split : as = as.take i ++ as[i] :: as.drop (i + 1) := by simp
    rw [split] at result
    obtain ⟨u, first, later⟩ := run_of_append result
    obtain rfl : u = follow m s as i := Option.some.inj (first.symm.trans before)
    obtain ⟨v, step, -⟩ := Option.bind_eq_some_iff.mp later
    have here : as[i]? = some as[i] := List.getElem?_eq_getElem within
    rw [List.take_add_one, here, Option.toList_some, run_snoc before step]
    simp [follow, here, step]

theorem follow_rest {s t : σ} {as : List α} (result : m.run s as = some t) {i : Nat}
    (beyond : as.length ≤ i) : follow m s as i = t := by
  induction i, beyond using Nat.le_induction with
  | base =>
    have whole := follow_take result (Nat.le_refl as.length)
    rw [List.take_length, result] at whole
    exact (Option.some.inj whole).symm
  | succ i beyond ih => simp [follow, ih, List.getElem?_eq_none beyond]

section ofRun

variable [∀ s a, Decidable (ok s a)] {s t : σ} {as : List α} (init : m.Init s)
  (result : m.runIf ok s as = some t)

/-- A finite run as an execution that comes to rest. -/
def ofRun : m.Execution ok where
  state := follow m s as
  action i := as[i]?
  init := init
  moves i := by
    obtain ⟨along, run⟩ := along_of_runIf result
    by_cases within : i < as.length
    · have here : as[i]? = some as[i] := List.getElem?_eq_getElem within
      have before := follow_take run (Nat.le_of_lt within)
      have after := follow_take run within
      rw [List.take_add_one, here, Option.toList_some, run_append, before,
        Option.bind_some] at after
      obtain ⟨u, step, last⟩ := Option.bind_eq_some_iff.mp after
      obtain rfl : u = follow m s as (i + 1) := Option.some.inj last
      have split : as = as.take i ++ as[i] :: as.drop (i + 1) := by simp
      rw [split] at along
      exact .inr ⟨as[i], here, ((along.after before) _ step).1, step⟩
    · have none_ : as[i]? = none := List.getElem?_eq_none (Nat.le_of_not_lt within)
      exact .inl ⟨none_, by simp [follow, none_]⟩

/-- It is fair if none of the chosen steps is enabled where it comes to rest. -/
theorem fair_ofRun {own : σ → α → Prop} (quiet : ∀ a, own t a → m.step t a = none) :
    (ofRun init result).Fair own := by
  intro i
  refine ⟨max i as.length, by omega, .inr fun a chosen => ?_⟩
  change own (follow m s as _) a at chosen
  change m.step (follow m s as _) a = none
  rw [follow_rest (along_of_runIf result).2 (Nat.le_max_right _ _)] at chosen ⊢
  exact quiet a chosen

theorem ofRun_take {i : Nat} (within : i ≤ as.length) :
    m.run s (as.take i) = some ((ofRun init result).state i) :=
  follow_take (along_of_runIf result).2 within

end ofRun

end Execution

instance decidableAnyStep (s : σ) (a : α) : Decidable (anyStep s a) := .isTrue trivial

end Transition.Machine
