import Mathlib.Data.List.Basic

/-!
# Machines driven by actions

A machine is a partial step function. Its actions carry everything a state does
not determine: which thread moves next, what the environment sends and what each
call returns. Quantifying over runs therefore quantifies over all schedules and
all environments at once. A guard on steps restricts the runs under discussion;
the weaker the guard, the stronger a statement about every guarded run.
-/
namespace Transition

universe u v w
variable {σ : Type u} {α : Type v}

/-- A partial step function with a set of starting states. -/
structure Machine (σ : Type u) (α : Type v) where
  Init : σ → Prop
  step : σ → α → Option σ

namespace Machine

variable (m : Machine σ α)

/-- The guard that admits every step. -/
def anyStep : σ → α → Prop := fun _ _ => True

/-- States reached by runs all of whose steps meet the guard. -/
inductive Reach (ok : σ → α → Prop) : σ → Prop
  | start {s : σ} : m.Init s → Reach ok s
  | next {s t : σ} {a : α} : Reach ok s → ok s a → m.step s a = some t → Reach ok t

/-- The state a finite list of actions leads to, if every one of them is enabled. -/
def run : σ → List α → Option σ
  | s, [] => some s
  | s, a :: rest => (m.step s a).bind fun t => run t rest

/-- `run`, stopped by the first action that the guard does not admit. -/
def runIf (ok : σ → α → Prop) [∀ s a, Decidable (ok s a)] : σ → List α → Option σ
  | s, [] => some s
  | s, a :: rest => if ok s a then (m.step s a).bind fun t => runIf ok t rest else none

/-- Every step a list of actions takes from `s` satisfies `P`. -/
def Along (P : σ → α → σ → Prop) : σ → List α → Prop
  | _, [] => True
  | s, a :: rest => ∀ t, m.step s a = some t → P s a t ∧ Along P t rest

/-- States reached from `s` by steps each of which is taken inside. -/
inductive During (inside : σ → Prop) (s : σ) : σ → Prop
  | here : During inside s s
  | next {t u : σ} {a : α} : During inside s t → inside t → m.step t a = some u → During inside s u

variable {m} {ok ok' : σ → α → Prop}

/-- Invariant rule: a property of the starting states that every admitted step
preserves holds in every state reached. -/
theorem Reach.invariant {P : σ → Prop} (base : ∀ s, m.Init s → P s)
    (inductive_step : ∀ s t a, m.Reach ok s → P s → ok s a → m.step s a = some t → P t)
    {s : σ} (reached : m.Reach ok s) : P s := by
  induction reached with
  | start init => exact base _ init
  | next before admitted step ih => exact inductive_step _ _ _ before ih admitted step

/-- Weaker guards admit more runs. -/
theorem Reach.mono (weaker : ∀ s a, ok s a → ok' s a) {s : σ} (reached : m.Reach ok s) :
    m.Reach ok' s := by
  induction reached with
  | start init => exact .start init
  | next _ admitted step ih => exact .next ih (weaker _ _ admitted) step

@[simp] theorem run_nil (s : σ) : m.run s [] = some s := rfl

@[simp] theorem run_cons (s : σ) (a : α) (rest : List α) :
    m.run s (a :: rest) = (m.step s a).bind fun t => m.run t rest := rfl

theorem run_append (s : σ) (as bs : List α) :
    m.run s (as ++ bs) = (m.run s as).bind fun t => m.run t bs := by
  induction as generalizing s with
  | nil => rfl
  | cons a rest ih =>
    cases h : m.step s a with
    | none => simp [h]
    | some t => simp [h, ih]

/-- A run extended by one action. -/
theorem run_snoc {s t u : σ} {as : List α} {a : α} (before : m.run s as = some t)
    (step : m.step t a = some u) : m.run s (as ++ [a]) = some u := by
  simp [run_append, before, step]

/-- What a longer run did first is itself a run. -/
theorem run_of_append {s u : σ} {as bs : List α} (whole : m.run s (as ++ bs) = some u) :
    ∃ t, m.run s as = some t ∧ m.run t bs = some u := by
  rw [run_append] at whole
  exact Option.bind_eq_some_iff.mp whole

/-- What every step keeps, a run keeps. -/
theorem run_stable {P : σ → Prop} (stable : ∀ s t a, m.step s a = some t → P s → P t) {s t : σ}
    {as : List α} (result : m.run s as = some t) (base : P s) : P t := by
  induction as generalizing s with
  | nil =>
    cases result
    exact base
  | cons a rest ih =>
    obtain ⟨middle, step, later⟩ := Option.bind_eq_some_iff.mp result
    exact ih later (stable s middle a step base)

/-- Executing admitted actions from a reached state reaches the result. -/
theorem Reach.runIf [∀ s a, Decidable (ok s a)] {s t : σ} {as : List α} (reached : m.Reach ok s)
    (result : m.runIf ok s as = some t) : m.Reach ok t := by
  induction as generalizing s with
  | nil =>
    cases result
    exact reached
  | cons a rest ih =>
    simp only [Machine.runIf, Option.ite_none_right_eq_some] at result
    obtain ⟨admitted, result⟩ := result
    obtain ⟨middle, step, later⟩ := Option.bind_eq_some_iff.mp result
    exact ih (.next reached admitted step) later

/-- A guarded execution is a run whose steps all meet the guard. -/
theorem along_of_runIf [∀ s a, Decidable (ok s a)] {s t : σ} {as : List α}
    (result : m.runIf ok s as = some t) :
    m.Along (fun s a _ => ok s a) s as ∧ m.run s as = some t := by
  induction as generalizing s with
  | nil => exact ⟨trivial, result⟩
  | cons a rest ih =>
    simp only [Machine.runIf, Option.ite_none_right_eq_some] at result
    obtain ⟨admitted, result⟩ := result
    obtain ⟨middle, step, later⟩ := Option.bind_eq_some_iff.mp result
    obtain ⟨along, run⟩ := ih later
    refine ⟨fun t step' => ?_, by simp [step, run]⟩
    rw [step] at step'
    cases step'
    exact ⟨admitted, along⟩

theorem Reach.run {s t : σ} {as : List α} (reached : m.Reach anyStep s)
    (result : m.run s as = some t) : m.Reach anyStep t := by
  induction as generalizing s with
  | nil =>
    cases result
    exact reached
  | cons a rest ih =>
    obtain ⟨middle, step, later⟩ := Option.bind_eq_some_iff.mp result
    exact ih (.next reached trivial step) later

theorem Reach.during {inside : σ → Prop} {s t : σ} (reached : m.Reach anyStep s)
    (stretch : m.During inside s t) : m.Reach anyStep t := by
  induction stretch with
  | here => exact reached
  | next _ _ step ih => exact .next ih trivial step

/-- Executing a list of actions inside is a stretch. -/
theorem During.run {inside : σ → Prop} [DecidablePred inside] {s t : σ} {as : List α}
    (result : m.runIf (fun s _ => inside s) s as = some t) : m.During inside s t := by
  suffices later : ∀ u, m.During inside s u → m.runIf (fun s _ => inside s) u as = some t →
      m.During inside s t from later s .here result
  clear result
  induction as with
  | nil =>
    rintro u stretch ⟨⟩
    exact stretch
  | cons a rest ih =>
    intro u stretch result
    simp only [Machine.runIf, Option.ite_none_right_eq_some] at result
    obtain ⟨within, result⟩ := result
    obtain ⟨middle, step, later⟩ := Option.bind_eq_some_iff.mp result
    exact ih middle (.next stretch within step) later

/-- A condition that follows from being admitted holds along every admitted run. -/
theorem Along.imp {P Q : σ → α → σ → Prop}
    (weaker : ∀ s a t, m.step s a = some t → P s a t → Q s a t) {s : σ} {as : List α}
    (along : m.Along P s as) : m.Along Q s as := by
  induction as generalizing s with
  | nil => trivial
  | cons a rest ih =>
    intro t step
    have here := along t step
    exact ⟨weaker s a t step here.1, ih here.2⟩

theorem Along.and {P Q : σ → α → σ → Prop} {s : σ} {as : List α} (left : m.Along P s as)
    (right : m.Along Q s as) : m.Along (fun s a t => P s a t ∧ Q s a t) s as := by
  induction as generalizing s with
  | nil => trivial
  | cons a rest ih =>
    intro t step
    have first := left t step
    have second := right t step
    exact ⟨⟨first.1, second.1⟩, ih first.2 second.2⟩

/-- What holds along a run holds along the rest of it. -/
theorem Along.after {P : σ → α → σ → Prop} {s t : σ} {as bs : List α}
    (along : m.Along P s (as ++ bs)) (first : m.run s as = some t) : m.Along P t bs := by
  induction as generalizing s with
  | nil =>
    cases first
    exact along
  | cons a rest ih =>
    obtain ⟨middle, step, later⟩ := Option.bind_eq_some_iff.mp first
    exact ih (along middle step).2 later

end Machine
end Transition
