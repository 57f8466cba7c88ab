import PortForwardX.Transition.Machine

/-!
# Machines with a history variable

An observer keeps a note beside the state of a machine. No step reads the note, so the
runs of the observed machine are those of the machine itself.
-/
namespace Transition.Machine

universe u v w
variable {σ : Type u} {α : Type v} {η : Type w}

/-- A machine with a note. `first` says what the note may be at the start, `note` what it
becomes in a step. -/
def observed (m : Machine σ α) (first : σ → η → Prop) (note : σ → α → η → η) :
    Machine (σ × η) α where
  Init x := m.Init x.1 ∧ first x.1 x.2
  step x a := (m.step x.1 a).map fun t => (t, note x.1 a x.2)

variable {m : Machine σ α} {first : σ → η → Prop} {note : σ → α → η → η}

theorem observed_step {x y : σ × η} {a : α} :
    (m.observed first note).step x a = some y ↔
      m.step x.1 a = some y.1 ∧ y.2 = note x.1 a x.2 := by
  obtain ⟨t, n⟩ := y
  constructor
  · intro moved
    obtain ⟨u, step, same⟩ := Option.map_eq_some_iff.mp moved
    obtain ⟨rfl, rfl⟩ := Prod.mk.inj same
    exact ⟨step, rfl⟩
  · rintro ⟨step, rfl⟩
    exact Option.map_eq_some_iff.mpr ⟨t, step, rfl⟩

/-- Without its notes, an observed run is a run. -/
theorem Reach.unobserved {ok : σ × η → α → Prop} (ok' : σ → α → Prop) {x : σ × η}
    (weaker : ∀ x a, ok x a → ok' x.1 a) (reached : (m.observed first note).Reach ok x) :
    m.Reach ok' x.1 := by
  induction reached with
  | start init => exact .start init.1
  | next _ admitted moved ih => exact .next ih (weaker _ _ admitted) (observed_step.mp moved).1

/-- Every run can be observed. -/
theorem Reach.observe {ok : σ → α → Prop} {s : σ} (possible : ∀ s, m.Init s → ∃ n, first s n)
    (reached : m.Reach ok s) :
    ∃ n, (m.observed first note).Reach (fun x a => ok x.1 a) (s, n) := by
  induction reached with
  | start init =>
    obtain ⟨n, noted⟩ := possible _ init
    exact ⟨n, .start ⟨init, noted⟩⟩
  | next _ admitted step ih =>
    obtain ⟨n, observed⟩ := ih
    exact ⟨_, .next observed admitted (observed_step.mpr ⟨step, rfl⟩)⟩

end Transition.Machine
