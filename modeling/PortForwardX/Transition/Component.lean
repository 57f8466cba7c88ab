import PortForwardX.Transition.Fairness

/-!
# A machine inside another

A system looks to one of its components like that component alone, at rest while the others
move. What is known of the component by itself then holds of it in the system: of its states,
and, if nothing in the system holds its own steps up, of what it gets done in fair executions.
-/
namespace Transition.Machine

universe u v u' v'
variable {σ : Type u} {α : Type v} {τ : Type u'} {β : Type v'}

/-- How a machine sits in another: its state in the whole, and its share in a step. -/
structure Component (whole : Machine σ α) (ok : σ → α → Prop) (part : Machine τ β)
    (ok' : τ → β → Prop) where
  view : σ → τ
  share : α → Option β
  init : ∀ s, whole.Init s → part.Init (view s)
  rests : ∀ s t a, whole.step s a = some t → share a = none → view t = view s
  moves : ∀ s t a b, ok s a → whole.step s a = some t → share a = some b →
    ok' (view s) b ∧ part.step (view s) b = some (view t)

namespace Component

variable {whole : Machine σ α} {ok : σ → α → Prop} {part : Machine τ β} {ok' : τ → β → Prop}
  (c : Component whole ok part ok')

theorem reach {s : σ} (reached : whole.Reach ok s) : part.Reach ok' (c.view s) := by
  induction reached with
  | start init => exact .start (c.init _ init)
  | @next s t a _ admitted moved ih =>
    cases shared : c.share a with
    | none => exact c.rests s t a moved shared ▸ ih
    | some b =>
      obtain ⟨admitted', moved'⟩ := c.moves s t a b admitted moved shared
      exact .next ih admitted' moved'

/-- An execution as the component sees it. -/
def execution (e : whole.Execution ok) : part.Execution ok' where
  state i := c.view (e.state i)
  action i := (e.action i).bind c.share
  init := c.init _ e.init
  moves i := by
    rcases e.moves i with ⟨rested, same⟩ | ⟨a, acted, admitted, moved⟩
    · exact .inl ⟨by rw [rested]; rfl, by rw [same]⟩
    · rw [acted, Option.bind_some]
      cases shared : c.share a with
      | none => exact .inl ⟨rfl, c.rests _ _ a moved shared⟩
      | some b => exact .inr ⟨b, rfl, c.moves _ _ a b admitted moved shared⟩

/-- Fairness to steps in the whole is fairness to the component's share in them, if from some
moment on the whole lets the component take such a step whenever it could alone. -/
theorem fair {own : σ → α → Prop} {own' : τ → β → Prop} (inside : σ → Prop)
    (shares : ∀ s a, own s a → ∃ b, c.share a = some b ∧ own' (c.view s) b)
    (offers : ∀ s b, inside s → own' (c.view s) b → part.step (c.view s) b ≠ none →
      ∃ a, own s a ∧ whole.step s a ≠ none)
    {e : whole.Execution ok} {first : Nat} (held : ∀ k, first ≤ k → inside (e.state k))
    (fair : e.Fair own) : (c.execution e).Fair own' := by
  intro i
  obtain ⟨j, later, taken⟩ := fair (max i first)
  refine ⟨j, (Nat.le_max_left i first).trans later, ?_⟩
  rcases taken with ⟨a, acted, chosen⟩ | stuck
  · obtain ⟨b, shared, chosen'⟩ := shares _ a chosen
    refine .inl ⟨b, ?_, chosen'⟩
    change (e.action j).bind c.share = some b
    rw [acted, Option.bind_some, shared]
  · refine .inr fun b chosen => ?_
    by_contra possible
    have here := held j ((Nat.le_max_right i first).trans later)
    obtain ⟨a, own_, possible'⟩ := offers _ b here chosen possible
    exact possible' (stuck a own_)

end Component

end Transition.Machine
