import PortForwardX.Transition.Machine

/-!
# Ranks

A rank bounds how often chosen actions can still occur: each of them lowers it and
no other admitted action raises it.
-/
namespace Transition.Machine

universe u v
variable {σ : Type u} {α : Type v} {m : Machine σ α} {ok : σ → α → Prop}

/-- Along an admitted run the chosen actions cannot outnumber the rank they spend,
and the property that makes them spend it is kept. -/
theorem Along.rank {P : σ → Prop} (own : α → Bool) (rank : σ → Nat)
    (stable : ∀ s t a, P s → ok s a → m.step s a = some t → P t)
    (spends : ∀ s t a, P s → ok s a → m.step s a = some t →
      rank t + (if own a then 1 else 0) ≤ rank s)
    {s t : σ} {as : List α} (base : P s) (admitted : m.Along (fun s a _ => ok s a) s as)
    (result : m.run s as = some t) : P t ∧ as.countP own + rank t ≤ rank s := by
  induction as generalizing s with
  | nil =>
    cases result
    exact ⟨base, by simp⟩
  | cons a rest ih =>
    obtain ⟨middle, moved, later⟩ := Option.bind_eq_some_iff.mp result
    obtain ⟨here, along⟩ := admitted middle moved
    obtain ⟨kept, bound⟩ := ih (stable s middle a base here moved) along later
    have spent := spends s middle a base here moved
    refine ⟨kept, ?_⟩
    rw [List.countP_cons]
    omega

end Transition.Machine
