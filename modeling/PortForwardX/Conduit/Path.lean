import Mathlib.Logic.Relation
import Mathlib.Data.List.Infix
import Mathlib.Order.Basic

/-!
# Relays in a network

Stages that each pass on the beginning of what comes in, where what comes in at one is the
beginning of what another has passed on. Along every path the last stage then passes on the
beginning of what comes in at the first, and all of it when the end has come through.
-/
namespace Conduit

universe u v w
variable {ι : Type u} {β : Type v} {feeds : ι → ι → Prop} (input output : ι → List β) {i j : ι}

open Relation

theorem prefix_of_path (stage : ∀ i, output i <+: input i)
    (link : ∀ i j, feeds i j → input j <+: output i) (path : ReflTransGen feeds i j) :
    output j <+: input i := by
  induction path with
  | refl => exact stage i
  | tail _ last ih => exact ((stage _).trans (link _ _ last)).trans ih

/-- The end travels behind the contents: a stage is over when its input has ended and all of it
is passed on, and an input ends when the stage before is over and all of that has come in. -/
theorem complete_of_path (isOver ended : ι → Prop)
    (stage : ∀ i, isOver i → ended i ∧ output i = input i)
    (link : ∀ i j, feeds i j → ended j → isOver i ∧ input j = output i)
    (path : ReflTransGen feeds i j) (done : isOver j) : ended i ∧ output j = input i := by
  induction path with
  | refl => exact stage i done
  | tail _ last ih =>
    obtain ⟨ended, out⟩ := stage _ done
    obtain ⟨before, same⟩ := link _ _ last ended
    obtain ⟨first, whole⟩ := ih before
    exact ⟨first, by rw [out, same, whole]⟩

/-- Whatever enters a stage leaves it later, and then enters the next: so it gets to the end of
every path. -/
theorem eventually_of_path {τ : Type w} [Preorder τ] (enters leaves : ι → τ → Prop)
    (stage : ∀ i t, enters i t → ∃ u, t ≤ u ∧ leaves i u)
    (link : ∀ i j t, feeds i j → leaves i t → ∃ u, t ≤ u ∧ enters j u)
    (path : ReflTransGen feeds i j) {t : τ} (now : enters i t) : ∃ u, t ≤ u ∧ leaves j u := by
  induction path with
  | refl => exact stage i t now
  | tail _ last ih =>
    obtain ⟨u, later, left⟩ := ih
    obtain ⟨v, after, entered⟩ := link _ _ u last left
    obtain ⟨w, beyond, out⟩ := stage _ v entered
    exact ⟨w, later.trans (after.trans beyond), out⟩

end Conduit
