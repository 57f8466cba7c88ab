import Mathlib.Data.List.Basic

/-!
# Trying candidates in order

A search that makes one candidate after the other, releases each one that does not do and
keeps the first that does. Candidates are known by their position.
-/
namespace Selection

universe u
variable {α : Type u}

/-- What becomes of a candidate: it cannot be made, it is made and given up, or it is kept. -/
inductive Trial where
  | absent
  | rejected
  | accepted
  deriving DecidableEq, Repr

/-- Candidates made and released, in order. -/
inductive Use where
  | made (position : Nat)
  | released (position : Nat)
  deriving DecidableEq, Repr

/-- The candidate that is kept, with its position, and what was made and released on the
way to it. Positions are counted from `i`. -/
def tryInOrder (trial : Nat → Trial) : List α → Nat → Option (α × Nat) × List Use
  | [], _ => (none, [])
  | x :: rest, i =>
    match trial i with
    | .absent => tryInOrder trial rest (i + 1)
    | .rejected =>
      let (kept, uses) := tryInOrder trial rest (i + 1)
      (kept, .made i :: .released i :: uses)
    | .accepted => (some (x, i), [.made i])

variable {trial : Nat → Trial} {xs ys : List α} {i : Nat}

/-- The candidate kept is the first one that does. -/
theorem tryInOrder_kept :
    (tryInOrder trial xs i).1 = (xs.zipIdx i).find? fun x => trial x.2 = .accepted := by
  induction xs generalizing i with
  | nil => rfl
  | cons x rest ih =>
    unfold tryInOrder
    cases outcome : trial i <;> simp [outcome, ih]

/-- Whatever the search touches lies at its start or behind. -/
theorem tryInOrder_later {j : Nat} (before : j < i) :
    .made j ∉ (tryInOrder trial xs i).2 ∧ .released j ∉ (tryInOrder trial xs i).2 ∧
      (tryInOrder trial xs i).1.map Prod.snd ≠ some j := by
  induction xs generalizing i with
  | nil => simp [tryInOrder]
  | cons x rest ih =>
    have later := ih (Nat.lt_succ_of_lt before)
    unfold tryInOrder
    cases trial i with
    | absent => exact later
    | rejected => simpa [Nat.ne_of_lt before] using later
    | accepted => simp [Nat.ne_of_gt before, Nat.ne_of_lt before]

/-- No candidate is made twice. -/
theorem tryInOrder_once (j : Nat) : (tryInOrder trial xs i).2.count (.made j) ≤ 1 := by
  induction xs generalizing i with
  | nil => simp [tryInOrder]
  | cons x rest ih =>
    unfold tryInOrder
    cases trial i with
    | absent => exact ih
    | rejected =>
      by_cases here : i = j
      · -- the rest of the search lies behind
        subst here
        simp [List.count_eq_zero.mpr (tryInOrder_later (Nat.lt_succ_self i)).1]
      · simpa [here] using ih
    | accepted => exact List.count_le_length

/-- What is made is either released, once, or kept. -/
theorem tryInOrder_balanced (j : Nat) :
    (tryInOrder trial xs i).2.count (.released j) +
      (if (tryInOrder trial xs i).1.map Prod.snd = some j then 1 else 0) =
    (tryInOrder trial xs i).2.count (.made j) := by
  induction xs generalizing i with
  | nil => simp [tryInOrder]
  | cons x rest ih =>
    unfold tryInOrder
    cases trial i with
    | absent => exact ih
    | rejected =>
      by_cases here : i = j
      · subst here
        obtain ⟨made, released, kept⟩ :=
          @tryInOrder_later _ trial rest _ _ (Nat.lt_succ_self i)
        simp [List.count_eq_zero.mpr made, List.count_eq_zero.mpr released, kept]
      · simpa [here] using ih
    | accepted => by_cases here : i = j <;> simp [here]

end Selection
