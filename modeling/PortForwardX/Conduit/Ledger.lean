import Mathlib.Data.List.Count
import Mathlib.Logic.Function.Basic

/-!
# Resources given out in order

Resources get their numbers in the order in which they are opened and are closed by
number. As long as only open ones are closed, no number is closed twice, and one that has
been given out and is not open has been closed once.
-/
namespace Conduit

/-- Which resources are open, the next number to give out and all closes so far. -/
structure Ledger where
  isOpen : Nat → Bool
  next : Nat
  closes : List Nat

namespace Ledger

def give (l : Ledger) : Ledger :=
  { l with isOpen := Function.update l.isOpen l.next true, next := l.next + 1 }

def close (l : Ledger) (k : Nat) : Ledger :=
  { l with isOpen := Function.update l.isOpen k false, closes := l.closes ++ [k] }

/-- A resource has been closed once if it has been given out and is not open, and else not
at all. -/
structure Balanced (l : Ledger) : Prop where
  given : ∀ k, l.isOpen k = true → k < l.next
  closes : ∀ k, l.closes.count k = if l.isOpen k = true ∨ l.next ≤ k then 0 else 1

variable {l : Ledger} {k : Nat}

theorem balanced_empty : Balanced ⟨fun _ => false, 0, []⟩ := ⟨by simp, by simp⟩

theorem Balanced.give (before : l.Balanced) : l.give.Balanced where
  given k opened := by
    by_cases new : k = l.next
    · exact new ▸ Nat.lt_succ_self _
    · have old : l.isOpen k = true := by simpa [Ledger.give, new] using opened
      exact Nat.lt_succ_of_lt (before.given k old)
  closes k := by
    have old := before.closes k
    simp only [Ledger.give]
    rw [old]
    by_cases new : k = l.next
    · simp [new]
    · have order : l.next + 1 ≤ k ↔ l.next ≤ k := by omega
      simp [new, order]

theorem Balanced.close (before : l.Balanced) (opened : l.isOpen k = true) :
    (l.close k).Balanced where
  given j still := by
    by_cases same : j = k
    · exact same ▸ before.given k opened
    · exact before.given j (by simpa [Ledger.close, same] using still)
  closes j := by
    have old := before.closes j
    simp only [Ledger.close, List.count_append, old]
    by_cases same : j = k
    · have given := before.given k opened
      simp [same, opened, given]
    · simp [same, Ne.symm same]

/-- What is not open any more has been closed once. -/
theorem Balanced.closed_once (balanced : l.Balanced) (given : k < l.next)
    (closed : l.isOpen k = false) : l.closes.count k = 1 := by
  rw [balanced.closes, if_neg]
  simp [closed, given]

end Ledger
end Conduit
