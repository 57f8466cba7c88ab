import Mathlib.Data.List.Basic

/-!
# One-slot relays

A relay that takes items in one at a time, holds at most one of them and passes on
the one it holds. Whatever it does, what it has passed on is a subsequence of what it
has taken in; if it keeps every item it ought to keep and loses none it holds, the two
differ only by the items it ought not to keep and the one in hand.
-/
namespace Conduit

universe u
variable {α : Type u}

/-- The account of a one-slot relay: all it has taken in, what it holds, all it has
passed on. -/
structure Slot (α : Type u) where
  received : List α
  hand : Option α
  sent : List α

namespace Slot

/-- One step of a relay that ought to keep the items satisfying `keep`. The steps that
lose an item are open only to a `lossy` relay. -/
inductive Step (keep : α → Prop) (lossy : Prop) : Slot α → Slot α → Prop
  | stay (k : Slot α) : Step keep lossy k k
  | take (k : Slot α) (x : α) (kept : keep x) (free : k.hand = none ∨ lossy) :
      Step keep lossy k ⟨k.received ++ [x], some x, k.sent⟩
  | ignore (k : Slot α) (x : α) (unwanted : ¬ keep x ∨ lossy) :
      Step keep lossy k ⟨k.received ++ [x], k.hand, k.sent⟩
  | put (k : Slot α) (x : α) (held : k.hand = some x) :
      Step keep lossy k ⟨k.received, none, k.sent ++ [x]⟩
  | drop (k : Slot α) (loss : lossy) : Step keep lossy k ⟨k.received, none, k.sent⟩

variable {keep : α → Prop} {lossy lossy' : Prop} {k k' : Slot α}

theorem Step.mono (weaker : lossy → lossy') (step : Step keep lossy k k') :
    Step keep lossy' k k' := by
  cases step with
  | stay => exact .stay _
  | take x kept free => exact .take _ x kept (free.imp_right weaker)
  | ignore x unwanted => exact .ignore _ x (unwanted.imp_right weaker)
  | put x held => exact .put _ x held
  | drop loss => exact .drop _ (weaker loss)

theorem Step.of_eq (same : k' = k) : Step keep lossy k k' := by
  rw [same]
  exact .stay k

/-! Steps recognised by what they change. -/

theorem Step.take_of {x : α} (kept : keep x) (free : k.hand = none ∨ lossy)
    (received : k'.received = k.received ++ [x]) (hand : k'.hand = some x)
    (sent : k'.sent = k.sent) : Step keep lossy k k' := by
  have step : Step keep lossy k _ := .take k x kept free
  rwa [← received, ← hand, ← sent] at step

theorem Step.ignore_of {x : α} (unwanted : ¬ keep x ∨ lossy)
    (received : k'.received = k.received ++ [x]) (hand : k'.hand = k.hand)
    (sent : k'.sent = k.sent) : Step keep lossy k k' := by
  have step : Step keep lossy k _ := .ignore k x unwanted
  rwa [← received, ← hand, ← sent] at step

theorem Step.put_of {x : α} (held : k.hand = some x) (received : k'.received = k.received)
    (hand : k'.hand = none) (sent : k'.sent = k.sent ++ [x]) : Step keep lossy k k' := by
  have step : Step keep lossy k _ := .put k x held
  rwa [← received, ← hand, ← sent] at step

theorem Step.drop_of (loss : lossy) (received : k'.received = k.received)
    (hand : k'.hand = none) (sent : k'.sent = k.sent) : Step keep lossy k k' := by
  have step : Step keep lossy k _ := .drop k loss
  rwa [← received, ← hand, ← sent] at step

/-- Nothing is passed on that was not taken in, nothing twice and nothing out of order. -/
def Faithful (k : Slot α) : Prop := (k.sent ++ k.hand.toList).Sublist k.received

/-- Everything worth keeping has been passed on or is in hand. -/
def Exact (keep : α → Prop) [DecidablePred keep] (k : Slot α) : Prop :=
  k.sent ++ k.hand.toList = k.received.filter keep

theorem Step.faithful (step : Step keep lossy k k') (before : k.Faithful) : k'.Faithful := by
  have passed : k.sent.Sublist k.received := (List.sublist_append_left _ _).trans before
  cases step with
  | stay => exact before
  | take x =>
    -- the item in hand may be overwritten: only what was sent needs to be accounted for
    exact passed.append (List.Sublist.refl [x])
  | ignore x => exact before.trans (List.sublist_append_left _ _)
  | put x held => simpa [Faithful, held] using before
  | drop => simpa [Faithful] using passed

theorem Step.exact [DecidablePred keep] (step : Step keep False k k') (before : k.Exact keep) :
    k'.Exact keep := by
  unfold Exact at before ⊢
  cases step with
  | stay => exact before
  | take x kept free =>
    have empty : k.hand = none := free.resolve_right id
    simp only [empty, Option.toList_none, List.append_nil] at before
    simp [before, kept]
  | ignore x unwanted =>
    have unwanted : ¬ keep x := unwanted.resolve_right id
    simp [before, unwanted]
  | put x held => simpa [held] using before
  | drop loss => exact loss.elim

theorem Faithful.sent_sublist (faithful : k.Faithful) : k.sent.Sublist k.received :=
  (List.sublist_append_left _ _).trans faithful

/-- A relay holds and passes on nothing but what it ought to keep. -/
def Wanted (keep : α → Prop) (k : Slot α) : Prop := ∀ x ∈ k.sent ++ k.hand.toList, keep x

theorem Step.wanted (step : Step keep lossy k k') (before : k.Wanted keep) : k'.Wanted keep := by
  have passed : ∀ x ∈ k.sent, keep x := fun x member => before x (List.mem_append_left _ member)
  cases step with
  | stay | ignore => exact before
  | take x kept => simpa [Wanted, or_imp, forall_and, kept] using passed
  | put x held => simpa [Wanted, held] using before
  | drop => simpa [Wanted] using passed

/-- An exact relay has lost nothing if and only if nothing it took in was unwanted. -/
theorem Exact.lossless_iff [DecidablePred keep] (exact_ : k.Exact keep) :
    k.sent ++ k.hand.toList = k.received ↔ ∀ x ∈ k.received, keep x := by
  rw [exact_]
  simp

end Slot
end Conduit
