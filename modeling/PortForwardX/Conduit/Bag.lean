import Mathlib.Data.List.Count
import Mathlib.Data.List.Perm.Subperm

/-!
# Channels that lose and reorder

What is sent on such a channel arrives at most once, in any order, or never. An item that
is lost stays on the way for good. Items with equal contents are told apart by counting:
what has arrived is a part of what was sent, each item as often at most.
-/
namespace Conduit

open List

universe u v w x
variable {α : Type u} {β : Type v}

/-- The account of a channel: all that was sent, what is on the way, all that has arrived. -/
structure Bag (α : Type u) where
  sent : List α
  flying : List α
  arrived : List α

namespace Bag

/-- An item can arrive if it is on the way, and then it is on the way no more. -/
def take [DecidableEq α] (flying : List α) (x : α) : Option (List α) :=
  if x ∈ flying then some (flying.erase x) else none

/-- Nothing arrives that was not sent, and nothing arrives more often. -/
def Conserved (b : Bag α) : Prop := b.arrived ++ b.flying <+~ b.sent

theorem conserved_empty : Conserved (⟨[], [], []⟩ : Bag α) := Subperm.refl []

theorem Conserved.arrivals {b : Bag α} (conserved : b.Conserved) : b.arrived <+~ b.sent :=
  (sublist_append_left _ _).subperm.trans conserved

variable {sent flying arrived : List α}

theorem Conserved.send (before : Conserved ⟨sent, flying, arrived⟩) (new : List α) :
    Conserved ⟨sent ++ new, flying ++ new, arrived⟩ := by
  have more : arrived ++ flying ++ new <+~ sent ++ new := (subperm_append_right new).mpr before
  rwa [append_assoc] at more

theorem Conserved.take [DecidableEq α] {x : α} {rest : List α}
    (before : Conserved ⟨sent, flying, arrived⟩) (taken : take flying x = some rest) :
    Conserved ⟨sent, rest, arrived ++ [x]⟩ := by
  simp only [Bag.take, Option.ite_none_right_eq_some, Option.some.injEq] at taken
  obtain ⟨flies, rfl⟩ := taken
  -- the item changes sides
  have moved : arrived ++ [x] ++ flying.erase x ~ arrived ++ flying := by
    rw [append_assoc]
    exact (perm_cons_erase flies).symm.append_left arrived
  exact moved.subperm.trans before

end Bag

instance subpermTrans : Trans (Subperm (α := α)) (Subperm (α := α)) (Subperm (α := α)) :=
  ⟨Subperm.trans⟩

/-! ### Labels -/

/-- The same items under labels got from their labels. -/
def relabel {γ : Type w} (f : α → γ) (l : List (α × β)) : List (γ × β) :=
  l.map fun x => (f x.1, x.2)

section relabel
variable {γ : Type w} {δ : Type x} {f : α → γ} {l l' : List (α × β)}

theorem relabel_relabel {g : γ → δ} : relabel g (relabel f l) = relabel (g ∘ f) l := by
  simp [relabel]

theorem relabel_congr {g : α → γ} (same : ∀ x ∈ l, f x.1 = g x.1) :
    relabel f l = relabel g l :=
  map_congr_left fun x member => by rw [same x member]

/-- Relabelling what arrived and what was sent in the same way keeps the account. -/
theorem relabel_subperm (f : α → γ) (sub : l <+~ l') : relabel f l <+~ relabel f l' := by
  obtain ⟨m, perm, sublist⟩ := sub
  exact ⟨relabel f m, perm.map _, sublist.map _⟩

end relabel

/-- An account that holds for each label by itself holds for all of them together. -/
theorem subperm_of_labels [DecidableEq α] [DecidableEq β] {l l' : List (α × β)}
    (each : ∀ a, l.filter (fun x => x.1 = a) <+~ l'.filter fun x => x.1 = a) : l <+~ l' := by
  rw [subperm_ext_iff]
  intro x _
  -- an item counts under its own label only
  have own (m : List (α × β)) : (m.filter fun y => y.1 = x.1).count x = m.count x :=
    count_filter (by simp)
  have counted := (each x.1).count_le x
  rwa [own, own] at counted

/-- A selection that agrees with another wherever it selects anything selects less. -/
theorem filterMap_sublist {f g : α → Option β} {l : List α}
    (agrees : ∀ x ∈ l, f x = none ∨ f x = g x) : l.filterMap f <+ l.filterMap g := by
  induction l with
  | nil => exact Sublist.refl []
  | cons x rest ih =>
    have later := ih fun y member => agrees y (mem_cons_of_mem x member)
    rcases agrees x mem_cons_self with none_ | same
    · rw [filterMap_cons_none none_]
      exact later.trans ((sublist_cons_self x rest).filterMap g)
    · cases selected : g x with
      | none => rwa [filterMap_cons_none (same.trans selected), filterMap_cons_none selected]
      | some y =>
        rw [filterMap_cons_some (same.trans selected), filterMap_cons_some selected]
        exact later.cons_cons y

end Conduit
