import Mathlib

/-!
# Patches of sets

A patch drops some elements of a set and then adds some.  Two patches can be applied in either order if
neither adds what the other drops.
-/

namespace TicketIST.Lib

structure Patch (α : Type*) where
  dropped : Set α
  added : Set α

namespace Patch

variable {α : Type*} {p q : Patch α}

def apply (p : Patch α) (A : Set α) : Set α := A \ p.dropped ∪ p.added

theorem mem_apply {A : Set α} {x : α} : x ∈ p.apply A ↔ x ∈ A ∧ x ∉ p.dropped ∨ x ∈ p.added := Iff.rfl

/-- The patch that changes nothing. -/
def none : Patch α := ⟨∅, ∅⟩

@[simp] theorem none_apply (A : Set α) : none.apply A = A := by simp [apply, none]

/-- Neither patch adds what the other drops. -/
structure Apart (p q : Patch α) : Prop where
  left : Disjoint p.added q.dropped
  right : Disjoint q.added p.dropped

theorem Apart.of_drops (hp : p.added = ∅) (hq : q.added = ∅) : p.Apart q :=
  ⟨hp ▸ Set.empty_disjoint _, hq ▸ Set.empty_disjoint _⟩

theorem Apart.of_adds (hp : p.dropped = ∅) (hq : q.dropped = ∅) : p.Apart q :=
  ⟨hq ▸ Set.disjoint_empty _, hp ▸ Set.disjoint_empty _⟩

theorem Apart.symm (h : p.Apart q) : q.Apart p := ⟨h.right, h.left⟩

/-- **Patches that are apart commute.** -/
theorem Apart.apply_comm (h : p.Apart q) (A : Set α) : q.apply (p.apply A) = p.apply (q.apply A) := by
  calc q.apply (p.apply A) = (A \ p.dropped) \ q.dropped ∪ p.added \ q.dropped ∪ q.added := by
        rw [apply, apply, Set.union_sdiff_distrib]
    _ = (A \ p.dropped) \ q.dropped ∪ p.added ∪ q.added := by rw [h.left.sdiff_eq_left]
    _ = (A \ q.dropped) \ p.dropped ∪ q.added ∪ p.added := by
        rw [Set.sdiff_sdiff_comm, Set.union_right_comm]
    _ = (A \ q.dropped) \ p.dropped ∪ q.added \ p.dropped ∪ p.added := by rw [h.right.sdiff_eq_left]
    _ = p.apply (q.apply A) := by rw [apply, apply, Set.union_sdiff_distrib]

end Patch

end TicketIST.Lib
