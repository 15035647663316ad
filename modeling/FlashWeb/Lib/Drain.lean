import Mathlib.Data.List.Perm.Basic
import Mathlib.Order.Lattice

/-!
# Draining a queue from its top

A queue holds items under a key, and its top is an item with the least key; which of several such
items it is stays open. A drain looks at the top again and again, at one moment after the other,
takes it off if it is over at that moment, and ends at the first top that is not. Items may lie in
the queue that are over and are not taken off, but none under a smaller key than that top.
-/

namespace FlashWeb.Lib

variable {α κ τ : Type*} [LinearOrder κ]

/-- No item of the queue has a smaller key. -/
def IsTop (key : α → κ) (q : List α) (x : α) : Prop := x ∈ q ∧ ∀ y ∈ q, key x ≤ key y

theorem exists_isTop (key : α → κ) : ∀ {q : List α}, q ≠ [] → ∃ x, IsTop key q x
  | [], h => absurd rfl h
  | [x], _ => ⟨x, by simp [IsTop]⟩
  | x :: y :: q, _ => by
    obtain ⟨z, hz, hle⟩ := exists_isTop key (List.cons_ne_nil y q)
    by_cases hx : key x ≤ key z
    · refine ⟨x, List.mem_cons_self, ?_⟩
      intro w hw
      rcases List.mem_cons.mp hw with rfl | hw
      · exact le_rfl
      · exact hx.trans (hle w hw)
    · refine ⟨z, List.mem_cons_of_mem _ hz, ?_⟩
      intro w hw
      rcases List.mem_cons.mp hw with rfl | hw
      · exact (lt_of_not_ge hx).le
      · exact hle w hw

/-- The top of `q` is over at the moment it is looked at, and `q'` is what it leaves. -/
structure Take (key : α → κ) (due : τ → α → Prop) (q : List α) (e : α × τ) (q' : List α) :
    Prop where
  top : IsTop key q e.1
  due : due e.2 e.1
  left : q.Perm (e.1 :: q')

/-- A drain of a queue: what was taken, the item it ended at and what it left in the queue. -/
inductive Drain (key : α → κ) (due : τ → α → Prop) :
    List α → List (α × τ) → Option (α × τ) → List α → Prop where
  | empty : Drain key due [] [] none []
  | stop {q : List α} {e : α × τ} : IsTop key q e.1 → ¬ due e.2 e.1 →
      Drain key due q [] (some e) q
  | take {q q₁ q' : List α} {e : α × τ} {taken : List (α × τ)} {last : Option (α × τ)} :
      Take key due q e q₁ → Drain key due q₁ taken last q' →
      Drain key due q (e :: taken) last q'

namespace Drain

variable {key : α → κ} {due : τ → α → Prop} {q q' : List α} {taken : List (α × τ)}
  {last : Option (α × τ)}

/-- **Every item is taken once or left.** -/
theorem perm (h : Drain key due q taken last q') : q.Perm (taken.map Prod.fst ++ q') := by
  induction h with
  | empty => exact List.Perm.refl _
  | stop => exact List.Perm.refl _
  | take ht _ ih => exact ht.left.trans (ih.cons _)

theorem due_of_mem (h : Drain key due q taken last q') {e : α × τ} (he : e ∈ taken) :
    due e.2 e.1 := by
  induction h with
  | empty => exact absurd he List.not_mem_nil
  | stop => exact absurd he List.not_mem_nil
  | take ht _ ih =>
    rcases List.mem_cons.mp he with rfl | he
    · exact ht.due
    · exact ih he

/-- **The drain ends at a top that is not over, or with nothing left.** -/
theorem ends (h : Drain key due q taken last q') :
    (last = none ∧ q' = []) ∨ ∃ e, last = some e ∧ IsTop key q' e.1 ∧ ¬ due e.2 e.1 := by
  induction h with
  | empty => exact Or.inl ⟨rfl, rfl⟩
  | stop htop hover => exact Or.inr ⟨_, rfl, htop, hover⟩
  | take _ _ ih => exact ih

end Drain

variable {key : α → κ} {due : τ → α → Prop}

/-- **Taking items off comes to an end**, whatever the moments and the tops are. -/
theorem take_wellFounded :
    WellFounded fun q' q : List α => ∃ e, Take key due q e q' := by
  refine Subrelation.wf ?_ (measure (List.length : List α → Nat)).wf
  rintro q' q ⟨e, he⟩
  show q'.length < q.length
  rw [he.left.length_eq]
  exact Nat.lt_succ_self _

end FlashWeb.Lib
