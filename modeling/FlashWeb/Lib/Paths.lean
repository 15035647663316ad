import Mathlib.Data.List.Basic
import Mathlib.Data.List.Infix

/-!
# Paths

A path is a list of segments: stay, go to the parent, or go down to a child. `Below` says that no
prefix of it goes up more often than down. `walk` follows a path from a directory, given by the
names on the way to it from the root of the walk, and fails when it would leave the root.
`below_iff_walk` says that these are the same.
-/

namespace FlashWeb.Lib

/-- One segment of a path, over names in `ν`. -/
inductive Segment (ν : Type*) where
  | here
  | parent
  | child (name : ν)

namespace Segment

variable {ν : Type*}

def isParent : Segment ν → Bool
  | parent => true
  | _ => false

def isChild : Segment ν → Bool
  | child _ => true
  | _ => false

/-- No prefix has more parents than children in it. -/
def Below (p : List (Segment ν)) : Prop := ∀ q, q <+: p → q.countP isParent ≤ q.countP isChild

/-- The directory that a segment leads to from `dir`. -/
def enter : List ν → Segment ν → Option (List ν)
  | dir, here => some dir
  | [], parent => none
  | _ :: dir, parent => some dir
  | dir, child name => some (name :: dir)

/-- The directory that a path leads to from `dir`. -/
def walk : List ν → List (Segment ν) → Option (List ν)
  | dir, [] => some dir
  | dir, s :: p => (enter dir s).bind (walk · p)

/-- The prefixes of a path that goes on are the path so far and the prefixes of the rest. -/
theorem forall_prefix_cons {I : List (Segment ν) → Prop} {s : Segment ν} {p : List (Segment ν)} :
    (∀ q, q <+: s :: p → I q) ↔ I [] ∧ ∀ q, q <+: p → I (s :: q) := by
  constructor
  · intro h
    exact ⟨h [] List.nil_prefix, fun q hq => h _ (List.cons_prefix_cons.mpr ⟨rfl, hq⟩)⟩
  · rintro ⟨h0, h⟩ q hq
    cases q with
    | nil => exact h0
    | cons t q =>
      obtain ⟨rfl, hrest⟩ := List.cons_prefix_cons.mp hq
      exact h q hrest

/-- From `dir` a path may go up as often as there are directories above. -/
theorem isSome_walk_iff : ∀ (p : List (Segment ν)) (dir : List ν), (walk dir p).isSome ↔
    ∀ q, q <+: p → q.countP isParent ≤ dir.length + q.countP isChild
  | [], dir => by simp [walk]
  | s :: p, dir => by
    rw [forall_prefix_cons, walk]
    cases s with
    | here =>
      rw [enter, Option.bind_some, isSome_walk_iff p dir]
      simp [isParent, isChild]
    | parent =>
      cases dir with
      | nil =>
        rw [enter, Option.bind_none]
        simp only [Option.isSome_none, Bool.false_eq_true, false_iff]
        rintro ⟨-, h⟩
        have := h [] List.nil_prefix
        simp [isParent, isChild] at this
      | cons d dir =>
        rw [enter, Option.bind_some, isSome_walk_iff p dir]
        simp only [isParent, isChild, List.countP_nil, Nat.zero_le, true_and, List.length_cons,
          List.countP_cons, if_true, Bool.false_eq_true, if_false]
        refine forall₂_congr fun q _ => ?_
        omega
    | child name =>
      rw [enter, Option.bind_some, isSome_walk_iff p (name :: dir)]
      simp only [isParent, isChild, List.countP_nil, Nat.zero_le, true_and, List.length_cons,
        List.countP_cons, if_true, Bool.false_eq_true, if_false]
      refine forall₂_congr fun q _ => ?_
      omega

/-- **A path stays below its start exactly when it can be walked from the root.** -/
theorem below_iff_walk {p : List (Segment ν)} : Below p ↔ (walk [] p).isSome := by
  rw [isSome_walk_iff]
  simp [Below]

instance (p : List (Segment ν)) : Decidable (Below p) := decidable_of_iff _ below_iff_walk.symm

end Segment

end FlashWeb.Lib
