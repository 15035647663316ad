import Mathlib.Data.List.Basic

/-!
# Messages in a stream

Messages are written one after the other, and a reader takes the first one off the front of a
stream. A `Framing` is a way of writing that the reader understands: it finds the content of a
message whatever comes behind it. `decode_flatMap` says that it then finds every message of a
stream.
-/

namespace FlashWeb.Lib

/-- Messages in `β` written as words over `α`, and a reader of their contents in `γ`. -/
structure Framing (α β γ : Type*) where
  encode : β → List α
  content : β → γ
  /-- the first content in a stream, and what is behind its message -/
  next : List α → Option (γ × List α)
  encode_ne_nil : ∀ m, encode m ≠ []
  next_encode : ∀ m rest, next (encode m ++ rest) = some (content m, rest)

/-- At most `n` messages taken off a stream, with nothing left over. -/
def decodeFuel {α γ : Type*} (next : List α → Option (γ × List α)) :
    Nat → List α → Option (List γ)
  | _, [] => some []
  | 0, _ :: _ => none
  | n + 1, c :: s => (next (c :: s)).bind fun r => (decodeFuel next n r.2).map (r.1 :: ·)

/-- The contents of a stream. A message takes a letter at least. -/
def decode {α γ : Type*} (next : List α → Option (γ × List α)) (s : List α) : Option (List γ) :=
  decodeFuel next s.length s

namespace Framing

variable {α β γ : Type*} (f : Framing α β γ)

theorem decodeFuel_flatMap : ∀ (ms : List β) (n : Nat), (ms.flatMap f.encode).length ≤ n →
    decodeFuel f.next n (ms.flatMap f.encode) = some (ms.map f.content)
  | [], n, _ => by simp [decodeFuel]
  | m :: ms, n, hn => by
    obtain ⟨c, t, hc⟩ := List.exists_cons_of_ne_nil (f.encode_ne_nil m)
    have hnext := f.next_encode m (ms.flatMap f.encode)
    rw [List.flatMap_cons] at hn ⊢
    rw [hc, List.cons_append] at hn hnext ⊢
    cases n with
    | zero => simp at hn
    | succ n =>
      rw [List.length_cons, List.length_append] at hn
      rw [decodeFuel, hnext, Option.bind_some, decodeFuel_flatMap ms n (by omega)]
      rfl

/-- **The contents of the messages are the contents of the stream.** -/
theorem decode_flatMap (ms : List β) :
    decode f.next (ms.flatMap f.encode) = some (ms.map f.content) :=
  f.decodeFuel_flatMap ms _ (Nat.le_refl _)

end Framing

end FlashWeb.Lib
