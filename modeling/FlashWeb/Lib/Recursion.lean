import Mathlib.Logic.Nontrivial.Defs

/-!
# Functions that call themselves

A function is given by its body, with the call of itself as an argument. An activation either
returns without a call, or ends in a call whose result is its own: it does so whatever function is
called. `Returns` counts the activations from a call to its return. A measure that every call
decreases bounds their number (`exists_returns`), and a function that counts the activations down
from any number that is not smaller gives the same result (`Returns.fuel`).
-/

namespace FlashWeb.Lib.Recursion

variable {σ : Type*} (body : (σ → σ) → σ → σ)

/-- The activation that starts in `s` returns `out`, without a call. -/
def Halts (s out : σ) : Prop := ∀ again, body again s = out

/-- The activation that starts in `s` ends in a call on `s'`. -/
def Calls (s s' : σ) : Prop := ∀ again, body again s = again s'

/-- The call on `s` returns `out` after `n` activations. -/
inductive Returns : σ → Nat → σ → Prop where
  | halt {s out : σ} : Halts body s out → Returns s 1 out
  | call {s s' out : σ} {n : Nat} : Calls body s s' → Returns s' n out → Returns s (n + 1) out

variable {body}

/--
**The rule of a measure.** `I` is what every activation starts with and `Q` what the last one
returns with.
-/
theorem exists_returns {I Q : σ → Prop} {size : σ → Nat}
    (hstep : ∀ s, I s → (∃ out, Halts body s out ∧ Q out) ∨
      ∃ s', Calls body s s' ∧ I s' ∧ size s' < size s) {s : σ} (hI : I s) :
    ∃ n out, Returns body s n out ∧ n ≤ 1 + size s ∧ Q out := by
  induction hm : size s using Nat.strongRecOn generalizing s with
  | ind m ih =>
    rcases hstep s hI with ⟨out, hout, hQ⟩ | ⟨s', hcall, hI', hlt⟩
    · exact ⟨1, out, .halt hout, Nat.le_add_right 1 _, hQ⟩
    · obtain ⟨n, out, hret, hn, hQ⟩ := ih (size s') (by omega) hI' rfl
      exact ⟨n + 1, out, .call hcall hret, by omega, hQ⟩

/-- **Counting the activations down from enough gives the result.** -/
theorem Returns.fuel {f : Nat → σ → σ} (hf : ∀ n s, f (n + 1) s = body (f n) s) {s out : σ}
    {n : Nat} (h : Returns body s n out) {m : Nat} (hm : n ≤ m) : f m s = out := by
  induction h generalizing m with
  | halt hout =>
    obtain ⟨k, rfl⟩ : ∃ k, m = k + 1 := ⟨m - 1, by omega⟩
    rw [hf]
    exact hout _
  | call hcall _ ih =>
    obtain ⟨k, rfl⟩ : ∃ k, m = k + 1 := ⟨m - 1, by omega⟩
    rw [hf, hcall]
    exact ih (by omega)

/-- An activation does not do both. -/
theorem Halts.not_calls [Nontrivial σ] {s out s' : σ} (h : Halts body s out)
    (hc : Calls body s s') : False := by
  obtain ⟨a, b, hab⟩ := exists_pair_ne σ
  have ha : out = a := (h fun _ => a).symm.trans (hc fun _ => a)
  have hb : out = b := (h fun _ => b).symm.trans (hc fun _ => b)
  exact hab (ha.symm.trans hb)

theorem Halts.unique {s out out' : σ} (h : Halts body s out) (h' : Halts body s out') : out = out' :=
  (h id).symm.trans (h' id)

/-- An activation ends in one call. -/
theorem Calls.unique {s s₁ s₂ : σ} (h₁ : Calls body s s₁) (h₂ : Calls body s s₂) : s₁ = s₂ :=
  (h₁ id).symm.trans (h₂ id)

/-- **There is one result, after one number of activations.** -/
theorem Returns.unique [Nontrivial σ] {s out out' : σ} {n n' : Nat} (h : Returns body s n out)
    (h' : Returns body s n' out') : n = n' ∧ out = out' := by
  induction h generalizing n' out' with
  | halt hout =>
    cases h' with
    | halt hout' => exact ⟨rfl, hout.unique hout'⟩
    | call hcall' _ => exact (hout.not_calls hcall').elim
  | call hcall _ ih =>
    cases h' with
    | halt hout' => exact (hout'.not_calls hcall).elim
    | call hcall' hret' =>
      rw [hcall'.unique hcall] at hret'
      obtain ⟨rfl, rfl⟩ := ih hret'
      exact ⟨rfl, rfl⟩

/-- The call on a state that halts has one result. -/
theorem Halts.returns_iff [Nontrivial σ] {s out out' : σ} (h : Halts body s out) :
    (∃ n, Returns body s n out') ↔ out' = out := by
  constructor
  · rintro ⟨n, hret⟩
    exact (hret.unique (.halt h)).2
  · rintro rfl
    exact ⟨1, .halt h⟩

/-- The result of a call is the result of the call it ends in. -/
theorem Calls.returns_iff [Nontrivial σ] {s s' out : σ} (h : Calls body s s') :
    (∃ n, Returns body s n out) ↔ ∃ n, Returns body s' n out := by
  constructor
  · rintro ⟨n, hret⟩
    cases hret with
    | halt hout => exact (hout.not_calls h).elim
    | call hcall hret' => exact ⟨_, h.unique hcall ▸ hret'⟩
  · rintro ⟨n, hret⟩
    exact ⟨n + 1, .call h hret⟩

end FlashWeb.Lib.Recursion
