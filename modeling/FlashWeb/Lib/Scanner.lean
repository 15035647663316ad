import Mathlib.Data.List.Basic

/-!
# Scanners

A scanner reads a word one letter at a time. A letter takes its state to the next one or is
refused, and in a halted state it reads no further. `run` gives the state it ends in and the
letters it did not read.

The facts here are about cutting the word: what a scanner does on `p ++ t` is what it does on `p`
and then on `t`, as long as it read all of `p`.
-/

namespace FlashWeb.Lib

/-- A deterministic reader of words over `α` with states in `σ`. -/
structure Scanner (α σ : Type*) where
  step : σ → α → Option σ
  halted : σ → Bool

namespace Scanner

variable {α σ : Type*} (m : Scanner α σ)

/-- The state after a word and the letters left unread, or `none` when a letter was refused. -/
def run : σ → List α → Option (σ × List α)
  | s, [] => some (s, [])
  | s, c :: rest => if m.halted s then some (s, c :: rest) else (m.step s c).bind (run · rest)

@[simp] theorem run_nil (s : σ) : m.run s [] = some (s, []) := rfl

theorem run_halted {s : σ} (h : m.halted s = true) (w : List α) : m.run s w = some (s, w) := by
  cases w with
  | nil => rfl
  | cons c w => rw [run, if_pos h]

theorem run_cons {s : σ} (h : m.halted s = false) (c : α) (w : List α) :
    m.run s (c :: w) = (m.step s c).bind (m.run · w) := by
  rw [run, if_neg (by simp [h])]

/-- Letters are left unread only in a halted state. -/
theorem run_rest {s s' : σ} {w rest : List α} (h : m.run s w = some (s', rest)) :
    rest = [] ∨ m.halted s' = true := by
  induction w generalizing s with
  | nil =>
    rw [run_nil, Option.some.injEq, Prod.mk.injEq] at h
    exact Or.inl h.2.symm
  | cons c w ih =>
    cases hs : m.halted s with
    | true =>
      rw [m.run_halted hs, Option.some.injEq, Prod.mk.injEq] at h
      exact Or.inr (h.1 ▸ hs)
    | false =>
      rw [m.run_cons hs] at h
      obtain ⟨s₁, -, h₁⟩ := Option.bind_eq_some_iff.mp h
      exact ih h₁

/-- **Reading on after a cut.** -/
theorem run_append {s : σ} (p t : List α) :
    m.run s (p ++ t) =
      (m.run s p).bind fun r => if m.halted r.1 then some (r.1, r.2 ++ t) else m.run r.1 t := by
  induction p generalizing s with
  | nil =>
    rw [List.nil_append, run_nil, Option.bind_some]
    split
    · next h => rw [m.run_halted h, List.nil_append]
    · rfl
  | cons c p ih =>
    rw [List.cons_append]
    cases hs : m.halted s with
    | true => simp [m.run_halted hs, hs]
    | false =>
      rw [m.run_cons hs, m.run_cons hs, Option.bind_assoc]
      cases m.step s c with
      | none => rfl
      | some s₁ => simpa using ih

/-- A word that was read whole can be read on from the state it led to. -/
theorem run_append_of_run {s s' : σ} {p : List α} (h : m.run s p = some (s', [])) (t : List α) :
    m.run s (p ++ t) = m.run s' t := by
  rw [run_append, h, Option.bind_some]
  split
  · next hh => rw [m.run_halted hh, List.nil_append]
  · rfl

/-- A refused word stays refused however it goes on. -/
theorem run_append_none {s : σ} {p : List α} (h : m.run s p = none) (t : List α) :
    m.run s (p ++ t) = none := by
  rw [run_append, h, Option.bind_none]

/-- A word that is read whole is read up to its last letter, and then the letter. -/
theorem run_concat {s s' : σ} {p : List α} {c : α} (h : m.run s (p ++ [c]) = some (s', [])) :
    ∃ s₁, m.run s p = some (s₁, []) ∧ m.step s₁ c = some s' := by
  rw [run_append, Option.bind_eq_some_iff] at h
  obtain ⟨⟨s₁, rest⟩, hp, h⟩ := h
  cases hs : m.halted s₁ with
  | true => simp [hs] at h
  | false =>
    obtain rfl : rest = [] := (m.run_rest hp).resolve_right (by simp [hs])
    rw [if_neg (by simp [hs]), m.run_cons hs] at h
    obtain ⟨s₂, hstep, h⟩ := Option.bind_eq_some_iff.mp h
    rw [run_nil, Option.some.injEq, Prod.mk.injEq] at h
    exact ⟨s₁, hp, h.1 ▸ hstep⟩

/-- **The invariant rule.** An invariant may speak of the letters read so far. -/
theorem run_invariant {I : List α → σ → Prop}
    (hstep : ∀ p s c s', I p s → m.step s c = some s' → I (p ++ [c]) s')
    {p w rest : List α} {s s' : σ} (hI : I p s) (h : m.run s w = some (s', rest)) :
    ∃ q, w = q ++ rest ∧ I (p ++ q) s' := by
  induction w generalizing p s with
  | nil =>
    rw [run_nil, Option.some.injEq, Prod.mk.injEq] at h
    obtain ⟨rfl, rfl⟩ := h
    exact ⟨[], rfl, by rwa [List.append_nil]⟩
  | cons c w ih =>
    cases hs : m.halted s with
    | true =>
      rw [m.run_halted hs, Option.some.injEq, Prod.mk.injEq] at h
      obtain ⟨rfl, rfl⟩ := h
      exact ⟨[], rfl, by rwa [List.append_nil]⟩
    | false =>
      rw [m.run_cons hs] at h
      obtain ⟨s₁, h₁, h₂⟩ := Option.bind_eq_some_iff.mp h
      obtain ⟨q, rfl, hq⟩ := ih (hstep p s c s₁ hI h₁) h₂
      exact ⟨c :: q, rfl, by simpa using hq⟩

/--
**The simulation rule.** Two scanners that agree on when to halt and on which letters to refuse, as
long as their states are related, read the same part of a word.
-/
theorem run_simulates {τ : Type*} {m' : Scanner α τ} {R : σ → τ → Prop}
    (hhalt : ∀ s t, R s t → m.halted s = m'.halted t)
    (hstep : ∀ s t c, R s t → m.halted s = false →
      (m.step s c = none ∧ m'.step t c = none) ∨
        ∃ s' t', m.step s c = some s' ∧ m'.step t c = some t' ∧ R s' t')
    {s : σ} {t : τ} (h : R s t) (w : List α) :
    (m.run s w = none ∧ m'.run t w = none) ∨
      ∃ s' t' rest, m.run s w = some (s', rest) ∧ m'.run t w = some (t', rest) ∧ R s' t' := by
  induction w generalizing s t with
  | nil => exact Or.inr ⟨s, t, [], rfl, rfl, h⟩
  | cons c w ih =>
    have hh := hhalt s t h
    cases hs : m.halted s with
    | true =>
      rw [hs] at hh
      exact Or.inr ⟨s, t, c :: w, m.run_halted hs _, m'.run_halted hh.symm _, h⟩
    | false =>
      rw [hs] at hh
      rw [m.run_cons hs, m'.run_cons hh.symm]
      rcases hstep s t c h hs with ⟨hn, hn'⟩ | ⟨s', t', hs', ht', hR⟩
      · rw [hn, hn']
        exact Or.inl ⟨rfl, rfl⟩
      · rw [hs', ht']
        exact ih hR

end Scanner

end FlashWeb.Lib
