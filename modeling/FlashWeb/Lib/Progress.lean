import FlashWeb.Lib.Runs
import Mathlib.Logic.Relation
import Mathlib.Data.DFinsupp.WellFounded
import Mathlib.Order.WellFounded

/-!
# Progress

Runs that never end, in which some steps are the system's own and the others are its
surroundings'. A run is fair if the system always comes to another step of its own. `leadsTo` is the
rule of a measure: while the goal is not reached every step of the system's own makes the measure
smaller and no other step changes it, so the goal is reached. `exists_forever` makes such a run out
of a condition that some step always keeps, such as being on the way to a cycle. Where a run has to
end at the goal, `Inevitable` says that it gets there whichever steps are taken and is never stuck
before, and `inevitable` is the rule of a measure for it.
-/

namespace FlashWeb.Lib.System

variable {σ l : Type*}

/-- A run that goes on for ever from a state that is reached. -/
structure Forever (sys : System σ l) where
  state : ℕ → σ
  label : ℕ → l
  start : sys.Reachable (state 0)
  step : ∀ n, sys.step (state n) (label n) (state (n + 1))

namespace Forever

variable {sys : System σ l} (run : sys.Forever)

theorem reachable : ∀ n, sys.Reachable (run.state n)
  | 0 => run.start
  | n + 1 => (reachable n).step (run.step n)

/-- There is always another step with a label in `own`. -/
def Fair (own : l → Prop) : Prop := ∀ n, ∃ m, n ≤ m ∧ own (run.label m)

/-- What a step does on the way from `P` to `Q`. -/
inductive Approaches {β : Type*} (P Q : σ → Prop) (own : l → Prop) (r : β → β → Prop) (μ : σ → β)
    (s : σ) (a : l) (t : σ) : Prop where
  | arrives : Q t → Approaches P Q own r μ s a t
  | nearer : P t → r (μ t) (μ s) → Approaches P Q own r μ s a t
  | waits : P t → ¬ own a → μ t = μ s → Approaches P Q own r μ s a t

section

variable {β : Type*} {P Q : σ → Prop} {own : l → Prop} {r : β → β → Prop} {μ : σ → β}

/-- Until the next step of the system's own, `Q` is reached or the measure stays as it is. -/
theorem until_own
    (hstep : ∀ s a t, sys.Reachable s → P s → sys.step s a t → Approaches P Q own r μ s a t)
    {n : ℕ} (hP : P (run.state n)) : ∀ k, own (run.label (n + k)) →
      ∃ m, n ≤ m ∧ (Q (run.state m) ∨ (P (run.state m) ∧ r (μ (run.state m)) (μ (run.state n))))
  | 0, hown => by
    cases hstep _ _ _ (run.reachable n) hP (run.step n) with
    | arrives hQ => exact ⟨n + 1, Nat.le_succ n, Or.inl hQ⟩
    | nearer hP' hr => exact ⟨n + 1, Nat.le_succ n, Or.inr ⟨hP', hr⟩⟩
    | waits _ hother => exact absurd hown hother
  | k + 1, hown => by
    cases hstep _ _ _ (run.reachable n) hP (run.step n) with
    | arrives hQ => exact ⟨n + 1, Nat.le_succ n, Or.inl hQ⟩
    | nearer hP' hr => exact ⟨n + 1, Nat.le_succ n, Or.inr ⟨hP', hr⟩⟩
    | waits hP' _ hμ =>
      rw [← Nat.add_assoc, Nat.add_right_comm] at hown
      obtain ⟨m, hm, h⟩ := until_own hstep hP' k hown
      rw [hμ] at h
      exact ⟨m, Nat.le_of_succ_le hm, h⟩

/-- **The rule of a measure.** -/
theorem leadsTo (hwf : WellFounded r) (hfair : run.Fair own)
    (hstep : ∀ s a t, sys.Reachable s → P s → sys.step s a t → Approaches P Q own r μ s a t)
    {n : ℕ} (hP : P (run.state n)) : ∃ m, n ≤ m ∧ Q (run.state m) := by
  induction hx : μ (run.state n) using hwf.induction generalizing n with
  | _ x ih =>
    obtain ⟨m, hm, hown⟩ := hfair n
    obtain ⟨k, rfl⟩ := Nat.exists_eq_add_of_le hm
    obtain ⟨i, hi, hQ | ⟨hP', hr⟩⟩ := run.until_own hstep hP k hown
    · exact ⟨i, hi, hQ⟩
    · obtain ⟨j, hj, hQ⟩ := ih _ (hx ▸ hr) hP' rfl
      exact ⟨j, hi.trans hj, hQ⟩

end

/-- What every step keeps, unless it leads to `Q`, is kept as long as `Q` is not reached. -/
theorem kept_until {P Q : σ → Prop} {n : ℕ}
    (hstep : ∀ m, n ≤ m → P (run.state m) → P (run.state (m + 1)) ∨ Q (run.state (m + 1)))
    (hP : P (run.state n)) {m : ℕ} (hm : n ≤ m) :
    (∃ k, n ≤ k ∧ Q (run.state k)) ∨ P (run.state m) := by
  induction m, hm using Nat.le_induction with
  | base => exact Or.inr hP
  | succ m hm ih =>
    rcases ih with hQ | hPm
    · exact Or.inl hQ
    · rcases hstep m hm hPm with hP' | hQ
      · exact Or.inr hP'
      · exact Or.inl ⟨m + 1, Nat.le_succ_of_le hm, hQ⟩

/-- **The first state in `Q` is reached by a step out of `P`**, and up to then all are in `P`. -/
theorem first_of_leadsTo {P Q : σ → Prop} {n : ℕ}
    (hstep : ∀ m, n ≤ m → P (run.state m) → P (run.state (m + 1)) ∨ Q (run.state (m + 1)))
    (hP : P (run.state n)) (hQ : ∃ m, n ≤ m ∧ Q (run.state m)) :
    ∃ m, n ≤ m ∧ Q (run.state m) ∧ ∀ k, n ≤ k → k < m → P (run.state k) := by
  classical
  obtain ⟨hle, hfirst⟩ := Nat.find_spec hQ
  refine ⟨Nat.find hQ, hle, hfirst, fun k hk hlt => ?_⟩
  have hnot : ∀ j, n ≤ j → j < Nat.find hQ → ¬ Q (run.state j) :=
    fun j hj hlt hq => Nat.find_min hQ hlt ⟨hj, hq⟩
  induction k, hk using Nat.le_induction with
  | base => exact hP
  | succ k hk ih =>
    have hPk := ih (Nat.lt_of_succ_lt hlt)
    exact (hstep k hk hPk).resolve_right (hnot (k + 1) (Nat.le_succ_of_le hk) hlt)

/-- A run may begin a step earlier. -/
theorem exists_cons {s : σ} {a : l} (hs : sys.Reachable s) (hstep : sys.step s a (run.state 0)) :
    ∃ run' : sys.Forever, run'.state 0 = s ∧ run'.label 0 = a ∧
      ∀ n, run'.label (n + 1) = run.label n := by
  let state : ℕ → σ := fun n => n.casesOn s run.state
  let label : ℕ → l := fun n => n.casesOn a run.label
  refine ⟨⟨state, label, hs, fun n => ?_⟩, rfl, rfl, fun _ => rfl⟩
  cases n with
  | zero => exact hstep
  | succ n => exact run.step n

end Forever

/-- **A condition that some step always keeps can be kept for ever.** -/
theorem exists_forever {sys : System σ l} {I : σ → Prop} {own : l → Prop} {s : σ}
    (hs : sys.Reachable s) (hI : I s)
    (hnext : ∀ s, I s → ∃ a t, own a ∧ sys.step s a t ∧ I t) :
    ∃ run : sys.Forever, run.state 0 = s ∧ ∀ n, own (run.label n) := by
  classical
  choose label next hown hstep hnextI using hnext
  let state : ℕ → { s // I s } := fun n =>
    Nat.rec ⟨s, hI⟩ (fun _ u => ⟨next u.1 u.2, hnextI u.1 u.2⟩) n
  exact ⟨⟨fun n => (state n).1, fun n => label (state n).1 (state n).2, hs,
    fun n => hstep (state n).1 (state n).2⟩, rfl, fun n => hown (state n).1 (state n).2⟩

/-- Some step with a label in `own`. -/
def OwnStep (sys : System σ l) (own : l → Prop) (s t : σ) : Prop := ∃ a, own a ∧ sys.step s a t

/-- From a state that leads to a cycle a run goes on for ever. -/
theorem exists_forever_of_cycle {sys : System σ l} {own : l → Prop} {s c : σ}
    (hs : sys.Reachable s) (hsc : Relation.TransGen (sys.OwnStep own) s c)
    (hcc : Relation.TransGen (sys.OwnStep own) c c) :
    ∃ run : sys.Forever, run.state 0 = s ∧ ∀ n, own (run.label n) := by
  refine exists_forever (I := fun t => Relation.TransGen (sys.OwnStep own) t c) hs hsc
    fun t ht => ?_
  obtain ⟨u, ⟨a, hown, hstep⟩, hu⟩ := Relation.TransGen.head'_iff.mp ht
  refine ⟨a, u, hown, hstep, ?_⟩
  rcases Relation.reflTransGen_iff_eq_or_transGen.mp hu with rfl | hu
  · exact hcc
  · exact hu

/-- The measure of one of several parties is smaller, and those of the others are as they were. -/
def OneOf {ι β : Type*} (r : β → β → Prop) (f g : ι → β) : Prop :=
  ∃ i, r (f i) (g i) ∧ ∀ j, j ≠ i → f j = g j

theorem oneOf_wf {β : Type*} {r : β → β → Prop} (hr : WellFounded r) (n : ℕ) :
    WellFounded (OneOf r : (Fin n → β) → (Fin n → β) → Prop) := by
  refine Subrelation.wf ?_ (Pi.Lex.wellFounded (· < ·) fun _ : Fin n => hr)
  rintro f g ⟨i, hi, hothers⟩
  exact ⟨i, fun j hj => hothers j hj.ne, hi⟩

theorem oneOf_fin {β : Type*} {r : β → β → Prop} {n k : ℕ} {f g : ℕ → β} (hk : k < n)
    (hself : r (f k) (g k)) (hothers : ∀ j, j ≠ k → f j = g j) :
    OneOf r (fun i : Fin n => f i) (fun i : Fin n => g i) :=
  ⟨⟨k, hk⟩, hself, fun j hj => hothers j fun h => hj (Fin.ext h)⟩

/-- Whichever steps of its own the system takes, it comes to `Q`, and it can always take another. -/
inductive Inevitable (sys : System σ l) (own : l → Prop) (Q : σ → Prop) : σ → Prop where
  | here {s : σ} : Q s → Inevitable sys own Q s
  | next {s : σ} :
      (∀ u, Relation.ReflTransGen (sys.OwnStep fun a => ¬ own a) s u → ∃ t, sys.OwnStep own u t) →
      (∀ u t, Relation.ReflTransGen (sys.OwnStep fun a => ¬ own a) s u → sys.OwnStep own u t →
        Inevitable sys own Q t) →
      Inevitable sys own Q s

/-- Steps of the surroundings change nothing on the way. -/
theorem waits_of_reflTransGen {sys : System σ l} {own : l → Prop} {P : σ → Prop} {β : Type*}
    {μ : σ → β} (hother : ∀ s a t, P s → ¬ own a → sys.step s a t → P t ∧ μ t = μ s) {s u : σ}
    (hP : P s) (h : Relation.ReflTransGen (sys.OwnStep fun a => ¬ own a) s u) :
    P u ∧ μ u = μ s := by
  induction h with
  | refl => exact ⟨hP, rfl⟩
  | tail _ hstep ih =>
    obtain ⟨a, hown, hs⟩ := hstep
    obtain ⟨hP', hμ⟩ := hother _ a _ ih.1 hown hs
    exact ⟨hP', hμ.trans ih.2⟩

/-- **The rule of a measure for runs that end.** -/
theorem inevitable {sys : System σ l} {own : l → Prop} {P Q : σ → Prop} {β : Type*}
    {r : β → β → Prop} {μ : σ → β} (hwf : WellFounded r)
    (hother : ∀ s a t, P s → ¬ own a → sys.step s a t → P t ∧ μ t = μ s)
    (hown : ∀ s a t, P s → own a → sys.step s a t → Q t ∨ (P t ∧ r (μ t) (μ s)))
    (hnext : ∀ s, P s → ∃ t, sys.OwnStep own s t) {s : σ} (hP : P s) :
    Inevitable sys own Q s := by
  induction hx : μ s using hwf.induction generalizing s with
  | _ x ih =>
    refine .next (fun u hu => hnext u (waits_of_reflTransGen hother hP hu).1) ?_
    rintro u t hu ⟨a, ha, hs⟩
    obtain ⟨hPu, hμ⟩ := waits_of_reflTransGen hother hP hu
    rcases hown u a t hPu ha hs with hQ | ⟨hPt, hr⟩
    · exact .here hQ
    · exact ih _ (hx ▸ hμ ▸ hr) hPt rfl

end FlashWeb.Lib.System
