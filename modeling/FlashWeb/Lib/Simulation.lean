import FlashWeb.Lib.Runs

/-!
# Simulation

A run of one system seen as a run of another. An observer turns some steps of the first system into
steps of the second and sees nothing of the others; `Simulates` is the condition that a relation
between the states survives both kinds of steps. Then every run of the first system is matched by
the run of the second that consists of the steps seen, and whatever else is observed in the one can
be observed in the other.
-/

namespace FlashWeb.Lib.System

variable {σ τ l m : Type*}

/-! ## Runs as an observer sees them -/

/-- The states at the end of a run, with what `obs` made of its steps. -/
inductive Observed (sys : System σ l) (obs : σ → l → Option m) : List m → σ → Prop where
  | init {s : σ} : sys.init s → Observed sys obs [] s
  | step {seen : List m} {s t : σ} {a : l} : Observed sys obs seen s → sys.step s a t →
      Observed sys obs (seen ++ (obs s a).toList) t

section

variable {sys : System σ l} {obs : σ → l → Option m}

theorem Observed.reachable {seen : List m} {s : σ} (h : sys.Observed obs seen s) :
    sys.Reachable s := by
  induction h with
  | init h => exact .init h
  | step _ hs ih => exact ih.step hs

/-- What is seen of a run and of one that goes on from its end. -/
theorem Observed.trans {xs ys : List m} {s t : σ} (hs : sys.Observed obs xs s)
    (ht : (sys.after s).Observed obs ys t) : sys.Observed obs (xs ++ ys) t := by
  induction ht with
  | init h =>
    rw [h, List.append_nil]
    exact hs
  | step _ hstep ih =>
    rw [← List.append_assoc]
    exact ih.step hstep

/-- Every run can be watched. -/
theorem Reachable.observed (obs : σ → l → Option m) {s : σ} (h : sys.Reachable s) :
    ∃ seen, sys.Observed obs seen s := by
  induction h with
  | init h => exact ⟨[], .init h⟩
  | step _ hs ih =>
    obtain ⟨seen, h⟩ := ih
    exact ⟨_, h.step hs⟩

end

/-- The states at the end of a run with the labels `as`. -/
def Labelled (sys : System σ l) (as : List l) (s : σ) : Prop :=
  sys.Observed (fun _ a => some a) as s

theorem Labelled.reachable {sys : System σ l} {as : List l} {s : σ} (h : sys.Labelled as s) :
    sys.Reachable s := Observed.reachable h

theorem Labelled.step {sys : System σ l} {as : List l} {s t : σ} {a : l}
    (h : sys.Labelled as s) (hs : sys.step s a t) : sys.Labelled (as ++ [a]) t :=
  Observed.step h hs

/-! ## The rule -/

/-- What `obs` sees of a step of `sys` is a step of `abs`, and `R` relates the states all along. -/
structure Simulates (sys : System σ l) (abs : System τ m) (obs : σ → l → Option m)
    (R : σ → τ → Prop) : Prop where
  init : ∀ s, sys.init s → ∃ t, abs.init t ∧ R s t
  silent : ∀ s a s' t, sys.Reachable s → R s t → sys.step s a s' → obs s a = none → R s' t
  seen : ∀ s a s' t b, sys.Reachable s → R s t → sys.step s a s' → obs s a = some b →
    ∃ t', abs.step t b t' ∧ R s' t'

section

variable {n : Type*} {sys : System σ l} {abs : System τ m} {obs : σ → l → Option m}
  {R : σ → τ → Prop}

/-- **The steps seen make up a run of the other system, in which the same is seen of them.** -/
theorem Simulates.watched (h : Simulates sys abs obs R) {view : σ → l → Option n}
    {view' : τ → m → Option n} (hnone : ∀ s a, obs s a = none → view s a = none)
    (hview : ∀ s a s' t b, sys.Reachable s → R s t → sys.step s a s' → obs s a = some b →
      view s a = view' t b) {seen : List n} {s : σ} (hs : sys.Observed view seen s) :
    ∃ t, abs.Observed view' seen t ∧ R s t := by
  induction hs with
  | init hi =>
    obtain ⟨t, ht, hR⟩ := h.init _ hi
    exact ⟨t, .init ht, hR⟩
  | @step seen s s' a hrun hstep ih =>
    obtain ⟨t, ht, hR⟩ := ih
    cases hb : obs s a with
    | none =>
      refine ⟨t, ?_, h.silent s a s' t hrun.reachable hR hstep hb⟩
      rwa [hnone s a hb, Option.toList_none, List.append_nil]
    | some b =>
      obtain ⟨t', ht', hR'⟩ := h.seen s a s' t b hrun.reachable hR hstep hb
      rw [hview s a s' t b hrun.reachable hR hstep hb]
      exact ⟨t', ht.step ht', hR'⟩

/-- **The steps seen make up a run of the other system.** -/
theorem Simulates.run (h : Simulates sys abs obs R) {seen : List m} {s : σ}
    (hs : sys.Observed obs seen s) : ∃ t, abs.Labelled seen t ∧ R s t :=
  h.watched (fun _ _ hb => hb) (fun _ _ _ _ _ _ _ _ hb => hb) hs

end

end FlashWeb.Lib.System
