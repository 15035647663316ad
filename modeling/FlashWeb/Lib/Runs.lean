import Mathlib.Data.List.Basic

/-!
# Transition systems

States, labelled steps and the runs they make up. `Reachable.invariant` is the rule by which a
property of one step becomes a property of every run; `only` cuts the steps of a system down to
those that meet a condition, and what holds of every run of the system holds of the runs left.
-/

namespace FlashWeb.Lib

/-- A transition system with states in `σ` and steps labelled in `l`. -/
structure System (σ l : Type*) where
  init : σ → Prop
  step : σ → l → σ → Prop

namespace System

variable {σ l : Type*} (sys : System σ l)

/-- The states at the end of a run. -/
inductive Reachable : σ → Prop where
  | init {s : σ} : sys.init s → Reachable s
  | step {s t : σ} {a : l} : Reachable s → sys.step s a t → Reachable t

variable {sys}

/-- **The invariant rule.** -/
theorem Reachable.invariant {I : σ → Prop} (hinit : ∀ s, sys.init s → I s)
    (hstep : ∀ s a t, sys.Reachable s → I s → sys.step s a t → I t) {s : σ}
    (h : sys.Reachable s) : I s := by
  induction h with
  | init h => exact hinit _ h
  | step hr hs ih => exact hstep _ _ _ hr ih hs

variable (sys)

/-- The system that starts in `s`: its runs are those that go on from there. -/
def after (s : σ) : System σ l where
  init t := t = s
  step := sys.step

variable {sys}

/-- A run and one that goes on from its end. -/
theorem Reachable.trans {s t : σ} (hs : sys.Reachable s) (ht : (sys.after s).Reachable t) :
    sys.Reachable t := by
  induction ht with
  | init h => rwa [h]
  | step _ hstep ih => exact ih.step hstep

variable (sys)

/-- The system with only the steps that meet `ok`. -/
def only (ok : σ → l → σ → Prop) : System σ l where
  init := sys.init
  step s a t := sys.step s a t ∧ ok s a t

variable {sys}

/-- The runs of the smaller system are runs of the system. -/
theorem Reachable.of_only {ok : σ → l → σ → Prop} {s : σ} (h : (sys.only ok).Reachable s) :
    sys.Reachable s := by
  induction h with
  | init h => exact .init h
  | step _ hs ih => exact .step ih hs.1

/-- The invariant rule under a condition on the steps. -/
theorem Reachable.invariant_only {ok : σ → l → σ → Prop} {I : σ → Prop}
    (hinit : ∀ s, sys.init s → I s)
    (hstep : ∀ s a t, sys.Reachable s → I s → sys.step s a t → ok s a t → I t) {s : σ}
    (h : (sys.only ok).Reachable s) : I s :=
  @Reachable.invariant _ _ (sys.only ok) _ hinit
    (fun s a t hr hI hs => hstep s a t hr.of_only hI hs.1 hs.2) _ h

end System

end FlashWeb.Lib
