import FlashWeb.Callbacks

/-!
# No callback is lost

The push and the wake-up are two steps, so a callback may lie in the list while the loop is already
blocked again. What rules out that it stays there is that its wake-up is then still to come, or
pending (`Ok.woken`). `EpollWait` may swallow the wake-up only on the way to the swap that empties
the list.
-/

namespace FlashWeb

open Lib

variable {Producer Callback : Type} [DecidableEq Producer]

namespace Handoff

/-- Unless the loop is about to look at `callback_list_`, something will still wake it up. -/
structure Ok (s : Handoff Producer Callback) : Prop where
  order : s.ran ++ s.batch ++ s.callbackList = s.pushed
  woken : s.stage ≠ .handling → s.wakeupPending = true ∨
    ∀ c ∈ s.callbackList, s.owes c.producer = some c.number

variable {s : Handoff Producer Callback}

theorem Ok.push (h : s.Ok) {p : Producer} (callback : Callback) (hp : s.owes p = none) :
    (s.push p callback).Ok where
  order := by
    show s.ran ++ s.batch ++ (s.callbackList ++ [s.post p callback]) = _
    rw [← List.append_assoc, h.order]
    rfl
  woken hs := by
    refine (h.woken hs).imp_right fun howed c hc => ?_
    rcases List.mem_append.mp hc with hq | hq
    · -- a producer with a callback in the list is not done with that call
      have hne : c.producer ≠ p := by
        rintro rfl
        rw [howed c hq] at hp
        exact nomatch hp
      exact (Function.update_of_ne hne ..).trans (howed c hq)
    · rw [List.mem_singleton.mp hq]
      exact Function.update_self ..

theorem Ok.step (h : s.Ok) {a : HandoffStep Producer Callback} {t : Handoff Producer Callback}
    (hs : HandoffSteps s a t) : t.Ok := by
  cases hs with
  | push p callback hp => exact h.push callback hp
  | wakeUp _ => exact ⟨h.order, fun _ => Or.inl rfl⟩
  | epollWait woken hw _ =>
    refine ⟨?_, fun hn => absurd rfl hn⟩
    have ho := h.order
    rw [batch, hw] at ho
    exact ho
  | handleEvents _ => exact h
  | swap hw =>
    refine ⟨?_, fun _ => Or.inr fun c hc => nomatch hc⟩
    have ho := h.order
    rw [batch, hw] at ho
    simpa [batch] using ho
  | @run c b hw =>
    refine ⟨?_, fun _ => h.woken (by simp [hw])⟩
    have ho := h.order
    rw [batch, hw] at ho
    simpa [batch] using ho
  | ran hw =>
    refine ⟨?_, fun _ => h.woken (by simp [hw])⟩
    have ho := h.order
    rw [batch, hw] at ho
    exact ho
  | handleExpire hw =>
    refine ⟨?_, fun _ => h.woken (by simp [hw])⟩
    have ho := h.order
    rw [batch, hw] at ho
    exact ho

/--
**Nothing is lost on the way to a loop.** What was run, what is being run and what is queued are the
pushed callbacks, in order; and when the loop is blocked with no wake-up pending, each queued
callback is one whose producer has yet to wake the loop up.
-/
theorem handoff_complete (h : System.Reachable handoffs s) :
    s.ran ++ s.batch ++ s.callbackList = s.pushed ∧
      (s.stage = .waiting → s.wakeupPending = false →
        ∀ c ∈ s.callbackList, s.owes c.producer = some c.number) := by
  have hok : s.Ok := by
    refine h.invariant (I := Ok) ?_ fun s a t _ hI hs => hI.step hs
    rintro s rfl
    exact ⟨rfl, fun _ => Or.inr fun c hc => nomatch hc⟩
  refine ⟨hok.order, fun hs hw => (hok.woken (by simp [hs])).resolve_left ?_⟩
  rw [hw]
  exact Bool.false_ne_true

/-! ## A callback that is not lost -/

/-- A callback was run; another was pushed meanwhile, and the loop went to sleep in between. -/
def beforeWakeUp : Handoff Bool Nat :=
  let s := ((empty.push false 7).wakeUp false)
  let s : Handoff Bool Nat := { s with stage := .handling, wakeupPending := false }
  let s : Handoff Bool Nat := { s with callbackList := [], stage := .running s.callbackList }
  let s := s.push true 8
  let s : Handoff Bool Nat := { s with stage := .running [], ran := [⟨0, false, 7⟩] }
  { s with stage := .waiting }

theorem beforeWakeUp_reachable : System.Reachable handoffs beforeWakeUp := by
  have h0 : System.Reachable handoffs (empty : Handoff Bool Nat) := .init rfl
  have h1 := h0.step (HandoffSteps.push false 7 rfl)
  have h2 := h1.step (HandoffSteps.wakeUp (p := false) (k := 0) rfl)
  have h3 := h2.step (HandoffSteps.epollWait true rfl fun _ => rfl)
  have h4 := h3.step (HandoffSteps.swap rfl)
  have h5 := h4.step (HandoffSteps.push true 8 rfl)
  have h6 := h5.step (HandoffSteps.run rfl)
  have h7 := h6.step (HandoffSteps.ran rfl)
  exact h7.step (HandoffSteps.handleExpire rfl)

/-- The second producer has still to wake the loop up. -/
theorem handoff_complete_beforeWakeUp :
    beforeWakeUp.callbackList = [⟨1, true, 8⟩] ∧ beforeWakeUp.owes true = some 1 :=
  ⟨rfl, (handoff_complete beforeWakeUp_reachable).2 rfl rfl ⟨1, true, 8⟩ (by decide)⟩

end Handoff

end FlashWeb
