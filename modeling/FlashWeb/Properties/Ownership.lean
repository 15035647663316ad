import FlashWeb.Connection
import FlashWeb.Properties.Registry

/-!
# Who holds a connection while its event is handled

A channel's callbacks hold a raw pointer, so while they run the connection must be held by someone
else: its entry in `fd2http_` or its timer node. Both are given up by the callbacks themselves. The
entry goes with `HandleClose`, and `seperateTimer` empties the node, after `HandleClose` or before.
So a connection that is closed by its own event is always destroyed before `HandleEvents` returns,
and every other one is held by `fd2http_` all the while.
-/

namespace FlashWeb

open Lib

namespace EventLoop

variable {wakeupFd : Fd} {s : EventLoop}

/-! ## Runs whose events meet a condition -/

/-- An event that is being handled met the condition when it began. -/
theorem handling_of_only {ok : Dispatch → Http → Prop}
    (h : ((loops wakeupFd).only (Begins ok)).Reachable s) {x : Handling}
    (hp : s.phase = .handling x) : ok x.dispatch x.found := by
  refine h.invariant_only (I := fun s => ∀ x, s.phase = .handling x → ok x.dispatch x.found)
    ?_ ?_ x hp
  · rintro s ⟨now, rfl⟩ x hx
    exact LoopPhase.noConfusion hx
  · intro s a t _ ih hs hok x hx
    cases hs with
    | accept => exact ih x hx
    | tick => exact ih x hx
    | wait => exact LoopPhase.noConfusion hx
    | wakeup => exact LoopPhase.noConfusion hx
    | @begin id active d hp =>
      obtain rfl : (⟨id, d, s.http id, (d.run (s.http id)).trace, active⟩ : Handling) = x := by
        simpa [EventLoop.begin] using hx
      exact hok id active d hp rfl
    | @effect h e todo hp htodo =>
      obtain rfl : { h with todo := todo } = x := by simpa [enter] using hx
      exact ih h hp
    | handled => exact LoopPhase.noConfusion hx
    | swap => exact LoopPhase.noConfusion hx
    | callback => exact LoopPhase.noConfusion hx
    | ran => exact LoopPhase.noConfusion hx
    | expire n hp =>
      rw [expire_phase, hp] at hx
      exact LoopPhase.noConfusion hx
    | rest => exact LoopPhase.noConfusion hx

/-- The calls that an event still has to make can be made. -/
theorem reachable_effects {ok : Dispatch → Http → Prop} :
    ∀ (pre post : List Effect) {s : EventLoop} {x : Handling},
    ((loops wakeupFd).only (Begins ok)).Reachable s → s.phase = .handling x →
    x.todo = pre ++ post →
    ∃ t, ((loops wakeupFd).only (Begins ok)).Reachable t ∧
      t.phase = .handling { x with todo := post } ∧
      (s.standing x.id).follow pre = some (t.standing x.id)
  | [], post, s, x, h, hp, htodo => by
    refine ⟨s, h, ?_, rfl⟩
    rw [hp, ← show x.todo = post from htodo]
  | e :: pre, post, s, x, h, hp, htodo => by
    have hok := reachable_ok h.of_only
    obtain ⟨timed, st, hf, -⟩ := (hok.phase.handling x hp).outcome
    rw [htodo, List.cons_append, Standing.follow_cons, Option.bind_eq_some_iff] at hf
    obtain ⟨mid, he, -⟩ := hf
    obtain ⟨-, hperf⟩ := perform_spec hok.tables he
    obtain ⟨t, ht, htp, hft⟩ := reachable_effects pre post
      (h.step ⟨Steps.effect hp htodo, fun _ _ _ _ ha => LoopStep.noConfusion ha⟩) rfl rfl
    refine ⟨t, ht, htp, ?_⟩
    have hmid : ((s.perform x.id e).standing x.id).follow pre = some (t.standing x.id) := hft
    rw [hperf.standing] at hmid
    rw [Standing.follow_cons, he]
    exact hmid

/-! ## Held or not -/

/-- While an event that does not close its connection is handled, `fd2http_` holds it. -/
theorem HandlingOk.registered {x : Handling} (hx : s.HandlingOk x)
    (hc : ¬ x.dispatch.Closes x.found) : s.Registered x.id := by
  obtain ⟨timed, st, hf, ho⟩ := hx.outcome
  rw [← standing_registered]
  exact Standing.follow_registered hf (ho.registered.mpr hc)

/-- When an event has been handled, its connection is held unless the event closed it. -/
theorem HandlingOk.owned_iff {x : Handling} (hx : s.HandlingOk x) (htodo : x.todo = []) :
    s.Owned x.id ↔ ¬ x.dispatch.Closes x.found := by
  obtain ⟨timed, st, hf, ho⟩ := hx.outcome
  rw [htodo, Standing.follow_nil, Option.some.injEq] at hf
  rw [← ho.registered, ← hf, EventLoop.owned_iff, or_iff_left hx.started, or_iff_left_iff_imp]
  rw [hf]
  exact ho.gone

/-- **A connection is held while its event is handled, unless the event closes it.** -/
theorem held_while_handled (wakeupFd : Fd) :
    (∀ s, ((loops wakeupFd).only (Begins fun d h => ¬ d.Closes h)).Reachable s →
      ∀ x, s.phase = .handling x → (s.owners x.id).Nonempty) ∧
    ∀ s, (loops wakeupFd).Reachable s → ∀ x, s.phase = .handling x → x.todo = [] →
      ((s.owners x.id).Nonempty ↔ ¬ x.dispatch.Closes x.found) := by
  refine ⟨fun s h x hp => ?_, fun s h x hp htodo => ?_⟩
  · rw [owners_nonempty]
    have hx := (reachable_ok h.of_only).phase.handling x hp
    exact Or.inl (hx.registered (handling_of_only h hp))
  · rw [owners_nonempty]
    exact ((reachable_ok h).phase.handling x hp).owned_iff htodo

/-! ## Two events -/

/-- The connection of `serving` when it has made the first `k` calls of event `d`. -/
theorem reachable_serving_only (ok : Dispatch → Http → Prop) (d : Dispatch)
    (hd : EventMask.inEt.Reportable d.active) (hok : ok d (serving.http 0)) (k : Nat)
    (st : Standing)
    (hst : Standing.follow ⟨true, true⟩ ((d.run (serving.http 0)).trace.take k) = some st) :
    ∃ t, ((loops 3).only (Begins ok)).Reachable t ∧ t.standing 0 = st ∧ t.phase = .handling
      ⟨0, d, serving.http 0, (d.run (serving.http 0)).trace.drop k, []⟩ := by
  have h1 := (serving_reachable_only ok).step
    ⟨serving_wait hd, fun _ _ _ _ ha => LoopStep.noConfusion ha⟩
  have h2 := h1.step ⟨Steps.begin d rfl, fun id active d' hp ha => by
    cases ha
    cases hp
    exact hok⟩
  obtain ⟨t, ht, htp, hf⟩ := reachable_effects _ _ h2 rfl (List.take_append_drop k _).symm
  refine ⟨t, ht, ?_, htp⟩
  exact Option.some.inj (hf.symm.trans hst)

theorem reachable_serving (d : Dispatch) (hd : EventMask.inEt.Reportable d.active) (k : Nat)
    (st : Standing)
    (hst : Standing.follow ⟨true, true⟩ ((d.run (serving.http 0)).trace.take k) = some st) :
    ∃ t, (loops 3).Reachable t ∧ t.standing 0 = st ∧ t.phase = .handling
      ⟨0, d, serving.http 0, (d.run (serving.http 0)).trace.drop k, []⟩ := by
  obtain ⟨t, ht, hrest⟩ :=
    reachable_serving_only (fun _ _ => True) d hd trivial k st hst
  exact ⟨t, ht.of_only, hrest⟩

/-- A request, and then something that is no request. -/
def requestThenJunk : Chunk := ⟨text "GET / HTTP/1.1rA: b\r\n\r\nxxr", by decide, by decide⟩

/-- `HandleCurrentConn` is called on a connection that nothing holds any more. -/
theorem released_while_handled : ¬ ∀ s, (loops 3).Reachable s → ∀ x, s.phase = .handling x →
    (s.owners x.id).Nonempty := by
  intro hall
  obtain ⟨t, ht, hst, hp⟩ := reachable_serving (Dispatch.bringing FileSystem.blank requestThenJunk)
    (by decide) 7 ⟨false, false⟩ (by decide +kernel)
  have ho := hall t ht _ hp
  rw [owners_nonempty, EventLoop.owned_iff, hst] at ho
  simp only [Bool.false_eq_true, false_or] at ho
  exact ((reachable_ok ht).phase.handling _ hp).started ho

/-- A request that is answered leaves its connection held. -/
theorem held_while_handled_plainRequest :
    let d := Dispatch.bringing FileSystem.blank plainRequest
    (((serving.wait [(5, EventMask.inEt)]).begin 0 d []).owners 0).Nonempty ∧
      ∃ t, (loops 3).Reachable t ∧ t.phase = .handling ⟨0, d, serving.http 0, [], []⟩ ∧
        (t.owners 0).Nonempty := by
  have hclose : ¬ (Dispatch.bringing FileSystem.blank plainRequest).Closes (serving.http 0) := by
    decide +kernel
  constructor
  · have h1 := (serving_reachable_only fun d h => ¬ d.Closes h).step
      ⟨serving_wait (show EventMask.inEt.Reportable EventMask.inEt by decide),
        fun _ _ _ _ ha => nomatch ha⟩
    have h2 := h1.step ⟨Steps.begin (Dispatch.bringing FileSystem.blank plainRequest) rfl,
      fun id active d hp ha => by
        cases ha
        cases hp
        exact hclose⟩
    exact (held_while_handled 3).1 _ h2 _ rfl
  · obtain ⟨t, ht, -, hp⟩ := reachable_serving (Dispatch.bringing FileSystem.blank plainRequest)
      (by decide) ((Dispatch.bringing FileSystem.blank plainRequest).run
        (serving.http 0)).trace.length ⟨true, true⟩ (by decide +kernel)
    rw [List.drop_length] at hp
    exact ⟨t, ht, hp, ((held_while_handled 3).2 t ht _ hp rfl).mpr hclose⟩

end EventLoop

end FlashWeb
