import FlashWeb.Properties.Progress
import FlashWeb.Properties.Refinement

/-!
# Every event that is reported is handled

`EpollWait` turns what the kernel reported into a list of channels, and the loop calls
`HandleEvents` on one after the other. The channel of a connection stays in the list until its turn
comes: nothing that is done for the others takes it out, and the loop does not wait again before.
-/

namespace FlashWeb

open Lib System

namespace EventLoop

variable {wakeupFd : Fd} {s t : EventLoop} {id : HttpId} {a : LoopStep} {events : EventMask}

/-- `HandleEvents` runs on the channel of the connection, with these events. -/
def Handles (s : EventLoop) (id : HttpId) (events : EventMask) : Prop :=
  ∃ x, s.phase = .handling x ∧ x.id = id ∧ x.dispatch.active = events

/-- A channel in the list is only taken out for its own event. -/
theorem active_step (hs : Steps wakeupFd s a t) (h : (.http id, events) ∈ s.active) :
    (.http id, events) ∈ t.active ∨ t.Handles id events := by
  unfold active at h
  cases hs with
  | accept fd => exact Or.inl h
  | tick ms => exact Or.inl h
  | wait returned hp => simp [hp] at h
  | wakeup hp =>
    rw [hp, List.mem_cons] at h
    exact Or.inl (h.resolve_left (by simp))
  | @begin j active d hp =>
    rw [hp, List.mem_cons] at h
    rcases h with h | h
    · obtain ⟨hid, hevents⟩ := Prod.mk.inj h
      exact Or.inr ⟨_, rfl, (ChannelRef.http.inj hid).symm, hevents.symm⟩
    · exact Or.inl h
  | effect hp =>
    rw [hp] at h
    exact Or.inl h
  | handled hp =>
    rw [hp] at h
    exact Or.inl h
  | swap hp => simp [hp] at h
  | callback hp => simp [hp] at h
  | ran hp => simp [hp] at h
  | expire n hp => simp [hp] at h
  | rest hp => simp [hp] at h

/-- While a channel is in the list the loop dispatches. -/
theorem stage_of_active (h : (.http id, events) ∈ s.active) : s.phase.stage = .dispatching := by
  unfold active at h
  cases hp : s.phase <;> simp [hp] at h <;> rfl

/-- **Each step of the loop's own brings the turn of a channel in the list nearer.** -/
theorem active_approaches (hs : Steps wakeupFd s a t) (h : (.http id, events) ∈ s.active) :
    Forever.Approaches (fun s => (.http id, events) ∈ s.active) (fun s => s.Handles id events)
      LoopStep.Own Lex work s a t := by
  rcases active_step hs h with h' | hQ
  · cases step_advances hs with
    | outside hother _ hwork => exact .waits h' hother hwork
    | next _ hstage =>
      rw [stage_of_active h', stage_of_active h] at hstage
      simp [LoopStage.next] at hstage
    | less _ _ hless => exact .nearer h' hless
  · exact .arrives hQ

theorem polling_of_wait {returned : List (Fd × EventMask)}
    (hs : Steps wakeupFd s (.wait returned) t) : s.phase = .polling := by
  cases hs with
  | wait _ hp => exact hp

/-- `EpollWait` returns the channel of every registered connection that is reported. -/
theorem active_of_wait (hok : s.Ok wakeupFd) {returned : List (Fd × EventMask)}
    (hs : Steps wakeupFd s (.wait returned) t) (hid : s.Registered id)
    (hr : (s.fdOf id, events) ∈ returned) : (.http id, events) ∈ t.active := by
  cases hs with
  | wait _ hp _ _ hrep =>
    have hchan : ∀ r ∈ returned, ∃ c, s.fd2channel r.1 = some (some c) := by
      intro r hrr
      obtain ⟨mask, hm, -⟩ := hrep r hrr
      exact hok.tables.entries.channel_of_interest (by rw [hm]; rfl)
    have hact : (s.wait returned).active = (epollWait s.fd2channel returned).2 := rfl
    rw [hact, epollWait_eq s.fd2channel returned hchan, List.mem_filterMap]
    refine ⟨_, hr, ?_⟩
    rw [reported, (hok.tables.entries.of_https hid).2.2.1]
    rfl

/--
**Every event that is reported is handled.** When the kernel reports events on the descriptor of a
connection that is registered, and the loop keeps taking steps, `HandleEvents` runs on its channel
with these events, and the loop does not wait again before.
-/
theorem event_handled_in_time (run : (loops wakeupFd).Forever) (hfair : run.Fair LoopStep.Own)
    {n : ℕ} {returned : List (Fd × EventMask)} (hn : run.label n = .wait returned) {id : HttpId}
    (hid : (run.state n).Registered id) {events : EventMask}
    (hr : ((run.state n).fdOf id, events) ∈ returned) :
    ∃ m, n < m ∧ (run.state m).Handles id events ∧
      ∀ k, n < k → k < m → ∀ returned', run.label k ≠ .wait returned' := by
  have hwait := hn ▸ run.step n
  have hP := active_of_wait (reachable_ok (run.reachable n)) hwait hid hr
  have hQ := run.leadsTo (P := fun s => (.http id, events) ∈ s.active)
    (Q := fun s => s.Handles id events) (μ := work) lex_wf hfair
    (fun s a t _ h hs => active_approaches hs h) hP
  obtain ⟨m, hm, hhandles, hbefore⟩ := run.first_of_leadsTo
    (P := fun s => (.http id, events) ∈ s.active) (Q := fun s => s.Handles id events)
    (fun k _ h => active_step (run.step k) h) hP hQ
  refine ⟨m, hm, hhandles, fun k hk hkm returned' hlabel => ?_⟩
  have hactive := hbefore k hk hkm
  have hp := polling_of_wait (hlabel ▸ run.step k)
  simp [active, hp] at hactive

/-- The peer of a connection is gone before its first request. -/
def hangup : Dispatch := ⟨{ EventMask.zero with epollhup := true }, [], [], .blank, 0⟩

/-- The loop when the event is over. -/
def hungUp : EventLoop := ((serving.wait [(5, hangup.active)]).begin 0 hangup []).enter .polling

theorem hangup_forever :
    ∃ run : (loops 3).Forever, run.state 0 = serving ∧
      run.label 0 = .wait [(5, hangup.active)] ∧ run.Fair LoopStep.Own := by
  let begun := (serving.wait [(5, hangup.active)]).begin 0 hangup []
  have hrest : hungUp.timerManager.timerNodeQueue = [] ∨
      ∃ n, hungUp.timerManager.IsTop n ∧ n.isOver hungUp.now = false :=
    Or.inr ⟨servingNode, by decide, by decide⟩
  have h1 : Steps 3 serving (.wait [(5, hangup.active)]) (serving.wait [(5, hangup.active)]) :=
    serving_wait (by decide)
  have h2 : (loops 3).OwnStep LoopStep.Own (serving.wait [(5, hangup.active)]) begun :=
    ⟨.begin hangup, trivial, Steps.begin hangup rfl⟩
  have h3 : (loops 3).OwnStep LoopStep.Own begun (begun.enter (.dispatching [])) :=
    ⟨.handled, trivial,
      Steps.handled (s := begun) (h := ⟨0, hangup, serving.http 0, [], []⟩) rfl rfl⟩
  have h4 : (loops 3).OwnStep LoopStep.Own (begun.enter (.dispatching []))
      (begun.enter (.running [])) := ⟨.swap, trivial, Steps.swap rfl⟩
  have h5 : (loops 3).OwnStep LoopStep.Own (begun.enter (.running []))
      (begun.enter .expiring) := ⟨.ran, trivial, Steps.ran rfl⟩
  have h6 : (loops 3).OwnStep LoopStep.Own (begun.enter .expiring) hungUp :=
    ⟨.rest, trivial, Steps.rest rfl hrest⟩
  have hround : Relation.TransGen ((loops 3).OwnStep LoopStep.Own) hungUp hungUp := by
    have hquiet := woken_turn (s := hungUp) (u := hungUp) rfl (by decide) rfl rfl rfl .refl hrest
    refine Relation.TransGen.mono ?_ _ _ hquiet
    rintro s t ⟨a, ha, hstep⟩
    exact ⟨a, ha.1, hstep⟩
  obtain ⟨run, hrun, hown⟩ := exists_forever_of_cycle (serving_reachable.step h1)
    (((((Relation.TransGen.single h2).tail h3).tail h4).tail h5).tail h6) hround
  obtain ⟨run', hstate, hlabel, hrest⟩ := run.exists_cons serving_reachable (hrun ▸ h1)
  refine ⟨run', hstate, hlabel, fun n => ⟨n + 1, Nat.le_succ n, ?_⟩⟩
  rw [hrest n]
  exact hown n

/-- The event that ends a connection is handled. -/
theorem event_handled_in_time_hangup : ∃ run : (loops 3).Forever, run.state 0 = serving ∧
    ∃ m, (run.state m).Handles 0 hangup.active := by
  obtain ⟨run, hstate, hlabel, hfair⟩ := hangup_forever
  have hid : (run.state 0).Registered 0 := by
    rw [hstate]
    exact rfl
  have hr : ((run.state 0).fdOf 0, hangup.active) ∈ [(5, hangup.active)] := by
    rw [hstate]
    exact List.mem_singleton_self _
  obtain ⟨m, -, hhandles, -⟩ := event_handled_in_time run hfair hlabel hid hr
  exact ⟨run, hstate, m, hhandles⟩

end EventLoop

end FlashWeb
