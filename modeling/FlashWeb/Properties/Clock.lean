import FlashWeb.Properties.Ownership

/-!
# Connections and their timers

Every event takes the connection's node away and, as long as the connection stays open, is meant to
arm it again. The one event that does not is `HandleCurrentConn` finding `DISCONNECTING` with
`EPOLLOUT` asked for: it only sets the mask. In runs without such an event every registered
connection is on the clock. In every run a connection is closed by `HandleExpire` only when the time
of its last arming is up.
-/

namespace FlashWeb

open Lib

namespace EventLoop

variable {wakeupFd : Fd} {s : EventLoop} {id : HttpId}

/-! ## On the clock -/

/-- Exactly one node holds the connection; it is not deleted, and `timer_` points to it. -/
def OnTheClock (s : EventLoop) (id : HttpId) : Prop :=
  ∃ n ∈ s.timerManager.timerNodeQueue, n.data = some id ∧ n.isDeleted = false ∧
    s.timer id = some n.id ∧ ∀ k ∈ s.timerManager.timerNodeQueue, k.data = some id → k = n

/-- A connection that some node holds is on the clock. -/
theorem TablesOk.onTheClock_iff (hT : s.TablesOk wakeupFd) :
    s.OnTheClock id ↔ s.Timed id := by
  constructor
  · rintro ⟨n, hn, hd, -⟩
    exact ⟨n, hn, hd⟩
  · rintro ⟨n, hn, hd⟩
    refine ⟨n, hn, hd, ?_, (hT.timers.linked n hn id).mp hd,
      fun k hk hkd => hT.timers.unique hk hn hkd hd⟩
    cases hdel : n.isDeleted with
    | false => rfl
    | true =>
      rw [s.timerManager.emptied n hn hdel] at hd
      exact nomatch hd

/-- Registered connections are on the clock, or will be when their event has been handled. -/
structure Ticking (s : EventLoop) : Prop where
  rests : ∀ id, s.phase.current ≠ some id → s.Registered id → s.Timed id
  handling : ∀ x, s.phase = .handling x → ∃ st, (s.standing x.id).follow x.todo = some st ∧
    (st.registered = true → st.timed = true)

/-- A step that is not part of an event, and leaves every connection timed or as it was. -/
theorem Ticking.of_standing {t : EventLoop} (h : s.Ticking)
    (hs : ∀ x, s.phase ≠ .handling x) (ht : ∀ x, t.phase ≠ .handling x)
    (hst : ∀ id, t.standing id = s.standing id ∨
      ((t.standing id).registered = true → (t.standing id).timed = true)) : t.Ticking := by
  refine ⟨fun id _ hr => ?_, fun x hx => absurd hx (ht x)⟩
  have hcur : s.phase.current ≠ some id := by
    cases hp : s.phase with
    | handling x => exact absurd hp (hs x)
    | _ => simp [LoopPhase.current]
  rw [← standing_registered] at hr
  rw [← standing_timed]
  rcases hst id with h' | h'
  · rw [h', standing_registered] at hr
    rw [h', standing_timed]
    exact h.rests id hcur hr
  · exact h' hr

theorem Ticking.accept (h : s.Ticking) (hok : s.Ok wakeupFd) (fd : Fd) :
    (s.accept fd).Ticking := by
  refine ⟨fun id hc hr => ?_, fun x hx => ?_⟩
  · have hn : id ≠ s.accepted := by
      rintro rfl
      exact accept_not_registered hok hr
    have hst : (s.accept fd).standing id = s.standing id :=
      congrArg View.standing (accept_view_ne _ hn)
    rw [← standing_registered, hst, standing_registered] at hr
    rw [← standing_timed, hst, standing_timed]
    exact h.rests id hc hr
  · have hn : x.id ≠ s.accepted := (hok.phase.handling x hx).known.ne
    rw [show (s.accept fd).standing x.id = s.standing x.id from
      congrArg View.standing (accept_view_ne _ hn)]
    exact h.handling x hx

theorem Ticking.begin (h : s.Ticking) (hok : s.Ok wakeupFd) {d : Dispatch}
    {active : List Active} (hp : s.phase = .dispatching ((.http id, d.active) :: active))
    (hd : ¬ d.LeavesWaiting (s.http id)) : (s.begin id d active).Ticking := by
  have hcur : ∀ j, s.phase.current ≠ some j := fun j => by simp [hp, LoopPhase.current]
  refine ⟨fun j _ hr => h.rests j (hcur j) hr, fun x hx => ?_⟩
  obtain rfl : (⟨id, d, s.http id, (d.run (s.http id)).trace, active⟩ : Handling) = x := by
    simpa [EventLoop.begin] using hx
  have hr : s.Registered id :=
    (hok.phase.dispatching _ hp).registered id (List.mem_cons_self ..)
  obtain ⟨st, hf, ho⟩ := d.outcome (hok.live (hcur id) hr) true
  refine ⟨st, ?_, ho.armed rfl hd⟩
  rw [← hf]
  congr 1
  exact standing_eq ⟨fun _ => rfl, fun _ => hr⟩ ⟨fun _ => rfl, fun _ => h.rests id (hcur id) hr⟩

theorem Ticking.effect (h : s.Ticking) (hok : s.Ok wakeupFd) {x : Handling} {e : Effect}
    {todo : List Effect} (hp : s.phase = .handling x) (htodo : x.todo = e :: todo) :
    ((s.perform x.id e).enter (.handling { x with todo := todo })).Ticking := by
  obtain ⟨st, hf, hst⟩ := h.handling x hp
  rw [htodo, Standing.follow_cons, Option.bind_eq_some_iff] at hf
  obtain ⟨mid, he, hf⟩ := hf
  obtain ⟨-, hperf⟩ := perform_spec hok.tables he
  refine ⟨fun j hj hr => ?_, fun y hy => ?_⟩
  · have hji : j ≠ x.id := by
      rintro rfl
      exact hj rfl
    have hsame : ((s.perform x.id e).enter (.handling { x with todo := todo })).standing j =
      s.standing j := hperf.toConcerns.standing hji
    rw [← standing_registered, hsame, standing_registered] at hr
    rw [← standing_timed, hsame, standing_timed]
    exact h.rests j (by simpa [hp, LoopPhase.current] using hji.symm) hr
  · obtain rfl : { x with todo := todo } = y := by simpa [enter] using hy
    refine ⟨st, ?_, hst⟩
    rw [← hf, ← hperf.standing]
    rfl

theorem Ticking.handled (h : s.Ticking) {x : Handling} (hp : s.phase = .handling x)
    (htodo : x.todo = []) : (s.enter (.dispatching x.active)).Ticking := by
  obtain ⟨st, hf, hst⟩ := h.handling x hp
  rw [htodo, Standing.follow_nil, Option.some.injEq] at hf
  refine ⟨fun j _ hr => ?_, fun y hy => LoopPhase.noConfusion hy⟩
  by_cases hj : j = x.id
  · subst hj
    rw [← hf] at hst
    exact (s.standing_timed x.id).mp (hst ((s.standing_registered x.id).mpr hr))
  · exact h.rests j (by simpa [hp, LoopPhase.current] using fun he => hj he.symm) hr

theorem Ticking.step (h : s.Ticking) (hok : s.Ok wakeupFd) {a : LoopStep} {t : EventLoop}
    (hs : Steps wakeupFd s a t) (hb : Begins (fun d h => ¬ d.LeavesWaiting h) s a t) :
    t.Ticking := by
  have hnot : ∀ {p : LoopPhase}, s.phase = p → (∀ x, p ≠ .handling x) →
      ∀ x, s.phase ≠ .handling x := fun hp hn x => hp ▸ hn x
  cases hs with
  | accept fd => exact h.accept hok fd
  | tick ms => exact ⟨h.rests, h.handling⟩
  | wait returned hp =>
    exact h.of_standing (hnot hp (by simp)) (by simp [EventLoop.wait]) fun _ => Or.inl rfl
  | wakeup hp => exact h.of_standing (hnot hp (by simp)) (by simp [enter]) fun _ => Or.inl rfl
  | begin d hp => exact h.begin hok hp (hb _ _ d hp rfl)
  | effect hp htodo => exact h.effect hok hp htodo
  | handled hp htodo => exact h.handled hp htodo
  | swap hp => exact h.of_standing (hnot hp (by simp)) (by simp) fun _ => Or.inl rfl
  | @callback id batch hp =>
    have hid : id ∈ s.pending := by simp [EventLoop.pending, hp]
    obtain ⟨-, hc, hst, -⟩ := init_spec hok.toBaseOk hid
    refine h.of_standing (hnot hp (by simp)) (by simp [enter]) fun j => ?_
    by_cases hj : j = id
    · subst hj
      exact Or.inr fun _ => congrArg Standing.timed hst
    · exact Or.inl (hc.standing hj)
  | ran hp => exact h.of_standing (hnot hp (by simp)) (by simp [enter]) fun _ => Or.inl rfl
  | expire n hp htop =>
    refine h.of_standing (hnot hp (by simp)) (by simp [expire_phase, hp]) fun j => ?_
    rcases expire_standing hok.tables htop.1 (fun id => hok.registered_of_data hp htop.1) j with
      hst | hst
    · exact Or.inl hst
    · exact Or.inr fun hr => by simp [hst] at hr
  | rest hp => exact h.of_standing (hnot hp (by simp)) (by simp [enter]) fun _ => Or.inl rfl

theorem reachable_ticking
    (h : ((loops wakeupFd).only (Begins fun d h => ¬ d.LeavesWaiting h)).Reachable s) :
    s.Ticking := by
  refine h.invariant_only (I := Ticking) ?_ fun s a t hr hI hs hb => hI.step (reachable_ok hr) hs hb
  rintro s ⟨now, rfl⟩
  refine ⟨fun id _ hr => ?_, fun x hx => LoopPhase.noConfusion hx⟩
  exact absurd ((ok_construct wakeupFd now).owners.known id (Or.inl hr)) (Nat.not_lt_zero id)

/--
**Open connections are on the clock.** Between two events every registered connection has its node
in runs without an event that leaves its connection `DISCONNECTING` and waiting for `EPOLLOUT`;
after such an event the connection is registered and has none.
-/
theorem on_the_clock (wakeupFd : Fd) :
    (∀ s, ((loops wakeupFd).only (Begins fun d h => ¬ d.LeavesWaiting h)).Reachable s →
      (∀ x, s.phase ≠ .handling x) → ∀ id, s.Registered id → s.OnTheClock id) ∧
    ∀ s x t, (loops wakeupFd).Reachable s → s.phase = .handling x →
      Steps wakeupFd s .handled t → x.dispatch.LeavesWaiting x.found →
      t.Registered x.id ∧ ¬ t.OnTheClock x.id := by
  refine ⟨fun s h hn id hr => ?_, fun s x t h hp hs hw => ?_⟩
  · rw [(reachable_ok h.of_only).tables.onTheClock_iff]
    refine (reachable_ticking h).rests id ?_ hr
    cases hp : s.phase with
    | handling x => exact absurd hp (hn x)
    | _ => simp [LoopPhase.current]
  · have hx := (reachable_ok h).phase.handling x hp
    rw [(reachable_ok (h.step hs)).tables.onTheClock_iff]
    cases hs with
    | handled hp' htodo =>
      obtain rfl := LoopPhase.handling.inj (hp.symm.trans hp')
      obtain ⟨timed, st, hf, ho⟩ := hx.outcome
      rw [htodo, Standing.follow_nil, Option.some.injEq] at hf
      refine ⟨hx.registered fun hc => ?_, fun ht => ?_⟩
      · rcases hc.found with hc | hc | hc
        · exact Bool.noConfusion (hw.noError.symm.trans hc)
        · exact Bool.noConfusion (hw.epollout.symm.trans hc.2)
        · exact ConnectionState.noConfusion (hw.disconnecting.symm.trans hc.1)
      · have ht' : (s.standing x.id).timed = true := (s.standing_timed x.id).mpr ht
        rw [hf, ho.waiting hw] at ht'
        exact Bool.noConfusion ht'

/-- A connection whose request has just been answered is on the clock. -/
theorem on_the_clock_serving : ∃ x s t, (loops 3).Reachable s ∧ s.phase = .handling x ∧
    x.dispatch = .bringing .blank plainRequest ∧ Steps 3 s .handled t ∧ t.Registered x.id ∧
    t.OnTheClock x.id := by
  obtain ⟨s, hs, hst, hp⟩ := reachable_serving_only (fun d h => ¬ d.LeavesWaiting h)
    (.bringing .blank plainRequest) (by decide) (by decide)
    ((Dispatch.bringing .blank plainRequest).run (serving.http 0)).trace.length ⟨true, true⟩
    (by decide +kernel)
  rw [List.drop_length] at hp
  have hstep : Steps 3 s .handled (s.enter (.dispatching [])) := Steps.handled hp rfl
  have hrun := hs.step ⟨hstep, fun _ _ _ _ ha => LoopStep.noConfusion ha⟩
  have hr : (s.enter (.dispatching [])).Registered 0 := by
    rw [← standing_registered]
    exact congrArg Standing.registered hst
  exact ⟨_, s, _, hs.of_only, hp, rfl, hstep, hr,
    (on_the_clock 3).1 _ hrun (fun _ h => LoopPhase.noConfusion h) 0 hr⟩

/-- The peer takes only the beginning of the response, and no timer runs any more. -/
theorem impatientPeer_off_the_clock : ¬ ∀ s, (loops 3).Reachable s →
    (∀ x, s.phase ≠ .handling x) → ∀ id, s.Registered id → s.OnTheClock id := by
  intro hall
  obtain ⟨t, ht, hst, hp⟩ := reachable_serving impatientPeer (by decide)
    (impatientPeer.run (serving.http 0)).trace.length ⟨true, false⟩ (by decide +kernel)
  rw [List.drop_length] at hp
  have hr : t.Registered 0 := by
    rw [← standing_registered, hst]
  have hclock := hall _ (ht.step (Steps.handled hp rfl)) (fun _ h => LoopPhase.noConfusion h) 0 hr
  have htimed : t.Timed 0 :=
    (reachable_ok (ht.step (Steps.handled hp rfl))).tables.onTheClock_iff.mp hclock
  rw [← standing_timed, hst] at htimed
  exact Bool.noConfusion htimed

/-! ## Only the last arming counts -/

/--
**The timer never closes an active connection.** When `HandleExpire` closes a connection, the node
is the one of its last arming, and its timeout has passed since.
-/
theorem closed_when_due {t : EventLoop} {n : TimerNode} (h : (loops wakeupFd).Reachable s)
    (hs : Steps wakeupFd s (.expire n) t) (hc : t.closes id ≠ s.closes id) :
    ∃ a, s.armed id = some a ∧ a.node = n.id ∧ a.time + a.timeout ≤ s.now := by
  have hok := reachable_ok h
  cases hs with
  | expire n hp htop ho =>
    by_cases hd : n.data = some id
    · exact hok.tables.timers.elapsed htop.1 hd ho
    · refine absurd ?_ hc
      cases hn : n.data with
      | none => simp [EventLoop.expire, hn]
      | some j =>
        obtain ⟨-, hperf⟩ := expire_spec hok.tables htop.1 hn (hok.registered_of_data hp htop.1 hn)
        exact congrArg View.closes (hperf.others id (by rintro rfl; exact hd hn))

/-- After three seconds in which nothing happened. -/
theorem closed_when_due_timedOut :
    (timedOut.expire servingNode).closes 0 = 1 ∧
      ∃ a, timedOut.armed 0 = some a ∧ a.node = servingNode.id ∧
        a.time + a.timeout ≤ timedOut.now :=
  ⟨rfl, closed_when_due timedOut_reachable timedOut_expire (by decide)⟩

end EventLoop

end FlashWeb
