import FlashWeb.Properties.LoopInvariant

/-!
# Registry consistency

Every step of a loop preserves its invariant (`Ok.step`), one lemma for each step. Along any run the
two maps have the same keys and no null channel, `EpollAdd` adds and `EpollDel` removes exactly one
entry, and no connection is closed twice.
-/

namespace FlashWeb

open Lib

namespace EventLoop

variable {wakeupFd : Fd} {s : EventLoop} {id : HttpId}

/-! ## Steps -/

/-- A connection whose `Init` is queued is held by nothing else. -/
theorem BaseOk.not_pending (h : s.BaseOk wakeupFd) (hr : s.Registered id) : id ∉ s.pending := by
  intro hp
  have hst := (h.fresh id hp).standing
  rw [← standing_registered] at hr
  rw [show s.standing id = ⟨false, false⟩ from hst] at hr
  exact Bool.noConfusion hr

theorem Ok.live (h : s.Ok wakeupFd) (hc : s.phase.current ≠ some id)
    (hr : s.Registered id) : (s.http id).Live :=
  (h.rests id hc).live ((s.standing_registered id).mpr hr)

/-- Moving on to another phase. -/
theorem BaseOk.enter (h : s.BaseOk wakeupFd) {p : LoopPhase}
    (hp : (s.enter p).pending = s.pending) : (s.enter p).BaseOk wakeupFd where
  tables := ⟨h.tables.entries, h.tables.timers, h.tables.adds, h.tables.dels⟩
  owners := h.owners.mono rfl rfl (fun id hid => by
    rw [owned_iff, hp] at hid
    exact (s.owned_iff id).mpr hid) fun _ _ => rfl
  fresh id hid := h.fresh id (hp ▸ hid)
  pendingNodup := hp ▸ h.pendingNodup

theorem Performed.baseOk {t : EventLoop} {st : Standing} (hp : s.Performed t id st)
    (h : s.BaseOk wakeupFd) (hT : t.TablesOk wakeupFd) (hid : id ∉ s.pending)
    (hst : st.registered = true ∨ st.timed = true → s.Owned id) : t.BaseOk wakeupFd where
  tables := hT
  owners := hp.ownersOk h.owners hst
  fresh j hj := by
    rw [hp.pending] at hj
    have hji : j ≠ id := by
      rintro rfl
      exact hid hj
    rw [hp.others j hji]
    exact h.fresh j hj
  pendingNodup := hp.pending ▸ h.pendingNodup

theorem ok_construct (wakeupFd : Fd) (now : Nat) : (construct wakeupFd now).Ok wakeupFd := by
  have hreg : ∀ id, ¬ (construct wakeupFd now).Registered id := by
    intro id
    show Function.update (fun _ => none) wakeupFd (some none) _ ≠ some (some id)
    rw [Function.update_apply]
    split <;> simp
  have htimed : ∀ id, ¬ (construct wakeupFd now).Timed id := by
    rintro id ⟨n, hn, -⟩
    exact nomatch hn
  have hst : ∀ id, (construct wakeupFd now).standing id = ⟨false, false⟩ := fun id =>
    standing_eq (by simp [hreg]) (by simp [htimed])
  have howned : ∀ id, ¬ (construct wakeupFd now).Owned id := by
    rintro id (h | h | h)
    · exact hreg id h
    · exact htimed id h
    · exact nomatch h
  refine ⟨⟨⟨fun fd => ?_, TimersOk.empty _ fun _ => rfl, ?_, ?_⟩,
    ⟨fun id h => absurd h (howned id), fun id h => absurd h (howned id),
      fun id j h => absurd h (howned id), fun _ _ => rfl⟩, fun id h => (nomatch h), List.nodup_nil⟩,
    fun id _ => View.rests_of_unheld (hst id) (Nat.zero_le 1),
    .of_idle (by simp [construct, epollAdd]) (by simp [construct, epollAdd])⟩
  · by_cases hfd : fd = wakeupFd
    · subst hfd
      exact .wakeup rfl (Function.update_self ..) (Function.update_self ..)
        (by
          show (Function.update (fun _ => none) fd (some EventMask.inEt) fd).isSome = true
          rw [Function.update_self]
          rfl)
    · exact .absent (Function.update_of_ne hfd ..) (Function.update_of_ne hfd ..)
        (Function.update_of_ne hfd ..)
  · intro b hb
    exact List.mem_singleton.mp hb
  · intro n hn
    exact nomatch hn

theorem Ok.retime (h : s.Ok wakeupFd) (ms timeoutCount : Nat) :
    ({ s with now := s.now + ms, timeoutCount := timeoutCount }).Ok wakeupFd where
  tables := ⟨h.tables.entries, h.tables.timers.tick ms, h.tables.adds, h.tables.dels⟩
  owners := h.owners.mono rfl rfl (fun _ hid => hid) fun _ _ => rfl
  fresh := h.fresh
  pendingNodup := h.pendingNodup
  rests := h.rests
  phase := by
    refine ⟨fun active hs => ?_, fun x hs => ?_⟩
    · have ha := h.phase.dispatching active hs
      exact ⟨ha.nodup, ha.registered⟩
    · have hx := h.phase.handling x hs
      exact ⟨⟨hx.active.nodup, hx.active.registered⟩, hx.later, hx.started, hx.known, hx.http,
        hx.unclosed, hx.once, hx.outcome⟩

/-! ### accept -/

section

variable {fd : Fd}

theorem accept_view_ne (fd : Fd) {j : HttpId} (hj : j ≠ s.accepted) :
    (s.accept fd).view j = s.view j := by
  refine view_congr ?_ Iff.rfl (Function.update_of_ne hj ..) rfl
  show s.fd2http (Function.update s.fdOf s.accepted fd j) = _ ↔ _
  rw [Function.update_of_ne hj]
  rfl

theorem accept_pending (fd : Fd) : (s.accept fd).pending = s.pending ++ [s.accepted] := by
  unfold EventLoop.pending EventLoop.accept
  cases s.phase <;> simp

theorem accept_not_registered (h : s.Ok wakeupFd) :
    ¬ (s.accept fd).Registered s.accepted := by
  show s.fd2http (Function.update s.fdOf s.accepted fd s.accepted) ≠ some (some s.accepted)
  rw [Function.update_self]
  intro hr
  have hfd := (h.tables.entries.of_https hr).1
  rw [← hfd] at hr
  exact absurd (h.owners.known s.accepted (Or.inl hr)) (Nat.lt_irrefl _)

/-- A new connection has the next number, which nothing owns yet. -/
theorem OwnersOk.new_unowned (h : s.OwnersOk wakeupFd) : ¬ s.Owned s.accepted :=
  fun ho => absurd (h.known _ ho) (Nat.lt_irrefl _)

theorem accept_standing_ne (fd : Fd) {j : HttpId} (hj : j ≠ s.accepted) :
    (s.accept fd).standing j = s.standing j := congrArg View.standing (accept_view_ne fd hj)

theorem accept_fdOf_ne (fd : Fd) {j : HttpId} (hj : j ≠ s.accepted) :
    (s.accept fd).fdOf j = s.fdOf j := Function.update_of_ne hj ..

/-- Who has an owner afterwards is the new connection or had one. -/
theorem owned_accept (hid : (s.accept fd).Owned id) :
    id = s.accepted ∨ (id ≠ s.accepted ∧ s.Owned id) := by
  by_cases hn : id = s.accepted
  · exact Or.inl hn
  · refine Or.inr ⟨hn, ?_⟩
    rw [owned_iff, accept_pending, accept_standing_ne fd hn] at hid
    rw [owned_iff]
    simpa [hn] using hid

theorem Ok.accept_fresh (h : s.Ok wakeupFd) : ((s.accept fd).view s.accepted).Fresh := by
  refine ⟨standing_eq ?_ ?_, Function.update_self .., h.owners.unused _ le_rfl⟩
  · simp [accept_not_registered h]
  · have ht : ¬ (s.accept fd).Timed s.accepted :=
      fun ht => h.owners.new_unowned (Or.inr (Or.inl ht))
    simp [ht]

/-- The kernel gives a descriptor that is not open. -/
theorem OwnersOk.accept (h : s.OwnersOk wakeupFd) (hw : fd ≠ wakeupFd)
    (hfree : ∀ id, s.Owned id → s.fdOf id ≠ fd) : (s.accept fd).OwnersOk wakeupFd := by
  have hnew : (s.accept fd).fdOf s.accepted = fd := Function.update_self ..
  constructor
  · intro id hid
    rcases owned_accept hid with rfl | ⟨-, ho⟩
    · exact Nat.lt_succ_self _
    · exact Nat.lt_succ_of_lt (h.known id ho)
  · intro id hid
    rcases owned_accept hid with rfl | ⟨hn, ho⟩
    · rw [hnew]
      exact hw
    · rw [accept_fdOf_ne fd hn]
      exact h.notWakeup id ho
  · intro id j hid hj he
    rcases owned_accept hid with rfl | ⟨hn, ho⟩ <;> rcases owned_accept hj with rfl | ⟨hnj, hoj⟩
    · rfl
    · rw [hnew, accept_fdOf_ne fd hnj] at he
      exact absurd he.symm (hfree j hoj)
    · rw [hnew, accept_fdOf_ne fd hn] at he
      exact absurd he (hfree id ho)
    · rw [accept_fdOf_ne fd hn, accept_fdOf_ne fd hnj] at he
      exact h.apart id j ho hoj he
  · intro id hid
    exact h.unused id (Nat.le_of_succ_le hid)

/-- A connection that comes in while another one is handled changes nothing about that. -/
theorem Ok.phase_accept (h : s.Ok wakeupFd) : (s.accept fd).PhaseOk := by
  have hactive : ∀ {active : List Active}, s.ActiveOk active → (s.accept fd).ActiveOk active := by
    intro active ha
    refine ⟨ha.nodup, fun j hj => ?_⟩
    have hr := ha.registered j hj
    have hn : j ≠ s.accepted := (h.owners.known j (Or.inl hr)).ne
    rw [← standing_registered, accept_standing_ne fd hn, standing_registered]
    exact hr
  refine ⟨fun active hs => hactive (h.phase.dispatching active hs), fun x hs => ?_⟩
  have hx := h.phase.handling x hs
  have hn : x.id ≠ s.accepted := hx.known.ne
  have hst := accept_standing_ne fd hn
  have hreg : (s.accept fd).Registered x.id → s.Registered x.id := fun hr => by
    rw [← standing_registered, hst] at hr
    exact (s.standing_registered x.id).mp hr
  refine ⟨hactive hx.active, hx.later, ?_, Nat.lt_succ_of_lt hx.known, fun hr => ?_,
    fun hr => hx.unclosed (hreg hr), hx.once, ?_⟩
  · rw [accept_pending]
    simpa [hn] using hx.started
  · rw [show (s.accept fd).http x.id = s.http x.id from
      congrArg View.http (accept_view_ne fd hn)]
    exact hx.http (hreg hr)
  · rw [hst]
    exact hx.outcome

theorem Ok.accept (h : s.Ok wakeupFd) (hw : fd ≠ wakeupFd)
    (hfree : ∀ id, s.Owned id → s.fdOf id ≠ fd) : (s.accept fd).Ok wakeupFd := by
  have hnew := h.owners.new_unowned
  have hself : ((s.accept fd).view s.accepted).Fresh := h.accept_fresh
  refine ⟨⟨⟨h.tables.entries.accept (fun hr => hnew (Or.inl hr)) fd,
    h.tables.timers.accept fun ht => hnew (Or.inr (Or.inl ht)), h.tables.adds, h.tables.dels⟩,
    h.owners.accept hw hfree, fun id hid => ?_, ?_⟩, fun id hid => ?_, h.phase_accept⟩
  · -- the connections that wait for their `Init` are those before and the new one
    rw [accept_pending] at hid
    rcases List.mem_append.mp hid with hp | hp
    · have hn : id ≠ s.accepted := (h.owners.known id (Or.inr (Or.inr hp))).ne
      rw [accept_view_ne fd hn]
      exact h.fresh id hp
    · rw [List.mem_singleton.mp hp]
      exact hself
  · rw [accept_pending]
    refine List.nodup_append.mpr ⟨h.pendingNodup, by simp, fun a ha b hb => ?_⟩
    rw [List.mem_singleton.mp hb]
    exact (h.owners.known a (Or.inr (Or.inr ha))).ne
  · by_cases hn : id = s.accepted
    · rw [hn]
      exact View.rests_of_unheld hself.standing (hself.closes.trans_le (Nat.zero_le 1))
    · rw [accept_view_ne fd hn]
      exact h.rests id hid

end

/-! ### EpollWait -/

/-- The channel that a reported descriptor has. -/
def reported (map : Fd → Option (Option ChannelRef)) (fd : Fd) : Option ChannelRef :=
  (map fd).join

/-- `fd2channel_[fd]` creates nothing when every reported descriptor has a channel. -/
theorem epollWait_eq (map : Fd → Option (Option ChannelRef)) : ∀ returned : List (Fd × EventMask),
    (∀ r ∈ returned, ∃ c, map r.1 = some (some c)) →
    epollWait map returned =
      (map, returned.filterMap fun r => (reported map r.1).map fun c => (c, r.2))
  | [], _ => rfl
  | (fd, events) :: returned, h => by
    obtain ⟨c, hc⟩ := h (fd, events) (List.mem_cons_self ..)
    have ih := epollWait_eq map returned fun r hr => h r (List.mem_cons_of_mem _ hr)
    simp only at hc
    simp [epollWait, hc, ih, reported]

theorem reported_fst (map : Fd → Option (Option ChannelRef)) (returned : List (Fd × EventMask)) :
    (returned.filterMap fun r => (reported map r.1).map fun c => (c, r.2)).map Prod.fst =
      (returned.map Prod.fst).filterMap (reported map) := by
  rw [List.map_filterMap, List.filterMap_map]
  congr 1
  funext r
  cases h : reported map r.1 <;> simp [h]

theorem TablesOk.reported_inj (hT : s.TablesOk wakeupFd) {fd fd' : Fd} {c : ChannelRef}
    (h : c ∈ reported s.fd2channel fd) (h' : c ∈ reported s.fd2channel fd') : fd = fd' := by
  have h1 : s.fd2channel fd = some (some c) := Option.join_eq_some_iff.mp h
  have h2 : s.fd2channel fd' = some (some c) := Option.join_eq_some_iff.mp h'
  cases c with
  | wakeup =>
    exact (hT.entries.wakeup_of_channel h1).trans (hT.entries.wakeup_of_channel h2).symm
  | http id => exact (hT.entries.of_channel h1).1.symm.trans (hT.entries.of_channel h2).1

theorem Ok.wait (h : s.Ok wakeupFd) {returned : List (Fd × EventMask)}
    (hp : s.phase = .polling) (hn : (returned.map Prod.fst).Nodup)
    (hr : ∀ r ∈ returned, ∃ mask, s.interest r.1 = some mask ∧ mask.Reportable r.2) :
    (s.wait returned).Ok wakeupFd := by
  have hT := h.tables
  have hchan : ∀ r ∈ returned, ∃ c, s.fd2channel r.1 = some (some c) := by
    intro r hrr
    obtain ⟨mask, hm, -⟩ := hr r hrr
    exact hT.entries.channel_of_interest (by rw [hm]; rfl)
  unfold EventLoop.wait
  rw [epollWait_eq s.fd2channel returned hchan]
  dsimp only
  generalize hact : (returned.filterMap fun r =>
    (reported s.fd2channel r.1).map fun c => (c, r.2)) = active
  generalize (if active.length = 0 then s.timeoutCount + 1 else s.timeoutCount) = count
  have hs := h.retime 0 count
  refine ⟨hs.toBaseOk.enter (p := .dispatching active) ?_, fun id _ => ?_,
    .of_dispatching rfl ⟨?_, fun id hid => ?_⟩⟩
  · simp [EventLoop.pending, enter, hp]
  · exact h.rests id (by simp [hp, LoopPhase.current])
  · rw [show active.map Prod.fst = _ from hact ▸ reported_fst s.fd2channel returned]
    exact hn.filterMap fun fd fd' c hc hc' => hT.reported_inj hc hc'
  · rw [← hact, reported_fst, List.mem_filterMap] at hid
    obtain ⟨fd, -, hfd⟩ := hid
    obtain ⟨hid, hreg⟩ := hT.entries.of_channel (Option.join_eq_some_iff.mp hfd)
    show s.fd2http (s.fdOf id) = some (some id)
    rw [hid]
    exact hreg

/-! ### HandleEvents -/

theorem ActiveOk.tail {a : Active} {active : List Active} (h : s.ActiveOk (a :: active)) :
    s.ActiveOk active where
  nodup := (List.nodup_cons.mp h.nodup).2
  registered id hid := h.registered id (List.mem_cons_of_mem _ hid)

theorem Ok.wakeup (h : s.Ok wakeupFd) {events : EventMask} {active : List Active}
    (hp : s.phase = .dispatching ((.wakeup, events) :: active)) :
    (s.enter (.dispatching active)).Ok wakeupFd := by
  have ht := (h.phase.dispatching _ hp).tail
  refine ⟨h.toBaseOk.enter ?_, fun id _ => ?_, .of_dispatching rfl ⟨ht.nodup, ht.registered⟩⟩
  · simp [EventLoop.pending, enter, hp]
  · exact h.rests id (by simp [hp, LoopPhase.current])

theorem Ok.begin (h : s.Ok wakeupFd) {d : Dispatch} {active : List Active}
    (hp : s.phase = .dispatching ((.http id, d.active) :: active)) :
    (s.begin id d active).Ok wakeupFd := by
  have hact := h.phase.dispatching _ hp
  have hreg : s.Registered id := hact.registered id (List.mem_cons_self ..)
  have hcur : s.phase.current ≠ some id := by simp [hp, LoopPhase.current]
  have hrest := h.rests id hcur
  have hpend : (s.begin id d active).pending = s.pending := by
    simp [EventLoop.pending, EventLoop.begin, hp]
  have hview : ∀ j, j ≠ id → (s.begin id d active).view j = s.view j := fun j hj =>
    view_congr Iff.rfl Iff.rfl (Function.update_of_ne hj ..) rfl
  refine ⟨⟨⟨h.tables.entries, h.tables.timers, h.tables.adds, h.tables.dels⟩,
    h.owners.mono rfl rfl (fun j hj => ?_) fun _ _ => rfl, fun j hj => ?_, hpend ▸ h.pendingNodup⟩,
    fun j hj => ?_, .of_handling rfl ?_⟩
  · rw [owned_iff, hpend] at hj
    exact (s.owned_iff j).mpr hj
  · rw [hpend] at hj
    have hji : j ≠ id := by
      rintro rfl
      exact h.not_pending hreg hj
    rw [hview j hji]
    exact h.fresh j hj
  · have hji : j ≠ id := by
      rintro rfl
      exact hj rfl
    rw [hview j hji]
    exact h.rests j (by simp [hp, LoopPhase.current])
  · -- the calls that the event makes are known before the first of them is carried out
    have hl := h.live hcur hreg
    have ht := hact.tail
    obtain ⟨st, hf, ho⟩ := d.outcome hl (s.standing id).timed
    refine ⟨⟨ht.nodup, ht.registered⟩, (List.nodup_cons.mp hact.nodup).1, ?_,
      h.owners.known id (Or.inl hreg), fun _ => Function.update_self ..,
      fun _ => hrest.unclosed ((s.standing_registered id).mpr hreg), hrest.once, _, st, ?_, ho⟩
    · rw [hpend]
      exact h.not_pending hreg
    · rw [← hf]
      congr 1
      exact standing_eq ⟨fun _ => rfl, fun _ => hreg⟩ (s.standing_timed id).symm

theorem Ok.effect (h : s.Ok wakeupFd) {x : Handling} {e : Effect} {todo : List Effect}
    (hp : s.phase = .handling x) (htodo : x.todo = e :: todo) :
    ((s.perform x.id e).enter (.handling { x with todo := todo })).Ok wakeupFd := by
  have hx := h.phase.handling x hp
  obtain ⟨timed, st, hf, ho⟩ := hx.outcome
  rw [htodo, Standing.follow_cons, Option.bind_eq_some_iff] at hf
  -- `mid` is where the connection stands between this call and the rest of them
  obtain ⟨mid, he, hf⟩ := hf
  obtain ⟨hT, hperf⟩ := perform_spec h.tables he
  have hheld : mid.registered = true ∨ mid.timed = true → s.Owned x.id := fun hm => by
    rw [owned_iff]
    exact (Effect.standing_held he hm).imp_right Or.inl
  have hbase := hperf.baseOk h.toBaseOk hT hx.started hheld
  have hpend : ((s.perform x.id e).enter (.handling { x with todo := todo })).pending =
      (s.perform x.id e).pending := by
    simp [EventLoop.pending, enter, hperf.phase, hp]
  have hact := hperf.activeOk hx.active hx.later
  have hreg : (s.perform x.id e).Registered x.id → s.Registered x.id := fun hr => by
    rw [← standing_registered]
    refine Effect.standing_registered he ?_
    rw [← hperf.standing, standing_registered]
    exact hr
  refine ⟨hbase.enter hpend, fun j hj => ?_, .of_handling rfl ?_⟩
  · have hji : j ≠ x.id := by
      rintro rfl
      exact hj rfl
    have hrest := h.rests j (by simpa [hp, LoopPhase.current] using hji.symm)
    rw [← hperf.others j hji] at hrest
    exact hrest
  · refine ⟨⟨hact.nodup, hact.registered⟩, hx.later, ?_, hperf.accepted ▸ hx.known,
      fun hr => ?_, fun hr => ?_, ?_, timed, st, ?_, ho⟩
    · rw [hpend, hperf.pending]
      exact hx.started
    · exact (hperf.kept hr).1.trans (hx.http (hreg hr))
    · exact (hperf.kept hr).2.trans (hx.unclosed (hreg hr))
    · show (s.perform x.id e).closes x.id ≤ 1
      rcases hperf.counted with hc | ⟨hr, hc⟩
      · rw [hc]
        exact hx.once
      · rw [hc, hx.unclosed hr]
    · rw [← hf, ← hperf.standing]
      rfl

theorem Ok.handled (h : s.Ok wakeupFd) {x : Handling} (hp : s.phase = .handling x)
    (htodo : x.todo = []) : (s.enter (.dispatching x.active)).Ok wakeupFd := by
  have hx := h.phase.handling x hp
  obtain ⟨timed, st, hf, ho⟩ := hx.outcome
  rw [htodo, Standing.follow_nil, Option.some.injEq] at hf
  refine ⟨h.toBaseOk.enter ?_, fun j _ => ?_,
    .of_dispatching rfl ⟨hx.active.nodup, hx.active.registered⟩⟩
  · simp [EventLoop.pending, enter, hp]
  · by_cases hj : j = x.id
    · subst hj
      refine ⟨fun ht => ?_, fun hr => ?_, fun hr => hx.unclosed ?_, hx.once⟩
      · show (s.standing x.id).registered = true
        rw [hf]
        exact ho.gone (hf ▸ ht)
      · show (s.http x.id).Live
        rw [hx.http ((s.standing_registered x.id).mp hr)]
        exact ho.live (hf ▸ hr)
      · exact (s.standing_registered x.id).mp hr
    · exact h.rests j (by simpa [hp, LoopPhase.current] using fun he => hj he.symm)

/-! ### DoCallbacks -/

theorem Ok.swap (h : s.Ok wakeupFd) (hp : s.phase = .dispatching []) :
    ({ s with callbackList := [], phase := .running s.callbackList }).Ok wakeupFd := by
  have hpend : ({ s with callbackList := [], phase := .running s.callbackList }).pending =
      s.pending := by
    simp [EventLoop.pending, hp]
  refine ⟨⟨⟨h.tables.entries, h.tables.timers, h.tables.adds, h.tables.dels⟩,
    h.owners.mono rfl rfl (fun id hid => ?_) fun _ _ => rfl, fun id hid => ?_,
    hpend ▸ h.pendingNodup⟩, fun id _ => ?_, .of_idle (by simp) (by simp)⟩
  · rw [owned_iff, hpend] at hid
    exact (s.owned_iff id).mpr hid
  · rw [hpend] at hid
    exact h.fresh id hid
  · exact h.rests id (by simp [hp, LoopPhase.current])

/-- `Init` is called through the `shared_ptr` that its callback holds. -/
theorem init_eq (hid : id ∈ s.pending) : s.init id =
    { s with
      fd2channel := insert s.fd2channel (s.fdOf id) (some (.http id))
      fd2http := insert s.fd2http (s.fdOf id) (some id)
      interest := insert s.interest (s.fdOf id) EventMask.inEt
      timerManager := s.timerManager.addTimerNode id DEFAULT_EXPIRE_TIME s.now
      http := Function.update s.http id
        { s.http id with toListenEvents := EventMask.inEt }
      timer := Function.update s.timer id (some s.timerManager.created)
      armed := Function.update s.armed id
        (some ⟨s.timerManager.created, s.now, DEFAULT_EXPIRE_TIME⟩)
      adds := s.adds ++
        [(s.fd2channel (s.fdOf id)).isNone && (s.fd2http (s.fdOf id)).isNone] } := by
  have howned : ∀ t : EventLoop, t.pending = s.pending → t.Owned id := fun t ht =>
    Or.inr (Or.inr (ht ▸ hid))
  unfold EventLoop.init epollAdd
  dsimp only [recordArming]
  rw [if_pos (show DEFAULT_EXPIRE_TIME > 0 by decide), addTimer_http ?_, getHolder_http ?_]
  · exact howned _ rfl
  · exact howned _ rfl

/-- The descriptor of a connection whose `Init` is queued is registered for nobody. -/
theorem BaseOk.free (h : s.BaseOk wakeupFd) (hid : id ∈ s.pending) (j : HttpId) :
    s.fd2http (s.fdOf id) ≠ some (some j) := by
  intro hj
  have hfd := (h.tables.entries.of_https hj).1
  have hr : s.Registered j := by
    show s.fd2http (s.fdOf j) = _
    rw [hfd]
    exact hj
  have hji : j = id := h.owners.apart j id (Or.inl hr) (Or.inr (Or.inr hid)) hfd
  exact h.not_pending (hji ▸ hr) hid

theorem init_spec (h : s.BaseOk wakeupFd) (hid : id ∈ s.pending) :
    (s.init id).TablesOk wakeupFd ∧ s.Concerns (s.init id) id ∧
      (s.init id).standing id = ⟨true, true⟩ ∧ ((s.init id).http id).Live ∧
      (s.init id).closes = s.closes := by
  have hfresh := h.fresh id hid
  have hnt : ¬ s.Timed id := by
    rw [← standing_timed, show s.standing id = ⟨false, false⟩ from hfresh.standing]
    simp
  have hw := h.owners.notWakeup id (Or.inr (Or.inr hid))
  have hfree := h.free hid
  obtain ⟨h1, h2, -⟩ := h.tables.entries.absent hw hfree
  have hh := TimersOk.holds_addTimerNode s.timerManager id DEFAULT_EXPIRE_TIME s.now
  have hself : insert s.fd2http (s.fdOf id) (some id) (s.fdOf id) = some (some id) := by
    rw [insert, h2]
    exact Function.update_self ..
  have hother : ∀ j, j ≠ id →
      (insert s.fd2http (s.fdOf id) (some id) (s.fdOf j) = some (some j) ↔ s.Registered j) := by
    intro j hj
    rw [insert, h2]
    by_cases hf : s.fdOf j = s.fdOf id
    · have hnj : ¬ s.Registered j := fun hr => hfree j (hf ▸ hr)
      simp [hf, hnj, hj.symm]
    · simp only [Option.isNone_none, if_true]
      rw [Function.update_of_ne hf]
      rfl
  rw [init_eq hid]
  refine ⟨⟨h.tables.entries.add EventMask.inEt hw hfree,
    h.tables.timers.add DEFAULT_EXPIRE_TIME hnt, fun b hb => ?_, h.tables.dels⟩,
    ⟨rfl, rfl, rfl, rfl, fun j hj => ?_⟩, ?_, ?_, rfl⟩
  · rcases List.mem_append.mp hb with hb | hb
    · exact h.tables.adds b hb
    · simpa [h1, h2] using hb
  · exact view_congr (hother j hj) ((hh j).trans (or_iff_left hj)) (Function.update_of_ne hj ..) rfl
  · exact standing_eq ⟨fun _ => rfl, fun _ => hself⟩
      ⟨fun _ => rfl, fun _ => (hh id).mpr (Or.inr rfl)⟩
  · show (Function.update s.http id _ id).Live
    rw [Function.update_self, show s.http id = Http.construct true from hfresh.http]
    exact ⟨rfl, by simp [Http.construct], Or.inl rfl⟩

theorem Ok.callback (h : s.Ok wakeupFd) {batch : List HttpId}
    (hp : s.phase = .running (id :: batch)) : ((s.init id).enter (.running batch)).Ok wakeupFd := by
  have hpend : s.pending = id :: (batch ++ s.callbackList) := by simp [EventLoop.pending, hp]
  have hid : id ∈ s.pending := by simp [hpend]
  obtain ⟨hT, hc, hst, hl, hcl⟩ := init_spec h.toBaseOk hid
  have hnodup := h.pendingNodup
  rw [hpend, List.nodup_cons] at hnodup
  have hpend' : ((s.init id).enter (.running batch)).pending = batch ++ s.callbackList :=
    congrArg (batch ++ ·) hc.callbackList
  have hsub : ∀ j ∈ ((s.init id).enter (.running batch)).pending, j ∈ s.pending ∧ j ≠ id := by
    intro j hj
    rw [hpend'] at hj
    refine ⟨hpend ▸ List.mem_cons_of_mem _ hj, ?_⟩
    rintro rfl
    exact hnodup.1 hj
  refine ⟨⟨⟨hT.entries, hT.timers, hT.adds, hT.dels⟩,
    h.owners.mono hc.fdOf hc.accepted (fun j hj => ?_) fun j _ => congrFun hcl j,
    fun j hj => ?_, hpend' ▸ hnodup.2⟩, fun j hj => ?_,
    .of_idle (by simp [enter]) (by simp [enter])⟩
  · by_cases hji : j = id
    · exact hji ▸ Or.inr (Or.inr hid)
    · rw [owned_iff] at hj ⊢
      rw [← hc.standing hji]
      exact hj.imp_right (Or.imp_right fun hm => (hsub j hm).1)
  · rw [show ((s.init id).enter (.running batch)).view j = s.view j from
      hc.others j (hsub j hj).2]
    exact h.fresh j (hsub j hj).1
  · by_cases hji : j = id
    · subst hji
      have hzero : (s.init j).closes j = 0 := by
        rw [hcl]
        exact (h.fresh j hid).closes
      refine ⟨fun _ => congrArg Standing.registered hst, fun _ => hl, fun _ => hzero,
        hzero.trans_le (Nat.zero_le 1)⟩
    · rw [show ((s.init id).enter (.running batch)).view j = s.view j from hc.others j hji]
      exact h.rests j (by simp [hp, LoopPhase.current])

theorem Ok.ran (h : s.Ok wakeupFd) (hp : s.phase = .running []) :
    (s.enter .expiring).Ok wakeupFd :=
  ⟨h.toBaseOk.enter (by simp [EventLoop.pending, enter, hp]),
    fun id _ => h.rests id (by simp [hp, LoopPhase.current]),
    .of_idle (by simp [enter]) (by simp [enter])⟩

/-! ### HandleExpire -/

theorem Ok.rest (h : s.Ok wakeupFd) (hp : s.phase = .expiring) : (s.enter .polling).Ok wakeupFd :=
  ⟨h.toBaseOk.enter (by simp [EventLoop.pending, enter, hp]),
    fun id _ => h.rests id (by simp [hp, LoopPhase.current]),
    .of_idle (by simp [enter]) (by simp [enter])⟩

/-- The top of the queue is dropped. -/
theorem pop_spec (hT : s.TablesOk wakeupFd) {n : TimerNode}
    (hn : n ∈ s.timerManager.timerNodeQueue) :
    ({ s with timerManager := s.timerManager.pop n }).TablesOk wakeupFd ∧
      (∀ j, n.data ≠ some j →
        ({ s with timerManager := s.timerManager.pop n }).view j = s.view j) ∧
      ∀ id, n.data = some id → s.Performed { s with timerManager := s.timerManager.pop n } id
        ⟨(s.standing id).registered, false⟩ := by
  have hpop := hT.timers.holds_pop hn
  have hview : ∀ j, n.data ≠ some j →
      ({ s with timerManager := s.timerManager.pop n }).view j = s.view j := fun j hj =>
    view_congr Iff.rfl ((hpop j).trans (and_iff_left hj)) rfl rfl
  refine ⟨⟨hT.entries, hT.timers.pop n, hT.adds, hT.dels⟩, hview, fun id hd => ?_⟩
  refine ⟨⟨rfl, rfl, rfl, rfl, fun j hj => hview j ?_⟩, ?_, fun _ => ⟨rfl, rfl⟩, Or.inl rfl⟩
  · rw [hd]
    simpa using hj.symm
  · exact standing_eq (s.standing_registered id).symm
      ((hpop id).trans ⟨fun h => absurd hd h.2, fun h => Bool.noConfusion h⟩)

/-- A node that holds a connection closes it when it is dropped. -/
theorem expire_spec (hT : s.TablesOk wakeupFd) {n : TimerNode}
    (hn : n ∈ s.timerManager.timerNodeQueue) (hd : n.data = some id) (hr : s.Registered id) :
    (s.expire n).TablesOk wakeupFd ∧ s.Performed (s.expire n) id ⟨false, false⟩ := by
  obtain ⟨hT', -, hpop⟩ := pop_spec hT hn
  have hpop := hpop id hd
  unfold EventLoop.expire
  rw [hd]
  dsimp only
  generalize ({ s with timerManager := s.timerManager.pop n } : EventLoop) = u at hT' hpop ⊢
  have hru : u.Registered id := by
    rw [← standing_registered, hpop.standing]
    exact (s.standing_registered id).mpr hr
  obtain ⟨hTu, hclose⟩ := handleClose_spec hT' hru
  rw [hpop.standing] at hclose
  have hgone : ¬ (u.handleClose id).Registered id := by
    rw [← standing_registered, hclose.standing]
    simp
  refine ⟨hTu, ⟨hclose.fdOf.trans hpop.fdOf, hclose.accepted.trans hpop.accepted,
    hclose.callbackList.trans hpop.callbackList, hclose.phase.trans hpop.phase,
    fun j hj => (hclose.others j hj).trans (hpop.others j hj)⟩, hclose.standing,
    fun h => absurd h hgone, ?_⟩
  rw [← (hpop.kept hru).2]
  exact hclose.counted.imp_right fun h => ⟨hr, h.2⟩

theorem expire_standing (hT : s.TablesOk wakeupFd) {n : TimerNode}
    (hn : n ∈ s.timerManager.timerNodeQueue) (hr : ∀ id, n.data = some id → s.Registered id)
    (j : HttpId) : (s.expire n).standing j = s.standing j ∨
      (s.expire n).standing j = ⟨false, false⟩ := by
  cases hd : n.data with
  | none =>
    obtain ⟨-, hview, -⟩ := pop_spec hT hn
    refine Or.inl ?_
    unfold EventLoop.expire
    rw [hd]
    exact congrArg View.standing (hview j (by simp [hd]))
  | some id =>
    obtain ⟨-, hperf⟩ := expire_spec hT hn hd (hr id hd)
    by_cases hj : j = id
    · rw [hj]
      exact Or.inr hperf.standing
    · exact Or.inl (hperf.toConcerns.standing hj)

/-- Between events a node only holds a registered connection. -/
theorem Ok.registered_of_data (h : s.Ok wakeupFd) (hp : s.phase = .expiring) {n : TimerNode}
    (hn : n ∈ s.timerManager.timerNodeQueue) (hd : n.data = some id) : s.Registered id := by
  rw [← standing_registered]
  exact (h.rests id (by simp [hp, LoopPhase.current])).gone
    ((s.standing_timed id).mpr ⟨n, hn, hd⟩)

theorem Ok.expire (h : s.Ok wakeupFd) (hp : s.phase = .expiring) {n : TimerNode}
    (hn : n ∈ s.timerManager.timerNodeQueue) : (s.expire n).Ok wakeupFd := by
  have hrests : ∀ j, (s.view j).Rests := fun j => h.rests j (by simp [hp, LoopPhase.current])
  cases hd : n.data with
  | none =>
    obtain ⟨hT, hview, -⟩ := pop_spec h.tables hn
    unfold EventLoop.expire
    rw [hd]
    dsimp only
    have hsame : ∀ j, ({ s with timerManager := s.timerManager.pop n }).view j = s.view j :=
      fun j => hview j (by simp [hd])
    refine ⟨⟨hT, h.owners.mono rfl rfl (fun j hj => ?_) fun _ _ => rfl, fun j hj => ?_,
      h.pendingNodup⟩, fun j _ => ?_, .of_idle (by simp [hp]) (by simp [hp])⟩
    · rw [owned_iff] at hj ⊢
      rw [← show _ = s.standing j from congrArg View.standing (hsame j)]
      exact hj
    · rw [hsame j]
      exact h.fresh j hj
    · rw [hsame j]
      exact hrests j
  | some id =>
    have hr := h.registered_of_data hp hn hd
    obtain ⟨hT, hperf⟩ := expire_spec h.tables hn hd hr
    have hphase := hperf.phase.trans hp
    refine ⟨hperf.baseOk h.toBaseOk hT (h.not_pending hr) fun _ => Or.inl hr, fun j _ => ?_,
      .of_idle (by simp [hphase]) (by simp [hphase])⟩
    · by_cases hj : j = id
      · subst hj
        refine View.rests_of_unheld hperf.standing ?_
        have hc : s.closes j = 0 := (hrests j).unclosed ((s.standing_registered j).mpr hr)
        show (s.expire n).closes j ≤ 1
        rcases hperf.counted with h | ⟨-, h⟩ <;> rw [h, hc]
        exact Nat.zero_le 1
      · rw [hperf.others j hj]
        exact hrests j

/-! ## Every run -/

/-- **Every step preserves the invariant.** -/
theorem Ok.step (h : s.Ok wakeupFd) {a : LoopStep} {t : EventLoop} (hs : Steps wakeupFd s a t) :
    t.Ok wakeupFd := by
  cases hs with
  | accept fd hw hfree => exact h.accept hw hfree
  | tick ms => exact h.retime ms s.timeoutCount
  | wait returned hp _ hn hr => exact h.wait hp hn hr
  | wakeup hp => exact h.wakeup hp
  | begin d hp => exact h.begin hp
  | effect hp htodo => exact h.effect hp htodo
  | handled hp htodo => exact h.handled hp htodo
  | swap hp => exact h.swap hp
  | callback hp => exact h.callback hp
  | ran hp => exact h.ran hp
  | expire n hp htop _ => exact h.expire hp htop.1
  | rest hp _ => exact h.rest hp

theorem reachable_ok (h : (loops wakeupFd).Reachable s) : s.Ok wakeupFd := by
  refine h.invariant (I := fun s => s.Ok wakeupFd) ?_ fun s a t _ hI hs => hI.step hs
  rintro s ⟨now, rfl⟩
  exact ok_construct wakeupFd now

/-- **The maps stay consistent and no connection is closed twice.** -/
theorem registry_consistent (h : (loops wakeupFd).Reachable s) :
    (∀ fd, (s.fd2channel fd).isSome = (s.fd2http fd).isSome) ∧
      (∀ fd, s.fd2channel fd ≠ some none) ∧
      (∀ returned t, Steps wakeupFd s (.wait returned) t → t.fd2channel = s.fd2channel) ∧
      (∀ absent ∈ s.adds, absent = true) ∧ (∀ n ∈ s.dels, n = 1) ∧
      ∀ id, s.closes id ≤ 1 := by
  have hok := reachable_ok h
  refine ⟨hok.tables.entries.keys, hok.tables.entries.not_null, fun returned t hs => ?_,
    hok.tables.adds, hok.tables.dels, fun id => ?_⟩
  · cases hs with
    | wait _ hp _ _ hr =>
      have hchan : ∀ r ∈ returned, ∃ c, s.fd2channel r.1 = some (some c) := fun r hrr => by
        obtain ⟨mask, hm, -⟩ := hr r hrr
        exact hok.tables.entries.channel_of_interest (by rw [hm]; rfl)
      unfold EventLoop.wait
      rw [epollWait_eq s.fd2channel returned hchan]
  · by_cases hc : s.phase.current = some id
    · cases hp : s.phase with
      | handling x =>
        obtain rfl : x.id = id := by simpa [hp, LoopPhase.current] using hc
        exact (hok.phase.handling x hp).once
      | _ => simp [hp, LoopPhase.current] at hc
    · exact (hok.rests id hc).once

/-- After a connection was closed by its timer. -/
theorem registry_consistent_timedOut :
    (timedOut.expire servingNode).adds = [true, true] ∧
      (timedOut.expire servingNode).dels = [1] ∧ (timedOut.expire servingNode).closes 0 = 1 ∧
      ∀ fd, ((timedOut.expire servingNode).fd2channel fd).isSome =
        ((timedOut.expire servingNode).fd2http fd).isSome :=
  ⟨rfl, rfl, rfl, (registry_consistent (timedOut_reachable.step timedOut_expire)).1⟩

end EventLoop

end FlashWeb
